import BlockStage.Query.Calendar
import BlockStage.Query.Format

/-!
# Points in time

A point in time is given as a date, as a time of the day, as both, or as a number, and
words behind it move it.  It is known as an instant, or as a day and a time, and turned
from one into the other when it has to be.  The present is always the same here: what
happens at which time is nobody's concern.
-/

namespace BlockStage

namespace Query

open Pages (Value bytesOf)

/-- A point in time, as far as it is known. -/
structure Moment where
  instant : Option Int := none
  day : Option Day := none
  clock : Option Clock := none
  /-- The minutes by which the time differs from the universal one. -/
  zone : Int := 0
  /-- A number that has not been understood yet. -/
  raw : Option Float := none
  /-- The days by which the day is behind the end of its month. -/
  surplus : Int := 0
  isUniversal : Bool := false
  isLocal : Bool := false
  /-- Whether parts of a second are shown. -/
  showsParts : Bool := false
  isFaulty : Bool := false

/-- Why there is no point in time. -/
inductive Obscurity where
  /-- It cannot be understood. -/
  | unreadable
  /-- It depends on when or where it is asked for, which is not allowed. -/
  | unsteady

namespace Moment

abbrev Attempt := Except Obscurity

/-! ### Forms of a moment -/

def placed (moment : Moment) : Moment :=
  match moment.instant with
  | some _ => moment
  | none =>
      let day := moment.day.getD ⟨2000, 1, 1⟩
      if day.year < -4713 ∨ 9999 < day.year ∨ moment.raw.isSome then { isFaulty := true }
      else
        let start := Calendar.startOf day
        match moment.clock with
        | none => { moment with instant := some start }
        | some clock =>
            let instant := start + clock.hour * 3600000 + clock.minute * 60000 +
              Number.toWhole (clock.second * 1000 + 0.5)
            if moment.zone = 0 then { moment with instant := some instant }
            else
              { moment with
                instant := some (instant - moment.zone * 60000), day := none, clock := none
                zone := 0, isUniversal := true, isLocal := false }

def time (moment : Moment) : Int := moment.placed.instant.getD 0

def dated (moment : Moment) : Moment :=
  match moment.day, moment.instant with
  | some _, _ => moment
  | none, none => { moment with day := some ⟨2000, 1, 1⟩ }
  | none, some instant =>
      if Calendar.isDated instant then { moment with day := some (Calendar.dayOf instant) }
      else { isFaulty := true }

def clocked (moment : Moment) : Moment :=
  match moment.clock with
  | some _ => moment
  | none =>
      let moment := moment.placed
      { moment with clock := some (Calendar.clockOf (moment.instant.getD 0)), raw := none }

def complete (moment : Moment) : Moment := moment.dated.clocked

def bare (moment : Moment) : Moment := { moment with day := none, clock := none, zone := 0 }

def moved (moment : Moment) (distance : Int) : Moment :=
  let moment := moment.placed
  { moment with instant := moment.instant.map (· + distance) }

/-- The moment that a number stands for: an instant in days, if it can be. -/
def ofNumber (number : Float) : Moment :=
  { raw := some number
    instant := if 0 ≤ number && number < 5373484.5 then
        some (Number.toWhole (number * 86400000 + 0.5))
      else none }

def now : Moment :=
  { instant := some (Calendar.startOf ⟨2026, 6, 15⟩ + Calendar.halfDay), isUniversal := true }

/-! ### Reading -/

def number? (count : Nat) (least most : Int) (text : List Char) : Option (Int × List Char) :=
  let digits := text.take count
  let value : Int := Grammar.digitsValue 10 digits
  if digits.length = count ∧ digits.all Char.isDigit ∧ least ≤ value ∧ value ≤ most then
    some (value, text.drop count)
  else none

def passOver? (character : Char) : List Char → Option (List Char)
  | first :: rest => if first = character then some rest else none
  | [] => none

def hours? (most : Int) (text : List Char) : Option (Int × Int × List Char) := do
  let (hour, rest) ← number? 2 0 most text
  let rest ← passOver? ':' rest
  let (minute, rest) ← number? 2 0 59 rest
  some (hour, minute, rest)

/-- Reads the zone behind a time, up to the end of the text. -/
def zoned? (moment : Moment) (text : List Char) : Option Moment :=
  let isDone := fun (rest : List Char) => (rest.dropWhile Number.isSpace).isEmpty
  let universal := { moment with zone := 0, isLocal := false, isUniversal := true }
  match text.dropWhile Number.isSpace with
  | [] => some { moment with zone := 0 }
  | first :: rest =>
      if first = 'Z' ∨ first = 'z' then if isDone rest then some universal else none
      else if first = '+' ∨ first = '-' then do
        let (hour, minute, rest) ← hours? 14 rest
        let size := minute + hour * 60
        if !isDone rest then none
        else if size = 0 then some universal
        else some { moment with zone := if first = '-' then -size else size }
      else none

def partOf (digits : List Char) : Float :=
  let (value, scale) := digits.foldl
    (fun (value, scale) digit => (value * 10 + Float.ofNat (digit.toNat - 48), scale * 10))
    ((0 : Float), (1 : Float))
  value / scale

/-- Reads a time of the day, up to the end of the text. -/
def timed? (moment : Moment) (text : List Char) : Option Moment := do
  let (hour, minute, rest) ← hours? 24 text
  let (second, rest) ← match rest with
    | ':' :: rest => do
        let (second, rest) ← number? 2 0 59 rest
        let second := Float.ofInt second
        match rest with
        | '.' :: rest =>
            let (digits, behind) := rest.span Char.isDigit
            if digits.isEmpty then some (second, '.' :: rest)
            else some (second + partOf digits, behind)
        | rest => some (second, rest)
    | rest => some (0, rest)
  zoned? { moment with instant := none, raw := none, clock := some ⟨hour, minute, second⟩ } rest

/-- Reads a date, and a time behind it, up to the end of the text. -/
def dated? (text : List Char) : Option Moment := do
  let (isNegative, rest) := match text with
    | '-' :: rest => (true, rest)
    | rest => (false, rest)
  let (year, rest) ← number? 4 0 14712 rest
  let rest ← passOver? '-' rest
  let (month, rest) ← number? 2 1 12 rest
  let rest ← passOver? '-' rest
  let (day, rest) ← number? 2 1 31 rest
  let day : Day := { year := if isNegative then -year else year, month, day }
  let rest := rest.dropWhile fun character => Number.isSpace character || character == 'T'
  let moment : Moment ← if rest.isEmpty then some {} else timed? {} rest
  let moment := { moment with day := some day, surplus := Calendar.surplus day }
  some (if moment.zone = 0 then moment else moment.placed)

def numeral? (text : List Char) : Option Float :=
  match Number.readReal text with
  | (value, .whole) => some value
  | (value, .real) => some value
  | _ => none

def small (text : List Char) : String := String.ofList (text.map Char.toLower)

def read (isSteady : Bool) (text : List Char) : Attempt Moment :=
  match dated? text <|> timed? {} text with
  | some moment => .ok moment
  | none =>
      if small text = "now" then if isSteady then .error .unsteady else .ok now
      else
        match numeral? text with
        | some number => .ok (ofNumber number)
        | none =>
            if small text = "subsec" ∨ small text = "subsecond" then
              if isSteady then .error .unsteady else .ok { now with showsParts := true }
            else .error .unreadable

/-! ### Moving -/

/-- The units of time with the limits of their counts and their seconds. -/
def units : List (String × Float × Float) :=
  [("second", 4.6427e14, 1), ("minute", 7.7379e12, 60), ("hour", 1.2897e11, 3600),
    ("day", 5373485, 86400), ("month", 176546, 2592000), ("year", 14713, 31536000)]

/-- The moment with a number understood as a count of days or of seconds, by its size. -/
def guessed (moment : Moment) : Moment :=
  match moment.raw, moment.instant with
  | some number, none =>
      if -210866760000 ≤ number && number ≤ 253402300799 then
        { moment.bare with
          instant := some (Number.toWhole (number * 1000 + 210866760000000 + 0.5)), raw := none }
      else moment
  | _, _ => { moment with raw := none }

/-- The moment with a number understood as seconds since the epoch. -/
def sinceEpoch (moment : Moment) : Attempt Moment :=
  match moment.raw with
  | none => .error .unreadable
  | some number =>
      let instant := number * 1000 + 210866760000000
      if 0 ≤ instant && instant < 464269060800000 then
        .ok { moment.bare with instant := some (Number.toWhole (instant + 0.5)), raw := none }
      else .error .unreadable

/-- The moment as a local one, where local time is the universal one. -/
def localised (moment : Moment) : Moment :=
  if moment.isLocal then { moment with isUniversal := false }
  else
    let moment := moment.placed
    let instant := moment.instant.getD 0
    { moment with
      instant := none, day := some (Calendar.dayOf instant), clock := some (Calendar.clockOf instant)
      raw := none, zone := 0, isFaulty := false, isUniversal := false, isLocal := true }

def universal (moment : Moment) : Moment :=
  if moment.isUniversal then moment
  else { instant := moment.placed.instant, isUniversal := true }

/-- The same time on the next day of the week with a number. -/
def onWeekday (moment : Moment) (weekday : Int) : Moment :=
  let moment := { moment.complete with zone := 0, instant := none }.placed
  let today := Calendar.sinceSunday (moment.instant.getD 0)
  let today := if weekday < today then today - 7 else today
  (moment.moved ((weekday - today) * Calendar.dayLength)).bare

def startOf (moment : Moment) (part : String) : Attempt Moment :=
  if moment.instant.isNone ∧ moment.day.isNone ∧ moment.clock.isNone then .error .unreadable
  else
    let moment := { moment.dated with
      clock := some ⟨0, 0, 0⟩, raw := none, zone := 0, instant := none }
    if part = "day" then .ok moment
    else if part = "month" then
      .ok { moment with day := moment.day.map fun day => { day with day := 1 } }
    else if part = "year" then
      .ok { moment with day := moment.day.map fun day => { day with month := 1, day := 1 } }
    else .error .unreadable

def movedByClock (moment : Moment) (isNegative : Bool) (text : List Char) : Attempt Moment :=
  match timed? {} text with
  | none => .error .unreadable
  | some shift =>
      let distance := (shift.time - Calendar.halfDay).tmod Calendar.dayLength
      .ok (moment.placed.bare.moved (if isNegative then -distance else distance))

/-- The moment moved by years, months and days, and perhaps by a time of the day. -/
def movedByDate (moment : Moment) (isNegative : Bool) (digits : Nat) (text : List Char) :
    Attempt Moment := do
  let parts := do
    let (years, rest) ← number? digits 0 14712 text
    let rest ← passOver? '-' rest
    let (months, rest) ← number? 2 0 11 rest
    let rest ← passOver? '-' rest
    let (days, rest) ← number? 2 0 30 rest
    some (years, months, days, rest)
  match parts with
  | none => .error .unreadable
  | some (years, months, days, rest) =>
      let sign : Int := if isNegative then -1 else 1
      let moment := moment.complete
      let day := moment.day.getD ⟨2000, 1, 1⟩
      let day := Calendar.carried { day with
        year := day.year + sign * years, month := day.month + sign * months }
      let moment := { moment with day := some day, instant := none, surplus := Calendar.surplus day }
      let moment := moment.placed
      let moment := { moment with day := none, clock := none }.moved
        (sign * days * Calendar.dayLength)
      match rest with
      | [] => .ok moment
      | space :: rest =>
          if Number.isSpace space && (hours? 24 rest).isSome then
            moment.movedByClock isNegative rest
          else .error .unreadable

def movedByUnits (moment : Moment) (count : Float) (unit : List Char) : Attempt Moment :=
  let unit := unit.dropWhile Number.isSpace
  let name := small unit
  let name := if name.endsWith "s" then String.ofList name.toList.dropLast else name
  if unit.length < 3 ∨ 10 < unit.length then .error .unreadable
  else
    match units.lookup name with
    | none => .error .unreadable
    | some (limit, seconds) =>
        if !(-limit < count && count < limit) then .error .unreadable
        else
          let moment := { moment.placed with surplus := 0 }
          let whole := Number.toWhole count
          let shifted := fun (change : Day → Day) =>
            let moment := moment.complete
            let day := Calendar.carried (change (moment.day.getD ⟨2000, 1, 1⟩))
            ({ moment with day := some day, instant := none, surplus := Calendar.surplus day },
              count - Float.ofInt whole)
          let (moment, count) :=
            if name = "month" then shifted fun day => { day with month := day.month + whole }
            else if name = "year" then shifted fun day => { day with year := day.year + whole }
            else (moment, count)
          let half : Float := if count < 0 then -0.5 else 0.5
          .ok (moment.moved (Number.toWhole (count * 1000 * seconds + half))).bare

/-- How many characters in front of a move form its number.  A line ends it if it
stands behind a year. -/
def numberSize (text : List Char) : Nat :=
  go 1 (text.drop 1)
where
  /-- Goes on behind so many characters. -/
  go (count : Nat) : List Char → Nat
    | [] => count
    | character :: rest =>
        let isYear := (count == 5 || count == 6) &&
          (number? (count - 1) 0 14712 (text.drop 1)).isSome
        if character = ':' ∨ Number.isSpace character ∨ (character = '-' ∧ isYear) then count
        else go (count + 1) rest

/-- The moment moved by a text that starts with a sign or a digit. -/
def movedBy (moment : Moment) (text : List Char) : Attempt Moment :=
  let size := numberSize text
  let isNegative := text.head? = some '-'
  let hasSign := isNegative ∨ text.head? = some '+'
  match numeral? (text.take size), text.drop size with
  | none, _ => .error .unreadable
  | some _, '-' :: _ =>
      if hasSign then moment.movedByDate isNegative (size - 1) (text.drop 1)
      else .error .unreadable
  | some _, ':' :: _ =>
      moment.movedByClock isNegative (if hasSign then text.drop 1 else text)
  | some count, rest => moment.movedByUnits count rest

/-- A part of a text behind another one that it has to start with. -/
def behind? (start : String) (text : List Char) : Option (List Char) :=
  if small (text.take start.length) = start then some (text.drop start.length) else none

/-- The moment moved as a text says, which is one of several. -/
def modified (isSteady : Bool) (moment : Moment) (position : Nat) (text : List Char) :
    Attempt Moment :=
  let word := small text
  let isFirst := position ≤ 1
  if word = "auto" then if isFirst then .ok moment.guessed else .error .unreadable
  else if word = "ceiling" then .ok { moment.placed.bare with surplus := 0 }
  else if word = "floor" then
    .ok (moment.placed.moved (-moment.surplus * Calendar.dayLength)).bare
  else if word = "julianday" then
    if isFirst ∧ moment.instant.isSome ∧ moment.raw.isSome then .ok { moment with raw := none }
    else .error .unreadable
  else if word = "unixepoch" then if isFirst then moment.sinceEpoch else .error .unreadable
  else if word = "localtime" then
    if isSteady then .error .unsteady else .ok moment.localised
  else if word = "utc" then if isSteady then .error .unsteady else .ok moment.universal
  else if word = "subsec" ∨ word = "subsecond" then .ok { moment with showsParts := true }
  else
    match behind? "weekday " text, behind? "start of " text, text.head? with
    | some rest, _, _ =>
        match numeral? rest with
        | some number =>
            if 0 ≤ number && number < 7 && Float.ofInt (Number.toWhole number) == number then
              .ok (moment.onWeekday (Number.toWhole number))
            else .error .unreadable
        | none => .error .unreadable
    | none, some rest, _ => moment.startOf (small rest)
    | none, none, some first =>
        if first = '+' ∨ first = '-' ∨ first.isDigit then moment.movedBy text
        else .error .unreadable
    | none, none, none => .error .unreadable

def modifiedBy (isSteady : Bool) : Moment → Nat → List Value → Attempt Moment
  | moment, _, [] => .ok moment
  | moment, position, value :: values => do
      if value.isNull then .error .unreadable
      else
        let text := (Number.characters value.textBytes).takeWhile (· != '\x00')
        modifiedBy isSteady (← moment.modified isSteady position text) (position + 1) values

def of (isSteady : Bool) (values : List Value) : Attempt Moment := do
  match values with
  | [] => if isSteady then .error .unsteady else .ok now
  | first :: rest =>
      let start ← match first with
        | .null => .error .unreadable
        | .whole number => .ok (ofNumber (Number.ofWhole number))
        | .real bits => .ok (ofNumber (Number.ofBits bits))
        | value =>
            read isSteady ((Number.characters value.textBytes).takeWhile (· != '\x00'))
      let moment := (← start.modifiedBy isSteady 1 rest).placed
      if moment.isFaulty ∨ !Calendar.isDated (moment.instant.getD 0) then .error .unreadable
      else if rest.isEmpty ∧ (moment.day.any fun day => decide (28 < day.day)) then
        .ok { moment with day := none }
      else .ok moment

/-! ### Writing -/

def padded (width : Nat) (number : Int) : List UInt8 :=
  ({ isPadded := true, width } : Format.Directive).signedNumber number []

def spaced (width : Nat) (number : Int) : List UInt8 :=
  ({ width } : Format.Directive).signedNumber number []

def exactSeconds (second : Float) : List UInt8 :=
  ({ isPadded := true, width := 6, precision := some 3 } : Format.Directive).realNumber .fixed 'e'
    second

def ascii (text : String) : List UInt8 := Format.asciiBytes text.toList

def dayText (moment : Moment) : List UInt8 :=
  let day := (moment.dated.day).getD ⟨2000, 1, 1⟩
  (if day.year < 0 then ascii "-" else []) ++ padded 4 day.year.natAbs ++ ascii "-" ++
    padded 2 day.month ++ ascii "-" ++ padded 2 day.day

def clockText (moment : Moment) : List UInt8 :=
  let clock := (moment.clocked.clock).getD ⟨0, 0, 0⟩
  let thousandths := Number.toWhole (clock.second * 1000 + 0.5)
  padded 2 clock.hour ++ ascii ":" ++ padded 2 clock.minute ++ ascii ":" ++
    if moment.showsParts then
      padded 2 (thousandths.tdiv 1000) ++ ascii "." ++ padded 3 (thousandths.tmod 1000)
    else padded 2 (Number.toWhole clock.second)

def daysInYear (moment : Moment) : Int :=
  let moment := moment.placed.complete
  let first := moment.day.map fun day : Day => { day with month := 1, day := 1 }
  let start := { moment with instant := none, day := first }
  (moment.time - start.time + Calendar.halfDay).tdiv Calendar.dayLength

def thursday (moment : Moment) : Moment :=
  let instant := moment.time
  let moment := { moment.placed with
    instant := some (instant + (3 - Calendar.sinceMonday instant) * Calendar.dayLength), day := none }
  moment.dated

def epochSeconds (instant : Int) : Int := instant.tdiv 1000 - 210866760000

def letter? (moment : Moment) (letter : Char) : Option (List UInt8) :=
  let moment := moment.placed.complete
  let instant := moment.time
  let day := moment.day.getD ⟨2000, 1, 1⟩
  let clock := moment.clock.getD ⟨0, 0, 0⟩
  let second := Number.toWhole clock.second
  let half := if 12 < clock.hour then clock.hour - 12 else if clock.hour = 0 then 12 else clock.hour
  let time := padded 2 clock.hour ++ ascii ":" ++ padded 2 clock.minute
  match letter with
  | 'd' => some (padded 2 day.day)
  | 'e' => some (spaced 2 day.day)
  | 'f' => some (exactSeconds (if clock.second > 59.999 then 59.999 else clock.second))
  | 'F' =>
      some (padded 4 day.year ++ ascii "-" ++ padded 2 day.month ++ ascii "-" ++ padded 2 day.day)
  | 'G' => some (padded 4 ((moment.thursday.day).getD day).year)
  | 'g' => some (padded 2 (((moment.thursday.day).getD day).year.tmod 100))
  | 'H' => some (padded 2 clock.hour)
  | 'k' => some (spaced 2 clock.hour)
  | 'I' => some (padded 2 half)
  | 'l' => some (spaced 2 half)
  | 'j' => some (padded 3 (moment.daysInYear + 1))
  | 'J' =>
      some (({ precision := some 16 } : Format.Directive).realNumber .general 'e'
        (Float.ofInt instant / 86400000))
  | 'm' => some (padded 2 day.month)
  | 'M' => some (padded 2 clock.minute)
  | 'p' => some (ascii (if 12 ≤ clock.hour then "PM" else "AM"))
  | 'P' => some (ascii (if 12 ≤ clock.hour then "pm" else "am"))
  | 'R' => some time
  | 's' =>
      if moment.showsParts then
        some (({ precision := some 3 } : Format.Directive).realNumber .fixed 'e'
          (Float.ofInt (instant - Calendar.epoch) / 1000))
      else some (spaced 0 (epochSeconds instant))
  | 'S' => some (padded 2 second)
  | 'T' => some (time ++ ascii ":" ++ padded 2 second)
  | 'u' =>
      let weekday := Calendar.sinceSunday instant
      some (spaced 0 (if weekday = 0 then 7 else weekday))
  | 'w' => some (spaced 0 (Calendar.sinceSunday instant))
  | 'U' => some (padded 2 ((moment.daysInYear - Calendar.sinceSunday instant + 7).tdiv 7))
  | 'V' => some (padded 2 (moment.thursday.daysInYear.tdiv 7 + 1))
  | 'W' => some (padded 2 ((moment.daysInYear - Calendar.sinceMonday instant + 7).tdiv 7))
  | 'Y' => some (padded 4 day.year)
  | '%' => some (ascii "%")
  | _ => none

def format? (moment : Moment) : List UInt8 → Option (List UInt8)
  | [] => some []
  | [byte] => if byte = 37 then none else some [byte]
  | byte :: letter :: rest =>
      if byte = 37 then do
        let written ← moment.letter? (Char.ofNat letter.toNat)
        let others ← moment.format? rest
        some (written ++ others)
      else (moment.format? (letter :: rest)).map (byte :: ·)

/-! ### The time between moments -/

/-- Moves a moment by months towards another one until it is not beyond it, with fuel
for the months.  Gives the months that are left, too. -/
def approach (isForward : Bool) (target : Int) : Nat → Moment → Int → Moment × Int
  | 0, moment, months => (moment, months)
  | fuel + 1, moment, months =>
      let isBeyond := if isForward then target < moment.time else moment.time < target
      if isBeyond then
        let day := moment.day.getD ⟨2000, 1, 1⟩
        let day := Calendar.carried { day with
          month := if isForward then day.month - 1 else day.month + 1 }
        approach isForward target fuel { moment with day := some day, instant := none } (months - 1)
      else (moment, months)

def between (first second : Moment) : List UInt8 :=
  let first := first.complete
  let second := second.complete
  let isForward := decide (second.time ≤ first.time)
  let own := first.day.getD ⟨2000, 1, 1⟩
  let other := second.day.getD ⟨2000, 1, 1⟩
  let months := (own.year - other.year) * 12 + (own.month - other.month)
  let months := if isForward then months else -months
  let start := if own.year = other.year ∧ own.month = other.month then second
    else { second with
      day := some { other with year := own.year, month := own.month }, instant := none }
  let (start, months) := approach isForward first.time 40 start months
  let distance := if isForward then first.time - start.time else start.time - first.time
  let rest := ({ instant := some (distance + 148699540800000) } : Moment).complete
  let day := rest.day.getD ⟨2000, 1, 1⟩
  let clock := rest.clock.getD ⟨0, 0, 0⟩
  ascii (if isForward then "+" else "-") ++ padded 4 (months.tdiv 12) ++ ascii "-" ++
    padded 2 (months.tmod 12) ++ ascii "-" ++ padded 2 (day.day - 1) ++ ascii " " ++
    padded 2 clock.hour ++ ascii ":" ++ padded 2 clock.minute ++ ascii ":" ++
    exactSeconds clock.second

/-! ### Functions -/

def present (kind : String) : Value :=
  .text (bytesOf (if kind = "current_date" then now.dayText
    else if kind = "current_time" then now.clockText
    else now.dayText ++ ascii " " ++ now.clockText))

def told (function : String) (moment : Moment) : Value :=
  let text := fun bytes : List UInt8 => Value.text (bytesOf bytes)
  match function with
  | "date" => text moment.dayText
  | "time" => text moment.clockText
  | "datetime" => text (moment.dayText ++ ascii " " ++ moment.clockText)
  | "julianday" => .ofFloat (Float.ofInt moment.time / 86400000)
  | _ =>
      if moment.showsParts then .ofFloat (Float.ofInt (moment.time - Calendar.epoch) / 1000)
      else .whole (epochSeconds moment.time)

/-- The functions of time with the counts of their arguments. -/
def functions : List (String × Nat × Option Nat) :=
  [("date", 0, none), ("datetime", 0, none), ("julianday", 0, none), ("strftime", 1, none),
    ("time", 0, none), ("timediff", 2, some 2), ("unixepoch", 0, none)]

/-- The name of a function of time where it must not depend on the present. -/
def steadyName (function : String) : String := "steady " ++ function

/-- Applies a function of time to values.  What cannot be understood is nothing; what
depends on the present is refused where it has to be. -/
def compute? (function : String) (values : List Value) : Option Value :=
  let isSteady := !(functions.lookup function).isSome
  let names := functions.map Prod.fst
  match names.find? fun name => function == (if isSteady then steadyName name else name) with
  | none => none
  | some name =>
      let result : Attempt Value :=
        if name = "timediff" then do
          let first ← of isSteady (values.take 1)
          let second ← of isSteady ((values.drop 1).take 1)
          return .text (bytesOf (between first second))
        else if name = "strftime" then
          match values with
          | [] => .error .unreadable
          | .null :: _ => .error .unreadable
          | pattern :: rest => do
              let moment ← of isSteady rest
              match moment.format? (pattern.textBytes.toList.takeWhile (· != 0)) with
              | some written => return .text (bytesOf written)
              | none => .error .unreadable
        else do return told name (← of isSteady values)
      match result with
      | .ok value => some value
      | .error .unreadable => some .null
      | .error .unsteady => none

end Moment

end Query

end BlockStage
