import BlockStage.Query.Grammar

/-!
# Numbers and texts

Values turn into one another when a command asks for another kind.  A text is read
as a number as far as it looks like one, and it matters how far that is.  A real
number is written with fifteen digits at the most.
-/

namespace BlockStage

namespace Query

/-- What a text is when it is read as a real number. -/
inductive RealForm where
  /-- A whole number without a point or an exponent. -/
  | whole
  /-- A number with a point or an exponent. -/
  | real
  /-- Something that starts with such a number. -/
  | realStart
  /-- Anything else. -/
  | other
deriving DecidableEq

/-- What a text is when it is read as a whole number. -/
inductive WholeForm where
  | exact
  /-- Something else follows. -/
  | start
  /-- There is no digit. -/
  | none
  /-- The number is not within the limits. -/
  | tooLarge
deriving DecidableEq

namespace Number

/-- Whether a character is a space in front of or behind a number. -/
def isSpace (character : Char) : Bool :=
  character == ' ' || decide (9 ≤ character.toNat ∧ character.toNat ≤ 13)

def characters (bytes : ByteArray) : List Char :=
  bytes.toList.map fun byte => Char.ofNat byte.toNat

/-- Splits off a sign, and tells whether it is a minus. -/
def splitSign (text : List Char) : Bool × List Char :=
  match text with
  | '-' :: rest => (true, rest)
  | '+' :: rest => (false, rest)
  | rest => (false, rest)

def readReal (text : List Char) : Float × RealForm :=
  let (isNegative, rest) := splitSign (text.dropWhile isSpace)
  let (whole, rest) := rest.span Char.isDigit
  let (hasPoint, fraction, rest) :=
    match rest with
    | '.' :: rest =>
        let (fraction, rest) := rest.span Char.isDigit
        (true, fraction, rest)
    | rest => (false, [], rest)
  let (hasExponent, exponent, rest) : Bool × Option Int × List Char :=
    match rest with
    | mark :: rest =>
        if mark = 'e' ∨ mark = 'E' then
          let (isDown, rest) := splitSign rest
          let (digits, rest) := rest.span Char.isDigit
          let size := min Grammar.maxPower (Grammar.digitsValue 10 digits)
          if digits.isEmpty then (true, none, rest)
          else (true, some (if isDown then -(size : Int) else size), rest)
        else (false, some 0, mark :: rest)
    | [] => (false, some 0, [])
  let digits := whole ++ fraction
  let size := Digits.toFloat (Grammar.digitsOf whole) (Grammar.digitsOf fraction)
    (exponent.getD 0)
  let value := if isNegative then -size else size
  let isComplete := (rest.dropWhile isSpace).isEmpty
  let isValid := exponent.isSome && !digits.isEmpty
  let isReal := hasPoint || hasExponent
  if isComplete && isValid then (value, if isReal then .real else .whole)
  else if isReal && !digits.isEmpty && ((hasPoint && hasExponent) || exponent.isSome) then
    (value, .realStart)
  else (value, .other)

def largest : Int := Grammar.wholeLimit - 1

def smallest : Int := -Grammar.wholeLimit

def clamp (value : Int) : Int := max smallest (min largest value)

def readWhole (text : List Char) : Int × WholeForm :=
  let (isNegative, rest) := splitSign (text.dropWhile isSpace)
  let (digits, rest) := rest.span Char.isDigit
  let size : Int := Grammar.digitsValue 10 digits
  let value := if isNegative then -size else size
  if digits.isEmpty then (0, .none)
  else if clamp value ≠ value then (clamp value, .tooLarge)
  else if (rest.dropWhile isSpace).isEmpty then (value, .exact)
  else (value, .start)

/-! ### Real numbers -/

def ofBits (bits : Nat) : Float := Float.ofBits (UInt64.ofNat bits)

/-- The exact value of a finite real number, in units. -/
def unitsOf (value : Float) : Int :=
  let size : Int := Binary64.units (Binary64.index value)
  if Binary64.isNegative value then -size else size

def ofWhole (value : Int) : Float :=
  Decimal.toFloat ⟨decide (value < 0), value.natAbs, 0⟩

/-- The whole number towards zero from a real one, within the limits. -/
def toWhole (value : Float) : Int :=
  if value.isNaN then 0
  else if value.isInf then if Binary64.isNegative value then smallest else largest
  else clamp ((unitsOf value).tdiv Binary64.unitsPerOne)

/-- The whole number that a real one is, if it is one within the limits. -/
def exactWhole? (value : Float) : Option Int :=
  let whole := toWhole value
  if value.isFinite && unitsOf value == whole * Binary64.unitsPerOne && decide (whole ≠ largest) &&
      decide (whole ≠ smallest) then some whole
  else none

def compareWhole (whole : Int) (value : Float) : Ordering :=
  if value.isNaN then .gt
  else if value.isInf then if Binary64.isNegative value then .gt else .lt
  else compare (whole * Binary64.unitsPerOne) (unitsOf value)

def compareReal (first second : Float) : Ordering :=
  if first < second then .lt else if second < first then .gt else .eq

/-! ### Writing -/

def realText (value : Float) : List Char :=
  let (sign, text) := Digits.Style.plain.write value
  sign ++ text

/-- A real number as a text from which it can be read again: one with more digits if it
has to be. -/
def exactText (value : Float) : List Char :=
  let short := { Digits.Style.plain with isPadded := true }
  let (sign, text) := short.write value
  if (readReal (sign ++ text)).1 == value then sign ++ text
  else
    let long : Digits.Style := { form := .exponential, precision := 20, isExact := true }
    let (sign, text) := long.write value
    sign ++ text

end Number

end Query

end BlockStage
