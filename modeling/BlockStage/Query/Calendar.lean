/-!
# The calendar

An instant is a number of milliseconds.  It is counted from a noon so long ago that no
date lies before it, and a day starts at midnight.  The calendar is carried on as it is
into all years.
-/

namespace BlockStage

namespace Query

/-- A day of the calendar. -/
structure Day where
  year : Int
  month : Int
  day : Int

/-- A time of a day. -/
structure Clock where
  hour : Int
  minute : Int
  second : Float

namespace Calendar

def dayLength : Int := 86400000

def halfDay : Int := 43200000

/-- The instant from which seconds are often counted: the start of a year. -/
def epoch : Int := 210866760000000

def lastInstant : Int := 464269060799999

def isDated (instant : Int) : Bool := decide (0 ≤ instant ∧ instant ≤ lastInstant)

def startOf (day : Day) : Int :=
  let (year, month) :=
    if day.month ≤ 2 then (day.year - 1, day.month + 12) else (day.year, day.month)
  let century := year.tdiv 100
  let correction := 2 - century + century.tdiv 4
  let days := (36525 * (year + 4716)).tdiv 100 + (306001 * (month + 1)).tdiv 10000 + day.day +
    correction
  (days - 1524) * dayLength - halfDay

def dayOf (instant : Int) : Day :=
  let number := (instant + halfDay).tdiv dayLength
  let century := (4 * number - 7468865).tdiv 146097
  let shifted := number + 1 + century - century.tdiv 4 + 1524
  let years := (20 * shifted - 2442).tdiv 7305
  let start := (36525 * (years % 32768)).tdiv 100
  let months := ((shifted - start) * 10000).tdiv 306001
  let month := if months < 14 then months - 1 else months - 13
  { year := if 2 < month then years - 4716 else years - 4715
    month
    day := shifted - start - (306001 * months).tdiv 10000 }

def clockOf (instant : Int) : Clock :=
  let part := (instant + halfDay).tmod dayLength
  let minutes := part.tdiv 60000
  { hour := minutes.tdiv 60, minute := minutes.tmod 60
    second := Float.ofInt (part.tmod 60000) / 1000 }

def surplus (day : Day) : Int :=
  if day.day ≤ 28 ∨ [1, 3, 5, 7, 8, 10, 12].contains day.month then 0
  else if day.month ≠ 2 then if day.day = 31 then 1 else 0
  else if day.year.tmod 4 ≠ 0 ∨ (day.year.tmod 100 = 0 ∧ day.year.tmod 400 ≠ 0) then day.day - 28
  else day.day - 29

def carried (day : Day) : Day :=
  let years := if 0 < day.month then (day.month - 1).tdiv 12 else (day.month - 12).tdiv 12
  { day with year := day.year + years, month := day.month - 12 * years }

def sinceMonday (instant : Int) : Int := ((instant + halfDay).tdiv dayLength).tmod 7

def sinceSunday (instant : Int) : Int := ((instant + 3 * halfDay).tdiv dayLength).tmod 7

end Calendar

end Query

end BlockStage
