import BlockStage.Number.Decimal

/-!
# Numbers of sixty-four bits

Some computations keep a few more bits than a double has, and round to a double in
the end only.  Such a number is a whole number of at most sixty-four bits times a power
of two; products are rounded to the nearest one, a half going to the even neighbour.
-/

namespace BlockStage

/-- The number `significand * 2 ^ exponent`. -/
structure Extended where
  significand : Nat
  exponent : Int

namespace Extended

/-- The nearest number of sixty-four bits to `value * 2 ^ exponent`. -/
def rounded (value : Nat) (exponent : Int) : Extended :=
  let shift := value.log2 - 63
  ⟨roundHalfEven value (1 <<< shift), exponent + shift⟩

def ofFraction (numerator denominator : Nat) : Extended :=
  let guess : Int := (numerator.log2 : Int) - denominator.log2 - 64
  let quotient := (numerator <<< (-guess).toNat) / (denominator <<< guess.toNat)
  let exponent := if quotient.log2 < 64 then guess else guess + 1
  ⟨roundHalfEven (numerator <<< (-exponent).toNat) (denominator <<< exponent.toNat), exponent⟩

/-- The nearest number of sixty-four bits to a power of ten. -/
def tenTo (power : Int) : Extended :=
  ofFraction (Decimal.tenTo power.toNat) (Decimal.tenTo (-power).toNat)

def mul (first second : Extended) : Extended :=
  rounded (first.significand * second.significand) (first.exponent + second.exponent)

def aligned (first second : Extended) : Nat × Nat :=
  let exponent := min first.exponent second.exponent
  (first.significand <<< (first.exponent - exponent).toNat,
    second.significand <<< (second.exponent - exponent).toNat)

def isLess (first second : Extended) : Bool :=
  let (first, second) := aligned first second
  decide (first < second)

def toNat (value : Extended) : Nat :=
  (value.significand <<< value.exponent.toNat) >>> (-value.exponent).toNat

def ofFloat (value : Float) : Extended := ⟨Binary64.units (Binary64.index value), -1074⟩

/-- The nearest double, an infinity when it is too large. -/
def toFloat (value : Extended) : Float :=
  let power := value.exponent + 1074
  Binary64.ofIndex false
    (min (Binary64.nearestIndex (value.significand <<< power.toNat) (1 <<< (-power).toNat))
      Binary64.infinityIndex)

/-- Multiplies a number as often as it should be, and counts, with fuel for the
count. -/
def scaleWhile (isWanted : Extended → Bool) (factor : Extended) :
    Nat → Extended → Nat → Extended × Nat
  | 0, value, count => (value, count)
  | fuel + 1, value, count =>
      if isWanted value then scaleWhile isWanted factor fuel (value.mul factor) (count + 1)
      else (value, count)

def scale (factor : Extended) : Nat → Extended → Extended
  | 0, value => value
  | count + 1, value => scale factor count (value.mul factor)

end Extended

end BlockStage
