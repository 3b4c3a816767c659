/-!
# Doubles as points of an integer grid

Without its sign bit, the bit pattern of a finite double is an index into the
ascending list of non-negative doubles.  The double at an index is a whole
number of units of `2 ^ -1074`, and `units` gives that number.  Everything that
has to be exact, such as reading and printing decimals or taking remainders, is
done on indices and units in natural numbers.
-/

namespace BlockStage

/-- The quotient rounded to the nearest whole number, a half going to the even
neighbour. -/
def roundHalfEven (numerator denominator : Nat) : Nat :=
  let quotient := numerator / denominator
  let twice := 2 * (numerator % denominator)
  if twice < denominator then quotient
  else if denominator < twice then quotient + 1
  else if quotient % 2 = 0 then quotient
  else quotient + 1

namespace Binary64

def signWeight : Nat := 0x8000000000000000

/-- How many doubles share an exponent, which is `2 ^ 52`. -/
def binade : Nat := 0x10000000000000

def unitsPerOne : Nat := 1 <<< 1074

/-- The place of a double's magnitude among the non-negative doubles. -/
def index (value : Float) : Nat := value.toBits.toNat % signWeight

def isNegative (value : Float) : Bool := decide (signWeight ≤ value.toBits.toNat)

/-- The index at which the finite doubles end and infinity stands. -/
def infinityIndex : Nat := 2047 * binade

def ofIndex (negative : Bool) (index : Nat) : Float :=
  Float.ofBits (UInt64.ofNat (if negative then signWeight + index else index))

/-- The magnitude at an index, in units of `2 ^ -1074`.  The lowest doubles are
the units themselves; from there on every `binade` indices double the step. -/
def units (index : Nat) : Nat :=
  if index < binade then index
  else (binade + index % binade) <<< (index / binade - 1)

/-- The index whose magnitude is nearest to `numerator / denominator` units, a
half going to the even index.  The grid around the wanted magnitude has a step
of `2 ^ shift` units, and each shift skips `binade` indices. -/
def nearestIndex (numerator denominator : Nat) : Nat :=
  let shift := (numerator / denominator).log2 - 52
  shift * binade + roundHalfEven numerator (denominator <<< shift)

def nan : Float := Float.ofBits 0x7FF8000000000000

/-- The exact remainder of a division that rounds towards zero.  It has the
sign of the dividend; it is undefined for an infinite dividend and for a zero
divisor, and an infinite divisor leaves the dividend as it is. -/
def remainder (dividend divisor : Float) : Float :=
  if dividend.isNaN || divisor.isNaN || dividend.isInf || index divisor == 0 then nan
  else if divisor.isInf then dividend
  else
    ofIndex (isNegative dividend)
      (nearestIndex (units (index dividend) % units (index divisor)) 1)

end Binary64

end BlockStage
