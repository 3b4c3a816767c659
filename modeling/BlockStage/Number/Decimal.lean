import BlockStage.Number.Binary64

/-!
# Decimal numerals

A decimal is a sign, a whole number of digits and a power of ten.  Reading a
decimal gives the nearest double, and nothing when the nearest one would be
beyond the finite doubles.  Printing a double chooses, among the decimals that
read back to it, one on the coarsest power-of-ten grid, and of those the
nearest; where two are equally near the caller decides.
-/

namespace BlockStage

/-- The decimal `± digits * 10 ^ exponent`. -/
structure Decimal where
  negative : Bool
  digits : Nat
  exponent : Int

/-- Which of two equally near numerals is taken. -/
inductive Tie where
  | toEven
  | upward
deriving DecidableEq

namespace Decimal

def tenTo (exponent : Nat) : Nat := Nat.pow 10 exponent

/-- The magnitude of a decimal as a fraction, in units of `2 ^ -1074`. -/
def unitFraction (digits : Nat) (exponent : Int) : Nat × Nat :=
  (digits * tenTo exponent.toNat * Binary64.unitsPerOne, tenTo (-exponent).toNat)

/-- The index of the double nearest to a decimal magnitude.  Magnitudes far
outside the range of doubles are settled by their exponent alone, so that a
short numeral never asks for a long computation. -/
def toIndex (digits : Nat) (exponent : Int) : Nat :=
  if digits = 0 then 0
  else if 400 < exponent then Binary64.infinityIndex
  else if exponent < -(401 + (digits.log2 : Int)) then 0
  else
    let fraction := unitFraction digits exponent
    Binary64.nearestIndex fraction.1 fraction.2

def toFloat? (decimal : Decimal) : Option Float :=
  let index := toIndex decimal.digits decimal.exponent
  if index < Binary64.infinityIndex then some (Binary64.ofIndex decimal.negative index)
  else none

/-- The double a decimal reads as, an infinity when it is too large. -/
def toFloat (decimal : Decimal) : Float :=
  Binary64.ofIndex decimal.negative
    (min (toIndex decimal.digits decimal.exponent) Binary64.infinityIndex)

/-- The multiple of `10 ^ exponent` that reads back to the double at an index
and is nearest to it, if any multiple reads back.  Lengths are in halves of a
unit: a multiple reads back when it lies between the midpoints to the two
neighbouring doubles, the midpoints included for an even index. -/
def onGrid? (tie : Tie) (index : Nat) (exponent : Int) : Option Nat :=
  let step := 2 * Binary64.unitsPerOne * tenTo exponent.toNat
  let factor := tenTo (-exponent).toNat
  let low := (Binary64.units (index - 1) + Binary64.units index) * factor
  let high := (Binary64.units index + Binary64.units (index + 1)) * factor
  let center := 2 * Binary64.units index * factor
  let readsBack := fun multiple : Nat =>
    if index % 2 = 0 then decide (low ≤ multiple * step ∧ multiple * step ≤ high)
    else decide (low < multiple * step ∧ multiple * step < high)
  let below := center / step
  let above := below + 1
  if readsBack below then
    if readsBack above then
      let middle := (below + above) * step
      if 2 * center < middle then some below
      else if middle < 2 * center then some above
      else
        match tie with
        | .toEven => if below % 2 = 0 then some below else some above
        | .upward => some above
    else some below
  else if readsBack above then some above
  else none

/-- The coarsest grid on which a numeral for the double at an index can lie. -/
def topExponent (index : Nat) : Int :=
  let bits : Int := (Binary64.units index + Binary64.units (index + 1)).log2
  (bits - 1074) * 30103 / 100000

/-- The numeral of a non-negative double: the nearest one on the coarsest grid
that has one.  Twenty grids always suffice; the exact numeral, which needs no
search, stands in as the last resort. -/
def shortest (tie : Tie) (index : Nat) : Nat × Int :=
  if index = 0 then (0, 0)
  else
    let top := topExponent index
    let found := (List.range 20).findSome? fun (depth : Nat) =>
      (onGrid? tie index (top - depth)).map fun multiple => (multiple, top - (depth : Int))
    found.getD (Binary64.units index * Nat.pow 5 1074, -1074)

end Decimal

end BlockStage
