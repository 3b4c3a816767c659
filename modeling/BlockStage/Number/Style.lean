import BlockStage.Number.Decimal

/-!
# Number styles

The digits of a number are chosen once; how they are laid out differs between
the stored text and the text shown to people.  A style collects the decisions:
which way a tie between digits goes, for which magnitudes the digits are
written positionally, and whether whole numbers keep a fraction.
-/

namespace BlockStage

/-- The decisions that lay out the digits of a finite number. -/
structure NumberStyle where
  tie : Tie
  isPositional : Int → Bool
  keepsFraction : Bool

namespace NumberStyle

/-- Stored numbers: ties go to the even digit, powers of ten from `-5` to `15`
are positional, and a fraction is always written there. -/
def stored : NumberStyle where
  tie := .toEven
  isPositional := fun exponent => decide (-5 ≤ exponent ∧ exponent < 16)
  keepsFraction := true

/-- Shown numbers: ties go upward, every number is positional, and whole
numbers have no fraction. -/
def shown : NumberStyle where
  tie := .upward
  isPositional := fun _ => true
  keepsFraction := false

/-- The whole part and the fraction of `digits * 10 ^ exponent`. -/
def split (digits : List Char) (exponent : Int) : List Char × List Char :=
  let places := (-exponent).toNat
  if 0 ≤ exponent then (digits ++ List.replicate exponent.toNat '0', [])
  else if places < digits.length then
    (digits.take (digits.length - places), digits.drop (digits.length - places))
  else (['0'], List.replicate (places - digits.length) '0' ++ digits)

def positional (keepsFraction : Bool) (digits : List Char) (exponent : Int) : List Char :=
  match split digits exponent with
  | (whole, []) => if keepsFraction then whole ++ ['.', '0'] else whole
  | (whole, fraction) => whole ++ '.' :: fraction

/-- A number written with an exponent, whose sign is always shown. -/
def scientific (digits : List Char) (power : Int) : List Char :=
  let mantissa :=
    match digits with
    | [] => []
    | [digit] => [digit]
    | digit :: rest => digit :: '.' :: rest
  let sign := if power < 0 then '-' else '+'
  mantissa ++ 'e' :: sign :: Nat.toDigits 10 power.natAbs

def write (style : NumberStyle) (value : Float) : List Char :=
  let (multiple, exponent) := Decimal.shortest style.tie (Binary64.index value)
  let digits := Nat.toDigits 10 multiple
  let power := exponent + (digits.length : Int) - 1
  let magnitude :=
    if style.isPositional power then positional style.keepsFraction digits exponent
    else scientific digits power
  if Binary64.isNegative value then '-' :: magnitude else magnitude

end NumberStyle

def shownNumber (value : Float) : String :=
  if value.isNaN then "NaN"
  else if value.isInf then if Binary64.isNegative value then "-inf" else "inf"
  else String.ofList (NumberStyle.shown.write value)

end BlockStage
