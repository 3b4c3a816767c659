import BlockStage.Number.Extended

/-!
# Digits of real numbers

A numeral is read by multiplying its digits with powers of ten, and a real number is
written by multiplying it until all digits that count stand in front of the point.
Both keep sixty-four bits on the way, so that the last digits are not always the best
ones.
-/

namespace BlockStage

namespace Query

/-- The digits of a real number, the first of them standing so many places in front of
the point. -/
structure Digits where
  isNegative : Bool
  digits : List Nat
  point : Int

namespace Digits

/-! ### Reading -/

def enough : Nat := 922337203685477579

def largest : Nat := 9223372036854775807

/-- Takes a digit in front of the point into a number and the power of ten behind it. -/
def takeWhole (number : Nat × Int) (digit : Nat) : Nat × Int :=
  if number.1 < enough then (number.1 * 10 + digit, number.2) else (number.1, number.2 + 1)

/-- Takes a digit behind the point into a number and the power of ten behind it. -/
def takeFraction (number : Nat × Int) (digit : Nat) : Nat × Int :=
  if number.1 < enough then (number.1 * 10 + digit, number.2 - 1) else number

/-- Moves zeros from a positive power of ten into the number, with fuel for their
count. -/
def grown : Nat → Nat → Int → Nat × Int
  | fuel + 1, number, power =>
      if 0 < power ∧ number < largest / 10 then grown fuel (number * 10) (power - 1)
      else (number, power)
  | 0, number, power => (number, power)

/-- Moves zeros from the number into a negative power of ten, with fuel for their
count. -/
def shrunk : Nat → Nat → Int → Nat × Int
  | fuel + 1, number, power =>
      if power < 0 ∧ number % 10 = 0 then shrunk fuel (number / 10) (power + 1)
      else (number, power)
  | 0, number, power => (number, power)

def limit : Extended := .ofFraction (17976931348623157081452742373 * Decimal.tenTo 280) 1

def scaled (number : Nat) (power : Int) : Float :=
  let size := power.natAbs
  let sign : Int := if 0 ≤ power then 1 else -1
  let value := Extended.scale (.tenTo (100 * sign)) (size / 100) (.rounded number 0)
  let value := Extended.scale (.tenTo (10 * sign)) (size % 100 / 10) value
  let value := Extended.scale (.tenTo sign) (size % 10) value
  if limit.isLess value then Binary64.ofIndex false Binary64.infinityIndex else value.toFloat

/-- The double without a sign that a numeral stands for, given its digits in front of
the point and behind it, and its power of ten. -/
def toFloat (whole fraction : List Nat) (exponent : Int) : Float :=
  let (number, power) := fraction.foldl takeFraction (whole.foldl takeWhole (0, 0))
  if number = 0 then 0
  else
    let (number, power) := grown 20 number (power + exponent)
    let (number, power) := shrunk 20 number power
    if power = 0 then (Extended.rounded number 0).toFloat else scaled number power

/-! ### Writing -/

/-- Multiplies a number above zero until it has eighteen or nineteen digits in front of
the point.  Gives them, and how often it was divided by ten. -/
def leading (value : Extended) : Nat × Int :=
  if value.isLess (.tenTo 19) then
    let (value, hundreds) :=
      Extended.scaleWhile (·.isLess (.tenTo (-97))) (.tenTo 100) 20 value 0
    let (value, tens) := Extended.scaleWhile (·.isLess (.tenTo 7)) (.tenTo 10) 20 value 0
    let (value, ones) := Extended.scaleWhile (·.isLess (.tenTo 17)) (.tenTo 1) 20 value 0
    (value.toNat, -((hundreds * 100 + tens * 10 + ones : Nat) : Int))
  else
    let (value, hundreds) :=
      Extended.scaleWhile (!·.isLess (.tenTo 119)) (.tenTo (-100)) 20 value 0
    let (value, tens) := Extended.scaleWhile (!·.isLess (.tenTo 29)) (.tenTo (-10)) 20 value 0
    let (value, ones) := Extended.scaleWhile (!·.isLess (.tenTo 19)) (.tenTo (-1)) 20 value 0
    (value.toNat, ((hundreds * 100 + tens * 10 + ones : Nat) : Int))

def ofNat (value : Nat) : List Nat := (Nat.toDigits 10 value).map fun digit => digit.toNat - 48

def value (digits : List Nat) : Nat := digits.foldl (fun value digit => value * 10 + digit) 0

def trimmed (digits : List Nat) : List Nat := (digits.reverse.dropWhile (· == 0)).reverse

/-- Cuts digits to a count.  The next one decides whether the last is counted up, which
may give one digit more. -/
def cut (count : Nat) (digits : List Nat) : List Nat :=
  let kept := digits.take count
  if digits.getD count 0 < 5 then kept
  else
    let raised := ofNat (value kept + 1)
    List.replicate (kept.length - raised.length) 0 ++ raised

/-- How a real number is rounded. -/
inductive Rounding where
  /-- To so many digits. -/
  | digits (count : Nat)
  /-- To so many places behind the point. -/
  | places (count : Nat)

/-- The digits of a finite real number, at most so many of them. -/
def ofFloat (number : Float) (rounding : Rounding) (most : Nat) : Digits :=
  if number == 0 then ⟨false, [0], 1⟩
  else
    let (whole, power) := leading (.ofFloat number)
    let digits := ofNat whole
    let point := (digits.length : Int) + power
    let count : Int := match rounding with
      | .digits count => count
      | .places count => point + count
    let isNegative := Binary64.isNegative number
    if count = 0 ∧ 5 ≤ digits.getD 0 0 then ⟨isNegative, [1], point + 1⟩
    else if 0 < count ∧ (count < digits.length ∨ most < digits.length) then
      let kept := min count.toNat most
      let cut := cut kept digits
      ⟨isNegative, trimmed cut, if kept < cut.length then point + 1 else point⟩
    else ⟨isNegative, trimmed digits, point⟩

/-! ### Layout -/

/-- The forms of a written real number. -/
inductive Form where
  | fixed
  | exponential
  /-- Whichever of the two suits the size. -/
  | general
deriving DecidableEq

/-- How a real number is written. -/
structure Style where
  form : Form
  precision : Nat
  /-- What stands in front of a number that is not negative. -/
  sign : Option Char := none
  /-- Whether a point is always written. -/
  isAlternate : Bool := false
  /-- Whether as many digits as there are count, and one stands behind the point. -/
  isExact : Bool := false
  /-- Whether commas divide the digits in front of the point. -/
  isGrouped : Bool := false
  /-- Whether infinity is written as a number. -/
  isPadded : Bool := false
  mark : Char := 'e'

namespace Style

def characters (digits : List Nat) : List Char := digits.map Nat.digitChar

def fill (count : Nat) (digits : List Nat) : List Nat :=
  digits.take count ++ List.replicate (count - digits.length) 0

/-- The digits in front of the point, with commas if they are wanted. -/
def wholePart (isGrouped : Bool) (digits : List Nat) : List Char :=
  (digits.zipIdx.map fun (digit, index) =>
    let behind := digits.length - 1 - index
    if isGrouped ∧ behind % 3 = 0 ∧ 1 < behind then [Nat.digitChar digit, ',']
    else [Nat.digitChar digit]).flatten

/-- A power of ten behind its mark, with two digits at least. -/
def exponentText (mark : Char) (power : Int) : List Char :=
  let digits := Nat.toDigits 10 power.natAbs
  mark :: (if power < 0 then '-' else '+') ::
    (if digits.length < 2 then '0' :: digits else digits)

def withoutZeros (isExact : Bool) (text : List Char) : List Char :=
  let text := (text.reverse.dropWhile (· == '0')).reverse
  if text.getLast? = some '.' then if isExact then text ++ ['0'] else text.dropLast else text

/-- How the digits of a number are rounded before they are written. -/
def rounding (style : Style) : Rounding :=
  match style.form with
  | .fixed => .places style.precision
  | .exponential => .digits (style.precision + 1)
  | .general => .digits (max 1 style.precision)

/-- The form that is used for a number with a power of ten, and its places. -/
def resolved (style : Style) (power : Int) : Bool × Nat :=
  match style.form with
  | .fixed => (false, style.precision)
  | .exponential => (true, style.precision)
  | .general =>
      let precision := max 1 style.precision - 1
      if power < -4 ∨ precision < power then (true, precision)
      else (false, (precision - power).toNat)

def layOut (style : Style) (run : Digits) : List Char :=
  let power := run.point - 1
  let (isExponential, places) := style.resolved power
  let size : Nat := if isExponential then 1 else (power + 1).toNat
  let whole :=
    if size = 0 then ['0'] else wholePart style.isGrouped (fill size run.digits)
  let gap := if isExponential then 0 else min places (-power - 1).toNat
  let fraction := List.replicate gap '0' ++
    characters (fill (places - gap) (run.digits.drop size))
  let hasPoint := 0 < places ∨ style.isAlternate ∨ style.isExact
  let text := if hasPoint then whole ++ '.' :: fraction else whole
  let isTrimmed := if style.form = .general then !style.isAlternate else style.isExact
  let text := if isTrimmed ∧ hasPoint then withoutZeros style.isExact text else text
  if isExponential then text ++ exponentText style.mark power else text

def write (style : Style) (number : Float) : List Char × List Char :=
  let sign := if number < 0 then ['-'] else style.sign.toList
  if number.isInf then
    if style.isPadded then (sign, style.layOut ⟨false, [9], 1000⟩)
    else (sign, "Inf".toList)
  else
    (sign, style.layOut (ofFloat number style.rounding (if style.isExact then 26 else 16)))

def plain : Style := { form := .general, precision := 15, isExact := true }

end Style

end Digits

end Query

end BlockStage
