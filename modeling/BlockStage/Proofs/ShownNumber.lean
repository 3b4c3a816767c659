import BlockStage.Proofs.FloatKinds
import BlockStage.Proofs.NumberText

/-!
# Shown numbers are read back

A number is shown to people with all its places and no exponent, and a whole
number without a point.  There may be hundreds of zeros on either side of the
digits, but the digits are those of a numeral that reads back to the double, so
the text still tells which double it was: the two zeros differ in their sign,
and what is not finite has a name.
-/

namespace BlockStage

namespace NumberStyle

open Token (digitsValue isDigit_of_mem_zeros)

/-- What stands behind the whole part: nothing, or a point and the fraction. -/
def pointed : List Char → List Char
  | [] => []
  | digit :: digits => '.' :: digit :: digits

theorem positional_eq_pointed (digits : List Char) (exponent : Int) :
    positional false digits exponent =
      (split digits exponent).1 ++ pointed (split digits exponent).2 := by
  unfold positional
  rcases split digits exponent with ⟨whole, _ | ⟨digit, fraction⟩⟩
  · simp [pointed]
  · rfl

variable {digits : List Char} (exponent : Int)

theorem isDigit_of_mem_split (isDigits : ∀ digit ∈ digits, digit.isDigit) :
    (∀ digit ∈ (split digits exponent).1, digit.isDigit) ∧
      ∀ digit ∈ (split digits exponent).2, digit.isDigit := by
  unfold split
  dsimp only
  split
  · exact ⟨List.forall_mem_append.mpr ⟨isDigits, isDigit_of_mem_zeros⟩, by simp⟩
  · split
    · exact ⟨fun digit member => isDigits digit (List.mem_of_mem_take member),
        fun digit member => isDigits digit (List.mem_of_mem_drop member)⟩
    · exact ⟨by simp, List.forall_mem_append.mpr ⟨isDigit_of_mem_zeros, isDigits⟩⟩

theorem split_whole_ne_nil (nonempty : digits ≠ []) : (split digits exponent).1 ≠ [] := by
  unfold split
  dsimp only
  split
  · simp [nonempty]
  · split
    · rename_i inside
      rw [List.ne_nil_iff_length_pos, List.length_take]
      omega
    · simp

/-- The two parts together are the digits with some zeros behind them, and the places of the
fraction are what is left of the exponent. -/
theorem split_spells (digits : List Char) (exponent : Int) :
    ∃ zeros : Nat, zeros ≤ exponent.toNat ∧
      digitsValue ((split digits exponent).1 ++ (split digits exponent).2) =
          digitsValue digits * Decimal.tenTo zeros ∧
        -((split digits exponent).2.length : Int) = exponent - zeros := by
  unfold split
  dsimp only
  split
  · refine ⟨exponent.toNat, Nat.le_refl _, ?_, ?_⟩
    · rw [List.append_nil, Token.digitsValue_append_zeros]
    · simp only [List.length_nil]
      omega
  · split
    · refine ⟨0, Nat.zero_le _, ?_, ?_⟩
      · rw [List.take_append_drop, Decimal.tenTo_zero, Nat.mul_one]
      · rw [List.length_drop]
        omega
    · refine ⟨0, Nat.zero_le _, ?_, ?_⟩
      · rw [show ['0'] = List.replicate 1 '0' from rfl, Token.digitsValue_zeros_append,
          Token.digitsValue_zeros_append, Decimal.tenTo_zero, Nat.mul_one]
      · rw [List.length_append, List.length_replicate]
        omega

end NumberStyle

namespace Token

open NumberStyle (split pointed)

/-- A shown number without its sign. -/
def shownMagnitude (index : Nat) : List Char :=
  NumberStyle.positional false (shortestDigits .upward index) (Decimal.shortest .upward index).2

theorem write_shown (value : Float) :
    NumberStyle.shown.write value =
      if Binary64.isNegative value then '-' :: shownMagnitude (Binary64.index value)
      else shownMagnitude (Binary64.index value) :=
  rfl

/-- The magnitude that a whole part with an optional fraction stands for. -/
def magnitudeOf (text : List Char) : Nat :=
  let parts := spanDigits text
  let fraction := parts.2.drop 1
  Decimal.toIndex (digitsValue (parts.1 ++ fraction)) (-(fraction.length : Int))

theorem magnitudeOf_pointed {whole fraction : List Char}
    (isDigits : ∀ digit ∈ whole, digit.isDigit) :
    magnitudeOf (whole ++ pointed fraction) =
      Decimal.toIndex (digitsValue (whole ++ fraction)) (-(fraction.length : Int)) := by
  have ends : EndsDigits (pointed fraction) := by
    cases fraction with
    | nil => simp [EndsDigits, pointed]
    | cons digit digits => exact endsDigits_cons _ rfl
  have dropped : (pointed fraction).drop 1 = fraction := by
    cases fraction <;> rfl
  unfold magnitudeOf
  rw [spanDigits_append isDigits ends]
  dsimp only
  rw [dropped]

theorem magnitudeOf_shownMagnitude {index : Nat} (finite : index < Binary64.infinityIndex) :
    magnitudeOf (shownMagnitude index) = index := by
  obtain ⟨-, -, low, -⟩ := Decimal.shortest_bounds .upward finite
  obtain ⟨isDigits, -⟩ := NumberStyle.isDigit_of_mem_split (Decimal.shortest .upward index).2
    (@isDigit_of_mem_shortestDigits .upward index)
  obtain ⟨zeros, few, value, places⟩ :=
    NumberStyle.split_spells (shortestDigits .upward index) (Decimal.shortest .upward index).2
  rw [shownMagnitude, NumberStyle.positional_eq_pointed, magnitudeOf_pointed isDigits, value,
    places, digitsValue_shortestDigits]
  exact Decimal.toIndex_shortest .upward finite (by omega)

/-- A shown magnitude has digits and perhaps a point, and a digit comes first. -/
theorem shownMagnitude_signs (index : Nat) :
    (∀ sign ∈ shownMagnitude index, sign.isDigit = true ∨ sign = '.') ∧
      ∃ digit others, shownMagnitude index = digit :: others ∧ digit.isDigit = true := by
  obtain ⟨wholeDigits, fractionDigits⟩ := NumberStyle.isDigit_of_mem_split
    (Decimal.shortest .upward index).2 (@isDigit_of_mem_shortestDigits .upward index)
  have nonempty := @NumberStyle.split_whole_ne_nil (shortestDigits .upward index)
    (Decimal.shortest .upward index).2 Nat.toDigits_ne_nil
  rw [shownMagnitude, NumberStyle.positional_eq_pointed]
  generalize split (shortestDigits .upward index) (Decimal.shortest .upward index).2 = parts at *
  obtain ⟨whole, fraction⟩ := parts
  constructor
  · intro sign member
    rcases List.mem_append.mp member with inWhole | behind
    · exact Or.inl (wholeDigits sign inWhole)
    · cases fraction with
      | nil => cases behind
      | cons digit digits =>
          rcases List.mem_cons.mp behind with rfl | inFraction
          · exact Or.inr rfl
          · exact Or.inl (fractionDigits sign inFraction)
  · obtain ⟨digit, others, rfl⟩ := List.exists_cons_of_ne_nil nonempty
    exact ⟨digit, others ++ pointed fraction, rfl, wholeDigits digit List.mem_cons_self⟩

end Token

open Token

def signed (negative : Bool) (magnitude : List Char) : List Char :=
  if negative then '-' :: magnitude else magnitude

/-- What a number is shown as: its one name, or a sign and a magnitude. -/
inductive ShownAs : Float → List Char → Prop where
  | nan : ShownAs Binary64.nan ['N', 'a', 'N']
  | infinity (negative : Bool) :
      ShownAs (Binary64.infinity negative) (signed negative ['i', 'n', 'f'])
  | finite (negative : Bool) {index : Nat} :
      index < Binary64.infinityIndex →
      ShownAs (Binary64.ofIndex negative index) (signed negative (shownMagnitude index))

theorem shownAs_shownNumber (value : Float) : ShownAs value (shownNumber value).toList := by
  unfold shownNumber
  cases isNaN : value.isNaN with
  | true =>
      rw [Binary64.eq_nan_of_isNaN isNaN]
      exact .nan
  | false =>
      cases isInf : value.isInf with
      | true =>
          have named := Binary64.eq_infinity_of_isInf isInf
          cases sign : Binary64.isNegative value with
          | true =>
              rw [named, sign]
              exact .infinity true
          | false =>
              rw [named, sign]
              exact .infinity false
      | false =>
          have finite := Binary64.isFinite_of_isNaN_of_isInf isNaN isInf
          have shown := ShownAs.finite (Binary64.isNegative value)
            ((Binary64.isFinite_iff value).mp finite)
          rw [Binary64.ofIndex_index] at shown
          simpa [write_shown, signed] using shown

def readShown (text : List Char) : Float :=
  if text = ['N', 'a', 'N'] then Binary64.nan
  else
    let negative := text.head? == some '-'
    let magnitude := if negative then text.drop 1 else text
    Binary64.ofIndex negative
      (if magnitude = ['i', 'n', 'f'] then Binary64.infinityIndex else magnitudeOf magnitude)

theorem ShownAs.readShown_eq {value : Float} {text : List Char} (shown : ShownAs value text) :
    readShown text = value := by
  cases shown with
  | nan => rfl
  | infinity negative => cases negative <;> rfl
  | @finite negative index finite =>
      obtain ⟨-, digit, others, shape, isDigit⟩ := shownMagnitude_signs index
      have magnitude := magnitudeOf_shownMagnitude finite
      rw [shape] at magnitude ⊢
      have distinct : ∀ other : Char, other.isDigit = false → digit ≠ other := by
        rintro other notDigit rfl
        exact absurd isDigit (Bool.eq_false_iff.mp notDigit)
      have unsigned : (digit == '-') = false := by simp [distinct '-' rfl]
      cases negative with
      | true => simp [readShown, signed, distinct 'i' rfl, magnitude]
      | false =>
          simp [readShown, signed, distinct 'N' rfl, unsigned, distinct 'i' rfl, magnitude]

end BlockStage
