import BlockStage.Json.Token
import BlockStage.Proofs.FloatBits
import BlockStage.Proofs.ShortestDecimal

/-!
# Written numbers are read back

Every stored number is one token, and the token carries the number that was
written.  A count is its row of digits.  A finite double is laid out in one of
four ways; each is a whole part, a fraction and an exponent, and their digits
are those of the shortest numeral with some zeros behind it.  The shortest
numeral reads back to the double, and zeros do not change it.
-/

namespace BlockStage

namespace Token

/-! ### Rows of digits -/

/-- A text does not go on with a character of a number. -/
def EndsNumber (rest : List Char) : Prop :=
  ∀ character ∈ rest.head?, character.isDigit = false ∧ character ≠ '.' ∧
    character ≠ 'e' ∧ character ≠ 'E'

/-- A text does not go on with a digit. -/
def EndsDigits (rest : List Char) : Prop :=
  ∀ character ∈ rest.head?, character.isDigit = false

theorem EndsNumber.endsDigits {rest : List Char} (ends : EndsNumber rest) : EndsDigits rest :=
  fun character first => (ends character first).1

theorem endsDigits_cons {character : Char} (rest : List Char)
    (other : character.isDigit = false) : EndsDigits (character :: rest) := by
  intro first isFirst
  obtain rfl : character = first := by simpa using isFirst
  exact other

theorem spanDigits_append {digits rest : List Char} (isDigits : ∀ digit ∈ digits, digit.isDigit)
    (ends : EndsDigits rest) : spanDigits (digits ++ rest) = (digits, rest) := by
  have stop : rest.takeWhile Char.isDigit = [] ∧ rest.dropWhile Char.isDigit = rest := by
    cases rest with
    | nil => exact ⟨rfl, rfl⟩
    | cons character rest =>
        have other := ends character rfl
        simp [other]
  simp only [spanDigits, List.takeWhile_append_of_pos isDigits,
    List.dropWhile_append_of_pos isDigits, stop, List.append_nil]

theorem isDigit_of_mem_toDigits {number : Nat} :
    ∀ digit ∈ Nat.toDigits 10 number, digit.isDigit :=
  fun _ member => Nat.isDigit_of_mem_toDigits (by decide) (by decide) member

theorem isDigit_of_mem_zeros {zeros : Nat} :
    ∀ digit ∈ List.replicate zeros '0', digit.isDigit := by
  intro digit member
  rw [List.eq_of_mem_replicate member]
  rfl

theorem length_toDigits_le {number length : Nat} (positive : 0 < length)
    (small : number < Decimal.tenTo length) : (Nat.toDigits 10 number).length ≤ length :=
  (Nat.length_toDigits_le_iff (by decide) positive).mpr small

theorem digitsValue_eq (digits : List Char) :
    digitsValue digits = Nat.ofDigitChars 10 digits 0 := by
  simp only [digitsValue, Nat.ofDigitChars, Nat.mul_comm]

theorem digitsValue_toDigits (number : Nat) : digitsValue (Nat.toDigits 10 number) = number := by
  rw [digitsValue_eq, Nat.ofDigitChars_ten_toDigits]

theorem digitsValue_append_zeros (digits : List Char) (zeros : Nat) :
    digitsValue (digits ++ List.replicate zeros '0') =
      digitsValue digits * Decimal.tenTo zeros := by
  rw [digitsValue_eq, digitsValue_eq, Nat.ofDigitChars_append, Nat.ofDigitChars_replicate_zero,
    Nat.mul_comm]
  rfl

theorem digitsValue_zeros_append (digits : List Char) (zeros : Nat) :
    digitsValue (List.replicate zeros '0' ++ digits) = digitsValue digits := by
  rw [digitsValue_eq, digitsValue_eq, Nat.ofDigitChars_append, Nat.ofDigitChars_replicate_zero,
    Nat.mul_zero]

/-- The digits in front of a point: at least one, and no zero in front of others. -/
structure IsWhole (whole : List Char) : Prop where
  nonempty : whole ≠ []
  isDigits : ∀ digit ∈ whole, digit.isDigit
  leading : whole.head? = some '0' → whole = ['0']

/-- Digits that do not start with a zero stay a whole part when cut or continued. -/
theorem isWhole_of_nonzero {whole : List Char} (nonempty : whole ≠ [])
    (isDigits : ∀ digit ∈ whole, digit.isDigit) (nonzero : whole.head? ≠ some '0') :
    IsWhole whole :=
  ⟨nonempty, isDigits, fun zero => absurd zero nonzero⟩

theorem isWhole_zero : IsWhole ['0'] := ⟨by simp, by simp, fun _ => rfl⟩

theorem head?_toDigits_ne_zero {number : Nat} (positive : 0 < number) :
    (Nat.toDigits 10 number).head? ≠ some '0' := by
  induction number using Nat.strongRecOn with
  | ind number ih =>
      by_cases small : number < 10
      · rw [Nat.toDigits_of_lt_base small]
        simp
        omega
      · have earlier := ih (number / 10) (by omega) (by omega)
        obtain ⟨digit, others, shape⟩ :=
          List.exists_cons_of_ne_nil (@Nat.toDigits_ne_nil (number / 10) 10)
        rw [shape] at earlier
        rw [Nat.toDigits_of_base_le (by decide) (by omega), shape]
        exact earlier

theorem isWhole_toDigits (number : Nat) : IsWhole (Nat.toDigits 10 number) := by
  by_cases zero : number = 0
  · subst zero
    rw [Nat.toDigits_zero]
    exact isWhole_zero
  · exact isWhole_of_nonzero Nat.toDigits_ne_nil isDigit_of_mem_toDigits
      (head?_toDigits_ne_zero (by omega))

/-! ### Scanning the layouts -/

theorem scanNumber_of_isWhole {whole rest : List Char} (negative : Bool) (isWhole : IsWhole whole)
    (ends : EndsDigits rest) :
    scanNumber negative (whole ++ rest) = scanFraction negative whole rest := by
  unfold scanNumber
  rw [spanDigits_append isWhole.isDigits ends]
  dsimp only
  split
  · exact absurd rfl isWhole.nonempty
  · exact absurd (isWhole.leading rfl) (by simp)
  · rfl

theorem scanExponent_of_endsNumber {rest : List Char} (negative : Bool) (whole : List Char)
    (fraction : Option (List Char)) (ends : EndsNumber rest) :
    scanExponent negative whole fraction rest =
      (scanExponent.finished negative whole fraction, rest) := by
  cases rest with
  | nil => rfl
  | cons character rest =>
      obtain ⟨-, -, notSmall, notLarge⟩ := ends character rfl
      simp only [scanExponent, notSmall, notLarge, or_self, if_false]

/-- A whole part that ends a number is read as a count or a whole double. -/
theorem scanNumber_whole {whole rest : List Char} (negative : Bool) (isWhole : IsWhole whole)
    (ends : EndsNumber rest) :
    scanNumber negative (whole ++ rest) = (.number (wholeNumeral negative whole), rest) := by
  rw [scanNumber_of_isWhole negative isWhole ends.endsDigits]
  have noPoint : scanFraction negative whole rest = scanExponent negative whole none rest := by
    cases rest with
    | nil => rfl
    | cons character rest =>
        obtain ⟨-, notPoint, -, -⟩ := ends character rfl
        unfold scanFraction
        split
        · rename_i equal
          exact absurd (List.cons.inj equal).1 notPoint
        · rfl
  rw [noPoint, scanExponent_of_endsNumber negative whole none ends]
  rfl

theorem scanFraction_point {fraction rest : List Char} (negative : Bool) (whole : List Char)
    (nonempty : fraction ≠ []) (isDigits : ∀ digit ∈ fraction, digit.isDigit)
    (ends : EndsDigits rest) :
    scanFraction negative whole ('.' :: (fraction ++ rest)) =
      scanExponent negative whole (some fraction) rest := by
  simp only [scanFraction, spanDigits_append isDigits ends, List.isEmpty_iff, nonempty, if_false]

theorem scanNumber_positional {whole fraction rest : List Char} (negative : Bool)
    (isWhole : IsWhole whole) (nonempty : fraction ≠ [])
    (isDigits : ∀ digit ∈ fraction, digit.isDigit) (ends : EndsNumber rest) :
    scanNumber negative (whole ++ '.' :: fraction ++ rest) =
      (.number (realNumeral negative whole fraction 0), rest) := by
  rw [List.append_assoc, List.cons_append,
    scanNumber_of_isWhole negative isWhole (endsDigits_cons _ rfl),
    scanFraction_point negative whole nonempty isDigits ends.endsDigits,
    scanExponent_of_endsNumber negative whole _ ends]
  rfl

theorem scanExponent_scientific {rest : List Char} (negative : Bool) (whole : List Char)
    (fraction : Option (List Char)) (power : Int) (ends : EndsNumber rest) :
    scanExponent negative whole fraction
        ('e' :: (if power < 0 then '-' else '+') :: (Nat.toDigits 10 power.natAbs ++ rest)) =
      (.number (realNumeral negative whole (fraction.getD []) power), rest) := by
  have digits : spanDigits (Nat.toDigits 10 power.natAbs ++ rest) =
      (Nat.toDigits 10 power.natAbs, rest) :=
    spanDigits_append isDigit_of_mem_toDigits ends.endsDigits
  by_cases down : power < 0
  · have size : -(power.natAbs : Int) = power := by omega
    simp only [scanExponent, down, if_true, exponentSign, digits, List.isEmpty_iff,
      Nat.toDigits_ne_nil, if_false, digitsValue_toDigits, true_or, size]
  · have size : (power.natAbs : Int) = power := by omega
    simp only [scanExponent, down, if_false, exponentSign, digits, List.isEmpty_iff,
      Nat.toDigits_ne_nil, digitsValue_toDigits, true_or, if_true, size, Bool.false_eq_true]

/-- Digits with an exponent: the first digit is the whole part. -/
theorem scanNumber_scientific {digit : Char} {fraction rest : List Char} (negative : Bool)
    (isDigits : ∀ character ∈ digit :: fraction, character.isDigit) (power : Int)
    (ends : EndsNumber rest) :
    scanNumber negative (NumberStyle.scientific (digit :: fraction) power ++ rest) =
      (.number (realNumeral negative [digit] fraction power), rest) := by
  have isWhole : IsWhole [digit] :=
    ⟨by simp, fun character member => isDigits character (by simp_all), by simp⟩
  cases fraction with
  | nil =>
      simp only [NumberStyle.scientific, List.cons_append, List.nil_append]
      rw [← List.singleton_append, scanNumber_of_isWhole negative isWhole (endsDigits_cons _ rfl)]
      exact scanExponent_scientific negative [digit] none power ends
  | cons second others =>
      simp only [NumberStyle.scientific, List.append_assoc, List.cons_append]
      rw [← List.singleton_append, scanNumber_of_isWhole negative isWhole (endsDigits_cons _ rfl),
        ← List.cons_append, scanFraction_point negative [digit] (by simp)
          (fun character member => isDigits character (List.mem_cons_of_mem _ member))
          (endsDigits_cons _ rfl)]
      exact scanExponent_scientific negative [digit] (some (second :: others)) power ends

/-! ### Reading the layouts -/

/-- A text without a sign is read as the double at an index, of either sign. -/
def ReadsAs (text : List Char) (index : Nat) : Prop :=
  ∀ (negative : Bool) (rest : List Char), EndsNumber rest →
    scanNumber negative (text ++ rest) =
      (.number (some (.real (Binary64.ofIndex negative index))), rest)

/-- A whole part, a fraction and a power of ten spell a numeral, with some zeros
behind its digits. -/
structure Spells (whole fraction : List Char) (power : Int) (numeral : Nat × Int) : Prop where
  short : (whole ++ fraction).length ≤ countedDigits
  fine : -401 ≤ power - fraction.length
  digits : ∃ zeros : Nat, digitsValue (whole ++ fraction) = numeral.1 * Decimal.tenTo zeros ∧
    power - fraction.length = numeral.2 - zeros

theorem length_significantDigits_le (whole fraction : List Char) :
    (significantDigits whole fraction).length ≤ (whole ++ fraction).length := by
  have front := length_dropWhile_le (· == '0')
    (whole ++ (fraction.reverse.dropWhile (· == '0')).reverse)
  have back := length_dropWhile_le (· == '0') fraction.reverse
  simp only [significantDigits, List.length_append, List.length_reverse] at front back ⊢
  omega

/-- What spells the shortest numeral of a double is read as that double. -/
theorem realNumeral_of_spells {whole fraction : List Char} {power : Int} {tie : Tie} {index : Nat}
    (negative : Bool) (finite : index < Binary64.infinityIndex)
    (spells : Spells whole fraction power (Decimal.shortest tie index)) :
    realNumeral negative whole fraction power =
      some (.real (Binary64.ofIndex negative index)) := by
  obtain ⟨short, fine, zeros, value, places⟩ := spells
  have counted := Nat.le_trans (length_significantDigits_le whole fraction) short
  rw [places] at fine
  have reads := Decimal.toIndex_shortest tie finite fine
  simp only [realNumeral, decimalOf, counted, if_true, Decimal.toFloat?, value, places, reads,
    finite, Option.map_some]

theorem readsAs_positional {whole fraction : List Char} {tie : Tie} {index : Nat}
    (finite : index < Binary64.infinityIndex) (isWhole : IsWhole whole) (nonempty : fraction ≠ [])
    (isDigits : ∀ digit ∈ fraction, digit.isDigit)
    (spells : Spells whole fraction 0 (Decimal.shortest tie index)) :
    ReadsAs (whole ++ '.' :: fraction) index := by
  intro negative rest ends
  rw [scanNumber_positional negative isWhole nonempty isDigits ends,
    realNumeral_of_spells negative finite spells]

section Layouts

variable (tie : Tie) {index : Nat}

/-- The digits of the shortest numeral of a double. -/
def shortestDigits (index : Nat) : List Char :=
  Nat.toDigits 10 (Decimal.shortest tie index).1

theorem isDigit_of_mem_shortestDigits : ∀ digit ∈ shortestDigits tie index, digit.isDigit :=
  isDigit_of_mem_toDigits

theorem digitsValue_shortestDigits :
    digitsValue (shortestDigits tie index) = (Decimal.shortest tie index).1 :=
  digitsValue_toDigits _

variable (finite : index < Binary64.infinityIndex)

include finite

theorem length_shortestDigits_le : (shortestDigits tie index).length ≤ 656 :=
  length_toDigits_le (by decide) (Decimal.shortest_bounds tie finite).2.1

theorem isWhole_shortestDigits_append_zeros :
    IsWhole (shortestDigits tie index ++
      List.replicate (Decimal.shortest tie index).2.toNat '0') := by
  rcases (Decimal.shortest_bounds tie finite).1 with positive | none
  · have digits : IsWhole (shortestDigits tie index) := isWhole_toDigits _
    obtain ⟨first, others, shape⟩ := List.exists_cons_of_ne_nil digits.nonempty
    have nonzero : (shortestDigits tie index).head? ≠ some '0' := head?_toDigits_ne_zero positive
    rw [shape] at digits nonzero ⊢
    exact isWhole_of_nonzero (by simp)
      (List.forall_mem_append.mpr ⟨digits.isDigits, isDigit_of_mem_zeros⟩) nonzero
  · rw [none, Int.toNat_zero, List.replicate_zero, List.append_nil]
    exact isWhole_toDigits _

theorem readsAs_whole (whole : 0 ≤ (Decimal.shortest tie index).2)
    (moderate : (Decimal.shortest tie index).2 + (shortestDigits tie index).length - 1 < 16) :
    ReadsAs (shortestDigits tie index ++
      List.replicate (Decimal.shortest tie index).2.toNat '0' ++ ['.', '0']) index := by
  have spells : Spells (shortestDigits tie index ++
      List.replicate (Decimal.shortest tie index).2.toNat '0') ['0'] 0
      (Decimal.shortest tie index) := by
    refine ⟨?_, by decide, (Decimal.shortest tie index).2.toNat + 1, ?_, ?_⟩
    · simp only [List.length_append, List.length_replicate, List.length_singleton, countedDigits]
      omega
    · rw [List.append_assoc, ← List.replicate_succ', digitsValue_append_zeros,
        digitsValue_shortestDigits]
    · simp only [List.length_singleton]
      omega
  exact readsAs_positional finite (isWhole_shortestDigits_append_zeros tie finite) (by simp)
    (by simp) spells

theorem readsAs_point (fraction : (Decimal.shortest tie index).2 < 0)
    (inside : (-(Decimal.shortest tie index).2).toNat < (shortestDigits tie index).length) :
    let before := (shortestDigits tie index).length - (-(Decimal.shortest tie index).2).toNat
    ReadsAs ((shortestDigits tie index).take before ++
      '.' :: (shortestDigits tie index).drop before) index := by
  intro before
  have length := length_shortestDigits_le tie finite
  obtain ⟨some, -, low, -⟩ := Decimal.shortest_bounds tie finite
  have positive : 0 < (Decimal.shortest tie index).1 := by omega
  have dropped : ((shortestDigits tie index).drop before).length =
      (-(Decimal.shortest tie index).2).toNat := by
    rw [List.length_drop]
    omega
  have isWhole : IsWhole ((shortestDigits tie index).take before) := by
    refine isWhole_of_nonzero ?_ ?_ ?_
    · rw [List.ne_nil_iff_length_pos, List.length_take]
      omega
    · exact fun digit member =>
        isDigit_of_mem_shortestDigits tie digit (List.mem_of_mem_take member)
    · rw [List.head?_take, if_neg (by omega)]
      exact head?_toDigits_ne_zero positive
  have spells : Spells ((shortestDigits tie index).take before)
      ((shortestDigits tie index).drop before) 0 (Decimal.shortest tie index) := by
    refine ⟨?_, ?_, 0, ?_, ?_⟩
    · rw [List.take_append_drop, countedDigits]
      omega
    · rw [dropped]
      omega
    · rw [List.take_append_drop, digitsValue_shortestDigits, Decimal.tenTo_zero, Nat.mul_one]
    · rw [dropped]
      omega
  refine readsAs_positional finite isWhole ?_ ?_ spells
  · rw [List.ne_nil_iff_length_pos, dropped]
    omega
  · exact fun digit member =>
      isDigit_of_mem_shortestDigits tie digit (List.mem_of_mem_drop member)

theorem readsAs_small (fraction : (Decimal.shortest tie index).2 < 0)
    (outside : (shortestDigits tie index).length ≤ (-(Decimal.shortest tie index).2).toNat) :
    let zeros := (-(Decimal.shortest tie index).2).toNat - (shortestDigits tie index).length
    ReadsAs (['0'] ++ '.' :: (List.replicate zeros '0' ++ shortestDigits tie index)) index := by
  intro zeros
  have length := length_shortestDigits_le tie finite
  obtain ⟨-, -, low, -⟩ := Decimal.shortest_bounds tie finite
  have total : (List.replicate zeros '0' ++ shortestDigits tie index).length =
      (-(Decimal.shortest tie index).2).toNat := by
    rw [List.length_append, List.length_replicate]
    omega
  have spells : Spells ['0'] (List.replicate zeros '0' ++ shortestDigits tie index) 0
      (Decimal.shortest tie index) := by
    refine ⟨?_, ?_, 0, ?_, ?_⟩
    · rw [List.length_append, total, List.length_singleton, countedDigits]
      omega
    · rw [total]
      omega
    · rw [show ['0'] = List.replicate 1 '0' from rfl, digitsValue_zeros_append,
        digitsValue_zeros_append, digitsValue_shortestDigits, Decimal.tenTo_zero, Nat.mul_one]
    · rw [total]
      omega
  refine readsAs_positional finite isWhole_zero ?_ ?_ spells
  · rw [List.ne_nil_iff_length_pos, total]
    omega
  · exact List.forall_mem_append.mpr ⟨isDigit_of_mem_zeros, isDigit_of_mem_shortestDigits tie⟩

theorem readsAs_scientific :
    ReadsAs (NumberStyle.scientific (shortestDigits tie index)
      ((Decimal.shortest tie index).2 + (shortestDigits tie index).length - 1)) index := by
  intro negative rest ends
  have length := length_shortestDigits_le tie finite
  obtain ⟨-, -, low, high⟩ := Decimal.shortest_bounds tie finite
  have isDigits := @isDigit_of_mem_shortestDigits tie index
  have value := @digitsValue_shortestDigits tie index
  have nonempty : shortestDigits tie index ≠ [] := Nat.toDigits_ne_nil
  obtain ⟨digit, fraction, shape⟩ := List.exists_cons_of_ne_nil nonempty
  rw [shape] at length isDigits value ⊢
  simp only [List.length_cons] at length ⊢
  have spells : Spells [digit] fraction
      ((Decimal.shortest tie index).2 + (fraction.length + 1 : Nat) - 1)
      (Decimal.shortest tie index) := by
    refine ⟨?_, by omega, 0, ?_, by omega⟩
    · simp only [List.singleton_append, List.length_cons, countedDigits]
      omega
    · rw [List.singleton_append, value, Decimal.tenTo_zero, Nat.mul_one]
  rw [scanNumber_scientific negative isDigits _ ends,
    realNumeral_of_spells negative finite spells]

end Layouts

/-! ### Stored numbers -/

/-- A stored number without its sign. -/
def storedMagnitude (index : Nat) : List Char :=
  let power := (Decimal.shortest .toEven index).2 + (shortestDigits .toEven index).length - 1
  if NumberStyle.stored.isPositional power then
    NumberStyle.positional true (shortestDigits .toEven index) (Decimal.shortest .toEven index).2
  else NumberStyle.scientific (shortestDigits .toEven index) power

theorem write_stored (value : Float) :
    NumberStyle.stored.write value =
      if Binary64.isNegative value then '-' :: storedMagnitude (Binary64.index value)
      else storedMagnitude (Binary64.index value) :=
  rfl

theorem readsAs_storedMagnitude {index : Nat} (finite : index < Binary64.infinityIndex) :
    ReadsAs (storedMagnitude index) index := by
  unfold storedMagnitude
  dsimp only
  split
  · rename_i positional
    have moderate := of_decide_eq_true positional
    by_cases whole : 0 ≤ (Decimal.shortest .toEven index).2
    · have reads := readsAs_whole .toEven finite whole moderate.2
      simpa only [NumberStyle.positional, NumberStyle.split, whole, if_true] using reads
    · have fraction : (Decimal.shortest .toEven index).2 < 0 := by omega
      by_cases inside :
          (-(Decimal.shortest .toEven index).2).toNat < (shortestDigits .toEven index).length
      · have reads := readsAs_point .toEven finite fraction inside
        simp only [NumberStyle.positional, NumberStyle.split, whole, inside, if_true, if_false]
        split
        · rename_i parts
          simp only [Prod.mk.injEq, List.drop_eq_nil_iff] at parts
          omega
        · rename_i parts
          simp only [Prod.mk.injEq] at parts
          rw [← parts.1, ← parts.2]
          exact reads
      · have reads := readsAs_small .toEven finite fraction (by omega)
        simp only [NumberStyle.positional, NumberStyle.split, whole, inside, if_false]
        split
        · rename_i parts
          simp only [Prod.mk.injEq, List.append_eq_nil_iff] at parts
          exact absurd parts.2.2 Nat.toDigits_ne_nil
        · rename_i parts
          simp only [Prod.mk.injEq] at parts
          rw [← parts.1, ← parts.2]
          exact reads
  · exact readsAs_scientific .toEven finite

/-- A text that is read as a number starts with a digit. -/
theorem ReadsAs.starts_with_digit {text : List Char} {index : Nat} (reads : ReadsAs text index) :
    ∃ first others, text = first :: others ∧ first.isDigit = true := by
  have read := reads false [] (by simp [EndsNumber])
  rw [List.append_nil] at read
  cases text with
  | nil => cases read
  | cons first others =>
      refine ⟨first, others, rfl, ?_⟩
      by_contra other
      simp [scanNumber, spanDigits, other, breakNumber] at read

theorem scan_of_isDigit {first : Char} (rest : List Char) (isDigit : first.isDigit = true) :
    isBlank first = false ∧ scan first rest = scanNumber false (first :: rest) := by
  have distinct : ∀ other : Char, other.isDigit = false → first ≠ other := by
    intro other otherwise equal
    rw [equal, otherwise] at isDigit
    cases isDigit
  constructor
  · simp [isBlank, distinct ' ' rfl, distinct '\n' rfl, distinct '\t' rfl, distinct '\r' rfl]
  · simp [scan, punctuation?, isDigit, distinct '[' rfl, distinct ']' rfl, distinct '\x7b' rfl,
      distinct '\x7d' rfl, distinct ',' rfl, distinct ':' rfl, distinct '"' rfl,
      distinct '-' rfl]

end Token

/-- A number that a text can hold. -/
def Numeral.IsFinite : Numeral → Prop
  | .count _ => True
  | .real value => value.isFinite = true

namespace Token

theorem scan_count (value : UInt64) {rest : List Char} (ends : EndsNumber rest) :
    ∃ first others, Json.writeNumeral (.count value) = first :: others ∧ isBlank first = false ∧
      scan first (others ++ rest) = (.number (some (.count value)), rest) := by
  have isWhole := isWhole_toDigits value.toNat
  obtain ⟨first, others, shape⟩ := List.exists_cons_of_ne_nil isWhole.nonempty
  have isDigit : first.isDigit = true := by
    apply isWhole.isDigits
    rw [shape]
    exact List.mem_cons_self
  obtain ⟨notBlank, scanned⟩ := scan_of_isDigit (others ++ rest) isDigit
  refine ⟨first, others, shape, notBlank, ?_⟩
  have small : value.toNat < UInt64.size := value.toNat_lt_size
  rw [scanned, ← List.cons_append, ← shape, scanNumber_whole false isWhole ends]
  simp only [wholeNumeral, digitsValue_toDigits, small, and_self, if_true, UInt64.ofNat_toNat]

theorem scan_real {value : Float} (finite : value.isFinite = true) {rest : List Char}
    (ends : EndsNumber rest) :
    ∃ first others, Json.writeNumeral (.real value) = first :: others ∧ isBlank first = false ∧
      scan first (others ++ rest) = (.number (some (.real value)), rest) := by
  have reads := readsAs_storedMagnitude ((Binary64.isFinite_iff value).mp finite)
  have back := Binary64.ofIndex_index value
  simp only [Json.writeNumeral, write_stored]
  cases sign : Binary64.isNegative value with
  | true =>
      refine ⟨'-', storedMagnitude (Binary64.index value), rfl, rfl, ?_⟩
      have read := reads true rest ends
      rw [sign] at back
      rw [back] at read
      exact read
  | false =>
      obtain ⟨first, others, shape, isDigit⟩ := reads.starts_with_digit
      obtain ⟨notBlank, scanned⟩ := scan_of_isDigit (others ++ rest) isDigit
      refine ⟨first, others, shape, notBlank, ?_⟩
      rw [sign] at back
      rw [scanned, ← List.cons_append, ← shape, reads false rest ends, back]

/-- A written number is one token, with the number in it. -/
theorem scan_writeNumeral {numeral : Numeral} (finite : numeral.IsFinite) {rest : List Char}
    (ends : EndsNumber rest) :
    ∃ first others, Json.writeNumeral numeral = first :: others ∧ isBlank first = false ∧
      scan first (others ++ rest) = (.number (some numeral), rest) := by
  cases numeral with
  | count value => exact scan_count value ends
  | real value => exact scan_real finite ends

end Token

end BlockStage
