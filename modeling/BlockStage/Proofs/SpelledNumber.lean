import BlockStage.Proofs.ShownNumber

/-!
# Numbers in any spelling

A number of a text has a sign, digits in front of the point, perhaps digits behind it, and
perhaps a power of ten.  However its parts are spelled, it is one token with the value of the
parts.  Stored numbers are spelled in this way too, with few digits.  The beginning of a number
is a number itself, with the same or shorter parts, or it breaks off where digits are missing;
and since a stored number is short, each of its beginnings that is a number is a finite one.
-/

namespace BlockStage

/-- What stands behind the digits of a number: a mark, a sign or none, and the power. -/
structure PowerOfTen where
  mark : Char
  sign : List Char
  digits : List Char

/-- The parts of a number in a text. -/
structure Figures where
  negative : Bool
  whole : List Char
  fraction : Option (List Char) := none
  power : Option PowerOfTen := none

open Token (IsWhole EndsDigits EndsNumber digitsValue scanNumber scanFraction scanExponent)

namespace PowerOfTen

/-- The rules for a power of ten. -/
structure IsSpelled (power : PowerOfTen) : Prop where
  mark : power.mark = 'e' ∨ power.mark = 'E'
  sign : power.sign = [] ∨ power.sign = ['+'] ∨ power.sign = ['-']
  nonempty : power.digits ≠ []
  isDigits : ∀ digit ∈ power.digits, digit.isDigit

def text (power : PowerOfTen) : List Char := power.mark :: (power.sign ++ power.digits)

def value (power : PowerOfTen) : Int :=
  if power.sign = ['-'] then -(digitsValue power.digits : Int) else digitsValue power.digits

end PowerOfTen

namespace Figures

/-- The rules for a number. -/
structure IsSpelled (figures : Figures) : Prop where
  whole : IsWhole figures.whole
  fraction : ∀ digits ∈ figures.fraction, digits ≠ [] ∧ ∀ digit ∈ digits, digit.isDigit
  power : ∀ power ∈ figures.power, power.IsSpelled

def fractionText (figures : Figures) : List Char :=
  match figures.fraction with
  | none => []
  | some digits => '.' :: digits

def powerText (figures : Figures) : List Char :=
  match figures.power with
  | none => []
  | some power => power.text

def magnitude (figures : Figures) : List Char :=
  figures.whole ++ (figures.fractionText ++ figures.powerText)

def text (figures : Figures) : List Char :=
  if figures.negative then '-' :: figures.magnitude else figures.magnitude

/-- The number that the parts stand for, if it is finite.  Without a fraction and a power it may
be a count. -/
def value (figures : Figures) : Option Numeral :=
  match figures.fraction, figures.power with
  | none, none => Token.wholeNumeral figures.negative figures.whole
  | fraction, power =>
      Token.realNumeral figures.negative figures.whole (fraction.getD [])
        (power.elim 0 PowerOfTen.value)

end Figures

/-! ### The beginning of a text in two parts -/

theorem prefix_append_cases {before first second : List Char}
    (isPrefix : before <+: first ++ second) :
    before <+: first ∨ ∃ later, later ≠ [] ∧ before = first ++ later ∧ later <+: second := by
  rcases List.prefix_or_prefix_of_prefix isPrefix (List.prefix_append first second) with
    within | ⟨later, rfl⟩
  · exact Or.inl within
  · by_cases nothing : later = []
    · subst nothing
      exact Or.inl (by simp)
    · exact Or.inr ⟨later, nothing, rfl, (List.prefix_append_right_inj first).mp isPrefix⟩

theorem proper_append_cases {before first second : List Char}
    (isPrefix : before <+: first ++ second) :
    (before <+: first ∧ before ≠ first) ∨
      ∃ later, before = first ++ later ∧ later <+: second := by
  rcases prefix_append_cases isPrefix with within | ⟨later, -, isLater, isSecond⟩
  · by_cases whole : before = first
    · exact Or.inr ⟨[], by simp [whole], by simp⟩
    · exact Or.inl ⟨within, whole⟩
  · exact Or.inr ⟨later, isLater, isSecond⟩

/-! ### Scanning -/

theorem isDigit_head {digits : List Char} (nonempty : digits ≠ [])
    (isDigits : ∀ digit ∈ digits, digit.isDigit) (rest : List Char) :
    ∃ first others, digits ++ rest = first :: others ∧ first.isDigit = true := by
  obtain ⟨first, others, rfl⟩ := List.exists_cons_of_ne_nil nonempty
  exact ⟨first, others ++ rest, rfl, isDigits first List.mem_cons_self⟩

namespace PowerOfTen.IsSpelled

variable {power : PowerOfTen}

theorem exponentSign_eq (spelled : power.IsSpelled) (rest : List Char) :
    Token.exponentSign (power.sign ++ (power.digits ++ rest)) =
      (decide (power.sign = ['-']), power.digits ++ rest) := by
  rcases spelled.sign with sign | sign | sign
  · obtain ⟨first, others, shape, isDigit⟩ := isDigit_head spelled.nonempty spelled.isDigits rest
    rw [sign, List.nil_append, shape]
    unfold Token.exponentSign
    split
    · rename_i equal
      obtain ⟨rfl, -⟩ := List.cons.inj equal
      exact absurd isDigit (by decide)
    · rename_i equal
      obtain ⟨rfl, -⟩ := List.cons.inj equal
      exact absurd isDigit (by decide)
    · rfl
  · rw [sign]
    rfl
  · rw [sign]
    rfl

theorem scanExponent_eq (spelled : power.IsSpelled) (negative : Bool) (whole : List Char)
    (fraction : Option (List Char)) {rest : List Char} (ends : EndsDigits rest) :
    scanExponent negative whole fraction (power.text ++ rest) =
      (.number (Token.realNumeral negative whole (fraction.getD []) power.value), rest) := by
  have digits := Token.spanDigits_append spelled.isDigits ends
  simp only [PowerOfTen.text, List.cons_append, List.append_assoc, scanExponent, spelled.mark,
    if_true, spelled.exponentSign_eq, digits, List.isEmpty_iff, spelled.nonempty, if_false,
    PowerOfTen.value, decide_eq_true_eq]

end PowerOfTen.IsSpelled

namespace Figures

variable {figures : Figures}

/-- The digits of a number are scanned up to the mark of a power. -/
theorem IsSpelled.scanNumber_mark (spelled : figures.IsSpelled) {mark : Char}
    (isMark : mark = 'e' ∨ mark = 'E') (rest : List Char) :
    scanNumber figures.negative (figures.whole ++ (figures.fractionText ++ mark :: rest)) =
      scanExponent figures.negative figures.whole figures.fraction (mark :: rest) := by
  have ends : EndsDigits (mark :: rest) := by
    apply Token.endsDigits_cons
    rcases isMark with rfl | rfl <;> rfl
  unfold fractionText
  split
  · rename_i fraction
    rw [fraction, List.nil_append, Token.scanNumber_of_isWhole _ spelled.whole ends]
    rcases isMark with rfl | rfl <;> rfl
  · rename_i digits fraction
    obtain ⟨nonempty, isDigits⟩ := spelled.fraction digits fraction
    rw [fraction, List.cons_append,
      Token.scanNumber_of_isWhole _ spelled.whole (Token.endsDigits_cons _ rfl),
      Token.scanFraction_point _ _ nonempty isDigits ends]

/-- A spelled number is scanned as its value, up to what it does not go on with. -/
theorem IsSpelled.scanNumber_eq (spelled : figures.IsSpelled) {rest : List Char}
    (ends : EndsNumber rest) :
    scanNumber figures.negative (figures.magnitude ++ rest) = (.number figures.value, rest) := by
  rw [magnitude, List.append_assoc, List.append_assoc]
  cases power : figures.power with
  | some spelledPower =>
      have isPower := spelled.power spelledPower power
      have scanned := isPower.scanExponent_eq figures.negative figures.whole figures.fraction
        ends.endsDigits
      have valued : figures.value = Token.realNumeral figures.negative figures.whole
          (figures.fraction.getD []) spelledPower.value := by
        simp [value, power]
      rw [powerText, power, valued, ← scanned]
      exact spelled.scanNumber_mark isPower.mark _
  | none =>
      rw [powerText, power, List.nil_append]
      cases fraction : figures.fraction with
      | none =>
          rw [fractionText, fraction, List.nil_append,
            Token.scanNumber_whole _ spelled.whole ends, value, fraction, power]
      | some digits =>
          obtain ⟨nonempty, isDigits⟩ := spelled.fraction digits fraction
          rw [fractionText, fraction, ← List.append_assoc,
            Token.scanNumber_positional _ spelled.whole nonempty isDigits ends, value, fraction,
            power]
          rfl

/-- The text of a number starts with a character of which it is scanned. -/
theorem IsSpelled.scan_eq (spelled : figures.IsSpelled) {rest : List Char}
    (ends : EndsNumber rest) :
    ∃ first others, figures.text = first :: others ∧ Token.isBlank first = false ∧
      Token.scan first (others ++ rest) = (.number figures.value, rest) := by
  have scanned := spelled.scanNumber_eq ends
  cases sign : figures.negative with
  | true =>
      refine ⟨'-', figures.magnitude, by rw [text, sign, if_pos rfl], rfl, ?_⟩
      rw [sign] at scanned
      exact scanned
  | false =>
      obtain ⟨first, others, shape, isDigit⟩ := isDigit_head spelled.whole.nonempty
        spelled.whole.isDigits (figures.fractionText ++ figures.powerText)
      have magnitude : figures.magnitude = first :: others := shape
      obtain ⟨notBlank, starts⟩ := Token.scan_of_isDigit (others ++ rest) isDigit
      refine ⟨first, others, by simp [text, sign, magnitude], notBlank, ?_⟩
      rw [sign, magnitude] at scanned
      rw [starts]
      exact scanned

end Figures

/-! ### Small numbers are finite -/

/-- A decimal below `10 ^ 300` is finite, however many digits it has. -/
theorem Decimal.toIndex_lt_of_small {digits length : Nat} {exponent : Int}
    (short : digits < tenTo length) (small : length + exponent ≤ 300) :
    toIndex digits exponent < Binary64.infinityIndex := by
  have first : 0 < Binary64.infinityIndex := by decide
  unfold toIndex
  split
  · exact first
  split
  · omega
  split
  · exact first
  dsimp only
  by_contra large
  have positive : 0 < tenTo (-exponent).toNat := tenTo_pos _
  have reach := (Binary64.inReach_nearestIndex (unitFraction digits exponent).1 positive).lower
  change (_ + _) * tenTo (-exponent).toNat ≤ _ at reach
  have far : twoTo 2098 ≤ Binary64.units
      (Binary64.nearestIndex (unitFraction digits exponent).1 (tenTo (-exponent).toNat)) := by
    rw [← units_infinityIndex]
    exact Binary64.units_strictMono.monotone (Nat.le_of_not_lt large)
  have near : digits * tenTo exponent.toNat ≤ twoTo 1000 * tenTo (-exponent).toNat := by
    calc
      digits * tenTo exponent.toNat ≤ tenTo length * tenTo exponent.toNat :=
        Nat.mul_le_mul_right _ short.le
      _ = tenTo (length + exponent.toNat) := (tenTo_add _ _).symm
      _ ≤ tenTo (300 + (-exponent).toNat) := tenTo_mono (by omega)
      _ = tenTo 300 * tenTo (-exponent).toNat := tenTo_add _ _
      _ ≤ twoTo 1000 * tenTo (-exponent).toNat := Nat.mul_le_mul_right _ (tenTo_le_twoTo 300)
  have units : 2 * (unitFraction digits exponent).1 =
      digits * tenTo exponent.toNat * twoTo 1075 := by
    rw [← two_mul_unitsPerOne]
    simp only [unitFraction]
    ring
  have bound : twoTo 2098 * tenTo (-exponent).toNat ≤
      twoTo 2075 * tenTo (-exponent).toNat := by
    calc
      twoTo 2098 * tenTo (-exponent).toNat ≤ _ :=
        Nat.mul_le_mul_right _ (far.trans (Nat.le_add_left _ _))
      _ ≤ digits * tenTo exponent.toNat * twoTo 1075 := units ▸ reach
      _ ≤ twoTo 1000 * tenTo (-exponent).toNat * twoTo 1075 := Nat.mul_le_mul_right _ near
      _ = twoTo 2075 * tenTo (-exponent).toNat := by
        rw [show 2075 = 1000 + 1075 from rfl, twoTo_add]
        ring
  have smaller := Nat.le_of_mul_le_mul_right bound positive
  have larger : twoTo 2098 = twoTo 2075 * twoTo 23 := twoTo_add 2075 23
  have nonzero := twoTo_pos 2075
  have several : twoTo 23 = 8388608 := twoTo_eq 23
  rw [several] at larger
  omega

namespace Token

/-- The beginning of the digits in front of a point. -/
theorem IsWhole.beginning {whole before : List Char} (isWhole : IsWhole whole)
    (isPrefix : before <+: whole) (nonempty : before ≠ []) : IsWhole before := by
  obtain ⟨rest, rfl⟩ := isPrefix
  refine ⟨nonempty, fun digit member => isWhole.isDigits digit (List.mem_append_left rest member),
    ?_⟩
  intro zero
  obtain ⟨first, others, rfl⟩ := List.exists_cons_of_ne_nil nonempty
  have single := isWhole.leading zero
  simp_all

theorem endsNumber_nil : EndsNumber [] := by simp [EndsNumber]

theorem digitsValue_concat (digits : List Char) (digit : Char) :
    digitsValue (digits ++ [digit]) = digitsValue digits * 10 + (digit.toNat - '0'.toNat) := by
  simp [digitsValue]

theorem digitsValue_lt {digits : List Char} (isDigits : ∀ digit ∈ digits, digit.isDigit) :
    digitsValue digits < Decimal.tenTo digits.length := by
  induction digits using List.reverseRecOn with
  | nil => exact Nat.one_pos
  | append_singleton digits digit ih =>
      obtain ⟨earlier, last⟩ := List.forall_mem_append.mp isDigits
      have below := ih earlier
      have small : digit.toNat ≤ '9'.toNat := by
        have isDigit := last digit List.mem_cons_self
        simp only [Char.isDigit, Bool.and_eq_true, decide_eq_true_eq] at isDigit
        exact isDigit.2
      have ten : Decimal.tenTo (digits.length + 1) = Decimal.tenTo digits.length * 10 :=
        Decimal.tenTo_add digits.length 1
      rw [digitsValue_concat, List.length_append, List.length_singleton, ten]
      simp only [Char.reduceToNat] at small ⊢
      omega

/-- Digits that go on stand for no smaller number. -/
theorem digitsValue_le_append (digits more : List Char) :
    digitsValue digits ≤ digitsValue (digits ++ more) := by
  induction more using List.reverseRecOn with
  | nil => rw [List.append_nil]
  | append_singleton more digit ih =>
      rw [← List.append_assoc, digitsValue_concat]
      omega

end Token

namespace Figures

variable {figures : Figures}

/-- A number of few digits and places. -/
structure IsShort (figures : Figures) (places : Nat) : Prop where
  whole : figures.whole.length ≤ 16
  counted : (figures.whole ++ figures.fraction.getD []).length ≤ Token.countedDigits
  power : ∀ power ∈ figures.power, power.digits.length ≤ places

/-- Parts with a power of two places at most are those of a finite number. -/
theorem IsShort.exists_value (short : figures.IsShort 2) (spelled : figures.IsSpelled) :
    ∃ numeral, figures.value = some numeral := by
  have finite {digits length : Nat} {exponent : Int} (below : digits < Decimal.tenTo length)
      (small : length + exponent ≤ 300) :
      ∃ value, (⟨figures.negative, digits, exponent⟩ : Decimal).toFloat? = some value :=
    ⟨_, if_pos (Decimal.toIndex_lt_of_small below small)⟩
  have wholeShort := short.whole
  have real (power : Int) (small : power ≤ 100) : ∃ numeral, Token.realNumeral figures.negative
      figures.whole (figures.fraction.getD []) power = some numeral := by
    have isDigits : ∀ digit ∈ figures.whole ++ figures.fraction.getD [], digit.isDigit := by
      refine List.forall_mem_append.mpr ⟨spelled.whole.isDigits, ?_⟩
      cases fraction : figures.fraction with
      | none => simp
      | some digits => exact (spelled.fraction digits fraction).2
    have counted := Nat.le_trans
      (Token.length_significantDigits_le figures.whole (figures.fraction.getD [])) short.counted
    have places : ((figures.whole ++ figures.fraction.getD []).length : Int) +
        (power - (figures.fraction.getD []).length) ≤ 300 := by
      rw [List.length_append]
      omega
    obtain ⟨value, read⟩ := finite (Token.digitsValue_lt isDigits) places
    exact ⟨.real value, by simp only [Token.realNumeral, Token.decimalOf, counted, if_true, read,
      Option.map_some]⟩
  have smallPower : ∀ power ∈ figures.power, power.value ≤ 100 := by
    intro power isPower
    have below := Token.digitsValue_lt (spelled.power power isPower).isDigits
    have bound := below.trans_le (Decimal.tenTo_mono (short.power power isPower))
    have hundred : Decimal.tenTo 2 = 100 := rfl
    unfold PowerOfTen.value
    split <;> omega
  -- only a number without a fraction and a power may be a count
  cases power : figures.power with
  | some power' =>
      obtain ⟨numeral, read⟩ := real power'.value (smallPower power' power)
      refine ⟨numeral, ?_⟩
      rw [value, power, ← read]
      split <;> simp_all
  | none =>
      cases fraction : figures.fraction with
      | some digits =>
          obtain ⟨numeral, read⟩ := real 0 (by decide)
          refine ⟨numeral, ?_⟩
          rw [value, power, fraction, ← read, fraction]
          rfl
      | none =>
          have places : (figures.whole.length : Int) + 0 ≤ 300 := by omega
          obtain ⟨value', read⟩ := finite (Token.digitsValue_lt spelled.whole.isDigits) places
          simp only [value, power, fraction, Token.wholeNumeral, read]
          split <;> simp

/-! ### The beginning of a number -/

/-- The parts of a number that begins like another one and ends before it. -/
structure Begins (shorter figures : Figures) : Prop where
  negative : shorter.negative = figures.negative
  spelled : shorter.IsSpelled
  whole : shorter.whole.length ≤ figures.whole.length
  digits : (shorter.whole ++ shorter.fraction.getD []).length ≤
    (figures.whole ++ figures.fraction.getD []).length
  power : ∀ power ∈ shorter.power, ∃ longer ∈ figures.power,
    power.digits.length < longer.digits.length

theorem Begins.isShort {shorter : Figures} (begins : shorter.Begins figures) {places : Nat}
    (short : figures.IsShort (places + 1)) : shorter.IsShort places := by
  refine ⟨begins.whole.trans short.whole, begins.digits.trans short.counted, ?_⟩
  intro power isPower
  obtain ⟨longer, isLonger, less⟩ := begins.power power isPower
  have few := short.power longer isLonger
  omega

/-- A number may be cut off anywhere behind these characters: it breaks off there, or is another
number with shorter parts. -/
def CutShort (figures : Figures) (before : List Char) : Prop :=
  scanNumber figures.negative before = (.brokenNumber .premature .malformed, []) ∨
    ∃ shorter : Figures, shorter.magnitude = before ∧ shorter.Begins figures

theorem IsSpelled.cutShort_whole (spelled : figures.IsSpelled) {early : List Char}
    (isEarly : early <+: figures.whole) (nonempty : early ≠ []) : figures.CutShort early := by
  have short := isEarly.length_le
  refine Or.inr ⟨⟨figures.negative, early, none, none⟩, ?_, rfl,
    ⟨spelled.whole.beginning isEarly nonempty, by simp, by simp⟩, short, ?_, by simp⟩
  · simp [magnitude, fractionText, powerText]
  · simp only [Option.getD_none, List.append_nil, List.length_append]
    omega

theorem IsSpelled.cutShort_fraction (spelled : figures.IsSpelled) {digits early : List Char}
    (fraction : figures.fraction = some digits) (isEarly : early <+: digits) :
    figures.CutShort (figures.whole ++ '.' :: early) := by
  by_cases nothing : early = []
  · left
    rw [nothing, Token.scanNumber_of_isWhole _ spelled.whole (Token.endsDigits_cons _ rfl)]
    rfl
  · have short := isEarly.length_le
    have isDigits := (spelled.fraction digits fraction).2
    refine Or.inr ⟨⟨figures.negative, figures.whole, early, none⟩, ?_, rfl,
      ⟨spelled.whole, ?_, by simp⟩, le_rfl, ?_, by simp⟩
    · simp [magnitude, fractionText, powerText]
    · rintro _ ⟨⟩
      exact ⟨nothing, fun digit member => isDigits digit (isEarly.subset member)⟩
    · simp only [fraction, Option.getD_some, List.length_append]
      omega

theorem IsSpelled.cutShort_power (spelled : figures.IsSpelled) {power : PowerOfTen}
    {early : List Char} (isPower : figures.power = some power)
    (isEarly : early <+: power.sign ++ power.digits) (proper : early ≠ power.sign ++ power.digits) :
    figures.CutShort (figures.whole ++ (figures.fractionText ++ power.mark :: early)) := by
  have rules := spelled.power power isPower
  rcases prefix_append_cases isEarly with isSign | ⟨digits, nonempty, rfl, isDigits⟩
  · left
    have signs : early = [] ∨ early = ['+'] ∨ early = ['-'] := by
      rcases rules.sign with sign | sign | sign <;>
        simp only [sign, List.prefix_cons_iff, List.prefix_nil] at isSign <;> grind
    rw [spelled.scanNumber_mark rules.mark]
    rcases rules.mark with mark | mark <;> rcases signs with rfl | rfl | rfl <;> rw [mark] <;> rfl
  · right
    refine ⟨{ figures with power := some { power with digits := digits } }, ?_, rfl,
      ⟨spelled.whole, spelled.fraction, ?_⟩, le_rfl, le_rfl, ?_⟩
    · simp [magnitude, fractionText, powerText, PowerOfTen.text]
    · rintro _ ⟨⟩
      exact ⟨rules.mark, rules.sign, nonempty,
        fun digit member => rules.isDigits digit (isDigits.subset member)⟩
    · rintro _ ⟨⟩
      refine ⟨power, isPower, isDigits.length_le.lt_of_ne fun same => proper ?_⟩
      rw [isDigits.eq_of_length same]

theorem IsSpelled.cutShort (spelled : figures.IsSpelled) {before : List Char}
    (isPrefix : before <+: figures.magnitude) (proper : before ≠ figures.magnitude)
    (nonempty : before ≠ []) : figures.CutShort before := by
  -- the cut falls into the whole part, or else into the fraction or the power
  rcases prefix_append_cases isPrefix with isWhole | ⟨behind, going, rfl, isBehind⟩
  · exact spelled.cutShort_whole isWhole nonempty
  rcases prefix_append_cases isBehind with isFraction | ⟨last, goingOn, rfl, isLast⟩
  · unfold fractionText at isFraction
    split at isFraction
    · exact absurd (List.prefix_nil.mp isFraction) going
    · rename_i digits fraction
      obtain rfl | ⟨early, rfl, isEarly⟩ := List.prefix_cons_iff.mp isFraction
      · exact absurd rfl going
      · exact spelled.cutShort_fraction fraction isEarly
  · unfold powerText at isLast
    split at isLast
    · exact absurd (List.prefix_nil.mp isLast) goingOn
    · rename_i power isPower
      obtain rfl | ⟨early, rfl, isEarly⟩ := List.prefix_cons_iff.mp isLast
      · exact absurd rfl goingOn
      · refine spelled.cutShort_power isPower isEarly ?_
        rintro rfl
        simp [magnitude, powerText, isPower, PowerOfTen.text] at proper

/-- A short number that is cut off is still a finite number, or it breaks off. -/
theorem CutShort.scanNumber_eq {before : List Char} (cut : figures.CutShort before)
    (short : figures.IsShort 3) :
    scanNumber figures.negative before = (.brokenNumber .premature .malformed, []) ∨
      ∃ numeral, scanNumber figures.negative before = (.number (some numeral), []) := by
  rcases cut with broken | ⟨shorter, rfl, begins⟩
  · exact Or.inl broken
  · right
    obtain ⟨numeral, isNumeral⟩ := (begins.isShort short).exists_value begins.spelled
    have scanned := begins.spelled.scanNumber_eq Token.endsNumber_nil
    rw [List.append_nil, isNumeral, begins.negative] at scanned
    exact ⟨numeral, scanned⟩

end Figures

/-! ### Stored numbers -/

namespace Token

open NumberStyle (split)

variable {index : Nat} (finite : index < Binary64.infinityIndex)

include finite

theorem isWhole_split :
    IsWhole (split (shortestDigits .toEven index) (Decimal.shortest .toEven index).2).1 := by
  have nonempty : (split (shortestDigits .toEven index) (Decimal.shortest .toEven index).2).1 ≠
      [] := NumberStyle.split_whole_ne_nil _ Nat.toDigits_ne_nil
  unfold split at nonempty ⊢
  dsimp only at nonempty ⊢
  split
  · exact isWhole_shortestDigits_append_zeros .toEven finite
  · rename_i negative
    rw [if_neg negative] at nonempty
    split
    · rename_i inside
      rw [if_pos inside] at nonempty
      exact (isWhole_toDigits _).beginning (List.take_prefix _ _) nonempty
    · exact isWhole_zero

theorem length_split_le (moderate : (Decimal.shortest .toEven index).2 +
      (shortestDigits .toEven index).length - 1 < 16) :
    (split (shortestDigits .toEven index) (Decimal.shortest .toEven index).2).1.length ≤ 16 ∧
      (split (shortestDigits .toEven index) (Decimal.shortest .toEven index).2).2.length ≤ 343 := by
  obtain ⟨-, -, low, -⟩ := Decimal.shortest_bounds .toEven finite
  unfold split
  dsimp only
  split
  · simp only [List.length_append, List.length_replicate, List.length_nil]
    omega
  · split
    · simp only [List.length_take, List.length_drop]
      omega
    · simp only [List.length_append, List.length_replicate, List.length_singleton]
      omega

theorem exists_positional (negative : Bool) (moderate : (Decimal.shortest .toEven index).2 +
      (shortestDigits .toEven index).length - 1 < 16) :
    ∃ figures : Figures, figures.negative = negative ∧ figures.IsSpelled ∧ figures.IsShort 3 ∧
      figures.magnitude = NumberStyle.positional true (shortestDigits .toEven index)
        (Decimal.shortest .toEven index).2 := by
  have isWhole := isWhole_split finite
  obtain ⟨wholeShort, fractionShort⟩ := length_split_le finite moderate
  have isDigits := (NumberStyle.isDigit_of_mem_split (Decimal.shortest .toEven index).2
    (@isDigit_of_mem_shortestDigits .toEven index)).2
  unfold NumberStyle.positional
  generalize split (shortestDigits .toEven index) (Decimal.shortest .toEven index).2 = parts at *
  rcases parts with ⟨whole, _ | ⟨digit, digits⟩⟩ <;> dsimp only at wholeShort fractionShort
  · refine ⟨⟨negative, whole, some ['0'], none⟩, rfl, ⟨isWhole, by simp, by simp⟩,
      ⟨wholeShort, ?_, by simp⟩, rfl⟩
    simp only [Option.getD_some, List.length_append, List.length_singleton, countedDigits]
    omega
  · refine ⟨⟨negative, whole, some (digit :: digits), none⟩, rfl, ⟨isWhole, ?_, by simp⟩,
      ⟨wholeShort, ?_, by simp⟩,
      by simp [Figures.magnitude, Figures.fractionText, Figures.powerText]⟩
    · rintro _ ⟨⟩
      exact ⟨by simp, isDigits⟩
    · simp only [Option.getD_some, List.length_append, countedDigits]
      omega

theorem exists_scientific (negative : Bool) :
    ∃ figures : Figures, figures.negative = negative ∧ figures.IsSpelled ∧ figures.IsShort 3 ∧
      figures.magnitude = NumberStyle.scientific (shortestDigits .toEven index)
        ((Decimal.shortest .toEven index).2 + (shortestDigits .toEven index).length - 1) := by
  have length := length_shortestDigits_le .toEven finite
  obtain ⟨-, -, low, high⟩ := Decimal.shortest_bounds .toEven finite
  have isDigits := @isDigit_of_mem_shortestDigits .toEven index
  have nonempty : shortestDigits .toEven index ≠ [] := Nat.toDigits_ne_nil
  obtain ⟨digit, others, shape⟩ := List.exists_cons_of_ne_nil nonempty
  rw [shape] at length isDigits ⊢
  generalize isPower : (Decimal.shortest .toEven index).2 + ((digit :: others).length : Int) - 1 =
    power
  have isWhole : IsWhole [digit] := ⟨by simp, by simpa using isDigits digit, by simp⟩
  have places : (Nat.toDigits 10 power.natAbs).length ≤ 3 := by
    apply length_toDigits_le (by decide)
    rw [List.length_cons] at isPower length
    have thousand : Decimal.tenTo 3 = 1000 := rfl
    omega
  obtain ⟨written, isSpelled, isShort, text⟩ : ∃ written : PowerOfTen, written.IsSpelled ∧
      written.digits.length ≤ 3 ∧ written.text =
        'e' :: (if power < 0 then '-' else '+') :: Nat.toDigits 10 power.natAbs := by
    refine ⟨⟨'e', [if power < 0 then '-' else '+'], _⟩, ⟨Or.inl rfl, ?_, Nat.toDigits_ne_nil,
      isDigit_of_mem_toDigits⟩, places, rfl⟩
    split <;> simp
  cases others with
  | nil =>
      refine ⟨⟨negative, [digit], none, written⟩, rfl, ⟨isWhole, by simp, by simpa⟩,
        ⟨by simp, by simp [countedDigits], by simpa⟩, ?_⟩
      simp [Figures.magnitude, Figures.fractionText, Figures.powerText, NumberStyle.scientific,
        text]
  | cons second rest =>
      refine ⟨⟨negative, [digit], some (second :: rest), written⟩, rfl,
        ⟨isWhole, ?_, by simpa⟩, ⟨by simp, ?_, by simpa⟩, ?_⟩
      · rintro _ ⟨⟩
        exact ⟨by simp, fun later member => isDigits later (List.mem_cons_of_mem digit member)⟩
      · simp only [Option.getD_some, List.singleton_append, countedDigits]
        omega
      · simp [Figures.magnitude, Figures.fractionText, Figures.powerText, NumberStyle.scientific,
          text]

theorem exists_storedMagnitude (negative : Bool) :
    ∃ figures : Figures, figures.negative = negative ∧ figures.IsSpelled ∧ figures.IsShort 3 ∧
      figures.magnitude = storedMagnitude index := by
  unfold storedMagnitude
  dsimp only
  split
  · rename_i positional
    exact exists_positional finite negative (of_decide_eq_true positional).2
  · exact exists_scientific finite negative

end Token

namespace Figures

theorem exists_of_finite {value : Float} (finite : value.isFinite = true) :
    ∃ figures : Figures, figures.IsSpelled ∧ figures.IsShort 3 ∧
      figures.text = Json.writeNumeral (.real value) := by
  obtain ⟨figures, negative, spelled, short, magnitude⟩ := Token.exists_storedMagnitude
    ((Binary64.isFinite_iff value).mp finite) (Binary64.isNegative value)
  refine ⟨figures, spelled, short, ?_⟩
  rw [text, negative, magnitude]
  exact (Token.write_stored value).symm

end Figures

namespace Token

/-- The beginning of a stored count is a count. -/
theorem scan_cut_count {value : UInt64} {first : Char} {others : List Char}
    (isPrefix : first :: others <+: Json.writeNumeral (.count value)) :
    isBlank first = false ∧ ∃ lesser, scan first others = (.number (some (.count lesser)), []) := by
  have isWhole := (isWhole_toDigits value.toNat).beginning isPrefix (by simp)
  obtain ⟨notBlank, starts⟩ := scan_of_isDigit others (isWhole.isDigits first List.mem_cons_self)
  have small : digitsValue (first :: others) < UInt64.size := by
    obtain ⟨rest, whole⟩ := isPrefix
    have less := digitsValue_le_append (first :: others) rest
    rw [whole, Json.writeNumeral, digitsValue_toDigits] at less
    exact less.trans_lt value.toNat_lt_size
  refine ⟨notBlank, UInt64.ofNat (digitsValue (first :: others)), ?_⟩
  have scanned := scanNumber_whole false isWhole endsNumber_nil
  rw [List.append_nil] at scanned
  rw [starts, scanned, wholeNumeral, if_pos ⟨rfl, small⟩]

/-- The beginning of a stored double is a number, or it breaks off. -/
theorem scan_cut_real {value : Float} (finite : value.isFinite = true) {first : Char}
    {others : List Char} (isPrefix : first :: others <+: Json.writeNumeral (.real value))
    (proper : first :: others ≠ Json.writeNumeral (.real value)) :
    isBlank first = false ∧ (scan first others = (.brokenNumber .premature .malformed, []) ∨
      ∃ numeral, scan first others = (.number (some numeral), [])) := by
  obtain ⟨figures, spelled, short, text⟩ := Figures.exists_of_finite finite
  rw [← text] at isPrefix proper
  cases sign : figures.negative with
  | true =>
      rw [Figures.text, sign, if_pos rfl] at isPrefix proper
      obtain ⟨rfl, isRest⟩ := List.cons_prefix_cons.mp isPrefix
      refine ⟨rfl, ?_⟩
      by_cases nothing : others = []
      · -- nothing but the sign is left
        subst nothing
        exact Or.inl rfl
      · have cut := spelled.cutShort isRest (by simpa using proper) nothing
        have scanned := cut.scanNumber_eq short
        rw [sign] at scanned
        exact scanned
  | false =>
      rw [Figures.text, sign, if_neg Bool.false_ne_true] at isPrefix proper
      have cut := spelled.cutShort isPrefix proper (by simp)
      have scanned := cut.scanNumber_eq short
      obtain ⟨digit, digits, shape, isDigit⟩ := isDigit_head spelled.whole.nonempty
        spelled.whole.isDigits (figures.fractionText ++ figures.powerText)
      change figures.magnitude = digit :: digits at shape
      rw [shape] at isPrefix
      obtain ⟨rfl, -⟩ := List.cons_prefix_cons.mp isPrefix
      obtain ⟨notBlank, starts⟩ := scan_of_isDigit others isDigit
      rw [sign] at scanned
      rw [starts]
      exact ⟨notBlank, scanned⟩

end Token

end BlockStage
