import BlockStage.Proofs.Binary64Rounding
import BlockStage.Proofs.ExactValue
import BlockStage.Span

/-!
# Pauses to the nanosecond

The length of a sleep times the unit of sleep is a double, a number of seconds.  The pause is that
number rounded to nanoseconds, a half going to the even neighbour.  Rounding can lift a fraction to
a whole second, but it does not lift a number of seconds that fits 64 bits beyond them: a double
that large has no fraction.  The product is never negative, since neither of its factors has a minus
sign, so only what is too large for a span has no rounding.
-/

namespace BlockStage

/-- A whole number that is nearest to a rational one, and even where two are equally near. -/
structure IsNearestEven (exact : ℚ) (count : ℤ) : Prop where
  near : |exact - count| ≤ 1 / 2
  even : |exact - count| = 1 / 2 → Even count

namespace IsNearestEven

variable {exact : ℚ} {count other : ℤ}

theorem not_lt (nearest : IsNearestEven exact count) (otherNearest : IsNearestEven exact other) :
    ¬ count < other := by
  intro less
  have apart : (count : ℚ) + 1 ≤ other := by exact_mod_cast less
  have above := (abs_le.mp nearest.near).2
  have below := (abs_le.mp otherNearest.near).1
  -- The number lies halfway between its two neighbours, so both would be even.
  have up : exact - count = 1 / 2 := by linarith
  have down : exact - other = -(1 / 2) := by linarith
  have even : Even count := nearest.even (by rw [up]; norm_num)
  have otherEven : Even other := otherNearest.even (by rw [down]; norm_num)
  have next : other = count + 1 := by
    have : (other : ℚ) = count + 1 := by linarith
    exact_mod_cast this
  rw [next] at otherEven
  exact (Int.even_add_one.mp otherEven) even

theorem unique (nearest : IsNearestEven exact count) (otherNearest : IsNearestEven exact other) :
    count = other :=
  Int.le_antisymm (Int.not_lt.mp (otherNearest.not_lt nearest))
    (Int.not_lt.mp (nearest.not_lt otherNearest))

/-- Both numbers may be moved by an even one. -/
theorem sub_even (nearest : IsNearestEven exact count) {shift : ℤ} (evenShift : Even shift) :
    IsNearestEven (exact - shift) (count - shift) := by
  have same : exact - shift - ((count - shift : ℤ) : ℚ) = exact - count := by
    push_cast
    ring
  constructor
  · rw [same]
    exact nearest.near
  · rw [same]
    intro half
    exact (nearest.even half).sub evenShift

end IsNearestEven

theorem isNearestEven_roundHalfEven (numerator : Nat) {denominator : Nat}
    (positive : 0 < denominator) :
    IsNearestEven (numerator / denominator) (roundHalfEven numerator denominator) := by
  obtain ⟨above, below, evenAbove, evenBelow⟩ := roundHalfEven_spec numerator positive
  generalize roundHalfEven numerator denominator = rounded at *
  have weight : (0 : ℚ) < denominator := by exact_mod_cast positive
  set quotient : ℚ := numerator / denominator with quotientEq
  have product : quotient * denominator = numerator := div_mul_cancel₀ _ weight.ne'
  have high : 2 * quotient ≤ 2 * rounded + 1 := by
    have scaled : (2 * numerator : ℚ) ≤ (2 * rounded + 1) * denominator := by exact_mod_cast above
    exact le_of_mul_le_mul_right (by linarith) weight
  have low : 2 * (rounded : ℚ) ≤ 2 * quotient + 1 := by
    have scaled : (2 * rounded * denominator : ℚ) ≤ 2 * numerator + denominator := by
      exact_mod_cast below
    exact le_of_mul_le_mul_right (by linarith) weight
  constructor
  · rw [Int.cast_natCast, abs_le]
    constructor <;> linarith
  · intro half
    rw [Int.cast_natCast] at half
    rw [Int.even_coe_nat, Nat.even_iff]
    rcases (abs_eq (by norm_num)).mp half with up | down
    · apply evenAbove
      have scaled : (2 * numerator : ℚ) = (2 * rounded + 1) * denominator := by
        rw [← product, show quotient = rounded + 1 / 2 by linarith]
        ring
      exact_mod_cast scaled
    · apply evenBelow
      have scaled : (2 * rounded * denominator : ℚ) = 2 * numerator + denominator := by
        rw [← product, show quotient = rounded - 1 / 2 by linarith]
        ring
      exact_mod_cast scaled

namespace Binary64

/-- A double below `2 ^ 64` lies at least one below it: where the doubles reach that far, they have
no fraction. -/
theorem units_le_of_lt {index : Nat} (below : units index < 2 ^ 64 * unitsPerOne) :
    units index ≤ (2 ^ 64 - 1) * unitsPerOne := by
  obtain ⟨shift, multiple, rfl, small, onGrid⟩ := exists_onGrid index
  rw [units_of_onGrid onGrid] at below ⊢
  obtain ⟨places, one⟩ := exists_unitsPerOne_eq
  rw [one] at below ⊢
  by_cases whole : places ≤ shift
  · obtain ⟨rest, rfl⟩ := Nat.exists_eq_add_of_le' whole
    rw [Nat.pow_add, ← Nat.mul_assoc] at below ⊢
    have fewer : multiple * 2 ^ rest < 2 ^ 64 := Nat.lt_of_mul_lt_mul_right below
    exact Nat.mul_le_mul_right _ (Nat.le_sub_one_of_lt fewer)
  · have few : multiple ≤ 2 ^ 64 - 1 := by
      simp only [binade] at small
      omega
    exact Nat.mul_le_mul few (Nat.pow_le_pow_right Nat.two_pos (Nat.le_of_not_le whole))

end Binary64

namespace Span

open Binary64 (IsUnsigned toRat)

/-- Rounding to nanoseconds does not lead beyond the spans what was not beyond them before. -/
theorem roundHalfEven_lt_spanLimit_iff (index : Nat) :
    roundHalfEven (Binary64.units index * nanosecondsPerSecond) Binary64.unitsPerOne < spanLimit ↔
      Binary64.units index < 2 ^ 64 * Binary64.unitsPerOne := by
  have positive := Binary64.unitsPerOne_pos
  have gap := @Binary64.units_le_of_lt index
  obtain ⟨above, below, -, -⟩ :=
    roundHalfEven_spec (Binary64.units index * nanosecondsPerSecond) positive
  generalize roundHalfEven (Binary64.units index * nanosecondsPerSecond) Binary64.unitsPerOne =
    rounded at *
  generalize Binary64.units index = magnitude at *
  generalize Binary64.unitsPerOne = one at *
  have limit : spanLimit = 2 ^ 64 * nanosecondsPerSecond := rfl
  rw [limit]
  constructor
  · intro less
    by_contra beyond
    have scaled : 2 * (2 ^ 64 * nanosecondsPerSecond) * one ≤ (2 * rounded + 1) * one := by
      calc
        2 * (2 ^ 64 * nanosecondsPerSecond) * one = 2 * (2 ^ 64 * one * nanosecondsPerSecond) := by
          ring
        _ ≤ 2 * (magnitude * nanosecondsPerSecond) :=
          Nat.mul_le_mul_left _ (Nat.mul_le_mul_right _ (Nat.not_lt.mp beyond))
        _ ≤ (2 * rounded + 1) * one := above
    have := Nat.le_of_mul_le_mul_right scaled positive
    omega
  · intro less
    have scaled : 2 * rounded * one ≤ (2 * ((2 ^ 64 - 1) * nanosecondsPerSecond) + 1) * one := by
      calc
        2 * rounded * one ≤ 2 * (magnitude * nanosecondsPerSecond) + one := below
        _ ≤ 2 * ((2 ^ 64 - 1) * one * nanosecondsPerSecond) + one :=
          Nat.add_le_add_right
            (Nat.mul_le_mul_left _ (Nat.mul_le_mul_right _ (gap less))) _
        _ = (2 * ((2 ^ 64 - 1) * nanosecondsPerSecond) + 1) * one := by ring
    have := Nat.le_of_mul_le_mul_right scaled positive
    simp only [nanosecondsPerSecond] at *
    omega

section Conversion

variable {seconds : Float}

theorem ofSeconds?_of_isFinite (finite : seconds.isFinite = true)
    (unsigned : IsUnsigned seconds.toModel.unpack) :
    ofSeconds? seconds = ofNanoseconds?
      (roundHalfEven (Binary64.units (Binary64.index seconds) * nanosecondsPerSecond)
        Binary64.unitsPerOne) := by
  have inRange : ¬ (decide (seconds < 0) || !seconds.isFinite) = true := by
    simp [unsigned.not_lt_zero, finite]
  rw [ofSeconds?, if_neg inRange]

theorem ofSeconds?_of_lt (finite : seconds.isFinite = true)
    (unsigned : IsUnsigned seconds.toModel.unpack) (below : toRat seconds < 2 ^ 64) :
    ∃ span, ofSeconds? seconds = some span ∧
      IsNearestEven (toRat seconds * 10 ^ 9) span.nanoseconds := by
  have fits := (roundHalfEven_lt_spanLimit_iff (Binary64.index seconds)).mpr
    ((Binary64.toRat_lt_iff finite unsigned (2 ^ 64)).mp (by exact_mod_cast below))
  refine ⟨⟨_, fits⟩, ?_, ?_⟩
  · rw [ofSeconds?_of_isFinite finite unsigned, ofNanoseconds?, dif_pos fits]
  · have value : toRat seconds * 10 ^ 9 =
        ((Binary64.units (Binary64.index seconds) * nanosecondsPerSecond : Nat) : ℚ) /
          Binary64.unitsPerOne := by
      rw [Binary64.toRat_eq_units finite unsigned, nanosecondsPerSecond]
      push_cast
      ring
    rw [value]
    exact isNearestEven_roundHalfEven _ Binary64.unitsPerOne_pos

theorem ofSeconds?_of_not_lt (unsigned : IsUnsigned seconds.toModel.unpack)
    (beyond : ¬ (seconds.isFinite = true ∧ toRat seconds < 2 ^ 64)) :
    ofSeconds? seconds = none := by
  by_cases finite : seconds.isFinite = true
  · have long : ¬ roundHalfEven
        (Binary64.units (Binary64.index seconds) * nanosecondsPerSecond)
          Binary64.unitsPerOne < spanLimit := by
      rw [roundHalfEven_lt_spanLimit_iff, ← Binary64.toRat_lt_iff finite unsigned]
      exact fun below => beyond ⟨finite, by exact_mod_cast below⟩
    rw [ofSeconds?_of_isFinite finite unsigned, ofNanoseconds?, dif_neg long]
  · rw [ofSeconds?, if_pos (by simp [finite])]

end Conversion

/-- A span nearest to a number of seconds has its whole seconds, and its fraction rounded on its
own.  A fraction that is rounded up to a second is carried. -/
theorem exists_carry {span : Span} {value : ℚ} (nonnegative : 0 ≤ value)
    (nearest : IsNearestEven (value * 10 ^ 9) span.nanoseconds) :
    ∃ part : Nat, IsNearestEven (Int.fract value * 10 ^ 9) part ∧ part ≤ 10 ^ 9 ∧
      span.seconds = ⌊value⌋₊ + part / 10 ^ 9 ∧ span.remainder = part % 10 ^ 9 := by
  have evenWhole : Even (⌊value⌋ * 10 ^ 9) := (by decide : Even (10 ^ 9 : ℤ)).mul_left _
  have moved : IsNearestEven (Int.fract value * 10 ^ 9)
      (span.nanoseconds - ⌊value⌋ * 10 ^ 9) := by
    have split : Int.fract value * 10 ^ 9 = value * 10 ^ 9 - ((⌊value⌋ * 10 ^ 9 : ℤ) : ℚ) := by
      rw [Int.fract]
      push_cast
      ring
    rw [split]
    exact nearest.sub_even evenWhole
  have floor : (⌊value⌋₊ : ℤ) = ⌊value⌋ := Int.natCast_floor_eq_floor nonnegative
  rw [← floor] at moved
  obtain ⟨beyond, beyondEq⟩ :
      ∃ beyond : ℤ, beyond = span.nanoseconds - ⌊value⌋₊ * 10 ^ 9 := ⟨_, rfl⟩
  rw [← beyondEq] at moved
  obtain ⟨low, high⟩ := abs_le.mp moved.near
  have fractionLow := Int.fract_nonneg value
  have fractionHigh := Int.fract_lt_one value
  have atLeast : -1 < beyond := by
    have : (-1 : ℚ) < beyond := by linarith
    exact_mod_cast this
  have atMost : beyond < 10 ^ 9 + 1 := by
    have : (beyond : ℚ) < 10 ^ 9 + 1 := by linarith
    exact_mod_cast this
  obtain ⟨part, rfl⟩ := Int.eq_ofNat_of_zero_le (show 0 ≤ beyond by omega)
  refine ⟨part, moved, by omega, ?_, ?_⟩
  · rw [seconds, nanosecondsPerSecond]
    omega
  · rw [remainder, nanosecondsPerSecond]
    omega

/-- The factors of a pause have no minus sign. -/
theorem isUnsigned_toSeconds (span : Span) : IsUnsigned span.toSeconds.toModel.unpack := by
  have fraction : IsUnsigned ((UInt64.ofNat span.remainder).toFloat /
      (UInt64.ofNat nanosecondsPerSecond).toFloat).toModel.unpack :=
    Binary64.isUnsigned_unpack_pack
      ((Binary64.isUnsigned_toFloat _).div (Binary64.isUnsigned_toFloat _))
  exact Binary64.isUnsigned_unpack_pack ((Binary64.isUnsigned_toFloat _).add fraction)

theorem isUnsigned_product (unit : Span) {units : Float} (positive : 0 < units) :
    IsUnsigned (unit.toSeconds * units).toModel.unpack :=
  Binary64.isUnsigned_unpack_pack
    (unit.isUnsigned_toSeconds.mul (Binary64.isUnsigned_of_pos positive))

theorem seconds_lt (span : Span) : span.seconds < 2 ^ 64 :=
  (Nat.div_lt_iff_lt_mul (by decide)).mpr span.bounded

theorem pauseFor_of_not_pos {duration : Option Float} (unit : Span)
    (timeless : ∀ units, duration = some units → units.isNaN = true ∨ ¬ 0 < units) :
    pauseFor duration unit = zero := by
  cases duration with
  | none => rfl
  | some units =>
      have isTimeless : units.isNaN = true ∨ units ≤ 0 := by
        rcases timeless units rfl with isNaN | notAbove
        · exact Or.inl isNaN
        · rw [Binary64.zero_lt_iff] at notAbove
          by_contra neither
          simp only [not_or, Bool.not_eq_true] at neither
          exact notAbove neither
      rw [pauseFor, if_pos]
      simpa using isTimeless

theorem pauseFor_of_pos (unit : Span) {units : Float} (positive : 0 < units) :
    pauseFor (some units) unit = ofSecondsOrLongest (unit.toSeconds * units) := by
  obtain ⟨isNumber, above⟩ := (Binary64.zero_lt_iff units).mp positive
  have takesTime : (units.isNaN || decide (units ≤ 0)) = false := by
    rw [isNumber, decide_eq_false above]
    rfl
  simp only [pauseFor, Option.getD_some, takesTime, Bool.false_eq_true, if_false]

/-- A pause has less than a second of nanoseconds beyond its seconds, and these fit 64 bits.  It
takes no time where no duration is given, or one that is no number or not above zero.  Otherwise it
is the exact value of the product of unit and duration, a double of seconds, rounded to nanoseconds:
the nearest whole number of them, and the even one of two.  The fraction of a second may be rounded
up to a whole one, which is carried, and there is always room for it.  A product that is not finite
or does not fit 64 bits makes the longest pause. -/
theorem pause_is_rounded_product (duration : Option Float) (unit : Span) :
    let pause := pauseFor duration unit
    (pause.remainder < 10 ^ 9 ∧ pause.seconds < 2 ^ 64) ∧
      ((∀ units, duration = some units → units.isNaN = true ∨ ¬ 0 < units) → pause = zero) ∧
      ∀ units, duration = some units → 0 < units →
        let product := unit.toSeconds * units
        let value := toRat product
        (product.isFinite = true ∧ value < 2 ^ 64 →
          (∀ count : ℤ, IsNearestEven (value * 10 ^ 9) count ↔ count = pause.nanoseconds) ∧
          ∃ part : Nat, IsNearestEven (Int.fract value * 10 ^ 9) part ∧ part ≤ 10 ^ 9 ∧
            ⌊value⌋₊ + part / 10 ^ 9 < 2 ^ 64 ∧ pause.seconds = ⌊value⌋₊ + part / 10 ^ 9 ∧
            pause.remainder = part % 10 ^ 9) ∧
        (¬ (product.isFinite = true ∧ value < 2 ^ 64) → pause = longest) := by
  intro pause
  refine ⟨⟨Nat.mod_lt _ (by decide), pause.seconds_lt⟩, pauseFor_of_not_pos unit, ?_⟩
  rintro units rfl positive product value
  have unsigned : IsUnsigned product.toModel.unpack := unit.isUnsigned_product positive
  have pauseEq : pause = ofSecondsOrLongest product := pauseFor_of_pos unit positive
  constructor
  · rintro ⟨finite, below⟩
    obtain ⟨span, converted, nearest⟩ := ofSeconds?_of_lt finite unsigned below
    obtain rfl : pause = span := by
      rw [pauseEq, ofSecondsOrLongest, converted, Option.getD_some]
    have nonnegative : 0 ≤ value := by
      rw [show value = _ from Binary64.toRat_eq_units finite unsigned]
      positivity
    obtain ⟨part, rounded, atMost, secondsEq, remainderEq⟩ := exists_carry nonnegative nearest
    refine ⟨fun count => ⟨fun other => other.unique nearest, fun same => same ▸ nearest⟩,
      part, rounded, atMost, ?_, secondsEq, remainderEq⟩
    rw [← secondsEq]
    exact pause.seconds_lt
  · intro beyond
    rw [pauseEq, ofSecondsOrLongest, ofSeconds?_of_not_lt unsigned beyond, Option.getD_none]

def second : Span := ⟨nanosecondsPerSecond, by decide⟩

-- Half a nanosecond beyond an even number of them.
example : (pauseFor (some 0.0009765625) second).nanoseconds = 976562 := by decide +kernel

/-- A pause of little less than a second is rounded up to the second. -/
theorem almost_a_second_is_carried :
    let product := second.toSeconds * 0.99999999999
    0 < (0.99999999999 : Float) ∧ product.isFinite = true ∧ toRat product < 1 ∧
      IsNearestEven (toRat product * 10 ^ 9) 1000000000 ∧
      (pauseFor (some 0.99999999999) second).seconds = 1 := by
  intro product
  have positive : 0 < (0.99999999999 : Float) := by decide +kernel
  have finite : product.isFinite = true := by decide +kernel
  have below : toRat product < (1 : Nat) :=
    (Binary64.toRat_lt_iff finite (second.isUnsigned_product positive) 1).mpr (by decide +kernel)
  rw [Nat.cast_one] at below
  obtain ⟨-, -, rounded⟩ := pause_is_rounded_product (some 0.99999999999) second
  obtain ⟨nearest, -⟩ := (rounded _ rfl positive).1 ⟨finite, below.trans (by norm_num)⟩
  have carried : (pauseFor (some 0.99999999999) second).nanoseconds = 1000000000 := by
    decide +kernel
  refine ⟨positive, finite, below, (nearest 1000000000).mpr (by rw [carried]; rfl), ?_⟩
  rw [seconds, carried]
  rfl

end Span

end BlockStage
