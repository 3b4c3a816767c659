import BlockStage.Number.Binary64
import Mathlib.Order.Monotone.Basic
import Mathlib.Tactic.Linarith
import Mathlib.Tactic.Ring

/-!
# Rounding to the nearest double

A fraction of units is rounded to the index whose magnitude is nearest, and to
the even one of two that are equally near.  That an index is the rounded one can
be said without rounding: the fraction lies between the midpoints to the two
neighbouring magnitudes, and on a midpoint only if the index is even.  The
reaches of different indices never overlap, so this determines the index.
Everything else about reading and printing numbers uses only this law.
-/

namespace BlockStage

/-- Rounding to a whole number errs by at most a half, and by exactly a half only
towards an even number. -/
theorem roundHalfEven_spec (numerator : Nat) {denominator : Nat} (positive : 0 < denominator) :
    let rounded := roundHalfEven numerator denominator
    2 * numerator ≤ (2 * rounded + 1) * denominator ∧
      2 * rounded * denominator ≤ 2 * numerator + denominator ∧
      (2 * numerator = (2 * rounded + 1) * denominator → rounded % 2 = 0) ∧
      (2 * rounded * denominator = 2 * numerator + denominator → rounded % 2 = 0) := by
  have parts := Nat.div_add_mod numerator denominator
  have small := Nat.mod_lt numerator positive
  simp only [roundHalfEven]
  generalize numerator / denominator = quotient at parts ⊢
  generalize numerator % denominator = rest at parts small ⊢
  have up : 2 * (quotient + 1) * denominator = 2 * (denominator * quotient) + 2 * denominator := by
    ring
  have upper : (2 * (quotient + 1) + 1) * denominator =
      2 * (denominator * quotient) + 3 * denominator := by ring
  have down : 2 * quotient * denominator = 2 * (denominator * quotient) := by ring
  have lower : (2 * quotient + 1) * denominator = 2 * (denominator * quotient) + denominator := by
    ring
  generalize denominator * quotient = whole at *
  split
  · refine ⟨?_, ?_, ?_, ?_⟩ <;> omega
  · split
    · refine ⟨?_, ?_, ?_, ?_⟩ <;> omega
    · split
      · refine ⟨?_, ?_, ?_, ?_⟩ <;> omega
      · refine ⟨?_, ?_, ?_, ?_⟩ <;> omega

namespace Binary64

/-! ### The magnitudes on a grid -/

/-- An index as a number of binades to skip and a multiple of the step there.
Multiples up to and including the first one of the next binade are allowed; below
the first skipped binade there is no smallest multiple. -/
def OnGrid (shift multiple : Nat) : Prop :=
  multiple ≤ 2 * binade ∧ (shift = 0 ∨ binade ≤ multiple)

theorem units_of_onGrid {shift multiple : Nat} (onGrid : OnGrid shift multiple) :
    units (shift * binade + multiple) = multiple * 2 ^ shift := by
  obtain ⟨high, low⟩ := onGrid
  have positive : 0 < binade := by decide
  by_cases small : multiple < binade
  · obtain rfl : shift = 0 := by omega
    simp only [units, Nat.zero_mul, Nat.zero_add, small, if_true, Nat.pow_zero, Nat.mul_one]
  · obtain ⟨rest, rfl⟩ : ∃ rest, multiple = binade + rest :=
      ⟨multiple - binade, by omega⟩
    have large : ¬ shift * binade + (binade + rest) < binade := by
      have := Nat.zero_le (shift * binade)
      omega
    by_cases inside : rest < binade
    · have place : (shift * binade + (binade + rest)) / binade = shift + 1 := by
        rw [show shift * binade + (binade + rest) = rest + binade * (shift + 1) by ring,
          Nat.add_mul_div_left _ _ positive, Nat.div_eq_of_lt inside]
        omega
      have offset : (shift * binade + (binade + rest)) % binade = rest := by
        rw [show shift * binade + (binade + rest) = rest + binade * (shift + 1) by ring,
          Nat.add_mul_mod_self_left, Nat.mod_eq_of_lt inside]
      simp only [units, large, if_false, place, offset, Nat.shiftLeft_eq, Nat.add_sub_cancel]
    · -- The multiple is the first one of the next binade.
      obtain rfl : rest = binade := by omega
      have place : (shift * binade + (binade + binade)) / binade = shift + 2 := by
        rw [show shift * binade + (binade + binade) = binade * (shift + 2) by ring,
          Nat.mul_div_cancel_left _ positive]
      have offset : (shift * binade + (binade + binade)) % binade = 0 := by
        rw [show shift * binade + (binade + binade) = binade * (shift + 2) by ring,
          Nat.mul_mod_right]
      simp only [units, large, if_false, place, offset, Nat.shiftLeft_eq, Nat.add_zero]
      rw [show shift + 2 - 1 = shift + 1 by omega, Nat.pow_succ]
      ring

theorem exists_onGrid (index : Nat) :
    ∃ shift multiple, index = shift * binade + multiple ∧ multiple < 2 * binade ∧
      OnGrid shift multiple := by
  have positive : 0 < binade := by decide
  have parts := Nat.div_add_mod index binade
  have small := Nat.mod_lt index positive
  by_cases low : index < binade
  · exact ⟨0, index, by omega, by omega, by omega, Or.inl rfl⟩
  · have skipped : 1 ≤ index / binade := (Nat.one_le_div_iff positive).mpr (by omega)
    obtain ⟨shift, place⟩ : ∃ shift, index / binade = shift + 1 :=
      ⟨index / binade - 1, by omega⟩
    refine ⟨shift, binade + index % binade, ?_, by omega, by omega, Or.inr (by omega)⟩
    rw [place] at parts
    calc
      index = binade * (shift + 1) + index % binade := parts.symm
      _ = shift * binade + (binade + index % binade) := by ring

theorem units_succ {shift multiple : Nat} (small : multiple < 2 * binade)
    (onGrid : OnGrid shift multiple) :
    units (shift * binade + multiple + 1) = (multiple + 1) * 2 ^ shift := by
  have next : OnGrid shift (multiple + 1) := by
    obtain ⟨high, low⟩ := onGrid
    exact ⟨by omega, by omega⟩
  rw [Nat.add_assoc, units_of_onGrid next]

/-- Also the first multiple of the next binade is followed by no smaller a step. -/
theorem le_units_succ {shift multiple : Nat} (onGrid : OnGrid shift multiple) :
    (multiple + 1) * 2 ^ shift ≤ units (shift * binade + multiple + 1) := by
  by_cases small : multiple < 2 * binade
  · rw [units_succ small onGrid]
  · obtain rfl : multiple = 2 * binade := by
      obtain ⟨high, -⟩ := onGrid
      omega
    have next : OnGrid (shift + 1) binade := ⟨by decide, Or.inr (Nat.le_refl _)⟩
    rw [show shift * binade + 2 * binade + 1 = (shift + 1) * binade + binade + 1 by ring,
      units_succ (by decide) next, Nat.pow_succ]
    calc
      (2 * binade + 1) * 2 ^ shift ≤ (2 * binade + 2) * 2 ^ shift :=
        Nat.mul_le_mul_right _ (by omega)
      _ = (binade + 1) * (2 ^ shift * 2) := by ring

theorem units_strictMono : StrictMono units := by
  apply strictMono_nat_of_lt_succ
  intro index
  obtain ⟨shift, multiple, rfl, small, onGrid⟩ := exists_onGrid index
  rw [units_of_onGrid onGrid, units_succ small onGrid]
  exact Nat.mul_lt_mul_of_pos_right (Nat.lt_succ_self _) (Nat.two_pow_pos shift)

/-! ### The reach of an index -/

/-- A fraction of units lies between the midpoints from an index to its two
neighbours, and on a midpoint only if the index is even. -/
structure InReach (numerator denominator index : Nat) : Prop where
  lower : (units (index - 1) + units index) * denominator ≤ 2 * numerator
  upper : 2 * numerator ≤ (units index + units (index + 1)) * denominator
  even_of_lower : 2 * numerator = (units (index - 1) + units index) * denominator →
    index % 2 = 0
  even_of_upper : 2 * numerator = (units index + units (index + 1)) * denominator →
    index % 2 = 0

namespace InReach

variable {numerator denominator index : Nat}

/-- Only the value of a fraction decides whether it is in reach. -/
theorem of_same_value {numerator' denominator' : Nat} (positive : 0 < denominator)
    (positive' : 0 < denominator') (same : numerator * denominator' = numerator' * denominator)
    (reach : InReach numerator denominator index) : InReach numerator' denominator' index := by
  -- A bound for one fraction, multiplied by the other denominator, is one for the other.
  have scaled (bound : Nat) :
      denominator * (2 * numerator') = denominator' * (2 * numerator) ∧
        denominator * (bound * denominator') = denominator' * (bound * denominator) := by
    constructor
    · calc
        denominator * (2 * numerator') = 2 * (numerator' * denominator) := by ring
        _ = 2 * (numerator * denominator') := by rw [same]
        _ = denominator' * (2 * numerator) := by ring
    · ring
  have transferEq {bound : Nat} (equal : 2 * numerator' = bound * denominator') :
      2 * numerator = bound * denominator := by
    obtain ⟨left, right⟩ := scaled bound
    apply Nat.eq_of_mul_eq_mul_left positive'
    rw [← left, equal, right]
  refine ⟨?_, ?_, fun equal => reach.even_of_lower (transferEq equal),
    fun equal => reach.even_of_upper (transferEq equal)⟩
  · obtain ⟨left, right⟩ := scaled (units (index - 1) + units index)
    apply Nat.le_of_mul_le_mul_left _ positive
    rw [left, right]
    exact Nat.mul_le_mul_left denominator' reach.lower
  · obtain ⟨left, right⟩ := scaled (units index + units (index + 1))
    apply Nat.le_of_mul_le_mul_left _ positive
    rw [left, right]
    exact Nat.mul_le_mul_left denominator' reach.upper

/-- A fraction in reach of an index is not in reach of a larger one. -/
theorem not_lt {other : Nat} (positive : 0 < denominator)
    (reach : InReach numerator denominator index)
    (reachOther : InReach numerator denominator other) : ¬ index < other := by
  intro less
  have stepLow : units index ≤ units (other - 1) := units_strictMono.monotone (by omega)
  have stepHigh : units (index + 1) ≤ units other := units_strictMono.monotone (by omega)
  have touching : (units index + units (index + 1)) * denominator ≤
      (units (other - 1) + units other) * denominator :=
    Nat.mul_le_mul_right _ (by omega)
  -- Both reaches end in the one midpoint between two neighbours, so both are even.
  have above := reach.upper
  have below := reachOther.lower
  have even := reach.even_of_upper (by omega)
  have evenOther := reachOther.even_of_lower (by omega)
  have sameSum : units index + units (index + 1) = units (other - 1) + units other :=
    Nat.eq_of_mul_eq_mul_right positive (by omega)
  have sameUnits : units (index + 1) = units other := by omega
  have neighbours := units_strictMono.injective sameUnits
  omega

theorem unique {other : Nat} (positive : 0 < denominator)
    (reach : InReach numerator denominator index)
    (reachOther : InReach numerator denominator other) : index = other :=
  Nat.le_antisymm (Nat.not_lt.mp (reachOther.not_lt positive reach))
    (Nat.not_lt.mp (reach.not_lt positive reachOther))

end InReach

/-! ### Rounding finds the index in whose reach a fraction lies -/

/-- How many binades the rounding of a fraction skips. -/
def shiftOf (numerator denominator : Nat) : Nat := (numerator / denominator).log2 - 52

section Rounding

variable (numerator : Nat) {denominator : Nat}

theorem step_eq (denominator shift : Nat) :
    2 ^ (shift + 52) * denominator = binade * (denominator <<< shift) := by
  rw [Nat.shiftLeft_eq, Nat.pow_add, show binade = 2 ^ 52 by decide]
  ring

theorem shiftLeft_pos (positive : 0 < denominator) (shift : Nat) : 0 < denominator <<< shift := by
  rw [Nat.shiftLeft_eq]
  exact Nat.mul_pos positive (Nat.two_pow_pos shift)

/-- A fraction lies below the binade after the one its shift belongs to. -/
theorem lt_of_shiftOf (positive : 0 < denominator) :
    numerator < 2 * binade * (denominator <<< shiftOf numerator denominator) := by
  have short : numerator / denominator < 2 ^ (shiftOf numerator denominator + 53) := by
    by_cases zero : numerator / denominator = 0
    · rw [zero]
      exact Nat.two_pow_pos _
    · refine (Nat.log2_lt zero).mp ?_
      unfold shiftOf
      omega
  have bound := (Nat.div_lt_iff_lt_mul positive).mp short
  have next := step_eq denominator (shiftOf numerator denominator)
  calc
    numerator < 2 ^ (shiftOf numerator denominator + 53) * denominator := bound
    _ = 2 * (2 ^ (shiftOf numerator denominator + 52) * denominator) := by ring
    _ = 2 * binade * (denominator <<< shiftOf numerator denominator) := by
      rw [next]
      ring

/-- A fraction whose rounding is shifted lies in the binade of its shift. -/
theorem le_of_shiftOf (positive : 0 < denominator)
    (shifted : shiftOf numerator denominator ≠ 0) :
    binade * (denominator <<< shiftOf numerator denominator) ≤ numerator := by
  have nonzero : numerator / denominator ≠ 0 := by
    intro zero
    simp [shiftOf, zero] at shifted
  have length : (numerator / denominator).log2 = shiftOf numerator denominator + 52 := by
    unfold shiftOf at shifted ⊢
    omega
  have power := Nat.log2_self_le nonzero
  rw [length] at power
  rw [← step_eq]
  exact (Nat.le_div_iff_mul_le positive).mp power

/-- The rounded multiple is on the grid of the shift. -/
theorem onGrid_roundHalfEven (positive : 0 < denominator) :
    OnGrid (shiftOf numerator denominator)
      (roundHalfEven numerator (denominator <<< shiftOf numerator denominator)) := by
  have high := lt_of_shiftOf numerator positive
  have low := le_of_shiftOf numerator positive
  have stepPositive := shiftLeft_pos positive (shiftOf numerator denominator)
  obtain ⟨above, below, -, -⟩ := roundHalfEven_spec numerator stepPositive
  generalize shiftOf numerator denominator = shift at *
  generalize denominator <<< shift = step at *
  generalize roundHalfEven numerator step = multiple at *
  constructor
  · by_contra tooLarge
    have large : 2 * (2 * binade + 1) * step ≤ 2 * multiple * step :=
      Nat.mul_le_mul_right step (by omega)
    have expand : 2 * (2 * binade + 1) * step = 2 * (2 * binade * step) + 2 * step := by ring
    omega
  · by_cases unshifted : shift = 0
    · exact Or.inl unshifted
    · right
      by_contra tooSmall
      have reached := low unshifted
      have small : (2 * multiple + 1) * step + step ≤ 2 * (binade * step) := by
        calc
          (2 * multiple + 1) * step + step = 2 * (multiple + 1) * step := by ring
          _ ≤ 2 * binade * step := Nat.mul_le_mul_right step (by omega)
          _ = 2 * (binade * step) := by ring
      omega

/-- A multiple's upper midpoint is at least half a step above it, so a fraction
that is rounded to the multiple does not lie beyond the midpoint. -/
theorem upper_reach {shift multiple : Nat} (onGrid : OnGrid shift multiple)
    (above : 2 * numerator ≤ (2 * multiple + 1) * (denominator * 2 ^ shift))
    (even : 2 * numerator = (2 * multiple + 1) * (denominator * 2 ^ shift) → multiple % 2 = 0) :
    let index := shift * binade + multiple
    2 * numerator ≤ (units index + units (index + 1)) * denominator ∧
      (2 * numerator = (units index + units (index + 1)) * denominator → multiple % 2 = 0) := by
  intro index
  have midpoint : (2 * multiple + 1) * (denominator * 2 ^ shift) ≤
      (units index + units (index + 1)) * denominator := by
    calc
      (2 * multiple + 1) * (denominator * 2 ^ shift)
          = (multiple * 2 ^ shift + (multiple + 1) * 2 ^ shift) * denominator := by ring
      _ ≤ (units index + units (index + 1)) * denominator := by
        rw [units_of_onGrid onGrid]
        exact Nat.mul_le_mul_right _ (Nat.add_le_add_left (le_units_succ onGrid) _)
  refine ⟨Nat.le_trans above midpoint, ?_⟩
  intro equal
  exact even (by omega)

/-- A fraction that is rounded to a multiple does not lie below the multiple's
lower midpoint.  Below the first multiple of a binade the step is only half as
long, but there the fraction is not below the multiple itself. -/
theorem lower_reach {shift multiple : Nat} (onGrid : OnGrid shift multiple)
    (reached : shift ≠ 0 → binade * (denominator * 2 ^ shift) ≤ numerator)
    (below : 2 * multiple * (denominator * 2 ^ shift) ≤ 2 * numerator + denominator * 2 ^ shift)
    (even : 2 * multiple * (denominator * 2 ^ shift) = 2 * numerator + denominator * 2 ^ shift →
      multiple % 2 = 0) :
    let index := shift * binade + multiple
    (units (index - 1) + units index) * denominator ≤ 2 * numerator ∧
      (2 * numerator = (units (index - 1) + units index) * denominator → multiple % 2 = 0) := by
  intro index
  have here : units index = multiple * 2 ^ shift := units_of_onGrid onGrid
  by_cases first : shift ≠ 0 ∧ multiple = binade
  · obtain ⟨shifted, rfl⟩ := first
    have before : units (index - 1) ≤ units index := units_strictMono.monotone (Nat.sub_le _ _)
    refine ⟨?_, fun _ => by decide⟩
    calc
      (units (index - 1) + units index) * denominator
          ≤ (units index + units index) * denominator := Nat.mul_le_mul_right _ (by omega)
      _ = 2 * (binade * (denominator * 2 ^ shift)) := by
        rw [here]
        ring
      _ ≤ 2 * numerator := Nat.mul_le_mul_left 2 (reached shifted)
  · cases multiple with
    | zero =>
        obtain rfl : shift = 0 := by
          obtain ⟨-, low⟩ := onGrid
          simp only [binade] at low
          omega
        have zero : units 0 = 0 := by decide
        refine ⟨?_, fun _ => rfl⟩
        simp [index, zero]
    | succ smaller =>
        have onGridBefore : OnGrid shift smaller := by
          obtain ⟨high, low⟩ := onGrid
          exact ⟨by omega, by omega⟩
        have before : units (index - 1) = smaller * 2 ^ shift := by
          rw [show index - 1 = shift * binade + smaller by omega, units_of_onGrid onGridBefore]
        have midpoint : (units (index - 1) + units index) * denominator + denominator * 2 ^ shift =
            2 * (smaller + 1) * (denominator * 2 ^ shift) := by
          rw [here, before]
          ring
        refine ⟨by omega, ?_⟩
        intro equal
        exact even (by omega)

/-- Rounding gives an index in whose reach the fraction lies. -/
theorem inReach_nearestIndex (positive : 0 < denominator) :
    InReach numerator denominator (nearestIndex numerator denominator) := by
  have onGrid := onGrid_roundHalfEven numerator positive
  have reached := le_of_shiftOf numerator positive
  obtain ⟨above, below, evenAbove, evenBelow⟩ :=
    roundHalfEven_spec numerator (shiftLeft_pos positive (shiftOf numerator denominator))
  have indexEq : nearestIndex numerator denominator = shiftOf numerator denominator * binade +
      roundHalfEven numerator (denominator <<< shiftOf numerator denominator) := rfl
  rw [indexEq]
  generalize roundHalfEven numerator (denominator <<< shiftOf numerator denominator) =
    multiple at *
  rw [Nat.shiftLeft_eq] at reached above below evenAbove evenBelow
  generalize shiftOf numerator denominator = shift at *
  have parity : (shift * binade + multiple) % 2 = multiple % 2 := by
    simp only [binade]
    omega
  obtain ⟨upper, evenUpper⟩ := upper_reach numerator onGrid above evenAbove
  obtain ⟨lower, evenLower⟩ := lower_reach numerator onGrid reached below evenBelow
  refine ⟨lower, upper, ?_, ?_⟩
  · rw [parity]
    exact evenLower
  · rw [parity]
    exact evenUpper

/-- A fraction is rounded to the index in whose reach it lies. -/
theorem nearestIndex_eq_of_inReach {numerator index : Nat} (positive : 0 < denominator)
    (reach : InReach numerator denominator index) : nearestIndex numerator denominator = index :=
  (inReach_nearestIndex numerator positive).unique positive reach

end Rounding

end Binary64

end BlockStage
