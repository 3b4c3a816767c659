import BlockStage.Number.Decimal
import BlockStage.Proofs.Binary64Rounding
import Mathlib.Tactic.NormNum

/-!
# Shortest decimals read back

The numeral that is printed for a double lies in the reach of its index, so
reading it gives the double back.  The search for it visits twenty grids, each
ten times finer than the one before.  On the last of them the step is smaller
than the distance from the magnitude to its upper midpoint, so the search always
succeeds; this rests on the estimate of the coarsest grid by a multiple of the
number of bits, and on powers of two and ten that are close to each other.
-/

namespace BlockStage

namespace Decimal

open Binary64 (units InReach units_strictMono)

/-! ### Reading a decimal -/

/-- Reading `digits * 10 ^ exponent` gives the double at an index. -/
def ReadsBack (digits : Nat) (exponent : Int) (index : Nat) : Prop :=
  InReach (unitFraction digits exponent).1 (unitFraction digits exponent).2 index

theorem tenTo_zero : tenTo 0 = 1 := rfl

theorem tenTo_pos (exponent : Nat) : 0 < tenTo exponent := Nat.pow_pos (by decide)

theorem tenTo_add (first second : Nat) : tenTo (first + second) = tenTo first * tenTo second :=
  Nat.pow_add 10 first second

theorem tenTo_mono {first second : Nat} (le : first ≤ second) : tenTo first ≤ tenTo second :=
  Nat.pow_le_pow_right (by decide) le

/-- Within the exponents of doubles the index is found by rounding. -/
theorem toIndex_eq_of_readsBack {digits index : Nat} {exponent : Int} (nonzero : digits ≠ 0)
    (high : exponent ≤ 400) (low : -401 ≤ exponent) (reads : ReadsBack digits exponent index) :
    toIndex digits exponent = index := by
  have notHuge : ¬ 400 < exponent := by omega
  have notTiny : ¬ exponent < -(401 + (digits.log2 : Int)) := by omega
  simp only [toIndex, nonzero, notHuge, notTiny, if_false]
  exact Binary64.nearestIndex_eq_of_inReach (tenTo_pos _) reads

/-- More zeros behind the digits and a lower exponent make the same number. -/
theorem ReadsBack.scaled {digits index : Nat} {exponent : Int}
    (reads : ReadsBack digits exponent index) (zeros : Nat) :
    ReadsBack (digits * tenTo zeros) (exponent - zeros) index := by
  refine InReach.of_same_value (tenTo_pos _) (tenTo_pos _) ?_ reads
  have places : exponent.toNat + (-(exponent - zeros)).toNat =
      zeros + (exponent - zeros).toNat + (-exponent).toNat := by omega
  have powers : tenTo exponent.toNat * tenTo (-(exponent - zeros)).toNat =
      tenTo zeros * tenTo (exponent - zeros).toNat * tenTo (-exponent).toNat := by
    rw [← tenTo_add, ← tenTo_add, ← tenTo_add, places]
  simp only [unitFraction]
  calc
    digits * tenTo exponent.toNat * Binary64.unitsPerOne * tenTo (-(exponent - zeros)).toNat
        = digits * Binary64.unitsPerOne *
            (tenTo exponent.toNat * tenTo (-(exponent - zeros)).toNat) := by ring
    _ = digits * tenTo zeros * tenTo (exponent - zeros).toNat * Binary64.unitsPerOne *
          tenTo (-exponent).toNat := by
      rw [powers]
      ring

/-- A decimal that reads back to a magnitude above zero has a digit. -/
theorem ReadsBack.digits_pos {digits index : Nat} {exponent : Int}
    (reads : ReadsBack digits exponent index) (positive : 0 < index) : 0 < digits := by
  by_contra none
  obtain rfl : digits = 0 := by omega
  have lower := reads.lower
  have unitsPositive : 0 < units index := Nat.zero_lt_of_lt (units_strictMono positive)
  have product : 0 < (units (index - 1) + units index) * (unitFraction 0 exponent).2 :=
    Nat.mul_pos (by omega) (tenTo_pos _)
  simp only [unitFraction, Nat.zero_mul, Nat.mul_zero] at lower product
  omega

/-! ### The search on one grid -/

/-- Whether a multiple of a grid's step reads back. -/
def readsBackOn (index : Nat) (exponent : Int) (multiple : Nat) : Bool :=
  let step := 2 * Binary64.unitsPerOne * tenTo exponent.toNat
  let factor := tenTo (-exponent).toNat
  let low := (units (index - 1) + units index) * factor
  let high := (units index + units (index + 1)) * factor
  if index % 2 = 0 then decide (low ≤ multiple * step ∧ multiple * step ≤ high)
  else decide (low < multiple * step ∧ multiple * step < high)

theorem readsBack_of_readsBackOn {index multiple : Nat} {exponent : Int}
    (reads : readsBackOn index exponent multiple = true) : ReadsBack multiple exponent index := by
  have doubled : multiple * (2 * Binary64.unitsPerOne * tenTo exponent.toNat) =
      2 * (unitFraction multiple exponent).1 := by
    simp only [unitFraction]
    ring
  simp only [readsBackOn, doubled] at reads
  split at reads
  · rename_i even
    simp only [decide_eq_true_eq] at reads
    exact ⟨reads.1, reads.2, fun _ => even, fun _ => even⟩
  · simp only [decide_eq_true_eq] at reads
    exact ⟨Nat.le_of_lt reads.1, Nat.le_of_lt reads.2,
      fun equal => absurd equal (Nat.ne_of_gt reads.1),
      fun equal => absurd equal (Nat.ne_of_lt reads.2)⟩

/-- The search on a grid looks at the multiples next to the magnitude. -/
theorem onGrid?_eq (tie : Tie) (index : Nat) (exponent : Int) :
    onGrid? tie index exponent =
      let step := 2 * Binary64.unitsPerOne * tenTo exponent.toNat
      let center := 2 * units index * tenTo (-exponent).toNat
      let below := center / step
      if readsBackOn index exponent below then
        if readsBackOn index exponent (below + 1) then
          if 2 * center < (below + (below + 1)) * step then some below
          else if (below + (below + 1)) * step < 2 * center then some (below + 1)
          else
            match tie with
            | .toEven => if below % 2 = 0 then some below else some (below + 1)
            | .upward => some (below + 1)
        else some below
      else if readsBackOn index exponent (below + 1) then some (below + 1)
      else none :=
  rfl

theorem readsBack_of_onGrid? {tie : Tie} {index multiple : Nat} {exponent : Int}
    (found : onGrid? tie index exponent = some multiple) : ReadsBack multiple exponent index := by
  rw [onGrid?_eq] at found
  dsimp only at found
  generalize 2 * units index * tenTo (-exponent).toNat /
    (2 * Binary64.unitsPerOne * tenTo exponent.toNat) = below at found
  have either : multiple = below ∧ readsBackOn index exponent below = true ∨
      multiple = below + 1 ∧ readsBackOn index exponent (below + 1) = true := by
    split at found
    · rename_i lower
      split at found
      · rename_i upper
        split at found
        · exact Or.inl ⟨by simpa using found.symm, lower⟩
        · split at found
          · exact Or.inr ⟨by simpa using found.symm, upper⟩
          · cases tie with
            | toEven =>
                simp only at found
                split at found
                · exact Or.inl ⟨by simpa using found.symm, lower⟩
                · exact Or.inr ⟨by simpa using found.symm, upper⟩
            | upward => exact Or.inr ⟨by simpa using found.symm, upper⟩
      · exact Or.inl ⟨by simpa using found.symm, lower⟩
    · split at found
      · rename_i upper
        exact Or.inr ⟨by simpa using found.symm, upper⟩
      · cases found
  rcases either with ⟨rfl, reads⟩ | ⟨rfl, reads⟩
  · exact readsBack_of_readsBackOn reads
  · exact readsBack_of_readsBackOn reads

/-- On a grid whose step is below the step between doubles, the next multiple above
a magnitude reads back. -/
theorem readsBackOn_above {index : Nat} {exponent : Int}
    (fine : 2 * Binary64.unitsPerOne * tenTo exponent.toNat <
      (units (index + 1) - units index) * tenTo (-exponent).toNat) :
    readsBackOn index exponent
      (2 * units index * tenTo (-exponent).toNat /
        (2 * Binary64.unitsPerOne * tenTo exponent.toNat) + 1) = true := by
  unfold readsBackOn
  dsimp only
  have stepPositive : 0 < 2 * Binary64.unitsPerOne * tenTo exponent.toNat :=
    Nat.mul_pos (by decide) (tenTo_pos _)
  generalize 2 * Binary64.unitsPerOne * tenTo exponent.toNat = step at fine stepPositive ⊢
  generalize tenTo (-exponent).toNat = factor at fine ⊢
  have rising : units index < units (index + 1) := units_strictMono (Nat.lt_succ_self index)
  have falling : units (index - 1) ≤ units index := units_strictMono.monotone (Nat.sub_le _ _)
  have beyond : 2 * units index * factor < (2 * units index * factor / step + 1) * step := by
    rw [Nat.mul_comm _ step]
    exact Nat.lt_mul_div_succ _ stepPositive
  have near : 2 * units index * factor / step * step ≤ 2 * units index * factor :=
    Nat.div_mul_le_self _ _
  have low : (units (index - 1) + units index) * factor <
      (2 * units index * factor / step + 1) * step :=
    Nat.lt_of_le_of_lt (Nat.mul_le_mul_right _ (by omega)) beyond
  have high : (2 * units index * factor / step + 1) * step <
      (units index + units (index + 1)) * factor := by
    calc
      (2 * units index * factor / step + 1) * step
          = 2 * units index * factor / step * step + step := by ring
      _ < 2 * units index * factor + (units (index + 1) - units index) * factor := by omega
      _ = (units index + units (index + 1)) * factor := by
        rw [← Nat.add_mul]
        congr 1
        omega
  split
  · exact decide_eq_true ⟨Nat.le_of_lt low, Nat.le_of_lt high⟩
  · exact decide_eq_true ⟨low, high⟩

theorem isSome_onGrid? {tie : Tie} {index : Nat} {exponent : Int}
    (fine : 2 * Binary64.unitsPerOne * tenTo exponent.toNat <
      (units (index + 1) - units index) * tenTo (-exponent).toNat) :
    (onGrid? tie index exponent).isSome := by
  have above := readsBackOn_above fine
  rw [onGrid?_eq]
  dsimp only
  rw [if_pos above, if_pos above]
  cases tie <;> dsimp only <;> split_ifs <;> rfl

/-! ### The coarsest grid -/

/-- A power of two, kept folded where its exponent is large. -/
@[irreducible] def twoTo (exponent : Nat) : Nat := 2 ^ exponent

theorem twoTo_eq (exponent : Nat) : twoTo exponent = 2 ^ exponent := by rw [twoTo]

theorem twoTo_pos (exponent : Nat) : 0 < twoTo exponent := by
  rw [twoTo_eq]
  exact Nat.two_pow_pos exponent

theorem twoTo_add (first second : Nat) : twoTo (first + second) = twoTo first * twoTo second := by
  rw [twoTo_eq, twoTo_eq, twoTo_eq, Nat.pow_add]

theorem twoTo_mono {first second : Nat} (le : first ≤ second) : twoTo first ≤ twoTo second := by
  rw [twoTo_eq, twoTo_eq]
  exact Nat.pow_le_pow_right (by decide) le

theorem log2_lt_of_lt_twoTo {number exponent : Nat} (nonzero : number ≠ 0)
    (small : number < twoTo exponent) : number.log2 < exponent := by
  rw [twoTo_eq] at small
  exact (Nat.log2_lt nonzero).mpr small

/-- A power of ten is close below a power of two. -/
theorem tenTo_le_twoTo (exponent : Nat) :
    tenTo exponent ≤ twoTo (10 * (exponent / 3) + 4 * (exponent % 3)) := by
  calc
    tenTo exponent = (10 ^ 3) ^ (exponent / 3) * 10 ^ (exponent % 3) := by
      rw [← Nat.pow_mul, ← Nat.pow_add, Nat.div_add_mod]
      rfl
    _ ≤ (2 ^ 10) ^ (exponent / 3) * (2 ^ 4) ^ (exponent % 3) :=
      Nat.mul_le_mul (Nat.pow_le_pow_left (by decide) _) (Nat.pow_le_pow_left (by decide) _)
    _ = twoTo (10 * (exponent / 3) + 4 * (exponent % 3)) := by
      rw [twoTo_eq, ← Nat.pow_mul, ← Nat.pow_mul, ← Nat.pow_add]

/-- A power of ten is close above a power of two. -/
theorem twoTo_le_tenTo (exponent : Nat) :
    twoTo (93 * (exponent / 28) + 3 * (exponent % 28)) ≤ tenTo exponent := by
  calc
    twoTo (93 * (exponent / 28) + 3 * (exponent % 28))
        = (2 ^ 93) ^ (exponent / 28) * (2 ^ 3) ^ (exponent % 28) := by
      rw [twoTo_eq, ← Nat.pow_mul, ← Nat.pow_mul, ← Nat.pow_add]
    _ ≤ (10 ^ 28) ^ (exponent / 28) * 10 ^ (exponent % 28) :=
      Nat.mul_le_mul (Nat.pow_le_pow_left (by decide) _) (Nat.pow_le_pow_left (by decide) _)
    _ = tenTo exponent := by
      rw [← Nat.pow_mul, ← Nat.pow_add, Nat.div_add_mod]
      rfl

theorem two_mul_unitsPerOne : 2 * Binary64.unitsPerOne = twoTo 1075 := by decide +kernel

theorem units_infinityIndex : units Binary64.infinityIndex = twoTo 2098 := by decide +kernel

/-- The midpoint above a finite double, which is never zero. -/
theorem midpoint_bounds {index : Nat} (positive : 0 < index)
    (finite : index < Binary64.infinityIndex) :
    2 ≤ units index + units (index + 1) ∧
      units index + units (index + 1) < twoTo 2099 := by
  have first : units 0 < units index := units_strictMono positive
  have next : units index < units (index + 1) := units_strictMono (Nat.lt_succ_self index)
  have last : units (index + 1) ≤ twoTo 2098 := by
    rw [← units_infinityIndex]
    exact units_strictMono.monotone finite
  have double : twoTo 2099 = twoTo 2098 * twoTo 1 := twoTo_add 2098 1
  have two : twoTo 1 = 2 := twoTo_eq 1
  constructor
  · omega
  · rw [double, two]
    omega

/-- The number of bits of a midpoint, from which the coarsest grid is estimated. -/
def midpointBits (index : Nat) : Nat := (units index + units (index + 1)).log2

theorem midpointBits_lt {index : Nat} (positive : 0 < index)
    (finite : index < Binary64.infinityIndex) : midpointBits index < 2099 := by
  obtain ⟨low, high⟩ := midpoint_bounds positive finite
  exact log2_lt_of_lt_twoTo (by omega) high

theorem topExponent_eq (index : Nat) :
    topExponent index = ((midpointBits index : Int) - 1074) * 30103 / 100000 := rfl

/-- The step between doubles is at most `53` bits shorter than the midpoint. -/
theorem exists_step (index : Nat) :
    ∃ shift, units (index + 1) - units index = twoTo shift ∧
      midpointBits index ≤ shift + 53 := by
  obtain ⟨shift, multiple, rfl, small, onGrid⟩ := Binary64.exists_onGrid index
  refine ⟨shift, ?_, ?_⟩
  · rw [Binary64.units_of_onGrid onGrid, Binary64.units_succ small onGrid, Nat.add_mul,
      Nat.one_mul, Nat.add_sub_cancel_left, twoTo_eq]
  · have bound : units (shift * Binary64.binade + multiple) +
        units (shift * Binary64.binade + multiple + 1) < 2 ^ (54 + shift) := by
      rw [Binary64.units_of_onGrid onGrid, Binary64.units_succ small onGrid]
      have short : multiple + (multiple + 1) < 2 ^ 54 := by
        have width : 4 * Binary64.binade = 2 ^ 54 := by decide
        omega
      calc
        multiple * 2 ^ shift + (multiple + 1) * 2 ^ shift
            = (multiple + (multiple + 1)) * 2 ^ shift := by ring
        _ < 2 ^ 54 * 2 ^ shift := Nat.mul_lt_mul_of_pos_right short (Nat.two_pow_pos shift)
        _ = 2 ^ (54 + shift) := (Nat.pow_add ..).symm
    have positive : units (shift * Binary64.binade + multiple) +
        units (shift * Binary64.binade + multiple + 1) ≠ 0 := by
      have rising := units_strictMono (Nat.lt_succ_self (shift * Binary64.binade + multiple))
      simp only [Nat.succ_eq_add_one] at rising
      omega
    have bits : midpointBits (shift * Binary64.binade + multiple) < 54 + shift :=
      (Nat.log2_lt positive).mpr bound
    omega

/-- The twentieth grid below a coarsest one of at least one, against a step between
doubles. -/
theorem last_grid_fine_of_nonneg {shift bits : Nat} {top : Int} (sign : 0 ≤ top)
    (estimate : top = ((bits : Int) - 1074) * 30103 / 100000) (bounded : bits < 2099)
    (close : bits ≤ shift + 53) :
    twoTo 1075 * tenTo (top - 19).toNat < twoTo shift * tenTo (-(top - 19)).toNat := by
  have nineteen : twoTo 63 < tenTo 19 := by decide +kernel
  have exponents :
      1075 + (10 * (top.toNat / 3) + 4 * (top.toNat % 3)) ≤ shift + 63 := by
    omega
  have coarse : twoTo 1075 * tenTo top.toNat < twoTo shift * tenTo 19 := by
    calc
      twoTo 1075 * tenTo top.toNat
          ≤ twoTo 1075 * twoTo (10 * (top.toNat / 3) + 4 * (top.toNat % 3)) :=
        Nat.mul_le_mul_left _ (tenTo_le_twoTo _)
      _ = twoTo (1075 + (10 * (top.toNat / 3) + 4 * (top.toNat % 3))) := (twoTo_add ..).symm
      _ ≤ twoTo (shift + 63) := twoTo_mono exponents
      _ = twoTo shift * twoTo 63 := twoTo_add ..
      _ < twoTo shift * tenTo 19 := Nat.mul_lt_mul_of_pos_left nineteen (twoTo_pos _)
  -- Both sides are multiplied by the power of ten the twentieth grid is finer by.
  have places : (top - 19).toNat + 19 = top.toNat + (-(top - 19)).toNat := by omega
  have powers : tenTo (top - 19).toNat * tenTo 19 =
      tenTo top.toNat * tenTo (-(top - 19)).toNat := by
    rw [← tenTo_add, ← tenTo_add, places]
  refine Nat.lt_of_mul_lt_mul_right (a := tenTo 19) ?_
  calc
    twoTo 1075 * tenTo (top - 19).toNat * tenTo 19
        = twoTo 1075 * tenTo top.toNat * tenTo (-(top - 19)).toNat := by
      rw [Nat.mul_assoc, powers, Nat.mul_assoc]
    _ < twoTo shift * tenTo 19 * tenTo (-(top - 19)).toNat :=
      Nat.mul_lt_mul_of_pos_right coarse (tenTo_pos _)
    _ = twoTo shift * tenTo (-(top - 19)).toNat * tenTo 19 := Nat.mul_right_comm ..

/-- The same below a coarsest grid of less than one. -/
theorem last_grid_fine_of_neg {shift bits : Nat} {top : Int} (sign : top < 0)
    (estimate : top = ((bits : Int) - 1074) * 30103 / 100000) (close : bits ≤ shift + 53) :
    twoTo 1075 * tenTo (top - 19).toNat < twoTo shift * tenTo (-(top - 19)).toNat := by
  have nineteen : twoTo 63 < tenTo 19 := by decide +kernel
  have whole : (top - 19).toNat = 0 := by omega
  have places : (-(top - 19)).toNat = (-top).toNat + 19 := by omega
  have exponents :
      1075 ≤ shift + (93 * ((-top).toNat / 28) + 3 * ((-top).toNat % 28)) + 63 := by
    omega
  rw [whole, places, tenTo_add, ← Nat.mul_assoc]
  calc
    twoTo 1075 * tenTo 0 = twoTo 1075 := by rw [tenTo_zero, Nat.mul_one]
    _ ≤ twoTo (shift + (93 * ((-top).toNat / 28) + 3 * ((-top).toNat % 28)) + 63) :=
      twoTo_mono exponents
    _ = twoTo shift * twoTo (93 * ((-top).toNat / 28) + 3 * ((-top).toNat % 28)) *
          twoTo 63 := by
      rw [twoTo_add, twoTo_add]
    _ ≤ twoTo shift * tenTo (-top).toNat * twoTo 63 :=
      Nat.mul_le_mul_right _ (Nat.mul_le_mul_left _ (twoTo_le_tenTo _))
    _ < twoTo shift * tenTo (-top).toNat * tenTo 19 :=
      Nat.mul_lt_mul_of_pos_left nineteen (Nat.mul_pos (twoTo_pos _) (tenTo_pos _))

/-- The twentieth grid has a finer step than the doubles. -/
theorem last_grid_fine {index : Nat} (bounded : midpointBits index < 2099) :
    2 * Binary64.unitsPerOne * tenTo (topExponent index - 19).toNat <
      (units (index + 1) - units index) * tenTo (-(topExponent index - 19)).toNat := by
  obtain ⟨shift, step, close⟩ := exists_step index
  rw [two_mul_unitsPerOne, step]
  have estimate := topExponent_eq index
  by_cases sign : 0 ≤ topExponent index
  · exact last_grid_fine_of_nonneg sign estimate bounded close
  · exact last_grid_fine_of_neg (Int.not_le.mp sign) estimate close

/-! ### The printed numeral -/

/-- The digits of a numeral that reads back to a finite double are not many. -/
theorem ReadsBack.digits_lt {digits index : Nat} {exponent : Int} (positive : 0 < index)
    (finite : index < Binary64.infinityIndex) (low : -343 ≤ exponent)
    (reads : ReadsBack digits exponent index) : digits < tenTo 656 := by
  have upper := reads.upper
  simp only [unitFraction] at upper
  obtain ⟨-, high⟩ := midpoint_bounds positive finite
  have few : twoTo 1024 * tenTo 343 < tenTo 656 := by decide +kernel
  have fine : tenTo (-exponent).toNat ≤ tenTo 343 := tenTo_mono (by omega)
  have lengths : digits * twoTo 1075 ≤ twoTo 1024 * tenTo 343 * twoTo 1075 := by
    calc
      digits * twoTo 1075 = digits * 1 * (2 * Binary64.unitsPerOne) := by
        rw [two_mul_unitsPerOne, Nat.mul_one]
      _ ≤ digits * tenTo exponent.toNat * (2 * Binary64.unitsPerOne) :=
        Nat.mul_le_mul_right _ (Nat.mul_le_mul_left _ (tenTo_pos _))
      _ = 2 * (digits * tenTo exponent.toNat * Binary64.unitsPerOne) := by ring
      _ ≤ (units index + units (index + 1)) * tenTo (-exponent).toNat := upper
      _ ≤ twoTo (1024 + 1075) * tenTo 343 := Nat.mul_le_mul (Nat.le_of_lt high) fine
      _ = twoTo 1024 * tenTo 343 * twoTo 1075 := by
        rw [twoTo_add, Nat.mul_right_comm]
  exact Nat.lt_of_le_of_lt (Nat.le_of_mul_le_mul_right lengths (twoTo_pos _)) few

/-- The shortest numeral of a finite double above zero reads back to it. -/
theorem shortest_reads_back (tie : Tie) {index : Nat} (positive : 0 < index)
    (finite : index < Binary64.infinityIndex) :
    ∃ multiple exponent, shortest tie index = (multiple, exponent) ∧
      ReadsBack multiple exponent index ∧ -343 ≤ exponent ∧ exponent ≤ 308 := by
  have bounded := midpointBits_lt positive finite
  have estimate := topExponent_eq index
  let numeralAt := fun depth : Nat =>
    (onGrid? tie index (topExponent index - depth)).map fun multiple =>
      (multiple, topExponent index - (depth : Int))
  have definition : shortest tie index = ((List.range 20).findSome? numeralAt).getD
      (units index * Nat.pow 5 1074, -1074) := by
    simp only [shortest, Nat.ne_of_gt positive, if_false]
    rfl
  have last : (numeralAt 19).isSome := by
    rw [Option.isSome_map]
    exact isSome_onGrid? (last_grid_fine bounded)
  have someGrid : ((List.range 20).findSome? numeralAt).isSome :=
    List.findSome?_isSome_iff.mpr ⟨19, by simp, last⟩
  obtain ⟨numeral, found⟩ := Option.isSome_iff_exists.mp someGrid
  obtain ⟨depth, member, atDepth⟩ := List.exists_of_findSome?_eq_some found
  obtain ⟨multiple, onGrid, rfl⟩ := Option.map_eq_some_iff.mp atDepth
  have shallow : depth < 20 := List.mem_range.mp member
  refine ⟨multiple, topExponent index - depth, ?_, readsBack_of_onGrid? onGrid, ?_, ?_⟩
  · rw [definition, found, Option.getD_some]
  · omega
  · omega

/-- The digits and the exponent of a printed numeral are bounded, and only zero is
printed without a digit above zero. -/
theorem shortest_bounds (tie : Tie) {index : Nat} (finite : index < Binary64.infinityIndex) :
    (0 < (shortest tie index).1 ∨ (shortest tie index).2 = 0) ∧
      (shortest tie index).1 < tenTo 656 ∧
      -343 ≤ (shortest tie index).2 ∧ (shortest tie index).2 ≤ 308 := by
  by_cases zero : index = 0
  · subst zero
    have definition : shortest tie 0 = (0, 0) := rfl
    rw [definition]
    exact ⟨Or.inr rfl, tenTo_pos _, by decide, by decide⟩
  · have positive : 0 < index := Nat.pos_of_ne_zero zero
    obtain ⟨multiple, exponent, numeral, reads, low, high⟩ :=
      shortest_reads_back tie positive finite
    rw [numeral]
    exact ⟨Or.inl (reads.digits_pos positive), reads.digits_lt positive finite low, low, high⟩

/-- A printed numeral is read as the double it was printed for, also with zeros
behind its digits. -/
theorem toIndex_shortest (tie : Tie) {index zeros : Nat} (finite : index < Binary64.infinityIndex)
    (low : -401 ≤ (shortest tie index).2 - zeros) :
    toIndex ((shortest tie index).1 * tenTo zeros) ((shortest tie index).2 - zeros) = index := by
  by_cases zero : index = 0
  · subst zero
    have definition : shortest tie 0 = (0, 0) := rfl
    simp only [definition, Nat.zero_mul, toIndex, if_true]
  · have positive : 0 < index := Nat.pos_of_ne_zero zero
    obtain ⟨multiple, exponent, numeral, reads, -, high⟩ :=
      shortest_reads_back tie positive finite
    rw [numeral] at low ⊢
    have nonzero : multiple * tenTo zeros ≠ 0 :=
      Nat.ne_of_gt (Nat.mul_pos (reads.digits_pos positive) (tenTo_pos zeros))
    have small : exponent - zeros ≤ 400 := by omega
    exact toIndex_eq_of_readsBack nonzero small low (reads.scaled zeros)

end Decimal

end BlockStage
