import BlockStage.Proofs.FloatKinds

/-!
# The exact value of a double

A finite double stands for a rational number, a sign and a mantissa times a power of two.  Its
index leads to the same number, as so many units of `2 ^ -1074`.  A double whose sign bit is clear
keeps out of the negative numbers, and so do the results of arithmetic on such doubles, however
they are rounded.
-/

namespace BlockStage

namespace Binary64

open Float.Model (Format UnpackedFloat)
open Float.Model.UnpackedFloat

/-- The number that a finite double stands for.  Infinities and the double that is no number have
none, and zero takes its place. -/
def toRat (value : Float) : ℚ :=
  match value.toModel.unpack with
  | .finite sign mantissa exponent _ => sign.apply mantissa * 2 ^ exponent
  | _ => 0

/-! ### Values and units -/

theorem exists_unitsPerOne_eq : ∃ places, unitsPerOne = 2 ^ places := by
  have shifted (places : Nat) : ∃ other, 1 <<< places = 2 ^ other :=
    ⟨places, Nat.one_shiftLeft places⟩
  exact shifted _

theorem unitsPerOne_pos : 0 < unitsPerOne := by
  obtain ⟨places, one⟩ := exists_unitsPerOne_eq
  rw [one]
  exact Nat.two_pow_pos places

theorem index_of_unpack_zero {bits : BitVec Format.binary64.numBits} {sign : Sign}
    (unpacked : unpack Format.binary64 bits = .zero sign) : bits.toNat % signWeight = 0 := by
  have exponentEq := toNat_unpackExponent bits
  have mantissaEq := toNat_unpackMantissa bits
  unfold unpack at unpacked
  dsimp only at unpacked
  split at unpacked
  · split at unpacked <;> cases unpacked
  · split at unpacked
    · rename_i bottom
      split at unpacked
      · rename_i empty
        rw [bottom] at exponentEq
        rw [empty] at mantissaEq
        simp only [signWeight, BitVec.toNat_ofNat] at *
        omega
      · cases unpacked
    · cases unpacked

/-- The index of a finite double has as many units as the double's mantissa and exponent say. -/
theorem units_of_unpack_finite {bits : BitVec Format.binary64.numBits} {sign : Sign}
    {mantissa : Nat} {exponent : Int} {positive : 0 < mantissa}
    (unpacked : unpack Format.binary64 bits = .finite sign mantissa exponent positive) :
    ∃ shift : Nat, exponent = shift - 1074 ∧
      units (bits.toNat % signWeight) = mantissa * 2 ^ shift := by
  have bound := toNat_lt bits
  have exponentEq := toNat_unpackExponent bits
  have mantissaEq := toNat_unpackMantissa bits
  have implicit := toNat_implicitBit_append (unpackMantissa bits)
  unfold unpack at unpacked
  dsimp only at unpacked
  split at unpacked
  · split at unpacked <;> cases unpacked
  · split at unpacked
    · rename_i bottom
      split at unpacked
      · cases unpacked
      · cases unpacked
        rw [bottom] at exponentEq
        have small : bits.toNat % signWeight = (unpackMantissa bits).toNat := by
          simp only [signWeight, BitVec.toNat_ofNat] at *
          omega
        refine ⟨0, ?_, ?_⟩
        · rw [bottom]
          rfl
        · rw [small, units, if_pos (by simp only [binade]; omega), Nat.pow_zero, Nat.mul_one]
    · rename_i notTop notBottom
      have field : (unpackExponent bits).toNat ≠ 0 := fun isZero =>
        notBottom (BitVec.toNat_inj.mp isZero)
      cases unpacked
      refine ⟨(unpackExponent bits).toNat - 1, ?_, ?_⟩
      · change ((unpackExponent bits).toNat : Int) - (1023 + 52) = _
        omega
      · have place : bits.toNat % signWeight / binade = (unpackExponent bits).toNat := by
          simp only [signWeight, binade]
          omega
        have offset : bits.toNat % signWeight % binade = (unpackMantissa bits).toNat := by
          simp only [signWeight, binade]
          omega
        have large : ¬ bits.toNat % signWeight < binade := by
          simp only [signWeight, binade]
          omega
        rw [units, if_neg large, place, offset, implicit, Nat.shiftLeft_eq]
        rfl

/-! ### Doubles without a minus sign -/

/-- What is no number or has no minus sign. -/
def IsUnsigned : UnpackedFloat → Prop
  | .notANumber => True
  | .infinity sign => sign = .positive
  | .zero sign => sign = .positive
  | .finite sign _ _ _ => sign = .positive

theorem isUnsigned_unpack_packComponents (exponent : BitVec 11) (mantissa : BitVec 52) :
    IsUnsigned (unpack Format.binary64
      (packComponents Format.binary64 .positive exponent mantissa)) := by
  have signEq : Sign.ofBitVec (unpackSign
      (packComponents Format.binary64 .positive exponent mantissa)) = .positive := by
    have field : unpackSign (packComponents Format.binary64 .positive exponent mantissa) = 0#1 := by
      apply BitVec.eq_of_toNat_eq
      have mantissaLt := mantissa.isLt
      have exponentLt := exponent.isLt
      rw [toNat_unpackSign, toNat_packComponents]
      simp only [Sign.toBitVec, BitVec.toNat_ofNat]
      omega
    rw [field]
    rfl
  unfold unpack
  dsimp only
  rw [signEq]
  split
  · split
    · exact rfl
    · trivial
  · split
    · split <;> exact rfl
    · exact rfl

theorem isUnsigned_unpack_pack {value : UnpackedFloat} (unsigned : IsUnsigned value) :
    IsUnsigned (unpack Format.binary64 (pack Format.binary64 value)) := by
  cases value with
  | notANumber => exact isUnsigned_unpack_packComponents _ _
  | infinity sign =>
      cases unsigned
      exact isUnsigned_unpack_packComponents _ _
  | zero sign =>
      cases unsigned
      exact isUnsigned_unpack_packComponents _ _
  | finite sign mantissa exponent positive =>
      cases unsigned
      unfold pack
      dsimp only
      split
      · exact isUnsigned_unpack_packComponents _ _
      · split <;> exact isUnsigned_unpack_packComponents _ _

theorem isUnsigned_roundWithAccuracy (mantissa : Nat) (exponent : Int) (accuracy : Accuracy) :
    IsUnsigned (roundWithAccuracy Format.binary64 .positive mantissa exponent accuracy) := by
  unfold roundWithAccuracy
  dsimp only
  split <;> exact rfl

theorem isUnsigned_normalize {mantissa : Int} (nonnegative : 0 ≤ mantissa) (exponent : Int) :
    IsUnsigned (UnpackedFloat.normalize Format.binary64 mantissa exponent .positive) := by
  unfold UnpackedFloat.normalize
  split
  · rename_i negative
    rw [compare_lt_iff_lt] at negative
    omega
  · exact rfl
  · exact isUnsigned_roundWithAccuracy _ _ _

variable {first second : UnpackedFloat}

theorem IsUnsigned.mul (firstUnsigned : IsUnsigned first) (secondUnsigned : IsUnsigned second) :
    IsUnsigned (UnpackedFloat.mul Format.binary64 first second) := by
  cases first <;> cases second <;> cases firstUnsigned <;> cases secondUnsigned
  case finite.finite => exact isUnsigned_roundWithAccuracy _ _ _
  all_goals trivial

theorem IsUnsigned.div (firstUnsigned : IsUnsigned first) (secondUnsigned : IsUnsigned second) :
    IsUnsigned (UnpackedFloat.div Format.binary64 first second) := by
  cases first <;> cases second <;> cases firstUnsigned <;> cases secondUnsigned
  case finite.finite => exact isUnsigned_roundWithAccuracy _ _ _
  all_goals trivial

theorem IsUnsigned.add (firstUnsigned : IsUnsigned first) (secondUnsigned : IsUnsigned second) :
    IsUnsigned (UnpackedFloat.add Format.binary64 first second) := by
  cases first <;> cases second <;> cases firstUnsigned <;> cases secondUnsigned
  case finite.finite =>
    apply isUnsigned_normalize
    exact Int.add_nonneg (Int.natCast_nonneg _) (Int.natCast_nonneg _)
  all_goals trivial

theorem isUnsigned_toFloat (count : UInt64) : IsUnsigned count.toFloat.toModel.unpack :=
  isUnsigned_unpack_pack (isUnsigned_normalize (Int.natCast_nonneg _) 0)

/-! ### Comparison with zero -/

theorem IsUnsigned.not_lt_zero {value : Float} (unsigned : IsUnsigned value.toModel.unpack) :
    ¬ value < 0 := by
  intro negative
  have less : value.toModel.unpack.lt (.zero .positive) = true :=
    of_decide_eq_true (p := value.toModel < (0 : Float).toModel) negative
  cases unpacked : value.toModel.unpack with
  | notANumber => simp [unpacked, UnpackedFloat.lt, UnpackedFloat.compare] at less
  | zero sign => simp [unpacked, UnpackedFloat.lt, UnpackedFloat.compare] at less
  | infinity sign =>
      rw [unpacked] at unsigned less
      cases unsigned
      cases less
  | finite sign mantissa exponent positive =>
      rw [unpacked] at unsigned less
      cases unsigned
      cases less

theorem zero_lt_iff (value : Float) : 0 < value ↔ value.isNaN = false ∧ ¬ value ≤ 0 := by
  have less : 0 < value ↔ UnpackedFloat.lt (.zero .positive) value.toModel.unpack = true :=
    decide_eq_true_iff (p := (0 : Float).toModel < value.toModel)
  have atMost : value ≤ 0 ↔ value.toModel.unpack.le (.zero .positive) = true :=
    decide_eq_true_iff (p := value.toModel ≤ (0 : Float).toModel)
  have isNaN : value.isNaN = value.toModel.unpack.isNaN := rfl
  rw [less, atMost, isNaN]
  cases value.toModel.unpack with
  | notANumber => decide
  | zero sign => cases sign <;> decide
  | infinity sign => cases sign <;> decide
  | finite sign mantissa exponent positive =>
      cases sign
      · exact iff_of_false Bool.false_ne_true fun above => above.2 rfl
      · exact iff_of_true rfl ⟨rfl, Bool.false_ne_true⟩

theorem isUnsigned_of_pos {value : Float} (positive : 0 < value) :
    IsUnsigned value.toModel.unpack := by
  obtain ⟨isNumber, above⟩ := (zero_lt_iff value).mp positive
  obtain rfl | ⟨mantissa, exponent, nonzero, unpacked⟩ := above_zero_cases isNumber above
  · exact rfl
  · rw [unpacked]
    exact rfl

/-! ### The value behind an index -/

/-- The value of a double without a minus sign is the magnitude at its index. -/
theorem toRat_eq_units {value : Float} (finite : value.isFinite = true)
    (unsigned : IsUnsigned value.toModel.unpack) :
    toRat value = units (index value) / unitsPerOne := by
  have isFinite : value.toModel.unpack.isFinite = true := finite
  have weight : (unitsPerOne : ℚ) = 2 ^ 1074 := by
    simp only [unitsPerOne, Nat.one_shiftLeft, Nat.cast_pow, Nat.cast_ofNat]
  unfold toRat
  cases unpacked : value.toModel.unpack with
  | notANumber => simp [unpacked, UnpackedFloat.isFinite] at isFinite
  | infinity sign => simp [unpacked, UnpackedFloat.isFinite] at isFinite
  | zero sign =>
      have atZero : index value = 0 := index_of_unpack_zero unpacked
      simp [atZero, units, binade]
  | finite sign mantissa exponent positive =>
      obtain ⟨shift, rfl, magnitude⟩ := units_of_unpack_finite unpacked
      have atIndex : units (index value) = mantissa * 2 ^ shift := magnitude
      rw [unpacked] at unsigned
      cases unsigned
      dsimp only [Sign.apply]
      rw [atIndex, weight, zpow_sub₀ two_ne_zero, zpow_natCast, zpow_ofNat, Int.cast_natCast,
        Nat.cast_mul, Nat.cast_pow, Nat.cast_ofNat, mul_div_assoc]

theorem toRat_lt_iff {value : Float} (finite : value.isFinite = true)
    (unsigned : IsUnsigned value.toModel.unpack) (bound : Nat) :
    toRat value < bound ↔ units (index value) < bound * unitsPerOne := by
  have weight : (0 : ℚ) < unitsPerOne := by exact_mod_cast unitsPerOne_pos
  rw [toRat_eq_units finite unsigned, div_lt_iff₀ weight]
  exact_mod_cast Iff.rfl

end Binary64

end BlockStage
