import BlockStage.Number.Binary64
import Mathlib

/-!
# The bits of a double

A double is determined by its bit pattern, and the pattern by a sign bit and an
index into the ascending list of magnitudes.  The finite doubles are those whose
index lies below the index of infinity.  Numbers in texts are read and written
through sign and index alone, so this file is where their laws meet the doubles
themselves.
-/

namespace BlockStage

namespace Binary64

open Float.Model (Format)
open Float.Model.UnpackedFloat

/-! ### The fields of a pattern as numbers -/

theorem toNat_lt (bits : BitVec Format.binary64.numBits) : bits.toNat < 2 ^ 64 := bits.isLt

theorem toNat_unpackExponent (bits : BitVec Format.binary64.numBits) :
    (unpackExponent bits).toNat = bits.toNat / 2 ^ 52 % 2 ^ 11 := by
  simp [unpackExponent, Nat.shiftRight_eq_div_pow]

theorem toNat_unpackMantissa (bits : BitVec Format.binary64.numBits) :
    (unpackMantissa bits).toNat = bits.toNat % 2 ^ 52 := by
  simp [unpackMantissa]

theorem toNat_unpackSign (bits : BitVec Format.binary64.numBits) :
    (unpackSign bits).toNat = bits.toNat / 2 ^ 63 := by
  have bound := toNat_lt bits
  simp [unpackSign, Nat.shiftRight_eq_div_pow]
  omega

theorem toNat_packComponents (sign : Sign) (exponent : BitVec 11) (mantissa : BitVec 52) :
    (packComponents Format.binary64 sign exponent mantissa).toNat =
      (sign.toBitVec.toNat * 2 ^ 11 + exponent.toNat) * 2 ^ 52 + mantissa.toNat := by
  simp only [packComponents, BitVec.toNat_append]
  rw [← Nat.shiftLeft_add_eq_or_of_lt mantissa.isLt,
    ← Nat.shiftLeft_add_eq_or_of_lt exponent.isLt]
  simp only [Nat.shiftLeft_eq]

theorem toBitVec_ofBitVec (field : BitVec 1) : (Sign.ofBitVec field).toBitVec = field := by
  revert field
  decide

/-- A pattern is put together again from its own fields. -/
theorem packComponents_fields (bits : BitVec Format.binary64.numBits) (exponent : BitVec 11)
    (mantissa : BitVec 52) (sameExponent : exponent.toNat = bits.toNat / 2 ^ 52 % 2 ^ 11)
    (sameMantissa : mantissa.toNat = bits.toNat % 2 ^ 52) :
    packComponents Format.binary64 (Sign.ofBitVec (unpackSign bits)) exponent mantissa = bits := by
  have bound := toNat_lt bits
  apply BitVec.eq_of_toNat_eq
  rw [toNat_packComponents, toBitVec_ofBitVec, toNat_unpackSign, sameExponent, sameMantissa]
  omega

/-! ### Taking a pattern apart and putting it together -/

theorem exponent_eq_allOnes_iff (bits : BitVec Format.binary64.numBits) :
    unpackExponent bits = -1#_ ↔ bits.toNat / 2 ^ 52 % 2 ^ 11 = 2047 := by
  rw [← BitVec.toNat_inj, toNat_unpackExponent]
  rfl

theorem toNat_implicitBit_append (mantissa : BitVec 52) :
    (1#1 ++ mantissa).toNat = 2 ^ 52 + mantissa.toNat := by
  rw [BitVec.toNat_append, ← Nat.shiftLeft_add_eq_or_of_lt mantissa.isLt]
  rfl

/-- A magnitude below the implicit bit is packed with an empty exponent field. -/
theorem pack_subnormal (sign : Sign) (mantissa : Nat) (positive : 0 < mantissa)
    (small : mantissa < 2 ^ 52) :
    pack Format.binary64 (.finite sign mantissa (-1074) positive) =
      packComponents Format.binary64 sign 0#11 (BitVec.ofNat 52 mantissa) := by
  have short : mantissa.log2 < 52 := (Nat.log2_lt positive.ne').mpr small
  have subnormal : ¬ mantissa.log2 + 1 = Format.binary64.mantissaBits := by
    change ¬ mantissa.log2 + 1 = 53
    omega
  simp only [pack, if_neg subnormal]
  rfl

/-- A magnitude with the implicit bit is packed with the exponent field it came from. -/
theorem pack_normal (sign : Sign) (mantissa field : Nat) (positive : 0 < mantissa)
    (low : 2 ^ 52 ≤ mantissa) (high : mantissa < 2 ^ 53) (finite : field < 2047) :
    pack Format.binary64 (.finite sign mantissa ((field : Int) - 1075) positive) =
      packComponents Format.binary64 sign (BitVec.ofNat 11 field) (BitVec.ofNat 52 mantissa) := by
  have long : mantissa.log2 = 52 := (Nat.log2_eq_iff positive.ne').mpr ⟨low, high⟩
  have normal : mantissa.log2 + 1 = Format.binary64.mantissaBits := by
    rw [long]
    rfl
  have biased : ((field : Int) - 1075 + (Format.binary64.exponentBias : Int) +
      (Format.binary64.mantissaBitsWithoutImplicit : Int)).toNat = field := by
    change ((field : Int) - 1075 + 1023 + 52).toNat = field
    omega
  have inRange : ¬ 2 ^ Format.binary64.exponentBits ≤ field + 1 := by
    change ¬ 2048 ≤ field + 1
    omega
  simp only [pack, biased, if_neg inRange, if_pos normal]

/-- Packing undoes unpacking on every pattern that is not a second NaN. -/
theorem pack_unpack {bits : BitVec Format.binary64.numBits}
    (valid : Format.binary64.Valid bits) :
    pack Format.binary64 (unpack Format.binary64 bits) = bits := by
  have exponentEq := toNat_unpackExponent bits
  have mantissaEq := toNat_unpackMantissa bits
  have mantissaLt : (unpackMantissa bits).toNat < 2 ^ 52 := (unpackMantissa bits).isLt
  unfold unpack
  dsimp only
  split
  · rename_i top
    split
    · rename_i isZero
      refine packComponents_fields bits _ _ ?_ ?_
      · rw [← exponentEq, top]
      · rw [← mantissaEq, isZero]
        rfl
    · rename_i payload
      exact (valid.eq_packedNaN top payload).symm
  · rename_i notTop
    rw [exponent_eq_allOnes_iff, ← exponentEq] at notTop
    split
    · rename_i bottom
      split
      · rename_i isZero
        refine packComponents_fields bits _ _ ?_ ?_
        · rw [← exponentEq, bottom]
          rfl
        · rw [← mantissaEq, isZero]
          rfl
      · rename_i nonzero
        have positive : 0 < (unpackMantissa bits).toNat := by
          rw [Nat.pos_iff_ne_zero]
          exact fun isZero => nonzero (BitVec.toNat_inj.mp isZero)
        simp only [bottom]
        refine (pack_subnormal _ _ positive mantissaLt).trans ?_
        refine packComponents_fields bits _ _ ?_ ?_
        · rw [← exponentEq, bottom]
        · rw [BitVec.ofNat_toNat, BitVec.setWidth_eq, mantissaEq]
    · rename_i notBottom
      have fieldLt : (unpackExponent bits).toNat < 2047 := by omega
      have implicit := toNat_implicitBit_append (unpackMantissa bits)
      refine (pack_normal _ _ _ (by omega) (by omega) (by omega) fieldLt).trans ?_
      refine packComponents_fields bits _ _ ?_ ?_
      · rw [BitVec.ofNat_toNat, BitVec.setWidth_eq, exponentEq]
      · rw [BitVec.toNat_ofNat, implicit, ← mantissaEq]
        omega

theorem ofBits_toBits (value : Float) : Float.ofBits value.toBits = value := by
  obtain ⟨⟨bits, valid⟩⟩ := value
  simp only [Float.ofBits, Float.toBits, Float.Model.ofBits, Float.Model.pack, pack_unpack valid]

/-! ### Sign and index -/

theorem ofIndex_index (value : Float) : ofIndex (isNegative value) (index value) = value := by
  have bound : value.toBits.toNat < 2 ^ 64 := value.toBits.toNat_lt
  have whole : (if isNegative value then signWeight + index value else index value) =
      value.toBits.toNat := by
    by_cases negative : signWeight ≤ value.toBits.toNat
    · simp only [isNegative, index, negative, decide_true, if_true]
      simp only [signWeight] at negative ⊢
      omega
    · simp only [isNegative, index, negative, decide_false, if_false, Bool.false_eq_true]
      simp only [signWeight] at negative ⊢
      omega
  rw [ofIndex, whole, UInt64.ofNat_toNat, ofBits_toBits]

theorem isFinite_unpack_iff (bits : BitVec Format.binary64.numBits) :
    (unpack Format.binary64 bits).isFinite = true ↔ bits.toNat / 2 ^ 52 % 2 ^ 11 ≠ 2047 := by
  rw [ne_eq, ← exponent_eq_allOnes_iff]
  unfold unpack
  dsimp only
  split
  · rename_i top
    refine iff_of_false ?_ (not_not_intro top)
    split <;> exact Bool.false_ne_true
  · rename_i notTop
    refine iff_of_true ?_ notTop
    split
    · split <;> rfl
    · rfl

theorem isFinite_iff (value : Float) : value.isFinite = true ↔ index value < infinityIndex := by
  have bound : value.toBits.toBitVec.toNat < 2 ^ 64 := value.toBits.toBitVec.isLt
  have finite : value.isFinite = true ↔ value.toBits.toBitVec.toNat / 2 ^ 52 % 2 ^ 11 ≠ 2047 :=
    isFinite_unpack_iff value.toBits.toBitVec
  rw [finite, index, UInt64.toNat]
  simp only [signWeight, infinityIndex, binade]
  omega

end Binary64

end BlockStage
