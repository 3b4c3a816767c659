import BlockStage.Proofs.FloatBits

/-!
# The kinds of doubles

A double is no number, an infinity, a zero or a finite number on one side of zero.
There is one double of the first kind and one infinity of each sign, so these are
known by name.  Where doubles are compared with zero or multiplied by it, the kind
decides alone.
-/

namespace BlockStage

namespace Binary64

open Float.Model (Format UnpackedFloat)

/-- The double beyond all finite ones, on either side. -/
def infinity (negative : Bool) : Float := ofIndex negative infinityIndex

theorem ofModel_pack_unpack (value : Float) :
    Float.ofModel (.pack value.toModel.unpack) = value := by
  obtain ⟨⟨bits, valid⟩⟩ := value
  simp only [Float.Model.pack, Float.Model.unpack, pack_unpack valid]

theorem unpack_zero : (0 : Float).toModel.unpack = .zero .positive := rfl

theorem eq_nan_of_isNaN {value : Float} (isNaN : value.isNaN = true) : value = nan := by
  have kind : value.toModel.unpack.isNaN = true := isNaN
  rw [← ofModel_pack_unpack value]
  cases unpacked : value.toModel.unpack with
  | notANumber => rfl
  | _ => simp [unpacked, UnpackedFloat.isNaN] at kind

theorem eq_infinity_of_isInf {value : Float} (isInf : value.isInf = true) :
    value = infinity (isNegative value) := by
  have kind : value.toModel.unpack.isInf = true := isInf
  have either : value = infinity false ∨ value = infinity true := by
    rw [← ofModel_pack_unpack value]
    cases unpacked : value.toModel.unpack with
    | infinity sign =>
        cases sign with
        | positive => exact Or.inl rfl
        | negative => exact Or.inr rfl
    | _ => simp [unpacked, UnpackedFloat.isInf] at kind
  rcases either with rfl | rfl
  · rfl
  · rfl

theorem isFinite_of_isNaN_of_isInf {value : Float} (isNumber : value.isNaN = false)
    (isBounded : value.isInf = false) : value.isFinite = true := by
  have number : value.toModel.unpack.isNaN = false := isNumber
  have bounded : value.toModel.unpack.isInf = false := isBounded
  change value.toModel.unpack.isFinite = true
  cases unpacked : value.toModel.unpack with
  | notANumber => simp [unpacked, UnpackedFloat.isNaN] at number
  | infinity sign => simp [unpacked, UnpackedFloat.isInf] at bounded
  | zero sign => rfl
  | finite sign mantissa exponent positive => rfl

/-- What is not below or at zero, and is a number, is above it. -/
theorem above_zero_cases {value : Float} (isNumber : value.isNaN = false) (above : ¬ value ≤ 0) :
    value = infinity false ∨
      ∃ mantissa exponent positive,
        value.toModel.unpack = .finite .positive mantissa exponent positive := by
  have number : value.toModel.unpack.isNaN = false := isNumber
  have notLe : ¬ value.toModel.unpack.le (.zero .positive) = true := by
    intro le
    exact above (decide_eq_true (p := value.toModel ≤ (0 : Float).toModel) le)
  cases unpacked : value.toModel.unpack with
  | notANumber => simp [unpacked, UnpackedFloat.isNaN] at number
  | zero sign => exact absurd rfl (unpacked ▸ notLe)
  | infinity sign =>
      cases sign with
      | negative => exact absurd rfl (unpacked ▸ notLe)
      | positive =>
          left
          rw [← ofModel_pack_unpack value, unpacked]
          rfl
  | finite sign mantissa exponent positive =>
      cases sign with
      | negative => exact absurd rfl (unpacked ▸ notLe)
      | positive => exact Or.inr ⟨mantissa, exponent, positive, rfl⟩

theorem zero_mul_infinity : 0 * infinity false = nan := rfl

theorem zero_mul_of_finite {value : Float} {mantissa : Nat} {exponent : Int}
    {positive : 0 < mantissa}
    (unpacked : value.toModel.unpack = .finite .positive mantissa exponent positive) :
    0 * value = 0 := by
  change Float.ofModel (.pack (UnpackedFloat.mul Format.binary64 (0 : Float).toModel.unpack
    value.toModel.unpack)) = 0
  rw [unpack_zero, unpacked]
  rfl

end Binary64

end BlockStage
