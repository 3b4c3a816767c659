import BlockStage.Proofs.FloatBits
import BlockStage.Proofs.NumberText

/-!
# The numbers of a text are finite

However a number is written, the token it becomes holds a finite double or a count, or
no value at all.  A decimal has a value only below the index of infinity, and a count
of 64 bits stays far below the largest double, whichever way it is rounded.  So no text
brings an infinity or a NaN into a document.
-/

namespace BlockStage

namespace Binary64

open Float.Model (Format UnpackedFloat)
open Float.Model.UnpackedFloat

/-! ### Doubles below infinity -/

theorem toBits_ofBits {bits : UInt64} (below : bits.toNat / 2 ^ 52 % 2 ^ 11 ≠ 2047) :
    (Float.ofBits bits).toBits = bits := by
  have valid : Format.binary64.Valid bits.toBitVec :=
    ⟨fun top => absurd ((exponent_eq_allOnes_iff bits.toBitVec).mp top) below⟩
  simp only [Float.ofBits, Float.toBits, Float.Model.ofBits, Float.Model.pack, pack_unpack valid]

theorem isFinite_ofIndex (negative : Bool) {index : Nat} (below : index < infinityIndex) :
    (ofIndex negative index).isFinite = true := by
  simp only [infinityIndex, binade] at below
  set whole := if negative then signWeight + index else index with wholeEq
  have size : whole % signWeight = index ∧ whole < 2 ^ 64 := by
    simp only [wholeEq, signWeight]
    split <;> omega
  have bits : (UInt64.ofNat whole).toNat = whole := UInt64.toNat_ofNat_of_lt size.2
  have exponent : (UInt64.ofNat whole).toNat / 2 ^ 52 % 2 ^ 11 ≠ 2047 := by
    rw [bits]
    simp only [signWeight] at size
    omega
  rw [isFinite_iff, Binary64.index, ofIndex, ← wholeEq, toBits_ofBits exponent, bits, size.1]
  simpa only [infinityIndex, binade] using below

/-- What is packed as a finite double. -/
def InRange : UnpackedFloat → Prop
  | .zero _ => True
  | .finite _ _ exponent _ => exponent < 972
  | _ => False

theorem isFinite_unpack_pack {value : UnpackedFloat} (inRange : InRange value) :
    (unpack Format.binary64 (pack Format.binary64 value)).isFinite = true := by
  have field (sign : Sign) (exponent : Nat) (mantissa : BitVec 52) (small : exponent < 2047) :
      (unpack Format.binary64 (packComponents Format.binary64 sign (BitVec.ofNat 11 exponent)
        mantissa)).isFinite = true := by
    have mantissaLt := mantissa.isLt
    rw [isFinite_unpack_iff, toNat_packComponents, BitVec.toNat_ofNat]
    omega
  cases value with
  | notANumber => exact inRange.elim
  | infinity sign => exact inRange.elim
  | zero sign => exact field sign 0 0 (by omega)
  | finite sign mantissa exponent positive =>
      have below : exponent < 972 := inRange
      have biased : ¬ 2 ^ Format.binary64.exponentBits ≤
          (exponent + (Format.binary64.exponentBias : Int) +
            (Format.binary64.mantissaBitsWithoutImplicit : Int)).toNat + 1 := by
        change ¬ 2048 ≤ (exponent + 1023 + 52).toNat + 1
        omega
      simp only [pack, if_neg biased]
      split
      · refine field sign _ _ ?_
        change (exponent + 1023 + 52).toNat < 2047
        omega
      · exact field sign 0 _ (by omega)

/-! ### Rounding a count -/

theorem mantissa_shiftRight_le (extended : ExtendedMantissa) (places : Nat) :
    (extended >>> places).mantissa ≤ extended.mantissa := by
  change (places.repeat ExtendedMantissa.shiftRightOne extended).mantissa ≤ _
  induction places with
  | zero => exact Nat.le_refl _
  | succ places ih => exact (Nat.div_le_self _ _).trans ih

theorem roundedMantissa_le (extended : ExtendedMantissa) :
    extended.roundedMantissa ≤ extended.mantissa + 1 := by
  obtain ⟨mantissa, half, rest⟩ := extended
  cases half <;> cases rest <;>
    simp only [ExtendedMantissa.roundedMantissa, ExtendedMantissa.accuracy,
      Accuracy.roundToNearestEven] <;> omega

/-- Fitting a mantissa to the format raises the exponent by no more than the places of
the mantissa. -/
theorem exponent_shiftToTargetExponent (mantissa : Nat) (exponent : Int) (accuracy : Accuracy)
    (low : -1074 ≤ exponent) :
    exponent ≤ (shiftToTargetExponent Format.binary64 mantissa exponent accuracy).2 ∧
      (shiftToTargetExponent Format.binary64 mantissa exponent accuracy).2 ≤
        exponent + mantissa.log2 := by
  simp only [shiftToTargetExponent, shiftToExponent, Format.targetExponent, Format.mantissaBits,
    Format.minExponent, Float.Model.totalExponent]
  omega

theorem log2_le_of_le {number places : Nat} (small : number ≤ 2 ^ places) :
    number.log2 ≤ places := by
  rcases Nat.eq_zero_or_pos number with rfl | positive
  · simp
  · have upper : number < 2 ^ (places + 1) := by
      rw [pow_succ]
      omega
    have := (Nat.log2_lt positive.ne').mpr upper
    omega

theorem inRange_roundWithAccuracy (sign : Sign) {mantissa : Nat} {exponent : Int}
    (small : mantissa < 2 ^ 116) (low : -1074 ≤ exponent) (high : exponent ≤ 0) :
    InRange (roundWithAccuracy Format.binary64 sign mantissa exponent .exact) := by
  set fitted := shiftToTargetExponent Format.binary64 mantissa exponent .exact with fittedEq
  have fittedExponent := exponent_shiftToTargetExponent mantissa exponent .exact low
  rw [← fittedEq] at fittedExponent
  have fittedMantissa : fitted.1.mantissa ≤ mantissa := mantissa_shiftRight_le _ _
  have rounded := roundedMantissa_le fitted.1
  have places : mantissa.log2 ≤ 116 := log2_le_of_le small.le
  have roundedPlaces : fitted.1.roundedMantissa.log2 ≤ 116 := log2_le_of_le (by omega)
  have final := exponent_shiftToTargetExponent fitted.1.roundedMantissa fitted.2 .exact (by omega)
  unfold roundWithAccuracy
  simp only [← fittedEq]
  split
  · trivial
  · change (shiftToTargetExponent _ _ _ _).2 < 972
    omega

theorem inRange_ofNat {count : Nat} (small : count < 2 ^ 64) :
    InRange (UnpackedFloat.ofNat Format.binary64 count) := by
  unfold UnpackedFloat.ofNat UnpackedFloat.ofInt UnpackedFloat.normalize
  split
  · rename_i negative
    rw [compare_lt_iff_lt] at negative
    omega
  · trivial
  · -- A small count is first moved up to 53 places.
    set target := Format.binary64.targetExponent (Float.Model.totalExponent (count : Int).toNat 0)
      with targetEq
    have raised : (0 - target).toNat ≤ 52 := by
      simp only [targetEq, Format.targetExponent, Format.mantissaBits, Format.minExponent,
        Float.Model.totalExponent]
      omega
    unfold UnpackedFloat.round
    simp only [← targetEq, decreaseExponent]
    refine inRange_roundWithAccuracy .positive ?_ (by omega) (by omega)
    rw [Int.toNat_natCast, Nat.shiftLeft_eq]
    calc count * 2 ^ (0 - target).toNat
        ≤ count * 2 ^ 52 := Nat.mul_le_mul_left _ (Nat.pow_le_pow_right (by omega) raised)
      _ < 2 ^ 64 * 2 ^ 52 := Nat.mul_lt_mul_of_pos_right small (by omega)
      _ = 2 ^ 116 := by norm_num

theorem isFinite_toFloat (count : UInt64) : count.toFloat.isFinite = true :=
  isFinite_unpack_pack (inRange_ofNat count.toNat_lt)

end Binary64

theorem Numeral.IsFinite.isFinite_toFloat {numeral : Numeral} (finite : numeral.IsFinite) :
    numeral.toFloat.isFinite = true := by
  cases numeral with
  | count value => exact Binary64.isFinite_toFloat value
  | real value => exact finite

theorem Decimal.isFinite_of_toFloat? {decimal : Decimal} {value : Float}
    (read : decimal.toFloat? = some value) : value.isFinite = true := by
  unfold toFloat? at read
  dsimp only at read
  split at read
  · rename_i below
    cases read
    exact Binary64.isFinite_ofIndex decimal.negative below
  · cases read

/-! ### Tokens -/

namespace Token

/-- A token whose number, if it has one, is finite. -/
def IsFinite : Token → Prop
  | .number (some numeral) => numeral.IsFinite
  | _ => True

theorem isFinite_number {value : Option Numeral}
    (finite : ∀ numeral, value = some numeral → numeral.IsFinite) : (number value).IsFinite := by
  cases value with
  | none => trivial
  | some numeral => exact finite numeral rfl

theorem isFinite_real (decimal : Decimal) : (number (decimal.toFloat?.map .real)).IsFinite := by
  apply isFinite_number
  intro numeral read
  obtain ⟨value, nearest, rfl⟩ := Option.map_eq_some_iff.mp read
  exact decimal.isFinite_of_toFloat? nearest

theorem isFinite_wholeNumeral (negative : Bool) (whole : List Char) :
    (number (wholeNumeral negative whole)).IsFinite := by
  unfold wholeNumeral
  dsimp only
  split
  · trivial
  · exact isFinite_real _

theorem isFinite_scanExponent (negative : Bool) (whole : List Char)
    (fraction : Option (List Char)) (rest : List Char) :
    (scanExponent negative whole fraction rest).1.IsFinite := by
  have finished : (scanExponent.finished negative whole fraction).IsFinite := by
    cases fraction with
    | none => exact isFinite_wholeNumeral negative whole
    | some digits => exact isFinite_real _
  unfold scanExponent
  split
  · split
    · dsimp only
      split
      · trivial
      · exact isFinite_real _
    · exact finished
  · exact finished

theorem isFinite_scanFraction (negative : Bool) (whole rest : List Char) :
    (scanFraction negative whole rest).1.IsFinite := by
  unfold scanFraction
  split
  · dsimp only
    split
    · trivial
    · exact isFinite_scanExponent _ _ _ _
  · exact isFinite_scanExponent _ _ _ _

theorem isFinite_scanNumber (negative : Bool) (rest : List Char) :
    (scanNumber negative rest).1.IsFinite := by
  unfold scanNumber
  dsimp only
  split
  · trivial
  · trivial
  · exact isFinite_scanFraction _ _ _

theorem isFinite_scanWord {token : Token} (finite : token.IsFinite) (word rest : List Char) :
    (scanWord token word rest).1.IsFinite := by
  unfold scanWord
  split
  · exact finite
  · trivial

theorem isFinite_scanText (rest : List Char) : (scanText rest).1.IsFinite := by
  unfold scanText
  split
  · trivial
  · split <;> trivial

theorem isFinite_of_punctuation? {character : Char} {token : Token}
    (stands : punctuation? character = some token) : token.IsFinite := by
  unfold punctuation? at stands
  split_ifs at stands <;> cases stands <;> trivial

theorem isFinite_scanLetter (character : Char) (rest : List Char) :
    (scanLetter character rest).1.IsFinite := by
  unfold scanLetter
  split
  · exact isFinite_scanWord (by trivial) _ _
  split
  · exact isFinite_scanWord (by trivial) _ _
  split
  · exact isFinite_scanWord (by trivial) _ _
  · trivial

theorem isFinite_scan (character : Char) (rest : List Char) :
    (scan character rest).1.IsFinite := by
  unfold scan
  split
  · rename_i stands
    exact isFinite_of_punctuation? stands
  split
  · exact isFinite_scanText rest
  split
  · exact isFinite_scanNumber _ _
  split
  · exact isFinite_scanNumber _ _
  · exact isFinite_scanLetter character rest

theorem isFinite_of_mem_collect {collected : List Token} {text : List Char}
    (finite : ∀ token ∈ collected, token.IsFinite) :
    ∀ token ∈ collect collected text, token.IsFinite := by
  fun_induction collect collected text with
  | case1 collected =>
      intro token isToken
      exact finite token (List.mem_reverse.mp isToken)
  | case2 collected character rest blank ih => exact ih finite
  | case3 collected character rest notBlank _ ih =>
      apply ih
      intro token isToken
      rcases List.mem_cons.mp isToken with rfl | earlier
      · exact isFinite_scan character rest
      · exact finite token earlier

/-- Every number among the tokens of a text is finite. -/
theorem isFinite_of_mem_tokenize (text : List Char) : ∀ token ∈ tokenize text, token.IsFinite :=
  isFinite_of_mem_collect fun _ isToken => absurd isToken List.not_mem_nil

end Token

end BlockStage
