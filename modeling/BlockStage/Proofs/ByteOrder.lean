import Mathlib.Data.List.Lex
import Mathlib.Data.String.Basic

/-! # The order of texts and the order of their bytes

Keys are compared character by character in memory and byte by byte in a database.
UTF-8 is made so that this is the same order: where two characters differ, the first
byte in which their encodings differ decides the same way.
-/

namespace BlockStage

def textBytes (text : String) : List UInt8 := text.toUTF8.data.toList

theorem textBytes_eq_flatMap (text : String) :
    textBytes text = text.toList.flatMap String.utf8EncodeChar := by
  have encoded : text.toUTF8 = text.toList.utf8Encode := by
    simp
  rw [textBytes, encoded]
  simp [List.utf8Encode]

theorem sextet_lt {first second : Nat} (less : first < second) :
    first / 64 < second / 64 ∨ first / 64 = second / 64 ∧ first % 64 < second % 64 := by
  omega

/-- Two codes first differ in one of their groups of six bits, and are ordered as these
groups are. -/
theorem sextets_lt {first second : Nat} (less : first < second) :
    first / 262144 < second / 262144 ∨ first / 262144 = second / 262144 ∧
      (first / 4096 % 64 < second / 4096 % 64 ∨ first / 4096 % 64 = second / 4096 % 64 ∧
        (first / 64 % 64 < second / 64 % 64 ∨ first / 64 % 64 = second / 64 % 64 ∧
          first % 64 < second % 64)) := by
  have high := @sextet_lt (first / 64 / 64) (second / 64 / 64)
  have middle := @sextet_lt (first / 64) (second / 64)
  have low := sextet_lt less
  simp only [Nat.div_div_eq_div_mul, Nat.reduceMul] at high middle
  omega

/-- The encodings of two different characters are ordered as the characters are,
whatever follows them. -/
theorem encoded_append_lt {first second : Char} (less : first < second)
    (after behind : List UInt8) :
    String.utf8EncodeChar first ++ after < String.utf8EncodeChar second ++ behind := by
  have codes : first.val.toNat < second.val.toNat := less
  have bound : second.val.toNat < 1114112 := by
    rcases second.valid with small | ⟨-, large⟩
    · exact Nat.lt_trans small (by decide)
    · exact large
  have groups := sextets_lt codes
  unfold String.utf8EncodeChar
  generalize first.val.toNat = code at *
  generalize second.val.toNat = other at *
  dsimp only
  -- Encodings of different lengths differ in the first byte, the longer one being greater.
  split_ifs <;>
    simp (disch := omega) only [List.cons_append, List.nil_append, List.cons_lt_cons_iff,
      UInt8.lt_iff_toNat_lt, ← UInt8.toNat_inj, UInt8.toNat_ofNat', Nat.reducePow,
      Nat.mod_eq_of_lt] <;>
    omega

theorem flatMap_encoded_lt {first second : List Char} (less : first < second) :
    first.flatMap String.utf8EncodeChar < second.flatMap String.utf8EncodeChar := by
  induction first generalizing second with
  | nil =>
      cases second with
      | nil => exact absurd less (lt_irrefl _)
      | cons character rest =>
          have some_byte : String.utf8EncodeChar character ≠ [] := by simp
          obtain ⟨byte, bytes, spelled⟩ := List.exists_cons_of_ne_nil some_byte
          rw [List.flatMap_cons, spelled]
          exact List.nil_lt_cons _ _
  | cons character rest ih =>
      cases second with
      | nil => exact absurd less (List.not_lt_nil _)
      | cons other others =>
          rw [List.flatMap_cons, List.flatMap_cons]
          rcases List.cons_lt_cons_iff.mp less with before | ⟨same, later⟩
          · exact encoded_append_lt before _ _
          · subst same
            exact List.append_left_lt (ih later)

/-- Texts are ordered as their bytes are. -/
theorem textBytes_lt_iff (first second : String) :
    textBytes first < textBytes second ↔ first < second := by
  have forward : ∀ {one other : String}, one < other → textBytes one < textBytes other := by
    intro one other less
    rw [textBytes_eq_flatMap, textBytes_eq_flatMap]
    exact flatMap_encoded_lt (String.lt_iff_toList_lt.mp less)
  refine ⟨fun less => ?_, forward⟩
  rcases lt_trichotomy first second with before | same | behind
  · exact before
  · exact absurd (same ▸ less) (List.lt_irrefl _)
  · exact absurd (List.lt_trans less (forward behind)) (List.lt_irrefl _)

end BlockStage
