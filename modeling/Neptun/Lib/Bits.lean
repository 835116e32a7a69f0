import Mathlib

/-! Single bits of a 64-bit word. The bit at position `i` is `getLsbD i` of the
word's bit vector; setting, clearing and testing one bit with a shifted one
are read off at every position below the width. -/
namespace Neptun.Lib

/-- Bit `i` of a 64-bit word. -/
def wordBit (w : UInt64) (i : Nat) : Bool := w.toBitVec.getLsbD i

section Word

variable (w b : UInt64) (hb : b.toNat < 64)
include hb

theorem wordBit_or_one_shiftLeft {i : Nat} (hi : i < 64) :
    wordBit (w ||| ((1 : UInt64) <<< b)) i = (wordBit w i || decide (i = b.toNat)) := by
  simp only [wordBit, UInt64.toBitVec_or, UInt64.toBitVec_shiftLeft, BitVec.getLsbD_or]
  by_cases h : i = b.toNat
  · subst h
    simp [Nat.mod_eq_of_lt hb, hi]
  · simp [Nat.mod_eq_of_lt hb, hi, h]
    omega

theorem wordBit_and_not_one_shiftLeft {i : Nat} (hi : i < 64) :
    wordBit (w &&& ~~~((1 : UInt64) <<< b)) i = (wordBit w i && !decide (i = b.toNat)) := by
  simp only [wordBit]
  by_cases h : i = b.toNat
  · subst h
    simp [Nat.mod_eq_of_lt hb, hi]
  · simp [Nat.mod_eq_of_lt hb, hi, h]
    omega

/-- Testing bit `b` by shifting it down and masking with one. -/
theorem shiftRight_and_one_beq_one : (((w >>> b) &&& 1) == 1) = wordBit w b.toNat := by
  rw [Bool.eq_iff_iff, beq_iff_eq, ← UInt64.toNat_inj]
  simp only [UInt64.toNat_and, UInt64.toNat_shiftRight, Nat.mod_eq_of_lt hb, UInt64.toNat_one,
    Nat.and_one_is_mod, Nat.shiftRight_eq_div_pow, wordBit, BitVec.getLsbD, UInt64.toNat_toBitVec,
    Nat.testBit_eq_decide_div_mod_eq, decide_eq_true_eq]

end Word

/-- Masking with `0 - 64`, every bit but the low six, keeps a multiple of 64. -/
theorem and_zero_sub_sixtyfour (x : UInt64) (h : x.toNat % 64 = 0) : x &&& (0 - 64) = x := by
  apply UInt64.toBitVec_inj.mp
  apply BitVec.eq_of_getLsbD_eq
  intro j hj
  have hmask : ∀ j < 64, (0 - 64 : UInt64).toBitVec.getLsbD j = decide (6 ≤ j) := by decide
  rw [UInt64.toBitVec_and, BitVec.getLsbD_and, hmask j hj]
  by_cases hj6 : 6 ≤ j
  · simp [hj6]
  · have hbit : x.toBitVec.getLsbD j = (x.toNat % 2 ^ 6).testBit j := by
      rw [Nat.testBit_mod_two_pow]
      simp [BitVec.getLsbD, show j < 6 by omega]
    rw [hbit, show (2 : Nat) ^ 6 = 64 from rfl, h]
    simp

/-- A sum that stays below the width does not wrap. -/
theorem toNat_add_of_lt {a b : UInt64} (h : a.toNat + b.toNat < 2 ^ 64) :
    (a + b).toNat = a.toNat + b.toNat := by
  rw [UInt64.toNat_add, Nat.mod_eq_of_lt h]

@[simp] theorem wordBit_zero (i : Nat) : wordBit 0 i = false := by
  simp [wordBit]

end Neptun.Lib
