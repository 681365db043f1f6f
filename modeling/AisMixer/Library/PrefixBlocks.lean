import Mathlib

/-!
# Blocks of numbers with a common binary prefix

A mask keeps the leading bits of a number of a fixed width. The numbers that agree with a masked
number under its mask are the interval that starts there.
-/

namespace AisMixer.Library

/-- The greatest number of a width. -/
def allOnes (width : Nat) : Nat := 2 ^ width - 1

/-- The mask that keeps the leading bits. -/
def prefixMask (width length : Nat) : Nat := allOnes width ^^^ (allOnes width >>> length)

lemma testBit_prefixMask {width length : Nat} (h : length ≤ width) (i : Nat) :
    (prefixMask width length).testBit i = decide (width - length ≤ i ∧ i < width) := by
  have hbit : ∀ j, (allOnes width).testBit j = decide (j < width) := Nat.testBit_two_pow_sub_one width
  rw [prefixMask, Nat.testBit_xor, Nat.testBit_shiftRight, hbit, hbit]
  by_cases hlow : i < width - length
  · have hshort : length + i < width := by omega
    have hwidth : i < width := by omega
    have hout : ¬width - length ≤ i := by omega
    simp [hshort, hwidth, hout]
  · have hlong : ¬length + i < width := by omega
    have hin : width - length ≤ i := by omega
    simp [hlong, hin]

/-- Masking clears the bits behind the prefix. -/
theorem land_prefixMask {width length x : Nat} (hlength : length ≤ width) (hx : x < 2 ^ width) :
    x &&& prefixMask width length = x / 2 ^ (width - length) * 2 ^ (width - length) := by
  apply Nat.eq_of_testBit_eq
  intro i
  rw [Nat.testBit_and, testBit_prefixMask hlength, Nat.testBit_mul_two_pow, Nat.testBit_div_two_pow]
  by_cases hi : width - length ≤ i
  · rw [Nat.sub_add_cancel hi]
    by_cases hbit : x.testBit i = true
    · have hlt : i < width := by
        by_contra hge
        rw [Nat.testBit_lt_two_pow (lt_of_lt_of_le hx (Nat.pow_le_pow_right (by norm_num)
          (not_lt.mp hge)))] at hbit
        cases hbit
      simp [hbit, hi, hlt]
    · simp [hbit]
  · simp [hi]

/-- What agrees with a block under its mask lies in the interval of the block. -/
theorem land_prefixMask_eq_iff {width length block x : Nat} (hlength : length ≤ width)
    (hblock : block &&& prefixMask width length = block) (hlt : block < 2 ^ width) (hx : x < 2 ^ width) :
    x &&& prefixMask width length = block ↔ block ≤ x ∧ x < block + 2 ^ (width - length) := by
  have hpos : 0 < 2 ^ (width - length) := Nat.two_pow_pos _
  rw [land_prefixMask hlength hlt] at hblock
  rw [land_prefixMask hlength hx]
  generalize 2 ^ (width - length) = size at hblock hpos ⊢
  have hdiv := Nat.div_add_mod x size
  have hmod := Nat.mod_lt x hpos
  rw [Nat.mul_comm] at hdiv
  constructor
  · intro h
    omega
  · rintro ⟨hle, hup⟩
    have hquotient : x / size = block / size := by
      apply Nat.div_eq_of_lt_le
      · omega
      · rw [Nat.succ_mul]
        omega
    rw [hquotient, hblock]

end AisMixer.Library
