import Mathlib.Data.Nat.Bitwise
import Mathlib.Tactic.Common

/-!
# Blocks of a power of two

The numbers that agree in all but their last `k` bits form a block.  A mask keeps
the bits that a block fixes, and one block lies within another exactly when it
leaves no more bits open and agrees on the others.

## Main results

* `and_mask` — masking clears the open bits.
* `block_subset_iff` — when one block lies within another.
-/

namespace AgentSdk.Blocks

/-- The mask that keeps the first `width - k` of `width` bits. -/
def mask (width k : Nat) : Nat := (1 <<< width - 1) ^^^ (1 <<< k - 1)

/-- Masking a number of `width` bits clears its last `k` bits. -/
theorem and_mask {width k x : Nat} (hk : k ≤ width) (hx : x < 2 ^ width) :
    x &&& mask width k = x / 2 ^ k * 2 ^ k := by
  apply Nat.eq_of_testBit_eq
  intro i
  rw [mask, Nat.one_shiftLeft, Nat.one_shiftLeft, Nat.testBit_and, Nat.testBit_xor,
    Nat.testBit_two_pow_sub_one, Nat.testBit_two_pow_sub_one, Nat.testBit_mul_two_pow,
    Nat.testBit_div_two_pow]
  by_cases hi : i < k
  · have hwidth : i < width := by omega
    have hnot : ¬k ≤ i := by omega
    simp [hi, hwidth, hnot]
  · have hge : k ≤ i := by omega
    have hsame : i - k + k = i := by omega
    by_cases hwidth : i < width
    · simp [hi, hge, hwidth, hsame]
    · have hpow : 2 ^ width ≤ 2 ^ i := Nat.pow_le_pow_right (by omega) (by omega)
      have hzero : x.testBit i = false := Nat.testBit_lt_two_pow (by omega)
      simp [hzero, hsame]

/-- A coarser quotient of a quotient. -/
theorem div_pow_of_le {i j : Nat} (h : i ≤ j) (x : Nat) :
    x / 2 ^ j = x / 2 ^ i / 2 ^ (j - i) := by
  have hpow : 2 ^ i * 2 ^ (j - i) = 2 ^ j := by
    rw [← Nat.pow_add]
    congr 1
    omega
  rw [Nat.div_div_eq_div_mul, hpow]

/-- **One block lies within another** when it is no larger and agrees where the other does. -/
theorem block_subset_iff {i j a b : Nat} :
    (∀ x, x / 2 ^ i = a / 2 ^ i → x / 2 ^ j = b / 2 ^ j) ↔ i ≤ j ∧ a / 2 ^ j = b / 2 ^ j := by
  constructor
  · intro h
    refine ⟨?_, h a rfl⟩
    by_contra hlt
    -- the first and the last number of a larger block differ in a bit that the smaller one fixes
    have hpos : 0 < 2 ^ i := Nat.two_pow_pos i
    have hj : 0 < 2 ^ j := Nat.two_pow_pos j
    have hfirst := h (2 ^ i * (a / 2 ^ i)) (by rw [Nat.mul_div_cancel_left _ hpos])
    have hsecond := h (2 ^ i * (a / 2 ^ i) + 2 ^ j) (by
      have hsmall : 2 ^ j < 2 ^ i := Nat.pow_lt_pow_right (by omega) (by omega)
      rw [Nat.mul_add_div hpos, Nat.div_eq_of_lt hsmall, Nat.add_zero])
    rw [Nat.add_div_right _ hj, hfirst] at hsecond
    omega
  · rintro ⟨hle, heq⟩ x hx
    rw [div_pow_of_le hle, hx, ← div_pow_of_le hle, heq]

end AgentSdk.Blocks
