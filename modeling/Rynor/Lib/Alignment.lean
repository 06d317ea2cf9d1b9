import Mathlib.Algebra.GroupWithZero.Nat
import Mathlib.Data.Nat.Bits

/-! Alignments: powers of two as programs test for them, and which of the numbers in an
arithmetic progression are aligned. -/

namespace Alignment

def isPowerOfTwo (n : Nat) : Bool := n != 0 && n &&& (n - 1) == 0

lemma exists_pow_of_and_pred (n : Nat) (nonzero : n ≠ 0) (single : n &&& (n - 1) = 0) : ∃ e, n = 2 ^ e := by
  induction n using Nat.strongRecOn with
  | ind n ih =>
    have halves : n / 2 &&& (n - 1) / 2 = 0 := by rw [← Nat.and_div_two, single]
    rcases Nat.mod_two_eq_zero_or_one n with even | odd
    · rw [show (n - 1) / 2 = n / 2 - 1 by omega] at halves
      obtain ⟨e, half⟩ := ih (n / 2) (by omega) (by omega) halves
      exact ⟨e + 1, by rw [Nat.pow_succ]; omega⟩
    · rw [show (n - 1) / 2 = n / 2 by omega, Nat.and_self] at halves
      exact ⟨0, by omega⟩

lemma exists_pow {n} (power : isPowerOfTwo n = true) : ∃ e, n = 2 ^ e := by
  simp only [isPowerOfTwo, Bool.and_eq_true, bne_iff_ne, beq_iff_eq] at power
  exact exists_pow_of_and_pred n power.1 power.2

lemma pos {n} (power : isPowerOfTwo n = true) : 0 < n := by
  obtain ⟨e, rfl⟩ := exists_pow power
  exact Nat.two_pow_pos e

/-- Of two powers of two the smaller divides the larger. -/
lemma dvd_of_le {n m} (power : isPowerOfTwo n = true) (other : isPowerOfTwo m = true) (le : n ≤ m) : n ∣ m := by
  obtain ⟨e, rfl⟩ := exists_pow power
  obtain ⟨f, rfl⟩ := exists_pow other
  exact Nat.pow_dvd_pow 2 ((Nat.pow_le_pow_iff_right (by decide)).mp le)

/-- The steps from `b` to the next multiple of `step`. -/
def gap (step b : Nat) : Nat := if b % step ≠ 0 then step - b % step else 0

lemma gap_aligned {step} (b : Nat) (positive : 0 < step) : (b + gap step b) % step = 0 := by
  have below := Nat.mod_lt b positive
  unfold gap
  split
  · have same : b + (step - b % step) = step * (b / step) + step := by
      have parts := Nat.div_add_mod b step
      omega
    rw [same, Nat.add_mod_right, Nat.mul_mod_right]
  next aligned => simpa using aligned

/-- The multiples of `step` at or after `b` are those a whole number of steps past the first. -/
lemma aligned_iff {step b k} (positive : 0 < step) : (b + k) % step = 0 ↔ ∃ turns, k = gap step b + turns * step := by
  constructor
  · intro aligned
    rw [← Nat.mod_add_mod] at aligned
    obtain ⟨m, whole⟩ := Nat.dvd_of_mod_eq_zero aligned
    rw [mul_comm] at whole
    unfold gap
    split
    next off =>
      cases m with
      | zero => omega
      | succ m =>
        rw [Nat.succ_mul] at whole
        exact ⟨m, by have below := Nat.mod_lt b positive; omega⟩
    next on => exact ⟨m, by omega⟩
  · rintro ⟨turns, rfl⟩
    rw [← add_assoc, Nat.add_mul_mod_self_right, gap_aligned b positive]

end Alignment
