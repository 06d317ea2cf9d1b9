import Mathlib.Data.List.Basic
import Mathlib.Data.List.Count

/-! Linear scans for the least key, as loops over a table compute it. -/

namespace Scan
open List Bool

variable {α : Type} (pick : α → Bool) (key : α → Nat)

/-- The least key below `bound` among the picked items, or `bound`. -/
def leastKey (list : List α) (bound : Nat) : Nat :=
  list.foldl (fun least item => if pick item && decide (key item < least) then key item else least) bound

lemma leastKey_le (list : List α) (bound : Nat) : leastKey pick key list bound ≤ bound := by
  induction list generalizing bound with
  | nil => exact Nat.le_refl _
  | cons head tail ih =>
    simp only [leastKey, foldl_cons] at ih ⊢
    refine Nat.le_trans (ih _) ?_
    split
    next better =>
      simp only [and_eq_true, decide_eq_true_eq] at better
      exact Nat.le_of_lt better.2
    · exact Nat.le_refl _

lemma leastKey_attained (list : List α) (bound : Nat) :
    leastKey pick key list bound = bound ∨ ∃ item ∈ list, pick item = true ∧ key item < bound ∧
    leastKey pick key list bound = key item := by
  induction list generalizing bound with
  | nil => exact .inl rfl
  | cons head tail ih =>
    simp only [leastKey, foldl_cons] at ih ⊢
    by_cases better : (pick head && decide (key head < bound)) = true
    · rw [if_pos better]
      simp only [and_eq_true, decide_eq_true_eq] at better
      rcases ih (key head) with same | ⟨item, member, picked, below, equal⟩
      · exact .inr ⟨head, by simp, better.1, better.2, same⟩
      · exact .inr ⟨item, by simp [member], picked, Nat.lt_trans below better.2, equal⟩
    rw [if_neg better]
    rcases ih bound with same | ⟨item, member, picked, below, equal⟩
    · exact .inl same
    · exact .inr ⟨item, by simp [member], picked, below, equal⟩

lemma leastKey_least {list bound item} (member : item ∈ list) (picked : pick item = true) :
    leastKey pick key list bound ≤ key item := by
  induction list generalizing bound with
  | nil => cases member
  | cons head tail ih =>
    rcases mem_cons.mp member with rfl | later
    · have rest := leastKey_le pick key tail (if pick item && decide (key item < bound) then key item else bound)
      simp only [leastKey, foldl_cons] at rest ⊢
      refine Nat.le_trans rest ?_
      split
      · exact Nat.le_refl _
      rename_i worse
      simp only [picked, Bool.true_and, decide_eq_true_eq] at worse
      omega
    · simp only [leastKey, foldl_cons] at ih ⊢
      exact ih later

/-- Fewer items are counted when the test gets stricter and some item stops counting. -/
lemma countP_lt {before after : α → Bool} (stricter : ∀ item, after item = true → before item = true) {list : List α}
    {item : α} (member : item ∈ list) (counted : before item = true) (passed : after item = false) :
    list.countP after < list.countP before := by
  induction list with
  | nil => cases member
  | cons head tail ih =>
    have fewer : tail.countP after ≤ tail.countP before := countP_mono_left fun other _ => stricter other
    rcases mem_cons.mp member with rfl | later
    · rw [countP_cons_of_pos counted, countP_cons_of_neg (by simp [passed])]
      omega
    have less := ih later
    by_cases headCounted : after head = true
    · rw [countP_cons_of_pos headCounted, countP_cons_of_pos (stricter head headCounted)]
      omega
    · rw [countP_cons_of_neg headCounted, countP_cons]
      omega

end Scan
