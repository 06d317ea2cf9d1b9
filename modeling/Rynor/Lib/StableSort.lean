import Mathlib.Data.List.Sort

/-! The order of two elements of a list before and after a stable sort. One element comes before another
when the pair is a sublist. -/

namespace StableSort
open List
variable {α : Type} {first second : α} {items : List α}

lemma pair_or_pair (left : first ∈ items) (right : second ∈ items) (differ : first ≠ second) :
    [first, second].Sublist items ∨ [second, first].Sublist items := by
  induction items with
  | nil => cases left
  | cons item items ih =>
    rcases mem_cons.mp left with rfl | inside
    · have later := (mem_cons.mp right).resolve_left fun same => differ same.symm
      exact .inl ((singleton_sublist.mpr later).cons_cons _)
    rcases mem_cons.mp right with rfl | other
    · exact .inr ((singleton_sublist.mpr inside).cons_cons _)
    · exact (ih inside other).imp (·.cons item) (·.cons item)

lemma not_both (distinct : items.Nodup) (forward : [first, second].Sublist items) :
    ¬ [second, first].Sublist items := by
  induction items with
  | nil => cases forward
  | cons item items ih =>
    obtain ⟨fresh, distinct⟩ := nodup_cons.mp distinct
    intro backward
    cases forward with
    | cons _ forward =>
      cases backward with
      | cons _ backward => exact ih distinct forward backward
      | cons_cons _ _ => exact fresh (forward.subset (mem_cons_of_mem _ mem_cons_self))
    | cons_cons _ forward =>
      cases backward with
      | cons _ backward => exact fresh (backward.subset (mem_cons_of_mem _ mem_cons_self))
      | cons_cons _ _ => exact fresh (forward.subset mem_cons_self)

/-- What comes before an element of a list stands in front of its only place. -/
lemma mem_front {front back} (distinct : (front ++ second :: back).Nodup)
    (pair : [first, second].Sublist (front ++ second :: back)) : first ∈ front := by
  induction front with
  | nil =>
    have fresh := (nodup_cons.mp distinct).1
    cases pair with
    | cons _ pair => exact absurd (pair.subset (mem_cons_of_mem _ mem_cons_self)) fresh
    | cons_cons _ pair => exact absurd (pair.subset mem_cons_self) fresh
  | cons item front ih =>
    cases pair with
    | cons _ pair => exact mem_cons_of_mem _ (ih (nodup_cons.mp distinct).2 pair)
    | cons_cons _ _ => exact mem_cons_self

variable {before : α → α → Prop} [DecidableRel before] [Std.Total before] [IsTrans α before]

/-- A stable sort moves an element behind another only when it does not belong before it. -/
lemma pair_sort_iff (distinct : items.Nodup) (left : first ∈ items) (right : second ∈ items) :
    [first, second].Sublist (items.insertionSort before) ↔ before first second ∧
    (before second first → [first, second].Sublist items) := by
  have sorted := pairwise_insertionSort before items
  have unique : (items.insertionSort before).Nodup := (perm_insertionSort before items).nodup_iff.mpr distinct
  have belongs : ∀ {a b : α}, [a, b].Sublist (items.insertionSort before) → before a b := fun pair =>
    pairwise_pair.mp (sorted.sublist pair)
  constructor
  · intro forward
    refine ⟨belongs forward, fun back => ?_⟩
    by_contra unordered
    by_cases same : first = second
    · subst same
      exact not_both unique forward forward
    · have backward := (pair_or_pair left right same).resolve_left unordered
      exact not_both unique forward (pair_sublist_insertionSort back backward)
  rintro ⟨belonging, tie⟩
  by_cases back : before second first
  · exact pair_sublist_insertionSort belonging (tie back)
  have differ : first ≠ second := fun same => back (same ▸ belonging)
  have member : ∀ {a : α}, a ∈ items → a ∈ items.insertionSort before := fun inside =>
    (perm_insertionSort before items).mem_iff.mpr inside
  exact (pair_or_pair (member left) (member right) differ).resolve_right fun pair => back (belongs pair)

end StableSort
