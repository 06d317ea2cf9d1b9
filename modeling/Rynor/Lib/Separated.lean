import Mathlib.Data.List.Basic

/-! Sequences cut at a separator: the prefixes that end before a separator are the joins of
the first parts. -/

namespace Separated
open List
variable {α : Type}

/-- No part contains the separator. -/
lemma splitOn_clear [BEq α] [LawfulBEq α] (sep : α) (items : List α) : ∀ part ∈ items.splitOn sep, sep ∉ part := by
  induction size : items.length using Nat.strongRecOn generalizing items with
  | ind size' ih =>
    by_cases held : sep ∈ items
    · obtain ⟨first, rest, rfl, clear⟩ := eq_append_cons_of_mem held
      rw [splitOn_append_cons_self_of_not_mem clear]
      intro part member
      rcases mem_cons.mp member with rfl | later
      · exact clear
      refine ih rest.length ?_ rest rfl part later
      rw [← size, length_append, length_cons]
      omega
    rw [splitOn_eq_singleton held]
    intro part member
    rw [mem_singleton.mp member]
    exact held

/-- Where a separator stands in a join, and what is before it. -/
lemma before_separator_iff {sep : α} {parts : List (List α)} (clear : ∀ part ∈ parts, sep ∉ part) {before : List α} :
    (∃ stop, ([sep].intercalate parts)[stop]? = some sep ∧ ([sep].intercalate parts).take stop = before) ↔
      ∃ depth, 0 < depth ∧ depth < parts.length ∧ [sep].intercalate (parts.take depth) = before := by
  induction parts generalizing before with
  | nil => simp
  | cons part parts ih =>
    have none : ∀ stop, part[stop]? ≠ some sep := fun stop held => clear part (by simp) (mem_of_getElem? held)
    cases parts with
    | nil =>
      rw [intercalate_singleton]
      constructor
      · rintro ⟨stop, cut, _⟩
        exact absurd cut (none stop)
      · rintro ⟨depth, low, high, _⟩
        simp only [length_cons, length_nil] at high
        omega
    | cons next rest =>
      have later := fun {before} => @ih (fun other member => clear other (mem_cons_of_mem _ member)) before
      have joined : ∀ {depth}, 0 < depth → [sep].intercalate ((part :: next :: rest).take (depth + 1)) =
          part ++ sep :: [sep].intercalate ((next :: rest).take depth) := by
        intro depth positive
        rw [take_succ_cons, intercalate_cons_of_ne_nil, append_assoc, singleton_append]
        intro empty
        simp only [take_eq_nil_iff, reduceCtorEq, or_false] at empty
        omega
      rw [intercalate_cons_cons]
      simp only [append_assoc, singleton_append]
      constructor
      · rintro ⟨stop, cut, rfl⟩
        rcases Nat.lt_trichotomy stop part.length with short | rfl | long
        · rw [getElem?_append_left short] at cut
          exact absurd cut (none stop)
        · exact ⟨1, by omega, by simp, by simp⟩
        obtain ⟨shift, rfl⟩ := Nat.exists_eq_add_of_lt long
        rw [getElem?_append_right (by omega), show part.length + shift + 1 - part.length = shift + 1 by
          omega, getElem?_cons_succ] at cut
        obtain ⟨depth, low, high, same⟩ := later.mp ⟨shift, cut, rfl⟩
        refine ⟨depth + 1, by omega, by simpa using high, ?_⟩
        rw [joined low, same, show part.length + shift + 1 = part.length + (shift + 1) by
          omega, take_length_add_append, take_succ_cons]
      rintro ⟨depth, low, high, rfl⟩
      rcases depth with _ | depth
      · omega
      by_cases first : depth = 0
      · subst first
        exact ⟨part.length, by simp, by simp⟩
      obtain ⟨stop, cut, same⟩ := later.mpr ⟨depth, by omega, by simpa using high, rfl⟩
      refine ⟨part.length + (stop + 1), ?_, ?_⟩
      · rw [getElem?_append_right (by omega), Nat.add_sub_cancel_left, getElem?_cons_succ]
        exact cut
      · rw [joined (by omega), take_length_add_append, take_succ_cons, same]

end Separated
