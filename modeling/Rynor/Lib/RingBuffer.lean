import Mathlib.Data.List.Basic

/-! Circular buffers: the sequence a range of cells holds, read from a head position that
wraps at the capacity. -/

namespace RingBuffer
open List
variable {α : Type} {cells : Nat → α} {capacity head count : Nat}

def contents (cells : Nat → α) (capacity head count : Nat) : List α :=
  (List.range count).map fun offset => cells ((head + offset) % capacity)

@[simp] lemma contents_length : (contents cells capacity head count).length = count := by
  simp [contents]

@[simp] lemma contents_zero : contents cells capacity head 0 = [] := rfl

/-- The sum wraps at most once. -/
lemma index_eq {offset} (inside : head < capacity) (short : offset ≤ capacity) :
    (head + offset) % capacity = if head + offset < capacity then head + offset else head + offset - capacity := by
  split
  next below => exact Nat.mod_eq_of_lt below
  rename_i beyond
  rw [Nat.mod_eq_sub_mod (Nat.not_lt.mp beyond), Nat.mod_eq_of_lt (by omega)]

lemma contents_take {wanted} (within : wanted ≤ count) :
    (contents cells capacity head count).take wanted = contents cells capacity head wanted := by
  rw [contents, ← map_take, take_range, Nat.min_eq_left within]
  rfl

lemma contents_drop {gone} (within : gone ≤ count) :
    (contents cells capacity head count).drop gone = contents cells capacity ((head + gone) % capacity)
    (count - gone) := by
  obtain ⟨rest, rfl⟩ := Nat.exists_eq_add_of_le within
  apply ext_getElem
  · simp
  · intro index _ _
    simp only [contents, getElem_drop, getElem_map, getElem_range]
    congr 1
    rw [Nat.mod_add_mod, Nat.add_assoc]

lemma contents_store (inside : head < capacity) (room : count < capacity) (item : α) :
    contents (Function.update cells ((head + count) % capacity) item) capacity head
    (count + 1) = contents cells capacity head count ++ [item] := by
  rw [contents, range_succ, map_append, map_singleton, Function.update_self]
  congr 1
  refine map_congr_left fun offset member => Function.update_of_ne ?_ _ _
  have before := mem_range.mp member
  rw [index_eq inside (by omega), index_eq inside (by omega)]
  split <;> split <;> omega

end RingBuffer
