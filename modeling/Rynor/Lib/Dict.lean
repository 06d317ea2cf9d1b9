import Mathlib.Data.List.Nodup

/-! Dictionaries in insertion order. An update keeps the place of its key; a new key goes last. -/

abbrev Dict (κ α : Type) := List (κ × α)

namespace Dict
open List
variable {κ α : Type} [DecidableEq κ] {dict : Dict κ α} {key : κ} {value : α}

def get? (dict : Dict κ α) (key : κ) : Option α :=
  match dict with
  | [] => none
  | (own, value) :: rest => if own = key then some value else get? rest key

def set (dict : Dict κ α) (key : κ) (value : α) : Dict κ α :=
  match dict with
  | [] => [(key, value)]
  | (own, old) :: rest => if own = key then (own, value) :: rest else (own, old) :: set rest key value

def keys (dict : Dict κ α) : List κ := dict.map (·.1)

def has (dict : Dict κ α) (key : κ) : Bool := (dict.get? key).isSome

/-- Adds a key that is new and leaves one that is there. -/
def setDefault (dict : Dict κ α) (key : κ) (value : α) : Dict κ α := if dict.has key then dict else dict.set key value

lemma get?_cons (own key : κ) (value : α) (rest : Dict κ α) :
    get? ((own, value) :: rest) key = if own = key then some value else get? rest key := rfl

lemma get?_set (dict : Dict κ α) (key other : κ) (value : α) :
    (dict.set key value).get? other = if key = other then some value else dict.get? other := by
  induction dict with
  | nil => rfl
  | cons entry rest ih =>
    obtain ⟨own, old⟩ := entry
    by_cases same : own = key
    · subst same
      rw [set, if_pos rfl, get?_cons, get?_cons]
      split <;> rfl
    · rw [set, if_neg same, get?_cons, get?_cons, ih]
      split <;> split <;> simp_all

lemma get?_eq_some_mem (found : dict.get? key = some value) : (key, value) ∈ dict := by
  induction dict with
  | nil => cases found
  | cons entry rest ih =>
    obtain ⟨own, old⟩ := entry
    rw [get?_cons] at found
    split at found
    next same => cases found; subst same; exact mem_cons_self
    next => exact mem_cons_of_mem _ (ih found)

lemma has_iff_mem_keys : dict.has key = true ↔ key ∈ dict.keys := by
  induction dict with
  | nil => exact ⟨nofun, nofun⟩
  | cons entry rest ih =>
    obtain ⟨own, old⟩ := entry
    rw [has, get?_cons, keys, map_cons, mem_cons]
    split
    next same => exact ⟨fun _ => .inl same.symm, fun _ => rfl⟩
    next differs => exact ih.trans ⟨.inr, fun either => either.resolve_left fun same => differs same.symm⟩

lemma keys_set (dict : Dict κ α) (key : κ) (value : α) :
    (dict.set key value).keys = if key ∈ dict.keys then dict.keys else dict.keys ++ [key] := by
  induction dict with
  | nil => rfl
  | cons entry rest ih =>
    obtain ⟨own, old⟩ := entry
    by_cases same : own = key
    · subst same
      simp [set, keys]
    have head : (set ((own, old) :: rest) key value).keys = own :: (set rest key value).keys := by
      rw [set, if_neg same]
      rfl
    have whole : keys ((own, old) :: rest) = own :: keys rest := rfl
    rw [head, ih, whole]
    by_cases inside : key ∈ keys rest
    · rw [if_pos inside, if_pos (mem_cons_of_mem _ inside)]
    rw [if_neg inside, if_neg (not_mem_cons_of_ne_of_not_mem (fun equal => same equal.symm) inside)]
    rfl

lemma mem_keys_set {other} : other ∈ (dict.set key value).keys ↔ other = key ∨ other ∈ dict.keys := by
  rw [keys_set]
  split
  next inside => exact ⟨.inr, fun either => either.elim (fun same => same ▸ inside) id⟩
  next => rw [mem_append, mem_singleton, or_comm]

lemma nodup_keys_set (distinct : dict.keys.Nodup) (key : κ) (value : α) : (dict.set key value).keys.Nodup := by
  rw [keys_set]
  split
  next => exact distinct
  rename_i outside
  exact nodup_append.mpr ⟨distinct, nodup_singleton key, fun a inside b single same => by
    rw [mem_singleton] at single
    exact outside (single ▸ same ▸ inside)⟩

lemma get?_of_mem (distinct : dict.keys.Nodup) (inside : (key, value) ∈ dict) : dict.get? key = some value := by
  induction dict with
  | nil => cases inside
  | cons entry rest ih =>
    obtain ⟨own, old⟩ := entry
    obtain ⟨fresh, distinct⟩ := nodup_cons.mp distinct
    rw [get?_cons]
    rcases mem_cons.mp inside with same | later
    · cases same
      rw [if_pos rfl]
    have differs : own ≠ key := by
      rintro rfl
      exact fresh (mem_map.mpr ⟨_, later, rfl⟩)
    rw [if_neg differs]
    exact ih distinct later

lemma get?_of_mem_keys (inside : key ∈ dict.keys) : ∃ value, dict.get? key = some value :=
  Option.isSome_iff_exists.mp (has_iff_mem_keys.mpr inside)

end Dict
