import Mathlib.Data.List.Range

/-! Round-robin selection from a ring of slots: the first ready slot after the cursor, and why
no ready slot is overtaken. -/

namespace RoundRobin
open List
variable {ready : Nat → Bool} {size cursor next : Nat}
variable {first second start waiting : Nat}

/-- The first ready slot after the cursor, which itself is not considered. -/
def pick (ready : Nat → Bool) (size cursor : Nat) : Option Nat :=
  ((range' 1 (size - 1)).find? fun n => ready ((cursor + n) % size)).map fun n => (cursor + n) % size

/-- The steps from one slot forward to another. -/
def distance (size first second : Nat) : Nat := (second + size - first) % size

lemma distance_self (size first : Nat) : distance size first first = 0 := by
  rw [distance, Nat.add_sub_cancel_left, Nat.mod_self]

lemma distance_eq (within : first < size) (inside : second < size) :
    distance size first second = if first ≤ second then second - first else second + size - first := by
  unfold distance
  split
  · rw [show second + size - first = second - first + size by omega, Nat.add_mod_right, Nat.mod_eq_of_lt (by omega)]
  · exact Nat.mod_eq_of_lt (by omega)

/-- Walking on from `first` by the distance reaches `second`. -/
lemma add_distance (within : first < size) (inside : second < size) :
    (first + distance size first second) % size = second := by
  rw [distance_eq within inside]
  split
  · rw [Nat.add_sub_cancel' (by assumption), Nat.mod_eq_of_lt inside]
  · rw [show first + (second + size - first) = second + size by omega, Nat.add_mod_right, Nat.mod_eq_of_lt inside]

lemma distance_step {n} (within : cursor < size) (short : n < size) :
    distance size cursor ((cursor + n) % size) = n := by
  have cases : (cursor + n) % size = if cursor + n < size then cursor + n else cursor + n - size := by
    split
    next below => exact Nat.mod_eq_of_lt below
    next beyond => rw [Nat.mod_eq_sub_mod (not_lt.mp beyond), Nat.mod_eq_of_lt (by omega)]
  rw [distance_eq within (Nat.mod_lt _ (by omega)), cases]
  split <;> split <;> omega

/-- The picked slot is ready, is not the cursor, and no ready slot lies before it. -/
lemma pick_some (within : cursor < size) (picked : pick ready size cursor = some next) :
    next < size ∧ ready next = true ∧ next ≠ cursor ∧
      ∀ waiting < size, waiting ≠ cursor → ready waiting = true →
      distance size cursor next ≤ distance size cursor waiting := by
  obtain ⟨n, found, rfl⟩ := Option.map_eq_some_iff.mp picked
  obtain ⟨isReady, member, before⟩ := find?_range'_eq_some.mp found
  have bounds := mem_range'_1.mp member
  have length : distance size cursor ((cursor + n) % size) = n := distance_step within (by omega)
  refine ⟨Nat.mod_lt _ (by omega), isReady, ?_, ?_⟩
  · intro same
    rw [same, distance_self] at length
    omega
  intro waiting inside other alsoReady
  rw [length]
  by_contra nearer
  have apart : distance size cursor waiting ≠ 0 := by
    rw [distance_eq within inside]
    split <;> omega
  have unready := before (distance size cursor waiting) (by omega) (by omega)
  rw [add_distance within inside, alsoReady] at unready
  cases unready

/-- A pick comes nearer to every ready slot. -/
lemma pick_nearer (within : cursor < size) (inside : waiting < size) (other : waiting ≠ cursor)
    (isReady : ready waiting = true)
    (picked : pick ready size cursor = some next) : distance size next waiting < distance size cursor waiting := by
  obtain ⟨below, -, moved, nearest⟩ := pick_some within picked
  have near := nearest waiting inside other isReady
  rw [distance_eq within below, distance_eq within inside] at near
  rw [distance_eq below inside, distance_eq within inside]
  clear nearest picked
  split_ifs at near ⊢ <;> omega

/-- Seen from `start`, the cursor has not come to `waiting` yet. -/
def Ahead (size start cursor waiting : Nat) : Prop := distance size start cursor < distance size start waiting

lemma ahead_start (within : start < size) (inside : waiting < size) (other : waiting ≠ start) :
    Ahead size start start waiting := by
  rw [Ahead, distance_self, distance_eq within inside]
  split <;> omega

/-- While a ready slot is ahead of the cursor, a pick takes that slot or stops before it, and
in either case does not come back to the start. -/
lemma Ahead.pick (ahead : Ahead size start cursor waiting) (known : start < size) (within : cursor < size)
    (inside : waiting < size) (isReady : ready waiting = true) (picked : pick ready size cursor = some next) :
    next ≠ start ∧ (next = waiting ∨ Ahead size start next waiting) := by
  obtain ⟨below, -, moved, nearest⟩ := pick_some within picked
  have other : waiting ≠ cursor := by
    rintro rfl
    exact lt_irrefl _ ahead
  have near := nearest waiting inside other isReady
  unfold Ahead at ahead ⊢
  rw [distance_eq known within, distance_eq known inside] at ahead
  rw [distance_eq within below, distance_eq within inside] at near
  rw [distance_eq known below, distance_eq known inside]
  clear nearest picked
  split_ifs at ahead near ⊢ <;> omega

end RoundRobin
