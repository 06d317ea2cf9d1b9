import Mathlib.Algebra.GroupWithZero.Nat
import Mathlib.Data.List.Chain

/-! An interval cut into segments, each free or used: their places, a used segment carved out of
a free one, and a used one given back together with its free neighbours. -/

namespace Segments
open List

structure Segment where
  size : Nat
  free : Bool
  deriving DecidableEq, Repr

def total (xs : List Segment) : Nat := (xs.map Segment.size).sum

/-- The segments with the addresses they start at. -/
def place : Nat → List Segment → List (Nat × Segment)
  | _, [] => []
  | a, x :: xs => (a, x) :: place (a + x.size) xs

def usedBytes (xs : List Segment) : Nat := total (xs.filter fun x => !x.free)

def usedCount (xs : List Segment) : Nat := xs.countP fun x => !x.free

def freeCount (xs : List Segment) : Nat := xs.countP Segment.free

/-- No two neighbours are free. -/
def Settled (xs : List Segment) : Prop := xs.IsChain fun x y => ¬(x.free = true ∧ y.free = true)

/-- A free segment with a used part in it; an empty rest is no segment. -/
def carve (lead used tail : Nat) : List Segment :=
  (if lead = 0 then [] else [⟨lead, true⟩]) ++ ⟨used, false⟩ :: (if tail = 0 then [] else [⟨tail, true⟩])

variable {xs ys : List Segment} {x : Segment} {a b size lead used tail : Nat}

@[simp] lemma total_nil : total [] = 0 := rfl

@[simp] lemma total_cons (x : Segment) (xs : List Segment) : total (x :: xs) = x.size + total xs := by simp [total]

@[simp] lemma total_append (xs ys : List Segment) : total (xs ++ ys) = total xs + total ys := by simp [total]

/-! Places. -/

lemma place_append (a : Nat) (xs ys : List Segment) : place a (xs ++ ys) = place a xs ++ place (a + total xs) ys := by
  induction xs generalizing a with
  | nil => rfl
  | cons x xs ih => simp only [cons_append, place, ih, total_cons, add_assoc]

lemma mem_place_iff : (b, x) ∈ place a xs ↔ ∃ before after, xs = before ++ x :: after ∧ b = a + total before := by
  constructor
  · intro member
    induction xs generalizing a with
    | nil => cases member
    | cons y ys ih =>
      rcases mem_cons.mp member with here | later
      · cases here
        exact ⟨[], ys, rfl, rfl⟩
      · obtain ⟨before, after, rfl, rfl⟩ := ih later
        exact ⟨y :: before, after, rfl, by simp only [total_cons, add_assoc]⟩
  · rintro ⟨before, after, rfl, rfl⟩
    rw [place_append]
    exact mem_append_right _ mem_cons_self

lemma mem_of_place (member : (b, x) ∈ place a xs) : x ∈ xs := by
  obtain ⟨before, after, rfl, -⟩ := mem_place_iff.mp member
  simp

lemma place_bounds (member : (b, x) ∈ place a xs) : a ≤ b ∧ b + x.size ≤ a + total xs := by
  obtain ⟨before, after, rfl, rfl⟩ := mem_place_iff.mp member
  simp only [total_append, total_cons]
  omega

lemma place_apart (a : Nat) (xs : List Segment) :
    (place a xs).Pairwise fun first second => first.1 + first.2.size ≤ second.1 := by
  induction xs generalizing a with
  | nil => exact .nil
  | cons x xs ih => exact pairwise_cons.mpr ⟨fun later member => (place_bounds member).1, ih _⟩

/-- Segments at different addresses do not meet. -/
lemma place_disjoint {c y} (first : (b, x) ∈ place a xs) (second : (c, y) ∈ place a xs) (apart : b ≠ c) :
    b + x.size ≤ c ∨ c + y.size ≤ b := by
  obtain ⟨i, iShort, here⟩ := mem_iff_getElem.mp first
  obtain ⟨j, jShort, there⟩ := mem_iff_getElem.mp second
  have order := pairwise_iff_getElem.mp (place_apart a xs)
  rcases lt_trichotomy i j with before | same | after
  · have left := order i j iShort jShort before
    rw [here, there] at left
    exact .inl left
  · subst same
    exact absurd (congrArg Prod.fst (here.symm.trans there)) apart
  · have right := order j i jShort iShort after
    rw [here, there] at right
    exact .inr right

/-- A place names one segment, where none is empty. -/
lemma place_unique {y} (sizes : ∀ x ∈ xs, 0 < x.size) (first : (b, x) ∈ place a xs) (second : (b, y) ∈ place a xs) :
    x = y := by
  obtain ⟨i, iShort, here⟩ := mem_iff_getElem.mp first
  obtain ⟨j, jShort, there⟩ := mem_iff_getElem.mp second
  have order := pairwise_iff_getElem.mp (place_apart a xs)
  have positive {c : Nat} {z : Segment} (member : (c, z) ∈ place a xs) : 0 < z.size := sizes z (mem_of_place member)
  rcases lt_trichotomy i j with before | same | after
  · have left := order i j iShort jShort before
    rw [here, there] at left
    dsimp only at left
    have nonempty := positive first
    omega
  · subst same
    exact congrArg Prod.snd (here.symm.trans there)
  · have right := order j i jShort iShort after
    rw [here, there] at right
    dsimp only at right
    have nonempty := positive second
    omega

/-! Counters. -/

lemma usedBytes_append (xs ys : List Segment) : usedBytes (xs ++ ys) = usedBytes xs + usedBytes ys := by
  simp [usedBytes]

lemma usedBytes_cons (x : Segment) (xs : List Segment) :
    usedBytes (x :: xs) = (if x.free then 0 else x.size) + usedBytes xs := by
  cases isFree : x.free <;> simp [usedBytes, isFree]

lemma usedCount_append (xs ys : List Segment) : usedCount (xs ++ ys) = usedCount xs + usedCount ys := countP_append

lemma usedCount_cons (x : Segment) (xs : List Segment) :
    usedCount (x :: xs) = (if x.free then 0 else 1) + usedCount xs := by
  cases isFree : x.free <;> simp [usedCount, isFree, add_comm]

lemma freeCount_append (xs ys : List Segment) : freeCount (xs ++ ys) = freeCount xs + freeCount ys := countP_append

lemma freeCount_cons (x : Segment) (xs : List Segment) :
    freeCount (x :: xs) = (if x.free then 1 else 0) + freeCount xs := by
  cases isFree : x.free <;> simp [freeCount, isFree, add_comm]

lemma all_free_counts (allFree : ∀ x ∈ xs, x.free = true) :
    usedBytes xs = 0 ∧ usedCount xs = 0 ∧ freeCount xs = xs.length := by
  refine ⟨?_, countP_eq_zero.mpr fun x member => ?_, countP_eq_length.mpr allFree⟩
  · rw [usedBytes, filter_eq_nil_iff.mpr fun x member => ?_, total_nil]
    simp [allFree x member]
  · simp [allFree x member]

/-! Free neighbours. -/

lemma settled_used : Settled (xs ++ ⟨size, false⟩ :: ys) ↔ Settled xs ∧ Settled ys := by
  simp [Settled, isChain_append, isChain_cons]

lemma settled_free : Settled (xs ++ ⟨size, true⟩ :: ys) ↔
    Settled xs ∧ Settled ys ∧ (∀ x ∈ xs.getLast?, x.free = false) ∧ ∀ y ∈ ys.head?, y.free = false := by
  simp only [Settled, isChain_append, isChain_cons, head?_cons, Option.mem_def, Option.some.injEq, forall_eq',
    true_and, and_true, Bool.not_eq_true]
  tauto

lemma carve_total (lead used tail : Nat) : total (carve lead used tail) = lead + used + tail := by
  unfold carve
  split_ifs <;> simp <;> omega

lemma Settled.carve (settled : Settled (xs ++ ⟨size, true⟩ :: ys)) (lead used tail : Nat) :
    Settled (xs ++ (carve lead used tail ++ ys)) := by
  obtain ⟨before, after, left, right⟩ := settled_free.mp settled
  have leading : Settled (xs ++ if lead = 0 then [] else [⟨lead, true⟩]) := by
    split
    · rwa [append_nil]
    · exact settled_free.mpr ⟨before, isChain_nil, left, by simp⟩
  have trailing : Settled ((if tail = 0 then [] else [⟨tail, true⟩]) ++ ys) := by
    split
    · exact after
    · exact (@settled_free [] ys tail).mpr ⟨isChain_nil, after, by simp, right⟩
  rw [Segments.carve, append_assoc, cons_append, ← append_assoc]
  exact settled_used.mpr ⟨leading, trailing⟩

/-- What is free right after a segment. -/
lemma Settled.free_after (settled : Settled ys) :
    ∃ taken rest, ys = taken ++ rest ∧ (taken = [] ∨ ∃ size, taken = [⟨size, true⟩]) ∧ Settled rest ∧
    ∀ y ∈ rest.head?, y.free = false := by
  match ys, settled with
  | [], settled => exact ⟨[], [], rfl, .inl rfl, settled, by simp⟩
  | ⟨size, false⟩ :: rest, settled => exact ⟨[], ⟨size, false⟩ :: rest, rfl, .inl rfl, settled, by simp⟩
  | ⟨size, true⟩ :: rest, settled =>
    obtain ⟨-, after, -, right⟩ := (@settled_free [] rest size).mp settled
    exact ⟨[⟨size, true⟩], rest, rfl, .inr ⟨size, rfl⟩, after, right⟩

/-- What is free right before a segment. -/
lemma Settled.free_before (settled : Settled xs) :
    ∃ rest taken, xs = rest ++ taken ∧ (taken = [] ∨ ∃ size, taken = [⟨size, true⟩]) ∧ Settled rest ∧
    ∀ x ∈ rest.getLast?, x.free = false := by
  rcases eq_nil_or_concat xs with rfl | ⟨rest, ⟨size, _ | _⟩, rfl⟩
  · exact ⟨[], [], rfl, .inl rfl, settled, by simp⟩
  · exact ⟨rest ++ [⟨size, false⟩], [], by simp, .inl rfl, by simpa using settled, by simp⟩
  · rw [concat_eq_append] at settled ⊢
    obtain ⟨before, -, left, -⟩ := settled_free.mp settled
    exact ⟨rest, [⟨size, true⟩], rfl, .inr ⟨size, rfl⟩, before, left⟩

/-- If nothing is used there is one free segment. -/
lemma Settled.single (settled : Settled xs) (unused : usedCount xs = 0) (nonempty : 0 < total xs) :
    xs = [⟨total xs, true⟩] := by
  have allFree : ∀ x ∈ xs, x.free = true := by simpa [usedCount] using unused
  match xs, settled, allFree with
  | [], _, _ => cases nonempty
  | [⟨size, free⟩], _, allFree =>
    have isFree : free = true := allFree _ mem_cons_self
    simp [isFree]
  | x :: y :: rest, settled, allFree =>
    have both := (isChain_cons_cons.mp settled).1
    exact absurd ⟨allFree x (by simp), allFree y (by simp)⟩ both

end Segments
