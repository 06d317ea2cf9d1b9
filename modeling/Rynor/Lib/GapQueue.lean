import Mathlib.Data.List.Basic

/-! Queues that report gaps. A producer stamps each item with an epoch that every lost item
moves on; a consumer remembers the epoch it has seen, and reports a gap whenever the next item
carries another one. -/

namespace GapQueue
open List
variable {α : Type}

/-- What one event means to an observer of a stream. -/
inductive Mark (α : Type)
  | item (value : α)
  | gap
  | quiet
  deriving DecidableEq, Repr

/-- The items observed so far, each with whether a gap came right before it, and whether one
came after the last of them. -/
structure Tape (α : Type) where
  items : List (Bool × α)
  broken : Bool
  deriving DecidableEq, Repr

namespace Tape

def blank : Tape α := ⟨[], false⟩

def mark (tape : Tape α) : Mark α → Tape α
  | .item value => ⟨tape.items ++ [(tape.broken, value)], false⟩
  | .gap => ⟨tape.items, true⟩
  | .quiet => tape

end Tape

/-- The stamped items, each with whether its stamp differs from the one before. -/
def flagged (last : Nat) : List (Nat × α) → List (Bool × α)
  | [] => []
  | (epoch, value) :: rest => (decide (last ≠ epoch), value) :: flagged epoch rest

def lastEpoch (last : Nat) : List (Nat × α) → Nat
  | [] => last
  | (epoch, _) :: rest => lastEpoch epoch rest

/-- The epoch a consumer sees: that of the first item, or the current one. -/
def visible (queue : List (Nat × α)) (epoch : Nat) : Nat := (queue.head?.map Prod.fst).getD epoch

lemma flagged_snoc (last : Nat) (queue : List (Nat × α)) (epoch : Nat) (value : α) :
    flagged last (queue ++ [(epoch, value)]) = flagged last queue ++
    [(decide (lastEpoch last queue ≠ epoch), value)] := by
  induction queue generalizing last with
  | nil => rfl
  | cons sample rest ih =>
    rw [cons_append, flagged, ih]
    rfl

lemma lastEpoch_snoc (last : Nat) (queue : List (Nat × α)) (epoch : Nat) (value : α) :
    lastEpoch last (queue ++ [(epoch, value)]) = epoch := by
  induction queue generalizing last with
  | nil => rfl
  | cons sample rest ih => simp only [cons_append, lastEpoch, ih]

lemma lastEpoch_le {last bound : Nat} {queue : List (Nat × α)} (start : last ≤ bound)
    (stamps : ∀ sample ∈ queue, sample.1 ≤ bound) : lastEpoch last queue ≤ bound := by
  induction queue generalizing last with
  | nil => exact start
  | cons sample rest ih =>
    exact ih (stamps sample (by simp)) fun other member => stamps other (by simp [member])

@[simp] lemma flagged_values (last : Nat) (queue : List (Nat × α)) :
    (flagged last queue).map Prod.snd = queue.map Prod.snd := by
  induction queue generalizing last with
  | nil => rfl
  | cons sample rest ih => simp [flagged, ih]

/-- The two observers and the queue between them, where `last` is the stamp of the item
delivered last and `seen` the epoch the consumer remembers. -/
structure Tracks (last : Nat) (arrived delivered : Tape α) (queue : List (Nat × α)) (epoch seen : Nat) : Prop where
  items : arrived.items = delivered.items ++ flagged last queue
  arriving : arrived.broken = decide (lastEpoch last queue ≠ epoch)
  delivering : delivered.broken = decide (last ≠ seen)
  last_le : last ≤ seen
  seen_le : seen ≤ epoch
  seen_le_stamps : ∀ sample ∈ queue, seen ≤ sample.1
  stamps_le : ∀ sample ∈ queue, sample.1 ≤ epoch
  ordered : queue.Pairwise (fun early late => early.1 ≤ late.1)

namespace Tracks
variable {last epoch seen : Nat} {arrived delivered : Tape α} {queue : List (Nat × α)}

lemma blank : Tracks 0 (.blank : Tape α) .blank [] 0 0 := by
  constructor <;> simp [Tape.blank, flagged, lastEpoch]

section
variable (tracks : Tracks last arrived delivered queue epoch seen)
include tracks

/-- The items that are not delivered are those in the queue. -/
lemma waiting : arrived.items.length - delivered.items.length = queue.length := by
  have values := congrArg length (flagged_values last queue)
  rw [length_map, length_map] at values
  rw [tracks.items, length_append, values, Nat.add_sub_cancel_left]

lemma accept (value : α) :
    Tracks last (arrived.mark (.item value)) delivered (queue ++ [(epoch, value)]) epoch seen where
  items := by rw [flagged_snoc, ← append_assoc, ← tracks.items, ← tracks.arriving]; rfl
  arriving := by simp [Tape.mark, lastEpoch_snoc]
  delivering := tracks.delivering
  last_le := tracks.last_le
  seen_le := tracks.seen_le
  seen_le_stamps := by
    simp only [mem_append, mem_singleton]
    rintro sample (member | rfl)
    exacts [tracks.seen_le_stamps sample member, tracks.seen_le]
  stamps_le := by
    simp only [mem_append, mem_singleton]
    rintro sample (member | rfl)
    exacts [tracks.stamps_le sample member, Nat.le_refl _]
  ordered := by
    refine pairwise_append.mpr ⟨tracks.ordered, pairwise_singleton .., ?_⟩
    intro early member late final
    rw [mem_singleton.mp final]
    exact tracks.stamps_le early member

lemma lose : Tracks last (arrived.mark .gap) delivered queue (epoch + 1) seen where
  items := tracks.items
  arriving := by
    have below := lastEpoch_le (Nat.le_trans tracks.last_le tracks.seen_le) tracks.stamps_le
    simp only [Tape.mark, ne_eq]
    exact (decide_eq_true (by omega)).symm
  delivering := tracks.delivering
  last_le := tracks.last_le
  seen_le := Nat.le_succ_of_le tracks.seen_le
  seen_le_stamps := tracks.seen_le_stamps
  stamps_le := fun sample member => Nat.le_succ_of_le (tracks.stamps_le sample member)
  ordered := tracks.ordered

/-- The consumer moves on to the epoch it sees and reports a gap. -/
lemma report (moved : visible queue epoch ≠ seen) :
    Tracks last arrived (delivered.mark .gap) queue epoch (visible queue epoch) := by
  have later : seen ≤ visible queue epoch ∧ visible queue epoch ≤ epoch ∧
    ∀ sample ∈ queue, visible queue epoch ≤ sample.1 := by
    cases queue with
    | nil => exact ⟨tracks.seen_le, Nat.le_refl _, by simp⟩
    | cons sample rest =>
      refine ⟨tracks.seen_le_stamps sample (by simp), tracks.stamps_le sample (by simp), ?_⟩
      rintro other (_ | ⟨_, member⟩)
      exacts [Nat.le_refl _, (pairwise_cons.mp tracks.ordered).1 other member]
  have before := tracks.last_le
  refine ⟨tracks.items, tracks.arriving, ?_, Nat.le_trans before later.1, later.2.1, later.2.2,
    tracks.stamps_le, tracks.ordered⟩
  simp only [Tape.mark, ne_eq]
  exact (decide_eq_true (by omega)).symm

end

/-- The consumer takes an item of the epoch it remembers. -/
lemma deliver {value} (tracks : Tracks last arrived delivered ((seen, value) :: queue) epoch seen) :
    Tracks seen arrived (delivered.mark (.item value)) queue epoch seen where
  items := by
    rw [tracks.items, Tape.mark, tracks.delivering]
    simp [flagged]
  arriving := tracks.arriving
  delivering := by simp [Tape.mark]
  last_le := Nat.le_refl _
  seen_le := tracks.seen_le
  seen_le_stamps := fun sample member => tracks.seen_le_stamps sample (by simp [member])
  stamps_le := fun sample member => tracks.stamps_le sample (by simp [member])
  ordered := (pairwise_cons.mp tracks.ordered).2

end Tracks
end GapQueue
