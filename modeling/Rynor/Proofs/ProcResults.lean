import Rynor.Proofs.ProcSystem

/-! Results of processes over whole runs: what a handle decodes to, what a terminal record
keeps, and how often a result is delivered. A handle holds 32 bits of a wider generation. -/

namespace Rynor.Proc
open Outcome List
open Function (update update_self update_of_ne)
variable {slot gen i j : Nat} {state next : State} {new : Slot}

/-! Handles. -/

lemma packHandle_slot (inside : slot < maxProcs) : packHandle slot gen % 2 ^ 32 = slot := by
  simp only [packHandle, u64]
  simp only [maxProcs] at inside
  omega

lemma packHandle_gen (inside : slot < maxProcs) : packHandle slot gen / 2 ^ 32 = gen % 2 ^ 32 := by
  simp only [packHandle, u64]
  simp only [maxProcs] at inside
  omega

/-- The handle of a held slot decodes exactly while the generation fits its half. -/
lemma decode_packHandle (sound : Sound state) (inside : slot < maxProcs) (held : (state.slots slot).state ≠ .free) :
    decode state (packHandle slot (state.slots slot).gen) = some slot ↔ (state.slots slot).gen < 2 ^ 32 := by
  have index : packHandle slot (state.slots slot).gen % 2 ^ 32 = slot := packHandle_slot inside
  have upper : packHandle slot (state.slots slot).gen / 2 ^ 32 = (state.slots slot).gen % 2 ^ 32 :=
    packHandle_gen inside
  constructor
  · intro decoded
    obtain ⟨-, -, -, gen⟩ := decode_some decoded
    rw [gen, upper]
    exact Nat.mod_lt _ (by decide)
  intro small
  have same : (state.slots slot).gen = packHandle slot (state.slots slot).gen / 2 ^ 32 := by
    rw [upper, Nat.mod_eq_of_lt small]
  have positive := (sound.tables.slot slot inside).gen
  generalize packHandle slot (state.slots slot).gen = handle at index same
  subst index
  exact decode_of sound.ready inside held same (by rw [← same]; exact positive)

/-! Histories. -/

/-- Each admission is reaped or still held, generations only grow past the reaped ones, and
each result names a reaped process of its own. -/
structure History (slots : Nat → Slot) (admitted : List Admission) (reaped : List (Nat × Nat))
    (delivered : List (Nat × ProcStatus)) : Prop where
  inside : ∀ a ∈ admitted, a.slot < maxProcs ∧ a.handle = packHandle a.slot a.gen
  held : ∀ a ∈ admitted, (a.slot, a.gen) ∈ reaped ∨ ((slots a.slot).state ≠ .free ∧ (slots a.slot).gen = a.gen)
  past : ∀ i gen, (i, gen) ∈ reaped → gen < (slots i).gen
  named : ∀ handle status, (handle, status) ∈ delivered → (handle % 2 ^ 32, handle / 2 ^ 32) ∈ reaped
  once : (delivered.map Prod.fst).Nodup

/-- Slots that were held still are, and no generation moves. -/
def Keeps (slots next : Nat → Slot) : Prop :=
  ∀ j, (next j).gen = (slots j).gen ∧ ((slots j).state ≠ .free → (next j).state ≠ .free)

section
variable {slots next : Nat → Slot} {admitted : List Admission} {reaped : List (Nat × Nat)}
  {delivered : List (Nat × ProcStatus)} {i : Nat}

lemma Keeps.set {slot} (gen : slot.gen = (slots i).gen) (held : (slots i).state ≠ .free → slot.state ≠ .free) :
    Keeps slots (update slots i slot) := by
  intro j
  by_cases here : j = i
  · subst here
    rw [update_self]
    exact ⟨gen, held⟩
  · rw [update_of_ne here]
    exact ⟨rfl, id⟩

section
variable (history : History slots admitted reaped delivered)
include history

lemma History.keeps (keeps : Keeps slots next) : History next admitted reaped delivered := by
  refine ⟨history.inside, fun a member => ?_, fun j gen member => ?_, history.named, history.once⟩
  · obtain ⟨same, held⟩ := keeps a.slot
    rcases history.held a member with gone | ⟨inUse, current⟩
    · exact .inl gone
    · exact .inr ⟨held inUse, same.trans current⟩
  · rw [(keeps j).1]
    exact history.past j gen member

lemma History.admit (inside : i < maxProcs) (held : (slots i).state ≠ .free)
    (owner : Int) :
    History slots (admitted ++ [⟨i, (slots i).gen, owner, packHandle i (slots i).gen⟩]) reaped delivered := by
  refine ⟨fun a member => ?_, fun a member => ?_, history.past, history.named, history.once⟩
  · rcases mem_append.mp member with earlier | last
    · exact history.inside a earlier
    · cases mem_singleton.mp last
      exact ⟨inside, rfl⟩
  · rcases mem_append.mp member with earlier | last
    · exact history.held a earlier
    · cases mem_singleton.mp last
      exact .inr ⟨held, rfl⟩

lemma History.recycle (later : bump (slots i).gen = (slots i).gen + 1) :
    History (update slots i (slots i).recycled) admitted (reaped ++ [(i, (slots i).gen)]) delivered := by
  have fresh : (update slots i (slots i).recycled i).gen = (slots i).gen + 1 := by
    rw [update_self]
    exact later
  refine ⟨history.inside, fun a member => ?_, fun j gen member => ?_, fun handle status member => ?_, history.once⟩
  · rcases history.held a member with gone | ⟨inUse, current⟩
    · exact .inl (mem_append_left _ gone)
    by_cases here : a.slot = i
    · left
      rw [← current, here]
      exact mem_append_right _ (mem_singleton.mpr rfl)
    right
    rw [update_of_ne here]
    exact ⟨inUse, current⟩
  · rcases mem_append.mp member with earlier | last
    · have below := history.past j gen earlier
      by_cases here : j = i
      · subst here
        omega
      · rw [update_of_ne here]
        exact below
    · cases mem_singleton.mp last
      omega
  · exact mem_append_left _ (history.named handle status member)

end

/-- A result for a process that was not reaped before is the first under its handle. -/
lemma History.deliver {handle}  (status : ProcStatus) (history : History slots admitted reaped delivered)
    (gone : (handle % 2 ^ 32, handle / 2 ^ 32) ∈ reaped) (first : ∀ status, (handle, status) ∉ delivered) :
    History slots admitted reaped (delivered ++ [(handle, status)]) := by
  refine ⟨history.inside, history.held, history.past, fun other result member => ?_, ?_⟩
  · rcases mem_append.mp member with earlier | last
    · exact history.named other result earlier
    · cases mem_singleton.mp last
      exact gone
  rw [map_append, nodup_append]
  refine ⟨history.once, by simp, fun name member other last same => ?_⟩
  obtain ⟨⟨name, result⟩, here, rfl⟩ := mem_map.mp member
  rw [map_cons, map_nil, mem_singleton] at last
  cases last
  cases same
  exact first result here

end

lemma Sound.bump (sound : Sound state) (inside : i < maxProcs) (held : (state.slots i).state ≠ .free) :
    Proc.bump (state.slots i).gen = (state.slots i).gen + 1 :=
  bump_le (sound.workers.genHeld i inside held) sound.workers.bound

lemma Change.history (change : Change state next) (sound : Sound state)
    (history : History state.slots state.admitted state.reaped state.delivered) :
    History next.slots next.admitted next.reaped next.delivered := by
  cases change with
  | phase => exact history
  | terminal i c id before after slot context env pipe inside active ctx running live recorded =>
    refine history.keeps (.set ?_ fun _ => recorded.ended.ne_free)
    rw [recorded.same]
  | edit edit =>
    cases edit with
    | contexts | attach | ring => exact history
    | kill i | reparent _ | reselect _ | join _ => exact history.keeps (.set rfl id)
    | admission i c slot context inside isFree unused room admitted =>
      have kept := history.keeps (.set admitted.gen fun held => absurd isFree held)
      have here : update state.slots i slot i = slot := update_self ..
      have more := kept.admit inside (by rw [here, admitted.active]; decide) slot.owner
      rw [here] at more
      exact more
    | recycle i c _ joined => exact history.recycle (sound.bump joined.1 joined.2.1)
    | deliver i c handle _ status _ joined ctx childless decoded =>
      obtain ⟨-, -, index, gen⟩ := decode_some decoded
      refine (history.recycle (sound.bump joined.1 joined.2.1)).deliver status ?_ fun result member => ?_
      · rw [← index, ← gen]
        exact mem_append_right _ (mem_singleton.mpr rfl)
      · have earlier := history.named handle result member
        rw [← index, ← gen] at earlier
        exact lt_irrefl _ (history.past _ _ earlier)

lemma Changes.history (changes : Changes state next) (sound : Sound state)
    (history : History state.slots state.admitted state.reaped state.delivered) :
    History next.slots next.admitted next.reaped next.delivered := by
  induction changes with
  | refl => exact history
  | tail before change ih => exact change.history (Changes.sound before sound) ih

lemma Change.reaped (change : Change state next) : state.reaped ⊆ next.reaped := by
  cases change with
  | phase | terminal => exact List.Subset.refl _
  | edit edit =>
    cases edit with
    | recycle | deliver => exact subset_append_left _ _
    | _ => exact List.Subset.refl _

lemma Changes.reaped (changes : Changes state next) : state.reaped ⊆ next.reaped := by
  induction changes with
  | refl => exact List.Subset.refl _
  | tail _ change ih => exact List.Subset.trans ih change.reaped

/-! Terminal records. -/

/-- The record of slot `i` is the same, or the process it belongs to was freed. -/
def Settled (i : Nat) (slot : Slot) (state : State) : Prop :=
  (i, slot.gen) ∈ state.reaped ∨
    ((state.slots i).state = slot.state ∧ (state.slots i).gen = slot.gen ∧ (state.slots i).exitCode = slot.exitCode ∧
      (state.slots i).faultVector = slot.faultVector ∧ (state.slots i).faultError = slot.faultError)

lemma Settled.set {slot} (settled : Settled i slot state) (reaped : next.reaped = state.reaped)
    (changed : next.slots = update state.slots j new)
    (gone : j = i → (i, slot.gen) ∈ state.reaped) : Settled i slot next := by
  by_cases here : j = i
  · exact .inl (by rw [reaped]; exact gone here)
  unfold Settled
  rw [reaped, changed, update_of_ne (Ne.symm here)]
  exact settled

lemma Settled.freed {slot} (settled : Settled i slot state)
    (reaped : next.reaped = state.reaped ++ [(j, (state.slots j).gen)])
    (changed : next.slots = update state.slots j new) : Settled i slot next := by
  rcases settled with gone | record
  · exact .inl (by rw [reaped]; exact mem_append_left _ gone)
  by_cases here : i = j
  · subst here
    left
    rw [reaped, record.2.1]
    exact mem_append_right _ (mem_singleton.mpr rfl)
  right
  rw [changed, update_of_ne here]
  exact record

lemma Change.settled {state next i slot} (change : Change state next) (ended : slot.state.Ended)
    (settled : Settled i slot state) : Settled i slot next := by
  -- a slot that is live or free is not the one whose record is fixed, unless that one was freed
  have busy : ∀ j, ((state.slots j).state = .active ∨ (state.slots j).state = .free) → j = i →
    (i, slot.gen) ∈ state.reaped := by
    rintro j life rfl
    rcases settled with gone | ⟨same, -⟩
    · exact gone
    rw [same] at life
    rcases life with active | isFree
    · exact absurd active ended.ne_active
    · exact absurd isFree ended.ne_free
  cases change with
  | phase => exact settled
  | terminal j c id before after new context env pipe inside active => exact settled.set rfl rfl (busy j (.inl active))
  | edit edit =>
    cases edit with
    | contexts | attach | ring => exact settled
    | kill j inside active | reparent j _ active => exact settled.set rfl rfl (busy j (.inl active))
    | admission j c new context inside isFree | reselect j _ _ _ isFree =>
      exact settled.set rfl rfl (busy j (.inr isFree))
    | join j =>
      by_cases here : i = j
      · subst here
        simp only [Settled, update_self]
        exact settled
      · simp only [Settled, update_of_ne here]
        exact settled
    | recycle j | deliver _ => exact settled.freed rfl rfl

lemma Changes.settled {state next i} (changes : Changes state next) (ended : (state.slots i).state.Ended) :
    Settled i (state.slots i) next := by
  induction changes with
  | refl => exact .inr ⟨rfl, rfl, rfl, rfl, rfl⟩
  | tail _ change ih => exact change.settled ended ih

/-! Whole runs. -/

lemma decode_reaped {handle} (history : History state.slots state.admitted state.reaped state.delivered)
    (gone : (handle % 2 ^ 32, handle / 2 ^ 32) ∈ state.reaped) : decode state handle = none := by
  cases decoded : decode state handle with
  | none => rfl
  | some i =>
    obtain ⟨-, -, index, gen⟩ := decode_some decoded
    rw [← index, ← gen] at gone
    exact absurd (history.past _ _ gone) (lt_irrefl _)

lemma initial_history (contexts : Nat → Context) (created : Nat) :
    History (State.initial contexts created).slots (State.initial contexts created).admitted
    (State.initial contexts created).reaped
      (State.initial contexts created).delivered :=
  ⟨nofun, nofun, nofun, nofun, nodup_nil⟩

/-- Over every run and every continuation of it: the handles of processes not yet freed all
decode exactly when their generations fit 32 bits; terminal records stay until their slot
is freed; no handle delivers two results; and a consumed handle never decodes again. -/
theorem results_delivered_once {contexts : Nat → Context} {created : Nat} {cpu : Cpu} {state last : State}
    {ops more : List Op} {replies later : List Reply} (front : cpu.foreground = true)
    (ran : Transition.run step (State.boot contexts created) (.init cpu :: ops) = some (replies, state))
    (on : Transition.run step state more = some (later, last)) :
    ((∀ a ∈ state.admitted, (a.slot, a.gen) ∉ state.reaped → decode state a.handle = some a.slot) ↔
      ∀ a ∈ state.admitted, (a.slot, a.gen) ∉ state.reaped → a.gen < 2 ^ 32) ∧
    (∀ i, (state.slots i).state.Ended → Settled i (state.slots i) last) ∧
    (last.delivered.map Prod.fst).Nodup ∧
    ∀ handle status, (handle, status) ∈ state.delivered → decode last handle = none := by
  obtain ⟨moved, steady⟩ := booted_moves front ran
  have sound := moved.sound (State.initial_sound contexts created)
  have history := moved.history (State.initial_sound contexts created) (initial_history contexts created)
  have onwards := (run_moves sound steady on).1
  have after := onwards.history sound history
  refine ⟨⟨fun decodes a member kept => ?_, fun fits a member kept => ?_⟩, fun i ended => onwards.settled ended,
    after.once,
    fun handle status member => decode_reaped after (onwards.reaped (history.named handle status member))⟩
  · have decoded := decodes a member kept
    obtain ⟨inside, same⟩ := history.inside a member
    obtain ⟨held, gen⟩ := (history.held a member).resolve_left kept
    rw [same, ← gen] at decoded
    rw [← gen]
    exact (decode_packHandle sound inside held).mp decoded
  · obtain ⟨inside, same⟩ := history.inside a member
    obtain ⟨held, gen⟩ := (history.held a member).resolve_left kept
    have small := fits a member kept
    rw [← gen] at small
    rw [same, ← gen]
    exact (decode_packHandle sound inside held).mpr small

/-- The kernel waits for the writer of a pipeline, then twice for the reader: the second wait finds a dead handle. -/
theorem results_delivered_once_over_a_pipeline :
    let waitFor (slot : Nat) : Op := .wait false ⟨packHandle slot 1, true, ownerKernel, -1⟩ true freeing []
    ∃ replies state later last,
      Transition.run step (State.boot (fun _ => Context.empty) 0) (.init onDuty :: (pipelineOps ++ [waitFor 0])) =
        some (replies, state) ∧
      Transition.run step state [waitFor 1, waitFor 1] = some (later, last) ∧
      later = [.wait (.status ⟨.faulted, 14, 4⟩), .wait (.refused .badHandle)] ∧
      decode state (packHandle 1 1) = some 1 ∧ decode last (packHandle 0 1) = none ∧
        (last.delivered.map Prod.fst).Nodup := by
  intro waitFor
  have returned : ((Transition.run step (State.boot (fun _ => Context.empty) 0)
    (.init onDuty :: (pipelineOps ++ [waitFor 0]))).bind fun ran =>
      (Transition.run step ran.2 [waitFor 1, waitFor 1]).map fun next =>
        (next.1, ran.2.delivered, decode ran.2 (packHandle 1 1))) =
      some ([.wait (.status ⟨.faulted, 14, 4⟩), .wait (.refused .badHandle)],
        [(packHandle 0 1, ⟨.exited, 7, 0⟩)], some 1) := by
    decide +kernel
  obtain ⟨⟨replies, state⟩, ran, next⟩ := Option.bind_eq_some_iff.mp returned
  obtain ⟨⟨later, last⟩, on, same⟩ := Option.map_eq_some_iff.mp next
  simp only [Prod.mk.injEq] at same
  obtain ⟨answers, delivered, decodes⟩ := same
  obtain ⟨-, -, once, dead⟩ := results_delivered_once rfl ran on
  exact ⟨replies, state, later, last, ran, on, answers, decodes,
    dead _ _ (by rw [delivered]; exact mem_cons_self), once⟩

end Rynor.Proc
