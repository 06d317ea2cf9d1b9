import Rynor.Core.ProcWait
import Rynor.Proofs.PipeFifo

/-! What holds of the process table, its workers and its pipe between any two actions, and
that the two structural checks follow from it. -/

namespace Rynor.Proc
open List
open Pipe (Attached Detached)
variable {state : State} {i : Nat} {cpu : Cpu}

/-- The context state a thread's phase goes with; an exited thread fits any. -/
def Phase.userState : Phase → UserState
  | .returned _ .exited => .exited
  | .returned _ .faulted => .faulted
  | _ => .active

def Phase.ctx : Phase → Option Nat
  | .inUser c => some c
  | .returned c _ => some c
  | _ => none

/-- One slot between two actions: free and empty, or holding a context in its own state.
`PL_LOADING` never outlives the call that set it. -/
structure SlotSound (contexts : Nat → Context) (slot : Slot) : Prop where
  gen : 0 < slot.gen
  stdin : slot.stdinSel ≤ stdinPipe
  stdout : slot.stdoutSel ≤ stdoutPipe
  free : slot.state = .free → slot.ctx = none ∧ slot.workerValid = false ∧ slot.killRequested = false ∧
    slot.owner = ownerKernel
  held : slot.state ≠ .free → ∃ c, slot.ctx = some c ∧ slot.state.userState = some (contexts c).state ∧
    reservedClear (contexts c) = true
  active : slot.state = .active → slot.workerValid = true

def Owned (slots : Nat → Slot) (owner : Int) : Prop :=
  owner = ownerKernel ∨ ∃ o : Nat, o < maxProcs ∧ owner = o ∧ (slots o).state ≠ .free

structure Tables (slots : Nat → Slot) (contexts : Nat → Context) : Prop where
  slot : ∀ i, i < maxProcs → SlotSound contexts (slots i)
  owner : ∀ i, i < maxProcs → Owned slots (slots i).owner
  apart : ∀ i j c, i < maxProcs → j < maxProcs → (slots i).ctx = some c → (slots j).ctx = some c → i = j

/-- A live worker runs its slot's context. -/
structure Running (slots : Nat → Slot) (id : Nat) (thread : Thread) : Prop where
  inside : thread.slot < maxProcs
  worker : (slots thread.slot).worker = id
  valid : (slots thread.slot).workerValid = true
  agrees : (slots thread.slot).state.userState = some thread.phase.userState
  ctx : ∀ c, thread.phase.ctx = some c → (slots thread.slot).ctx = some c

/-- Threads and slots name each other; a slot whose worker was joined has no thread.
Identifiers are never reused, which also bounds the generations. -/
structure Workers (slots : Nat → Slot) (threads : Nat → Option Thread) (nextThread : Nat) : Prop where
  thread : ∀ id thread, threads id = some thread → thread.phase ≠ .exited → Running slots id thread
  worker : ∀ i, i < maxProcs → (slots i).workerValid = true → ∃ thread,
    threads (slots i).worker = some thread ∧ thread.slot = i ∧ ((slots i).state = .active → thread.phase ≠ .exited)
  joined : ∀ i, i < maxProcs → (slots i).state ≠ .free → (slots i).workerValid = false → threads (slots i).worker = none
  issued : ∀ i, i < maxProcs → (slots i).state ≠ .free → (slots i).worker < nextThread
  unissued : ∀ id, nextThread ≤ id → threads id = none
  gen : ∀ i, i < maxProcs → (slots i).gen ≤ nextThread
  genHeld : ∀ i, i < maxProcs → (slots i).state ≠ .free → (slots i).gen < nextThread
  bound : nextThread ≤ 2 ^ 63

/-- An endpoint is held by a live process of its generation. -/
structure Endpoint (slots : Nat → Slot) (i gen : Nat) (role : Slot → Prop) : Prop where
  active : (slots i).state = .active
  gen : (slots i).gen = gen
  role : role (slots i)

structure Piped (slots : Nat → Slot) (pipe : Pipe) : Prop where
  phase : Attached pipe ∨ Detached pipe
  reader : pipe.readerOpen = true → Endpoint slots pipe.rslot pipe.rgen fun slot => slot.stdinSel = stdinPipe
  writer : pipe.writerOpen = true → Endpoint slots pipe.wslot pipe.wgen fun slot => slot.stdoutSel = stdoutPipe

structure Sound (state : State) : Prop where
  ready : state.ready = true
  tables : Tables state.slots state.contexts
  workers : Workers state.slots state.threads state.nextThread
  piped : Piped state.slots state.pipe

/-- The worker of a terminal process was joined and the slot is about to be freed. -/
def Joined (state : State) (i : Nat) : Prop :=
  i < maxProcs ∧ (state.slots i).state ≠ .free ∧ (state.slots i).workerValid = false

/-- No wait is under way. -/
def Steady (state : State) : Prop := ∀ i, ¬Joined state i

lemma SlotSound.not_loading {contexts : Nat → Context} {slot} (sound : SlotSound contexts slot) :
    slot.state ≠ .loading := by
  intro loading
  obtain ⟨c, -, same, -⟩ := sound.held (by rw [loading]; decide)
  rw [loading] at same
  cases same

/-! The checks. -/

/-- `proc_check` on one slot, past the tests that the interrupts are off and the table is ready. -/
structure SlotChecked (state : State) (i : Nat) : Prop where
  gen : 0 < (state.slots i).gen
  stdin : (state.slots i).stdinSel ≤ stdinPipe
  stdout : (state.slots i).stdoutSel ≤ stdoutPipe
  owner : Owned state.slots (state.slots i).owner
  free : (state.slots i).state = .free → (state.slots i).ctx = none ∧ (state.slots i).workerValid = false ∧
    (state.slots i).killRequested = false
  alone : ∀ j, j < i → ∀ c, (state.slots i).ctx = some c → (state.slots j).ctx ≠ some c
  held : (state.slots i).state ≠ .free → ∃ c, (state.slots i).ctx = some c ∧
    (((state.slots i).state = .loading ∧ (state.slots i).workerValid = false ∧ (state.slots i).killRequested = false) ∨
      ((state.slots i).workerValid = true ∧ (state.slots i).state.userState = some (state.contexts c).state ∧
        reservedClear (state.contexts c) = true))

lemma SlotChecked.passes (checked : SlotChecked state i) : slotCheck state i = true := by
  have gen : ¬(state.slots i).gen = 0 := Nat.pos_iff_ne_zero.mp checked.gen
  have owned : ((state.slots i).owner ≠ ownerKernel && ((state.slots i).owner < 0 || (state.slots i).owner ≥ maxProcs ||
      (state.slots (state.slots i).owner.toNat).state = .free)) = false := by
    rcases checked.owner with kernel | ⟨o, inside, same, live⟩
    · simp [kernel]
    have within : ¬(o : Int) ≥ maxProcs := by
      rw [maxProcs] at inside
      rw [maxProcs]
      omega
    simp [same, live, within]
  simp only [slotCheck, gen, owned, if_false, Bool.false_eq_true]
  split
  next isFree =>
    obtain ⟨ctx, valid, kill⟩ := checked.free isFree
    simp [ctx, valid, kill]
  rename_i notFree
  obtain ⟨c, ctx, shape⟩ := checked.held notFree
  have alone : ((List.range i).any fun j => (state.slots j).state ≠ .free && (state.slots j).ctx = some c) = false := by
    rw [any_eq_false]
    intro j member
    simp [checked.alone j (mem_range.mp member) c ctx]
  have stdin : ((state.slots i).stdinSel ≠ stdinClosed && (state.slots i).stdinSel ≠ stdinKbd &&
    (state.slots i).stdinSel ≠ stdinPipe) = false := by
    have range := checked.stdin
    simp only [stdinPipe] at range
    have known : (state.slots i).stdinSel = 0 ∨ (state.slots i).stdinSel = 1 ∨ (state.slots i).stdinSel = 2 := by omega
    rcases known with same | same | same <;> simp [same, stdinClosed, stdinKbd, stdinPipe]
  have stdout : ((state.slots i).stdoutSel ≠ stdoutSerial && (state.slots i).stdoutSel ≠ stdoutPipe) = false := by
    have range := checked.stdout
    simp only [stdoutPipe] at range
    have known : (state.slots i).stdoutSel = 0 ∨ (state.slots i).stdoutSel = 1 := by omega
    rcases known with same | same <;> simp [same, stdoutSerial, stdoutPipe]
  rw [ctx]
  simp only [alone, stdin, stdout, if_false, Bool.false_eq_true]
  rcases shape with ⟨loading, valid, kill⟩ | ⟨valid, same, clear⟩
  · simp [loading, valid, kill]
  have past : (state.slots i).state ≠ .loading := by
    intro loading
    rw [loading] at same
    cases same
  simp [past, valid, same, clear]

lemma procCheck_of (off : cpu.interruptsDisabled = true) (ready : state.ready = true)
    (checked : ∀ i, i < maxProcs → SlotChecked state i) : procCheck state cpu = true := by
  simp only [procCheck, off, ready, Bool.not_true, Bool.or_self, Bool.false_eq_true, if_false, all_eq_true, mem_range]
  exact fun i inside => (checked i inside).passes

lemma Tables.checked (tables : Tables state.slots state.contexts) (steady : Steady state) (inside : i < maxProcs) :
    SlotChecked state i := by
  have sound := tables.slot i inside
  refine ⟨sound.gen, sound.stdin, sound.stdout, tables.owner i inside, ?_, ?_, ?_⟩
  · intro isFree
    obtain ⟨ctx, valid, kill, -⟩ := sound.free isFree
    exact ⟨ctx, valid, kill⟩
  · intro j before c mine other
    have same := tables.apart i j c inside (lt_trans before inside) mine other
    omega
  · intro notFree
    obtain ⟨c, ctx, same, clear⟩ := sound.held notFree
    refine ⟨c, ctx, .inr ⟨?_, same, clear⟩⟩
    cases valid : (state.slots i).workerValid with
    | true => rfl
    | false => exact absurd ⟨inside, notFree, valid⟩ (steady i)

lemma Sound.procCheck (sound : Sound state) (steady : Steady state) (off : cpu.interruptsDisabled = true) :
    procCheck state cpu = true :=
  procCheck_of off sound.ready fun _ => sound.tables.checked steady

lemma slotInfo_of (ready : state.ready = true) (inside : i < maxProcs) :
    slotInfo state i = some ⟨(state.slots i).gen, (state.slots i).stdinSel, (state.slots i).stdoutSel,
      (state.slots i).state ≠ .free⟩ := by
  simp [slotInfo, ready, not_le.mpr inside]

lemma honoured_of {pipe} (attached : Attached pipe) (ready : state.ready = true)
    (reader : pipe.readerOpen = true → (state.slots pipe.rslot).state ≠ .free ∧
      (state.slots pipe.rslot).gen = pipe.rgen ∧ (state.slots pipe.rslot).stdinSel = stdinPipe)
    (writer : pipe.writerOpen = true → (state.slots pipe.wslot).state ≠ .free ∧
      (state.slots pipe.wslot).gen = pipe.wgen ∧ (state.slots pipe.wslot).stdoutSel = stdoutPipe) (cpu : Cpu) :
    Pipe.Honoured pipe (pipeEnv state cpu true) := by
  refine ⟨fun opened => ?_, fun opened => ?_, rfl⟩
  · obtain ⟨live, gen, role⟩ := reader opened
    simp only [pipeEnv, slotInfo_of ready attached.rslot]
    simp [Pipe.endpointOk, live, gen, role]
  · obtain ⟨live, gen, role⟩ := writer opened
    simp only [pipeEnv, slotInfo_of ready attached.wslot]
    simp [Pipe.endpointOk, live, gen, role]

lemma Sound.honoured (sound : Sound state) (attached : Attached state.pipe) (cpu : Cpu) :
    Pipe.Honoured state.pipe (pipeEnv state cpu true) := by
  refine honoured_of attached sound.ready (fun opened => ?_) (fun opened => ?_) cpu
  · obtain ⟨active, gen, role⟩ := sound.piped.reader opened
    exact ⟨by rw [active]; decide, gen, role⟩
  · obtain ⟨active, gen, role⟩ := sound.piped.writer opened
    exact ⟨by rw [active]; decide, gen, role⟩

lemma Sound.pipeCheck {heapFree} (sound : Sound state)
    (off : cpu.interruptsDisabled = true) : state.pipe.pipeCheck (pipeEnv state cpu heapFree) = true := by
  rcases sound.piped.phase with attached | detached
  · have honoured := sound.honoured attached cpu
    exact (Pipe.pipeCheck_attached attached off).mpr ⟨honoured.reader, honoured.writer⟩
  · rw [Pipe.pipeCheck_detached detached]
    exact off

end Rynor.Proc
