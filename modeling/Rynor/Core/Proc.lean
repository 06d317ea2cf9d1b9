import Rynor.Core.Pipe

/-! The process table of kernel/core/proc.c with the parts of user.c and thread.c that it
reads: user contexts and worker threads. What other modules decide (allocation, image
validation, heap and address-space operations) arrives as inputs of each call. -/

namespace Rynor.Proc

def ownerKernel : Int := -1

inductive ProcLife
  | free | loading | active | exited | faulted | aborted
  deriving DecidableEq, Repr

inductive UserState
  | free | active | exited | faulted | aborted
  deriving DecidableEq, Repr

/-- The fields of `struct user_context` that process code reads. -/
structure Context where
  state : UserState
  codePages : Nat
  dataPages : Nat
  exitCode : Nat
  faultVector : Nat
  faultError : Nat
  bound : Bool
  entries : Nat
  resumes : Nat

def Context.empty : Context := ⟨.free, 0, 0, 0, 0, 0, false, 0, 0⟩

structure Slot where
  state : ProcLife
  gen : Nat
  owner : Int
  ctx : Option Nat
  worker : Nat
  workerValid : Bool
  killRequested : Bool
  stdinSel : Nat
  stdoutSel : Nat
  exitCode : Nat
  faultVector : Nat
  faultError : Nat

/-- The run codes a worker tells apart. `invalid` is a failed entry or resume. -/
inductive RunCode
  | exited | faulted | resumable | invalid
  deriving DecidableEq

/-- Where a worker thread stands in `proc_worker`; `ctx` is its local `c`. -/
inductive Phase
  | fresh
  | inUser (ctx : Nat)
  | returned (ctx : Nat) (rc : RunCode)
  | exited
  deriving DecidableEq

structure Thread where
  slot : Nat
  phase : Phase

/-- A spawned process with the handle its spawner received. -/
structure Admission where
  slot : Nat
  gen : Nat
  owner : Int
  handle : Nat

inductive ProcPhase
  | running | exited | faulted | aborted
  deriving DecidableEq

/-- The payload of `wait`. -/
structure ProcStatus where
  state : ProcPhase
  code : Nat
  detail : Nat
  deriving DecidableEq

def ProcStatus.running : ProcStatus := ⟨.running, 0, 0⟩

/-- The tables, with five histories: the processes admitted, those that were live when
their owner was freed, all that were freed (by slot and generation), the results `proc_wait`
delivered and the processes it consumed for the kernel. -/
structure State where
  ready : Bool
  slots : Nat → Slot
  contexts : Nat → Context
  threads : Nat → Option Thread
  nextThread : Nat
  pipe : Pipe
  admitted : List Admission
  orphaned : List (Nat × Nat)
  reaped : List (Nat × Nat)
  delivered : List (Nat × ProcStatus)
  claimed : List (Nat × Nat)

def Slot.boot : Slot := ⟨.free, 0, 0, none, 0, false, false, 0, 0, 0, 0, 0⟩

/-- Zero-initialised tables next to contexts that other code may already use. The boot
thread has identifier 1, and `created` other threads have come and gone; identifiers end
at 2^63. -/
def State.boot (contexts : Nat → Context) (created : Nat) : State :=
  { ready := false, slots := fun _ => Slot.boot, contexts, threads := fun _ => none, nextThread := min (created + 2) (2 ^ 63),
    pipe := Pipe.boot, admitted := [], orphaned := [], reaped := [], delivered := [], claimed := [] }

abbrev ProcM := StateT State (Except Halt)

def setSlot (i : Nat) (slot : Slot) : ProcM PUnit :=
    modify fun state => { state with slots := Function.update state.slots i slot }

def setContext (c : Nat) (context : Context) : ProcM PUnit :=
  modify fun state => { state with contexts := Function.update state.contexts c context }

def setThread (id : Nat) (thread : Option Thread) : ProcM PUnit :=
  modify fun state => { state with threads := Function.update state.threads id thread }

/-- `require(ok, why)` and `if (!ok) panic(why)`. -/
def require (ok : Bool) (why : String) : ProcM PUnit := if ok then pure ⟨⟩ else throw (.other why)

/-! Structural checks. -/

def slotInfo (state : State) (i : Nat) : Option SlotInfo :=
  if i ≥ maxProcs then none
  else if !state.ready then none
  else
    let slot := state.slots i
    some ⟨slot.gen, slot.stdinSel, slot.stdoutSel, slot.state ≠ .free⟩

def pipeEnv (state : State) (cpu : Cpu) (heapFree : Bool) : PipeEnv := ⟨cpu, slotInfo state, heapFree⟩

/-- The virtual pages of a context: the kernel's low replica, code, data and stack. -/
def Context.maps (context : Context) (va : Nat) : Bool :=
  va < 0x200000 || (0x800000 ≤ va && va < 0x1800000) || (0x400000 ≤ va && va < 0x400000 + context.codePages * 4096) ||
    (0x600000 ≤ va && va < 0x600000 + context.dataPages * 4096) || (0x7FF000 ≤ va && va < 0x800000)

/-- No page of the reserved range 0x610000 to 0x7F0000 is mapped. -/
def reservedClear (context : Context) : Bool :=
  (List.range 480).all fun page => !context.maps (0x610000 + page * 4096)

/-- The context state that goes with a process state past admission. -/
def ProcLife.userState : ProcLife → Option UserState
  | .active => some .active
  | .exited => some .exited
  | .faulted => some .faulted
  | .aborted => some .aborted
  | _ => none

def slotCheck (state : State) (i : Nat) : Bool :=
  let slot := state.slots i
  if slot.gen = 0 then false
  else if slot.owner ≠ ownerKernel && (slot.owner < 0 || slot.owner ≥ maxProcs ||
    (state.slots slot.owner.toNat).state = .free) then false
  else if slot.state = .free then !(slot.ctx.isSome || slot.workerValid || slot.killRequested)
  else
    match slot.ctx with
    | none => false
    | some c =>
      if (List.range i).any fun j => (state.slots j).state ≠ .free && (state.slots j).ctx = some c then false
      else if slot.stdinSel ≠ stdinClosed && slot.stdinSel ≠ stdinKbd && slot.stdinSel ≠ stdinPipe then false
      else if slot.stdoutSel ≠ stdoutSerial && slot.stdoutSel ≠ stdoutPipe then false
      else if slot.state = .loading then !(slot.workerValid || slot.killRequested)
      else if !slot.workerValid then false
      else if some (state.contexts c).state ≠ slot.state.userState then false
      else reservedClear (state.contexts c)

def procCheck (state : State) (cpu : Cpu) : Bool :=
  if !cpu.interruptsDisabled || !state.ready then false
  else (List.range maxProcs).all (slotCheck state)

def requireProcCheck (cpu : Cpu) (why : String) : ProcM PUnit := do
  if procCheck (← get) cpu then pure ⟨⟩ else throw (.procCheck why)

def requirePipeCheck (cpu : Cpu) (why : String) : ProcM PUnit := do
  let state ← get
  if state.pipe.pipeCheck (pipeEnv state cpu true) then pure ⟨⟩ else throw (.pipeCheck why)

/-! Initialisation, handles and ownership. -/

def ensureInit : ProcM PUnit := do
  let state ← get
  if state.ready then pure ⟨⟩
  else
    set { state with
      ready := true
      slots := fun i => if i < maxProcs then { state.slots i with state := .free, gen := 1, owner := ownerKernel }
        else state.slots i }

def procInitialize (cpu : Cpu) : ProcM Bool := do
  let state ← get
  if !cpu.foreground || state.ready then return state.ready
  ensureInit
  let state ← get
  return state.ready && procCheck state cpu

def procOwnerOf (state : State) (c : Nat) : Int :=
  if !state.ready then ownerKernel
  else
    match (List.range maxProcs).find? fun i => (state.slots i).state ≠ .free && (state.slots i).ctx = some c with
    | none => ownerKernel
    | some i => i

/-- `slot | (gen << 32)` on 64 bits: the shift leaves the low half clear. -/
def packHandle (slot gen : Nat) : Nat := slot + gen * 2 ^ 32 % u64

def decode (state : State) (handle : Nat) : Option Nat :=
  let slot := handle % 2 ^ 32
  let gen := handle / 2 ^ 32
  if !state.ready then none
  else if slot ≥ maxProcs || gen = 0 then none
  else if (state.slots slot).state = .free then none
  else if (state.slots slot).gen ≠ gen then none
  else some slot

/-- `if (++gen == 0) ++gen` on 64 bits. -/
def bump (gen : Nat) : Nat := if (gen + 1) % u64 = 0 then 1 else (gen + 1) % u64

def ownerInvalid (state : State) (owner : Int) : Bool :=
  owner ≠ ownerKernel && (owner < 0 || owner ≥ maxProcs || (state.slots owner.toNat).state = .free)

/-! User contexts and worker threads. -/

def maxContexts : Nat := 3

/-- What `rnyx_validate` reads off an accepted image. -/
structure Layout where
  codeLen : Nat
  dataMemsz : Nat

/-- The answers of the loader: the validated layout, whether memory sufficed, whether the
argument block fits, and whether a rollback's destroy succeeds. -/
structure Loading where
  layout : Option Layout
  created : Bool
  argv : Bool
  destroyed : Bool

def pagesOf (bytes : Nat) : Nat := (bytes + 4095) / 4096

/-- `user_create_loaded` takes the first free context. -/
def userCreateLoaded (layout : Layout) (created : Bool) : ProcM (Option Nat) := do
  let state ← get
  if !created || layout.codeLen = 0 || layout.codeLen > 16 * 4096 || layout.dataMemsz > 8 * 4096 then return none
  match (List.range maxContexts).find? fun c => (state.contexts c).state = .free with
  | none => return none
  | some c =>
    setContext c { Context.empty with
      state := .active, codePages := pagesOf layout.codeLen, dataPages := max 1 (pagesOf layout.dataMemsz) }
    return some c

/-- Terminal contexts and pristine live ones are destroyed, unless still bound. -/
def userDestroy (c : Nat) (destroyed : Bool) : ProcM Bool := do
  let context := (← get).contexts c
  let terminal := context.state = .exited || context.state = .faulted || context.state = .aborted
  let pristine := context.state = .active && !context.bound && context.entries = 0 && context.resumes = 0
  if !(terminal || pristine) then return false
  if context.bound then return false
  if !destroyed then return false
  setContext c Context.empty
  return true

def userMarkAborted (cpu : Cpu) (c : Nat) (checked : Bool) : ProcM Bool := do
  let context := (← get).contexts c
  if !cpu.foreground then return false
  if context.state ≠ .active || !context.bound then return false
  setContext c { context with state := .aborted }
  return checked

/-- `created` is whether the scheduler has a thread and a stack to give; identifiers are
never reused and end at 2^63. -/
def threadCreate (slot : Nat) (created : Bool) : ProcM (Option Nat) := do
  let state ← get
  if state.nextThread ≥ 2 ^ 63 || !created then return none
  set { state with threads := Function.update state.threads state.nextThread (some ⟨slot, .fresh⟩), nextThread := state.nextThread + 1 }
  return some state.nextThread

def threadJoin (cpu : Cpu) (id : Nat) : ProcM Bool := do
  let state ← get
  if !cpu.foreground then return false
  match state.threads id with
  | some ⟨_, .exited⟩ =>
    setThread id none
    return true
  | _ => return false

/-- A pipe call on the tables' pipe. -/
def onPipe {ρ : Type} (call : Pipe → Except Halt (ρ × Pipe)) : ProcM ρ := fun state =>
  match call state.pipe with
  | .error halt => .error halt
  | .ok (reply, pipe) => .ok (reply, { state with pipe })

def pipeNoteTerminal (cpu : Cpu) (heapFree : Bool) (slot gen : Nat) : ProcM Bool := do
  let env := pipeEnv (← get) cpu heapFree
  onPipe fun pipe => pipe.pipeNoteTerminal env slot gen

/-! Terminal records: the gate, and the worker behind it. -/

/-- The terminal states a gate records. -/
inductive Terminal
  | exited
  | faulted
  deriving DecidableEq

def Slot.record (slot : Slot) (terminal : Terminal) (context : Context) : Slot :=
  match terminal with
  | .exited => { slot with state := .exited, exitCode := context.exitCode }
  | .faulted => { slot with state := .faulted, faultVector := context.faultVector, faultError := context.faultError }

def noteGateTerminal (cpu : Cpu) (heapFree : Bool) (c : Nat) (terminal : Terminal) : ProcM PUnit := do
  ensureInit
  require cpu.foreground "gate_note"
  let state ← get
  let owner := procOwnerOf state c
  if owner = ownerKernel then return ⟨⟩
  require (0 ≤ owner && owner < maxProcs) "gate_note"
  let i := owner.toNat
  let slot := state.slots i
  require (slot.ctx = some c && slot.state = .active) "gate_note"
  setSlot i (slot.record terminal (state.contexts c))
  let noted ← pipeNoteTerminal cpu heapFree i slot.gen
  require noted "gate_pipe"

def Context.ended (context : Context) (terminal : Terminal) (code detail : Nat) : Context :=
  match terminal with
  | .exited => { context with state := .exited, exitCode := code % 2 ^ 32 }
  | .faulted => { context with state := .faulted, faultVector := code, faultError := detail }

/-- A running program exits or faults: the handler writes the context record and the
process record in one section, then schedules on. -/
def gateTerminal (cpu : Cpu) (heapFree : Bool) (id : Nat) (terminal : Terminal) (code detail : Nat) : ProcM PUnit := do
  let state ← get
  match state.threads id with
  | some ⟨slot, .inUser c⟩ =>
    let context := state.contexts c
    require (context.state = .active) "exit_state"
    require (!cpu.irqInContext) "exit_irq"
    setContext c (context.ended terminal code detail)
    noteGateTerminal cpu heapFree c terminal
    setThread id (some ⟨slot, .returned c (match terminal with | .exited => .exited | .faulted => .faulted)⟩)
  | _ => return ⟨⟩

/-- The head of `proc_worker`. -/
def workerEnter (cpu : Cpu) (id : Nat) (entered : Bool) : ProcM PUnit := do
  let state ← get
  match state.threads id with
  | some ⟨i, .fresh⟩ =>
    require (i < maxProcs) "worker_slot"
    require cpu.foreground "worker_fg"
    let slot := state.slots i
    require (slot.state = .active && slot.workerValid) "worker_state"
    match slot.ctx with
    | none => throw (.other "worker_state")
    | some c =>
      let context := state.contexts c
      require (context.state = .active && !context.bound && context.entries = 0 && context.resumes = 0) "worker_ctx"
      if entered then
        setContext c { context with bound := true, entries := 1 }
        setThread id (some ⟨i, .inUser c⟩)
      else setThread id (some ⟨i, .returned c .invalid⟩)
  | _ => return ⟨⟩

/-- Detach and return: the trampoline then performs `thread_exit`. -/
def workerFinish (cpu : Cpu) (id i c : Nat) : ProcM PUnit := do
  let context := (← get).contexts c
  require (cpu.foreground && context.bound) "worker_detach"
  setContext c { context with bound := false }
  setThread id (some ⟨i, .exited⟩)

/-- The record of the worker when no gate was first. -/
def workerRecord (cpu : Cpu) (heapFree : Bool) (i c : Nat) (terminal : Terminal) : ProcM PUnit := do
  let state ← get
  let slot := state.slots i
  if slot.state = .active then
    setSlot i (slot.record terminal (state.contexts c))
    let noted ← pipeNoteTerminal cpu heapFree i slot.gen
    require noted "worker_pipe"
  else return ⟨⟩

/-- One turn of the loop of `proc_worker`. `marked` and `resumed` are the answers of
`user_mark_aborted`'s closing check and of `user_resume`. -/
def workerTurn (cpu : Cpu) (heapFree : Bool) (id : Nat) (marked resumed : Bool) : ProcM PUnit := do
  let state ← get
  match state.threads id with
  | some ⟨i, .returned c rc⟩ =>
    let slot := state.slots i
    let context := state.contexts c
    match rc with
    | .exited =>
      workerRecord cpu heapFree i c .exited
      workerFinish cpu id i c
    | .faulted =>
      workerRecord cpu heapFree i c .faulted
      workerFinish cpu id i c
    | rc =>
      if slot.killRequested && slot.state = .active && context.state = .active then
        let aborted ← userMarkAborted cpu c marked
        require aborted "worker_abort"
        setSlot i { slot with state := .aborted }
        let noted ← pipeNoteTerminal cpu heapFree i slot.gen
        require noted "worker_pipe"
        workerFinish cpu id i c
      else if rc = .invalid then throw (.other "worker_rc")
      else if resumed then
        setContext c { context with resumes := context.resumes + 1 }
        setThread id (some ⟨i, .inUser c⟩)
      else setThread id (some ⟨i, .returned c .invalid⟩)
  | _ => return ⟨⟩

end Rynor.Proc
