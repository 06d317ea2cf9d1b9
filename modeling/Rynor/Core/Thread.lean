import Rynor.Core.Machine
import Rynor.Lib.RoundRobin

/-! The threads of kernel/core/thread.c over the stack registry of kernel/mm/kstack.c: one
processor, eight slots, round-robin selection. A stop of the machine carries its message. -/

namespace Rynor.Sched
open Function (update)

def schedThreads : Nat := 8
def kstackMaxThreads : Nat := 8
def kstackBase : Nat := 0xffffe00000000000
def kstackGuardBytes : Nat := 4096
def kstackPayloadBytes : Nat := 4 * 4096
def kstackSlotSize : Nat := kstackGuardBytes + kstackPayloadBytes

/-! The boot stack, as the linker script places it. -/

def kernelStackStart : Nat := 0x7c000
def kernelStackEnd : Nat := 0x80000

def cpuCodeSelector : Nat := 0x08
def cpuDataSelector : Nat := 0x10
def frameBytes : Nat := 176

/-- The flags a saved context may have: arithmetic flags, direction, interrupts and resume. -/
def savedFlags : BitVec 64 := 0x10ed7

/-- The part of `struct exception_frame` that the scheduler looks at. -/
structure Frame where
  rip : Nat
  cs : Nat
  rflags : BitVec 64
  rsp : Nat
  ss : Nat
  vector : Nat
  error : Nat
  deriving DecidableEq

def Frame.zero : Frame := ⟨0, 0, 0, 0, 0, 0, 0⟩

def userExitStackBytes : Nat := 4096

/-- Addresses of the kernel image: its text, the three labels where contexts resume, and `exit_stacks`. -/
structure Layout where
  textStart : Nat
  textEnd : Nat
  trampoline : Nat
  switchResume : Nat
  userKernResume : Nat
  exitStacks : Nat
  trampoline_in_text : textStart ≤ trampoline ∧ trampoline < textEnd
  switchResume_in_text : textStart ≤ switchResume ∧ switchResume < textEnd
  userKernResume_in_text : textStart ≤ userKernResume ∧ userKernResume < textEnd

inductive ThreadState
  | free | ready | running | exited
  deriving DecidableEq

structure Kstack where
  slot : Nat
  generation : Nat
  deriving DecidableEq

/-- `user` is the number of the context that owns the link. -/
structure Thread where
  id : Nat
  state : ThreadState
  saved : Frame
  stack : Kstack
  entry : Nat
  user : Option Nat
  deriving DecidableEq

def Thread.zero : Thread := ⟨0, .free, .zero, ⟨0, 0⟩, 0, none⟩

/-- The owner of a record is the thread slot whose handle it was allocated for. -/
structure StackRecord where
  owner : Option Nat
  generation : Nat
  deriving DecidableEq

structure UserLink where
  context : Bool
  kernSave : Frame
  bound : Bool
  deriving DecidableEq

/-- What the processor executes: kernel code on the stack of the current thread, or user code that
entered through a link and the gate that serves its calls, on the exit stack of the context. -/
inductive Mode
  | kernel
  | user (link : Nat)
  deriving DecidableEq

structure State where
  threads : Nat → Thread
  current : Nat
  nextId : Nat
  initialized : Bool
  records : Nat → StackRecord
  generation : Nat
  links : Nat → UserLink
  mode : Mode

/-- Static storage before initialisation, with the links of user.c tied to their contexts. -/
def State.boot : State :=
  { threads := fun _ => .zero, current := 0, nextId := 1, initialized := false, records := fun _ => ⟨none, 0⟩, generation := 0,
    links := fun _ => ⟨true, .zero, false⟩, mode := .kernel }

/-- The registers of the running context when assembly saves them: `depth` bytes of the stack it stands on are
in use, never so many that a thread's own stack has no room for an interrupt frame, and no forbidden flag is set. -/
structure Registers where
  depth : Nat
  rflags : BitVec 64
  room : 0 < depth ∧ depth + frameBytes ≤ kstackPayloadBytes
  flags_ok : rflags &&& 2 ≠ 0 ∧ rflags &&& ~~~savedFlags = 0
  deriving DecidableEq

structure Env where
  cpu : Cpu
  heldLocks : Nat
  deriving DecidableEq

abbrev M := StateT State (Except String)

def require (ok : Bool) (why : String) : M Unit := if ok then pure () else throw why

def setThread (i : Nat) (thread : Thread) : M Unit :=
  modify fun s => { s with threads := update s.threads i thread }

/-! Kernel stacks. -/

def baseOf (slot : Nat) : Nat := kstackBase + slot * kstackSlotSize

/-- `owner` stands for the address of the handle. -/
def kstackValid (s : State) (owner : Nat) (h : Kstack) : Bool :=
  decide (h.slot < kstackMaxThreads) && h.generation != 0 && decide ((s.records h.slot).owner = some owner) &&
    (s.records h.slot).generation == h.generation

/-- `backing` tells whether the pages of the slot were free and could all be allocated and
mapped; a failure among them is unwound. -/
def kstackAlloc (cpu : Cpu) (backing : Bool) (owner : Nat) (h : Kstack) :
    StateT State (Except String) (Option Kstack) := do
  let s ← get
  if !cpu.foreground || s.generation == u64 - 1 then return none
  if (List.range kstackMaxThreads).any fun i => (s.records i).owner == some owner then return none
  if h.generation != 0 || h.slot != 0 then return none
  match (List.range kstackMaxThreads).find? fun slot => (s.records slot).owner.isNone with
  | none => return none
  | some slot =>
    if !backing then return none
    set { s with generation := s.generation + 1, records := update s.records slot ⟨some owner, s.generation + 1⟩ }
    return some ⟨slot, s.generation + 1⟩

/-- `intact` is the answer of the mapping check and of the comparison with the stack pointer. -/
def kstackFree (cpu : Cpu) (intact : Bool) (owner : Nat) (h : Kstack) : M Bool := do
  let s ← get
  if !cpu.foreground || !kstackValid s owner h || !intact then return false
  set { s with records := update s.records h.slot ⟨none, 0⟩ }
  return true

/-! Contexts. -/

section
variable (layout : Layout)

def executable (rip : Nat) : Bool := decide (layout.textStart ≤ rip) && decide (rip < layout.textEnd)

def bounds (s : State) (t : Nat) : Option (Nat × Nat) :=
  if t = 0 then some (kernelStackStart, kernelStackEnd)
  else if kstackValid s t (s.threads t).stack then
    let low := baseOf (s.threads t).stack.slot + kstackGuardBytes
    some (low, low + kstackPayloadBytes)
  else none

def frameValid (s : State) (t : Nat) (f : Frame) : Bool :=
  match bounds s t with
  | none => false
  | some (lo, hi) =>
    decide (lo + frameBytes ≤ f.rsp) && decide (f.rsp < hi) && executable layout f.rip && f.cs == cpuCodeSelector &&
      f.ss == cpuDataSelector && f.rflags &&& 2 != 0 && f.rflags &&& ~~~savedFlags == 0 && f.error == 0 &&
      (f.vector == 0 || decide (32 ≤ f.vector) && decide (f.vector < 128))

/-- The checks of one slot. -/
def slotOk (s : State) (i : Nat) : Bool :=
  let t := s.threads i
  (match t.user with
    | none => true
    | some link => (s.links link).bound && (s.links link).context) &&
  if t.state = .free then t.id == 0 && t.stack.generation == 0
  else
    t.id != 0 && decide (t.id < s.nextId) && (i == 0 || kstackValid s i t.stack && executable layout t.entry) &&
      (List.range i).all (fun j => (s.threads j).state = .free || t.id != (s.threads j).id) &&
      (t.state != .running || i == s.current) && (t.state != .ready || frameValid layout s i t.saved)

def schedulerCheck (s : State) (interruptsDisabled : Bool) : Bool :=
  interruptsDisabled && s.initialized && (List.range schedThreads).all (slotOk layout s) &&
    decide (s.current < schedThreads) && (List.range schedThreads).countP
      (fun i => (s.threads i).state = .running) == 1 &&
    (s.threads s.current).state == .running && (s.threads 0).state != .free && (s.threads 0).state != .exited

def check (interruptsDisabled : Bool) : M Unit := do
  require (schedulerCheck layout (← get) interruptsDisabled) "state_or_context"

def find (s : State) (id : Nat) : Option Nat :=
  if id = 0 then none
  else (List.range schedThreads).find? fun i => (s.threads i).state != .free && (s.threads i).id == id

def pickNext (s : State) : Option Nat :=
  RoundRobin.pick (fun i => (s.threads i).state == .ready) schedThreads s.current

def selectThread (next : Nat) (exiting : Bool) : M Unit := do
  let s ← get
  require (frameValid layout s next (s.threads next).saved) "invalid_resume"
  setThread s.current { s.threads s.current with state := if exiting then .exited else .ready }
  let s ← get
  setThread next { s.threads next with state := .running }
  modify fun s => { s with current := next }

/-- Where the stack pointer stands when `depth` bytes of the thread's stack are in use. -/
def stackPointer (s : State) (t : Nat) (regs : Registers) : Nat :=
  ((bounds s t).map fun (_, hi) => hi - regs.depth).getD 0

/-- The stack pointer of the running code: in a gate it is on the exit stack of the context. -/
def currentPointer (s : State) (regs : Registers) : Nat :=
  match s.mode with
  | .kernel => stackPointer s s.current regs
  | .user link => layout.exitStacks + (link + 1) * userExitStackBytes - regs.depth

/-- What `thread_switch` records of the running thread. -/
def switchFrame (s : State) (regs : Registers) : Frame :=
  { rip := layout.switchResume, cs := cpuCodeSelector, rflags := regs.rflags, rsp := currentPointer layout s regs,
    ss := cpuDataSelector, vector := 0, error := 0 }

/-- What `user_enter_asm` records of the running thread. -/
def enterFrame (s : State) (regs : Registers) : Frame :=
  { rip := layout.userKernResume, cs := cpuCodeSelector, rflags := regs.rflags &&& savedFlags,
    rsp := stackPointer s s.current regs, ss := cpuDataSelector, vector := 0, error := 0 }

/-- The processor continues the current thread from its saved frame. A fresh thread and one
that comes back from `thread_switch` check the scheduler first. -/
def resume : M Unit := do
  let s ← get
  let rip := (s.threads s.current).saved.rip
  if rip = layout.trampoline ∨ rip = layout.switchResume then check layout true

/-! The calls. -/

/-- What a call tells its observer: a result, a new thread, or the thread it selected. -/
inductive Event
  | returned (ok : Bool)
  | created (id : Nat)
  | selected (id : Nat)
  deriving DecidableEq

def schedulerInitialize (cpu : Cpu) (kernelSpace : Bool) : M Bool := do
  let s ← get
  if !cpu.foreground || s.initialized || !kernelSpace then return false
  setThread 0 { s.threads 0 with id := s.nextId, state := .running }
  modify fun s => { s with nextId := s.nextId + 1, current := 0, initialized := true }
  return schedulerCheck layout (← get) cpu.interruptsDisabled

def firstFree (s : State) : Option Nat :=
  (List.range' 1 (schedThreads - 1)).find? fun i => (s.threads i).state == .free

/-- `out` tells a non-null pointer. -/
def threadCreateWithFlags (env : Env) (out : Bool) (entry : Nat) (rflags : BitVec 64) (backing : Bool) : M Event := do
  let s ← get
  if !env.cpu.foreground || !s.initialized || !out || !executable layout entry || decide (2 ^ 63 ≤ s.nextId) then
    return .returned false
  if rflags &&& 2 != 2 || rflags &&& ~~~savedFlags != 0 then return .returned false
  if rflags != 0x002 && rflags != 0x202 then return .returned false
  check layout env.cpu.interruptsDisabled
  match firstFree s with
  | none => return .returned false
  | some i =>
    match ← kstackAlloc env.cpu backing i (s.threads i).stack with
    | none => return .returned false
    | some stack =>
      setThread i { s.threads i with stack }
      match bounds (← get) i with
      | none => throw "new_stack_bounds"
      | some (_, hi) =>
        let saved : Frame :=
          { rip := layout.trampoline, cs := cpuCodeSelector, rflags, rsp := hi - 8, ss := cpuDataSelector, vector := 0, error := 0 }
        setThread i { s.threads i with id := s.nextId, state := .ready, saved, stack, entry }
        modify fun s => { s with nextId := s.nextId + 1 }
        check layout env.cpu.interruptsDisabled
        return .created s.nextId

def threadJoin (env : Env) (id : Nat) (intact : Bool) : M Event := do
  let s ← get
  if !env.cpu.foreground || !s.initialized then return .returned false
  check layout env.cpu.interruptsDisabled
  match find s id with
  | none => return .returned false
  | some t =>
    if t = s.current ∨ t = 0 ∨ (s.threads t).state ≠ .exited then return .returned false
    require (← kstackFree env.cpu intact t (s.threads t).stack) "reap_stack"
    setThread t .zero
    check layout env.cpu.interruptsDisabled
    return .returned true

/-- Restoring enabled interrupts is refused under a lock and inside a handler. -/
def irqRestore (env : Env) : M Unit := do
  require (env.cpu.interruptsDisabled || env.heldLocks == 0) "restore_with_lock"
  require (env.cpu.interruptsDisabled || !env.cpu.irqInContext) "restore_in_irq"

/-- Until the call switches away, or returns because there is nobody to switch to. -/
def threadYield (env : Env) (regs : Registers) : M Event := do
  let s ← get
  if !s.initialized || env.cpu.irqInContext || env.heldLocks != 0 then
    irqRestore env
    return .returned false
  check layout true
  match pickNext s with
  | none =>
    irqRestore env
    return .returned true
  | some next =>
    selectThread layout next false
    -- `thread_switch` saves the context of the thread that is no longer current.
    let after ← get
    setThread s.current { after.threads s.current with saved := switchFrame layout s regs }
    modify fun s => { s with mode := .kernel }
    resume layout
    return .selected (s.threads next).id

def threadExit (env : Env) : M Event := do
  let s ← get
  require (s.initialized && !env.cpu.irqInContext && env.heldLocks == 0) "exit_context"
  check layout true
  require (s.current != 0) "bootstrap_exit"
  match pickNext s with
  | none => throw "exit_no_next"
  | some next =>
    selectThread layout next true
    resume layout
    return .selected (s.threads next).id

/-- The last validation before assembly continues with `selected`. -/
def schedHandoff (selected : Frame) : M Unit := do
  check layout true
  let s ← get
  require (frameValid layout s s.current selected) "handoff_frame"

/-- Selects the next thread, if any; `continue` is the frame that runs on otherwise. -/
def switchTo (next : Option Nat) : M Event := do
  let s ← get
  match next with
  | none => return .returned true
  | some next =>
    selectThread layout next false
    return .selected (s.threads next).id

/-- The current thread has left user code and is to come back out of its user entry. -/
def parkCurrent (link : Nat) : M Unit := do
  let s ← get
  setThread s.current { s.threads s.current with saved := (s.links link).kernSave }
  modify fun s => { s with mode := .kernel }

/-- The link of the current thread, through which the user code that trapped has entered;
`accepted` is the verdict of user.c on the frame. -/
def trappedLink (why : String) (accepted : Bool) : M Nat := do
  let s ← get
  match (s.threads s.current).user with
  | none => throw why
  | some link =>
    require ((s.links link).bound && (s.links link).context) why
    require (s.mode = .user link && accepted) "irq_frame"
    return link

/-- A tick that interrupted user code. -/
def schedTickUser (env : Env) (accepted : Bool) : M Event := do
  require (env.cpu.interruptsDisabled && env.cpu.irqInContext && env.heldLocks == 0) "user_tick_context"
  check layout env.cpu.interruptsDisabled
  let link ← trappedLink "user_tick_link" accepted
  let next := pickNext (← get)
  parkCurrent link
  switchTo layout next

/-- A tick that interrupted kernel code, with the frame and where it lies. -/
def schedTickKernel (env : Env) (frame : Frame) (address : Nat) : M (Event × Option Frame) := do
  require (env.cpu.interruptsDisabled && env.cpu.irqInContext && env.heldLocks == 0) "tick_context"
  check layout env.cpu.interruptsDisabled
  let s ← get
  require (match bounds s s.current with
    | none => false
    | some (lo, hi) => decide (lo ≤ address) && decide (address ≤ hi - frameBytes)) "irq_frame_owner"
  require (frameValid layout s s.current frame && frame.rflags &&& 0x200 != 0) "irq_frame"
  match pickNext s with
  | none => return (.returned true, some frame)
  | some next =>
    setThread s.current { s.threads s.current with saved := frame }
    return (← switchTo layout (some next), none)

/-- The interrupt dispatcher ends with the handoff and continues the frame it was given. -/
def continueWith (original : Option Frame) : M Unit := do
  let s ← get
  schedHandoff layout (original.getD (s.threads s.current).saved)

def schedTick (env : Env) (frame : Frame) (address : Nat) (accepted : Bool) : M Event := do
  let s ← get
  if !s.initialized then return .returned true
  if frame.cs % 4 = 3 then
    let event ← schedTickUser layout env accepted
    continueWith layout none
    return event
  else
    -- User code is interrupted with a user frame, always.
    require (s.mode = .kernel) "irq_frame"
    let (event, original) ← schedTickKernel layout env frame address
    continueWith layout original
    return event

/-- Another interrupt of user code: the thread leaves it and no selection takes place. -/
def schedParkCpl3 (env : Env) (accepted : Bool) : M Event := do
  require (env.cpu.interruptsDisabled && env.cpu.irqInContext && env.heldLocks == 0) "park_context"
  check layout env.cpu.interruptsDisabled
  parkCurrent (← trappedLink "park_link" accepted)
  continueWith layout none
  return .returned true

/-- `active` is the state of the context behind the link. -/
def threadAttachUser (env : Env) (link : Nat) (active : Bool) : M Bool := do
  let s ← get
  if !env.cpu.foreground || !s.initialized || (s.links link).bound then return false
  if !(s.links link).context || !active then return false
  check layout env.cpu.interruptsDisabled
  if (s.threads s.current).user.isSome then return false
  modify fun s => { s with links := update s.links link { s.links link with bound := true } }
  setThread s.current { s.threads s.current with user := some link }
  check layout env.cpu.interruptsDisabled
  return true

def threadDetachUser (env : Env) : M Bool := do
  let s ← get
  match (s.threads s.current).user with
  | none => return false
  | some link =>
    if !env.cpu.foreground || !s.initialized then return false
    check layout env.cpu.interruptsDisabled
    modify fun s => { s with links := update s.links link { s.links link with bound := false } }
    setThread s.current { s.threads s.current with user := none }
    check layout env.cpu.interruptsDisabled
    return true

def userEnterAsm (link : Nat) (regs : Registers) : M Unit :=
  modify fun s =>
    { s with links := update s.links link { s.links link with kernSave := enterFrame layout s regs }, mode := .user link }

/-- `user_enter`: `synced` is the answer of `sync_high`. -/
def userEnter (env : Env) (link : Nat) (active synced : Bool) (regs : Registers) : M Event := do
  if !(← threadAttachUser layout env link active) then return .returned false
  if !synced then
    require (← threadDetachUser layout env) "rollback_detach"
    return .returned false
  userEnterAsm layout link regs
  return .returned true

/-- `user_resume`: `active` covers its tests on the context and `sync_high`. -/
def userResume (env : Env) (link : Nat) (active : Bool) (regs : Registers) : M Event := do
  let s ← get
  if !env.cpu.foreground || !(s.links link).bound || !(s.links link).context || !active then return .returned false
  userEnterAsm layout link regs
  return .returned true

/-- From the gate and fault handlers, which run on the stack of the context that trapped. -/
def userScheduleNext (env : Env) (link retcode : Nat) : M Event := do
  let s ← get
  require (env.cpu.interruptsDisabled && !env.cpu.irqInContext) "user_next_context"
  require s.initialized "user_next_init"
  check layout env.cpu.interruptsDisabled
  require ((s.threads s.current).user = some link && (s.links link).bound && (s.links link).context) "user_next_link"
  require (decide (1 ≤ retcode) && decide (retcode ≤ 16)) "user_next_code"
  require (s.mode = .user link) "exit_rsp0"
  parkCurrent link
  let event ← switchTo layout (pickNext (← get))
  resume layout
  return event

end

/-! Operations: kernel calls of the running thread, from its own code or from a gate, and what the processor does to
it. -/

inductive Op
  | create (env : Env) (out : Bool) (entry : Nat) (rflags : BitVec 64) (backing : Bool)
  | join (env : Env) (id : Nat) (intact : Bool)
  | yield (env : Env) (regs : Registers)
  | exit (env : Env)
  | detach (env : Env)
  | enter (env : Env) (link : Nat) (active synced : Bool) (regs : Registers)
  | resumeUser (env : Env) (link : Nat) (active : Bool) (regs : Registers)
  | tick (env : Env) (frame : Frame) (address : Nat) (accepted : Bool)
  | park (env : Env) (accepted : Bool)
  | userNext (env : Env) (link retcode : Nat)

/-- The callers of these are the worker loop and the trampoline, on the thread's own stack. -/
def fromKernel (call : M Event) : M Event := do
  require ((← get).mode = .kernel) "not_in_kernel"
  call

def Op.perform (layout : Layout) : Op → M Event
  | .create env out entry rflags backing => threadCreateWithFlags layout env out entry rflags backing
  | .join env id intact => threadJoin layout env id intact
  | .yield env regs => threadYield layout env regs
  | .exit env => fromKernel (threadExit layout env)
  | .detach env => fromKernel (.returned <$> threadDetachUser layout env)
  | .enter env link active synced regs => fromKernel (userEnter layout env link active synced regs)
  | .resumeUser env link active regs => fromKernel (userResume layout env link active regs)
  | .tick env frame address accepted => schedTick layout env frame address accepted
  | .park env accepted => schedParkCpl3 layout env accepted
  | .userNext env link retcode => userScheduleNext layout env link retcode

end Rynor.Sched
