import Rynor.Core.ProcSpawn

/-! Waiting, termination and recycling of slots in proc.c, and the system of direct calls,
running programs and workers. A join may yield; `perform` runs what the other threads do
meanwhile. -/

namespace Rynor.Proc

/-- The answers of other modules while slots are freed, by slot. -/
structure FreeEnv where
  cpu : Cpu
  sync : Nat → Bool
  destroyed : Nat → Bool

def joinBound : Nat := 1000000

/-- A live child outlives its owner: the kernel adopts it and asks it to stop. -/
def reparent (i : Nat) : ProcM PUnit := do
  let state ← get
  let slot := state.slots i
  set { state with
    slots := Function.update state.slots i { slot with owner := ownerKernel, killRequested := true }
    orphaned := state.orphaned ++ [(i, slot.gen)] }

def recycle (i : Nat) : ProcM PUnit := do
  let state ← get
  let slot := state.slots i
  set { state with
    slots := Function.update state.slots i { slot with
      ctx := none, state := .free, workerValid := false, killRequested := false, owner := ownerKernel, exitCode := 0,
      faultVector := 0, faultError := 0, gen := bump slot.gen }
    reaped := state.reaped ++ [(i, slot.gen)] }

section
variable {ι : Type} (perform : Option ι → ProcM Bool) (env : FreeEnv)

def joinLoop (i : Nat) : Nat → List ι → ProcM (Bool × List ι)
  | 0, rest => return (false, rest)
  | turns + 1, rest => do
    let slot := (← get).slots i
    if ← threadJoin env.cpu slot.worker then
      setSlot i { slot with workerValid := false }
      require (env.sync i) "join_sync"
      return (true, rest)
    if !(← perform rest.head?) then return (false, rest.tail)
    joinLoop i turns rest.tail

def joinWorker (i : Nat) (rest : List ι) : ProcM (Bool × List ι) := do
  if !((← get).slots i).workerValid then return (false, rest)
  joinLoop perform env i joinBound rest

/-- The first loop of `cleanup_owned`, over the slots `pending`. -/
def cleanupChildren (reap : Nat → List ι → ProcM (Bool × List ι)) (owner : Int) :
    List Nat → List ι → ProcM (Bool × List ι)
  | [], rest => return (true, rest)
  | i :: pending, rest => do
    let slot := (← get).slots i
    if slot.state = .free || slot.owner ≠ owner then cleanupChildren reap owner pending rest
    else if slot.state = .active || slot.state = .loading then
      reparent i
      cleanupChildren reap owner pending rest
    else
      let (reaped, rest) ← reap i rest
      if !reaped then return (false, rest)
      cleanupChildren reap owner pending rest

def cleanupOwned (reap : Nat → List ι → ProcM (Bool × List ι)) (owner : Int) (rest : List ι) :
    ProcM (Bool × List ι) := do
  let (cleaned, rest) ← cleanupChildren reap owner (List.range maxProcs) rest
  if !cleaned then return (false, rest)
  let state ← get
  return (!(List.range maxProcs).any fun i => (state.slots i).state ≠ .free && (state.slots i).owner = owner, rest)

/-- Depth bounds the chain of owners; past it the kernel stack would be exhausted. -/
def freeJoined : (depth : Nat) → (i : Nat) → List ι → ProcM (Bool × List ι)
  | 0, _, _ => throw (.other "recursion")
  | depth + 1, i, rest => do
    let reap := fun child rest => do
      let (joined, rest) ← joinWorker perform env child rest
      if !joined then return (false, rest)
      freeJoined depth child rest
    let (cleaned, rest) ← cleanupOwned reap i rest
    if !cleaned then return (false, rest)
    match ((← get).slots i).ctx with
    | none => return (false, rest)
    | some c =>
      if !(← userDestroy c (env.destroyed i)) then return (false, rest)
      recycle i
      return (true, rest)

structure WaitArgs where
  handle : Nat
  status : Bool
  owner : Int
  selfSlot : Int

inductive WaitReply
  | refused (result : SysResult)
  | status (status : ProcStatus)
  deriving DecidableEq

/-- The published status, or `none` for a slot that is not terminal. -/
def Slot.status (slot : Slot) : Option ProcStatus :=
  match slot.state with
  | .exited => some ⟨.exited, slot.exitCode % 2 ^ 32, 0⟩
  | .faulted => some ⟨.faulted, slot.faultVector % 2 ^ 32, slot.faultError % 2 ^ 32⟩
  | .aborted => some ⟨.aborted, 0, 0⟩
  | _ => none

/-- Join, free and publish a terminal slot, for the owner that asked. -/
def consume (userCheck : Bool) (i handle : Nat) (owner : Int) (status : ProcStatus) (schedule : List ι) :
    ProcM WaitReply := do
  let (joined, rest) ← joinWorker perform env i schedule
  require joined "wait_join"
  let (freed, _) ← freeJoined perform env maxProcs i rest
  require freed "wait_free"
  require userCheck "wait_check"
  requireProcCheck env.cpu "wait_check"
  modify fun state => { state with
    delivered := state.delivered ++ [(handle, status)]
    claimed := state.claimed ++ if owner = ownerKernel then [(i, handle / 2 ^ 32)] else [] }
  return .status status

def procWait (userCheck : Bool) (args : WaitArgs) (schedule : List ι) : ProcM WaitReply := do
  let state ← get
  if !env.cpu.foreground || !state.ready || !args.status then return .refused .inval
  match decode state args.handle with
  | none => return .refused .badHandle
  | some i =>
  let slot := state.slots i
  if args.selfSlot ≥ 0 && (i : Int) = args.selfSlot then
    if slot.state = .active || slot.state = .loading then return .status .running
    else return .refused .badHandle
  else if slot.owner ≠ args.owner then return .refused .badHandle
  else if slot.state = .active || slot.state = .loading then return .status .running
  else
    match state.threads slot.worker with
    | none => throw (.other "wait_tstate")
    | some thread =>
      if thread.phase ≠ .exited then return .status .running
      else
        match slot.status with
        | none => return .refused .badHandle
        | some status => consume perform env userCheck i args.handle args.owner status schedule

end

def procTerminate (cpu : Cpu) (handle : Nat) (owner selfSlot : Int) : ProcM SysResult := do
  let state ← get
  if !cpu.foreground || !state.ready then return .inval
  match decode state handle with
  | none => return .badHandle
  | some i =>
  let slot := state.slots i
  if selfSlot ≥ 0 && (i : Int) = selfSlot then return .inval
  if slot.owner ≠ owner then return .badHandle
  if slot.state ≠ .active && slot.state ≠ .loading then return .alreadyGone
  setSlot i { slot with killRequested := true }
  requireProcCheck cpu "terminate_check"
  return .ok

/-! The system: direct calls, running programs and their workers. -/

/-- What a thread other than the caller of a suspended wait may do. A program's calls
carry its own slot as owner and self. -/
inductive Event
  | programSpawn (id : Nat) (args : SpawnArgs) (env : SpawnEnv)
  | programSpawnPipe (id : Nat) (args : PipeArgs) (env : PipeSpawnEnv)
  | programWait (id : Nat) (handle : Nat) (userCheck : Bool) (env : FreeEnv)
  | programTerminate (id : Nat) (cpu : Cpu) (handle : Nat)
  | programPause (id : Nat)
  | gate (cpu : Cpu) (heapFree : Bool) (id : Nat) (terminal : Terminal) (code detail : Nat)
  | workerEnter (cpu : Cpu) (id : Nat) (entered : Bool)
  | workerTurn (cpu : Cpu) (heapFree : Bool) (id : Nat) (marked resumed : Bool)

/-- A gate stack is no scheduler frame: once another thread runs, the next scheduler
check stops the machine. -/
def yieldOnGate {ι : Type} (_ : Option ι) : ProcM Bool := throw (.other "state_or_context")

/-- A call of the program on thread `id`; it resumes with a run code of its own. -/
def asProgram (id : Nat) (call : Int → ProcM PUnit) : ProcM PUnit := do
  let state ← get
  match state.threads id with
  | some ⟨slot, .inUser c⟩ =>
    require ((state.contexts c).state = .active) "exit_state"
    call (procOwnerOf state c)
    setThread id (some ⟨slot, .returned c .resumable⟩)
  | _ => return ⟨⟩

def Event.perform : Event → ProcM PUnit
  | .programSpawn id args env => asProgram id fun owner => do let _ ← procSpawnImage { args with owner } env
  | .programSpawnPipe id args env => asProgram id fun owner => do let _ ← procSpawnPipe { args with owner } env
  | .programWait id handle userCheck env =>
    asProgram id fun owner => do
      let _ ← procWait (ι := Empty) yieldOnGate env userCheck ⟨handle, true, owner, owner⟩ []
  | .programTerminate id cpu handle => asProgram id fun owner => do let _ ← procTerminate cpu handle owner owner
  | .programPause id => asProgram id fun _ => pure ⟨⟩
  | .gate cpu heapFree id terminal code detail => gateTerminal cpu heapFree id terminal code detail
  | .workerEnter cpu id entered => Proc.workerEnter cpu id entered
  | .workerTurn cpu heapFree id marked resumed => Proc.workerTurn cpu heapFree id marked resumed

/-- One `thread_yield`: refused, or the other threads' events before it returns. -/
structure Yield where
  yields : Bool
  events : List Event

def performAll : List Event → ProcM PUnit
  | [] => pure ⟨⟩
  | event :: events => do
    event.perform
    performAll events

/-- A yield on a kernel stack. Past the schedule nobody else acts. -/
def yieldInKernel : Option Yield → ProcM Bool
  | none => return true
  | some turn => do
    if !turn.yields then return false
    performAll turn.events
    return true

inductive Op
  | init (cpu : Cpu)
  | spawnImage (args : SpawnArgs) (env : SpawnEnv)
  | spawnPipe (args : PipeArgs) (env : PipeSpawnEnv)
  | wait (onGate : Bool) (args : WaitArgs) (userCheck : Bool) (env : FreeEnv) (schedule : List Yield)
  | terminate (cpu : Cpu) (handle : Nat) (owner selfSlot : Int)
  | event (event : Event)

inductive Reply
  | ready (ready : Bool)
  | spawn (reply : SpawnReply)
  | wait (reply : WaitReply)
  | terminate (result : SysResult)
  | done
  deriving DecidableEq

def Op.perform : Op → ProcM Reply
  | .init cpu => do return .ready (← procInitialize cpu)
  | .spawnImage args env => do return .spawn (← procSpawnImage args env)
  | .spawnPipe args env => do return .spawn (← procSpawnPipe args env)
  | .wait onGate args userCheck env schedule => do
    return .wait (← procWait (if onGate then yieldOnGate else yieldInKernel) env userCheck args schedule)
  | .terminate cpu handle owner selfSlot => do return .terminate (← procTerminate cpu handle owner selfSlot)
  | .event occurring => do
    occurring.perform
    return .done

/-- A step of the system; `none` is a stopped machine. -/
def step (state : State) (op : Op) : Option (Reply × State) := (op.perform state).toOption

end Rynor.Proc
