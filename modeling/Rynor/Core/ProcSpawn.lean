import Rynor.Core.Proc

/-! Admission of processes in proc.c: one image, or two images joined by a pipe. -/

namespace Rynor.Proc

inductive SpawnReply
  | refused (result : SysResult)
  | spawned (handles : List Nat)
  deriving DecidableEq

structure SpawnArgs where
  img : Bool
  len : Nat
  argVectors : Bool
  nargs : Nat
  stdinSel : Nat
  owner : Int
  handleOut : Bool

structure SpawnEnv where
  cpu : Cpu
  load : Loading
  userPrecheck : Bool
  thread : Bool
  sync : Bool
  userAdmit : Bool

def maxArgc : Nat := 8

def publish (i : Nat) : ProcM Nat := do
  let state ← get
  let slot := state.slots i
  let admission : Admission := ⟨i, slot.gen, slot.owner, packHandle i slot.gen⟩
  set { state with admitted := state.admitted ++ [admission] }
  return admission.handle

/-- Undo an unpublished single spawn: the generation stays. -/
def spawnFailed (i c : Nat) (destroyed : Bool) (why : String) : ProcM SpawnReply := do
  require (← userDestroy c destroyed) why
  setSlot i { (← get).slots i with ctx := none, state := .free }
  return .refused .noMem

/-- The last part of `proc_spawn_image`, from a worker thread on. -/
def admitImage (env : SpawnEnv) (i c worker stdinSel : Nat) (owner : Int) : ProcM SpawnReply := do
  require env.sync "spawn_sync"
  let slot := (← get).slots i
  setSlot i { slot with
    ctx := some c, worker, workerValid := true, owner, killRequested := false, stdinSel, stdoutSel := stdoutSerial,
    exitCode := 0, faultVector := 0, faultError := 0, state := .active }
  require env.userAdmit "spawn_admit"
  requireProcCheck env.cpu "spawn_admit"
  let state ← get
  require (!(List.range maxProcs).any fun j => j ≠ i && (state.slots j).state ≠ .free &&
    (state.slots j).ctx = some c) "spawn_alias"
  let handle ← publish i
  return .spawned [handle]

def procSpawnImage (args : SpawnArgs) (env : SpawnEnv) : ProcM SpawnReply := do
  let state ← get
  if !env.cpu.foreground || !state.ready || !args.img || args.len = 0 || !args.handleOut then return .refused .inval
  if args.nargs > maxArgc then return .refused .badArg
  if args.nargs ≠ 0 && !args.argVectors then return .refused .badArg
  if args.stdinSel ≠ stdinClosed && args.stdinSel ≠ stdinKbd then return .refused .badArg
  if ownerInvalid state args.owner then return .refused .badArg
  match env.load.layout with
  | none => return .refused .malformed
  | some layout =>
  match (List.range maxProcs).find? fun i => (state.slots i).state = .free with
  | none => return .refused .busy
  | some i =>
  setSlot i { state.slots i with state := .loading }
  match ← userCreateLoaded layout env.load.created with
  | none =>
    setSlot i { (← get).slots i with state := .free }
    return .refused .noMem
  | some c =>
  setSlot i { (← get).slots i with ctx := some c }
  if !env.load.argv then return ← spawnFailed i c env.load.destroyed "spawn_argv_destroy"
  require env.userPrecheck "spawn_precheck_user"
  requireProcCheck env.cpu "spawn_precheck_proc"
  match ← threadCreate i env.thread with
  | none => spawnFailed i c env.load.destroyed "spawn_thread_destroy"
  | some worker => admitImage env i c worker args.stdinSel args.owner

/-! Atomic admission of a pipeline. -/

/-- One side of a pipeline: the result of `fetch_image`, the loader's answers and whether
the heap takes the image staging back. -/
structure Side where
  fetch : SysResult
  load : Loading
  imgFree : Bool

structure PipeArgs where
  paths : Bool
  handlesOut : Bool
  argVectorsA : Bool
  nargsA : Nat
  argVectorsB : Bool
  nargsB : Nat
  stdinA : Nat
  owner : Int

structure PipeSpawnEnv where
  cpu : Cpu
  threadFreeCount : Nat
  block : Option Nat
  heapFree : Bool
  first : Side
  second : Side
  destroyedA : Bool
  destroyedB : Bool
  userPrecheck : Bool
  threadA : Bool
  threadB : Bool
  sync : Bool
  userAdmit : Bool

def rollbackSlot (i : Nat) (destroyed : Bool) : ProcM PUnit := do
  let slot := (← get).slots i
  match slot.ctx with
  | none => pure ⟨⟩
  | some c => require (← userDestroy c destroyed) "pipe_rollback_destroy"
  setSlot i { slot with
    ctx := none, state := .free, workerValid := false, killRequested := false, owner := ownerKernel, exitCode := 0,
    faultVector := 0, faultError := 0 }

/-- `rc` other than `SYS_OK` refuses; the slot's context is set on success only. -/
def prepareSide (i : Nat) (load : Loading) : ProcM SysResult := do
  match load.layout with
  | none => return .malformed
  | some layout =>
  match ← userCreateLoaded layout load.created with
  | none => return .noMem
  | some c =>
  let slot := (← get).slots i
  setSlot i { slot with ctx := some c }
  if load.argv then return .ok
  require (← userDestroy c load.destroyed) "pipe_argv_destroy"
  setSlot i { slot with ctx := none }
  return .noMem

def loadSide (i : Nat) (side : Side) : ProcM SysResult := do
  if side.fetch ≠ .ok then return side.fetch
  let rc ← prepareSide i side.load
  require side.imgFree "pipe_img"
  return rc

/-- Every failure after the ring exists gives it back and frees both slots. -/
def pipeFailed (env : PipeSpawnEnv) (ring : Option Nat) (a b : Nat) (rc : SysResult) : ProcM SpawnReply := do
  let pipeEnv := pipeEnv (← get) env.cpu env.heapFree
  let _ ← onPipe fun pipe => pipe.pipeRingFree pipeEnv ring
  rollbackSlot a env.destroyedA
  rollbackSlot b env.destroyedB
  return .refused rc

def reserve (i : Nat) (owner : Int) (stdinSel stdoutSel : Nat) : ProcM PUnit := do
  let slot := (← get).slots i
  setSlot i { slot with state := .loading, ctx := none, owner, workerValid := false, killRequested := false, stdinSel, stdoutSel }

def startSlot (i worker : Nat) : ProcM PUnit := do
  let slot := (← get).slots i
  setSlot i { slot with worker, workerValid := true, exitCode := 0, faultVector := 0, faultError := 0 }

def activate (i : Nat) : ProcM PUnit := do
  setSlot i { (← get).slots i with state := .active }

/-- Both workers exist: attach the ring and publish the two processes. -/
def admitPipe (env : PipeSpawnEnv) (ring : Option Nat) (a b workerA workerB : Nat) : ProcM SpawnReply := do
  require env.sync "pipe_sync"
  startSlot a workerA
  startSlot b workerB
  let state ← get
  let attached ← onPipe fun pipe =>
    pipe.pipeAttach (pipeEnv state env.cpu env.heapFree) ring a (state.slots a).gen b (state.slots b).gen
  require attached "pipe_attach"
  activate a
  activate b
  require env.userAdmit "pipe_admit"
  requireProcCheck env.cpu "pipe_admit"
  requirePipeCheck env.cpu "pipe_admit"
  let state ← get
  require (!(List.range maxProcs).any fun j => j ≠ a && j ≠ b && (state.slots j).state ≠ .free &&
    ((state.slots j).ctx = (state.slots a).ctx || (state.slots j).ctx = (state.slots b).ctx)) "pipe_alias"
  let handleA ← publish a
  let handleB ← publish b
  return .spawned [handleA, handleB]

/-- Both sides are loaded: create the workers. -/
def startPipe (env : PipeSpawnEnv) (ring : Option Nat) (a b : Nat) : ProcM SpawnReply := do
  require env.userPrecheck "pipe_precheck_user"
  requireProcCheck env.cpu "pipe_precheck_proc"
  match ← threadCreate a env.threadA with
  | none => pipeFailed env ring a b .noMem
  | some workerA =>
  match ← threadCreate b env.threadB with
  | none =>
    let pipeEnv := pipeEnv (← get) env.cpu env.heapFree
    let _ ← onPipe fun pipe => pipe.pipeRingFree pipeEnv ring
    throw (.other "pipe_worker_b")
  | some workerB => admitPipe env ring a b workerA workerB

def loadPipe (env : PipeSpawnEnv) (ring : Option Nat) (a b : Nat) : ProcM SpawnReply := do
  let rc ← loadSide a env.first
  if rc ≠ .ok then return ← pipeFailed env ring a b rc
  let rc ← loadSide b env.second
  if rc ≠ .ok then return ← pipeFailed env ring a b rc
  startPipe env ring a b

def procSpawnPipe (args : PipeArgs) (env : PipeSpawnEnv) : ProcM SpawnReply := do
  let state ← get
  if !env.cpu.foreground || !state.ready then return .refused .inval
  if !args.paths then return .refused .inval
  if !args.handlesOut then return .refused .inval
  if args.nargsA > maxArgc || args.nargsB > maxArgc then return .refused .badArg
  if (args.nargsA ≠ 0 && !args.argVectorsA) || (args.nargsB ≠ 0 && !args.argVectorsB) then return .refused .badArg
  if args.stdinA ≠ stdinClosed && args.stdinA ≠ stdinKbd then return .refused .badArg
  if ownerInvalid state args.owner then return .refused .badArg
  -- the first two free slots; fewer than two is `SYS_BUSY` before threads and pipe are looked at
  match (List.range maxProcs).filter fun i => (state.slots i).state = .free with
  | a :: b :: _ =>
    if env.threadFreeCount < 2 then return .refused .noMem
    if state.pipe.live then return .refused .busy
    reserve a args.owner args.stdinA stdoutPipe
    reserve b args.owner stdinPipe stdoutSerial
    let (ring, pipe) := state.pipe.pipeRingAlloc (pipeEnv state env.cpu env.heapFree) env.block
    set { ← get with pipe }
    match ring with
    | none =>
      rollbackSlot a env.destroyedA
      rollbackSlot b env.destroyedB
      return .refused .noMem
    | some address => loadPipe env (some address) a b
  | _ => return .refused .busy

end Rynor.Proc
