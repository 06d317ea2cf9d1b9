import Rynor.Core.Machine
import Rynor.Lib.ByteMemory

/-! The kernel pipe of kernel/core/pipe.c: one bounded ring with two endpoints, each held
by a process slot. -/

namespace Rynor

def pipeCap : Nat := 4096
def maxProcs : Nat := 3

/-! The endpoint selectors of uapi.h. -/

def stdinClosed : Nat := 0
def stdinKbd : Nat := 1
def stdinPipe : Nat := 2
def stdoutSerial : Nat := 0
def stdoutPipe : Nat := 1

/-- The results of uapi.h that the pipe and process calls return. -/
inductive SysResult
  | ok | again | inval | notFound | malformed | badHandle | busy | noMem | badArg | alreadyGone | ioErr | alreadyExists | noSpc
  deriving DecidableEq, Repr

/-- A stop of the machine with its message, by the check that asked for it. -/
inductive Halt
  | procCheck (why : String)
  | pipeCheck (why : String)
  | other (why : String)
  deriving DecidableEq, Repr

/-- What `proc_slot_info` reports of a slot. -/
structure SlotInfo where
  gen : Nat
  stdinSel : Nat
  stdoutSel : Nat
  live : Bool
  deriving DecidableEq

/-- What a pipe call reads outside pipe.c: the processor, the process table and whether the
heap takes a block back. -/
structure PipeEnv where
  cpu : Cpu
  slotInfo : Nat → Option SlotInfo
  heapFree : Bool

/-- The file-scope variables of pipe.c. The ring is an address and the bytes behind it;
`freed` is the history of the blocks returned to the heap. -/
structure Pipe where
  live : Bool
  ring : Option Nat
  bytes : ByteMemory
  rpos : Nat
  wpos : Nat
  count : Nat
  rslot : Nat
  wslot : Nat
  rgen : Nat
  wgen : Nat
  readerOpen : Bool
  writerOpen : Bool
  fullStalls : Nat
  emptyStalls : Nat
  turns : Nat
  totalWritten : Nat
  totalRead : Nat
  freed : List Nat

namespace Pipe

/-- Zero-initialised storage. -/
def boot : Pipe :=
  { live := false, ring := none, bytes := fun _ => 0, rpos := 0, wpos := 0, count := 0, rslot := 0, wslot := 0,
    rgen := 0, wgen := 0, readerOpen := false, writerOpen := false, fullStalls := 0, emptyStalls := 0, turns := 0,
    totalWritten := 0, totalRead := 0, freed := [] }

/-- An open endpoint sits on a live slot of its generation; `role` is the selector test. -/
def endpointOk (info : Option SlotInfo) (gen : Nat) (role : SlotInfo → Bool) : Bool :=
  match info with
  | none => false
  | some slot => slot.live && slot.gen == gen && role slot

def pipeCheck (pipe : Pipe) (env : PipeEnv) : Bool :=
  if !env.cpu.interruptsDisabled then false
  else if pipe.count > pipeCap then false
  else if pipe.rpos ≥ pipeCap || pipe.wpos ≥ pipeCap then false
  else if !pipe.live then
    if pipe.ring.isSome || pipe.count ≠ 0 || pipe.rpos ≠ 0 || pipe.wpos ≠ 0 then false
    else if pipe.readerOpen || pipe.writerOpen then false
    else if pipe.rgen ≠ 0 || pipe.wgen ≠ 0 then false
    else true
  else if pipe.ring.isNone then false
  else if pipe.rslot ≥ maxProcs || pipe.wslot ≥ maxProcs then false
  else if pipe.rslot = pipe.wslot then false
  else if pipe.readerOpen && !endpointOk (env.slotInfo pipe.rslot) pipe.rgen (·.stdinSel == stdinPipe) then false
  else if pipe.writerOpen && !endpointOk (env.slotInfo pipe.wslot) pipe.wgen (·.stdoutSel == stdoutPipe) then false
  else true

/-- `if (!pipe_check()) panic(why);` before the reply. -/
def checked {ρ : Type} (pipe : Pipe) (env : PipeEnv) (why : String) (reply : ρ) : Except Halt (ρ × Pipe) :=
  if pipe.pipeCheck env then .ok (reply, pipe) else .error (.pipeCheck why)

/-- `block` is what the heap returns; the fresh ring is zeroed. -/
def pipeRingAlloc (pipe : Pipe) (env : PipeEnv) (block : Option Nat) : Option Nat × Pipe :=
  if !env.cpu.foreground then (none, pipe)
  else
    match block with
    | none => (none, pipe)
    | some address => (some address, { pipe with bytes := fun _ => 0 })

def pipeRingFree (pipe : Pipe) (env : PipeEnv) (block : Option Nat) : Except Halt (Bool × Pipe) :=
  match block with
  | none => .ok (false, pipe)
  | some address =>
    if !env.cpu.foreground then .ok (false, pipe)
    else if !env.heapFree then .error (.other "ring_free")
    else .ok (true, { pipe with freed := pipe.freed ++ [address] })

def pipeAttach (pipe : Pipe) (env : PipeEnv) (ring : Option Nat) (wslot wgen rslot rgen : Nat) :
    Except Halt (Bool × Pipe) :=
  if !env.cpu.foreground || ring.isNone then .ok (false, pipe)
  else if pipe.live || pipe.ring.isSome then .ok (false, pipe)
  else if wslot ≥ maxProcs || rslot ≥ maxProcs then .ok (false, pipe)
  else if wslot = rslot || wgen = 0 || rgen = 0 then .ok (false, pipe)
  else
    checked { pipe with
      ring, wslot, wgen, rslot, rgen, rpos := 0, wpos := 0, count := 0, readerOpen := true, writerOpen := true,
      fullStalls := 0, emptyStalls := 0, turns := 0, totalWritten := 0, totalRead := 0, live := true }
      env "attach_check" true

/-- `ring[wpos++] = byte`, wrapping at the capacity. -/
def put (pipe : Pipe) (byte : UInt8) : Pipe :=
  let bytes := Function.update pipe.bytes pipe.wpos byte
  if pipe.wpos + 1 = pipeCap then { pipe with bytes, wpos := 0, turns := (pipe.turns + 1) % u64 }
  else { pipe with bytes, wpos := pipe.wpos + 1 }

/-- The copy loop of `pipe_write`. -/
def enqueue (pipe : Pipe) (src : ByteMemory) : Nat → Pipe
  | 0 => pipe
  | n + 1 => (pipe.enqueue src n).put (src n)

/-- `(cpu_u64)-1`: no reader is left. -/
def writeBroken : Nat := u64 - 1

/-- `(cpu_u64)-2`: the call is refused. -/
def writeRefused : Nat := u64 - 2

def pipeWrite (pipe : Pipe) (env : PipeEnv) (slot gen : Nat) (src : Option ByteMemory) (len : Nat) :
    Except Halt (Nat × Pipe) :=
  match src with
  | none => .ok (writeRefused, pipe)
  | some src =>
    if !env.cpu.foreground then .ok (writeRefused, pipe)
    else if !pipe.live || pipe.ring.isNone then .ok (writeRefused, pipe)
    else if len > pipeCap then .ok (writeRefused, pipe)
    else if slot ≠ pipe.wslot || gen ≠ pipe.wgen then .ok (writeRefused, pipe)
    else if !pipe.writerOpen then .ok (writeRefused, pipe)
    else if !pipe.readerOpen then .ok (writeBroken, pipe)
    else if pipe.count > pipeCap then .ok (writeRefused, pipe)
    else
      let space := pipeCap - pipe.count
      if len = 0 then .ok (0, pipe)
      else if space = 0 then .ok (0, { pipe with fullStalls := (pipe.fullStalls + 1) % u64 })
      else
        let n := min len space
        let filled := pipe.enqueue src n
        checked { filled with count := pipe.count + n, totalWritten := (pipe.totalWritten + n) % u64 } env
          "write_check" n

/-- `staged` is the result with the bytes copied to the caller's buffer on `SYS_OK`. -/
inductive StageReply
  | refused (result : SysResult)
  | staged (data : List UInt8)
  deriving DecidableEq

/-- `dst` and `n` say whether the output pointers are given. -/
def pipeReadStage (pipe : Pipe) (env : PipeEnv) (slot gen : Nat) (dst : Bool) (len : Nat) (n : Bool) :
    StageReply × Pipe :=
  if !env.cpu.foreground || !dst || !n then (.refused .inval, pipe)
  else if !pipe.live || pipe.ring.isNone then (.refused .inval, pipe)
  else if len > pipeCap then (.refused .inval, pipe)
  else if slot ≠ pipe.rslot || gen ≠ pipe.rgen then (.refused .inval, pipe)
  else if !pipe.readerOpen then (.refused .inval, pipe)
  else if pipe.count > pipeCap then (.refused .inval, pipe)
  else if pipe.count = 0 then
    if pipe.writerOpen then (.refused .again, { pipe with emptyStalls := (pipe.emptyStalls + 1) % u64 })
    else (.staged [], pipe)
  else
    let take := min len pipe.count
    if take = 0 then (.refused .again, { pipe with emptyStalls := (pipe.emptyStalls + 1) % u64 })
    else (.staged ((List.range take).map fun i => pipe.bytes ((pipe.rpos + i) % pipeCap)), pipe)

/-- `++rpos`, wrapping at the capacity. -/
def skip (pipe : Pipe) : Pipe :=
  if pipe.rpos + 1 = pipeCap then { pipe with rpos := 0, turns := (pipe.turns + 1) % u64 }
  else { pipe with rpos := pipe.rpos + 1 }

/-- The loop of `pipe_read_commit`. -/
def dequeue (pipe : Pipe) : Nat → Pipe
  | 0 => pipe
  | n + 1 => (pipe.dequeue n).skip

def pipeReadCommit (pipe : Pipe) (env : PipeEnv) (n : Nat) : Except Halt (Bool × Pipe) :=
  if !env.cpu.foreground then .ok (false, pipe)
  else if !pipe.live || pipe.ring.isNone then .ok (false, pipe)
  else if n > pipe.count || n > pipeCap || pipe.rpos ≥ pipeCap then .ok (false, pipe)
  else
    let emptied := pipe.dequeue n
    checked { emptied with count := pipe.count - n, totalRead := (pipe.totalRead + n) % u64 } env "commit_check" true

/-- The tail of `pipe_note_terminal` once an endpoint is closed: the second close frees
the ring. -/
def closeOut (pipe : Pipe) (env : PipeEnv) : Except Halt (Bool × Pipe) :=
  if !pipe.readerOpen && !pipe.writerOpen then
    match pipeRingFree { pipe with ring := none, rpos := 0, wpos := 0, count := 0, rgen := 0, wgen := 0, live := false } env pipe.ring with
    | .error halt => .error halt
    | .ok (false, cleared) => .ok (false, cleared)
    | .ok (true, cleared) => checked cleared env "close_check" true
  else checked pipe env "close_check" true

def pipeNoteTerminal (pipe : Pipe) (env : PipeEnv) (slot gen : Nat) : Except Halt (Bool × Pipe) :=
  if !env.cpu.foreground then .ok (false, pipe)
  else if !pipe.live then .ok (true, pipe)
  else if slot = pipe.wslot then
    if gen ≠ pipe.wgen then .ok (true, pipe)
    else if !pipe.writerOpen then .ok (false, pipe)
    else closeOut { pipe with writerOpen := false } env
  else if slot = pipe.rslot then
    if gen ≠ pipe.rgen then .ok (true, pipe)
    else if !pipe.readerOpen then .ok (false, pipe)
    else closeOut { pipe with readerOpen := false } env
  else .ok (true, pipe)

/-! One attached pipe under calls in any order. -/

inductive Op
  | write (slot gen : Nat) (src : Option ByteMemory) (len : Nat)
  | stage (slot gen : Nat) (dst : Bool) (len : Nat) (n : Bool)
  | commit (n : Nat)
  | noteTerminal (slot gen : Nat)

structure Call where
  env : PipeEnv
  op : Op

inductive Reply
  | wrote (n : Nat)
  | stage (reply : StageReply)
  | done (accepted : Bool)
  deriving DecidableEq

def perform (pipe : Pipe) (call : Call) : Except Halt (Reply × Pipe) :=
  match call.op with
  | .write slot gen src len => (pipe.pipeWrite call.env slot gen src len).map fun (n, next) => (.wrote n, next)
  | .stage slot gen dst len n =>
    let (reply, next) := pipe.pipeReadStage call.env slot gen dst len n
    .ok (.stage reply, next)
  | .commit n => (pipe.pipeReadCommit call.env n).map fun (accepted, next) => (.done accepted, next)
  | .noteTerminal slot gen =>
    (pipe.pipeNoteTerminal call.env slot gen).map fun (accepted, next) => (.done accepted, next)

end Pipe
end Rynor
