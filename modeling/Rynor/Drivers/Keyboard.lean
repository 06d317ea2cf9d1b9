import Mathlib.Logic.Function.Basic
import Rynor.Core.Machine

/-! The PS/2 keyboard of kernel/drivers/keyboard.c: the input ring with its loss epochs, the
interrupt side that fills it and the two consumers that empty it. `none` is a halted machine. -/

namespace Rynor

def kbdRingCapacity : Nat := 31
def kbdStorage : Nat := kbdRingCapacity + 1
def kbdMask : Nat := kbdStorage - 1
def kbdKeyCtrl : UInt8 := 0x1d

def statusObf : UInt8 := 0x01
def statusAux : UInt8 := 0x20
def statusError : UInt8 := 0xc0
def irqBase : Nat := 32
def flushLimit : Nat := 256

structure KbdSample where
  epoch : Nat
  scan : UInt8
  deriving DecidableEq

structure KbdRing where
  data : Nat → KbdSample
  head : Nat
  tail : Nat
  received : Nat
  dropped : Nat
  epoch : Nat

inductive KbdEventType
  | unknown | press | release
  deriving DecidableEq

structure KbdEvent where
  scan : UInt8
  key : UInt8
  type : KbdEventType
  extended : Bool
  deriving DecidableEq

structure KbdDecoder where
  extended : Bool
  pause : Nat
  deriving DecidableEq

/-- The counters of `kbd_statistics` that the driver keeps itself. -/
structure KbdStatistics where
  irqs : Nat
  reads : Nat
  errors : Nat
  auxiliary : Nat
  emptyIrqs : Nat
  deriving DecidableEq

inductive DriverState
  | off | starting | ready | failed
  deriving DecidableEq

inductive KbdResult
  | badContext | notReady | empty | event | lost
  deriving DecidableEq, Repr

structure Keyboard where
  state : DriverState
  input : KbdRing
  decoder : KbdDecoder
  stats : KbdStatistics
  consumedEpoch : Nat

/-- Zero-initialised storage, with the driver in the given state. -/
def Keyboard.boot (state : DriverState) : Keyboard :=
  { state
    input := { data := fun _ => ⟨0, 0⟩, head := 0, tail := 0, received := 0, dropped := 0, epoch := 0 }
    decoder := ⟨false, 0⟩
    stats := ⟨0, 0, 0, 0, 0⟩
    consumedEpoch := 0 }

/-- Negative for a corrupt ring or exhausted counters, zero for a drop, one for a stored byte. -/
def kbdRingPut (q : KbdRing) (scan : UInt8) : Int × KbdRing :=
  if q.head ≥ kbdStorage ∨ q.tail ≥ kbdStorage ∨ q.received = u64 - 1 ∨ q.dropped = u64 - 1 ∨ q.epoch = u64 - 1 then
    (-1, q)
  else
    let next := (q.head + 1) &&& kbdMask
    if next = q.tail then
      (0, { q with dropped := q.dropped + 1, epoch := q.epoch + 1 })
    else
      (1, { q with data := Function.update q.data q.head ⟨q.epoch, scan⟩, head := next, received := q.received + 1 })

/-- The result and the sample written through `out`, which no caller passes null. -/
def kbdRingGet (q : KbdRing) : Int × Option KbdSample × KbdRing :=
  if q.head ≥ kbdStorage ∨ q.tail ≥ kbdStorage then (-1, none, q)
  else if q.head = q.tail then (0, none, q)
  else (1, some (q.data q.tail), { q with tail := (q.tail + 1) &&& kbdMask })

def pauseTail : List UInt8 := [0x1d, 0x45, 0xe1, 0x9d, 0xc5]

/-- Whether the byte completes a key, the decoder after it and the event written to `out`. -/
def kbdDecode (d : KbdDecoder) (scan : UInt8) : Bool × KbdDecoder × KbdEvent :=
  let out : KbdEvent := ⟨scan, 0, .unknown, false⟩
  let direction : KbdEventType := if scan &&& 0x80 ≠ 0 then .release else .press
  if d.pause ≠ 0 then
    let n := d.pause - 1
    let matched := n < pauseTail.length ∧ pauseTail[n]? = some scan ∧ n + 1 < pauseTail.length
    (false, { d with pause := if matched then d.pause + 1 else 0 }, out)
  else if scan = 0xe1 then (false, { extended := false, pause := 1 }, out)
  else if scan = 0xe0 then (false, { d with extended := true }, out)
  else if d.extended then
    if scan = 0x1d ∨ scan = 0x9d then
      (true, { d with extended := false }, { out with key := kbdKeyCtrl, type := direction, extended := true })
    else (false, { d with extended := false }, out)
  else if scan = 0x1d ∨ scan = 0x9d then (true, d, { out with key := kbdKeyCtrl, type := direction })
  else
    let key := scan &&& 0x7f
    if key ∈ [0x1e, 0x30, 0x2e, 0x20, 0x39, 0x1c, 0x2a, 0x36] then (true, d, { out with key, type := direction })
    else (false, d, out)

def increment (n : Nat) : Option Nat := if n = u64 - 1 then none else some (n + 1)

/-- A controller error: counted, and a loss for the consumers. -/
def Keyboard.countError (k : Keyboard) : Option Keyboard := do
  let errors ← increment k.stats.errors
  let epoch ← increment k.input.epoch
  return { k with stats.errors := errors, input.epoch := epoch }

def deliverByte (status scan : UInt8) (k : Keyboard) : Option Keyboard := do
  let reads ← increment k.stats.reads
  let k := { k with stats.reads := reads }
  if status &&& statusAux ≠ 0 then
    let auxiliary ← increment k.stats.auxiliary
    return { k with stats.auxiliary := auxiliary }
  else if status &&& statusError ≠ 0 then k.countError
  else if scan = 0x00 ∨ scan = 0xff then k.countError
  else
    let (stored, input) := kbdRingPut k.input scan
    if stored < 0 then none else return { k with input }

/-- `status` and `scan` are what the two ports read. -/
def kbdIsr (vector : Nat) (cpu : Cpu) (status scan : UInt8) (k : Keyboard) : Option Keyboard :=
  if vector ≠ irqBase + 1 then none
  else if k.state ≠ .ready ∨ ¬cpu.interruptsDisabled ∨ ¬cpu.irqInContext then none
  else do
    let irqs ← increment k.stats.irqs
    let k := { k with stats.irqs := irqs }
    if status &&& statusObf = 0 then
      let emptyIrqs ← increment k.stats.emptyIrqs
      return { k with stats.emptyIrqs := emptyIrqs }
    else deliverByte status scan k

/-- The drain of `kbd_enable` over what the ports read in each turn. -/
def drain (ports : Nat → UInt8 × UInt8) : (turn left : Nat) → Keyboard → Option Keyboard
  | _, 0, k => some k
  | turn, left + 1, k =>
    if (ports turn).1 &&& statusObf = 0 then some k
    else (deliverByte (ports turn).1 (ports turn).2 k).bind (drain ports (turn + 1) left)

/-- `routed` is the answer of `irq_set_enabled`. -/
def kbdEnable (cpu : Cpu) (routed : Bool) (ports : Nat → UInt8 × UInt8) (k : Keyboard) : Option (Bool × Keyboard) :=
  if k.state ≠ .ready ∨ cpu.foreground = false then some (false, k)
  else if ¬routed then some (false, k)
  else (drain ports 0 flushLimit k).map fun k => (true, k)

/-- The epoch of the next sample, or the current one. -/
def KbdRing.seenEpoch (q : KbdRing) : Nat := if q.head = q.tail then q.epoch else (q.data q.tail).epoch

/-- `kbd_stream_next`: the result, the event written to `out` and the three objects it works on. -/
def kbdStreamNext (q : KbdRing) (d : KbdDecoder) (seen : Nat) :
    KbdResult × Option KbdEvent × KbdRing × KbdDecoder × Nat :=
  if q.head ≥ kbdStorage ∨ q.tail ≥ kbdStorage then (.badContext, none, q, d, seen)
  else if q.seenEpoch ≠ seen then (.lost, none, q, ⟨false, 0⟩, q.seenEpoch)
  else
    match kbdRingGet q with
    | (got, sample, q) =>
      if got < 0 then (.badContext, none, q, d, seen)
      else
        match sample with
        | some sample =>
          let (_, d, out) := kbdDecode d sample.scan
          (.event, some out, q, d, seen)
        | none => (.empty, none, q, d, seen)

/-- `out` tells a non-null pointer. A corrupt ring halts the machine. -/
def kbdPoll (out : Bool) (cpu : Cpu) (k : Keyboard) : Option (KbdResult × Option KbdEvent × Keyboard) :=
  if ¬out ∨ cpu.irqInContext then some (.badContext, none, k)
  else if k.state ≠ .ready then some (.notReady, none, k)
  else
    match kbdStreamNext k.input k.decoder k.consumedEpoch with
    | (result, event, input, decoder, consumedEpoch) =>
      if result = .badContext then none else some (result, event, { k with input, decoder, consumedEpoch })

/-- The raw consumer: the result, the byte written through `out` and the driver after it. -/
def kbdTake (out : Bool) (cpu : Cpu) (k : Keyboard) : Option (KbdResult × Option UInt8 × Keyboard) :=
  if ¬out ∨ cpu.irqInContext then some (.badContext, none, k)
  else if k.state ≠ .ready then some (.notReady, none, k)
  else if k.input.head ≥ kbdStorage ∨ k.input.tail ≥ kbdStorage then none
  else if k.input.seenEpoch ≠ k.consumedEpoch then
    some (.lost, none, { k with consumedEpoch := k.input.seenEpoch, decoder := ⟨false, 0⟩ })
  else
    match kbdRingGet k.input with
    | (got, sample, input) =>
      if got < 0 then none
      else
        match sample with
        | some sample => some (.event, some sample.scan, { k with input })
        | none => some (.empty, none, { k with input })

end Rynor
