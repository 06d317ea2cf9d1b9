import Rynor.Lib.ByteMemory

/-! The block layer of kernel/storage/blk.c as its clients see it: at most four
devices of 512-byte sectors, transfers checked before any sector moves, one
command outstanding. The controller's registers are replaced by a `Drive` that
decides, command by command, whether a sector transfer succeeds. -/

namespace Rynor.Blk
open ByteMemory

def sectorSize : Nat := 512
def maxBlocks : Nat := 32
def maxDevices : Nat := 4
def lba28Max : Nat := 0x10000000

/-- `enum blk_result`. -/
inductive Result where
  | ok | invalid | range | unsupported | nodev | initFail | ioerr | timeout | denied
  deriving DecidableEq, Repr

/-- How `one_sector` ends a write. An error can be raised before the data phase,
when the sector keeps its bytes, or by the status poll after it, when the drive
has already taken them: the caller sees the same code. -/
inductive WriteOutcome where
  | stored | lost | ambiguous
  deriving DecidableEq, Repr

/-- The drive's behaviour, one decision for each sector command in issue order. -/
structure Drive where
  readFails : Nat → Bool
  write : Nat → WriteOutcome

def Drive.working : Drive := ⟨fun _ => false, fun _ => .stored⟩

/-- One discovered device. `check_geometry` caps the sector count at what LBA28
addresses. The log is history: every sector the drive has stored, oldest first. -/
structure Device where
  present : Bool
  writable : Bool
  blockCount : Nat
  disk : ByteMemory
  log : List (Nat × ByteMemory)
  addressable : blockCount ≤ lba28Max

structure State where
  devices : Nat → Device
  clock : Nat

/-- The devices discovery can return: a present one, not yet writable, for an image. -/
def Device.attach (image : List UInt8) : Device :=
  { present := true, writable := false, blockCount := min (image.length / sectorSize) lba28Max,
    disk := ofList image, log := [], addressable := Nat.min_le_right _ _ }

def State.setDevice (state : State) (id : Nat) (device : Device) : State :=
  { state with devices := fun other => if other = id then device else state.devices other }

def State.tick (state : State) : State := { state with clock := state.clock + 1 }

def Device.put (device : Device) (lba : Nat) (bytes : ByteMemory) : Device :=
  { device with disk := store sectorSize device.disk lba bytes, log := device.log ++ [(lba, bytes)] }

def blkDevice (state : State) (id : Nat) : Option Device :=
  if id < maxDevices ∧ (state.devices id).present = true then some (state.devices id) else none

def blkSetWritable (state : State) (id : Nat) : Result × State :=
  match blkDevice state id with
  | none => (.nodev, state)
  | some device => (.ok, state.setDevice id { device with writable := true })

def blkClearWritable (state : State) (id : Nat) : Result × State :=
  match blkDevice state id with
  | none => (.nodev, state)
  | some device => (.ok, state.setDevice id { device with writable := false })

def validRange (device : Device) (start count len : Nat) : Result :=
  if count = 0 ∨ count > maxBlocks then .invalid
  else if len ≠ count * sectorSize then .invalid
  else if start ≥ device.blockCount then .range
  else if count > device.blockCount - start then .range
  else .ok

/-- The checks `transfer` makes before the first sector command. -/
def permit (state : State) (id start count address len : Nat) (needWrite : Bool) : Result :=
  match blkDevice state id with
  | none => .nodev
  | some device =>
    if address = 0 ∨ address % 2 = 1 then .invalid
    else match validRange device start count len with
      | .ok =>
        if device.blockCount > lba28Max then .range
        else if needWrite && !device.writable then .denied
        else .ok
      | refused => refused

def readSectors (drive : Drive) : Nat → State → Result × State
  | 0, state => (.ok, state)
  | count + 1, state =>
    if drive.readFails state.clock then (.ioerr, state.tick) else readSectors drive count state.tick

def writeSectors (drive : Drive) (id : Nat) : Nat → Nat → ByteMemory → State → Result × State
  | 0, _, _, state => (.ok, state)
  | count + 1, lba, bytes, state =>
    let taken := state.tick.setDevice id ((state.devices id).put lba bytes)
    match drive.write state.clock with
    | .stored => writeSectors drive id count (lba + 1) (bytes.shift sectorSize) taken
    | .lost => (.ioerr, state.tick)
    | .ambiguous => (.ioerr, taken)

/-- Returns the bytes read as the buffer's contents; they are meaningful only with `ok`. -/
def blkRead (drive : Drive) (state : State) (id start count address len : Nat) : Result × ByteMemory × State :=
  match permit state id start count address len false with
  | .ok =>
    let (result, after) := readSectors drive count state
    (result, (state.devices id).disk.shift (sectorSize * start), after)
  | refused => (refused, fun _ => 0, state)

def blkWrite (drive : Drive) (state : State) (id start count address len : Nat) (bytes : ByteMemory) : Result × State :=
  match permit state id start count address len true with
  | .ok => writeSectors drive id count start bytes state
  | refused => (refused, state)

end Rynor.Blk
