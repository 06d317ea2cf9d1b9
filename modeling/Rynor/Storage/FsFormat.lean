import Rynor.Lib.ByteMemory

/-! The RYNORFS v1 on-disk format as kernel/storage/fs.c reads it: the superblock,
the 64-byte directory entries, and the checks `fs_mount` makes on both. 64-bit
quantities are natural numbers below `u64`; sums that could wrap do. -/

namespace Rynor.Fs
open ByteMemory

def maxPath : Nat := 32
def maxName : Nat := 31
def maxOpen : Nat := 8
def maxDirBlocks : Nat := 64
def maxReadBytes : Nat := 16384
def maxWriteBytes : Nat := 16384
def dirEntriesPerBlock : Nat := 8
def entrySize : Nat := 64
def typeFile : UInt8 := 1
def typeDir : UInt8 := 2
def slash : UInt8 := 0x2f
def dot : UInt8 := 0x2e
def u64 : Nat := 2 ^ 64
def u32 : Nat := 2 ^ 32

lemma u64_eq : u64 = 18446744073709551616 := by decide

/-- `enum fs_result`. -/
inductive FsResult where
  | ok | invalid | notFound | notFile | notDir | badHandle | range | ioErr | corrupt | unsupported | busy
  | alreadyExists | noSpc | endOfDir
  deriving DecidableEq, Repr

/-- A refusal: the code returned and the text left in `fs_stage`. -/
structure FsError where
  code : FsResult
  stage : String
  deriving DecidableEq, Repr

def rd32le (bytes : ByteMemory) : Nat := littleEndian bytes 4
def rd64le (bytes : ByteMemory) : Nat := littleEndian bytes 8
def wr64le (bytes : ByteMemory) (offset value : Nat) : ByteMemory := bytes.overlay offset 8 (ofNat value)

/-- The range lies inside `[0, total)`; ordered so that nothing wraps. -/
def rangeOk (start count total : Nat) : Bool :=
  if count > total then false else if start > total - count then false else true

def rangesOverlap (aStart aCount bStart bCount : Nat) : Bool :=
  if aCount > u64 - 1 - aStart ∨ bCount > u64 - 1 - bStart then true
  else
    let aEnd := (aStart + aCount) % u64
    let bEnd := (bStart + bCount) % u64
    decide (aStart < bEnd) && decide (bStart < aEnd)

/-! Directory entries. -/

/-- Entry `index` of a directory copy. -/
def entryAt (dir : ByteMemory) (index : Nat) : ByteMemory := dir.shift (index * entrySize)

def entryFree (entry : ByteMemory) : Bool := (List.range entrySize).all fun index => entry index == 0

/-- The bytes up to the terminator, or `none` at a byte that is not printable ASCII. -/
def nameScan (entry : ByteMemory) : Nat → Nat → Option Nat
  | 0, length => some length
  | fuel + 1, length =>
    if entry length = 0 then some length
    else if entry length < 0x20 ∨ entry length > 0x7e then none
    else nameScan entry fuel (length + 1)

/-- Name length, or 0 for a malformed name: empty, unterminated, a bad byte, or
nonzero padding after the terminator. -/
def nameLen (entry : ByteMemory) : Nat :=
  match nameScan entry 32 0 with
  | none => 0
  | some length =>
    if length = 0 ∨ length > maxName then 0
    else if (List.range' (length + 1) (32 - (length + 1))).any fun index => entry index != 0 then 0
    else length

def entryName (entry : ByteMemory) : List UInt8 := entry.slice 0 (nameLen entry)
def entryType (entry : ByteMemory) : UInt8 := entry 32
def entryFirst (entry : ByteMemory) : Nat := rd64le (entry.shift 40)
def entryCount (entry : ByteMemory) : Nat := rd64le (entry.shift 48)
def entryLength (entry : ByteMemory) : Nat := rd64le (entry.shift 56)

/-- Exact key lookup in a directory copy: the first slot that carries the key. -/
def findKey (dir : ByteMemory) (slots : Nat) (key : List UInt8) : Option Nat :=
  (List.range slots).find? fun index =>
    let entry := entryAt dir index
    !entryFree entry && (nameLen entry != 0 && nameLen entry == key.length) && entry.slice 0 key.length == key

/-! The checks of `fs_mount`. -/

structure Geometry where
  total : Nat
  dirStart : Nat
  dirBlocks : Nat
  dataStart : Nat
  dataBlocks : Nat
  deriving DecidableEq, Repr

def Geometry.slots (geometry : Geometry) : Nat := geometry.dirBlocks * dirEntriesPerBlock

/-- `data_start + data_blocks` as the code computes it. -/
def Geometry.dataEnd (geometry : Geometry) : Nat := (geometry.dataStart + geometry.dataBlocks) % u64

/-- `"RYNORFS\0"`. -/
def magic : List UInt8 := [0x52, 0x59, 0x4e, 0x4f, 0x52, 0x46, 0x53, 0x00]

def sbGeometry (sb : ByteMemory) : Geometry :=
  { total := rd64le (sb.shift 16), dirStart := rd64le (sb.shift 24), dirBlocks := rd64le (sb.shift 32),
    dataStart := rd64le (sb.shift 40), dataBlocks := rd64le (sb.shift 48) }

def geometryError (capacity : Nat) (geometry : Geometry) : Option FsError :=
  if geometry.total = 0 ∨ geometry.total > capacity then some ⟨.corrupt, "total-range"⟩
  else if geometry.dirBlocks = 0 then some ⟨.corrupt, "dir-empty"⟩
  else if geometry.dirBlocks > maxDirBlocks then some ⟨.unsupported, "dir-too-big"⟩
  else if !rangeOk geometry.dirStart geometry.dirBlocks geometry.total || geometry.dirStart == 0 then
    some ⟨.corrupt, "dir-range"⟩
  else if geometry.dataBlocks == 0 || !rangeOk geometry.dataStart geometry.dataBlocks geometry.total ||
      geometry.dataStart == 0 then some ⟨.corrupt, "data-range"⟩
  else if rangesOverlap 0 1 geometry.dirStart geometry.dirBlocks ||
    rangesOverlap 0 1 geometry.dataStart geometry.dataBlocks ||
      rangesOverlap geometry.dirStart geometry.dirBlocks geometry.dataStart geometry.dataBlocks then
    some ⟨.corrupt, "overlap"⟩
  else none

def superblockError (capacity : Nat) (sb : ByteMemory) : Option FsError :=
  if sb.slice 0 8 ≠ magic then some ⟨.invalid, "bad-magic"⟩
  else if rd32le (sb.shift 8) ≠ 1 then some ⟨.unsupported, "bad-version"⟩
  else if rd32le (sb.shift 12) ≠ 512 then some ⟨.unsupported, "bad-blksize"⟩
  else if rd64le (sb.shift 56) ≠ 0 then some ⟨.corrupt, "reserved"⟩
  else if (List.range' 64 448).any fun index => sb index != 0 then some ⟨.corrupt, "padding"⟩
  else geometryError capacity (sbGeometry sb)

/-- The component scan of `fs_mount`: some slash-separated component of the name
is empty, `.` or `..`. `start` is where the current component began. -/
def badComponent (entry : ByteMemory) (length : Nat) : Nat → Nat → Nat → Bool
  | 0, _, _ => false
  | fuel + 1, start, index =>
    if index = length ∨ entry index = slash then
      let size := index - start
      if size = 0 then true
      else if size = 1 ∧ entry start = dot then true
      else if size = 2 ∧ entry start = dot ∧ entry (start + 1) = dot then true
      else badComponent entry length fuel (index + 1) (index + 1)
    else badComponent entry length fuel start (index + 1)

def entryError (geometry : Geometry) (entry : ByteMemory) : Option FsError :=
  if entryFree entry then none
  else if nameLen entry = 0 then some ⟨.corrupt, "bad-name"⟩
  else if badComponent entry (nameLen entry) (nameLen entry + 1) 0 0 then some ⟨.corrupt, "bad-name"⟩
  else if entryType entry ≠ typeFile ∧ entryType entry ≠ typeDir then some ⟨.corrupt, "bad-type"⟩
  else if (List.range' 33 7).any fun index => entry index != 0 then some ⟨.corrupt, "entry-reserved"⟩
  else if entryType entry = typeDir then
    if entryFirst entry ≠ 0 ∨ entryCount entry ≠ 0 ∨ entryLength entry ≠ 0 then some ⟨.corrupt, "dir-data"⟩ else none
  else if entryCount entry = 0 then
    if entryLength entry ≠ 0 ∨ entryFirst entry ≠ 0 then some ⟨.corrupt, "empty-extent"⟩ else none
  else if entryLength entry = 0 then some ⟨.corrupt, "empty-extent"⟩
  else if entryCount entry > (u64 - 1) / 512 ∨ entryLength entry > entryCount entry * 512 % u64 then
    some ⟨.corrupt, "length-range"⟩
  else if entryFirst entry < geometry.dataStart ∨ entryFirst entry ≥ geometry.dataEnd ∨
      entryCount entry > geometry.dataEnd - entryFirst entry then some ⟨.corrupt, "extent-range"⟩
  else none

/-- Slot `index` against the slots after it, then its proper prefixes. -/
def namespaceError (dir : ByteMemory) (slots index : Nat) : Option FsError :=
  let a := entryAt dir index
  if entryFree a then none
  else
    ((List.range' (index + 1) (slots - (index + 1))).findSome? fun other =>
      let b := entryAt dir other
      if entryFree b then none
      else if nameLen a ≠ nameLen b then none
      else if a.slice 0 (nameLen a) = b.slice 0 (nameLen a) then some ⟨.corrupt, "duplicate"⟩ else none).or
    ((List.range (nameLen a)).findSome? fun stop =>
      if a stop ≠ slash then none
      else match findKey dir slots (a.slice 0 stop) with
        | none => some ⟨.corrupt, "dangling-parent"⟩
        | some parent =>
          if entryType (entryAt dir parent) ≠ typeDir then some ⟨.corrupt, "dangling-parent"⟩ else none)

def hasExtent (entry : ByteMemory) : Bool := !entryFree entry && entryType entry == typeFile && entryCount entry != 0

def extentError (dir : ByteMemory) (slots index : Nat) : Option FsError :=
  let a := entryAt dir index
  if !hasExtent a then none
  else (List.range' (index + 1) (slots - (index + 1))).findSome? fun other =>
    let b := entryAt dir other
    if !hasExtent b then none
    else if rangesOverlap (entryFirst a) (entryCount a) (entryFirst b) (entryCount b) then some ⟨.corrupt, "overlap"⟩
    else none

/-- The three passes over the directory, in order; the first failure is reported. -/
def directoryError (geometry : Geometry) (dir : ByteMemory) : Option FsError :=
  ((List.range geometry.slots).findSome? fun index => entryError geometry (entryAt dir index)).or
    (((List.range geometry.slots).findSome? (namespaceError dir geometry.slots)).or
      ((List.range geometry.slots).findSome? (extentError dir geometry.slots)))

end Rynor.Fs
