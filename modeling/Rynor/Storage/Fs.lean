import Rynor.Storage.Blk
import Rynor.Storage.FsLookup

/-! The filesystem state of kernel/storage/fs.c and its entry points. Every operation
takes the drive that decides the outcome of its sector transfers. The block-write
fault hook exists in armed test builds only and is left out. -/

namespace Rynor.Fs
open ByteMemory Blk

structure Handle where
  inUse : Bool
  entry : Nat

/-- The file-scope variables of fs.c over the block layer. -/
structure Volume where
  blk : Blk.State
  isMounted : Bool
  dev : Nat
  writableAuthorized : Bool
  geometry : Geometry
  dir : ByteMemory
  dirSlots : Nat
  handles : Nat → Handle
  generations : Nat → Nat
  stage : String

/-- Zero-initialised storage over freshly discovered devices. -/
def Volume.boot (devices : Nat → Device) : Volume :=
  { blk := { devices, clock := 0 }, isMounted := false, dev := 0, writableAuthorized := false,
    geometry := ⟨0, 0, 0, 0, 0⟩, dir := fun _ => 0, dirSlots := 0, handles := fun _ => ⟨false, 0⟩,
    generations := fun _ => 0, stage := "none" }

/-- A static buffer: non-null and 2-byte aligned. -/
def staticAddress : Nat := 2

def Volume.fail (fs : Volume) (error : FsError) : FsResult × Volume := (error.code, { fs with stage := error.stage })

def closeAll (handles : Nat → Handle) : Nat → Handle := fun slot => { handles slot with inUse := false }

/-- `if (++gen == 0) ++gen` on 32 bits. -/
def bump (generation : Nat) : Nat :=
  if (generation + 1) % u32 = 0 then 1 else (generation + 1) % u32

/-- `s | (gen << 3)` on 32 bits: the shift leaves the low three bits clear. -/
def packHandle (slot generation : Nat) : Nat := slot + generation * 8 % u32

/-- The slot a handle denotes, or `none` for `FS_BADHANDLE`. -/
def decodeHandle (fs : Volume) (handle : Nat) : Option Nat :=
  let slot := handle % 8
  let generation := handle / 8
  if slot ≥ maxOpen ∨ generation = 0 then none
  else if fs.isMounted = false then none
  else if (fs.handles slot).inUse = false ∨ fs.generations slot ≠ generation then none
  else some slot

/-! Mounting. -/

/-- Withdraw write authority. `none` is the halt of `rollback_fail`. -/
def revoke (fs : Volume) : Option Volume :=
  if fs.writableAuthorized then
    match blkClearWritable fs.blk fs.dev with
    | (.ok, blk) => some { fs with blk, writableAuthorized := false }
    | _ => none
  else some fs

/-- The chunked directory read of `fs_mount`, straight into the RAM copy. -/
def readDirectory (drive : Drive) (dev : Nat) (geometry : Geometry) :
    Nat → Nat → Blk.State → ByteMemory → Blk.Result × ByteMemory × Blk.State
  | 0, _, blk, dir => (.ok, dir, blk)
  | fuel + 1, got, blk, dir =>
    if got < geometry.dirBlocks then
      let count := if geometry.dirBlocks - got > 32 then 32 else geometry.dirBlocks - got
      match blkRead drive blk dev ((geometry.dirStart + got) % u64) count staticAddress (count * 512) with
      | (.ok, bytes, blk) =>
        readDirectory drive dev geometry fuel (got + count) blk (dir.overlay (got * 512) (count * 512) bytes)
      | (error, _, blk) => (error, dir, blk)
    else (.ok, dir, blk)

/-- Everything after the previous mount is gone and the device is known. -/
def mountDevice (drive : Drive) (fs : Volume) (dev : Nat) (device : Device) : FsResult × Volume :=
  match blkRead drive fs.blk dev 0 1 staticAddress 512 with
  | (.ok, sb, blk) =>
    let fs := { fs with blk }
    match superblockError device.blockCount sb with
    | some error => fs.fail error
    | none =>
      let geometry := sbGeometry sb
      match readDirectory drive dev geometry geometry.dirBlocks 0 fs.blk fs.dir with
      | (.ok, dir, blk) =>
        let fs := { fs with blk, dir, dirSlots := geometry.slots }
        match directoryError geometry dir with
        | some error => fs.fail error
        | none =>
          let fs := { fs with geometry, dev }
          match blkSetWritable fs.blk dev with
          | (.ok, blk) =>
            (.ok, { fs with
              blk, writableAuthorized := true, handles := closeAll fs.handles,
              generations := fun slot => bump (fs.generations slot), isMounted := true })
          | (_, blk) => { fs with blk }.fail ⟨.ioErr, "writable"⟩
      | (_, dir, blk) => { fs with blk, dir }.fail ⟨.ioErr, "io-dir"⟩
  | (_, _, blk) => { fs with blk }.fail ⟨.ioErr, "io-sb"⟩

def fsMount (drive : Drive) (fs : Volume) (dev : Nat) : Option (FsResult × Volume) :=
  match revoke { fs with stage := "none" } with
  | none => none
  | some fs =>
    let fs := { fs with isMounted := false, handles := closeAll fs.handles }
    match blkDevice fs.blk dev with
    | none => some (fs.fail ⟨.invalid, "bad-device"⟩)
    | some device => some (mountDevice drive fs dev device)

def fsUnmount (fs : Volume) : Option Volume :=
  match revoke fs with
  | none => none
  | some fs => some { fs with isMounted := false, handles := closeAll fs.handles }

/-! Opening, closing, reading. -/

/-- The common prologue of the path operations: the validated path and its length. -/
def checkPath (fs : Volume) (path : Option ByteMemory) : Except FsError (ByteMemory × Nat) :=
  if fs.isMounted = false then .error ⟨.invalid, "not-mounted"⟩
  else match path, pathOk path with
    | some path, some len => .ok (path, len)
    | _, _ => .error ⟨.invalid, "bad-path"⟩

def freeHandle (fs : Volume) : Option Nat := (List.range maxOpen).find? fun slot => !(fs.handles slot).inUse

/-- The slot of an existing regular file, as `fs_open` and `fs_unlink` find it. -/
def resolveFile (fs : Volume) (path : Option ByteMemory) : Except FsError Nat := do
  let (path, len) ← checkPath fs path
  match resolve fs.dir fs.dirSlots path len with
  | .refused error => .error error
  | .root => .error ⟨.notFile, "not-file"⟩
  | .slot slot => if entryType (entryAt fs.dir slot) ≠ typeFile then .error ⟨.notFile, "not-file"⟩ else .ok slot

/-- The handle goes through a non-null pointer. -/
def fsOpen (fs : Volume) (path : Option ByteMemory) : FsResult × Option Nat × Volume :=
  match resolveFile fs path with
  | .error error => ((fs.fail error).1, none, (fs.fail error).2)
  | .ok entry =>
    match freeHandle fs with
    | none => (.busy, none, { fs with stage := "busy" })
    | some slot =>
      let generation := bump (fs.generations slot)
      (.ok, some (packHandle slot generation),
        { fs with
          generations := fun other => if other = slot then generation else fs.generations other,
          handles := fun other => if other = slot then ⟨true, entry⟩ else fs.handles other })

structure Stat where
  type : UInt8
  size : Nat
  blocks : Nat
  deriving DecidableEq, Repr

def fsStat (fs : Volume) (path : Option ByteMemory) : FsResult × Option Stat × Volume :=
  match checkPath fs path with
  | .error error => ((fs.fail error).1, none, (fs.fail error).2)
  | .ok (path, len) =>
    match resolve fs.dir fs.dirSlots path len with
    | .refused error => (error.code, none, { fs with stage := error.stage })
    | .root => (.ok, some ⟨typeDir, 0, 0⟩, fs)
    | .slot slot =>
      let entry := entryAt fs.dir slot
      (.ok, some ⟨entryType entry, entryLength entry, entryCount entry⟩, fs)

def fsClose (fs : Volume) (handle : Nat) : FsResult × Volume :=
  match decodeHandle fs handle with
  | none => fs.fail ⟨.badHandle, "bad-handle"⟩
  | some slot =>
    (.ok, { fs with handles := fun other => if other = slot then { fs.handles slot with inUse := false } else fs.handles other })

/-- What a read leaves behind: `done` bytes are in the buffer. -/
structure Transfer where
  result : Blk.Result
  done : Nat
  data : List UInt8
  blk : Blk.State

/-- The transfer loop of `fs_read`: whole blocks straight into an even buffer,
everything else through the scratch block. -/
def readLoop (drive : Drive) (dev address n : Nat) : Nat → Nat → Nat → Nat → List UInt8 → Blk.State → Transfer
  | 0, _, _, done, data, blk => ⟨.ok, done, data, blk⟩
  | fuel + 1, cur, pos, done, data, blk =>
    if done < n then
      if pos = 0 ∧ n - done ≥ 512 ∧ (address + done) % 2 = 0 then
        let full := (n - done) / 512
        let chunk := if full > 32 then 32 else full
        match blkRead drive blk dev cur chunk (address + done) (chunk * 512) with
        | (.ok, bytes, blk) =>
          readLoop drive dev address n fuel (cur + chunk) pos (done + chunk * 512)
            (data ++ bytes.slice 0 (chunk * 512)) blk
        | (error, _, blk) => ⟨error, done, data, blk⟩
      else
        let take := if 512 - pos < n - done then 512 - pos else n - done
        match blkRead drive blk dev cur 1 staticAddress 512 with
        | (.ok, scratch, blk) =>
          readLoop drive dev address n fuel (cur + 1) 0 (done + take) (data ++ scratch.slice pos take) blk
        | (error, _, blk) => ⟨error, done, data, blk⟩
    else ⟨.ok, done, data, blk⟩

/-- The code, the value stored in `*nread` if any, and the bytes delivered. -/
structure ReadReply where
  result : FsResult
  nread : Option Nat
  data : List UInt8
  deriving DecidableEq, Repr

def fsRead (drive : Drive) (fs : Volume) (handle offset address len : Nat) : ReadReply × Volume :=
  match decodeHandle fs handle with
  | none => (⟨.badHandle, none, []⟩, { fs with stage := "bad-handle" })
  | some slot =>
    if len > maxReadBytes then (⟨.invalid, none, []⟩, { fs with stage := "too-long" })
    else
      let entry := entryAt fs.dir (fs.handles slot).entry
      if entryType entry ≠ typeFile then (⟨.notFile, none, []⟩, { fs with stage := "not-file" })
      else if offset > entryLength entry then (⟨.range, none, []⟩, { fs with stage := "past-end" })
      else if len ≠ 0 ∧ (address = 0 ∨ address % 2 = 1) then (⟨.invalid, none, []⟩, { fs with stage := "bad-buf" })
      else
        let n := if len < entryLength entry - offset then len else entryLength entry - offset
        if n = 0 then (⟨.ok, some n, []⟩, fs)
        else
          let moved := readLoop drive fs.dev address n n ((entryFirst entry + offset / 512) % u64) (offset % 512) 0
            [] fs.blk
          match moved.result with
          | .ok => (⟨.ok, some n, moved.data⟩, { fs with blk := moved.blk })
          | _ => (⟨.ioErr, some moved.done, moved.data⟩, { fs with blk := moved.blk, stage := "io-data" })

/-! Allocation and directory writes. -/

/-- The lowest live extent start at or after `cur`, capped by the end of the data region. -/
def nextExtent (dir : ByteMemory) (slots dataEnd cur : Nat) : Nat :=
  (List.range slots).foldl (fun next index =>
    let entry := entryAt dir index
    if hasExtent entry && (decide (entryFirst entry ≥ cur) && decide (entryFirst entry < next)) then entryFirst entry
    else next) dataEnd

/-- The end of the first file entry whose extent starts at `next`, or `next`. -/
def extentEnd (dir : ByteMemory) (slots next : Nat) : Nat :=
  match (List.range slots).find? fun index =>
      !entryFree (entryAt dir index) && entryType (entryAt dir index) == typeFile &&
        entryFirst (entryAt dir index) == next with
  | none => next
  | some index => (next + entryCount (entryAt dir index)) % u64

/-- The gap scan of `alloc_first_fit`. `none` stands for a loop that has not ended. -/
def gapScan (dir : ByteMemory) (slots dataEnd nblocks : Nat) : Nat → Nat → Option (Except FsError Nat)
  | 0, _ => none
  | fuel + 1, cur =>
    let next := nextExtent dir slots dataEnd cur
    if next ≥ cur ∧ nblocks ≤ next - cur then some (.ok cur)
    else if next ≥ dataEnd then some (.error ⟨.noSpc, "disk-full"⟩)
    else
      let after := extentEnd dir slots next
      if after ≤ next then some (.error ⟨.corrupt, "alloc-stall"⟩)
      else gapScan dir slots dataEnd nblocks fuel after

def allocFirstFit (fs : Volume) (nblocks : Nat) : Option (Except FsError Nat) :=
  if nblocks = 0 then some (.error ⟨.invalid, fs.stage⟩)
  else gapScan fs.dir fs.dirSlots fs.geometry.dataEnd nblocks (fs.dirSlots + 1) fs.geometry.dataStart

/-- One sector through the only path by which the filesystem writes. -/
def dataWrite (drive : Drive) (blk : Blk.State) (dev lba : Nat) (bytes : ByteMemory) : FsResult × Blk.State :=
  match blkWrite drive blk dev lba 1 staticAddress 512 bytes with
  | (.ok, blk) => (.ok, blk)
  | (_, blk) => (.ioErr, blk)

/-- Read the entry's disk block, patch the slot, write it back, and only then
update the RAM copy. -/
def dirWriteSlot (drive : Drive) (fs : Volume) (slot : Nat) (entry : ByteMemory) : FsResult × Volume :=
  if slot ≥ fs.dirSlots then fs.fail ⟨.invalid, "bad-slot"⟩
  else
    let lba := (fs.geometry.dirStart + slot / dirEntriesPerBlock) % u64
    match blkRead drive fs.blk fs.dev lba 1 staticAddress 512 with
    | (.ok, scratch, blk) =>
      match dataWrite drive blk fs.dev lba (scratch.overlay
        (slot % dirEntriesPerBlock * entrySize) entrySize entry) with
      | (.ok, blk) => (.ok, { fs with blk, dir := fs.dir.overlay (slot * entrySize) entrySize entry })
      | (_, blk) => { fs with blk }.fail ⟨.ioErr, "io-dir"⟩
    | (_, _, blk) => { fs with blk }.fail ⟨.ioErr, "io-dir-read"⟩

/-! Creating and unlinking. -/

def freeSlot (fs : Volume) : Option Nat := (List.range fs.dirSlots).find? fun slot => entryFree (entryAt fs.dir slot)

/-- The canonical zero-length file: name and type, everything else zero. -/
def newEntry (key : List UInt8) : ByteMemory :=
  overlay (overlay (fun _ => 0) 0 key.length (ofList key)) 32 1 fun _ => typeFile

def fsCreate (drive : Drive) (fs : Volume) (path : Option ByteMemory) : FsResult × Volume :=
  match checkPath fs path with
  | .error error => fs.fail error
  | .ok (path, len) =>
    if len = 1 then fs.fail ⟨.alreadyExists, "is-root"⟩
    else match walkPath fs.dir fs.dirSlots path len "no-parent" "parent-notdir" len 1 [] with
      | .refused error => fs.fail error
      | .reached _ (some _) => fs.fail ⟨.alreadyExists, "exists"⟩
      | .reached key none =>
        match freeSlot fs with
        | none => fs.fail ⟨.noSpc, "dir-full"⟩
        | some slot => dirWriteSlot drive fs slot (newEntry key)

def closeEntry (handles : Nat → Handle) (entry : Nat) : Nat → Handle :=
  fun slot => if (handles slot).inUse = true ∧ (handles slot).entry = entry then { handles slot with inUse := false }
    else handles slot

def fsUnlink (drive : Drive) (fs : Volume) (path : Option ByteMemory) : FsResult × Volume :=
  match resolveFile fs path with
  | .error error => fs.fail error
  | .ok slot =>
    match dirWriteSlot drive fs slot (fun _ => 0) with
    | (.ok, fs) => (.ok, { fs with handles := closeEntry fs.handles slot })
    | failed => failed

/-! Directory enumeration. -/

structure Dirent where
  name : List UInt8
  type : UInt8
  size : Nat
  deriving DecidableEq, Repr

/-- The dense-ordinal scan of `fs_readdir`: skip `ordinal` live entries. -/
def readdirScan (dir : ByteMemory) : List Nat → Nat → Option Nat
  | [], _ => none
  | index :: rest, ordinal =>
    if entryFree (entryAt dir index) then readdirScan dir rest ordinal
    else match ordinal with
      | 0 => some index
      | ordinal + 1 => readdirScan dir rest ordinal

/-- The name is the absolute path; the out buffer's zero padding is left out. -/
def fsReaddir (fs : Volume) (ordinal : Nat) : FsResult × Option Dirent × Volume :=
  if fs.isMounted = false then (.invalid, none, { fs with stage := "not-mounted" })
  else match readdirScan fs.dir (List.range fs.dirSlots) ordinal with
    | none => (.endOfDir, none, fs)
    | some index =>
      let entry := entryAt fs.dir index
      if nameLen entry = 0 then (.corrupt, none, { fs with stage := "bad-name" })
      else (.ok, some ⟨slash :: entryName entry, entryType entry, entryLength entry⟩, fs)

/-! Writing. -/

/-- What a data write leaves behind: the code and the bytes completed. -/
structure Written where
  result : FsResult
  done : Nat
  blk : Blk.State

/-- The per-block loop over one chunk of whole blocks. -/
def writeBlocks (drive : Drive) (dev cur done : Nat) (source : ByteMemory) : Nat → Nat → Blk.State → Written
  | 0, index, blk => ⟨.ok, done + index * 512, blk⟩
  | rest + 1, index, blk =>
    match dataWrite drive blk dev (cur + index) (source.shift (index * 512)) with
    | (.ok, blk) => writeBlocks drive dev cur done source rest (index + 1) blk
    | (_, blk) => ⟨.ioErr, done + index * 512, blk⟩

/-- The loop of `write_data_blocks`; `source` is the caller's buffer at `address`. -/
def writeLoop (drive : Drive) (dev address len : Nat) (source : ByteMemory) :
    Nat → Nat → Nat → Nat → Blk.State → Written
  | 0, _, _, done, blk => ⟨.ok, done, blk⟩
  | fuel + 1, cur, pos, done, blk =>
    if done < len then
      if pos = 0 ∧ len - done ≥ 512 ∧ (address + done) % 2 = 0 then
        let full := (len - done) / 512
        let chunk := if full > 32 then 32 else full
        let moved := writeBlocks drive dev cur done (source.shift done) chunk 0 blk
        match moved.result with
        | .ok => writeLoop drive dev address len source fuel (cur + chunk) pos (done + chunk * 512) moved.blk
        | _ => moved
      else
        let take := if 512 - pos < len - done then 512 - pos else len - done
        match blkRead drive blk dev cur 1 staticAddress 512 with
        | (.ok, scratch, blk) =>
          match dataWrite drive blk dev cur (scratch.overlay pos take (source.shift done)) with
          | (.ok, blk) => writeLoop drive dev address len source fuel (cur + 1) 0 (done + take) blk
          | (_, blk) => ⟨.ioErr, done, blk⟩
        | (_, _, blk) => ⟨.ioErr, done, blk⟩
    else ⟨.ok, done, blk⟩

def writeDataBlocks (drive : Drive) (blk : Blk.State) (dev first offset address len : Nat) (source : ByteMemory) :
    Written :=
  writeLoop drive dev address len source len ((first + offset / 512) % u64) (offset % 512) 0 blk

/-- A new (first, count, length) triple for an entry; name, type and reserved bytes stay. -/
def switchedEntry (entry : ByteMemory) (first count length : Nat) : ByteMemory :=
  wr64le (wr64le (wr64le entry 40 first) 48 count) 56 length

def dirSwitchExtent (drive : Drive) (fs : Volume) (entry first count length : Nat) : FsResult × Volume :=
  dirWriteSlot drive fs entry (switchedEntry (entryAt fs.dir entry) first count length)

/-- Phase 1 of a relocation: copy the old extent, block by block. -/
def copyBlocks (drive : Drive) (dev first newFirst : Nat) : Nat → Nat → Blk.State → Option String × Blk.State
  | 0, _, blk => (none, blk)
  | rest + 1, ob, blk =>
    match blkRead drive blk dev ((first + ob) % u64) 1 staticAddress 512 with
    | (.ok, scratch, blk) =>
      match dataWrite drive blk dev ((newFirst + ob) % u64) scratch with
      | (.ok, blk) => copyBlocks drive dev first newFirst rest (ob + 1) blk
      | (_, blk) => (some "io-data", blk)
    | (_, _, blk) => (some "io-copy", blk)

/-- The block composed in phase 2: the payload over the old block or zeroes, the tail
past `stop` cleared. -/
def patchBlock (base source : ByteMemory) (offset stop boff : Nat) : ByteMemory :=
  let lo := if offset > boff then offset else boff
  let hi := if stop < boff + 512 then stop else boff + 512
  let patched := base.overlay (lo - boff) (hi - lo) (source.shift (lo - offset))
  if stop < boff + 512 then patched.overlay (stop - boff) (512 - (stop - boff)) fun _ => 0 else patched

/-- Phase 2: patch the payload over `[offset, stop)` in the new extent. -/
def patchBlocks (drive : Drive) (dev newFirst count offset stop : Nat) (source : ByteMemory) :
    Nat → Nat → Blk.State → Option String × Blk.State
  | 0, _, blk => (none, blk)
  | rest + 1, pb, blk =>
    if pb < count then
      match blkRead drive blk dev ((newFirst + pb) % u64) 1 staticAddress 512 with
      | (.ok, scratch, blk) =>
        match dataWrite drive blk dev ((newFirst + pb) % u64) (patchBlock scratch source offset stop (pb * 512)) with
        | (.ok, blk) => patchBlocks drive dev newFirst count offset stop source rest (pb + 1) blk
        | (_, blk) => (some "io-data", blk)
      | (_, _, blk) => (some "io-data", blk)
    else
      match dataWrite drive blk dev ((newFirst + pb) % u64) (patchBlock (fun _ => 0) source offset stop (pb * 512)) with
      | (.ok, blk) => patchBlocks drive dev newFirst count offset stop source rest (pb + 1) blk
      | (_, blk) => (some "io-data", blk)

/-- The code and the value left in `*nwritten`, if any was stored. -/
structure WriteReply where
  result : FsResult
  nwritten : Option Nat
  deriving DecidableEq, Repr

/-- `end` is called `stop` here. An allocator that does not return is `none`. -/
def writeRelocate (drive : Drive) (fs : Volume) (entry count first offset : Nat) (source : ByteMemory)
    (len stop : Nat) :
    Option (WriteReply × Volume) :=
  if stop > u64 - 1 - 511 then some (⟨.invalid, some len⟩, { fs with stage := "end-wrap" })
  else
    let newBlocks := (stop + 511) / 512
    match allocFirstFit fs newBlocks with
    | none => none
    | some (.error error) => some (⟨error.code, some 0⟩, { fs with stage := error.stage })
    | some (.ok newFirst) =>
      match copyBlocks drive fs.dev first newFirst count 0 fs.blk with
      | (some stage, blk) => some (⟨.ioErr, some 0⟩, { fs with blk, stage })
      | (none, blk) =>
        match patchBlocks drive fs.dev newFirst count offset stop source (newBlocks - offset / 512) (offset / 512)
          blk with
        | (some stage, blk) => some (⟨.ioErr, some 0⟩, { fs with blk, stage })
        | (none, blk) =>
          match dirSwitchExtent drive { fs with blk } entry newFirst newBlocks stop with
          | (.ok, fs) => some (⟨.ok, some len⟩, fs)
          | (error, fs) => some (⟨error, some 0⟩, fs)

/-- In-place growth: the payload first, then the size field. -/
def writeGrow (drive : Drive) (fs : Volume) (entry first offset address : Nat) (source : ByteMemory) (len stop : Nat) :
    WriteReply × Volume :=
  let moved := writeDataBlocks drive fs.blk fs.dev first offset address len source
  match moved.result with
  | .ok =>
    match dirWriteSlot drive { fs with blk := moved.blk } entry (wr64le (entryAt fs.dir entry) 56 stop) with
    | (result, fs) => (⟨result, some len⟩, fs)
  | error => (⟨error, some moved.done⟩, { fs with blk := moved.blk, stage := "io-data" })

def writeWithin (drive : Drive) (fs : Volume) (first offset address : Nat) (source : ByteMemory) (len : Nat) :
    WriteReply × Volume :=
  let moved := writeDataBlocks drive fs.blk fs.dev first offset address len source
  match moved.result with
  | .ok => (⟨.ok, some len⟩, { fs with blk := moved.blk })
  | error => (⟨error, some moved.done⟩, { fs with blk := moved.blk, stage := "io-data" })

def fsWrite (drive : Drive) (fs : Volume) (handle offset address : Nat) (source : ByteMemory) (len : Nat) :
    Option (WriteReply × Volume) :=
  match decodeHandle fs handle with
  | none => some (⟨.badHandle, none⟩, { fs with stage := "bad-handle" })
  | some slot =>
    if len > maxWriteBytes then some (⟨.invalid, none⟩, { fs with stage := "too-long" })
    else
      let index := (fs.handles slot).entry
      let entry := entryAt fs.dir index
      if entryType entry ≠ typeFile then some (⟨.notFile, none⟩, { fs with stage := "not-file" })
      else if offset > entryLength entry then some (⟨.range, none⟩, { fs with stage := "past-end" })
      else if len > u64 - 1 - offset then some (⟨.invalid, none⟩, { fs with stage := "end-wrap" })
      else if len ≠ 0 ∧ (address = 0 ∨ address % 2 = 1) then some (⟨.invalid, none⟩, { fs with stage := "bad-buf" })
      else if len = 0 then some (⟨.ok, some len⟩, fs)
      else
        let stop := offset + len
        if stop ≤ entryLength entry then some (writeWithin drive fs (entryFirst entry) offset address source len)
        else if stop ≤ entryCount entry * 512 % u64 then
          some (writeGrow drive fs index (entryFirst entry) offset address source len stop)
        else writeRelocate drive fs index (entryCount entry) (entryFirst entry) offset source len stop

end Rynor.Fs
