import Rynor.Lib.Checks
import Rynor.Lib.PackedBytes

/-! The reference decoder of tools/host/fs_output.py. Byte strings are lists of bytes, and so
are the ASCII strings decoded from them. Integers do not wrap. -/

namespace Rynor.FsOutput
open PackedBytes Checks

def magic : List UInt8 := [0x52, 0x59, 0x4e, 0x4f, 0x52, 0x46, 0x53, 0x00]
def version : Nat := 1
def block : Nat := 512
def maxDirBlocks : Nat := 64
def slash : UInt8 := 0x2f
def dot : UInt8 := 0x2e

/-- What `decode` raises: `ValueError(code, detail)`, or the error of `bytes.decode`. -/
inductive DecodeError where
  | value (code detail : String)
  | unicode
  deriving DecidableEq, Repr

structure FsEntry where
  name : List UInt8
  ftype : UInt8
  first : Nat
  count : Nat
  length : Nat
  deriving DecidableEq, Repr

/-- The dictionary of entries, in insertion order. -/
structure FsImage where
  total : Nat
  dirStart : Nat
  dirBlocks : Nat
  dataStart : Nat
  dataBlocks : Nat
  entries : List FsEntry
  deriving DecidableEq, Repr

/-- `any` over bytes. -/
def anyByte (bytes : List UInt8) : Bool := bytes.any (· != 0)

/-- The five geometry words of the superblock. -/
def geometry (image : List UInt8) : FsImage :=
  { total := unpack (window image 16 24), dirStart := unpack (window image 24 32), dirBlocks := unpack (window image 32 40),
    dataStart := unpack (window image 40 48), dataBlocks := unpack (window image 48 56), entries := [] }

/-- The checks on the superblock's fixed fields. -/
def checkHeader (image : List UInt8) : Option DecodeError :=
  if image.length < block ∨ image.length % block ≠ 0 then some (.value "invalid" "size")
  else if window image 0 8 ≠ magic then some (.value "invalid" "magic")
  else if unpack (window image 8 12) ≠ version then some (.value "unsupported" "version")
  else if unpack (window image 12 16) ≠ block then some (.value "unsupported" "blksize")
  else if unpack (window image 56 64) ≠ 0 then some (.value "corrupt" "reserved")
  else if anyByte (window image 64 block) then some (.value "corrupt" "padding")
  else none

def checkRegion (total : Nat) : String × Nat × Nat → Option DecodeError
  | (label, start, count) =>
    if count = 0 ∨ start > total ∨ count > total - start then some (.value "corrupt" (label ++ "-range"))
    else if start = 0 then some (.value "corrupt" (label ++ "-zero"))
    else none

def checkApart : (Nat × Nat) × (Nat × Nat) → Option DecodeError
  | ((a, na), (b, nb)) => if a < b + nb ∧ b < a + na then some (.value "corrupt" "overlap") else none

def checkGeometry (nblocks : Nat) (fs : FsImage) : Option DecodeError :=
  if fs.total = 0 ∨ fs.total > nblocks then some (.value "corrupt" "total-range")
  else if fs.dirBlocks = 0 then some (.value "corrupt" "dir-empty")
  else if fs.dirBlocks > maxDirBlocks then some (.value "unsupported" "dir-too-big")
  else
    ([("dir", fs.dirStart, fs.dirBlocks), ("data", fs.dataStart, fs.dataBlocks)].findSome? (checkRegion fs.total)).or
      (if fs.dataBlocks = 0 then some (.value "corrupt" "data-empty")
      else [((0, 1), (fs.dirStart, fs.dirBlocks)), ((0, 1), (fs.dataStart, fs.dataBlocks)),
        ((fs.dirStart, fs.dirBlocks), (fs.dataStart, fs.dataBlocks))].findSome? checkApart)

def badPart (part : List UInt8) : Bool := part.isEmpty || (part == [dot] || part == [dot, dot])

/-- The extent checks of a record. -/
def checkExtent (fs : FsImage) (ftype : UInt8) (first count length : Nat) : Option DecodeError :=
  if ftype = 2 then
    if first ≠ 0 ∨ count ≠ 0 ∨ length ≠ 0 then some (.value "corrupt" "dir-data") else none
  else if count = 0 then
    if length ≠ 0 ∨ first ≠ 0 then some (.value "corrupt" "empty-extent") else none
  else if length = 0 ∨ length > count * block then some (.value "corrupt" "length-range")
  else
    let dataEnd := fs.dataStart + fs.dataBlocks
    if first < fs.dataStart ∨ first ≥ dataEnd ∨ count > dataEnd - first then some (.value "corrupt" "extent-range")
      else none

/-- One 64-byte record of the directory; `none` for a free one. -/
def decodeRecord (fs : FsImage) (record : List UInt8) : Except DecodeError (Option FsEntry) :=
  if !anyByte record then .ok none
  else match record.findIdx? (· == 0) with
    | none => .error (.value "corrupt" "bad-name")
    | some nul =>
      if nul = 0 ∨ nul > 31 then .error (.value "corrupt" "bad-name")
      else
        let name := record.take nul
        if name.any (· ≥ 0x80) then .error .unicode
        else if name.any fun c => !(decide (0x20 ≤ c) && decide (c ≤ 0x7e)) then .error (.value "corrupt" "bad-name")
        else if (name.splitOn slash).any badPart then .error (.value "corrupt" "bad-name")
        else if anyByte (window record (nul + 1) 32) then .error (.value "corrupt" "name-padding")
        else
          let ftype := record.getD 32 0
          if ftype ≠ 1 ∧ ftype ≠ 2 then .error (.value "corrupt" "bad-type")
          else if anyByte (window record 33 40) then .error (.value "corrupt" "entry-reserved")
          else do
            let first := unpack (window record 40 48)
            let count := unpack (window record 48 56)
            let length := unpack (window record 56 64)
            raise (checkExtent fs ftype first count length)
            return some ⟨name, ftype, first, count, length⟩

/-- The body of the loop over directory slots. -/
def decodeSlot (image : List UInt8) (fs : FsImage) (entries : List FsEntry) (slot : Nat) :
    Except DecodeError (List FsEntry) := do
  let base := (fs.dirStart + slot / 8) * block + slot % 8 * 64
  match ← decodeRecord fs (window image base (base + 64)) with
  | none => return entries
  | some entry =>
    if entries.any (·.name == entry.name) then .error (.value "corrupt" "duplicate")
    else return entries ++ [entry]

/-- The holder of a name must be a directory. -/
def checkHolder (entries : List FsEntry) (parent : List UInt8) : Option DecodeError :=
  match entries.find? (·.name == parent) with
  | none => some (.value "corrupt" "dangling-parent")
  | some holder => if holder.ftype ≠ 2 then some (.value "corrupt" "dangling-parent") else none

def checkParents (entries : List FsEntry) : Option DecodeError :=
  entries.findSome? fun entry =>
    let parts := entry.name.splitOn slash
    (List.range' 1 (parts.length - 1)).findSome? fun depth =>
      checkHolder entries ([slash].intercalate (parts.take depth))

/-- No two extents share a block. -/
def checkExtents (entries : List FsEntry) : Option DecodeError :=
  let files := entries.filterMap fun entry => if entry.ftype = 1 ∧ entry.count ≠ 0 then
    some (entry.first, entry.count) else none
  (List.range files.length).findSome? fun x =>
    (List.range' (x + 1) (files.length - (x + 1))).findSome? fun y =>
      checkApart (files.getD x (0, 0), files.getD y (0, 0))

def decode (image : List UInt8) : Except DecodeError FsImage := do
  raise (checkHeader image)
  let fs := geometry image
  raise (checkGeometry (image.length / block) fs)
  let entries ← (List.range (fs.dirBlocks * 8)).foldlM (decodeSlot image fs) []
  raise (checkParents entries)
  raise (checkExtents entries)
  return { fs with entries }

end Rynor.FsOutput
