import Mathlib.Data.Char
import Mathlib.Data.List.Sort
import Rynor.Lib.Checks
import Rynor.Lib.PackedBytes

/-! The image builder of tools/host/fs_image.py. A string is a list of characters, a byte
string a list of bytes, a dictionary a list of pairs in insertion order. Integers do not
wrap; `struct.pack` refuses those that do not fit. -/

namespace Rynor.FsImage
open PackedBytes Checks

abbrev Text := List Char

def magic : List UInt8 := [0x52, 0x59, 0x4e, 0x4f, 0x52, 0x46, 0x53, 0x00]
def version : Nat := 1
def block : Nat := 512
def dirSlotsPerBlock : Nat := 8
def maxDirBlocks : Nat := 64
def typeFile : UInt8 := 1
def typeDir : UInt8 := 2

/-- What `build` raises: `ValueError` with its message and the strings quoted in it, the
error of `struct.pack`, of `str.encode`, and a failed `assert`. -/
inductive Fault where
  | value (message : String) (quoted : List Text)
  | struct
  | unicode
  | assertion
  deriving DecidableEq, Repr

def zeros (count : Nat) : List UInt8 := List.replicate count 0

def join (parts : List Text) : Text := ['/'].intercalate parts

def checkPart (path part : Text) : Option Fault :=
  if part = [] ∨ part.length > 31 ∨ part = ['.'] ∨ part = ['.', '.'] then some (.value "bad component" [part, path])
  else if part.any fun c => !(decide (0x20 ≤ c.toNat) && decide (c.toNat ≤ 0x7e)) then
    some (.value "non-printable component" [part])
  else none

def splitPath (path : Text) : Except Fault (List Text) := do
  raise (if path.head? ≠ some '/' ∨ path.length < 2 ∨ path.length > 32 then some (.value "bad path" [path]) else none)
  raise (if path.getLast? = some '/' ∨ (path.zip path.tail).contains ('/', '/') then
    some (.value "bad path" [path]) else none)
  let parts := path.tail.splitOn '/'
  raise (parts.findSome? (checkPart path))
  return parts

/-- `str.encode("ascii")` of characters below 0x80. -/
def ascii (text : Text) : List UInt8 := text.map fun c => UInt8.ofNat c.toNat

def encodeEntry (name : Text) (ftype : UInt8) (first count length : Nat) : Except Fault (List UInt8) := do
  raise (if name.length < 1 ∨ name.length > 31 then some (.value "bad name" [name]) else none)
  raise (if name.any (·.toNat ≥ 0x80) then some .unicode else none)
  let raw := ascii name
  raise (if raw.any fun c => !(decide (0x20 ≤ c) && decide (c ≤ 0x7e)) then
    some (.value "bad name bytes" [name]) else none)
  let first ← pack .struct 8 first
  let count ← pack .struct 8 count
  let length ← pack .struct 8 length
  return raw ++ zeros (32 - raw.length) ++ ftype :: zeros 7 ++ first ++ count ++ length

/-! The entries. -/

/-- The dictionary of files and the set of directories. -/
structure Listing where
  files : List (Text × List UInt8)
  dirs : List Text
  deriving DecidableEq, Repr

def Listing.hasFile (listing : Listing) (name : Text) : Bool := listing.files.any (·.1 == name)

def Listing.addDir (listing : Listing) (name : Text) : Listing :=
  if name ∈ listing.dirs then listing else { listing with dirs := listing.dirs ++ [name] }

def addParent (listing : Listing) (parent : Text) : Except Fault Listing := do
  raise (if listing.hasFile parent then some (.value "conflict: is a file" [parent]) else none)
  return listing.addDir parent

/-- The body of the loop over the entries; `none` as content marks a directory. -/
def addEntry (listing : Listing) : Text × Option (List UInt8) → Except Fault Listing
  | (path, content) => do
    let parts ← splitPath path
    let listing ← ((List.range' 1 (parts.length - 1)).map fun depth => join (parts.take depth)).foldlM addParent listing
    let key := join parts
    raise (if listing.hasFile key ∨ key ∈ listing.dirs then some (.value "duplicate entry" [path]) else none)
    match content with
    | none =>
      raise (if listing.hasFile key then some (.value "conflict" [key]) else none)
      return listing.addDir key
    | some bytes => return { listing with files := listing.files ++ [(key, bytes)] }

/-! Layout. -/

def Listing.blob (listing : Listing) (name : Text) : List UInt8 := (listing.files.lookup name).getD []

def checkGap (listing : Listing) : Text × Int → Option Fault
  | (key, count) => if listing.hasFile key = false ∨ count < 0 then some (.value "bad gap" [key]) else none

def gapBefore (gaps : List (Text × Int)) (name : Text) : Nat := ((gaps.lookup name).getD 0).toNat

def blockCount (blob : List UInt8) : Nat := if blob = [] then 0 else (blob.length + block - 1) / block

section
variable (gap : Text → Nat) (blob : Text → List UInt8)

/-- The body of the layout loop: `data_block` and `data_map`. -/
def place (state : Nat × List (Text × Nat × Nat)) (name : Text) : Nat × List (Text × Nat × Nat) :=
  let start := state.1 + gap name
  let nblocks := blockCount (blob name)
  (start + nblocks, state.2 ++ [(name, if nblocks ≠ 0 then start else 0, nblocks)])

/-- What one file adds to the data region. -/
def dataOf (name : Text) : List UInt8 :=
  zeros (gap name * block) ++ blob name ++ zeros (if blob name = [] then 0
    else (block - (blob name).length % block) % block)

end

def sorted (names : List Text) : List Text := names.insertionSort (· ≤ ·)

def byName (records : List (Text × Option (List UInt8))) : List (Text × Option (List UInt8)) :=
  records.insertionSort fun a b => a.1 ≤ b.1

/-- A record: ready for a directory, still to be encoded for a file. -/
def encodeRecord (dataStart : Nat) (dataMap : List (Text × Nat × Nat)) (blob : Text → List UInt8) :
    Text × Option (List UInt8) → Except Fault (List UInt8)
  | (_, some record) => return record
  | (name, none) =>
    let (first, count) := (dataMap.lookup name).getD (0, 0)
    encodeEntry name typeFile (if count ≠ 0 then dataStart + first else 0) count (blob name).length

def encodeHeader (total dirBlocks dataStart dataBlocks : Nat) : Except Fault (List UInt8) := do
  let versionWord ← pack .struct 4 version
  let blockWord ← pack .struct 4 block
  let totalWord ← pack .struct 8 total
  let dirStartWord ← pack .struct 8 1
  let dirBlocksWord ← pack .struct 8 dirBlocks
  let dataStartWord ← pack .struct 8 dataStart
  let dataBlocksWord ← pack .struct 8 dataBlocks
  return magic ++ versionWord ++ blockWord ++ totalWord ++ dirStartWord ++ dirBlocksWord ++ dataStartWord ++
    dataBlocksWord ++ zeros (block - 56)

def build (entries : List (Text × Option (List UInt8))) (padBlocks : Nat) (dataSlack : Int) (gaps : List (Text × Int))
    (dirSlack : Int) : Except Fault (List UInt8) := do
  let listing ← entries.foldlM addEntry ⟨[], []⟩
  raise (gaps.findSome? (checkGap listing))
  let dirRecords ← (sorted listing.dirs).mapM fun name => do
    let record ← encodeEntry name typeDir 0 0 0
    return (name, some record)
  let names := sorted (listing.files.map (·.1))
  let (dataBlock, dataMap) := names.foldl (place (gapBefore gaps) listing.blob) (0, [])
  let records := byName (dirRecords ++ names.map fun name => (name, none))
  raise (if dirSlack < 0 then some (.value "bad dir_slack" []) else none)
  let dirBlocks := max 1 ((records.length + dirSlotsPerBlock - 1) / dirSlotsPerBlock) + dirSlack.toNat
  raise (if dirBlocks > maxDirBlocks then some (.value "directory too large for v1" []) else none)
  raise (if dataSlack < 0 then some (.value "bad data_slack" []) else none)
  let dataBlocks := max 1 dataBlock + dataSlack.toNat
  let dataStart := 1 + dirBlocks
  let total := 1 + dirBlocks + dataBlocks + padBlocks
  let records ← records.mapM (encodeRecord dataStart dataMap listing.blob)
  let body := records ++ List.replicate (dirBlocks * dirSlotsPerBlock - records.length) (zeros 64)
  raise (if body.length ≠ dirBlocks * dirSlotsPerBlock then some .assertion else none)
  let header ← encodeHeader total dirBlocks dataStart dataBlocks
  let out := header ++ body.flatten ++ names.flatMap (dataOf (gapBefore gaps) listing.blob) ++
    zeros ((dataBlocks - dataBlock) * block) ++ zeros (padBlocks * block)
  raise (if out.length ≠ total * block then some .assertion else none)
  return out

end Rynor.FsImage
