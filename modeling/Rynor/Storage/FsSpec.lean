import Rynor.Storage.FsRun
import Rynor.Proofs.FsPaths

/-! What the filesystem is for: a map from names to directories and byte strings. No blocks, no
directory slots, no device. The handles are those of the code, a slot packed with its generation,
since callers see their numbers. A call that needs new space takes from its caller whether there
is any. -/

namespace Rynor.Fs
open ByteMemory

inductive Node where
  | directory
  | file (bytes : List UInt8)
  deriving DecidableEq

/-- Names are paths without the leading slash; the root is not in the map. -/
@[ext] structure Files where
  nodes : List UInt8 → Option Node
  handles : Nat → Option (List UInt8)
  generations : Nat → Nat

namespace Files
variable (files : Files)

def walk : List (List UInt8) → Option FsResult
  | [] => none
  | parent :: rest =>
    match files.nodes parent with
    | none => some .notFound
    | some .directory => walk rest
    | some (.file _) => some .notDir

/-- The key a well-formed path other than the root names, once its ancestors are directories. -/
def key (path : Option ByteMemory) (atRoot : FsResult) : Except FsResult (List UInt8) :=
  match path, pathOk path with
  | some path, some len =>
    if len = 1 then .error atRoot
    else match files.walk (ancestors (pathKey path len)) with
      | some code => .error code
      | none => .ok (pathKey path len)
  | _, _ => .error .invalid

/-- The key of an existing regular file. -/
def fileKey (path : Option ByteMemory) : Except FsResult (List UInt8) := do
  let key ← files.key path .notFile
  match files.nodes key with
  | none => .error .notFound
  | some .directory => .error .notFile
  | some (.file _) => .ok key

def setNode (name : List UInt8) (node : Option Node) : Files :=
  { files with nodes := fun other => if other = name then node else files.nodes other }

def setHandle (slot : Nat) (name : Option (List UInt8)) : Files :=
  { files with handles := fun other => if other = slot then name else files.handles other }

/-- The slot and file an open handle denotes. -/
def decode (handle : Nat) : Option (Nat × List UInt8) :=
  if handle / 8 = 0 ∨ files.generations (handle % 8) ≠ handle / 8 then none
  else (files.handles (handle % 8)).map fun name => (handle % 8, name)

/-- The bytes behind an open handle. -/
def content (handle : Nat) : Option (List UInt8 × List UInt8) :=
  match files.decode handle with
  | none => none
  | some (_, name) =>
    match files.nodes name with
    | some (.file bytes) => some (name, bytes)
    | _ => none

def create (room : Bool) (path : Option ByteMemory) : FsResult × Files :=
  match files.key path .alreadyExists with
  | .error code => (code, files)
  | .ok name =>
    if (files.nodes name).isSome then (.alreadyExists, files)
    else if room then (.ok, files.setNode name (some (.file []))) else (.noSpc, files)

def openFile (path : Option ByteMemory) : FsResult × Option Nat × Files :=
  match files.fileKey path with
  | .error code => (code, none, files)
  | .ok name =>
    match (List.range maxOpen).find? fun slot => (files.handles slot).isNone with
    | none => (.busy, none, files)
    | some slot =>
      let generation := bump (files.generations slot)
      (.ok, some (packHandle slot generation),
        { files.setHandle slot (some name) with
          generations := fun other => if other = slot then generation else files.generations other })

def write (room : Bool) (handle offset address : Nat) (source : ByteMemory) (len : Nat) : WriteReply × Files :=
  match files.content handle with
  | none => (⟨.badHandle, none⟩, files)
  | some (name, bytes) =>
    if len > maxWriteBytes then (⟨.invalid, none⟩, files)
    else if offset > bytes.length then (⟨.range, none⟩, files)
    else if len ≠ 0 ∧ (address = 0 ∨ address % 2 = 1) then (⟨.invalid, none⟩, files)
    else if len = 0 then (⟨.ok, some 0⟩, files)
    else if offset + len > bytes.length ∧ room = false then (⟨.noSpc, some 0⟩, files)
    else (⟨.ok, some len⟩, files.setNode name (some (.file (splice bytes offset (source.slice 0 len)))))

def read (handle offset address len : Nat) : ReadReply :=
  match files.content handle with
  | none => ⟨.badHandle, none, []⟩
  | some (_, bytes) =>
    if len > maxReadBytes then ⟨.invalid, none, []⟩
    else if offset > bytes.length then ⟨.range, none, []⟩
    else if len ≠ 0 ∧ (address = 0 ∨ address % 2 = 1) then ⟨.invalid, none, []⟩
    else
      let slice := (bytes.drop offset).take len
      ⟨.ok, some slice.length, slice⟩

/-- Block counts are a matter of layout: the map answers 0 for them. -/
def stat (path : Option ByteMemory) : FsResult × Option Stat :=
  match files.key path .ok with
  | .error .ok => (.ok, some ⟨typeDir, 0, 0⟩)
  | .error code => (code, none)
  | .ok name =>
    match files.nodes name with
    | none => (.notFound, none)
    | some .directory => (.ok, some ⟨typeDir, 0, 0⟩)
    | some (.file bytes) => (.ok, some ⟨typeFile, bytes.length, 0⟩)

def unlink (path : Option ByteMemory) : FsResult × Files :=
  match files.fileKey path with
  | .error code => (code, files)
  | .ok name =>
    (.ok, { files.setNode name none with
      handles := fun slot => if files.handles slot = some name then none else files.handles slot })

def close (handle : Nat) : FsResult × Files :=
  match files.decode handle with
  | none => (.badHandle, files)
  | some (slot, _) => (.ok, files.setHandle slot none)

/-- One call on the map. `room` matters only to a create and to a write that grows its file. -/
def step (room : Bool) : Op → Reply × Files
  | .create path => let (result, files) := files.create room path; (.status result, files)
  | .openFile path => let (result, handle, files) := files.openFile path; (.opened result handle, files)
  | .write handle offset address source len =>
    let (reply, files) := files.write room handle offset address source len; (.written reply, files)
  | .read handle offset address len => (.bytes (files.read handle offset address len), files)
  | .stat path => let (result, stat) := files.stat path; (.stat result stat, files)
  | .unlink path => let (result, files) := files.unlink path; (.status result, files)
  | .close handle => let (result, files) := files.close handle; (.status result, files)

/-- A sequence of calls, each with its room. -/
def run : Files → List (Op × Bool) → List Reply × Files
  | files, [] => ([], files)
  | files, (op, room) :: rest =>
    let (reply, files) := files.step room op
    let (replies, files) := run files rest
    (reply :: replies, files)

end Files

/-- A reply without the block count of a stat. -/
def Reply.observed : Reply → Reply
  | .stat result (some info) => .stat result (some { info with blocks := 0 })
  | other => other

end Rynor.Fs
