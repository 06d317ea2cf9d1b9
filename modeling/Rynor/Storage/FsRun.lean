import Rynor.Lib.Transition
import Rynor.Storage.Fs

/-! Sequences of filesystem calls. -/

namespace Rynor.Fs
open ByteMemory Blk

/-- The calls that act on a mounted filesystem, with their arguments. A buffer is an
address and, where the call reads it, its contents. -/
inductive Op where
  | create (path : Option ByteMemory)
  | openFile (path : Option ByteMemory)
  | write (handle offset address : Nat) (source : ByteMemory) (len : Nat)
  | read (handle offset address len : Nat)
  | stat (path : Option ByteMemory)
  | unlink (path : Option ByteMemory)
  | close (handle : Nat)

/-- Everything a call hands back. -/
inductive Reply where
  | status (result : FsResult)
  | opened (result : FsResult) (handle : Option Nat)
  | written (reply : WriteReply)
  | bytes (reply : ReadReply)
  | stat (result : FsResult) (stat : Option Stat)
  deriving DecidableEq, Repr

def Reply.result : Reply → FsResult
  | .status result => result
  | .opened result _ => result
  | .written reply => reply.result
  | .bytes reply => reply.result
  | .stat result _ => result

/-- One call. `none` is a call that does not return. -/
def step (drive : Drive) (fs : Volume) : Op → Option (Reply × Volume)
  | .create path => let (result, fs) := fsCreate drive fs path; some (.status result, fs)
  | .openFile path => let (result, handle, fs) := fsOpen fs path; some (.opened result handle, fs)
  | .write handle offset address source len =>
    (fsWrite drive fs handle offset address source len).map fun (reply, fs) => (.written reply, fs)
  | .read handle offset address len =>
    let (reply, fs) := fsRead drive fs handle offset address len; some (.bytes reply, fs)
  | .stat path => let (result, stat, fs) := fsStat fs path; some (.stat result stat, fs)
  | .unlink path => let (result, fs) := fsUnlink drive fs path; some (.status result, fs)
  | .close handle => let (result, fs) := fsClose fs handle; some (.status result, fs)

/-- A sequence of calls, with the reply to each. -/
def run (drive : Drive) : Volume → List Op → Option (List Reply × Volume) := Transition.run (step drive)

/-- The arguments with which `fs_write` reaches `write_relocate`. -/
def relocates (fs : Volume) (handle offset address len : Nat) : Bool :=
  match decodeHandle fs handle with
  | none => false
  | some slot =>
    let entry := entryAt fs.dir (fs.handles slot).entry
    decide (len ≤ maxWriteBytes ∧ entryType entry = typeFile ∧ offset ≤ entryLength entry ∧ len ≤ u64 - 1 - offset ∧
      len ≠ 0 ∧ address ≠ 0 ∧ address % 2 ≠ 1 ∧ entryLength entry < offset + len ∧
        entryCount entry * 512 % u64 < offset + len)

/-- The machine switched off and on again with `disk` on the mounted device. -/
def Volume.reboot (fs : Volume) (disk : ByteMemory) : Volume :=
  .boot fun id =>
    { fs.blk.devices id with writable := false, log := [], disk := if id = fs.dev then disk else (fs.blk.devices id).disk }

def remount (fs : Volume) (disk : ByteMemory) : Option (FsResult × Volume) := fsMount .working (fs.reboot disk) fs.dev

/-- Calls on the filesystem, mounts and unmounts included. -/
inductive VolumeOp where
  | file (op : Op)
  | mount (dev : Nat)
  | unmount

/-- One such call; `none` is also the halt of `rollback_fail`. Unmounting returns nothing. -/
def volumeStep (drive : Drive) (fs : Volume) : VolumeOp → Option (Option Reply × Volume)
  | .file op => (step drive fs op).map fun (reply, fs) => (some reply, fs)
  | .mount dev => (fsMount drive fs dev).map fun (result, fs) => (some (.status result), fs)
  | .unmount => (fsUnmount fs).map fun fs => (none, fs)

/-- An eight-sector device with one directory block and no files. -/
def emptyDevice : Device :=
  { present := true, writable := false, blockCount := 8, log := [], addressable := by decide
    disk := ofList (magic ++ [1, 0, 0, 0] ++ [0, 2, 0, 0] ++ word 8 ++ word 1 ++ word 1 ++ word 2 ++ word 6) }
where
  word (value : UInt8) : List UInt8 := [value, 0, 0, 0, 0, 0, 0, 0]

/-- The directory `d` in slot 1, its file `d/b` in slot 2 with block 5 and the file `a` in slot 4 with block 3. -/
def sampleDir : ByteMemory :=
  let entries := overlay (fun _ => 0) 64 64 (overlay (newEntry [0x64]) 32 1 fun _ => typeDir)
  let entries := overlay entries 128 64 (switchedEntry (newEntry [0x64, slash, 0x62]) 5 1 3)
  overlay entries 256 64 (switchedEntry (newEntry [0x61]) 3 1 2)

/-- The same device with that directory and the bytes of its two files. -/
def sampleDevice : Device :=
  { emptyDevice with
    disk := overlay (overlay (overlay emptyDevice.disk 512 512 sampleDir) 1536 2 (ofList [0x68, 0x69])) 2560 3
      (ofList [0x68, 0x65, 0x79]) }

def volumeRun (drive : Drive) : Volume → List VolumeOp → Option (List (Option Reply) × Volume) :=
  Transition.run (volumeStep drive)

end Rynor.Fs
