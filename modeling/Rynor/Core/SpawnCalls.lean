import Rynor.Core.Pipe
import Rynor.Core.UserCopy
import Rynor.Memory.Heap
import Rynor.Storage.Fs

/-! `sys_spawn` of kernel/core/proc.c: a descriptor and its strings copied once from the
caller, an image staged in the kernel heap, the admission of the process, and the handle
published last. What `proc_spawn_image` makes of the image is an input. -/

namespace Rynor
open Vm Fs Blk ByteMemory

/-! The executable envelope (load.c). -/

inductive RnyxError
  | truncated | magic | version | arch | header | entry | codeSize | dataSize | shape
  deriving DecidableEq

structure RnyxLayout where
  codeOff : Nat
  codeLen : Nat
  dataOff : Nat
  dataFilesz : Nat
  dataMemsz : Nat
  deriving DecidableEq

def rnyxHeaderLen : Nat := 28
def rnyxCodeMax : Nat := 65536
def rnyxDataMax : Nat := 32768

/-- The size classes of a version: most code and most data. -/
def rnyxLimits (version : Nat) : Option (Nat × Nat) :=
  if version = 1 then some (pageSize, pageSize) else if version = 2 then some (rnyxCodeMax, rnyxDataMax) else none

def rnyxValidate (img : ByteMemory) (len : Nat) : Except RnyxError RnyxLayout :=
  let field := fun offset size => (img.shift offset).littleEndian size
  if len < rnyxHeaderLen then .error .truncated
  else if field 0 4 ≠ 0x584e5952 then .error .magic
  else match rnyxLimits (field 4 2) with
    | none => .error .version
    | some (codeMax, dataMax) =>
      let code := field 16 4
      let filesz := field 20 4
      let memsz := field 24 4
      if field 6 2 ≠ 1 then .error .arch
      else if field 8 2 ≠ rnyxHeaderLen then .error .header
      else if field 10 2 ≠ 0 then .error .header
      else if field 12 4 ≠ 0 then .error .entry
      else if code = 0 ∨ code > codeMax then .error .codeSize
      else if filesz > dataMax ∨ memsz < filesz ∨ memsz > dataMax then .error .dataSize
      else if rnyxHeaderLen + code + filesz ≠ len then .error .shape
      else .ok ⟨rnyxHeaderLen, code, rnyxHeaderLen + code, filesz, memsz⟩

/-! Staging an image. -/

/-- `IMG_STAGE_MAX`. -/
def imgStageMax : Nat := rnyxHeaderLen + rnyxCodeMax + rnyxDataMax

/-- The read loop, into the block at `img`. -/
def imageLoop (drive : Drive) (handle img size : Nat) : Nat → List UInt8 → Volume → Option (List UInt8) × Volume
  | 0, data, fs => (some data, fs)
  | fuel + 1, data, fs =>
    if data.length < size then
      let chunk := if size - data.length > maxReadBytes then maxReadBytes else size - data.length
      match fsRead drive fs handle data.length (img + data.length) chunk with
      | (⟨.ok, some n, bytes⟩, fs) => if n ≠ chunk then (none, fs)
        else imageLoop drive handle img size fuel (data ++ bytes) fs
      | (_, fs) => (none, fs)
    else (some data, fs)

/-- The image and its block in the heap. A heap that does not take a block back is a panic. -/
def stageImage (drive : Drive) (cpu : Cpu) (path : ByteMemory) (fs : Volume) (heap : Heap.State) :
    Except String (Except SysResult (List UInt8 × Nat) × Volume × Heap.State) :=
  let giveBack := fun (img : Nat) (fs : Volume) (heap : Heap.State) =>
    match Heap.heapFree cpu img heap with
    | (.ok, heap) => .ok (.error .ioErr, fs, heap)
    | _ => .error "spawn_heap"
  match fsStat fs (some path) with
  | (.ok, some st, fs) =>
    if st.type ≠ typeFile then .ok (.error .malformed, fs, heap)
    else if st.size < rnyxHeaderLen ∨ st.size > imgStageMax then .ok (.error .malformed, fs, heap)
    else match fsOpen fs (some path) with
      | (.ok, some handle, fs) =>
        match Heap.heapAlloc cpu st.size 8 true heap with
        | (.ok, some img, heap) =>
          match imageLoop drive handle img st.size st.size [] fs with
          | (none, fs) => giveBack img (fsClose fs handle).2 heap
          | (some data, fs) =>
            match fsClose fs handle with
            | (.ok, fs) => .ok (.ok (data, img), fs, heap)
            | (_, fs) => giveBack img fs heap
        | (_, _, heap) => .ok (.error .noMem, (fsClose fs handle).2, heap)
      | (_, _, fs) => .ok (.error .notFound, fs, heap)
  | (_, _, fs) => .ok (.error .notFound, fs, heap)

/-! The request. -/

def maxArgvBytes : Nat := 256
def maxBinName : Nat := 27
def spawnSpecBytes : Nat := 96

/-- The strings of an argument vector, staged one behind the other; `vec` holds the descriptors. -/
def stageStrings (m : Machine) (s : Space) (vec : ByteMemory) :
    Nat → Nat → Nat → List (List UInt8) → Except SysResult (List (List UInt8))
  | 0, _, _, strings => .ok strings
  | left + 1, i, cursor, strings =>
    let ptr := (vec.shift (16 * i)).littleEndian 8
    let len := (vec.shift (16 * i + 8)).littleEndian 8
    if len > maxArgvBytes then .error .badArg
    else if (ptr + len) % u64 < ptr then .error .badArg
    else if len + 1 > maxArgvBytes - cursor then .error .badArg
    else
      match copyFromUser m s (fun _ => 0) ptr len with
      | (copied, dst) =>
        if len > 0 ∧ copied ≠ some len then .error .badArg
        else if (dst.slice 0 len).any (· == 0) then .error .badArg
        else stageStrings m s vec left (i + 1) (cursor + (len + 1)) (strings ++ [dst.slice 0 len])

/-- The bytes up to the first NUL among the first `len`. -/
def effective (staged : ByteMemory) (len : Nat) : List UInt8 := (staged.slice 0 len).takeWhile (· != 0)

/-- An absolute path as it is, a bare name under `/bin/`. -/
def resolveExecPath (staged : ByteMemory) (len : Nat) : Except SysResult ByteMemory :=
  let name := effective staged len
  if len < 1 ∨ len > maxPath then .error .badArg
  else if name = [] then .error .badArg
  else if slash ∈ name then if pathOk (some staged) = none then .error .badArg else .ok (ofList name)
  else if name.length > maxBinName then .error .badArg
  else
    let path := ofList ([0x2f, 0x62, 0x69, 0x6e, 0x2f] ++ name)
    if pathOk (some path) = none then .error .badArg else .ok path

structure SpawnRequest where
  path : ByteMemory
  strings : List (List UInt8)
  stdinSel : Nat

/-- Everything `sys_spawn` checks before it touches the filesystem. -/
def spawnRequest (m : Machine) (s : Space) (specPtr handleOut : Nat) : Except SysResult SpawnRequest := do
  if (specPtr + spawnSpecBytes) % u64 < specPtr then throw .badArg
  let (copied, spec) := copyFromUser m s (fun _ => 0) specPtr spawnSpecBytes
  if copied ≠ some spawnSpecBytes then throw .badArg
  let word := fun offset size => (spec.shift offset).littleEndian size
  let pathLen := word 8 8
  let nargs := word 24 4
  if pathLen < 1 ∨ pathLen > 32 then throw .badArg
  if nargs > 8 then throw .badArg
  if word 28 4 ≠ stdinClosed ∧ word 28 4 ≠ stdinKbd then throw .badArg
  if word 32 4 ≠ stdoutSerial then throw .badArg
  if word 36 4 ≠ 0 ∨ word 40 8 ≠ 0 ∨ word 48 8 ≠ 0 ∨ word 56 8 ≠ 0 then throw .badArg
  if (List.range 4).any fun i => word (64 + 8 * i) 8 != 0 then throw .badArg
  if (word 16 8 + 16 * nargs) % u64 < word 16 8 then throw .badArg
  let (described, vec) := copyFromUser m s (fun _ => 0) (word 16 8) (16 * nargs)
  if nargs > 0 ∧ described ≠ some (16 * nargs) then throw .badArg
  let strings ← stageStrings m s vec nargs 0 0 []
  if (word 0 8 + pathLen) % u64 < word 0 8 then throw .badArg
  let (named, staged) := copyFromUser m s (fun _ => 0) (word 0 8) pathLen
  if named ≠ some pathLen then throw .badArg
  let staged := staged.overlay pathLen 1 fun _ => 0
  let path ← resolveExecPath staged (effective staged pathLen).length
  if (handleOut + 8) % u64 < handleOut ∨ copyDestOk m s handleOut 8 ≠ some 8 then throw .badArg
  return ⟨path, strings, word 28 4⟩

structure Kernel where
  m : Machine
  fs : Volume
  heap : Heap.State

/-- `spawnImage` is the answer of `proc_spawn_image`: the handle, or a refusal. -/
def sysSpawn (drive : Drive) (spawnImage : SpawnRequest → List UInt8 → Except SysResult Nat) (k : Kernel) (s : Space)
    (specPtr handleOut : Nat) :
    Except String (SysResult × Kernel) :=
  if !k.m.cpu.foreground then .ok (.inval, k)
  else match spawnRequest k.m s specPtr handleOut with
    | .error rc => .ok (rc, k)
    | .ok request =>
      match stageImage drive k.m.cpu request.path k.fs k.heap with
      | .error why => .error why
      | .ok (.error rc, fs, heap) => .ok (rc, { k with fs, heap })
      | .ok (.ok (image, img), fs, heap) =>
        let admitted := spawnImage request image
        match Heap.heapFree k.m.cpu img heap with
        | (.ok, heap) =>
          match admitted with
          | .error rc => .ok (rc, { k with fs, heap })
          | .ok handle =>
            match copyToUser k.m s handleOut (ofNat handle) 8 with
            | (copied, m) => if copied ≠ some 8 then .error "spawn_publish" else .ok (.ok, ⟨m, fs, heap⟩)
        | _ => .error "spawn_heap"

end Rynor
