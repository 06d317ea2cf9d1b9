import Rynor.Storage.FsFormat

/-! Path rules and path resolution of kernel/storage/fs.c. A path is a C string:
a pointer, or `none` for NULL. -/

namespace Rynor.Fs
open ByteMemory

def pathLen (path : Option ByteMemory) : Option Nat :=
  match path with
  | none => none
  | some path => (List.range (maxPath + 1)).find? fun length => path length == 0

/-- The inner scan of every component loop: the next slash at or after `start`, or `len`. -/
def componentEnd (path : ByteMemory) (len start : Nat) : Nat :=
  ((List.range' start (len - start)).find? fun index => path index == slash).getD len

/-- Some component from `start` on is `.` or `..`. -/
def dotComponent (path : ByteMemory) (len : Nat) : Nat → Nat → Bool
  | 0, _ => false
  | fuel + 1, start =>
    if start < len then
      let stop := componentEnd path len start
      if (stop - start = 1 ∧ path start = dot) ∨ (stop - start = 2 ∧ path start = dot ∧ path (start + 1) = dot) then
        true
      else dotComponent path len fuel (stop + 1)
    else false

/-- The strict path rules; the length, or `none` for a malformed path. -/
def pathOk (path : Option ByteMemory) : Option Nat :=
  match path, pathLen path with
  | some path, some len =>
    if len < 1 ∨ len > maxPath then none
    else if path 0 ≠ slash then none
    else if (List.range' 1 (len - 1)).any fun index => path index < 0x20 || path index > 0x7e then none
    else if len > 1 ∧ path (len - 1) = slash then none
    else if (List.range' 1 (len - 1)).any fun index => path index == slash && path (index - 1) == slash then none
    else if dotComponent path len len 1 then none
    else some len
  | _, _ => none

/-- Where the component walk of `resolve` and `fs_create` stops: at a proper prefix
that is missing or not a directory, or at the full key with its lookup result. -/
inductive Walk where
  | refused (error : FsError)
  | reached (key : List UInt8) (hit : Option Nat)

/-- The walk itself. The key grows component by component, without the leading slash. -/
def walkPath (dir : ByteMemory) (slots : Nat) (path : ByteMemory) (len : Nat) (missing notDir : String) :
    Nat → Nat → List UInt8 → Walk
  | 0, _, key => .reached key none
  | fuel + 1, start, key =>
    let stop := componentEnd path len start
    let key := (if key.isEmpty then [] else key ++ [slash]) ++ path.slice start (stop - start)
    let hit := findKey dir slots key
    if stop = len then .reached key hit
    else match hit with
      | none => .refused ⟨.notFound, missing⟩
      | some parent =>
        if entryType (entryAt dir parent) ≠ typeDir then .refused ⟨.notDir, notDir⟩
        else walkPath dir slots path len missing notDir fuel (stop + 1) key

/-- `resolve`: a directory slot, the root, or a refusal. -/
inductive Lookup where
  | slot (index : Nat)
  | root
  | refused (error : FsError)

def resolve (dir : ByteMemory) (slots : Nat) (path : ByteMemory) (len : Nat) : Lookup :=
  if len = 1 then .root
  else match walkPath dir slots path len "lookup-missing" "lookup-notdir" len 1 [] with
    | .refused error => .refused error
    | .reached _ none => .refused ⟨.notFound, "lookup-missing"⟩
    | .reached _ (some slot) => .slot slot

end Rynor.Fs
