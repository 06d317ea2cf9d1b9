import Rynor.Memory.Vm

/-! Copies between the kernel and a caller's pages (kernel/core/load.c). Every loop there
goes over a range page by page: an address, the offset it has in the range, and the bytes
up to the end of its page or of the range. -/

namespace Rynor
open Vm

def pieceSize (uaddr len off : Nat) : Nat := min (pageSize - (uaddr + off) % u64 % pageSize) (len - off)

/-- The page walk shared by all copies. `body` answers `false` to end it. -/
def eachPage {σ : Type} (body : σ → Nat → Nat → Nat → Bool × σ) (uaddr len : Nat) : Nat → Nat → σ → Bool × σ
  | 0, _, state => (true, state)
  | fuel + 1, off, state =>
    if off < len then
      match body state ((uaddr + off) % u64) off (pieceSize uaddr len off) with
      | (false, state) => (false, state)
      | (true, state) => eachPage body uaddr len fuel (off + pieceSize uaddr len off) state
    else (true, state)

/-- The mapping of the page an address lies on, if it grants what the caller asks for. -/
def granted (m : Machine) (s : Space) (wants : Mapping → Bool) (addr : Nat) : Option Mapping :=
  match vmQuery m s (pageOf addr) with
  | .ok mapping => if wants mapping then some mapping else none
  | .error _ => none

/-- The frame behind a granted page, once the kernel may touch it. -/
def userFrame (m : Machine) (s : Space) (wants : Mapping → Bool) (addr : Nat) : Option Nat := do
  let mapping ← granted m s wants addr
  vmFrameAccess m (pageOf mapping.physical)

def readable (mapping : Mapping) : Bool := mapping.user
def writable (mapping : Mapping) : Bool := mapping.user && mapping.write

def checkPages (m : Machine) (s : Space) (wants : Mapping → Bool) (uaddr len : Nat) : Bool :=
  (eachPage (fun _ addr _ _ => ((granted m s wants addr).isSome, ())) uaddr len len 0 ()).1

/-- One piece of a copy in: the bytes behind a readable page go to the buffer. -/
def takePiece (m : Machine) (s : Space) (dst : ByteMemory) (addr off chunk : Nat) : Bool × ByteMemory :=
  match userFrame m s readable addr with
  | none => (false, dst)
  | some frame => (true, dst.overlay off chunk (m.ram.shift (frame + addr % pageSize)))

/-- One piece of a copy out. -/
def putPiece (s : Space) (src : ByteMemory) (m : Machine) (addr off chunk : Nat) : Bool × Machine :=
  match userFrame m s writable addr with
  | none => (false, m)
  | some frame => (true, { m with ram := m.ram.overlay (frame + addr % pageSize) chunk (src.shift off) })

/-- `none` is the source's `(cpu_u64)-1`; the second component is the destination buffer. -/
def copyFromUser (m : Machine) (s : Space) (dst : ByteMemory) (uaddr len : Nat) : Option Nat × ByteMemory :=
  if !checkPages m s readable uaddr len then (none, dst)
  else
    let (copied, dst) := eachPage (takePiece m s) uaddr len len 0 dst
    (if copied then some len else none, dst)

def copyDestOk (m : Machine) (s : Space) (uaddr len : Nat) : Option Nat :=
  if len = 0 then some 0
  else if (uaddr + len) % u64 < uaddr then none
  else if checkPages m s writable uaddr len then some len else none

def copyToUser (m : Machine) (s : Space) (uaddr : Nat) (src : ByteMemory) (len : Nat) : Option Nat × Machine :=
  if len = 0 then (some 0, m)
  else if copyDestOk m s uaddr len ≠ some len then (none, m)
  else
    let (copied, m) := eachPage (putPiece s src) uaddr len len 0 m
    (if copied then some len else none, m)

end Rynor
