import Rynor.Lib.ByteMemory

/-! The capability walker of kernel/interrupts/msi.c, over the configuration bytes of each function. -/

namespace Rynor.Msi
open ByteMemory

/-- The two answers of the walker. -/
inductive Result
  | ok | invalid
  deriving DecidableEq, Repr

def capIdMsi : Nat := 0x05
def capIdMsix : Nat := 0x11

/-- `struct msi_walk`. -/
structure Walk where
  hasMsi : Bool
  hasMsix : Bool
  msiOff : Nat
  msixOff : Nat
  malformed : Nat
  deriving DecidableEq

/-- The first capability of each kind wins. -/
def Walk.note (out : Walk) (id off : Nat) : Walk :=
  if id == capIdMsi && !out.hasMsi then { out with hasMsi := true, msiOff := off }
  else if id == capIdMsix && !out.hasMsix then { out with hasMsix := true, msixOff := off }
  else out

/-- The two words of visited bits. -/
structure Seen where
  lo : Nat
  hi : Nat

def Seen.has (seen : Seen) (bit : Nat) : Bool := if bit < 32 then seen.lo.testBit bit else seen.hi.testBit (bit - 32)

def Seen.mark (seen : Seen) (bit : Nat) : Seen :=
  if bit < 32 then { seen with lo := seen.lo ||| 1 <<< bit } else { seen with hi := seen.hi ||| 1 <<< (bit - 32) }

/-- The loop over the links, with the rounds that are left. -/
def walkFrom (cfg : ByteMemory) : (left off : Nat) → Seen → Walk → Walk
  | 0, _, _, out => { out with malformed := 6 }
  | left + 1, off, seen, out =>
    let bit := (off - 0x40) / 4
    if off = 0 then out
    else if off < 0x40 then { out with malformed := 2 }
    else if off > 0xfc then { out with malformed := 3 }
    else if off % 4 ≠ 0 then { out with malformed := 4 }
    else if seen.has bit then { out with malformed := 5 }
    else walkFrom cfg left (cfg (off + 1)).toNat (seen.mark bit) (out.note (cfg off).toNat off)

def bdfOk (bus dev fn : Nat) : Bool := bus ≤ 255 && dev ≤ 31 && fn ≤ 7

def msiWalkCaps (space : Nat → Nat → Nat → ByteMemory) (bus dev fn : Nat) : Result × Walk :=
  let cfg := space bus dev fn
  if !bdfOk bus dev fn then (.invalid, ⟨false, false, 0, 0, 0⟩)
  else if littleEndian cfg 2 = 0xffff then (.ok, ⟨false, false, 0, 0, 0⟩)
  else if littleEndian (cfg.shift 6) 2 &&& 0x10 = 0 then (.ok, ⟨false, false, 0, 0, 1⟩)
  else (.ok, walkFrom cfg 64 (cfg 0x34).toNat ⟨0, 0⟩ ⟨false, false, 0, 0, 0⟩)

end Rynor.Msi
