import Mathlib.Logic.Function.Basic

/-! The BAR scan of kernel/drivers/pci.c, over a configuration space that answers reads and
takes writes as its device likes. -/

namespace Rynor.Pci

def cfgCommand : Nat := 0x04
def cfgHeaderType : Nat := 0x0e
def cfgBar0 : Nat := 0x10
def maxBarSlots : Nat := 6
def maxBarEntries : Nat := 4
def maxBridgeBars : Nat := 2

def barAddr32 : BitVec 32 := 0xfffffff0
def barAddrIo : BitVec 32 := 0xfffffffc

/-- The dwords of one function, by offset. -/
structure Space (σ : Type) where
  read : σ → Nat → BitVec 32
  write : σ → Nat → BitVec 32 → σ

inductive BarKind
  | io | mmio32 | mmio64
  deriving DecidableEq

structure Bar where
  index : Nat
  kind : BarKind
  prefetchable : Bool
  is64 : Bool
  rawLow : BitVec 32
  rawHigh : BitVec 32
  base : BitVec 64
  size : BitVec 64
  deriving DecidableEq

/-- The dword slots of an accepted BAR: what `bar_decode` returns for it. -/
def Bar.slots (bar : Bar) : Nat := if bar.is64 then 2 else 1

/-- A memory BAR with a 64-bit address, by its low dword. -/
def declares64 (raw : BitVec 32) : Bool := !raw.getLsbD 0 && raw >>> 1 &&& 3 == 2

def powerOfTwo (v : BitVec 64) : Bool := v != 0 && v &&& (v - 1) == 0

section
variable {σ : Type} (space : Space σ)

def pciCfgRead16 (off : Nat) (s : σ) : BitVec 16 := (space.read s (off / 4 * 4) >>> (off % 4 * 8)).setWidth 16

def pciCfgWrite16 (off : Nat) (val : BitVec 16) (s : σ) : σ :=
  let shift := off % 4 * 8
  space.write s (off / 4 * 4) (space.read s (off / 4 * 4) &&& ~~~(0xffff#32 <<< shift) ||| val.setWidth 32 <<< shift)

/-- The command word, the two masks and the space afterwards. -/
def barProbe (off : Nat) (is64 : Bool) (rawLow rawHigh : BitVec 32) (s : σ) : BitVec 16 × BitVec 32 × BitVec 32 × σ :=
  let cmd := pciCfgRead16 space cfgCommand s
  let s := pciCfgWrite16 space cfgCommand (cmd &&& ~~~3) s
  let s := space.write s off 0xffffffff
  let s := if is64 then space.write s (off + 4) 0xffffffff else s
  let maskLow := space.read s off
  let maskHigh := if is64 then space.read s (off + 4) else 0
  let s := space.write s off rawLow
  let s := if is64 then space.write s (off + 4) rawHigh else s
  (cmd, maskLow, maskHigh, pciCfgWrite16 space cfgCommand cmd s)

def barRestored (off : Nat) (is64 : Bool) (cmd : BitVec 16) (rawLow rawHigh : BitVec 32) (s : σ) : Bool :=
  space.read s off == rawLow && (!is64 || space.read s (off + 4) == rawHigh) && pciCfgRead16 space cfgCommand s == cmd

def barOffset (slot : Nat) : Nat := cfgBar0 + slot * 4

/-- The BAR in a slot, if there is a usable one. -/
def barDecode (slot nslots : Nat) (s : σ) : Option Bar × σ :=
  let off := barOffset slot
  let raw := space.read s off
  if raw = 0 then (none, s)
  else if raw.getLsbD 0 then
    let base := (raw &&& barAddrIo).setWidth 64
    let (cmd, mask, _, s) := barProbe space off false raw 0 s
    let size := (~~~(mask &&& barAddrIo) + 1).setWidth 64
    if !barRestored space off false cmd raw 0 s then (none, s)
    else if size = 0 ∨ !powerOfTwo size ∨ base % size ≠ 0 ∨ base > 0xffff ∨ size > 0x10000 then (none, s)
    else (some ⟨slot, .io, false, false, raw, 0, base, size⟩, s)
  else if declares64 raw then
    if slot + 1 ≥ nslots then (none, s)
    else
      let high := space.read s (off + 4)
      let base : BitVec 64 := high ++ (raw &&& barAddr32)
      let (cmd, maskLow, maskHigh, s) := barProbe space off true raw high s
      let combined : BitVec 64 := maskHigh ++ (maskLow &&& barAddr32)
      let size := ~~~combined + 1
      if !barRestored space off true cmd raw high s then (none, s)
      else if combined = 0 ∨ size = 0 ∨ !powerOfTwo size ∨ base % size ≠ 0 ∨ size > ~~~0 - base then (none, s)
      else (some ⟨slot, .mmio64, raw.getLsbD 3, true, raw, high, base, size⟩, s)
  else
    let base := (raw &&& barAddr32).setWidth 64
    let (cmd, mask, _, s) := barProbe space off false raw 0 s
    let size := (~~~(mask &&& barAddr32) + 1).setWidth 64
    if !barRestored space off false cmd raw 0 s then (none, s)
    else if size = 0 ∨ !powerOfTwo size ∨ base % size ≠ 0 ∨ size > 0x100000000 - base then (none, s)
    else (some ⟨slot, .mmio32, raw.getLsbD 3, false, raw, 0, base, size⟩, s)

/-- One look of the scan at a slot: the space before it and the BAR that was found. -/
structure Visit (σ : Type) where
  slot : Nat
  before : σ
  bar : Option Bar

/-- The loop over the slots, `left` of which are still to come, with `count` BARs recorded. -/
def scanBars (nslots : Nat) : (left count : Nat) → σ → List (Visit σ)
  | 0, _, _ => []
  | left + 1, count, s =>
    if count ≥ maxBarEntries then []
    else
      let slot := nslots - (left + 1)
      let (bar, next) := barDecode space slot nslots s
      let visit : Visit σ := ⟨slot, s, bar⟩
      match bar with
      | none => visit :: scanBars nslots left count next
      | some bar =>
        if bar.is64 then
          match left with
          | 0 => [visit]
          | rest + 1 => visit :: scanBars nslots rest (count + 1) next
        else visit :: scanBars nslots left (count + 1) next

/-- The slots of a function, by its header layout. -/
def barSlots (s : σ) : Nat :=
  let layout := space.read s (cfgHeaderType / 4 * 4) >>> (cfgHeaderType % 4 * 8) &&& 0x7f
  if layout = 0 then maxBarSlots else if layout = 1 then maxBridgeBars else 0

/-- The looks of `scan_function`. -/
def barVisits (s : σ) : List (Visit σ) := scanBars space (barSlots space s) (barSlots space s) 0 s

/-- The BARs that `scan_function` records. -/
def scanFunction (s : σ) : List Bar := (barVisits space s).filterMap (·.bar)

end

end Rynor.Pci
