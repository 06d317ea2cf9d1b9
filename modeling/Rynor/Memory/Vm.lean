import Rynor.Core.Machine
import Rynor.Lib.ByteMemory

/-! The virtual memory manager of kernel/mm/vm.c, as far as its callers look things up:
four levels of page tables in physical memory and the query that walks them. The private
frame window through which the code reaches a table is scratch and is left out. -/

namespace Rynor.Vm

inductive Result
  | ok | notReady | invalid | alignment | noncanonical | overflow | physical | oom | exists | notMapped | permission | unsupported
  | busy | context | corrupt
  deriving DecidableEq, Repr

def pageSize : Nat := 4096
def windowBase : Nat := 0xffffff0000000000

/-! Page table entries. -/

def ptePresent : Nat := 0x1
def pteWrite : Nat := 0x2
def pteUser : Nat := 0x4
def pteAccess : Nat := 0x20
def pteDirty : Nat := 0x40
def pteHuge : Nat := 0x80
def pteNx : Nat := 0x8000000000000000
/-- `PTE_PCD | PTE_PWT`. -/
def pteUncached : Nat := 0x18
def pteFrame : Nat := 0x000ffffffffff000
def tableFlags : Nat := ptePresent ||| pteWrite ||| pteUser
/-- What a leaf may have beside its frame. -/
def leafFlags : Nat := tableFlags ||| pteAccess ||| pteDirty ||| pteNx ||| pteUncached

def pteHas (entry flag : Nat) : Bool := entry &&& flag != 0
def pteAddress (entry : Nat) : Nat := entry &&& pteFrame
/-- The bits of an entry outside a mask. -/
def pteBeyond (entry mask : Nat) : Nat := entry &&& (u64 - 1 - mask)

def pageIndex (va level : Nat) : Nat := va / 2 ^ (12 + 9 * level) % 512
def pageOf (va : Nat) : Nat := va - va % pageSize
def canonical (va : Nat) : Bool := va / 2 ^ 48 == if va.testBit 47 then 0xffff else 0

/-- The machine a walk reads: `allocated` is what `pmm_query` knows of a frame. -/
structure Machine where
  cpu : Cpu
  active : Bool
  ram : ByteMemory
  allocated : Nat → Bool
  limit : Nat

/-- A space handle; `bound` is the test of its identity field. -/
structure Space where
  root : Nat
  bound : Bool
  kernel : Bool

structure Mapping where
  physical : Nat
  write : Bool
  user : Bool
  execute : Bool
  accessed : Bool
  dirty : Bool
  uncached : Bool
  deriving DecidableEq

def context (m : Machine) (s : Space) : Except Result Unit :=
  if !m.cpu.foreground then .error .context
  else if !m.active then .error .notReady
  else if !s.bound || s.root == 0 then .error .invalid
  else .ok ()

def readEntry (m : Machine) (table index : Nat) : Nat := (m.ram.shift (table + 8 * index)).littleEndian 8

def child (m : Machine) (entry : Nat) : Except Result Nat :=
  if !pteHas entry ptePresent then .error .notMapped
  else if pteHas entry pteHuge then .error .unsupported
  else if pteBeyond entry (pteFrame ||| pteAccess) ≠ tableFlags then .error .corrupt
  else if pteAddress entry ≥ m.limit || !m.allocated (pteAddress entry) then .error .corrupt
  else .ok (pteAddress entry)

/-- From a table of some level down to the last table. -/
def walk (m : Machine) (va : Nat) : Nat → Nat → Except Result Nat
  | 0, table => .ok table
  | level + 1, table => do
    let next ← child m (readEntry m table (pageIndex va (level + 1)))
    walk m va level next

def leafMapping (m : Machine) (s : Space) (va entry : Nat) : Except Result Mapping :=
  let cache := entry &&& pteUncached
  if !pteHas entry ptePresent then .error .notMapped
  else if pteHas entry pteHuge then .error .unsupported
  else if pteBeyond entry (pteFrame ||| leafFlags) ≠ 0 then .error .unsupported
  else if cache != 0 && (cache != pteUncached || !s.kernel || pageIndex va 3 != 509 || !pteHas entry pteWrite ||
      !pteHas entry pteNx || pteHas entry pteUser) then .error .corrupt
  else if pteAddress entry ≥ m.limit then .error .corrupt
  else .ok ⟨pteAddress entry + va % pageSize, pteHas entry pteWrite, pteHas entry pteUser, !pteHas entry pteNx,
    pteHas entry pteAccess, pteHas entry pteDirty, cache != 0⟩

def vmQuery (m : Machine) (s : Space) (va : Nat) : Except Result Mapping := do
  context m s
  if !canonical va then throw .noncanonical
  if s.kernel && va - va % (2 * pageSize) == windowBase then throw .notMapped
  let table ← walk m va 3 s.root
  leafMapping m s va (readEntry m table (pageIndex va 0))

/-- A frame the kernel may touch, as a byte pointer into physical memory. -/
def vmFrameAccess (m : Machine) (frame : Nat) : Option Nat :=
  if m.active && m.cpu.foreground && frame % pageSize == 0 && m.allocated frame then some frame else none

end Rynor.Vm
