import Rynor.Memory.Pmm
import Rynor.Memory.Vm

/-! The kernel heap of kernel/mm/heap.c: one arena of blocks in the order of their addresses,
each with the same tag at its two ends. -/

namespace Rynor.Heap
open ByteMemory
open Alignment (isPowerOfTwo)

def headerBytes : Nat := 16
def footerBytes : Nat := 16
def minBytes : Nat := 48
def granule : Nat := 16
def magic : Nat := 0x524e484541504f42
def freeMagic : Nat := 0x524e484541504f43
def pageSize : Nat := 4096
def alignMin : Nat := 8
def alignMax : Nat := 4096
def arenaBytes : Nat := 65536
def arenaPages : Nat := arenaBytes / pageSize
def heapBase : Nat := 0xffffc00000000000
def heapEnd : Nat := heapBase + arenaBytes

inductive Result
  | ok | notReady | invalid | alignment | overflow | outOfMemory | corrupt | busy | context | vmError | mappingConflict
  deriving DecidableEq, Repr

/-- `struct heap_block`. -/
structure Tag where
  size : Nat
  info : Nat
  deriving DecidableEq

structure State where
  memory : ByteMemory
  mapped : Nat
  used : Nat
  usedBlocks : Nat
  freeBlocks : Nat
  ready : Bool

/-- The tag at an address. -/
def hb (memory : ByteMemory) (address : Nat) : Tag :=
  ⟨littleEndian (memory.shift address) 8, littleEndian (memory.shift (address + 8)) 8⟩

def putTag (memory : ByteMemory) (address : Nat) (tag : Tag) : ByteMemory :=
  (memory.overlay address 8 (ofNat tag.size)).overlay (address + 8) 8 (ofNat tag.info)

def blockPayload (address : Nat) : Nat := address + headerBytes

def blockTag (size : Nat) (free : Bool) : Tag := ⟨size, if free then freeMagic else magic⟩

def publish (memory : ByteMemory) (address size : Nat) (free : Bool) : ByteMemory :=
  putTag (putTag memory address (blockTag size free)) (address + size - footerBytes) (blockTag size free)

/-- A walk over the blocks takes at most this many steps. -/
def maxSteps : Nat := arenaBytes / minBytes + 1

/-- What the check counts on its way. -/
structure Tally where
  used : Nat
  allocated : Nat
  freeCount : Nat
  previousFree : Bool
  deriving DecidableEq

def checkFrom (memory : ByteMemory) : (steps cursor : Nat) → Tally → Option (Nat × Tally)
  | 0, _, _ => none
  | steps + 1, cursor, tally =>
    if cursor < heapEnd then
      if heapEnd - cursor < minBytes then none
      else
        let tag := hb memory cursor
        if tag.size < minBytes ∨ tag.size % granule ≠ 0 ∨ tag.size > heapEnd - cursor ∨
          (tag.info ≠ magic ∧ tag.info ≠ freeMagic) then none
        else if tag.size ≠ (hb memory (cursor + tag.size - footerBytes)).size ∨
          tag.info ≠ (hb memory (cursor + tag.size - footerBytes)).info
        then none
        else if tag.info = freeMagic then
          if tally.previousFree then none
          else checkFrom memory steps (cursor +
            tag.size) { tally with freeCount := tally.freeCount + 1, previousFree := true }
        else
          checkFrom memory steps (cursor + tag.size)
            { tally with used := tally.used + tag.size, allocated := tally.allocated + 1, previousFree := false }
    else some (cursor, tally)

def heapCheck (cpu : Cpu) (s : State) : Bool :=
  if !cpu.foreground || !s.ready then false
  else
    match checkFrom s.memory maxSteps heapBase ⟨0, 0, 0, false⟩ with
    | none => false
    | some (cursor, tally) =>
      cursor == heapEnd && tally.used == s.used && tally.allocated == s.usedBlocks &&
        tally.freeCount == s.freeBlocks && s.mapped == arenaBytes

/-! Initialisation. -/

/-- What the page and frame managers answer for each page of the arena. -/
structure Backing where
  space : Bool
  query : Nat → Vm.Result
  allocate : Nat → Pmm.Result
  map : Nat → Vm.Result
  release : Nat → Bool
  unmap : Nat → Bool

/-- Maps the pages from `page` on: the result, and how many are mapped. -/
def mapPages (backing : Backing) : (left page : Nat) → Except String (Result × Nat)
  | 0, page => .ok (.ok, page)
  | left + 1, page =>
    match backing.allocate page with
    | .ok =>
      match backing.map page with
      | .ok => mapPages backing left (page + 1)
      | failure => if backing.release page then .ok (if failure = .oom then .outOfMemory else .vmError, page)
        else .error "halt"
    | .outOfMemory => .ok (.outOfMemory, page)
    | _ => .ok (.corrupt, page)

def rollBack (backing : Backing) : (mapped : Nat) → Except String Unit
  | 0 => .ok ()
  | mapped + 1 => if backing.unmap mapped then rollBack backing mapped else .error "initialization_rollback"

def pagesFree (backing : Backing) : (left page : Nat) → Result
  | 0, _ => .ok
  | left + 1, page =>
    match backing.query page with
    | .ok => .mappingConflict
    | .notMapped => pagesFree backing left (page + 1)
    | _ => .vmError

def heapInitialize (cpu : Cpu) (backing : Backing) (s : State) : Except String (Result × State) :=
  if !cpu.foreground then .ok (.context, s)
  else if s.ready then .ok (.busy, s)
  else if !backing.space then .ok (.notReady, s)
  else if pagesFree backing arenaPages 0 ≠ .ok then .ok (pagesFree backing arenaPages 0, s)
  else
    match mapPages backing arenaPages 0 with
    | .error why => .error why
    | .ok (result, mapped) =>
      if result ≠ .ok then
        match rollBack backing mapped with
        | .error why => .error why
        | .ok () => .ok (result, s)
      else
        .ok (.ok, ⟨publish s.memory heapBase arenaBytes true, arenaBytes, 0, 0, 1, true⟩)

/-! Allocation. -/

/-- `gap`, raised to room for a block. -/
def raiseGap (align : Nat) : (steps gap : Nat) → Nat
  | 0, gap => gap
  | steps + 1, gap => if gap ≠ 0 ∧ gap < minBytes then raiseGap align steps (gap + align) else gap

/-- The bytes in front of the first block in a free one at `cursor` whose payload is aligned. -/
def leadGap (align cursor : Nat) : Nat := raiseGap align minBytes ((align - blockPayload cursor % align) % align)

def neededBytes (size : Nat) : Nat := (size + granule - 1) / granule * granule + headerBytes + footerBytes

/-- The first free block that takes the request, and its size. -/
def findBlock (memory : ByteMemory) (align needed : Nat) : (steps cursor : Nat) → Option (Nat × Nat)
  | 0, _ => none
  | steps + 1, cursor =>
    if cursor < heapEnd then
      let tag := hb memory cursor
      let gap := leadGap align cursor
      if tag.info ≠ freeMagic ∨ gap > tag.size ∨ needed > tag.size - gap then
        findBlock memory align needed steps (cursor + tag.size)
      else some (cursor, tag.size)
    else none

/-- The result, the pointer written through `out` and the state after the call. -/
def heapAlloc (cpu : Cpu) (size align : Nat) (out : Bool) (s : State) : Result × Option Nat × State :=
  if !cpu.foreground then (.context, none, s)
  else if !s.ready then (.notReady, none, s)
  else if !out then (.invalid, none, s)
  else if size = 0 ∨ size > u64 - 1 - (headerBytes + footerBytes + granule - 1) then (.overflow, none, s)
  else if align < alignMin ∨ align > alignMax ∨ !isPowerOfTwo align then (.alignment, none, s)
  else if !heapCheck cpu s then (.corrupt, none, s)
  else if neededBytes size > arenaBytes then (.outOfMemory, none, s)
  else
    match findBlock s.memory align (neededBytes size) maxSteps heapBase with
    | none => (.outOfMemory, none, s)
    | some (cursor, total) =>
      let gap := leadGap align cursor
      let rest := total - gap - neededBytes size
      let used := if rest < minBytes then neededBytes size + rest else neededBytes size
      let tail := if rest < minBytes then 0 else rest
      let chosen := cursor + gap
      let memory := if gap ≠ 0 then publish s.memory cursor gap true else s.memory
      let memory := publish memory chosen used false
      let memory := if tail ≠ 0 then publish memory (chosen + used) tail true else memory
      (.ok, some (blockPayload chosen),
        { s with
          memory
          freeBlocks := s.freeBlocks - 1 + (if gap ≠ 0 then 1 else 0) + (if tail ≠ 0 then 1 else 0)
          used := s.used + used
          usedBlocks := s.usedBlocks + 1 })

/-! Release. -/

/-- Walks to the first block at or after the target: the cursor and the block before it. -/
def seek (memory : ByteMemory) (target : Nat) : (steps cursor previous : Nat) → Nat × Nat
  | 0, cursor, previous => (cursor, previous)
  | steps + 1, cursor, previous =>
    if cursor < target then seek memory target steps (cursor + (hb memory cursor).size) cursor else (cursor, previous)

/-- The bytes of the free block at `next`, and whether there is one. -/
def freeNext (memory : ByteMemory) (next : Nat) : Nat × Nat :=
  if next < heapEnd ∧ (hb memory next).info = freeMagic then ((hb memory next).size, 1) else (0, 0)

def freePrevious (memory : ByteMemory) (previous : Nat) : Nat × Nat :=
  if previous ≠ 0 ∧ (hb memory previous).info = freeMagic then ((hb memory previous).size, 1) else (0, 0)

def heapFree (cpu : Cpu) (pointer : Nat) (s : State) : Result × State :=
  if !cpu.foreground then (.context, s)
  else if !s.ready then (.notReady, s)
  else if pointer < heapBase + headerBytes ∨ pointer ≥ heapEnd ∨ pointer % granule ≠ 0 then (.invalid, s)
  else if !heapCheck cpu s then (.corrupt, s)
  else
    let target := pointer - headerBytes
    let (cursor, previous) := seek s.memory target maxSteps heapBase 0
    if cursor ≠ target then (.invalid, s)
    else if (hb s.memory cursor).info ≠ magic then (.corrupt, s)
    else
      let released := (hb s.memory cursor).size
      let (after, oneAfter) := freeNext s.memory (cursor + released)
      let (before, oneBefore) := freePrevious s.memory previous
      (.ok,
        { s with
          memory := publish s.memory (if oneBefore = 1 then previous else cursor) (released + after + before) true
          freeBlocks := s.freeBlocks - oneAfter - oneBefore + 1
          usedBlocks := s.usedBlocks - 1
          used := s.used - released })

end Rynor.Heap
