import Rynor.Core.Machine

/-! The firmware memory map of kernel/mm/map.c: validation and the boundary sweep that turns
overlapping entries into sorted disjoint regions. -/

namespace Rynor.Pmm

def pageSize : Nat := 4096
def bootMapMagic : Nat := 0x50414d52
def bootMapCapacity : Nat := 64
def maxRegions : Nat := bootMapCapacity * 6 + 8

def pageDown (address : Nat) : Nat := address / pageSize * pageSize
def pageUp (address : Nat) : Nat := pageDown (address + pageSize - 1)

inductive Kind
  | hole | usable | reserved | acpiReclaim | acpiNvs | bad | persistent | bootReserved | metadata
  deriving DecidableEq, Repr

/-- The bytes from `base` up to `stop`, exclusive. -/
structure Region where
  base : Nat
  stop : Nat
  kind : Kind
  deriving DecidableEq, Repr

structure MapEntry where
  base : Nat
  length : Nat
  type : Nat
  attributes : Nat
  returnedSize : Nat
  reserved : Nat
  deriving DecidableEq

structure MapHeader where
  magic : Nat
  version : Nat
  count : Nat
  capacity : Nat
  stride : Nat
  status : Nat
  bytes : Nat
  reserved : Nat
  deriving DecidableEq

structure BootMemoryMap where
  header : MapHeader
  entries : Nat → MapEntry

/-- Restrictive claims win over usable and reclaimable ones. -/
def priority : Kind → Nat
  | .usable => 1
  | .acpiReclaim => 2
  | .persistent => 3
  | .acpiNvs => 4
  | .bad => 6
  | _ => 5

def entryKind (entry : MapEntry) : Kind :=
  if entry.returnedSize = 24 ∧ entry.attributes / 2 ≠ 0 then .reserved
  else
    match entry.type with
    | 1 => .usable
    | 3 => .acpiReclaim
    | 4 => .acpiNvs
    | 5 => .bad
    | 7 => .persistent
    | _ => .reserved

/-- The candidate regions of one entry: a usable entry is shrunk to whole pages and its
fringes are reserved, any other one is widened to whole pages. -/
def entryCandidates (limit : Nat) (entry : MapEntry) : Except String (List Region) :=
  if (entry.returnedSize ≠ 20 ∧ entry.returnedSize ≠ 24) ∨ entry.reserved ≠ 0 then .error "invalid_entry_size"
  else if entry.returnedSize = 24 ∧ entry.attributes % 2 = 0 then .ok []
  else if entry.length = 0 then .ok []
  else if entry.base ≥ limit ∨ entry.length > limit - entry.base then .error "invalid_physical_range"
  else
    let stop := entry.base + entry.length
    let low := pageDown entry.base
    let high := pageUp stop
    if entryKind entry ≠ .usable then .ok [⟨low, high, entryKind entry⟩]
    else
      let start := pageUp entry.base
      let finish := pageDown stop
      if start ≥ finish then .ok [⟨low, high, .reserved⟩]
      else .ok ((if low < start then [⟨low, start, .reserved⟩] else []) ++ [⟨start, finish, .usable⟩] ++
        (if finish < high then [⟨finish, high, .reserved⟩] else []))

def candidates (limit : Nat) : List MapEntry → Except String (List Region)
  | [] => .ok []
  | entry :: rest => do
    let first ← entryCandidates limit entry
    return first ++ (← candidates limit rest)

/-- The next boundary after the cursor. -/
def nextBoundary (candidates : List Region) (cursor limit : Nat) : Nat :=
  candidates.foldl (fun next r =>
    let next := if r.base > cursor ∧ r.base < next then r.base else next
    if r.stop > cursor ∧ r.stop < next then r.stop else next) limit

/-- The most restrictive candidate over the cursor, with its rank. -/
def claim (candidates : List Region) (cursor : Nat) : Kind × Nat :=
  candidates.foldl (fun (kind, rank) r =>
    if r.base ≤ cursor ∧ cursor < r.stop ∧ priority r.kind > rank then (r.kind, priority r.kind)
      else (kind, rank)) (.hole, 0)

/-- One interval of the sweep; `regions` has the last region first. -/
def emit (regions : List Region) (cursor next : Nat) (kind : Kind) : Except String (List Region) :=
  if kind = .hole then .ok regions
  else
    match regions with
    | [] => .ok [⟨cursor, next, kind⟩]
    | last :: earlier =>
      if last.stop = cursor ∧ last.kind = kind then .ok ({ last with stop := next } :: earlier)
      else if regions.length ≥ maxRegions then .error "normalized_map_capacity"
      else .ok (⟨cursor, next, kind⟩ :: regions)

/-- The sweep from the cursor to the limit. The boundary always moves on, so that as many
turns as there are addresses left are enough. -/
def sweep (candidates : List Region) (limit : Nat) : (turns cursor : Nat) → List Region → Except String (List Region)
  | 0, _, regions => .ok regions
  | turns + 1, cursor, regions =>
    if cursor < limit then do
      let next := nextBoundary candidates cursor limit
      let regions ← emit regions cursor next (claim candidates cursor).1
      sweep candidates limit turns next regions
    else .ok regions

def headerValid (header : MapHeader) : Bool :=
  header.magic == bootMapMagic && header.version == 1 && header.status == 1 && header.capacity == bootMapCapacity &&
    header.count != 0 && decide (header.count ≤ bootMapCapacity) && header.stride == 32 && header.bytes == 4096 &&
      header.reserved == 0

def lowestBase (candidates : List Region) (limit : Nat) : Nat :=
  candidates.foldl (fun cursor r => if r.base < cursor then r.base else cursor) limit

def pmmNormalize (map : BootMemoryMap) (bits : Nat) : Except String (List Region) :=
  if bits < 32 ∨ bits > 52 then .error "physical_address_width"
  else if !headerValid map.header then .error "invalid_handoff_header"
  else
    let limit := 2 ^ bits
    match candidates limit ((List.range map.header.count).map map.entries) with
    | .error why => .error why
    | .ok [] => .error "empty_memory_map"
    | .ok found => (sweep found limit (limit - lowestBase found limit) (lowestBase found limit) []).map List.reverse

end Rynor.Pmm
