import Rynor.Lib.Alignment
import Rynor.Lib.Bitmap
import Rynor.Memory.Map

/-! The physical frame allocator of kernel/mm/pmm.c: a bitmap over the usable frames in the
order of their addresses, byte counters and a search cursor. -/

namespace Rynor.Pmm
open Alignment (isPowerOfTwo)
open Bitmap

inductive Result
  | ok | notReady | invalid | unavailable | notAllocated | outOfMemory | wrongContext | badMap | badLayout | noMetadata
  deriving DecidableEq, Repr

inductive FrameState
  | unavailable | reserved | free | allocated
  deriving DecidableEq, Repr

structure Statistics where
  describedBytes : Nat
  usableBytes : Nat
  reservedBytes : Nat
  freeBytes : Nat
  allocatedBytes : Nat
  firmwareUsableBytes : Nat
  metadataBase : Nat
  metadataBytes : Nat
  deriving DecidableEq

structure State where
  regions : List Region
  stats : Statistics
  bitmap : Bytes
  frameCount : Nat
  searchCursor : Nat
  ready : Bool

/-! The bootstrap ranges of the linker script. -/

def ownedRanges : List (Nat × Nat) :=
  [(0x1000, 0x4000), (0x4000, 0x5000), (0x5000, 0x6000), (0x7000, 0x7c00), (0x7c00, 0x7e00), (0x8000, 0x9000),
    (0x7c000, 0x80000)]

def kernelPhysBase : Nat := 0x800000
def kernelFileMax : Nat := 0x800000
def kernelMemMax : Nat := 0x1000000
def identityLimit : Nat := 0x200000
def lowReserved : Nat := 0x100000

/-- The two symbols that depend on what is linked. -/
structure Image where
  payloadEnd : Nat
  kernelEnd : Nat
  deriving DecidableEq

def Region.pages (r : Region) : Nat := (r.stop - r.base) / pageSize

/-- A usable region that meets the range: what is usable before it, what is taken, what is
usable after it. -/
def splitRegion (base stop : Nat) (kind : Kind) (r : Region) : List Region :=
  let low := max base r.base
  let high := min stop r.stop
  (if r.base < low then [⟨r.base, low, .usable⟩] else []) ++ ⟨low, high, kind⟩ ::
    (if high < r.stop then [⟨high, r.stop, .usable⟩] else [])

/-- Splits the usable regions that meet the range; `total` is the number of regions so far. -/
def reserveFrom (base stop : Nat) (kind : Kind) : (total : Nat) → List Region → Option (List Region)
  | _, [] => some []
  | total, r :: rest =>
    if r.kind ≠ .usable ∨ stop ≤ r.base ∨ base ≥ r.stop then (reserveFrom base stop kind total rest).map (r :: ·)
    else
      let pieces := splitRegion base stop kind r
      let extra := pieces.length - 1
      if total + extra > maxRegions then none
      else (reserveFrom base stop kind (total + extra) rest).map (pieces ++ ·)

def reserve (base stop : Nat) (kind : Kind) (regions : List Region) : Option (List Region) :=
  reserveFrom base stop kind regions.length regions

def originallyUsable : List Region → (base stop : Nat) → Bool
  | [], base, stop => decide (base ≥ stop)
  | r :: rest, base, stop =>
    if base ≥ stop then true
    else if r.stop ≤ base then originallyUsable rest base stop
    else if r.base > base ∨ r.kind ≠ .usable then false
    else originallyUsable rest r.stop stop

def sumBytes (wanted : Region → Bool) (regions : List Region) : Nat :=
  ((regions.filter wanted).map fun r => r.stop - r.base).sum

def isUsable (r : Region) : Bool := r.kind == .usable

def candidateFrames (regions : List Region) : Nat := ((regions.filter isUsable).map Region.pages).sum

def kernelRounded (image : Image) : Nat := pageDown ((image.kernelEnd + pageSize - 1) % u64)

def layoutValid (image : Image) (regions : List Region) : Bool :=
  ownedRanges.all (fun (base, stop) => decide (base < stop) && decide (stop ≤ lowReserved) &&
    originallyUsable regions base stop) &&
    decide (kernelPhysBase < image.kernelEnd) && decide (image.kernelEnd ≤ kernelRounded image) &&
    decide (image.kernelEnd - kernelPhysBase ≤ kernelMemMax) &&
      decide (kernelRounded image - kernelPhysBase ≤ kernelMemMax) &&
    decide (kernelPhysBase < image.payloadEnd) && decide (image.payloadEnd ≤ image.kernelEnd) &&
    decide (image.payloadEnd - kernelPhysBase ≤ kernelFileMax) &&
    originallyUsable regions kernelPhysBase (kernelRounded image)

/-- The first usable region whose identity-mapped part can hold the bitmap. -/
def metadataAddress (bytes : Nat) (regions : List Region) : Option Nat :=
  ((regions.filter isUsable).find? fun r =>
    decide (r.base < min r.stop identityLimit) && decide (bytes ≤ min r.stop identityLimit - r.base)).map Region.base

/-- The bytes of a bitmap for the frames of the regions, in whole pages. -/
def bitmapBytes (regions : List Region) : Nat := pageUp ((candidateFrames regions + 7) / 8)

/-- The bitmap takes its own place among the usable frames. -/
def placeMetadata (firmwareUsableBytes : Nat) (regions : List Region) : Except Result State :=
  let bytes := bitmapBytes regions
  if candidateFrames regions = 0 then .error .outOfMemory
  else if candidateFrames regions ≤ bytes / pageSize then .error .outOfMemory
  else
    match metadataAddress bytes regions with
    | none | some 0 => .error .noMetadata
    | some address =>
      match reserve address (address + bytes) .metadata regions with
      | none => .error .badMap
      | some regions =>
        let usableBytes := sumBytes isUsable regions
        .ok
          { regions
            stats :=
              { describedBytes := sumBytes (fun _ => true) regions, usableBytes
                reservedBytes := sumBytes (fun r => !isUsable r) regions, freeBytes := usableBytes, allocatedBytes := 0
                firmwareUsableBytes, metadataBase := address, metadataBytes := bytes }
            bitmap := fun _ => 0
            frameCount := usableBytes / pageSize
            searchCursor := 0
            ready := true }

/-- The initialisation, from the normalized map on. -/
def establish (image : Image) (normalized : List Region) : Except Result State :=
  if !layoutValid image normalized then .error .badLayout
  else
    match reserve 0 lowReserved .bootReserved normalized with
    | none => .error .badMap
    | some regions =>
      match reserve kernelPhysBase (kernelRounded image) .bootReserved regions with
      | none => .error .badMap
      | some regions => placeMetadata (sumBytes isUsable normalized) regions

def pmmInitialize (cpu : Cpu) (image : Image) (map : BootMemoryMap) (bits : Nat) (ready : Bool) : Except Result State :=
  if !cpu.foreground then .error .wrongContext
  else if ready then .error .invalid
  else
    match pmmNormalize map bits with
    | .error _ => .error .badMap
    | .ok normalized => establish image normalized

namespace State

def context (s : State) (cpu : Cpu) : Result :=
  if !cpu.foreground then .wrongContext else if s.ready then .ok else .notReady

/-- The state of the frame at an address and, for a usable one, its index. -/
def locateFrom (bitmap : Bytes) (physical : Nat) : (offset : Nat) → List Region → FrameState × Option Nat
  | _, [] => (.unavailable, none)
  | offset, r :: rest =>
    if r.base ≤ physical ∧ physical < r.stop then
      if r.kind ≠ .usable then (.reserved, none)
      else
        let index := offset + (physical - r.base) / pageSize
        (if bit bitmap index then .allocated else .free, some index)
    else locateFrom bitmap physical (if r.kind = .usable then offset + r.pages else offset) rest

def locate (s : State) (physical : Nat) : FrameState × Option Nat := locateFrom s.bitmap physical 0 s.regions

/-- The first index at or after `index` whose bit is clear, within `left` steps. -/
def skipSet (bitmap : Bytes) : (left index : Nat) → Nat
  | 0, index => index
  | left + 1, index => if bit bitmap index then skipSet bitmap left (index + 1) else index

/-- The address of a frame, from its index. -/
def frameAddress : List Region → (remaining : Nat) → Option Nat
  | [], _ => none
  | r :: rest, remaining =>
    if r.kind ≠ .usable then frameAddress rest remaining
    else if remaining ≥ r.pages then frameAddress rest (remaining - r.pages)
    else some (r.base + remaining * pageSize)

/-- The index that a single allocation settles on. -/
def findFrame (s : State) : Nat :=
  let index := skipSet s.bitmap (s.frameCount - s.searchCursor) s.searchCursor
  if index = s.frameCount then skipSet s.bitmap (min s.searchCursor s.frameCount) 0 else index

/-- The result, the frame written through `physical` and the state after the call. -/
def pmmAllocate (s : State) (cpu : Cpu) (physical : Bool) : Result × Option Nat × State :=
  if s.context cpu ≠ .ok then (s.context cpu, none, s)
  else if !physical then (.invalid, none, s)
  else if s.stats.freeBytes = 0 then (.outOfMemory, none, s)
  else if s.frameCount ≠ s.stats.usableBytes / pageSize then (.invalid, none, s)
  else
    let s := { s with searchCursor := min s.searchCursor s.frameCount }
    let index := s.findFrame
    if index ≥ s.frameCount ∨ bit s.bitmap index then (.outOfMemory, none, s)
    else
      match frameAddress s.regions index with
      | none => (.invalid, none, s)
      | some address =>
        (.ok, some address,
          { s with
            bitmap := setBit s.bitmap index
            searchCursor := index + 1
            stats.freeBytes := s.stats.freeBytes - pageSize
            stats.allocatedBytes := s.stats.allocatedBytes + pageSize })

/-- The candidates of one span: from `k` in steps up to `last`. -/
def scanSpan (clear : Nat → Bool) (step last : Nat) : (left k : Nat) → Option Nat
  | 0, _ => none
  | left + 1, k => if k ≤ last then if clear k then some k else scanSpan clear step last left (k + step) else none

/-- The frames of a region that end by the limit. -/
def spanOf (r : Region) (limitEnd : Nat) : Nat :=
  if limitEnd = 0 then r.pages else (min limitEnd r.stop - r.base) / pageSize

/-- The first frame of a region whose address is aligned. -/
def firstAligned (r : Region) (alignBytes : Nat) : Nat :=
  if alignBytes > pageSize ∧ r.base % alignBytes ≠ 0 then (alignBytes - r.base % alignBytes) / pageSize else 0

/-- The distance of aligned frames. -/
def alignStep (alignBytes : Nat) : Nat := if alignBytes ≤ pageSize then 1 else alignBytes / pageSize

def scanFrom (bitmap : Bytes) (frameCount n alignBytes limitEnd : Nat) : (offset : Nat) → List Region → Option Nat
  | _, [] => none
  | offset, r :: rest =>
    if r.kind ≠ .usable then scanFrom bitmap frameCount n alignBytes limitEnd offset rest
    else if r.stop ≤ r.base ∨ r.base % pageSize ≠ 0 ∨ r.stop % pageSize ≠ 0 then none
    else if r.pages = 0 ∨ offset > frameCount ∨ r.pages > frameCount - offset then none
    else if limitEnd ≠ 0 ∧ limitEnd ≤ r.base then
      scanFrom bitmap frameCount n alignBytes limitEnd (offset + r.pages) rest
    else
      let span := spanOf r limitEnd
      let found :=
        if span ≥ n then
          scanSpan (fun k => runClear bitmap (offset + k) n) (alignStep alignBytes) (span - n) (span - n + 1)
            (firstAligned r alignBytes)
        else none
      match found with
      | some k => some (offset + k)
      | none => scanFrom bitmap frameCount n alignBytes limitEnd (offset + r.pages) rest

def pmmScanRun (s : State) (n alignBytes limitEnd : Nat) : Option Nat :=
  if n = 0 ∨ !isPowerOfTwo alignBytes then none
  else if s.frameCount = 0 ∨ n > s.frameCount then none
  else scanFrom s.bitmap s.frameCount n alignBytes limitEnd 0 s.regions

def pmmAllocContiguous (s : State) (cpu : Cpu) (frames alignBytes limitEnd : Nat) (physical : Bool) :
    Result × Option Nat × State :=
  if s.context cpu ≠ .ok then (s.context cpu, none, s)
  else if !physical then (.invalid, none, s)
  else if frames = 0 ∨ !isPowerOfTwo alignBytes then (.invalid, none, s)
  else if s.frameCount ≠ s.stats.usableBytes / pageSize then (.invalid, none, s)
  else if frames > s.frameCount then (.outOfMemory, none, s)
  else
    match s.pmmScanRun frames alignBytes limitEnd with
    | none => (.outOfMemory, none, s)
    | some start =>
      match frameAddress s.regions start with
      | none => (.invalid, none, s)
      | some address =>
        -- The search cursor stays: the run may start past free frames.
        (.ok, some address,
          { s with
            bitmap := setRun s.bitmap start frames
            stats.freeBytes := s.stats.freeBytes - frames * pageSize
            stats.allocatedBytes := s.stats.allocatedBytes + frames * pageSize })

def pmmQuery (s : State) (cpu : Cpu) (physical : Nat) : Result × Option FrameState :=
  if s.context cpu ≠ .ok then (s.context cpu, none)
  else if physical % pageSize ≠ 0 then (.invalid, none)
  else (.ok, some (s.locate physical).1)

def pmmRelease (s : State) (cpu : Cpu) (physical : Nat) : Result × State :=
  if s.context cpu ≠ .ok then (s.context cpu, s)
  else if physical % pageSize ≠ 0 then (.invalid, s)
  else
    match s.locate physical with
    | (_, none) => (.unavailable, s)
    | (state, some index) =>
      if state ≠ .allocated then (.notAllocated, s)
      else
        (.ok,
          { s with
            bitmap := clearBit s.bitmap index
            searchCursor := if index < s.searchCursor then index else s.searchCursor
            stats.freeBytes := s.stats.freeBytes + pageSize
            stats.allocatedBytes := s.stats.allocatedBytes - pageSize })

/-- The tests on each region and on its predecessor. -/
def regionsOk : List Region → Bool
  | [] => true
  | [r] => decide (r.base < r.stop) && r.base % pageSize == 0 && r.stop % pageSize == 0
  | r :: next :: rest =>
    decide (r.base < r.stop) && r.base % pageSize == 0 && r.stop % pageSize == 0 && decide (r.stop ≤ next.base) &&
      regionsOk (next :: rest)

def pmmCheck (s : State) (cpu : Cpu) : Bool :=
  s.context cpu == .ok && decide (s.searchCursor ≤ s.frameCount) && decide (s.frameCount ≤ s.stats.metadataBytes * 8) &&
    regionsOk s.regions && (List.range s.frameCount).all (fun i => bit s.bitmap i || decide (s.searchCursor ≤ i)) &&
    sumBytes isUsable s.regions == s.stats.usableBytes && sumBytes (fun r => !isUsable r) s.regions ==
      s.stats.reservedBytes &&
    sumBytes isUsable s.regions + sumBytes (fun r => !isUsable r) s.regions == s.stats.describedBytes &&
    s.frameCount == sumBytes isUsable s.regions / pageSize &&
    s.stats.allocatedBytes == used s.bitmap s.frameCount * pageSize &&
    s.stats.freeBytes == (s.frameCount - used s.bitmap s.frameCount) * pageSize

end State

end Rynor.Pmm
