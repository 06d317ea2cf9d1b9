import Mathlib.Data.List.Nodup
import Mathlib.Data.List.Perm.Subperm
import Rynor.Proofs.PmmFrames

/-! The frame allocator over whole runs: its counters agree with its bitmap, every frame is
handed out at most once, and a refusal means that there is nothing to hand out. -/

namespace Rynor.Pmm
open Bitmap State List
variable {cpu : Cpu} {a index n : Nat}

/-- What the self-check of the allocator looks at. -/
structure Sound (s : State) : Prop where
  ready : s.ready = true
  wellFormed : WellFormed s.regions
  count : s.frameCount = (frames s.regions).length
  capacity : s.frameCount ≤ s.stats.metadataBytes * 8
  usableBytes : s.stats.usableBytes = sumBytes isUsable s.regions
  reservedBytes : s.stats.reservedBytes = sumBytes (fun r => !isUsable r) s.regions
  describedBytes : s.stats.describedBytes = sumBytes (fun _ => true) s.regions
  cursor : s.searchCursor ≤ s.frameCount
  taken : ∀ i < s.searchCursor, bit s.bitmap i = true
  allocatedBytes : s.stats.allocatedBytes = used s.bitmap s.frameCount * pageSize
  freeBytes : s.stats.freeBytes = (s.frameCount - used s.bitmap s.frameCount) * pageSize

variable {s : State} {regions : List Region}

/-! The counters of the regions. -/

lemma sumBytes_cons (wanted : Region → Bool) (r : Region) (rest : List Region) :
    sumBytes wanted (r :: rest) = (if wanted r then r.stop - r.base else 0) + sumBytes wanted rest := by
  unfold sumBytes
  by_cases counted : wanted r = true <;> simp [counted]

lemma sumBytes_partition (wanted : Region → Bool) (regions : List Region) :
    sumBytes wanted regions + sumBytes (fun r => !wanted r) regions = sumBytes (fun _ => true) regions := by
  induction regions with
  | nil => rfl
  | cons r rest ih =>
    simp only [sumBytes_cons]
    cases wanted r <;> simp <;> omega

lemma sumBytes_usable (wellFormed : WellFormed regions) :
    sumBytes isUsable regions = candidateFrames regions * pageSize := by
  induction regions with
  | nil => rfl
  | cons r rest ih =>
    have whole := (wellFormed.valid r mem_cons_self).pages_eq
    rw [sumBytes_cons, candidateFrames_cons, ih wellFormed.tail, Nat.add_mul]
    by_cases usable : r.kind = .usable
    · simp only [isUsable, usable, beq_self_eq_true, if_true]
      omega
    · simp [isUsable, usable]

lemma regionsOk_of_wellFormed (wellFormed : WellFormed regions) : regionsOk regions = true := by
  induction regions with
  | nil => rfl
  | cons r rest ih =>
    have valid := wellFormed.valid r mem_cons_self
    cases rest with
    | nil => simp [regionsOk, valid.nonempty, valid.base_aligned, valid.stop_aligned]
    | cons next rest =>
      have order := ((pairwise_cons.mp wellFormed.apart).1 next mem_cons_self).ordered
      simp [regionsOk, valid.nonempty, valid.base_aligned, valid.stop_aligned, order, ih wellFormed.tail]

lemma Sound.frames_count (sound : Sound s) : s.frameCount = s.stats.usableBytes / pageSize := by
  rw [sound.usableBytes, sumBytes_usable sound.wellFormed, Nat.mul_div_cancel _ (by decide), sound.count, frames_length]

lemma Sound.context (sound : Sound s) (foreground : cpu.foreground = true) : s.context cpu = .ok := by
  simp [State.context, foreground, sound.ready]

lemma Sound.check (sound : Sound s) (foreground : cpu.foreground = true) : s.pmmCheck cpu = true := by
  have bits : (List.range s.frameCount).all (fun i => bit s.bitmap i || decide (s.searchCursor ≤ i)) = true := by
    refine all_eq_true.mpr fun i _ => ?_
    by_cases before : i < s.searchCursor
    · rw [sound.taken i before, Bool.true_or]
    · rw [decide_eq_true (Nat.le_of_not_lt before), Bool.or_true]
  have count := sound.frames_count
  rw [sound.usableBytes] at count
  simp only [pmmCheck, sound.context foreground, sound.cursor, sound.capacity,
    regionsOk_of_wellFormed sound.wellFormed, bits,
    sound.usableBytes, sound.reservedBytes, sound.describedBytes, sumBytes_partition, ← count, sound.allocatedBytes,
      sound.freeBytes,
    decide_true, beq_self_eq_true, Bool.and_self]

/-! The ledger of what is handed out. -/

/-- The frames handed out are exactly those whose bit is set. -/
structure Ledger (s : State) (held : List Nat) : Prop where
  nodup : held.Nodup
  exact : ∀ a, a ∈ held ↔ ∃ index, (frames s.regions)[index]? = some a ∧ bit s.bitmap index = true

lemma Sound.index_unique (sound : Sound s) {i j : Nat} (first : (frames s.regions)[i]? = some a)
    (second : (frames s.regions)[j]? = some a) : i = j :=
  (getElem?_inj (List.getElem?_eq_some_iff.mp first).1 (frames_nodup sound.wellFormed)).mp (first.trans second.symm)

lemma Ledger.mem_iff {held : List Nat} (ledger : Ledger s held) (sound : Sound s)
    (found : (frames s.regions)[index]? = some a) : a ∈ held ↔ bit s.bitmap index = true := by
  rw [ledger.exact]
  constructor
  · rintro ⟨other, also, isSet⟩
    rwa [sound.index_unique found also]
  · exact fun isSet => ⟨index, found, isSet⟩

lemma Sound.index_lt (sound : Sound s) (found : (frames s.regions)[index]? = some a) : index < s.frameCount := by
  rw [sound.count]
  exact (List.getElem?_eq_some_iff.mp found).1

/-! Single frames. -/

lemma skipSet_spec (bitmap : Bytes) (left index : Nat) :
    index ≤ skipSet bitmap left index ∧ skipSet bitmap left index ≤ index + left ∧
      (∀ j, index ≤ j → j < skipSet bitmap left index → bit bitmap j = true) ∧
      (skipSet bitmap left index < index + left → bit bitmap (skipSet bitmap left index) = false) := by
  induction left generalizing index with
  | zero => exact ⟨Nat.le_refl _, Nat.le_refl _, fun j low high => by rw [skipSet] at high; omega, fun short => by
    rw [skipSet] at short; omega⟩
  | succ left ih =>
    rw [skipSet]
    split
    next isSet =>
      obtain ⟨low, high, before, clear⟩ := ih (index + 1)
      refine ⟨by omega, by omega, fun j from_ below => ?_, fun short => clear (by omega)⟩
      by_cases here : j = index
      · rw [here, isSet]
      · exact before j (by omega) below
    next clear => exact ⟨Nat.le_refl _, by omega, fun j low high => by omega, fun _ => by simpa using clear⟩

/-- The search settles on the first clear bit, if there is one. -/
lemma Sound.findFrame_spec (sound : Sound s) :
    (s.findFrame < s.frameCount ∧ bit s.bitmap s.findFrame = false ∧ ∀ j < s.findFrame, bit s.bitmap j = true) ∨
      ((s.findFrame ≥ s.frameCount ∨ bit s.bitmap s.findFrame = true) ∧ ∀ j < s.frameCount, bit s.bitmap j = true) := by
  have cursor := sound.cursor
  obtain ⟨low, high, before, clear⟩ := skipSet_spec s.bitmap (s.frameCount - s.searchCursor) s.searchCursor
  have settled : ∀ j < skipSet s.bitmap (s.frameCount - s.searchCursor) s.searchCursor, bit s.bitmap j = true := by
    intro j below
    by_cases early : j < s.searchCursor
    · exact sound.taken j early
    · exact before j (by omega) below
  simp only [findFrame]
  split
  next full =>
    have all : ∀ j < s.frameCount, bit s.bitmap j = true := fun j below => settled j (by omega)
    refine .inr ⟨?_, all⟩
    by_cases inside : skipSet s.bitmap (min s.searchCursor s.frameCount) 0 < s.frameCount
    · exact .inr (all _ inside)
    · exact .inl (Nat.le_of_not_lt inside)
  next found => exact .inl ⟨by omega, clear (by omega), settled⟩

/-- The same regions with other books. -/
def State.rebook (s : State) (bitmap : Bytes) (cursor free allocated : Nat) : State :=
  { s with bitmap, searchCursor := cursor, stats.freeBytes := free, stats.allocatedBytes := allocated }

/-- Books whose counters follow from the bitmap. -/
def State.booked (s : State) (bitmap : Bytes) (cursor : Nat) : State :=
  s.rebook bitmap cursor ((s.frameCount - used bitmap s.frameCount) * pageSize) (used bitmap s.frameCount * pageSize)

section
variable {bitmap : Bytes} {cursor free allocated : Nat}

lemma Sound.rebook (sound : Sound s) (inside : cursor ≤ s.frameCount) (taken : ∀ i < cursor, bit bitmap i = true)
    (allocatedBytes : allocated = used bitmap s.frameCount * pageSize)
    (freeBytes : free = (s.frameCount - used bitmap s.frameCount) * pageSize) :
    Sound (s.rebook bitmap cursor free allocated) :=
  ⟨sound.ready, sound.wellFormed, sound.count, sound.capacity, sound.usableBytes, sound.reservedBytes,
    sound.describedBytes, inside,
    taken, allocatedBytes, freeBytes⟩

lemma rebook_eq_booked (freeBytes : free = (s.frameCount - used bitmap s.frameCount) * pageSize)
    (allocatedBytes : allocated = used bitmap s.frameCount * pageSize) :
    s.rebook bitmap cursor free allocated = s.booked bitmap cursor := by
  rw [freeBytes, allocatedBytes, State.booked]

lemma Sound.booked (sound : Sound s) (inside : cursor ≤ s.frameCount) (taken : ∀ i < cursor, bit bitmap i = true) :
    Sound (s.booked bitmap cursor) :=
  sound.rebook inside taken rfl rfl

lemma rebook_regions : (s.rebook bitmap cursor free allocated).regions = s.regions := rfl

lemma rebook_bitmap : (s.rebook bitmap cursor free allocated).bitmap = bitmap := rfl

@[simp] lemma booked_regions : (s.booked bitmap cursor).regions = s.regions := rebook_regions

@[simp] lemma booked_bitmap : (s.booked bitmap cursor).bitmap = bitmap := rebook_bitmap

end

lemma Sound.full_of_freeBytes (sound : Sound s) (none : s.stats.freeBytes = 0) :
    ∀ j < s.frameCount, bit s.bitmap j = true := by
  have free := sound.freeBytes
  have bound := used_le s.bitmap s.frameCount
  rw [none] at free
  refine used_eq_size.mp ?_
  unfold pageSize at free
  omega

/-- What a call for one frame can come to. -/
inductive Allocates (s : State) (cpu : Cpu) (physical : Bool) : Result × Option Nat × State → Prop
  | misuse (result : Result) (failed : result ≠ .ok) (reason : cpu.foreground = false ∨ physical = false) :
      Allocates s cpu physical (result, none, s)
  | exhausted (full : ∀ j < s.frameCount, bit s.bitmap j = true) : Allocates s cpu physical (.outOfMemory, none, s)
  | granted (index address : Nat) (found : (frames s.regions)[index]? = some address)
    (clear : bit s.bitmap index = false)
      (first : ∀ j < index, bit s.bitmap j = true) :
      Allocates s cpu physical (.ok, some address, s.booked (setBit s.bitmap index) (index + 1))

lemma Sound.booked_run (sound : Sound s) {start} (cursor : Nat) (inside : start + n ≤ s.frameCount)
    (clear : runClear s.bitmap start n = true) :
    s.rebook (setRun s.bitmap start n) cursor (s.stats.freeBytes - n * pageSize)
    (s.stats.allocatedBytes + n * pageSize) =
      s.booked (setRun s.bitmap start n) cursor := by
  refine rebook_eq_booked ?_ ?_ <;> rw [used_setRun inside clear]
  · rw [sound.freeBytes, ← Nat.sub_sub, Nat.sub_mul _ n]
  · rw [sound.allocatedBytes, Nat.add_mul]

lemma Sound.refused (sound : Sound s) (refused : s.context cpu ≠ .ok) : cpu.foreground = false := by
  by_contra foreground
  exact refused (sound.context (by simpa using foreground))

lemma Sound.pmmAllocate_allocates (sound : Sound s) (cpu : Cpu) (physical : Bool) :
    Allocates s cpu physical (s.pmmAllocate cpu physical) := by
  have same : { s with searchCursor := min s.searchCursor s.frameCount } = s := by rw [Nat.min_eq_left sound.cursor]
  unfold pmmAllocate
  split
  next refused => exact .misuse _ refused (.inl (sound.refused refused))
  split
  next null => exact .misuse _ (by decide) (.inr (by simpa using null))
  split
  next none => exact .exhausted (sound.full_of_freeBytes none)
  rw [if_neg (not_not.mpr sound.frames_count), same]
  dsimp only
  rcases sound.findFrame_spec with ⟨inside, clear, first⟩ | ⟨beyond, full⟩
  · have found := getElem?_eq_getElem (sound.count ▸ inside)
    generalize s.findFrame = index at *
    rw [if_neg (by simp [clear, inside]), frameAddress_eq, found]
    have granted : Allocates s cpu physical _ := .granted index _ found clear first
    have books := sound.booked_run (n := 1) (index + 1) inside (by simp [runClear, clear])
    rw [one_mul, setRun_one] at books
    rwa [← books] at granted
  · rw [if_pos beyond]
    exact .exhausted full

/-! Runs. -/

/-- What a call for a run can come to. -/
inductive AllocatesRun (s : State) (cpu : Cpu) (n alignBytes limitEnd : Nat) (physical : Bool) :
    Result × Option Nat × State → Prop
  | misuse (result : Result) (failed : result ≠ .ok)
      (reason : cpu.foreground = false ∨ physical = false ∨ n = 0 ∨ Alignment.isPowerOfTwo alignBytes = false) :
      AllocatesRun s cpu n alignBytes limitEnd physical (result, none, s)
  | exhausted (missing : ∀ address, ¬FreeRun s.bitmap 0 s.regions n alignBytes limitEnd address) :
      AllocatesRun s cpu n alignBytes limitEnd physical (.outOfMemory, none, s)
  | granted (start address : Nat) (positive : 0 < n) (clear : runClear s.bitmap start n = true)
      (run : ∀ j < n, (frames s.regions)[start + j]? = some (address + j * pageSize))
        (aligned : address % alignBytes = 0)
      (below : limitEnd = 0 ∨ address + n * pageSize ≤ limitEnd)
      (first : ∀ other, FreeRun s.bitmap 0 s.regions n alignBytes limitEnd other → address ≤ other) :
      AllocatesRun s cpu n alignBytes limitEnd physical (.ok, some address,
        s.booked (setRun s.bitmap start n) s.searchCursor)

/-- The frames of a run. -/
def runFrames (address n : Nat) : List Nat := (List.range n).map fun j => address + j * pageSize

lemma runFrames_nodup (address n : Nat) : (runFrames address n).Nodup := by
  refine List.Nodup.map (fun i j same => ?_) nodup_range
  unfold pageSize at same
  omega

lemma Sound.run_fits (sound : Sound s) {alignBytes limitEnd address}
    (run : FreeRun s.bitmap 0 s.regions n alignBytes limitEnd address) : n ≤ s.frameCount := by
  have within : runFrames address n ⊆ frames s.regions := by
    intro a member
    obtain ⟨j, short, rfl⟩ := mem_map.mp member
    obtain ⟨index, found, -⟩ := run.free j (mem_range.mp short)
    exact mem_of_getElem? found
  have bound := ((runFrames_nodup address n).subperm within).length_le
  rwa [runFrames, length_map, length_range, ← sound.count] at bound

lemma Sound.pmmAllocContiguous_allocates (sound : Sound s) (cpu : Cpu) (n alignBytes limitEnd : Nat) (physical : Bool) :
    AllocatesRun s cpu n alignBytes limitEnd physical (s.pmmAllocContiguous cpu n alignBytes limitEnd physical) := by
  unfold pmmAllocContiguous
  split
  next refused => exact .misuse _ refused (.inl (sound.refused refused))
  split
  next null => exact .misuse _ (by decide) (.inr (.inl (by simpa using null)))
  split
  next bad => exact .misuse _ (by decide) (.inr (.inr (by simpa using bad)))
  rename_i good
  simp only [not_or, Bool.not_eq_true', Bool.not_eq_false] at good
  have positive : 0 < n := Nat.pos_of_ne_zero good.1
  rw [if_neg (not_not.mpr sound.frames_count)]
  split
  next many => exact .exhausted fun _ run => absurd (sound.run_fits run) (Nat.not_le.mpr many)
  rename_i fits
  have scanned : s.pmmScanRun n alignBytes limitEnd =
    scanFrom s.bitmap s.frameCount n alignBytes limitEnd 0 s.regions := by
    rw [pmmScanRun, if_neg (by simp [good.1, good.2]), if_neg (by omega)]
  have all : 0 + candidateFrames s.regions ≤ s.frameCount := by
    simp only [sound.count, frames_length, Nat.zero_add, Nat.le_refl]
  rw [scanned]
  split
  next missed =>
    refine .exhausted fun _ run => ?_
    obtain ⟨_, _, ran, -⟩ := scanFrom_complete sound.wellFormed good.2 positive all run
    cases missed.symm.trans ran
  rename_i start found
  obtain ⟨index, address, same, clear, run, aligned, below⟩ := scanFrom_some sound.wellFormed good.2 found
  rw [Nat.zero_add] at same
  subst same
  have first := run 0 positive
  rw [Nat.add_zero, Nat.zero_mul, Nat.add_zero] at first
  have inside : start + n ≤ s.frameCount := by
    have last := sound.index_lt (run (n - 1) (by omega))
    omega
  have lowest : ∀ other, FreeRun s.bitmap 0 s.regions n alignBytes limitEnd other → address ≤ other := by
    intro other free
    obtain ⟨index, earliest, ran, place, before⟩ := scanFrom_complete sound.wellFormed good.2 positive all free
    cases (Nat.zero_add index ▸ found.symm.trans ran)
    cases first.symm.trans place
    exact before
  rw [frameAddress_eq, first]
  have granted : AllocatesRun s cpu n alignBytes limitEnd physical _ :=
    .granted start address positive clear run aligned below lowest
  rwa [← sound.booked_run _ inside clear] at granted

/-! Releases. -/

/-- What a release can come to. -/
inductive Releases (s : State) (cpu : Cpu) (physical : Nat) : Result × State → Prop
  | misuse (result : Result) (failed : result ≠ .ok) (reason : cpu.foreground = false) :
  Releases s cpu physical (result, s)
  | notHeld (result : Result) (failed : result ≠ .ok)
      (free : ∀ index, (frames s.regions)[index]? = some physical → bit s.bitmap index = false) :
        Releases s cpu physical (result, s)
  | released (index : Nat) (found : (frames s.regions)[index]? = some physical) (taken : bit s.bitmap index = true) :
      Releases s cpu physical (.ok, s.booked (clearBit s.bitmap index) (if index < s.searchCursor then index
        else s.searchCursor))

lemma Sound.booked_back (sound : Sound s) (cursor : Nat) (inside : index < s.frameCount)
    (taken : bit s.bitmap index = true) :
    s.rebook (clearBit s.bitmap index) cursor (s.stats.freeBytes + pageSize) (s.stats.allocatedBytes - pageSize) =
      s.booked (clearBit s.bitmap index) cursor := by
  have bound := used_le s.bitmap s.frameCount
  have less := used_clearBit inside taken
  refine rebook_eq_booked ?_ ?_
  · rw [sound.freeBytes, ← less, ← Nat.succ_mul]
    congr 1
    omega
  · rw [sound.allocatedBytes, ← less, Nat.succ_mul, Nat.add_sub_cancel]

lemma Sound.pmmRelease_releases (sound : Sound s) (cpu : Cpu) (physical : Nat) :
    Releases s cpu physical (s.pmmRelease cpu physical) := by
  unfold pmmRelease
  split
  next refused => exact .misuse _ refused (sound.refused refused)
  split
  next unaligned =>
    refine .notHeld _ (by decide) fun index found => ?_
    obtain ⟨_, -, -, -, -, aligned⟩ := (mem_frames sound.wellFormed).mp (mem_of_getElem? found)
    exact absurd aligned unaligned
  rename_i aligned
  rw [not_not] at aligned
  rcases locateFrom_spec sound.wellFormed s.bitmap aligned 0 with ⟨index, found, located⟩ | ⟨missing, located, -⟩
  · rw [zero_add] at located
    rw [locate, located]
    dsimp only
    by_cases taken : bit s.bitmap index = true
    · rw [if_pos taken, if_neg (by decide)]
      have released : Releases s cpu physical _ := .released index found taken
      rwa [← sound.booked_back _ (sound.index_lt found) taken] at released
    rw [if_neg taken, if_pos (by decide)]
    refine .notHeld _ (by decide) fun other also => ?_
    rw [sound.index_unique also found]
    exact Bool.eq_false_iff.mpr taken
  have state : ∃ status, s.locate physical = (status, none) := ⟨_, Prod.ext rfl located⟩
  obtain ⟨status, same⟩ := state
  rw [same]
  exact .notHeld _ (by decide) fun index found => absurd (mem_of_getElem? found) missing

end Rynor.Pmm
