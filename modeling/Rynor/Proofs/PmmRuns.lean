import Mathlib.Order.Bounds.Basic
import Rynor.Proofs.PmmAllocator

/-! Whole runs of the frame allocator, from the boot memory map on. -/

namespace Rynor.Pmm
open Bitmap State List
variable {book : Book} {a : Nat}

variable {s : State} {image : Image} {normalized regions : List Region} {address alignBytes limitEnd : Nat}

/-! The initialisation. -/

/-- A fresh allocator: its usable regions are pieces of usable regions of the map, away from
the low megabyte, the kernel and the bitmap. -/
structure Established (image : Image) (normalized : List Region) (s : State) : Prop where
  sound : Sound s
  empty : ∀ i, bit s.bitmap i = false
  pieces : ∀ r ∈ s.regions, ∃ whole ∈ normalized, Within r whole
  low : ∀ r ∈ s.regions, r.kind = .usable → lowReserved ≤ r.base
  kernel : ∀ r ∈ s.regions, r.kind = .usable → r.stop ≤ kernelPhysBase ∨ kernelRounded image ≤ r.base
  metadata : ∀ r ∈ s.regions, r.kind = .usable → r.stop ≤ s.stats.metadataBase ∨
    s.stats.metadataBase + s.stats.metadataBytes ≤ r.base

lemma pageDown_aligned (address : Nat) : pageDown address % pageSize = 0 := Nat.mul_mod_left _ _

lemma bitmapBytes_enough (regions : List Region) : candidateFrames regions ≤ bitmapBytes regions * 8 := by
  unfold bitmapBytes pageUp pageDown pageSize
  omega

lemma bit_zero (i : Nat) : bit (fun _ => 0) i = false := by simp [bit_eq]

lemma used_zero (size : Nat) : used (fun _ => 0) size = 0 := countP_eq_zero.mpr fun i _ => by rw [bit_zero i]; decide

lemma placeMetadata_sound (wellFormed : WellFormed regions) (made : placeMetadata firmware regions = .ok s) :
    Sound s ∧ (∀ i, bit s.bitmap i = false) ∧ Reserved s.stats.metadataBase
    (s.stats.metadataBase + s.stats.metadataBytes) regions s.regions := by
  unfold placeMetadata at made
  dsimp only at made
  split at made
  · cases made
  rename_i some_
  split at made
  · cases made
  split at made
  · cases made
  · cases made
  rename_i address placed
  split at made
  · cases made
  rename_i after ran
  obtain ⟨home, picked, rfl⟩ := Option.map_eq_some_iff.mp placed
  have member := (mem_filter.mp (mem_of_find?_eq_some picked)).1
  have baseAligned := (wellFormed.valid home member).base_aligned
  have bytesAligned : bitmapBytes regions % pageSize = 0 := pageDown_aligned _
  have enough := bitmapBytes_enough regions
  have reserved := reserve_reserved wellFormed (by decide) (by omega) baseAligned
    (by rw [Nat.add_mod, baseAligned, bytesAligned]; rfl) ran
  have usable := sumBytes_usable reserved.wellFormed
  have count : sumBytes isUsable after / pageSize = candidateFrames after := by
    rw [usable, Nat.mul_div_cancel _ (by decide)]
  cases made
  refine ⟨⟨rfl, reserved.wellFormed, ?_, ?_, rfl, rfl, rfl, Nat.zero_le _, ?_, ?_, ?_⟩, bit_zero, reserved⟩
  · rw [frames_length]
    exact count
  · exact le_trans (le_of_eq count) (le_trans reserved.fewer enough)
  · exact fun i none => absurd none (Nat.not_lt_zero i)
  · rw [used_zero, Nat.zero_mul]
  · rw [used_zero, Nat.sub_zero, count, usable]

lemma layoutValid_kernel (valid : layoutValid image regions = true) : kernelPhysBase < kernelRounded image := by
  simp only [layoutValid, Bool.and_eq_true, decide_eq_true_eq] at valid
  omega

lemma establish_established (wellFormed : WellFormed normalized) (made : establish image normalized = .ok s) :
    Established image normalized s := by
  unfold establish at made
  split at made
  · cases made
  rename_i valid
  simp only [Bool.not_eq_true', Bool.not_eq_false] at valid
  split at made
  · cases made
  rename_i withLow ranLow
  split at made
  · cases made
  rename_i withKernel ranKernel
  have low := reserve_reserved wellFormed (by decide) (by decide) (by decide) (by decide) ranLow
  have kernel := reserve_reserved low.wellFormed (by decide) (layoutValid_kernel valid) (by decide)
    (pageDown_aligned _) ranKernel
  obtain ⟨sound, empty, metadata⟩ := placeMetadata_sound kernel.wellFormed made
  refine ⟨sound, empty, ?_, ?_, ?_, metadata.clear⟩
  · intro r member
    obtain ⟨third, inKernel, part⟩ := metadata.pieces r member
    obtain ⟨second, inLow, piece⟩ := kernel.pieces third inKernel
    obtain ⟨first, inMap, bit⟩ := low.pieces second inLow
    exact ⟨first, inMap, (part.trans piece).trans bit⟩
  · intro r member usable
    obtain ⟨third, inKernel, part⟩ := metadata.pieces r member
    obtain ⟨second, inLow, piece⟩ := kernel.pieces third inKernel
    have within := part.trans piece
    have nonempty := (low.wellFormed.valid second inLow).nonempty
    have clear := low.clear second inLow (within.usable usable)
    have base := within.base
    omega
  · intro r member usable
    obtain ⟨third, inKernel, part⟩ := metadata.pieces r member
    have clear := kernel.clear third inKernel (part.usable usable)
    have base := part.base
    have stop := part.stop
    omega

lemma pmmInitialize_established {cpu map bits ready} (made : pmmInitialize cpu image map bits ready = .ok s) :
    ∃ normalized, pmmNormalize map bits = .ok normalized ∧ Established image normalized s := by
  unfold pmmInitialize at made
  iterate 3
    split at made
    · cases made
  next normalized read => exact ⟨normalized, read, establish_established (pmmNormalize_wellFormed read) made⟩

/-! The ledger. -/

section
variable {held : List Nat} {cursor : Nat}

lemma Ledger.grantRun (cursor : Nat) (ledger : Ledger s held) (sound : Sound s)
    (run : ∀ j < n, (frames s.regions)[start + j]? = some (address + j * pageSize))
    (clear : runClear s.bitmap start n = true) :
    Ledger (s.booked (setRun s.bitmap start n) cursor) (runFrames address n ++ held) := by
  have fresh : ∀ j < n, address + j * pageSize ∉ held := fun j short => by
    rw [ledger.mem_iff sound (run j short), runClear_iff.mp clear (start + j) (by omega) (by omega)]
    decide
  refine ⟨nodup_append'.mpr ⟨runFrames_nodup _ _, ledger.nodup, ?_⟩, fun a => ?_⟩
  · intro a inRun inHeld
    obtain ⟨j, short, rfl⟩ := mem_map.mp inRun
    exact fresh j (mem_range.mp short) inHeld
  simp only [mem_append, ledger.exact, booked_regions, booked_bitmap, bit_setRun, Bool.or_eq_true, decide_eq_true_eq,
    runFrames, mem_map, mem_range]
  constructor
  · rintro (⟨j, short, rfl⟩ | ⟨other, also, isSet⟩)
    · exact ⟨start + j, run j short, .inl ⟨by omega, by omega⟩⟩
    · exact ⟨other, also, .inr isSet⟩
  · rintro ⟨other, also, ⟨low, high⟩ | isSet⟩
    · refine .inl ⟨other - start, by omega, Option.some.inj ((run (other - start) (by omega)).symm.trans ?_)⟩
      rwa [Nat.add_sub_cancel' low]
    · exact .inr ⟨other, also, isSet⟩

lemma Ledger.release (ledger : Ledger s held) (sound : Sound s) (found : (frames s.regions)[index]? = some address) :
    Ledger (s.booked (clearBit s.bitmap index) cursor) (held.filter (· ≠ address)) := by
  refine ⟨ledger.nodup.filter _, fun a => ?_⟩
  simp only [mem_filter, ledger.exact, booked_regions, booked_bitmap, bit_clearBit, Bool.and_eq_true, Bool.not_eq_true',
    decide_eq_false_iff_not, decide_eq_true_eq]
  constructor
  · rintro ⟨⟨other, also, isSet⟩, apart⟩
    refine ⟨other, also, fun same => apart ?_, isSet⟩
    subst same
    exact Option.some.inj (also.symm.trans found)
  · rintro ⟨other, also, apart, isSet⟩
    refine ⟨⟨other, also, isSet⟩, fun same => apart ?_⟩
    subst same
    exact sound.index_unique also found

end

/-! Runs of calls. -/

inductive Op
  | allocate (cpu : Cpu) (physical : Bool)
  | allocContiguous (cpu : Cpu) (frames alignBytes limitEnd : Nat) (physical : Bool)
  | release (cpu : Cpu) (physical : Nat)
  deriving DecidableEq

/-- The allocator with the outstanding allocations, each the list of its frames that are not
released. -/
abbrev Book := State × List (List Nat)

def Op.perform : Op → Book → Book
  | .allocate cpu physical, (s, outstanding) =>
    match s.pmmAllocate cpu physical with
    | (.ok, some address, s) => (s, [address] :: outstanding)
    | (_, _, s) => (s, outstanding)
  | .allocContiguous cpu n alignBytes limitEnd physical, (s, outstanding) =>
    match s.pmmAllocContiguous cpu n alignBytes limitEnd physical with
    | (.ok, some address, s) => (s, runFrames address n :: outstanding)
    | (_, _, s) => (s, outstanding)
  | .release cpu physical, (s, outstanding) =>
    match s.pmmRelease cpu physical with
    | (.ok, s) => (s, outstanding.map (List.filter (· ≠ physical)))
    | (_, s) => (s, outstanding)

def performAll (ops : List Op) (book : Book) : Book := ops.foldl (fun book op => op.perform book) book

/-- What holds between calls. -/
structure Kept (regions : List Region) (book : Book) : Prop where
  sound : Sound book.1
  ledger : Ledger book.1 book.2.flatten
  regions : book.1.regions = regions

lemma Op.perform_kept (op : Op) (kept : Kept regions book) : Kept regions (op.perform book) := by
  obtain ⟨s, outstanding⟩ := book
  obtain ⟨sound, ledger, same⟩ := kept
  cases op with
  | allocate cpu physical =>
    have outcome := Sound.pmmAllocate_allocates sound cpu physical
    simp only [Op.perform]
    generalize s.pmmAllocate cpu physical = call at outcome
    cases outcome with
    | misuse result failed reason => cases result <;> exact ⟨sound, ledger, same⟩
    | exhausted full => exact ⟨sound, ledger, same⟩
    | granted index address found clear first =>
      have run : ∀ j < 1, (frames s.regions)[index + j]? = some (address + j * pageSize) := by simpa using found
      have held := Ledger.grantRun (index + 1) ledger sound run (by simp [runClear, clear])
      refine ⟨sound.booked (sound.index_lt found) fun i below => ?_, by simpa [runFrames] using held, same⟩
      rw [bit_setBit]
      by_cases last : i = index
      · rw [decide_eq_true last, Bool.true_or]
      · rw [first i (by omega), Bool.or_true]
  | allocContiguous cpu n alignBytes limitEnd physical =>
    have outcome := Sound.pmmAllocContiguous_allocates sound cpu n alignBytes limitEnd physical
    simp only [Op.perform]
    generalize s.pmmAllocContiguous cpu n alignBytes limitEnd physical = call at outcome
    cases outcome with
    | misuse result failed reason => cases result <;> exact ⟨sound, ledger, same⟩
    | exhausted missing => exact ⟨sound, ledger, same⟩
    | granted start address positive clear run aligned below first =>
      refine ⟨sound.booked sound.cursor fun i low => ?_, .grantRun _ ledger sound run clear, same⟩
      rw [bit_setRun, sound.taken i low, Bool.or_true]
  | release cpu physical =>
    have outcome := Sound.pmmRelease_releases sound cpu physical
    simp only [Op.perform]
    generalize s.pmmRelease cpu physical = call at outcome
    cases outcome with
    | misuse result failed reason | notHeld result failed _ => cases result <;>
      first | exact ⟨sound, ledger, same⟩ | exact absurd rfl failed
    | released index found taken =>
      have cursor := sound.cursor
      have inside := sound.index_lt found
      refine ⟨sound.booked (by split <;> omega) fun i below => ?_, ?_, same⟩
      · rw [bit_clearBit, sound.taken i (by split at below <;> omega), Bool.and_true, Bool.not_eq_true',
          decide_eq_false_iff_not]
        split at below <;> omega
      · dsimp only
        rw [← filter_flatten]
        exact ledger.release sound found

lemma performAll_kept (ops : List Op) (kept : Kept regions book) : Kept regions (performAll ops book) :=
  List.foldlRecOn (motive := Kept regions) ops _ kept fun _ before op _ => op.perform_kept before

/-! What the ledger says about the calls to come. -/

/-- The frame lies in a usable region. -/
def InUsable (regions : List Region) (a : Nat) : Prop :=
  ∃ r ∈ regions, r.kind = .usable ∧ r.base ≤ a ∧ a + pageSize ≤ r.stop

/-- The frame meets a region that is not usable. -/
def InReserved (regions : List Region) (a : Nat) : Prop :=
  ∃ r ∈ regions, r.kind ≠ .usable ∧ r.base < a + pageSize ∧ a < r.stop

/-- The frame does not meet the range. -/
def Outside (a base stop : Nat) : Prop := a + pageSize ≤ base ∨ stop ≤ a

lemma mem_frames_iff (wellFormed : WellFormed regions) :
    a ∈ frames regions ↔ InUsable regions a ∧ a % pageSize = 0 := by
  rw [mem_frames wellFormed]
  constructor
  · rintro ⟨r, member, usable, low, high, aligned⟩
    have stop := (wellFormed.valid r member).stop_aligned
    refine ⟨⟨r, member, usable, low, ?_⟩, aligned⟩
    unfold pageSize at stop aligned ⊢
    omega
  · rintro ⟨⟨r, member, usable, low, high⟩, aligned⟩
    exact ⟨r, member, usable, low, lt_of_lt_of_le (Nat.lt_add_of_pos_right (by decide)) high, aligned⟩

lemma WellFormed.usable_not_reserved (wellFormed : WellFormed regions) (usable : InUsable regions a) :
    ¬InReserved regions a := by
  obtain ⟨r, member, isUsable, low, high⟩ := usable
  rintro ⟨other, also, notUsable, before, after⟩
  rcases wellFormed.cases member also with rfl | first | second
  · exact notUsable isUsable
  · have order := first.ordered
    omega
  · have order := second.ordered
    omega

section
variable {held : List Nat}
variable {a : Nat} {cpu : Cpu}

lemma Ledger.mem_frames (ledger : Ledger s held) (member : a ∈ held) : a ∈ frames s.regions := by
  obtain ⟨index, found, -⟩ := (ledger.exact a).mp member
  exact mem_of_getElem? found

lemma Sound.query (sound : Sound s) (foreground : cpu.foreground = true) (a : Nat) (taken : Bool) :
    s.pmmQuery cpu a = (.ok, some (if taken then .allocated else .free)) ↔
      ∃ index, (frames s.regions)[index]? = some a ∧ bit s.bitmap index = taken := by
  rw [pmmQuery, if_neg (not_not.mpr (sound.context foreground))]
  split
  next unaligned =>
    refine iff_of_false (by simp) fun ⟨index, found, _⟩ => unaligned ?_
    exact ((mem_frames_iff sound.wellFormed).mp (mem_of_getElem? found)).2
  rename_i aligned
  rw [not_not] at aligned
  rcases locateFrom_spec sound.wellFormed s.bitmap aligned 0 with ⟨index, found, located⟩ | ⟨missing, -, state⟩
  · rw [zero_add] at located
    have only : (∃ other, (frames s.regions)[other]? = some a ∧ bit s.bitmap other = taken) ↔
      bit s.bitmap index = taken :=
      ⟨fun ⟨other, also, same⟩ => sound.index_unique found also ▸ same, fun same => ⟨index, found, same⟩⟩
    rw [only, locate, located]
    cases bit s.bitmap index <;> cases taken <;> simp
  refine iff_of_false (fun same => ?_) fun ⟨index, found, _⟩ => missing (mem_of_getElem? found)
  simp only [locate, Prod.mk.injEq, Option.some.injEq, true_and] at same
  rw [same] at state
  cases taken <;> simp at state

section
variable (ledger : Ledger s held) (sound : Sound s) (foreground : cpu.foreground = true)
include ledger sound foreground

lemma Ledger.query (a : Nat) : s.pmmQuery cpu a = (.ok, some .allocated) ↔ a ∈ held := by
  rw [ledger.exact]
  exact sound.query foreground a true

lemma Ledger.pmmAllocate_fails
    (failed : (s.pmmAllocate cpu true).1 ≠ .ok) (usable : InUsable s.regions a) (aligned : a % pageSize = 0) :
    a ∈ held := by
  have outcome := sound.pmmAllocate_allocates cpu true
  generalize s.pmmAllocate cpu true = call at outcome failed
  cases outcome with
  | misuse result failed reason => simp [foreground] at reason
  | exhausted full =>
    obtain ⟨index, short, same⟩ := mem_iff_getElem.mp ((mem_frames_iff sound.wellFormed).mpr ⟨usable, aligned⟩)
    have found : (frames s.regions)[index]? = some a := by rw [getElem?_eq_getElem short, same]
    exact (ledger.mem_iff sound found).mpr (full index (sound.index_lt found))
  | granted => exact absurd rfl failed

end

/-- A run that a call could have been given. -/
structure Suitable (regions : List Region) (held : List Nat) (n alignBytes limitEnd address : Nat) : Prop where
  free : ∀ j < n, InUsable regions (address + j * pageSize) ∧ address + j * pageSize ∉ held
  page : address % pageSize = 0
  aligned : address % alignBytes = 0
  below : limitEnd = 0 ∨ address + n * pageSize ≤ limitEnd

lemma Ledger.pmmAllocContiguous_fails (ledger : Ledger s held) (sound : Sound s) (foreground : cpu.foreground = true)
    (positive : n ≠ 0) (power : Alignment.isPowerOfTwo alignBytes = true)
    (failed : (s.pmmAllocContiguous cpu n alignBytes limitEnd true).1 ≠ .ok) (address : Nat) :
    ¬Suitable s.regions held n alignBytes limitEnd address := by
  intro suitable
  have outcome := sound.pmmAllocContiguous_allocates cpu n alignBytes limitEnd true
  generalize s.pmmAllocContiguous cpu n alignBytes limitEnd true = call at outcome failed
  cases outcome with
  | misuse result failed reason => simp [foreground, positive, power] at reason
  | exhausted missing =>
    refine missing address ⟨fun j short => ?_, suitable.aligned, suitable.below⟩
    obtain ⟨usable, notHeld⟩ := suitable.free j short
    have aligned : (address + j * pageSize) % pageSize = 0 := by rw [Nat.add_mul_mod_self_right, suitable.page]
    obtain ⟨index, inside, same⟩ := mem_iff_getElem.mp ((mem_frames_iff sound.wellFormed).mpr ⟨usable, aligned⟩)
    have found : (frames s.regions)[index]? = some (address + j * pageSize) := by rw [getElem?_eq_getElem inside, same]
    rw [ledger.mem_iff sound found, Bool.not_eq_true] at notHeld
    exact ⟨index, found, by rw [zero_add, notHeld]⟩
  | granted => exact absurd rfl failed

end

lemma unique_of_nodup_flatten {outstanding : List (List Nat)} (nodup : outstanding.flatten.Nodup)
    (member : a ∈ outstanding.flatten) : ∃! k : Nat, ∃ held, outstanding[k]? = some held ∧ a ∈ held := by
  have disjoint := pairwise_iff_getElem.mp (nodup_flatten.mp nodup).2
  have apart {i j : Nat} {first second : List Nat} (before : i < j) (one : outstanding[i]? = some first)
      (two : outstanding[j]? = some second) (inFirst : a ∈ first) (inSecond : a ∈ second) : False := by
    obtain ⟨iShort, rfl⟩ := List.getElem?_eq_some_iff.mp one
    obtain ⟨jShort, rfl⟩ := List.getElem?_eq_some_iff.mp two
    exact disjoint i j iShort jShort before inFirst inSecond
  obtain ⟨held, inOutstanding, inHeld⟩ := mem_flatten.mp member
  obtain ⟨k, placed⟩ := mem_iff_getElem?.mp inOutstanding
  refine ⟨k, ⟨held, placed, inHeld⟩, fun other ⟨also, there, inAlso⟩ => ?_⟩
  rcases lt_trichotomy other k with before | same | after
  · exact (apart before there placed inAlso inHeld).elim
  · exact same
  · exact (apart after placed there inHeld inAlso).elim

lemma kept_established (established : pmmInitialize cpu image given bits false = .ok start) :
    Kept start.regions (start, []) := by
  obtain ⟨_, _, fresh⟩ := pmmInitialize_established established
  exact ⟨fresh.sound, ⟨by simp, fun a => by simp [fresh.empty]⟩, rfl⟩

/-- From every state that the initialisation establishes, after every sequence of calls: the
self-check passes, the frames handed out are usable in the normalized map, not reserved and
each held by one outstanding allocation, a proper call fails only when nothing suitable is
free, and the release of anything else changes nothing. -/
theorem pmm_hands_out_each_frame_once {cpu : Cpu} {image : Image} {map : BootMemoryMap} {bits : Nat} {start : State}
    (established : pmmInitialize cpu image map bits false = .ok start) (ops : List Op) {s : State}
    {outstanding : List (List Nat)} (ran : performAll ops (start, []) = (s, outstanding)) :
    ∃ normalized, pmmNormalize map bits = .ok normalized ∧ (∀ cpu, cpu.foreground = true → s.pmmCheck cpu = true) ∧
    (∀ cpu a, cpu.foreground = true →
        (s.pmmQuery cpu a = (.ok, some .allocated) ↔ ∃ k : Nat, ∃ held, outstanding[k]? = some held ∧ a ∈ held)) ∧
      (∀ a ∈ outstanding.flatten, a % pageSize = 0 ∧ InUsable normalized a ∧ ¬InReserved s.regions a ∧ lowReserved ≤ a ∧
          Outside a kernelPhysBase (kernelRounded image) ∧
          Outside a start.stats.metadataBase (start.stats.metadataBase + start.stats.metadataBytes) ∧
          outstanding.flatten.count a = 1 ∧ ∃! k : Nat, ∃ held, outstanding[k]? = some held ∧ a ∈ held) ∧
      (∀ cpu, cpu.foreground = true → (s.pmmAllocate cpu true).1 ≠ .ok → ∀ a, InUsable s.regions a →
        a % pageSize = 0 → a ∈ outstanding.flatten) ∧
      (∀ cpu n alignBytes limitEnd, cpu.foreground = true → n ≠ 0 → Alignment.isPowerOfTwo alignBytes = true →
        (s.pmmAllocContiguous cpu n alignBytes limitEnd true).1 ≠ .ok →
        ∀ address, ¬Suitable s.regions outstanding.flatten n alignBytes limitEnd address) ∧
      (∀ cpu a, a ∉ outstanding.flatten → ∃ result, result ≠ .ok ∧ s.pmmRelease cpu a = (result, s)) := by
  obtain ⟨normalized, read, fresh⟩ := pmmInitialize_established established
  obtain ⟨sound, ledger, same⟩ := ran ▸ performAll_kept ops (kept_established established)
  dsimp only at sound ledger same
  refine ⟨normalized, read, fun cpu => sound.check, fun cpu a foreground => ?_, fun a member => ?_,
    fun cpu foreground failed a => ?_,
    fun cpu n alignBytes limitEnd foreground => ledger.pmmAllocContiguous_fails sound foreground,
    fun cpu a notHeld => ?_⟩
  on_goal 4 =>
    have outcome := sound.pmmRelease_releases cpu a
    generalize s.pmmRelease cpu a = call at outcome
    cases outcome with
    | misuse result failed reason | notHeld result failed _ => exact ⟨result, failed, rfl⟩
    | released index found taken => exact absurd ((ledger.mem_iff sound found).mpr taken) notHeld
  · rw [ledger.query sound foreground, mem_flatten, exists_comm]
    simp only [mem_iff_getElem?, exists_and_right]
  · obtain ⟨usable, aligned⟩ := (mem_frames_iff sound.wellFormed).mp (ledger.mem_frames member)
    obtain ⟨r, inRegions, isUsable, low, high⟩ := usable
    have original := same ▸ inRegions
    obtain ⟨whole, inMap, within⟩ := fresh.pieces r original
    refine ⟨aligned, ⟨whole, inMap, within.usable isUsable, le_trans within.base low, le_trans high within.stop⟩,
      sound.wellFormed.usable_not_reserved ⟨r, inRegions, isUsable, low, high⟩,
        le_trans (fresh.low r original isUsable) low, ?_, ?_,
      count_eq_one_of_mem ledger.nodup member, unique_of_nodup_flatten ledger.nodup member⟩
    · exact (fresh.kernel r original isUsable).imp (le_trans high) (le_trans · low)
    · exact (fresh.metadata r original isUsable).imp (le_trans high) (le_trans · low)
  · exact ledger.pmmAllocate_fails sound foreground failed

/-- Free frames from `address` on inside one region, aligned and below the limit; a limit of
0 is none. -/
structure State.FreeAt (s : State) (cpu : Cpu) (n alignBytes limitEnd address : Nat) : Prop where
  region : ∃ r ∈ s.regions, r.base ≤ address ∧ address + n * pageSize ≤ r.stop
  free : ∀ j < n, s.pmmQuery cpu (address + j * pageSize) = (.ok, some .free)
  aligned : address % alignBytes = 0
  below : limitEnd = 0 ∨ address + n * pageSize ≤ limitEnd

lemma Sound.freeAt_iff (sound : Sound s) (foreground : cpu.foreground = true) (positive : n ≠ 0) :
    s.FreeAt cpu n alignBytes limitEnd address ↔ FreeRun s.bitmap 0 s.regions n alignBytes limitEnd address := by
  have query := fun a => sound.query foreground a false
  constructor
  · intro ⟨_, free, aligned, below⟩
    refine ⟨fun j short => ?_, aligned, below⟩
    obtain ⟨index, found, clear⟩ := (query _).mp (free j short)
    exact ⟨index, found, by rw [zero_add, clear]⟩
  · intro ⟨free, aligned, below⟩
    have bits : ∀ j < n, ∃ index, (frames s.regions)[index]? = some (address + j * pageSize) ∧
      bit s.bitmap index = false := by
      simpa only [zero_add] using free
    have members : ∀ j < n, address + j * pageSize ∈ frames s.regions := fun j short => by
      obtain ⟨index, found, -⟩ := bits j short
      exact mem_of_getElem? found
    have first := members 0 (Nat.pos_of_ne_zero positive)
    rw [zero_mul, add_zero] at first
    obtain ⟨r, member, usable, inside⟩ := (mem_frames sound.wellFormed).mp first
    have starts := (sound.wellFormed.valid r member).mem_frames.mpr inside
    have stays := (run_stays sound.wellFormed member usable starts members).resolve_right positive
    exact ⟨⟨r, member, inside.1, stays⟩, fun j short => (query _).mpr (bits j short), aligned, below⟩

/-- After every sequence of calls, a proper request for a run is given the lowest address at
which there is one, and is refused for want of memory exactly when there is none. -/
theorem pmmAllocContiguous_first_fit {cpu caller : Cpu} {image : Image} {map : BootMemoryMap} {bits : Nat}
    {start : State} (established : pmmInitialize cpu image map bits false = .ok start) (ops : List Op) {s : State}
    {outstanding : List (List Nat)}
    (ran : performAll ops (start, []) = (s, outstanding)) (foreground : caller.foreground = true) {n alignBytes : Nat}
    (positive : n ≠ 0) (power : Alignment.isPowerOfTwo alignBytes = true) (limitEnd : Nat) :
    ((s.pmmAllocContiguous caller n alignBytes limitEnd true).1 = .outOfMemory ↔
      ∀ address, ¬s.FreeAt caller n alignBytes limitEnd address) ∧
    ∀ address, (∃ after, s.pmmAllocContiguous caller n alignBytes limitEnd true = (.ok, some address, after)) ↔
      IsLeast {address | s.FreeAt caller n alignBytes limitEnd address} address := by
  obtain ⟨sound, -, -⟩ := ran ▸ performAll_kept ops (kept_established established)
  dsimp only at sound
  have outcome := sound.pmmAllocContiguous_allocates caller n alignBytes limitEnd true
  have free : ∀ address, s.FreeAt caller n alignBytes limitEnd address ↔ _ :=
    fun _ => sound.freeAt_iff foreground positive
  simp only [free]
  generalize s.pmmAllocContiguous caller n alignBytes limitEnd true = call at outcome
  cases outcome with
  | misuse result failed reason => simp [foreground, positive, power] at reason
  | exhausted missing =>
    refine ⟨iff_of_true rfl missing, fun address => iff_of_false ?_ fun least => missing address least.1⟩
    rintro ⟨after, granted⟩
    cases granted
  | granted first address _ clear run aligned below lowest =>
    have found : FreeRun s.bitmap 0 s.regions n alignBytes limitEnd address := by
      refine ⟨fun j short => ⟨first + j, run j short, ?_⟩, aligned, below⟩
      exact runClear_iff.mp clear _ (by omega) (by omega)
    refine ⟨iff_of_false nofun fun missing => missing address found, fun other => ?_⟩
    constructor
    · rintro ⟨after, granted⟩
      cases granted
      exact ⟨found, lowest⟩
    · intro least
      rw [le_antisymm (least.2 found) (lowest other least.1)]
      exact ⟨_, rfl⟩

/-- Conventional memory up to a few pages over the low megabyte, and the kernel. -/
def twoRanges : BootMemoryMap where
  header := ⟨bootMapMagic, 1, 2, bootMapCapacity, 32, 1, 4096, 0⟩
  entries i := if i = 0 then ⟨0, 0x108000, 1, 0, 20, 0⟩ else ⟨0x800000, 0x4000, 1, 0, 20, 0⟩

/-- A run of two frames, one frame, and the second frame of the run back. -/
def threeCalls (cpu : Cpu) : List Op :=
  [.allocContiguous cpu 2 0x2000 0 true, .allocate cpu true, .release cpu 0x103000]

theorem pmm_hands_out_each_frame_once_after_three_calls :
    ∃ start s, pmmInitialize ⟨true, false⟩ ⟨0x801000, 0x802000⟩ twoRanges 32 false = .ok start ∧
      performAll (threeCalls ⟨true, false⟩) (start, []) = (s, [[0x101000], [0x102000]]) ∧
      s.pmmCheck ⟨true, false⟩ = true ∧ ¬InReserved s.regions 0x102000 ∧
      ∃ result, result ≠ .ok ∧ s.pmmRelease ⟨true, false⟩ 0x103000 = (result, s) := by
  obtain ⟨start, established, outstanding⟩ : ∃ start, pmmInitialize ⟨true, false⟩
    ⟨0x801000, 0x802000⟩ twoRanges 32 false = .ok start ∧
      (performAll (threeCalls ⟨true, false⟩) (start, [])).2 = [[0x101000], [0x102000]] :=
        Checks.exists_ok (by decide +kernel)
  have ran : performAll (threeCalls ⟨true, false⟩) (start, []) =
      ((performAll (threeCalls ⟨true, false⟩) (start, [])).1, [[0x101000], [0x102000]]) := Prod.ext rfl outstanding
  obtain ⟨_, -, checked, -, handed, -, -, rejected⟩ := pmm_hands_out_each_frame_once established _ ran
  exact ⟨start, _, established, ran, checked _ rfl, (handed 0x102000 (by decide)).2.2.1, rejected _ _ (by decide)⟩

theorem pmmAllocContiguous_first_fit_after_three_calls :
    ∃ start s outstanding, pmmInitialize ⟨true, false⟩ ⟨0x801000, 0x802000⟩ twoRanges 32 false = .ok start ∧
      performAll (threeCalls ⟨true, false⟩) (start, []) = (s, outstanding) ∧
      IsLeast {address | s.FreeAt ⟨true, false⟩ 2 0x1000 0 address} 0x103000 := by
  obtain ⟨start, established, result, address⟩ :
      ∃ start, pmmInitialize ⟨true, false⟩ ⟨0x801000, 0x802000⟩ twoRanges 32 false = .ok start ∧
        let call := (performAll (threeCalls ⟨true, false⟩) (start, [])).1.pmmAllocContiguous
          ⟨true, false⟩ 2 0x1000 0 true
        call.1 = .ok ∧ call.2.1 = some 0x103000 := Checks.exists_ok (by decide +kernel)
  refine ⟨start, (performAll (threeCalls _) (start, [])).1, _, established, rfl, ?_⟩
  apply ((pmmAllocContiguous_first_fit established _ rfl rfl (by decide) (by decide) 0).2 _).mp
  exact ⟨_, Prod.ext result (Prod.ext address rfl)⟩

end Rynor.Pmm
