import Mathlib.Order.Bounds.Basic
import Rynor.Lib.Scan
import Rynor.Proofs.FsDirectory
import Rynor.Proofs.FsTransfer
import Rynor.Storage.FsRun

/-! The first-fit scan of `alloc_first_fit` over a valid directory: it ends, what it
returns is free, and it refuses only when no gap is large enough. -/

namespace Rynor.Fs
open ByteMemory Blk Scan List Bool

/-- `count` consecutive data blocks from `first` on that belong to no file. -/
def Table.FreeRange (table : Table) (slots : Nat) (geometry : Geometry) (first count : Nat) : Prop :=
  geometry.dataStart ≤ first ∧ first + count ≤ geometry.dataStart + geometry.dataBlocks ∧
    ∀ slot record, slot < slots → table slot = some record →
      record.count = 0 ∨ record.first + record.count ≤ first ∨ first + count ≤ record.first

section
variable {dir : ByteMemory} {slots capacity : Nat} {geometry : Geometry}
  (valid : (tableOf dir).Valid slots geometry) (shape : geometry.Valid capacity) (small : capacity ≤ lba28Max)
include valid

private lemma nextExtent_le (dataEnd cur : Nat) :
    nextExtent dir slots dataEnd cur ≤ dataEnd ∧ (nextExtent dir slots dataEnd cur = dataEnd ∨
      ∃ slot record, slot < slots ∧ tableOf dir slot = some record ∧ record.count ≠ 0 ∧ cur ≤ record.first ∧
        nextExtent dir slots dataEnd cur = record.first) ∧
    ∀ slot record, slot < slots → tableOf dir slot = some record → record.count ≠ 0 → cur ≤ record.first →
      nextExtent dir slots dataEnd cur ≤ record.first := by
  have scan : nextExtent dir slots dataEnd cur =
      leastKey (fun index => hasExtent (entryAt dir index) && decide (entryFirst (entryAt dir index) ≥ cur))
        (fun index => entryFirst (entryAt dir index)) (List.range slots) dataEnd := by
    simp only [nextExtent, leastKey, Bool.and_assoc]
  rw [scan]
  refine ⟨leastKey_le _ _ _ _, ?_, ?_⟩
  · rcases leastKey_attained (fun index => hasExtent (entryAt dir index) &&
      decide (entryFirst (entryAt dir index) ≥ cur))
        (fun index => entryFirst (entryAt dir index)) (List.range slots) dataEnd with
      same | ⟨slot, member, picked, _, equal⟩
    · exact .inl same
    right
    have inside := mem_range.mp member
    simp only [and_eq_true, decide_eq_true_eq] at picked
    cases held : tableOf dir slot with
    | none => simp [hasExtent, decodeEntry_none.mp held] at picked
    | some record =>
      have first := (decodeEntry_some held).2.2.2.2.1
      have nonempty := (hasExtent_iff held (valid.records slot record inside held)).mp picked.1
      exact ⟨slot, record, inside, held, nonempty, first ▸ picked.2, equal.trans first⟩
  · intro slot record inside held nonempty later
    have first := (decodeEntry_some held).2.2.2.2.1
    have extent := (hasExtent_iff held (valid.records slot record inside held)).mpr nonempty
    rw [← first] at later ⊢
    exact leastKey_least _ _ (mem_range.mpr inside) (by simp [extent, later])

include shape small

private lemma extentEnd_eq (inside : slot < slots) (held : tableOf dir slot = some record)
    (nonempty : record.count ≠ 0) : extentEnd dir slots record.first = record.first + record.count := by
  have limit : lba28Max < u64 := by decide
  have recordValid := valid.records slot record inside held
  have bound := recordValid.extent_bound shape small
  have positive := shape.dataStart_pos
  obtain ⟨live, _, type, _, first, _, _⟩ := decodeEntry_some held
  have file : record.type = typeFile ∧ geometry.dataStart ≤ record.first := by
    rcases recordValid.kind with ⟨file, empty | extent⟩ | folder
    · exact absurd empty.1 nonempty
    · exact ⟨file, extent.2.2.1⟩
    · exact absurd folder.2.2.1 nonempty
  simp only [extentEnd]
  split
  next missing =>
    have miss := find?_eq_none.mp missing slot (mem_range.mpr inside)
    simp [live, type, file.1, first] at miss
  rename_i other found
  have otherInside := mem_range.mp (mem_of_find?_eq_some found)
  have hit := find?_some found
  rcases otherHeld : tableOf dir other with _ | holder
  · simp [decodeEntry_none.mp otherHeld] at hit
  obtain ⟨_, _, _, _, otherFirst, otherCount, _⟩ := decodeEntry_some otherHeld
  simp only [otherFirst, and_eq_true, beq_iff_eq] at hit
  have same : other = slot := by
    by_contra different
    have otherNonempty : holder.count ≠ 0 := by
      rcases (valid.records other holder otherInside otherHeld).kind with ⟨_, empty | extent⟩ | folder
      · omega
      · intro zero
        omega
      · omega
    rcases valid.apart other slot holder record otherInside inside otherHeld held different with a | b | c | d <;> omega
  subst same
  rw [held] at otherHeld
  cases otherHeld
  rw [otherCount, Nat.mod_eq_of_lt (by omega)]

/-- How many extents the scan has still to pass. -/
private def ahead (dir : ByteMemory) (slots cur : Nat) : Nat :=
  (List.range slots).countP fun index => hasExtent (entryAt dir index) && decide (cur ≤ entryFirst (entryAt dir index))

omit valid shape small in
private lemma ahead_lt (after : Nat) (inside : slot < slots) (extent : hasExtent (entryAt dir slot) = true)
    (reached : cur ≤ entryFirst (entryAt dir slot)) (passed : entryFirst (entryAt dir slot) < after) :
    ahead dir slots after < ahead dir slots cur := by
  refine countP_lt ?_ (mem_range.mpr inside) (by simp [extent, reached]) ?_
  · intro index counted
    simp only [and_eq_true, decide_eq_true_eq] at counted ⊢
    exact ⟨counted.1, by omega⟩
  · simp only [extent, Bool.true_and, decide_eq_false_iff_not]
    omega

/-- The scan from `cur`, with every extent wholly before or after it and no gap behind it. -/
private lemma gapScan_from (begun : geometry.dataStart ≤ cur)
    (within : cur ≤ geometry.dataStart + geometry.dataBlocks) (enough : ahead dir slots cur < fuel)
    (sided : ∀ slot record, slot < slots → tableOf dir slot = some record → record.count = 0 ∨
      record.first + record.count ≤ cur ∨ cur ≤ record.first)
    (behind : ∀ first, (tableOf dir).FreeRange slots geometry first nblocks → cur ≤ first) :
    ∃ answer, gapScan dir slots (geometry.dataStart + geometry.dataBlocks) nblocks fuel cur = some answer ∧
      match answer with
      | .ok first => IsLeast { start | (tableOf dir).FreeRange slots geometry start nblocks } first
      | .error error => error = ⟨.noSpc, "disk-full"⟩ ∧
        ∀ first, ¬ (tableOf dir).FreeRange slots geometry first nblocks := by
  induction fuel generalizing cur with
  | zero => omega
  | succ fuel ih =>
    obtain ⟨ceiling, attained, least⟩ := nextExtent_le valid (geometry.dataStart + geometry.dataBlocks) cur
    simp only [gapScan]
    generalize nextExtent dir slots (geometry.dataStart + geometry.dataBlocks) cur = next at ceiling attained least
    have reached : cur ≤ next := by
      rcases attained with same | ⟨_, _, _, _, _, later, same⟩ <;> omega
    by_cases fits : next ≥ cur ∧ nblocks ≤ next - cur
    · rw [if_pos fits]
      refine ⟨_, rfl, ⟨begun, by omega, ?_⟩, behind⟩
      intro slot record inside held
      rcases sided slot record inside held with empty | before | after
      · exact .inl empty
      · exact .inr (.inl before)
      by_cases empty : record.count = 0
      · exact .inl empty
      · have := least slot record inside held empty after
        exact .inr (.inr (by omega))
    rw [if_neg fits]
    by_cases ended : next ≥ geometry.dataStart + geometry.dataBlocks
    · rw [if_pos ended]
      refine ⟨_, rfl, rfl, fun first free => ?_⟩
      have := behind first free
      have := free.2.1
      omega
    rw [if_neg ended]
    rcases attained with same | ⟨slot, record, inside, held, nonempty, later, same⟩
    · omega
    have finish := extentEnd_eq valid shape small inside held nonempty
    subst same
    rw [finish, if_neg (by omega)]
    have recordValid := valid.records slot record inside held
    have extent := (hasExtent_iff held recordValid).mpr nonempty
    have first := (decodeEntry_some held).2.2.2.2.1
    refine ih (by omega) ?_ ?_ ?_ ?_
    · rcases recordValid.kind with ⟨_, empty | bounded⟩ | folder
      · exact absurd empty.1 nonempty
      · exact bounded.2.2.2
      · exact absurd folder.2.2.1 nonempty
    · have := ahead_lt (record.first + record.count) inside extent (first ▸ later) (by omega)
      omega
    · intro other holder otherInside otherHeld
      by_cases same : other = slot
      · subst same
        rw [held] at otherHeld
        cases otherHeld
        exact .inr (.inl le_rfl)
      by_cases empty : holder.count = 0
      · exact .inl empty
      rcases valid.apart other slot holder record otherInside inside otherHeld held same with a | b | c | d
      · exact absurd a empty
      · exact absurd b nonempty
      · exact .inr (.inl (by omega))
      · exact .inr (.inr d)
    · intro gap free
      have := behind gap free
      rcases free.2.2 slot record inside held with a | b | c
      · exact absurd a nonempty
      · exact b
      · omega

/-- The allocator answers; a success is the lowest free range and a refusal means there is none. -/
lemma gapScan_least (nblocks : Nat) :
    ∃ answer, gapScan dir slots geometry.dataEnd nblocks (slots + 1) geometry.dataStart = some answer ∧
      match answer with
      | .ok first => IsLeast { start | (tableOf dir).FreeRange slots geometry start nblocks } first
      | .error error => error = ⟨.noSpc, "disk-full"⟩ ∧
        ∀ first, ¬ (tableOf dir).FreeRange slots geometry first nblocks := by
  rw [shape.dataEnd small]
  refine gapScan_from valid shape small le_rfl (by omega) ?_ ?_ ?_
  · have most : ahead dir slots geometry.dataStart ≤ (List.range slots).length := countP_le_length
    rw [length_range] at most
    exact Nat.lt_succ_of_le most
  · intro slot record inside held
    rcases (valid.records slot record inside held).kind with ⟨_, empty | extent⟩ | folder
    · exact .inl empty.1
    · exact .inr (.inr extent.2.2.1)
    · exact .inl folder.2.2.1
  · intro first free
    exact free.1

end

/-- First fit is exact on every directory that a mount accepts: the loop ends, its answer is the lowest
start of a free range, it reports a full disk exactly when there is none, and it never stalls. -/
theorem allocFirstFit_exact {fs : Volume} {capacity nblocks : Nat}
    (valid : (tableOf fs.dir).Valid fs.dirSlots fs.geometry)
    (shape : fs.geometry.Valid capacity) (small : capacity ≤ lba28Max) (positive : 1 ≤ nblocks) :
    ∃ answer, allocFirstFit fs nblocks = some answer ∧
      (∀ first, answer = .ok first ↔ IsLeast { start | (tableOf fs.dir).FreeRange fs.dirSlots fs.geometry start nblocks } first) ∧
      ((∃ stage, answer = .error ⟨.noSpc, stage⟩) ↔
        ¬ ∃ start, (tableOf fs.dir).FreeRange fs.dirSlots fs.geometry start nblocks) ∧
      ∀ stage, answer ≠ .error ⟨.corrupt, stage⟩ := by
  obtain ⟨answer, scanned, meaning⟩ := gapScan_least valid shape small nblocks
  refine ⟨answer, by rw [allocFirstFit, if_neg (by omega), scanned], ?_⟩
  cases answer with
  | ok found =>
    refine ⟨fun first => ⟨fun same => Except.ok.inj same ▸ meaning, fun least => congrArg _ (meaning.unique least)⟩,
      ?_, nofun⟩
    exact ⟨nofun, fun full => absurd ⟨found, meaning.1⟩ full⟩
  | error error =>
    obtain ⟨rfl, full⟩ := meaning
    refine ⟨fun first => ⟨nofun, fun least => absurd least.1 (full first)⟩,
      ⟨fun _ ⟨start, free⟩ => full start free, fun _ => ⟨_, rfl⟩⟩, nofun⟩

def sampleVolume : Volume :=
  { Volume.boot fun _ => sampleDevice with geometry := ⟨8, 1, 1, 2, 6⟩, dirSlots := 8, dir := sampleDir }

/-- Blocks 3 and 5 are taken, in slots 4 and 2: two blocks fit behind both and three fit nowhere. -/
theorem allocFirstFit_exact_sample :
    allocFirstFit sampleVolume 2 = some (.ok 6) ∧ IsLeast
    { start | (tableOf sampleVolume.dir).FreeRange 8 sampleVolume.geometry start 2 } 6 ∧
      allocFirstFit sampleVolume 3 = some (.error ⟨.noSpc, "disk-full"⟩) ∧
      ¬ ∃ start, (tableOf sampleVolume.dir).FreeRange 8 sampleVolume.geometry start 3 := by
  have shape : sampleVolume.geometry.Valid 8 := (geometryError_iff (by decide)).mp (by decide)
  have valid : (tableOf sampleVolume.dir).Valid sampleVolume.dirSlots sampleVolume.geometry :=
    (directoryError_iff shape (by decide)).mp (by decide +kernel)
  have two : allocFirstFit sampleVolume 2 = some (.ok 6) := by decide +kernel
  have three : allocFirstFit sampleVolume 3 = some (.error ⟨.noSpc, "disk-full"⟩) := by decide +kernel
  obtain ⟨_, called, least, _⟩ := @allocFirstFit_exact _ _ 2 valid shape (by decide) (by decide)
  obtain ⟨_, refused, _, full, _⟩ := @allocFirstFit_exact _ _ 3 valid shape (by decide) (by decide)
  rw [two] at called
  rw [three] at refused
  cases called
  cases refused
  exact ⟨two, (least 6).mp rfl, three, full.mp ⟨_, rfl⟩⟩

end Rynor.Fs
