import Rynor.Proofs.FsMount

/-! Directory writes: the entries the operations compose, as records, and what
`dir_write_slot` does to the RAM copy and to the disk. -/

namespace Rynor.Fs
open ByteMemory Blk Bool List
variable {entry : ByteMemory} {offset value length slot : Nat} {record : Record} {fs : Volume}

lemma decodeEntry_zero : decodeEntry (fun _ => 0) = none := by
  rw [decodeEntry_none, entryFree_iff]
  exact fun _ _ => rfl

/-- A name that fits an entry and that path resolution can produce. -/
structure KeyValid (key : List UInt8) : Prop where
  nonempty : key ≠ []
  short : key.length ≤ maxName
  printable : ∀ byte ∈ key, Printable byte
  components : GoodComponents key

lemma PathShape.keyValid (shape : PathShape path len) (long : len ≠ 1) : KeyValid (pathKey path len) := by
  have positive := shape.positive
  have bounded := shape.bounded
  simp only [maxPath] at bounded
  refine ⟨?_, ?_, ?_, ?_⟩
  · rw [pathKey, ne_eq, slice_isNil]
    omega
  · simp only [pathKey, slice_length, maxName]
    omega
  · intro byte member
    obtain ⟨index, inside, rfl⟩ := mem_slice.mp member
    exact shape.printable _ (by omega) (by omega)
  · rcases shape.components with one | good
    · exact absurd one long
    · exact good

/-- The record of a freshly created file. -/
def newRecord (key : List UInt8) : Record := ⟨key, typeFile, List.replicate 7 0, 0, 0, 0⟩

lemma decodeEntry_newEntry (valid : KeyValid key) : decodeEntry (newEntry key) = some (newRecord key) := by
  have short := valid.short
  simp only [maxName] at short
  have nonempty : 0 < key.length := length_pos_iff.mpr valid.nonempty
  have nameByte : ∀ index, (inside : index < key.length) → newEntry key index = key[index] := by
    intro index inside
    rw [newEntry, overlay_outside (by omega), overlay_inside (Nat.zero_le _) (by omega)]
    simp [ofList, inside]
  have typeByte : newEntry key 32 = typeFile := by
    rw [newEntry, overlay_inside (by omega) (by omega)]
  have clear : ∀ index, key.length ≤ index → index ≠ 32 → newEntry key index = 0 := by
    intro index past other
    rw [newEntry, overlay_outside (by omega), overlay_outside (by omega)]
  have named : Named (newEntry key) key.length := by
    refine ⟨nonempty, short, ?_, fun index low high => clear index low (by omega)⟩
    intro index inside
    rw [nameByte index inside]
    exact valid.printable _ (getElem_mem inside)
  have name : entryName (newEntry key) = key := by
    rw [entryName, named.nameLen]
    apply ext_getElem (by simp)
    intro index inside _
    rw [slice_getElem, Nat.zero_add]
    exact nameByte index (by simpa using inside)
  have live : entryFree (newEntry key) = false := by
    rw [← not_eq_true, entryFree_iff]
    intro zero
    exact absurd (typeByte.symm.trans (zero 32 (by decide))) (by decide)
  have reserved : (newEntry key).slice 33 7 = List.replicate 7 0 :=
    slice_clear_iff.mpr fun index low high => clear index (by omega) (by omega)
  have word : ∀ offset, 40 ≤ offset → rd64le ((newEntry key).shift offset) = 0 :=
    fun offset low => littleEndian_zero fun index inside => clear _ (by omega) (by omega)
  simp only [decodeEntry, live, false_eq_true, if_false, name, reserved, entryType, typeByte, entryFirst, entryCount,
    entryLength, word 40 (by omega), word 48 (by omega), word 56 (by omega), newRecord]

lemma rd64le_wr64le_same (fits : value < u64) : rd64le ((wr64le entry offset value).shift offset) = value := by
  have bytes : rd64le ((wr64le entry offset value).shift offset) = littleEndian (ofNat value) 8 :=
    littleEndian_congr fun index inside => by
      rw [shift_apply, wr64le, overlay_inside (by omega) (by omega)]
      exact congrArg _ (by omega)
  rw [bytes, littleEndian_ofNat_of_lt]
  exact Nat.lt_of_lt_of_eq fits (by decide)

lemma rd64le_wr64le_other (apart : other + 8 ≤ offset ∨ offset + 8 ≤ other) :
    rd64le ((wr64le entry offset value).shift other) = rd64le (entry.shift other) :=
  littleEndian_congr fun index inside => by
    rw [shift_apply, wr64le, overlay_outside (by omega), shift_apply]

/-- A write at 40 or later keeps the name, the type and the reserved bytes of a file entry. -/
private lemma decodeEntry_tail (other : ByteMemory) (decoded : decodeEntry entry = some record)
    (file : record.type = typeFile) (same : ∀ index, index < 40 → other index = entry index) :
    decodeEntry other = some { record with first := entryFirst other, count := entryCount other, length := entryLength other } := by
  obtain ⟨_, name, type, reserved, _⟩ := decodeEntry_some decoded
  have length : nameLen other = nameLen entry := nameLen_congr fun index inside => same index (by omega)
  have bounded : nameLen entry ≤ 31 := by
    by_cases zero : nameLen entry = 0
    · omega
    · exact (nameLen_named zero).bounded
  have name' : entryName other = record.name := by
    rw [← name, entryName, entryName, length]
    exact slice_congr fun index inside => same _ (by omega)
  have type' : entryType other = record.type := by
    rw [← type]
    exact same 32 (by omega)
  have reserved' : other.slice 33 7 = record.reserved := by
    rw [← reserved]
    exact slice_congr fun index inside => same _ (by omega)
  have live : entryFree other = false := by
    rw [← not_eq_true, entryFree_iff]
    intro zero
    have blank : entryType other = 0 := zero 32 (by decide)
    rw [type', file] at blank
    exact absurd blank (by decide)
  simp only [decodeEntry, live, false_eq_true, if_false, name', type', reserved']

section
variable (decoded : decodeEntry entry = some record) (file : record.type = typeFile)
include decoded file

lemma decodeEntry_switched {first count} (firstFits : first < u64) (countFits : count < u64)
    (lengthFits : length < u64) :
    decodeEntry (switchedEntry entry first count length) = some { record with first, count, length } := by
  have tail := decodeEntry_tail (switchedEntry entry first count length) decoded file fun index inside => by
    simp only [switchedEntry, wr64le]
    rw [overlay_outside (by omega), overlay_outside (by omega), overlay_outside (by omega)]
  have firstWord : entryFirst (switchedEntry entry first count length) = first := by
    rw [entryFirst, switchedEntry, rd64le_wr64le_other (by omega), rd64le_wr64le_other (by omega),
      rd64le_wr64le_same firstFits]
  have countWord : entryCount (switchedEntry entry first count length) = count := by
    rw [entryCount, switchedEntry, rd64le_wr64le_other (by omega), rd64le_wr64le_same countFits]
  have lengthWord : entryLength (switchedEntry entry first count length) = length := by
    rw [entryLength, switchedEntry, rd64le_wr64le_same lengthFits]
  rw [tail, firstWord, countWord, lengthWord]

lemma decodeEntry_grown (fits : length < u64) : decodeEntry (wr64le entry 56 length) = some { record with length } := by
  obtain ⟨_, _, _, _, first, count, _⟩ := decodeEntry_some decoded
  have tail := decodeEntry_tail (wr64le entry 56 length) decoded file fun index inside => by
    rw [wr64le, overlay_outside (by omega)]
  have firstWord : entryFirst (wr64le entry 56 length) = record.first := by
    rw [← first, entryFirst, rd64le_wr64le_other (by omega), entryFirst]
  have countWord : entryCount (wr64le entry 56 length) = record.count := by
    rw [← count, entryCount, rd64le_wr64le_other (by omega), entryCount]
  have lengthWord : entryLength (wr64le entry 56 length) = length := by
    rw [entryLength, rd64le_wr64le_same fits]
  rw [tail, firstWord, countWord, lengthWord]

end

/-! The slot write. -/

lemma Volume.Mounted.stored {blk stores} (mounted : fs.Mounted) (wrote : Wrote fs.dev stores fs.blk blk) :
    Volume.Mounted { fs with blk } := by
  refine ⟨mounted.on, mounted.authorized, mounted.usable.kept wrote, ?_, mounted.slots, mounted.table, mounted.handles⟩
  simp only [wrote.device]
  exact mounted.shape

/-- The sector of the directory that holds a slot, and what `dir_write_slot` makes of it. -/
def slotSector (fs : Volume) (slot : Nat) : Nat := fs.geometry.dirStart + slot / dirEntriesPerBlock

def slotBytes (fs : Volume) (slot : Nat) (entry : ByteMemory) : ByteMemory :=
  ((fs.blk.devices fs.dev).disk.shift (512 * slotSector fs slot)).overlay (slot % dirEntriesPerBlock * entrySize)
    entrySize entry

/-- A slot write either succeeds, on the disk and then in RAM, or fails and leaves RAM alone.
Only an ambiguous outcome fails with the sector stored. -/
structure SlotWritten (drive : Drive) (fs : Volume) (slot : Nat) (entry : ByteMemory) (result : FsResult)
    (after : Volume) : Prop where
  rest : ∃ stage, after = { fs with blk := after.blk, dir := after.dir, stage }
  outcome : (result = .ok ∧ after.dir = fs.dir.overlay (slot * entrySize) entrySize entry ∧
      Wrote fs.dev [(slotSector fs slot, slotBytes fs slot entry)] fs.blk after.blk) ∨
    (result = .ioErr ∧ after.dir = fs.dir ∧ Wrote fs.dev [] fs.blk after.blk) ∨
    (result = .ioErr ∧ after.dir = fs.dir ∧ ¬ drive.Clean ∧
      Wrote fs.dev [(slotSector fs slot, slotBytes fs slot entry)] fs.blk after.blk)
  works : drive.Works → result = .ok

lemma Volume.Mounted.slot_sector (mounted : fs.Mounted) (inside : slot < fs.dirSlots) :
    fs.geometry.dirStart ≤ slotSector fs slot ∧ slotSector fs slot < fs.geometry.dirStart + fs.geometry.dirBlocks := by
  rw [mounted.slots] at inside
  simp only [Geometry.slots, dirEntriesPerBlock] at inside
  simp only [slotSector, dirEntriesPerBlock]
  omega

lemma Volume.Mounted.small (mounted : fs.Mounted) : fs.geometry.total ≤ lba28Max :=
  le_trans mounted.shape.total_le (fs.blk.devices fs.dev).addressable

lemma dirWriteSlot_spec {drive after result}
    (mounted : fs.Mounted) (inside : slot < fs.dirSlots) (called : dirWriteSlot drive fs slot entry = (result, after)) :
    SlotWritten drive fs slot entry result after := by
  have limit : lba28Max < u64 := by decide
  have small := mounted.small
  have bound := mounted.slot_sector inside
  have room := mounted.shape.dir_inside
  have sector : (fs.geometry.dirStart + slot / dirEntriesPerBlock) % u64 = slotSector fs slot :=
    Nat.mod_eq_of_lt (by simp only [slotSector] at bound; omega)
  simp only [dirWriteSlot, sector] at called
  rw [if_neg (by omega)] at called
  rcases fetched : blkRead drive fs.blk fs.dev (slotSector fs slot) 1 staticAddress 512 with ⟨code, reply⟩
  obtain ⟨scratch, loaded⟩ := reply
  obtain ⟨same, holds, succeeds⟩ := blkRead_spec fetched
  have devices := Wrote.none_iff.mp same
  have serves : fs.blk.Serves fs.dev (slotSector fs slot) 1 :=
    mounted.usable.serves (by decide) (by decide) (by omega)
  rw [fetched] at called
  split at called
  next outcome =>
    cases outcome
    have bytes : scratch.overlay (slot % dirEntriesPerBlock * entrySize) entrySize entry = slotBytes fs slot entry := by
      rw [holds rfl]
      rfl
    simp only [bytes] at called
    rcases written : dataWrite drive loaded fs.dev (slotSector fs slot) (slotBytes fs slot entry) with ⟨code', blk⟩
    obtain ⟨outcome, finishes⟩ := dataWrite_spec written
    have whole : ∀ {stores}, Wrote fs.dev stores loaded blk → Wrote fs.dev stores fs.blk blk := by
      intro stores wrote
      simpa only [Wrote, devices] using wrote
    have works : drive.Works → code' = .ok := fun works =>
      finishes (same.serves serves) (by rw [devices]; exact mounted.usable.writable) works.stores
    rw [written] at called
    rcases outcome with ⟨rfl, done⟩ | ⟨rfl, lost⟩ | ⟨rfl, unclean, ambiguous⟩
    · cases called
      exact ⟨⟨_, rfl⟩, .inl ⟨rfl, rfl, whole done⟩, fun _ => rfl⟩
    · cases called
      exact ⟨⟨_, rfl⟩, .inr (.inl ⟨rfl, rfl, whole lost⟩), works⟩
    · cases called
      exact ⟨⟨_, rfl⟩, .inr (.inr ⟨rfl, rfl, unclean, whole ambiguous⟩), works⟩
  next failed outcome =>
  cases outcome
  cases called
  exact ⟨⟨_, rfl⟩, .inr (.inl ⟨rfl, rfl, same⟩),
    fun works => absurd (succeeds serves (by decide) rfl works.reads) failed⟩

/-- On the disk a slot write replaces the same 64 bytes as in RAM. -/
lemma slotBytes_store (fs : Volume) (slot : Nat) (entry : ByteMemory) :
    store sectorSize (fs.blk.devices fs.dev).disk (slotSector fs slot) (slotBytes fs slot entry) =
      (fs.blk.devices fs.dev).disk.overlay (512 * fs.geometry.dirStart + slot * entrySize) entrySize entry := by
  have inside : slot % dirEntriesPerBlock < dirEntriesPerBlock := Nat.mod_lt _ (by decide)
  simp only [dirEntriesPerBlock] at inside
  rw [slotBytes, show sectorSize = 512 from rfl,
    store_overlay _ _ _ _ _ (by simp only [dirEntriesPerBlock, entrySize]; omega)]
  congr 1
  simp only [slotSector, dirEntriesPerBlock, entrySize]
  omega

lemma diskDir_overlay (disk entry : ByteMemory) (geometry : Geometry) (slot : Nat) :
    diskDir (disk.overlay (512 * geometry.dirStart + slot * entrySize) entrySize entry) geometry =
      (diskDir disk geometry).overlay (slot * entrySize) entrySize entry := by
  funext index
  simp only [diskDir, shift_apply]
  by_cases inside : slot * entrySize ≤ index ∧ index < slot * entrySize + entrySize
  · rw [overlay_inside (by omega) (by omega), overlay_inside inside.1 inside.2]
    exact congrArg _ (by omega)
  · rw [overlay_outside (by omega), overlay_outside (by omega), shift_apply]

end Rynor.Fs
