import Rynor.Host.FsOutput
import Rynor.Proofs.FsMount

/-! The host decoder accepts the images `fs_mount` accepts and finds the same entries in
them. Both sides come down to `Mountable`. -/

namespace Rynor.FsOutput
open ByteMemory PackedBytes Fs List Checks
variable {start : Nat}

def FsImage.shape (fs : FsImage) : Geometry := ⟨fs.total, fs.dirStart, fs.dirBlocks, fs.dataStart, fs.dataBlocks⟩

def FsEntry.ofRecord (record : Record) : FsEntry :=
  ⟨record.name, record.type, record.first, record.count, record.length⟩

/-! The superblock. -/

lemma anyByte_slice {memory : ByteMemory} {count : Nat} :
    anyByte (memory.slice start count) = false ↔ ∀ index, start ≤ index → index < start + count → memory index = 0 := by
  rw [← slice_clear_iff, eq_replicate_iff]
  simp only [anyByte, List.any_eq_false, bne_iff_ne, ne_eq, Decidable.not_not, slice_length, true_and]

section
variable {image : List UInt8}

lemma unpack_image (width : Nat) (fits : start + width ≤ image.length) :
    unpack (PackedBytes.window image start (start + width)) = littleEndian ((ofList image).shift start) width := by
  rw [window_eq_slice (by omega) fits, unpack_slice, Nat.add_sub_cancel_left]

lemma geometry_shape (long : 512 ≤ image.length) : (geometry image).shape = sbGeometry (ofList image) := by
  have word : ∀ start, start + 8 ≤ 512 → rd64le ((ofList image).shift start) =
    unpack (PackedBytes.window image start (start + 8)) :=
    fun start fits => (unpack_image 8 (by omega)).symm
  simp only [sbGeometry, word 16 (by omega), word 24 (by omega), word 32 (by omega), word 40 (by omega),
    word 48 (by omega)]
  rfl

lemma checkHeader_iff (long : 512 ≤ image.length) (aligned : image.length % 512 = 0) :
    checkHeader image = none ↔ HeaderValid (ofList image) := by
  have size : ¬ (image.length < block ∨ image.length % block ≠ 0) := by
    simp only [block]
    omega
  have start : PackedBytes.window image 0 8 = (ofList image).slice 0 8 := window_eq_slice (by omega) (by omega)
  have padding : anyByte (PackedBytes.window image 64 block) = false ↔ ∀ index, 64 ≤ index → index < 512 →
    ofList image index = 0 := by
    rw [window_eq_slice (show 64 ≤ block by decide) (show block ≤ image.length from long), anyByte_slice]
    rfl
  have version : unpack (PackedBytes.window image 8 12) = rd32le ((ofList image).shift 8) := unpack_image 4 (by omega)
  have blockSize : unpack (PackedBytes.window image 12 16) = rd32le ((ofList image).shift 12) :=
    unpack_image 4 (by omega)
  have reserved : unpack (PackedBytes.window image 56 64) = rd64le ((ofList image).shift 56) :=
    unpack_image 8 (by omega)
  rw [checkHeader, if_neg size]
  simp only [none_iff, start, version, blockSize, reserved, ne_eq, Decidable.not_not, Bool.not_eq_true, padding,
    and_true]
  constructor
  · intro ⟨found, version, blockSize, reserved, clear⟩
    exact ⟨found, version, blockSize, reserved, clear⟩
  · intro ⟨found, version, blockSize, reserved, clear⟩
    exact ⟨found, version, blockSize, reserved, clear⟩

lemma checkRegion_none {total count label} :
    checkRegion total (label, start, count) = none ↔ 0 < count ∧ start + count ≤ total ∧ 0 < start := by
  simp only [checkRegion, none_iff, and_true]
  omega

lemma checkApart_none : checkApart ((a, na), (b, nb)) = none ↔ b + nb ≤ a ∨ a + na ≤ b := by
  simp only [checkApart, none_iff, and_true]
  omega

lemma checkGeometry_iff {capacity fs} : checkGeometry capacity fs = none ↔ fs.shape.Valid capacity := by
  simp only [checkGeometry, none_iff, Option.or_eq_none_iff, findSome?_eq_none_iff, mem_cons,
    not_mem_nil, or_false, forall_eq_or_imp, forall_eq, checkRegion_none, checkApart_none]
  have limit : maxDirBlocks = Fs.maxDirBlocks := rfl
  constructor
  · intro ⟨total, _, dirBig, ⟨dir, data⟩, _, _, _, apart⟩
    exact ⟨Nat.pos_of_ne_zero fun zero => total (.inl zero), not_lt.mp fun beyond => total (.inr beyond), dir.1,
      not_lt.mp dirBig, dir.2.2, dir.2.1, data.1, data.2.2, data.2.1, apart.symm⟩
  · intro ⟨totalPos, totalLe, dirPos, dirLe, dirStart, dirInside, dataPos, dataStart, dataInside, apart⟩
    simp only [FsImage.shape] at *
    omega

end

/-! One record. -/

section
variable {entry : ByteMemory}
variable {nul count : Nat} {fs : FsImage} {found : Option FsEntry}

lemma anyByte_entry : anyByte (entry.slice 0 64) = false ↔ entryFree entry = true := by
  rw [anyByte_slice, entryFree_iff]
  simp only [Nat.zero_le, true_implies, Nat.zero_add, entrySize]

lemma findIdx_slice : (entry.slice 0 64).findIdx? (· == 0) = some nul ↔ nul < 64 ∧ entry nul = 0 ∧
    ∀ index, index < nul → entry index ≠ 0 := by
  rw [findIdx?_eq_some_iff_getElem]
  simp only [slice, zero_add, length_map, length_range, getElem_map, getElem_range, beq_iff_eq, exists_prop]

lemma scanned_of_named (named : Named entry nul) : (entry.slice 0 64).findIdx? (· == 0) = some nul := by
  have bounded := named.bounded
  simp only [maxName] at bounded
  exact findIdx_slice.mpr ⟨by omega, named.padded nul le_rfl (by omega),
    fun index before => printable_ne_zero (named.printable index before)⟩

lemma printable_slice :
    ((entry.slice 0 count).any fun c => !(decide (0x20 ≤ c) && decide (c ≤ 0x7e))) = false ↔ ∀ index, index < count →
    Printable (entry index) := by
  simp only [List.any_eq_false, Bool.not_eq_true', Bool.and_eq_false_iff, decide_eq_false_iff_not, not_or,
    Decidable.not_not]
  constructor
  · intro clear index inside
    have byte := clear _ (mem_slice.mpr ⟨index, inside, rfl⟩)
    rwa [zero_add] at byte
  · intro printable byte member
    obtain ⟨index, inside, rfl⟩ := mem_slice.mp member
    rw [zero_add]
    exact printable index inside

/-- The name checks of the loop, the zero byte being the first. -/
lemma named_iff (scanned : (entry.slice 0 64).findIdx? (· == 0) = some nul) :
    (¬ (nul = 0 ∨ nul > 31) ∧ ¬ (entry.slice 0 nul).any (· ≥ 0x80) ∧
      ¬ ((entry.slice 0 nul).any fun c => !(decide (0x20 ≤ c) && decide (c ≤ 0x7e))) ∧
      ¬ anyByte (PackedBytes.window (entry.slice 0 64) (nul + 1) 32)) ↔ Named entry nul := by
  simp only [Bool.not_eq_true, printable_slice]
  constructor
  · rintro ⟨range, _, printable, padding⟩
    rw [window_slice (by omega) (by omega), anyByte_slice] at padding
    refine ⟨by omega, by simp only [maxName]; omega, printable, fun index low high => ?_⟩
    rcases eq_or_lt_of_le low with rfl | later
    · exact (findIdx_slice.mp scanned).2.1
    · exact padding index (by omega) (by omega)
  rintro ⟨positive, bounded, printable, padded⟩
  simp only [maxName] at bounded
  refine ⟨by omega, ?_, printable, ?_⟩
  · rw [List.any_eq_false]
    intro byte member high
    obtain ⟨index, inside, rfl⟩ := mem_slice.mp member
    rw [zero_add] at high
    have small := (printable index inside).2
    simp only [ge_iff_le, decide_eq_true_eq, UInt8.le_iff_toNat_le] at high small
    exact absurd (le_trans high small) (by decide)
  · rw [window_slice (by omega) (by omega), anyByte_slice]
    exact fun index low high => padded index (by omega) (by omega)

lemma badPart_iff : (name.splitOn slash).any badPart = false ↔ GoodComponents name := by
  simp only [List.any_eq_false, GoodComponents, GoodComponent, badPart, Bool.or_eq_true, List.isEmpty_iff,
    beq_iff_eq, not_or]
  rfl

lemma checkExtent_iff {ftype first length} :
    (¬ (ftype ≠ 1 ∧ ftype ≠ 2) ∧ checkExtent fs ftype first count length = none) ↔
      (ftype = typeFile ∧ ExtentValid fs.shape first count length) ∨
      (ftype = typeDir ∧ first = 0 ∧ count = 0 ∧ length = 0) := by
  have file : checkExtent fs 1 first count length = none ↔ ExtentValid fs.shape first count length := by
    rw [checkExtent, if_neg (by decide)]
    have size : block = 512 := rfl
    simp only [ExtentValid, FsImage.shape]
    split
    · simp only [none_iff, and_true]
      omega
    · simp only [none_iff, and_true, size]
      omega
  have dir : checkExtent fs 2 first count length = none ↔ first = 0 ∧ count = 0 ∧ length = 0 := by
    rw [checkExtent, if_pos rfl]
    simp only [none_iff, and_true]
    omega
  simp only [typeFile, typeDir, not_and_or, Decidable.not_not]
  constructor
  · rintro ⟨rfl | rfl, passed⟩
    · exact .inl ⟨rfl, file.mp passed⟩
    · exact .inr ⟨rfl, dir.mp passed⟩
  · rintro (⟨rfl, extent⟩ | ⟨rfl, blank⟩)
    · exact ⟨.inl rfl, file.mpr extent⟩
    · exact ⟨.inr rfl, dir.mpr blank⟩

lemma unpack_entry (fits : start + 8 ≤ 64) :
    unpack (PackedBytes.window (entry.slice 0 64) start (start + 8)) = rd64le (entry.shift start) := by
  rw [window_slice (by omega) (by omega), unpack_slice, zero_add, Nat.add_sub_cancel_left]
  rfl

lemma anyReserved_iff :
    anyByte (PackedBytes.window (entry.slice 0 64) 33 40) = false ↔ entry.slice 33 7 = List.replicate 7 0 := by
  rw [window_slice (by omega) (by omega), anyByte_slice, slice_clear_iff]

lemma decodeRecord_live {record} (decoded : decodeEntry entry = some record) :
    decodeRecord fs (entry.slice 0 64) = .ok found ↔ record.Valid fs.shape ∧ found = some (.ofRecord record) := by
  obtain ⟨live, name, type, reserved, first, count, length⟩ := decodeEntry_some decoded
  have nonzero : anyByte (entry.slice 0 64) = true := by
    rw [← Bool.not_eq_false, anyByte_entry, live]
    simp
  rw [decodeRecord, if_neg (by rw [nonzero]; simp)]
  cases scanned : (entry.slice 0 64).findIdx? (· == 0) with
  | none =>
    refine ⟨(by simp), fun described => ?_⟩
    have valid := described.1
    have named : Named entry (nameLen entry) := nameLen_named fun zero =>
      valid.named (by rw [← name]; simp [entryName, zero])
    rw [scanned_of_named named] at scanned
    cases scanned
  | some nul =>
    have inside := (findIdx_slice.mp scanned).1
    have byte : (entry.slice 0 64).getD 32 0 = record.type := by
      rw [← type]
      simp [slice, entryType]
    have words : unpack (PackedBytes.window (entry.slice 0 64) 40 48) = record.first ∧
        unpack (PackedBytes.window (entry.slice 0 64) 48 56) = record.count ∧
          unpack (PackedBytes.window (entry.slice 0 64) 56 64) = record.length := by
      rw [← first, ← count, ← length]
      exact ⟨unpack_entry (by omega), unpack_entry (by omega), unpack_entry (by omega)⟩
    simp only [slice_take _ _ _ _ (le_of_lt inside), ok_iff, raise_ok_iff, byte, words]
    constructor
    · rintro ⟨range, ascii, printable, parts, padding, kind, clear, extent, same⟩
      have named : Named entry nul := (named_iff scanned).mp ⟨range, ascii, printable, padding⟩
      have text : record.name = entry.slice 0 nul := by rw [← name, entryName, named.nameLen]
      cases same
      refine ⟨⟨?_, ?_, ?_, checkExtent_iff.mp ⟨kind, extent⟩⟩, by rw [← text]; rfl⟩
      · rw [text, ne_eq, slice_isNil]
        exact Nat.pos_iff_ne_zero.mp named.positive
      · rw [text]
        exact badPart_iff.mp (Bool.not_eq_true _ ▸ parts)
      · rw [← reserved]
        exact anyReserved_iff.mp (Bool.not_eq_true _ ▸ clear)
    rintro ⟨valid, same⟩
    have named : Named entry (nameLen entry) := nameLen_named fun zero =>
      valid.named (by rw [← name]; simp [entryName, zero])
    cases (scanned_of_named named).symm.trans scanned
    have text : record.name = entry.slice 0 (nameLen entry) := name.symm
    obtain ⟨range, ascii, printable, padding⟩ := (named_iff scanned).mpr named
    obtain ⟨kind, extent⟩ := checkExtent_iff.mpr valid.kind
    refine ⟨range, ascii, printable, ?_, padding, kind, ?_, extent, by rw [same, ← text]; rfl⟩
    · rw [← text, Bool.not_eq_true]
      exact badPart_iff.mpr valid.components
    · rw [Bool.not_eq_true]
      exact anyReserved_iff.mpr (reserved ▸ valid.reserved)

lemma decodeRecord_iff : decodeRecord fs (entry.slice 0 64) = .ok found ↔
      (∀ record, decodeEntry entry = some record → record.Valid fs.shape) ∧ found =
      (decodeEntry entry).map .ofRecord := by
  cases decoded : decodeEntry entry with
  | none =>
    rw [decodeRecord, anyByte_entry.mpr (decodeEntry_none.mp decoded)]
    exact ⟨fun called => ⟨nofun, (Except.ok.inj called).symm⟩, fun ⟨_, same⟩ => by rw [same]; rfl⟩
  | some record =>
    rw [decodeRecord_live decoded]
    simp only [Option.some.injEq, forall_eq', Option.map_some]

end

/-! The directory. -/

/-- The entries a table holds in its first slots, in slot order. -/
def described (table : Table) (slots : Nat) : List FsEntry :=
  (List.range slots).filterMap fun slot => (table slot).map .ofRecord

lemma mem_described : entry ∈ described table slots ↔ ∃ slot record, slot < slots ∧ table slot = some record ∧
    .ofRecord record = entry := by
  simp only [described, mem_filterMap, mem_range, Option.map_eq_some_iff]
  constructor
  · intro ⟨slot, inside, record, held, same⟩
    exact ⟨slot, record, inside, held, same⟩
  · intro ⟨slot, record, inside, held, same⟩
    exact ⟨slot, inside, record, held, same⟩

lemma described_succ (table : Table) (slots : Nat) :
    described table (slots + 1) = described table slots ++ ((table slots).map FsEntry.ofRecord).toList := by
  rw [described, range_succ, filterMap_append]
  cases held : table slots <;> simp [described, held]

section
variable {image : List UInt8} {fs : FsImage}

/-- The table in the directory blocks of an image. -/
def imageTable (image : List UInt8) (fs : FsImage) : Table := tableOf (diskDir (ofList image) fs.shape)

section
variable (shape : fs.shape.Valid (image.length / 512))
include shape

lemma slot_window (inside : slot < fs.dirBlocks * 8) :
    PackedBytes.window image ((fs.dirStart + slot / 8) * block + slot % 8 * 64)
    ((fs.dirStart + slot / 8) * block + slot % 8 * 64 + 64) =
      (entryAt (diskDir (ofList image) fs.shape) slot).slice 0 64 := by
  have total := shape.total_le
  have dir := shape.dir_inside
  simp only [FsImage.shape] at total dir
  have place : (fs.dirStart + slot / 8) * block + slot % 8 * 64 = 512 * fs.dirStart + slot * 64 := by
    simp only [block]
    omega
  rw [place, window_eq_slice (by omega) (by omega), Nat.add_sub_cancel_left, entryAt, diskDir, slice_shift, slice_shift]
  rfl

lemma decodeSlot_iff {slot} (inside : slot < fs.dirBlocks * 8) {entries after} :
    decodeSlot image fs entries slot = .ok after ↔ (∀ record, imageTable image fs slot = some record →
        record.Valid fs.shape ∧ ∀ entry ∈ entries, entry.name ≠ record.name) ∧
      after = entries ++ ((imageTable image fs slot).map FsEntry.ofRecord).toList := by
  have read : ∀ found, decodeRecord fs ((entryAt (diskDir (ofList image) fs.shape) slot).slice 0 64) = .ok found ↔
      (∀ record, imageTable image fs slot = some record → record.Valid fs.shape) ∧
        found = (imageTable image fs slot).map .ofRecord := fun found => decodeRecord_iff
  simp only [decodeSlot, bind_ok_iff, slot_window shape inside, read]
  cases imageTable image fs slot with
  | none =>
    simp only [Option.map_none, Option.toList_none, append_nil]
    constructor
    · rintro ⟨_, ⟨_, rfl⟩, called⟩
      exact ⟨nofun, (Except.ok.inj called).symm⟩
    · intro ⟨_, same⟩
      exact ⟨none, ⟨nofun, rfl⟩, by rw [same]; rfl⟩
  | some record =>
    simp only [Option.map_some, Option.toList_some, Option.some.injEq, forall_eq']
    constructor
    · rintro ⟨_, ⟨valid, rfl⟩, called⟩
      obtain ⟨fresh, same⟩ := ok_iff.mp called
      simp only [any_eq_true, beq_iff_eq, not_exists, not_and] at fresh
      exact ⟨⟨valid, fresh⟩, (Except.ok.inj same).symm⟩
    · rintro ⟨⟨valid, fresh⟩, rfl⟩
      refine ⟨_, ⟨valid, rfl⟩, ok_iff.mpr ⟨?_, rfl⟩⟩
      simp only [any_eq_true, beq_iff_eq, not_exists, not_and]
      exact fresh

lemma decodeSlots_iff (inside : slots ≤ fs.dirBlocks * 8) :
    (List.range slots).foldlM (decodeSlot image fs) [] = .ok entries ↔
      (∀ slot record, slot < slots → imageTable image fs slot = some record → record.Valid fs.shape) ∧
      (∀ a b one two, a < slots → b < slots → imageTable image fs a = some one → imageTable image fs b = some two →
        one.name = two.name → a = b) ∧
      entries = described (imageTable image fs) slots := by
  induction slots generalizing entries with
  | zero =>
    constructor
    · intro called
      exact ⟨nofun, nofun, (Except.ok.inj called).symm⟩
    · rintro ⟨_, _, rfl⟩
      rfl
  | succ slots ih =>
    simp only [range_succ, foldlM_append, bind_ok_iff, ih (by omega), foldlM_cons, foldlM_nil,
      decodeSlot_iff shape (show slots < fs.dirBlocks * 8 by omega), described_succ]
    constructor
    · rintro ⟨_, ⟨records, unique, rfl⟩, after, ⟨last, rfl⟩, result⟩
      refine ⟨fun slot record low held => ?_, fun a b one two lowA lowB heldA heldB same => ?_,
        (Except.ok.inj result).symm⟩
      · rcases Nat.lt_succ_iff_lt_or_eq.mp low with earlier | rfl
        · exact records slot record earlier held
        · exact (last record held).1
      have fresh : ∀ {slot record other}, slot < slots → imageTable image fs slot = some other →
          imageTable image fs slots = some record → other.name ≠ record.name := fun low held newest =>
        (last _ newest).2 _ (mem_described.mpr ⟨_, _, low, held, rfl⟩)
      rcases Nat.lt_succ_iff_lt_or_eq.mp lowA with earlierA | rfl <;>
        rcases Nat.lt_succ_iff_lt_or_eq.mp lowB with earlierB | rfl
      · exact unique a b one two earlierA earlierB heldA heldB same
      · exact absurd same (fresh earlierA heldA heldB)
      · exact absurd same.symm (fresh earlierB heldB heldA)
      · rfl
    rintro ⟨records, unique, rfl⟩
    refine ⟨_, ⟨fun slot record low => records slot record (by omega), fun a b one two lowA lowB =>
      unique a b one two (by omega) (by omega), rfl⟩, _,
      ⟨fun record held => ⟨records slots record (by omega) held, ?_⟩, rfl⟩, rfl⟩
    intro entry member same
    obtain ⟨slot, other, low, heldOther, rfl⟩ := mem_described.mp member
    have := unique slot slots other record (by omega) (by omega) heldOther held same
    omega

end

end

section
variable {table : Table} {slots : Nat}

lemma mem_ancestors_iff : parent ∈ ancestors name ↔ ∃ depth ∈ range' 1 ((name.splitOn slash).length - 1),
      [slash].intercalate ((name.splitOn slash).take depth) = parent := by
  rw [mem_ancestors_parts, show Fs.slash = slash from rfl]
  constructor
  · intro ⟨depth, low, high, same⟩
    exact ⟨depth, mem_range'_1.mpr ⟨low, by omega⟩, same⟩
  · intro ⟨depth, member, same⟩
    obtain ⟨low, high⟩ := mem_range'_1.mp member
    exact ⟨depth, low, by omega, same⟩

section
variable (unique : ∀ a b one two, a < slots → b < slots → table a = some one → table b = some two →
    one.name = two.name → a = b)
include unique

lemma checkHolder_iff : checkHolder (described table slots) parent = none ↔
      ∃ above holder, above < slots ∧ table above = some holder ∧ holder.name = parent ∧ holder.type = typeDir := by
  rw [checkHolder]
  cases found : (described table slots).find? (·.name == parent) with
  | none =>
    refine ⟨nofun, fun ⟨above, holder, low, held, named, _⟩ => ?_⟩
    have missing := find?_eq_none.mp found _ (mem_described.mpr ⟨above, holder, low, held, rfl⟩)
    exact absurd (beq_iff_eq.mpr named) missing
  | some entry =>
    obtain ⟨slot, record, low, held, rfl⟩ := mem_described.mp (mem_of_find?_eq_some found)
    have hit := find?_some found
    have named : record.name = parent := beq_iff_eq.mp hit
    simp only [none_iff, ne_eq, Decidable.not_not, and_true]
    constructor
    · intro dir
      exact ⟨slot, record, low, held, named, dir⟩
    · intro ⟨above, holder, lowAbove, heldAbove, sameName, dir⟩
      have same := unique above slot holder record lowAbove low heldAbove held (sameName.trans named.symm)
      rw [same, held] at heldAbove
      cases heldAbove
      exact dir

lemma checkParents_iff :
    checkParents (described table slots) = none ↔ ∀ slot record, slot < slots → table slot = some record →
      ∀ parent ∈ ancestors record.name,
        ∃ above holder, above < slots ∧ table above = some holder ∧ holder.name = parent ∧ holder.type = typeDir := by
  simp only [checkParents, findSome?_eq_none_iff, checkHolder_iff unique]
  constructor
  · intro passed slot record low held parent member
    obtain ⟨depth, inside, rfl⟩ := mem_ancestors_iff.mp member
    exact passed _ (mem_described.mpr ⟨slot, record, low, held, rfl⟩) depth inside
  · intro parents entry member depth inside
    obtain ⟨slot, record, low, held, rfl⟩ := mem_described.mp member
    exact parents slot record low held _ (mem_ancestors_iff.mpr ⟨depth, inside, rfl⟩)

end

lemma pairs_apart_iff {files : List (Nat × Nat)} :
    ((List.range files.length).findSome? fun x => (range' (x + 1) (files.length - (x + 1))).findSome? fun y =>
      checkApart (files.getD x (0, 0), files.getD y (0, 0))) = none ↔
      files.Pairwise fun a b => checkApart (a, b) = none := by
  have item : ∀ index (inside : index < files.length), files.getD index (0, 0) = files[index] := by
    intro index inside
    simp [inside]
  simp only [findSome?_eq_none_iff, pairwise_iff_getElem, mem_range, mem_range'_1]
  constructor
  · intro passed x y insideX insideY before
    have apart := passed x insideX y ⟨before, by omega⟩
    rwa [item x insideX, item y insideY] at apart
  · intro apart x insideX y ⟨before, insideY⟩
    rw [item x insideX, item y (by omega)]
    exact apart x y insideX (by omega) before

lemma described_pairwise : (described table slots).Pairwise relation ↔ ∀ a b one two, a < b → b < slots →
    table a = some one → table b = some two →
      relation (.ofRecord one) (.ofRecord two) := by
  simp only [described, pairwise_filterMap, Option.map_eq_some_iff]
  rw [pairwise_iff_getElem]
  simp only [length_range, getElem_range]
  constructor
  · intro related a b one two before inside heldA heldB
    exact related a b (by omega) inside before _ ⟨one, heldA, rfl⟩ _ ⟨two, heldB, rfl⟩
  · rintro related a b _ inside before _ ⟨one, heldA, rfl⟩ _ ⟨two, heldB, rfl⟩
    exact related a b one two before inside heldA heldB

lemma checkExtents_iff {geometry : Geometry} (records : ∀ slot record, slot < slots → table slot = some record →
      record.Valid geometry) :
    checkExtents (described table slots) = none ↔
      ∀ a b one two, a < slots → b < slots → table a = some one → table b = some two → a ≠ b → one.Apart two := by
  rw [checkExtents, pairs_apart_iff, pairwise_filterMap, described_pairwise]
  -- a directory holds no blocks, so the type test leaves out nothing
  have listed : ∀ {slot record extent}, slot < slots → table slot = some record →
      ((if (FsEntry.ofRecord record).ftype = 1 ∧ (FsEntry.ofRecord record).count ≠ 0 then
        some ((FsEntry.ofRecord record).first, (FsEntry.ofRecord record).count) else none) = some extent ↔
        record.count ≠ 0 ∧ (record.first, record.count) = extent) := by
    intro slot record extent low held
    rcases (records slot record low held).kind with ⟨file, _⟩ | ⟨dir, _, empty, _⟩
    · simp [FsEntry.ofRecord, file, typeFile]
    · simp [FsEntry.ofRecord, empty]
  constructor
  · intro passed a b one two lowA lowB heldA heldB other
    have ordered : ∀ {a b one two}, a < b → b < slots → table a = some one → table b = some two → one.Apart two := by
      intro a b one two before inside heldA heldB
      by_cases emptyA : one.count = 0
      · exact .inl emptyA
      by_cases emptyB : two.count = 0
      · exact .inr (.inl emptyB)
      have apart := passed a b one two before inside heldA heldB _ ((listed (by omega) heldA).mpr ⟨emptyA, rfl⟩) _
        ((listed inside heldB).mpr ⟨emptyB, rfl⟩)
      exact .inr (.inr (checkApart_none.mp apart).symm)
    rcases Nat.lt_or_gt_of_ne other with before | after
    · exact ordered before lowB heldA heldB
    have apart := ordered after lowA heldB heldA
    simp only [Record.Apart] at apart ⊢
    omega
  intro apart a b one two before inside heldA heldB first listedA second listedB
  obtain ⟨nonemptyA, rfl⟩ := (listed (by omega) heldA).mp listedA
  obtain ⟨nonemptyB, rfl⟩ := (listed inside heldB).mp listedB
  have disjoint := apart a b one two (by omega) inside heldA heldB (by omega)
  rw [checkApart_none]
  simp only [Record.Apart] at disjoint
  omega

end

/-- The decoder accepts what can be mounted, and lists the table. -/
lemma decode_iff {image result} (long : 512 ≤ image.length) (aligned : image.length % 512 = 0) :
    decode image = .ok result ↔ Mountable (image.length / 512) (ofList image) ∧
      result = { geometry image with entries := described (imageTable image (geometry image)) ((geometry image).dirBlocks * 8) } := by
  have same := geometry_shape long
  constructor
  · intro called
    obtain ⟨header, called⟩ := raise_ok_iff.mp called
    obtain ⟨shape, called⟩ := raise_ok_iff.mp called
    obtain ⟨entries, loop, called⟩ := bind_ok_iff.mp called
    obtain ⟨parents, called⟩ := raise_ok_iff.mp called
    obtain ⟨extents, called⟩ := raise_ok_iff.mp called
    have valid := checkGeometry_iff.mp shape
    obtain ⟨records, unique, rfl⟩ := (decodeSlots_iff valid le_rfl).mp loop
    have table : (imageTable image (geometry image)).Valid (geometry image).shape.slots (geometry image).shape :=
      ⟨records, unique, (checkParents_iff unique).mp parents, (checkExtents_iff records).mp extents⟩
    exact ⟨⟨(checkHeader_iff long aligned).mp header, same ▸ valid, same ▸ table⟩, (Except.ok.inj called).symm⟩
  rintro ⟨⟨header, shape, table⟩, rfl⟩
  rw [← same] at shape table
  have loop := (decodeSlots_iff shape le_rfl).mpr ⟨table.records, table.unique, rfl⟩
  exact raise_ok_iff.mpr ⟨(checkHeader_iff long aligned).mpr header, raise_ok_iff.mpr ⟨checkGeometry_iff.mpr shape,
    bind_ok_iff.mpr ⟨_, loop,
      raise_ok_iff.mpr ⟨(checkParents_iff table.unique).mpr table.parents,
        raise_ok_iff.mpr ⟨(checkExtents_iff table.records).mpr table.apart, rfl⟩⟩⟩⟩⟩

/-- The kernel and the host decoder accept the same images, and find the same geometry and
the same entries in the same order. -/
theorem mount_iff_decode {drive : Blk.Drive} {fs : Volume} {dev : Nat} {image : List UInt8}
    (reads : ∀ command, drive.readFails command = false)
    (granted : fs.writableAuthorized = true → fs.dev < Blk.maxDevices ∧ (fs.blk.devices fs.dev).present = true)
    (known : dev < Blk.maxDevices) (present : (fs.blk.devices dev).present = true)
    (disk : (fs.blk.devices dev).disk = ofList image) (positive : 0 < image.length)
    (size : image.length = 512 * (fs.blk.devices dev).blockCount) :
    ((∃ after, fsMount drive fs dev = some (.ok, after)) ↔ ∃ result, decode image = .ok result) ∧
      ∀ after result, fsMount drive fs dev = some (.ok, after) → decode image = .ok result →
        after.geometry = result.shape ∧ described (tableOf after.dir) after.dirSlots = result.entries := by
  have decodes := fun {result} => @decode_iff image result (by omega) (by omega)
  have blocks : image.length / 512 = (fs.blk.devices dev).blockCount := by omega
  rw [blocks, ← disk] at decodes
  refine ⟨⟨fun ⟨after, mounted⟩ => ⟨_, decodes.mpr ⟨(fsMount_ok mounted).1, rfl⟩⟩, fun ⟨result, decoded⟩ => ?_⟩, ?_⟩
  · obtain ⟨mountable, _⟩ := decodes.mp decoded
    obtain ⟨cleared, revoked⟩ := @revoke_succeeds { fs with stage := "none" } granted
    obtain ⟨after, mounted, _⟩ := fsMount_accepts reads revoked known present mountable
    exact ⟨after, mounted⟩
  intro after result mounted decoded
  obtain ⟨_, rfl⟩ := decodes.mp decoded
  obtain ⟨_, synced, device, kept, _⟩ := fsMount_ok mounted
  have words : after.geometry = (geometry image).shape := by
    rw [← synced.geometry, device, kept, disk, geometry_shape (by omega)]
  have slots : after.dirSlots = (geometry image).dirBlocks * 8 := by
    rw [synced.slots, words]
    rfl
  refine ⟨words, ?_⟩
  have mirror := synced.mirror
  rw [device, kept, disk, words] at mirror
  rw [← slots]
  refine filterMap_congr fun slot member => ?_
  rw [imageTable, tableOf_congr mirror (mem_range.mp member)]

/-- Four sectors with a five-byte file named `a`. -/
def oneFileImage : List UInt8 :=
  let word (value : UInt8) : List UInt8 := [value, 0, 0, 0, 0, 0, 0, 0]
  magic ++ [1, 0, 0, 0] ++ [0, 2, 0, 0] ++ word 4 ++ word 1 ++ word 1 ++ word 2 ++ word 2 ++ List.replicate 456 0 ++
    ([0x61] ++ List.replicate 31 0 ++ word 1 ++ word 2 ++ word 1 ++ word 5 ++ List.replicate 448 0) ++
      List.replicate 1024 7

theorem mount_iff_decode_one_file :
    ∃ after result, fsMount .working (.boot fun _ => .attach oneFileImage) 0 = some (.ok, after) ∧
      decode oneFileImage = .ok result ∧ after.geometry = result.shape ∧
      described (tableOf after.dir) after.dirSlots = result.entries ∧ result.entries = [⟨[0x61], 1, 2, 1, 5⟩] := by
  have decoded : decode oneFileImage = .ok ⟨4, 1, 1, 2, 2, [⟨[0x61], 1, 2, 1, 5⟩]⟩ := by decide +kernel
  have agree := @mount_iff_decode .working (.boot fun _ => .attach oneFileImage) 0 oneFileImage (fun _ => rfl) nofun
    (by decide)
    rfl rfl (by decide +kernel) (by decide +kernel)
  obtain ⟨after, mounted⟩ := agree.1.mpr ⟨_, decoded⟩
  obtain ⟨words, entries⟩ := agree.2 after _ mounted decoded
  exact ⟨after, _, mounted, decoded, words, entries, rfl⟩

end Rynor.FsOutput
