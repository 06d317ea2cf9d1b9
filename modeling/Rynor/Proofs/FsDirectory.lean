import Rynor.Lib.Checks
import Rynor.Lib.Separated
import Rynor.Storage.Blk
import Rynor.Proofs.FsNames

/-! The directory as a table of records. `fs_mount`'s three passes are equivalent to one
validity predicate on the table, and the only change any operation makes to a valid
table, replacing a leaf, keeps it valid. -/

namespace Rynor.Fs
open ByteMemory Blk List
open Function (update update_self update_of_ne)
variable {entry first second dir : ByteMemory} {slots index slot start count capacity : Nat} {record : Record}
  {table : Table}
  {key name parent : List UInt8} {geometry : Geometry}

/-- What a live entry says. -/
structure Record where
  name : List UInt8
  type : UInt8
  reserved : List UInt8
  first : Nat
  count : Nat
  length : Nat
  deriving DecidableEq

def decodeEntry (entry : ByteMemory) : Option Record :=
  if entryFree entry then none
  else some ⟨entryName entry, entryType entry, entry.slice 33 7, entryFirst entry, entryCount entry, entryLength entry⟩

/-- Slot by slot; `none` is a free slot. -/
abbrev Table := Nat → Option Record

def tableOf (dir : ByteMemory) : Table := fun index => decodeEntry (entryAt dir index)

lemma entryFree_iff : entryFree entry = true ↔ ∀ index, index < entrySize → entry index = 0 := by
  simp [entryFree, entrySize]

lemma decodeEntry_congr (same : ∀ index, index < entrySize → first index = second index) :
    decodeEntry first = decodeEntry second := by
  simp only [entrySize] at same
  have free : entryFree first = entryFree second := by
    rw [Bool.eq_iff_iff, entryFree_iff, entryFree_iff]
    simp only [entrySize]
    exact ⟨fun clear index inside => same index inside ▸ clear index inside,
      fun clear index inside => (same index inside).symm ▸ clear index inside⟩
  have length : nameLen first = nameLen second := nameLen_congr fun index inside => same index (by omega)
  have bounded : nameLen second ≤ 31 := by
    by_cases zero : nameLen second = 0
    · omega
    · exact (nameLen_named zero).bounded
  have name : entryName first = entryName second := by
    rw [entryName, entryName, length]
    exact slice_congr fun index inside => same _ (by omega)
  have word : ∀ offset, offset + 8 ≤ 64 → rd64le (first.shift offset) = rd64le (second.shift offset) :=
    fun offset fits => littleEndian_congr fun index inside => same _ (by omega)
  have reserved : first.slice 33 7 = second.slice 33 7 := slice_congr fun index inside => same _ (by omega)
  simp only [decodeEntry, free, name, reserved, entryType, same 32 (by omega), entryFirst, entryCount, entryLength,
    word 40 (by omega), word 48 (by omega), word 56 (by omega)]

lemma tableOf_congr (same : ∀ index, index < slots * entrySize → first index = second index) (inside : index < slots) :
    tableOf first index = tableOf second index := by
  simp only [entrySize] at same
  refine decodeEntry_congr fun offset low => ?_
  simp only [entryAt, shift_apply, entrySize] at low ⊢
  exact same _ (by omega)

lemma tableOf_overlay (dir entry : ByteMemory) (slot : Nat) :
    tableOf (dir.overlay (slot * entrySize) entrySize entry) = update (tableOf dir) slot (decodeEntry entry) := by
  funext index
  by_cases same : index = slot
  · subst same
    rw [update_self]
    refine decodeEntry_congr fun offset low => ?_
    rw [entryAt, shift_apply, overlay_inside (by omega) (by omega)]
    congr 1
    omega
  rw [update_of_ne same]
  refine decodeEntry_congr fun offset low => ?_
  simp only [entryAt, shift_apply, entrySize] at low ⊢
  rw [overlay_outside (by omega)]

lemma decodeEntry_some (decoded : decodeEntry entry = some record) :
    entryFree entry = false ∧ entryName entry = record.name ∧ entryType entry = record.type ∧
      entry.slice 33 7 = record.reserved ∧ entryFirst entry = record.first ∧ entryCount entry = record.count ∧
      entryLength entry = record.length := by
  simp only [decodeEntry] at decoded
  split at decoded
  · cases decoded
  rename_i live
  cases decoded
  exact ⟨by simpa using live, rfl, rfl, rfl, rfl, rfl, rfl⟩

lemma decodeEntry_none : decodeEntry entry = none ↔ entryFree entry = true := by
  simp only [decodeEntry]
  split <;> simp_all

lemma entryName_length (entry : ByteMemory) : (entryName entry).length = nameLen entry := by
  simp [entryName]

/-! Keys. -/

/-- The lookup of `find_key` on the table. -/
def Table.find (table : Table) (slots : Nat) (key : List UInt8) : Option Nat :=
  (List.range slots).find? fun index =>
    match table index with
    | none => false
    | some record => key != [] && record.name == key

lemma findKey_eq_find (dir : ByteMemory) (slots : Nat) (key : List UInt8) :
    findKey dir slots key = (tableOf dir).find slots key := by
  simp only [findKey, Table.find]
  congr 1
  funext index
  rcases decoded : tableOf dir index with _ | record
  · simp [decodeEntry_none.mp decoded]
  obtain ⟨live, name, _⟩ := decodeEntry_some decoded
  simp only [live, ← name, Bool.not_false, Bool.true_and]
  have match_iff : ((nameLen (entryAt dir index) ≠ 0 ∧ nameLen (entryAt dir index) = key.length) ∧
      (entryAt dir index).slice 0 key.length = key) ↔ key ≠ [] ∧ entryName (entryAt dir index) = key := by
    constructor
    · rintro ⟨⟨nonzero, size⟩, bytes⟩
      refine ⟨fun empty => nonzero (by simpa [empty] using size), ?_⟩
      rw [entryName, size, bytes]
    · rintro ⟨nonempty, rfl⟩
      rw [entryName_length]
      exact ⟨⟨fun zero => nonempty (eq_nil_of_length_eq_zero (by rw [entryName_length, zero])), rfl⟩, rfl⟩
  rw [Bool.eq_iff_iff]
  simpa using match_iff

lemma Table.find_some (found : table.find slots key = some slot) :
    slot < slots ∧ key ≠ [] ∧ ∃ record, table slot = some record ∧ record.name = key := by
  have inside := mem_of_find?_eq_some found
  have hit := find?_some found
  cases decoded : table slot with
  | none => simp [decoded] at hit
  | some record =>
    simp only [decoded, Bool.and_eq_true, bne_iff_ne, ne_eq, beq_iff_eq] at hit
    exact ⟨mem_range.mp inside, hit.1, record, rfl, hit.2⟩

lemma Table.find_none (missing : table.find slots key = none) (nonempty : key ≠ []) (inside : slot < slots)
    (held : table slot = some record) :
    record.name ≠ key := by
  have miss := find?_eq_none.mp missing slot (mem_range.mpr inside)
  simp only [held, Bool.and_eq_true, bne_iff_ne, ne_eq, beq_iff_eq, not_and] at miss
  exact miss nonempty

/-- The proper prefixes of a name that end before a slash, shortest first. -/
def ancestors (name : List UInt8) : List (List UInt8) :=
  ((List.range name.length).filter fun stop => name[stop]? == some slash).map name.take

lemma mem_ancestors : parent ∈ ancestors name ↔ ∃ stop, name[stop]? = some slash ∧ name.take stop = parent := by
  simp only [ancestors, mem_map, mem_filter, mem_range, beq_iff_eq]
  constructor
  · rintro ⟨stop, ⟨_, cut⟩, same⟩
    exact ⟨stop, cut, same⟩
  · rintro ⟨stop, cut, same⟩
    exact ⟨stop, ⟨(List.getElem?_eq_some_iff.mp cut).1, cut⟩, same⟩

lemma mem_ancestors_parts : parent ∈ ancestors name ↔ ∃ depth, 0 < depth ∧ depth < (name.splitOn slash).length ∧
      [slash].intercalate ((name.splitOn slash).take depth) = parent := by
  have joined := @Separated.before_separator_iff _ _ _ (Separated.splitOn_clear slash name) parent
  rwa [intercalate_splitOn, ← mem_ancestors] at joined

/-! Validity. -/

/-- What the superblock checks establish on a device of `capacity` blocks. -/
structure Geometry.Valid (geometry : Geometry) (capacity : Nat) : Prop where
  total_pos : 0 < geometry.total
  total_le : geometry.total ≤ capacity
  dirBlocks_pos : 0 < geometry.dirBlocks
  dirBlocks_le : geometry.dirBlocks ≤ maxDirBlocks
  dirStart_pos : 0 < geometry.dirStart
  dir_inside : geometry.dirStart + geometry.dirBlocks ≤ geometry.total
  dataBlocks_pos : 0 < geometry.dataBlocks
  dataStart_pos : 0 < geometry.dataStart
  data_inside : geometry.dataStart + geometry.dataBlocks ≤ geometry.total
  apart : geometry.dirStart + geometry.dirBlocks ≤ geometry.dataStart ∨
    geometry.dataStart + geometry.dataBlocks ≤ geometry.dirStart

lemma rangeOk_iff : rangeOk start count total = true ↔ start + count ≤ total := by
  simp only [rangeOk]
  split
  · simp; omega
  · split <;> simp <;> omega

lemma rangesOverlap_iff (a : aStart + aCount < u64) (b : bStart + bCount < u64) :
    rangesOverlap aStart aCount bStart bCount = true ↔ aStart < bStart + bCount ∧ bStart < aStart + aCount := by
  simp only [rangesOverlap]
  rw [if_neg (by omega), Nat.mod_eq_of_lt a, Nat.mod_eq_of_lt b]
  simp

lemma geometryError_iff (small : capacity ≤ lba28Max) :
    geometryError capacity geometry = none ↔ geometry.Valid capacity := by
  have limit : lba28Max < u64 := by decide
  have one : 0 + 1 < u64 := by decide
  simp only [geometryError, Checks.none_iff, Bool.or_eq_true, Bool.not_eq_true', beq_iff_eq, not_or,
    Bool.not_eq_false, rangeOk_iff, and_true]
  constructor
  · intro ⟨total, dirEmpty, dirBig, ⟨dirInside, dirStart⟩, ⟨⟨dataBlocks, dataInside⟩, dataStart⟩, overlap⟩
    have apart := overlap.2
    rw [rangesOverlap_iff (by omega) (by omega)] at apart
    exact ⟨by omega, by omega, by omega, by omega, by omega, dirInside, by omega, by omega, dataInside, by omega⟩
  · intro ⟨totalPos, totalLe, dirPos, dirLe, dirStart, dirInside, dataPos, dataStart, dataInside, apart⟩
    rw [rangesOverlap_iff one (by omega), rangesOverlap_iff one (by omega), rangesOverlap_iff (by omega) (by omega)]
    omega

lemma Geometry.Valid.dataEnd (valid : geometry.Valid capacity)
    (small : capacity ≤ lba28Max) : geometry.dataEnd = geometry.dataStart + geometry.dataBlocks := by
  have limit : lba28Max < u64 := by decide
  have inside := valid.data_inside
  have total := valid.total_le
  exact Nat.mod_eq_of_lt (by omega)

/-- A file's extent: canonical when empty, else inside the data region with its last
block possibly partly used. -/
def ExtentValid (geometry : Geometry) (first count length : Nat) : Prop :=
  (count = 0 ∧ length = 0 ∧ first = 0) ∨ (0 < length ∧ length ≤ count * 512 ∧ geometry.dataStart ≤ first ∧
      first + count ≤ geometry.dataStart + geometry.dataBlocks)

structure Record.Valid (geometry : Geometry) (record : Record) : Prop where
  named : record.name ≠ []
  components : GoodComponents record.name
  reserved : record.reserved = List.replicate 7 0
  kind : (record.type = typeFile ∧ ExtentValid geometry record.first record.count record.length) ∨
    (record.type = typeDir ∧ record.first = 0 ∧ record.count = 0 ∧ record.length = 0)

/-- No block belongs to both. -/
def Record.Apart (a b : Record) : Prop :=
  a.count = 0 ∨ b.count = 0 ∨ a.first + a.count ≤ b.first ∨ b.first + b.count ≤ a.first

structure Table.Valid (table : Table) (slots : Nat) (geometry : Geometry) : Prop where
  records : ∀ slot record, slot < slots → table slot = some record → record.Valid geometry
  unique : ∀ a b one two, a < slots → b < slots → table a = some one → table b = some two → one.name = two.name → a = b
  parents : ∀ slot record, slot < slots → table slot = some record → ∀ parent ∈ ancestors record.name,
    ∃ above holder, above < slots ∧ table above = some holder ∧ holder.name = parent ∧ holder.type = typeDir
  apart : ∀ a b one two, a < slots → b < slots → table a = some one → table b = some two → a ≠ b → one.Apart two

lemma slice_clear_iff {memory : ByteMemory} :
    memory.slice start count = List.replicate count 0 ↔ ∀ index, start ≤ index → index < start + count →
    memory index = 0 := by
  rw [eq_replicate_iff]
  simp only [slice_length, true_and]
  constructor
  · intro clear index low high
    exact clear _ (mem_slice.mpr ⟨index - start, by omega, by rw [Nat.add_sub_cancel' low]⟩)
  · intro clear byte member
    obtain ⟨index, inside, rfl⟩ := mem_slice.mp member
    exact clear _ (by omega) (by omega)

private lemma reserved_iff :
    ((range' 33 7).any fun index => entry index != 0) = false ↔ entry.slice 33 7 = List.replicate 7 0 := by
  rw [slice_clear_iff]
  simp only [any_eq_false, mem_range'_1, bne_iff_ne, Decidable.not_not]
  exact ⟨fun clear index low high => clear index ⟨low, high⟩, fun clear index inside => clear index inside.1 inside.2⟩

private lemma extentCheck_iff (first count length : Nat) (valid : geometry.Valid capacity)
    (small : capacity ≤ lba28Max) :
    (if count = 0 then (if length ≠ 0 ∨ first ≠ 0 then some (FsError.mk .corrupt "empty-extent") else none)
      else if length = 0 then some ⟨.corrupt, "empty-extent"⟩
      else if count > (u64 - 1) / 512 ∨ length > count * 512 % u64 then some ⟨.corrupt, "length-range"⟩
      else if first < geometry.dataStart ∨ first ≥ geometry.dataEnd ∨ count > geometry.dataEnd - first then
        some ⟨.corrupt, "extent-range"⟩
      else none) = none ↔ ExtentValid geometry first count length := by
  have inside := valid.data_inside
  have total := valid.total_le
  have width := u64_eq
  have limit : lba28Max = 268435456 := by decide
  rw [valid.dataEnd small, width]
  simp only [ExtentValid]
  split
  · simp only [Checks.none_iff, and_true]
    omega
  · simp only [Checks.none_iff, and_true]
    omega

lemma entryError_iff (valid : geometry.Valid capacity) (small : capacity ≤ lba28Max) :
    entryError geometry entry = none ↔ ∀ record, decodeEntry entry = some record → record.Valid geometry := by
  by_cases free : entryFree entry = true
  · simp [entryError, decodeEntry, free]
  have reduced : (∀ record, decodeEntry entry = some record → record.Valid geometry) ↔
      Record.Valid geometry ⟨entryName entry, entryType entry, entry.slice 33 7, entryFirst entry, entryCount entry,
        entryLength entry⟩ := by
    simp [decodeEntry, free]
  have check := extentCheck_iff (entryFirst entry) (entryCount entry) (entryLength entry) valid small
  have named : ¬ nameLen entry = 0 ↔ entryName entry ≠ [] := by
    rw [← entryName_length, length_eq_zero_iff]
  have parts : badComponent entry (nameLen entry) (nameLen entry + 1) 0 0 = false ↔ GoodComponents (entryName entry) :=
      badComponent_iff entry _ _ 0 0 (Nat.le_refl _) (Nat.zero_le _) rfl fun before _ last => by omega
  rw [reduced]
  simp only [entryError, free, Bool.false_eq_true, if_false, Checks.none_iff, named, Bool.not_eq_true, parts,
    reserved_iff]
  constructor
  · intro ⟨named, components, kind, clear, accepted⟩
    refine ⟨named, components, clear, ?_⟩
    split at accepted
    next folder =>
      simp only [Checks.none_iff, not_or, Decidable.not_not, and_true] at accepted
      exact .inr ⟨folder, accepted⟩
    next other => exact .inl ⟨Decidable.not_not.mp fun file => kind ⟨file, other⟩, check.mp accepted⟩
  · intro ⟨named, components, clear, kind⟩
    refine ⟨named, components, ?_, clear, ?_⟩
    · rcases kind with ⟨file, _⟩ | ⟨folder, _⟩
      · exact fun wrong => wrong.1 file
      · exact fun wrong => wrong.2 folder
    rcases kind with ⟨file, extent⟩ | ⟨folder, blank⟩
    · simp only at file
      rw [if_neg (by rw [file]; decide)]
      exact check.mpr extent
    · simp only at folder blank
      rw [if_pos folder, if_neg (by omega)]

private lemma parentCheck_iff (inside : stop < nameLen entry) : (if entry stop ≠ slash then none
      else match findKey dir slots (entry.slice 0 stop) with
        | none => some (FsError.mk .corrupt "dangling-parent")
        | some parent => if entryType (entryAt dir parent) ≠ typeDir then some ⟨.corrupt, "dangling-parent"⟩
          else none) = none ↔
      ((entryName entry)[stop]? = some slash → ∃ above, (tableOf dir).find slots ((entryName entry).take stop) =
        some above ∧
          ∃ holder, tableOf dir above = some holder ∧ holder.type = typeDir) := by
  have byte : (entryName entry)[stop]? = some (entry stop) := by
    rw [getElem?_eq_getElem (by rw [entryName_length]; exact inside)]
    simp [entryName]
  have key : (entryName entry).take stop = entry.slice 0 stop := slice_take _ _ _ _ (le_of_lt inside)
  rw [byte, key, ← findKey_eq_find]
  by_cases cut : entry stop = slash
  · simp only [cut, ne_eq, not_true, if_false, true_implies]
    cases found : findKey dir slots (entry.slice 0 stop) with
    | none => simp
    | some above =>
      obtain ⟨_, _, holder, held, _⟩ := Table.find_some (findKey_eq_find dir slots _ ▸ found)
      have type := (decodeEntry_some held).2.2.1
      simp only [Option.some.injEq, exists_eq_left', held, type]
      split <;> simp_all
  · simp [cut]

private lemma namespaceError_iff : namespaceError dir slots index = none ↔ ∀ record, tableOf dir index = some record →
      (∀ other holder, index < other → other < slots → tableOf dir other = some holder → record.name ≠ holder.name) ∧
      ∀ parent ∈ ancestors record.name, ∃ above, (tableOf dir).find slots parent = some above ∧
        ∃ holder, tableOf dir above = some holder ∧ holder.type = typeDir := by
  rcases decoded : tableOf dir index with _ | record
  · simp [namespaceError, decodeEntry_none.mp decoded]
  obtain ⟨live, name, _⟩ := decodeEntry_some decoded
  simp only [namespaceError, live, Bool.false_eq_true, if_false, Option.or_eq_none_iff, findSome?_eq_none_iff,
    Option.some.injEq, forall_eq', mem_range'_1, mem_range]
  apply and_congr
  · constructor
    · intro scanned other holder later inside held same
      obtain ⟨otherLive, otherName, _⟩ := decodeEntry_some held
      have check := scanned other (by omega)
      have sizes : nameLen (entryAt dir index) = nameLen (entryAt dir other) := by
        rw [← entryName_length, ← entryName_length, name, otherName, same]
      rw [← name, ← otherName, entryName, entryName, ← sizes] at same
      rw [otherLive, if_neg (by simp), if_neg (by simpa using sizes), if_pos same] at check
      cases check
    intro distinct other inside
    rcases held : tableOf dir other with _ | holder
    · simp [decodeEntry_none.mp held]
    obtain ⟨otherLive, otherName, _⟩ := decodeEntry_some held
    have differ := distinct other holder (by omega) (by omega) held
    rw [← name, ← otherName, entryName, entryName] at differ
    simp only [otherLive, Bool.false_eq_true, if_false]
    by_cases sizes : nameLen (entryAt dir index) = nameLen (entryAt dir other)
    · rw [← sizes] at differ
      simp [sizes] at differ ⊢
      exact differ
    · simp [sizes]
  rw [← name]
  constructor
  · intro scanned parent member
    obtain ⟨stop, cut, rfl⟩ := mem_ancestors.mp member
    have inside : stop < nameLen (entryAt dir index) := by
      rw [← entryName_length]
      exact (List.getElem?_eq_some_iff.mp cut).1
    exact (parentCheck_iff inside).mp (scanned stop inside) cut
  · intro above stop inside
    exact (parentCheck_iff inside).mpr fun cut => above _ (mem_ancestors.mpr ⟨stop, cut, rfl⟩)

lemma hasExtent_iff (decoded : decodeEntry entry = some record) (valid : record.Valid geometry) :
    hasExtent entry = true ↔ record.count ≠ 0 := by
  obtain ⟨live, _, type, _, _, count, _⟩ := decodeEntry_some decoded
  simp only [hasExtent, live, type, count, Bool.not_false, Bool.true_and, Bool.and_eq_true, beq_iff_eq, bne_iff_ne]
  constructor
  · exact And.right
  · intro nonzero
    rcases valid.kind with file | folder
    · exact ⟨file.1, nonzero⟩
    · exact absurd folder.2.2.1 nonzero

lemma Record.Valid.extent_bound (valid : record.Valid geometry)
    (shape : geometry.Valid capacity) (small : capacity ≤ lba28Max) : record.first + record.count ≤ lba28Max := by
  have inside := shape.data_inside
  have total := shape.total_le
  rcases valid.kind with ⟨_, empty | extent⟩ | folder
  · omega
  · omega
  · omega

private lemma extentError_iff (shape : geometry.Valid capacity) (small : capacity ≤ lba28Max) (within : index < slots)
    (records : ∀ slot record, slot < slots → tableOf dir slot = some record → record.Valid geometry) :
    extentError dir slots index = none ↔ ∀ record, tableOf dir index = some record →
      ∀ other holder, index < other → other < slots → tableOf dir other = some holder → record.Apart holder := by
  have limit : lba28Max < u64 := by decide
  rcases decoded : tableOf dir index with _ | record
  · simp [extentError, hasExtent, decodeEntry_none.mp decoded]
  have valid := records index record within decoded
  have extent := hasExtent_iff decoded valid
  have bound := valid.extent_bound shape small
  obtain ⟨_, _, _, _, first, count, _⟩ := decodeEntry_some decoded
  simp only [extentError, Option.some.injEq, forall_eq']
  by_cases empty : record.count = 0
  · simp only [empty, ne_eq, not_true, iff_false, Bool.not_eq_true] at extent
    simp [extent, Record.Apart, empty]
  simp only [extent.mpr empty, Bool.not_true, Bool.false_eq_true, if_false, findSome?_eq_none_iff, mem_range'_1]
  apply forall_congr'
  intro other
  rcases held : tableOf dir other with _ | holder
  · simp [hasExtent, decodeEntry_none.mp held]
  have agree (inside : other < slots) : (if !hasExtent (entryAt dir other) then none
      else if rangesOverlap (entryFirst (entryAt dir index)) (entryCount (entryAt dir index))
        (entryFirst (entryAt dir other))
        (entryCount (entryAt dir other)) then some (FsError.mk .corrupt "overlap") else none) = none ↔
        record.Apart holder := by
    have otherValid := records other holder inside held
    have otherExtent := hasExtent_iff held otherValid
    have otherBound := otherValid.extent_bound shape small
    obtain ⟨_, _, _, _, otherFirst, otherCount, _⟩ := decodeEntry_some held
    by_cases otherEmpty : holder.count = 0
    · simp only [otherEmpty, ne_eq, not_true, iff_false, Bool.not_eq_true] at otherExtent
      simp [otherExtent, Record.Apart, otherEmpty]
    simp only [otherExtent.mpr otherEmpty, Bool.not_true, Bool.false_eq_true, if_false, Checks.none_iff, and_true,
      first, count,
      otherFirst, otherCount, Record.Apart]
    rw [rangesOverlap_iff (by omega) (by omega)]
    omega
  constructor
  · rintro check _ later inside ⟨⟩
    exact (agree inside).mp (check (by omega))
  · exact fun apart inside => (agree (by omega)).mpr (apart holder (by omega) (by omega) rfl)

lemma directoryError_iff (shape : geometry.Valid capacity) (small : capacity ≤ lba28Max) :
    directoryError geometry dir = none ↔ (tableOf dir).Valid geometry.slots geometry := by
  simp only [directoryError, Option.or_eq_none_iff, findSome?_eq_none_iff, mem_range]
  constructor
  · rintro ⟨entries, names, extents⟩
    have records : ∀ slot record, slot < geometry.slots → tableOf dir slot = some record → record.Valid geometry :=
      fun slot record inside held => (entryError_iff shape small).mp (entries slot inside) record held
    refine ⟨records, ?_, ?_, ?_⟩
    · intro a b one two aInside bInside aHeld bHeld same
      rcases lt_trichotomy a b with before | equal | after
      · exact absurd same ((namespaceError_iff.mp (names a aInside) one aHeld).1 b two before bInside bHeld)
      · exact equal
      · exact absurd same.symm ((namespaceError_iff.mp (names b bInside) two bHeld).1 a one after aInside aHeld)
    · intro slot record inside held parent member
      obtain ⟨above, found, holder, holds, folder⟩ :=
        (namespaceError_iff.mp (names slot inside) record held).2 parent member
      obtain ⟨aboveInside, _, other, otherHolds, name⟩ := Table.find_some found
      rw [holds] at otherHolds
      cases otherHolds
      exact ⟨above, holder, aboveInside, holds, name, folder⟩
    · intro a b one two aInside bInside aHeld bHeld different
      rcases Nat.lt_or_gt_of_ne different with before | after
      · exact (extentError_iff shape small aInside records).mp (extents a aInside) one aHeld b two before bInside bHeld
      have apart := (extentError_iff shape small bInside records).mp (extents b bInside) two bHeld a one after
        aInside aHeld
      simp only [Record.Apart] at apart ⊢
      omega
  rintro ⟨records, unique, parents, apart⟩
  refine ⟨fun slot inside => (entryError_iff shape small).mpr fun record => records slot record inside, ?_, ?_⟩
  · intro slot inside
    refine namespaceError_iff.mpr fun record held => ⟨?_, ?_⟩
    · intro other holder later otherInside otherHeld same
      have := unique slot other record holder inside otherInside held otherHeld same
      omega
    intro parent member
    obtain ⟨above, holder, aboveInside, holds, name, folder⟩ := parents slot record inside held parent member
    have nonempty : parent ≠ [] := name ▸ (records above holder aboveInside holds).named
    cases found : (tableOf dir).find geometry.slots parent with
    | none => exact absurd name (Table.find_none found nonempty aboveInside holds)
    | some slot =>
      obtain ⟨foundInside, _, other, otherHolds, otherName⟩ := Table.find_some found
      have same := unique slot above other holder foundInside aboveInside otherHolds holds (otherName.trans name.symm)
      subst same
      exact ⟨slot, rfl, holder, holds, folder⟩
  · intro slot inside
    refine (extentError_iff shape small inside records).mpr ?_
    intro record held other holder later otherInside otherHeld
    exact apart slot other record holder inside otherInside held otherHeld (ne_of_lt later)

/-! What a valid table offers its readers. -/

namespace Table.Valid
variable {table : Table} {slots : Nat} {geometry : Geometry} (valid : table.Valid slots geometry)

include valid in
lemma find_iff :
    table.find slots key = some slot ↔ slot < slots ∧ ∃ record, table slot = some record ∧ record.name = key := by
  constructor
  · intro found
    obtain ⟨inside, _, record, held, name⟩ := Table.find_some found
    exact ⟨inside, record, held, name⟩
  rintro ⟨inside, record, held, name⟩
  have nonempty : key ≠ [] := name ▸ (valid.records slot record inside held).named
  cases found : table.find slots key with
  | none => exact absurd name (Table.find_none found nonempty inside held)
  | some other =>
    obtain ⟨otherInside, _, holder, holds, otherName⟩ := Table.find_some found
    exact congrArg some (valid.unique other slot holder record otherInside inside holds held
      (otherName.trans name.symm))

include valid in
/-- The table with one leaf replaced. A leaf is a free slot or a file: nothing is below it. -/
lemma replace {slot next} (leaf : ∀ record, table slot = some record → record.type = typeFile)
    (fresh : ∀ record, next = some record → record.Valid geometry ∧
      (∀ other holder, other < slots → other ≠ slot → table other = some holder → holder.name ≠ record.name ∧
        holder.Apart record) ∧
      ∀ parent ∈ ancestors record.name, ∃ above holder, above < slots ∧ table above = some holder ∧
      holder.name = parent ∧ holder.type = typeDir) :
    Table.Valid (update table slot next) slots geometry := by
  have old : ∀ {other record}, other ≠ slot → update table slot next other = some record → table other = some record :=
    fun different held => by rwa [update_of_ne different] at held
  have new : ∀ {record}, update table slot next slot = some record → next = some record :=
    fun held => by rwa [update_self] at held
  have folder : ∀ {above holder}, table above = some holder → holder.type = typeDir → update table slot next above =
    some holder := by
    intro above holder holds folder
    rw [update_of_ne, holds]
    rintro rfl
    have := leaf holder holds
    rw [folder] at this
    exact absurd this (by decide)
  refine ⟨?_, ?_, ?_, ?_⟩
  · intro other record inside held
    by_cases same : other = slot
    · subst same
      exact (fresh record (new held)).1
    · exact valid.records other record inside (old same held)
  · intro a b one two aInside bInside aHeld bHeld name
    by_cases aSame : a = slot
    · by_cases bSame : b = slot
      · rw [aSame, bSame]
      · subst aSame
        exact absurd name.symm ((fresh one (new aHeld)).2.1 b two bInside bSame (old bSame bHeld)).1
    by_cases bSame : b = slot
    · subst bSame
      exact absurd name ((fresh two (new bHeld)).2.1 a one aInside aSame (old aSame aHeld)).1
    · exact valid.unique a b one two aInside bInside (old aSame aHeld) (old bSame bHeld) name
  · intro other record inside held parent member
    have above : ∃ above holder, above < slots ∧ table above = some holder ∧ holder.name = parent ∧
      holder.type = typeDir := by
      by_cases same : other = slot
      · subst same
        exact (fresh record (new held)).2.2 parent member
      · exact valid.parents other record inside (old same held) parent member
    obtain ⟨above, holder, aboveInside, holds, name, type⟩ := above
    exact ⟨above, holder, aboveInside, folder holds type, name, type⟩
  intro a b one two aInside bInside aHeld bHeld different
  by_cases aSame : a = slot
  · subst aSame
    have apart := ((fresh one (new aHeld)).2.1 b two bInside (Ne.symm different) (old (Ne.symm different) bHeld)).2
    simp only [Record.Apart] at apart ⊢
    omega
  by_cases bSame : b = slot
  · subst bSame
    exact ((fresh two (new bHeld)).2.1 a one aInside aSame (old aSame aHeld)).2
  · exact valid.apart a b one two aInside bInside (old aSame aHeld) (old bSame bHeld) different

end Table.Valid

end Rynor.Fs
