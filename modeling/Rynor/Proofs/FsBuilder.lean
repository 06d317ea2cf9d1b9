import Rynor.Proofs.FsDecoder
import Rynor.Proofs.FsListing
import Rynor.Proofs.FsReaddir

/-! The images the host builder makes: they mount, every file reads back, and the directory
lists what was given and the directories on the way to it. -/

namespace Rynor.FsImage
open ByteMemory PackedBytes Fs List Checks
variable {name : Text} {ftype : UInt8} {first count length : Nat} {bytes : List UInt8}

/-! The data region. -/

lemma blockCount_zero : blockCount blob = 0 ↔ blob = [] := by
  simp only [blockCount, block]
  split
  next empty => exact ⟨fun _ => empty, fun _ => rfl⟩
  rename_i nonempty
  have := length_pos_of_ne_nil nonempty
  refine ⟨fun zero => ?_, fun empty => absurd empty nonempty⟩
  omega

lemma length_le_blocks (blob : List UInt8) : blob.length ≤ blockCount blob * 512 := by
  simp only [blockCount, block]
  split
  next empty => simp [empty]
  · omega

section Placement
variable {gap : Text → Nat} {blob : Text → List UInt8}
variable {state : Nat × List (Text × Nat × Nat)}

lemma dataOf_length (name : Text) : (dataOf gap blob name).length = (gap name + blockCount (blob name)) * 512 := by
  simp only [dataOf, blockCount, block, zeros, length_append, length_replicate]
  split
  next empty => simp [empty]
  rename_i nonempty
  have := length_pos_of_ne_nil nonempty
  omega

/-- The extents given out so far and the bytes they address. -/
structure Placed (gap : Text → Nat) (blob : Text → List UInt8) (names : List Text)
    (state : Nat × List (Text × Nat × Nat)) : Prop where
  keys : state.2.map (·.1) = names
  size : (names.flatMap (dataOf gap blob)).length = state.1 * 512
  counts : ∀ name first count, (name, first, count) ∈ state.2 → count = blockCount (blob name)
  extents : ∀ name first count, (name, first, count) ∈ state.2 → count ≠ 0 → first + count ≤ state.1 ∧
    ((names.flatMap (dataOf gap blob)).drop (first * 512)).take (blob name).length = blob name
  apart : state.2.Pairwise fun a b => a.2.2 = 0 ∨ b.2.2 = 0 ∨ a.2.1 + a.2.2 ≤ b.2.1

lemma Placed.next (placed : Placed gap blob names state) (name : Text) :
    Placed gap blob (names ++ [name]) (place gap blob state name) := by
  have bytes : (names ++ [name]).flatMap (dataOf gap blob) = names.flatMap (dataOf gap blob) ++
    dataOf gap blob name := by
    simp
  have size := placed.size
  refine ⟨?_, ?_, ?_, ?_, ?_⟩
  · simp only [place, map_append, placed.keys, map_cons, map_nil]
  · simp only [bytes, length_append, size, dataOf_length, place]
    omega
  · intro other first count member
    rcases mem_append.mp member with before | last
    · exact placed.counts other first count before
    · cases mem_singleton.mp last
      rfl
  · intro other first count member nonzero
    rcases mem_append.mp member with before | last
    · obtain ⟨inside, same⟩ := placed.extents other first count before nonzero
      have short := length_le_blocks (blob other)
      rw [← placed.counts other first count before] at short
      refine ⟨by simp only [place]; omega, ?_⟩
      rw [bytes, drop_append_of_le_length (by omega), take_append_of_le_length, same]
      rw [length_drop, size]
      omega
    cases mem_singleton.mp last
    rw [if_pos nonzero]
    refine ⟨Nat.le_refl _, ?_⟩
    rw [bytes, Nat.add_mul, ← size, drop_append, drop_eq_nil_of_le (Nat.le_add_right _ _), nil_append,
      Nat.add_sub_cancel_left, dataOf, append_assoc, drop_append, drop_eq_nil_of_le (by simp [zeros, block])]
    simp [zeros, block]
  simp only [place, pairwise_append, pairwise_singleton, mem_singleton, forall_eq, true_and]
  refine ⟨placed.apart, fun (other, first, count) member => ?_⟩
  by_cases zero : count = 0
  · exact .inl zero
  by_cases blank : blockCount (blob name) = 0
  · exact .inr (.inl blank)
  have inside := (placed.extents other first count member zero).1
  rw [if_pos blank]
  exact .inr (.inr (le_trans inside (Nat.le_add_right _ _)))

lemma Placed.separate (placed : Placed gap blob names state) (one : a ∈ state.2) (two : b ∈ state.2)
    (other : a.1 ≠ b.1) :
    a.2.2 = 0 ∨ b.2.2 = 0 ∨ a.2.1 + a.2.2 ≤ b.2.1 ∨ b.2.1 + b.2.2 ≤ a.2.1 := by
  let related (a b : Text × Nat × Nat) : Prop := a.2.2 = 0 ∨ b.2.2 = 0 ∨ a.2.1 + a.2.2 ≤ b.2.1 ∨ b.2.1 + b.2.2 ≤ a.2.1
  have symmetric : Std.Symm related := ⟨fun a b apart => by simp only [related] at apart ⊢; omega⟩
  have pairs : state.2.Pairwise related := placed.apart.imp fun apart => by simp only [related]; omega
  exact pairs.forall one two fun same => other (congrArg (·.1) same)

lemma placed_names (names : List Text) : Placed gap blob names (names.foldl (place gap blob) (0, [])) :=
  foldl_invariant (fun _ _ name placed => placed.next name) ⟨rfl, rfl, nofun, nofun, .nil⟩

end Placement

/-! Records. -/

lemma decodeEntry_layout (positive : 1 ≤ text.length)
    (short : text.length ≤ 31) (printable : ∀ {index}, index < text.length → Printable (ofList text index))
    (firstFits : first < 256 ^ 8) (countFits : count < 256 ^ 8) (lengthFits : length < 256 ^ 8)
    (layout : text ++ zeros (32 - text.length) ++
      ftype :: zeros 7 ++ (ofNat first).slice 0 8 ++ (ofNat count).slice 0 8 ++
      (ofNat length).slice 0 8 = bytes) :
    bytes.length = 64 ∧ decodeEntry (ofList bytes) = some ⟨text, ftype, replicate 7 0, first, count, length⟩ := by
  have front : (text ++ zeros (32 - text.length)).length = 32 := by
    simp only [zeros, length_append, length_replicate]
    omega
  have head : (text ++ zeros (32 - text.length) ++ ftype :: zeros 7).length = 40 := by
    rw [length_append, front]
    rfl
  have size : bytes.length = 64 := by
    rw [← layout, length_append, length_append, length_append, head, slice_length, slice_length, slice_length]
  have shiftType : (ofList bytes).shift 32 =
      ofList (ftype :: (zeros 7 ++ ((ofNat first).slice 0 8 ++
        ((ofNat count).slice 0 8 ++ (ofNat length).slice 0 8)))) := by
    rw [← layout, append_assoc, append_assoc, append_assoc, shift_append front]
    rfl
  have shiftFirst : (ofList bytes).shift 40 =
    ofList ((ofNat first).slice 0 8 ++ ((ofNat count).slice 0 8 ++ (ofNat length).slice 0 8)) := by
    rw [← layout, append_assoc, append_assoc, shift_append head]
  have shiftCount : (ofList bytes).shift 48 = _ := shift_packed shiftFirst
  have shiftLength : (ofList bytes).shift 56 = ofList ((ofNat length).slice 0 8 ++ []) := by
    rw [append_nil]
    exact shift_packed shiftCount
  have named : Named (ofList bytes) text.length := by
    rw [← layout]
    simp only [append_assoc]
    refine ⟨positive, short, fun index inside => ?_, fun index low high => ?_⟩
    · rw [ofList_append_left inside]
      exact printable inside
    · obtain ⟨rest, rfl⟩ := Nat.exists_eq_add_of_le low
      rw [ofList_append_right, ofList_append_left (by simp only [zeros, length_replicate]; omega)]
      exact ofList_zeros ..
  have live : entryFree (ofList bytes) = false := by
    rw [← Bool.not_eq_true, entryFree_iff]
    intro clear
    exact printable_ne_zero (named.printable 0 named.positive) (clear 0 (by decide))
  have name : entryName (ofList bytes) = text := by
    rw [entryName, named.nameLen, slice_ofList _ _ _ (by omega), ← layout]
    simp only [append_assoc, drop_zero, take_left]
  have type : entryType (ofList bytes) = ftype := congrFun shiftType 0
  have reserved : (ofList bytes).slice 33 7 = replicate 7 0 := by
    rw [slice_clear_iff]
    intro index low high
    have byte := congrFun shiftType (index - 32)
    rw [shift_apply, show 32 + (index - 32) = index by omega, show index - 32 = [ftype].length + (index - 33) by
      simp; omega,
      ← singleton_append, ofList_append_right,
        ofList_append_left (by simp only [zeros, length_replicate]; omega)] at byte
    rw [byte]
    exact ofList_zeros ..
  refine ⟨size, ?_⟩
  rw [decodeEntry, live, if_neg (by simp), name, type, reserved]
  simp only [entryFirst, entryCount, entryLength, rd64le, shiftFirst, shiftCount, shiftLength,
    littleEndian_packed firstFits,
    littleEndian_packed countFits, littleEndian_packed lengthFits]

/-- An encoded record is 64 bytes that decode to what was encoded. -/
lemma encodeEntry_ok (called : encodeEntry name ftype first count length = .ok bytes) :
    bytes.length = 64 ∧ decodeEntry (ofList bytes) = some ⟨ascii name, ftype, replicate 7 0, first, count, length⟩ := by
  obtain ⟨size, called⟩ := raise_ok_iff.mp called
  obtain ⟨_, called⟩ := raise_ok_iff.mp called
  obtain ⟨checked, called⟩ := raise_ok_iff.mp called
  obtain ⟨firstFits, called⟩ := pack_ok_iff.mp called
  obtain ⟨countFits, called⟩ := pack_ok_iff.mp called
  obtain ⟨lengthFits, called⟩ := pack_ok_iff.mp called
  simp only [none_iff, not_or, not_lt, Bool.not_eq_true, and_true] at size checked
  have rawSize : (ascii name).length = name.length := length_map ..
  refine decodeEntry_layout (by omega) (by omega) (fun {index} inside => ?_) firstFits countFits lengthFits
    (Except.ok.inj called)
  have member : ofList (ascii name) index ∈ ascii name := by
    simp only [ofList, getD_eq_getElem?_getD, getElem?_eq_getElem inside, Option.getD_some]
    exact getElem_mem inside
  have byte := any_eq_false.mp checked _ member
  simpa [Printable] using byte

/-! The superblock. -/

lemma encodeHeader_ok (called : encodeHeader total dirBlocks dataStart dataBlocks = .ok header) (rest : List UInt8) :
    header.length = 512 ∧ HeaderValid (ofList (header ++ rest)) ∧
      sbGeometry (ofList (header ++ rest)) = ⟨total, 1, dirBlocks, dataStart, dataBlocks⟩ := by
  obtain ⟨versionFits, called⟩ := pack_ok_iff.mp called
  obtain ⟨blockFits, called⟩ := pack_ok_iff.mp called
  obtain ⟨totalFits, called⟩ := pack_ok_iff.mp called
  obtain ⟨dirStartFits, called⟩ := pack_ok_iff.mp called
  obtain ⟨dirBlocksFits, called⟩ := pack_ok_iff.mp called
  obtain ⟨dataStartFits, called⟩ := pack_ok_iff.mp called
  obtain ⟨dataBlocksFits, called⟩ := pack_ok_iff.mp called
  have layout := Except.ok.inj called
  have size : header.length = 512 := by
    rw [← layout]
    simp only [length_append, slice_length, zeros, length_replicate]
    rfl
  have whole : header ++ rest = magic ++ ((ofNat version).slice 0 4 ++
    ((ofNat block).slice 0 4 ++ ((ofNat total).slice 0 8 ++
      ((ofNat 1).slice 0 8 ++ ((ofNat dirBlocks).slice 0 8 ++
        ((ofNat dataStart).slice 0 8 ++ ((ofNat dataBlocks).slice 0 8 ++
        (zeros 456 ++ rest)))))))) := by
    rw [← layout]
    simp only [append_assoc]
    rfl
  have at8 := (congrArg (fun bytes => (ofList bytes).shift 8) whole).trans (shift_append rfl)
  have at12 : (ofList (header ++ rest)).shift 12 = _ := shift_packed at8
  have at16 : (ofList (header ++ rest)).shift 16 = _ := shift_packed at12
  have at24 : (ofList (header ++ rest)).shift 24 = _ := shift_packed at16
  have at32 : (ofList (header ++ rest)).shift 32 = _ := shift_packed at24
  have at40 : (ofList (header ++ rest)).shift 40 = _ := shift_packed at32
  have at48 : (ofList (header ++ rest)).shift 48 = _ := shift_packed at40
  have at56 : (ofList (header ++ rest)).shift 56 = _ := shift_packed at48
  have clear : ∀ index, index < 456 → ofList (header ++ rest) (56 + index) = 0 := by
    intro index inside
    have within : index < (zeros 456).length := by rwa [zeros, length_replicate]
    exact (congrFun at56 index).trans ((ofList_append_left within).trans (ofList_zeros ..))
  refine ⟨size, ⟨?_, ?_, ?_, ?_, ?_⟩, ?_⟩
  · rw [slice_ofList _ _ _ (by rw [length_append]; omega), whole]
    rfl
  · rw [rd32le, at8, littleEndian_packed versionFits]
    rfl
  · rw [rd32le, at12, littleEndian_packed blockFits]
    rfl
  · exact littleEndian_zero fun index inside => clear index (by omega)
  · intro index low high
    have byte := clear (index - 56) (by omega)
    rwa [show 56 + (index - 56) = index by omega] at byte
  · simp only [sbGeometry, rd64le, at16, at24, at32, at40, at48, littleEndian_packed totalFits,
      littleEndian_packed dirStartFits,
      littleEndian_packed dirBlocksFits, littleEndian_packed dataStartFits, littleEndian_packed dataBlocksFits]

/-! The whole image. -/

/-- What `build` has decided by the time it writes the image. -/
structure Layout where
  listing : Listing
  gap : Text → Nat
  dataBlock : Nat
  dataMap : List (Text × Nat × Nat)
  items : List (Text × Option (List UInt8))
  records : List (List UInt8)
  header : List UInt8
  dirBlocks : Nat
  dataBlocks : Nat
  padBlocks : Nat

namespace Layout
variable (layout : Layout)

def dataStart : Nat := 1 + layout.dirBlocks

def total : Nat := 1 + layout.dirBlocks + layout.dataBlocks + layout.padBlocks

def names : List Text := sorted (layout.listing.files.map (·.1))

def body : List (List UInt8) :=
  layout.records ++ List.replicate (layout.dirBlocks * dirSlotsPerBlock - layout.records.length) (zeros 64)

def data : List UInt8 := layout.names.flatMap (dataOf layout.gap layout.listing.blob)

/-- How the decisions follow from the entries, and the image from the decisions. -/
structure Builds (entries : List (Text × Option (List UInt8))) (image : List UInt8) : Prop where
  collected : Collected entries layout.listing
  placed : Placed layout.gap layout.listing.blob layout.names (layout.dataBlock, layout.dataMap)
  dirs : ∀ name, name ∈ layout.listing.dirs ↔ ∃ record, (name, some record) ∈ layout.items
  files : ∀ name, name ∈ layout.listing.files.map (·.1) ↔ (name, none) ∈ layout.items
  ready : ∀ name record, (name, some record) ∈ layout.items → encodeEntry name typeDir 0 0 0 = .ok record
  distinct : (layout.items.map (·.1)).Nodup
  encoded : List.Forall₂ (fun item record => encodeRecord layout.dataStart layout.dataMap layout.listing.blob item =
    .ok record)
    layout.items layout.records
  dir_pos : 0 < layout.dirBlocks
  dir_le : layout.dirBlocks ≤ maxDirBlocks
  room : layout.items.length ≤ layout.dirBlocks * dirSlotsPerBlock
  data_pos : 0 < layout.dataBlocks
  data_le : layout.dataBlock ≤ layout.dataBlocks
  superblock : encodeHeader layout.total layout.dirBlocks layout.dataStart layout.dataBlocks = .ok layout.header
  written : image = layout.header ++ layout.body.flatten ++ layout.data ++
    zeros ((layout.dataBlocks - layout.dataBlock) * block) ++ zeros (layout.padBlocks * block)
  size : image.length = layout.total * block

end Layout

lemma dirRecords_ok {names : List Text} {pairs : List (Text × Option (List UInt8))} (called : (names.mapM fun name => do
      let record ← encodeEntry name typeDir 0 0 0
      return (name, some record)) = .ok pairs) :
    pairs.map (·.1) = names ∧ ∀ name content, (name, content) ∈ pairs →
      ∃ record, content = some record ∧ encodeEntry name typeDir 0 0 0 = .ok record := by
  have each := mapM_ok_iff.mp called
  clear called
  induction each with
  | nil => exact ⟨rfl, nofun⟩
  | cons head tail ih =>
    obtain ⟨record, encoded, same⟩ := bind_ok_iff.mp head
    cases same
    refine ⟨congrArg _ ih.1, fun name content member => ?_⟩
    rcases mem_cons.mp member with first | later
    · cases first
      exact ⟨record, rfl, encoded⟩
    · exact ih.2 name content later

lemma build_ok {entries : List (Text × Option (List UInt8))} {padBlocks : Nat} {dataSlack : Int}
    {gaps : List (Text × Int)}
    {dirSlack : Int} {image : List UInt8} (called : build entries padBlocks dataSlack gaps dirSlack = .ok image) :
    ∃ layout : Layout, layout.Builds entries image := by
  obtain ⟨listing, collect, called⟩ := bind_ok_iff.mp called
  obtain ⟨_, called⟩ := raise_ok_iff.mp called
  obtain ⟨dirRecords, ready, called⟩ := bind_ok_iff.mp called
  obtain ⟨_, called⟩ := raise_ok_iff.mp called
  obtain ⟨dirLimit, called⟩ := raise_ok_iff.mp called
  obtain ⟨_, called⟩ := raise_ok_iff.mp called
  obtain ⟨records, encoded, called⟩ := bind_ok_iff.mp called
  obtain ⟨_, called⟩ := raise_ok_iff.mp called
  obtain ⟨header, superblock, called⟩ := bind_ok_iff.mp called
  obtain ⟨size, called⟩ := raise_ok_iff.mp called
  have collected := collect_gives _ collect
  obtain ⟨keys, each⟩ := dirRecords_ok ready
  have sortedDirs : (sorted listing.dirs).Perm listing.dirs := perm_insertionSort ..
  have sortedFiles : (sorted (listing.files.map (·.1))).Perm (listing.files.map (·.1)) := perm_insertionSort ..
  generalize listed : dirRecords ++ (sorted (listing.files.map (·.1))).map (fun name => (name, none)) = pairs at *
  have order : (byName pairs).Perm pairs := perm_insertionSort ..
  have dirMember : ∀ name record, (name, some record) ∈ byName pairs ↔ (name, some record) ∈ dirRecords := by
    intro name record
    rw [order.mem_iff, ← listed]
    simp
  have fileMember : ∀ name, (name, none) ∈ byName pairs ↔ name ∈ listing.files.map (·.1) := by
    intro name
    rw [order.mem_iff, ← listed, ← sortedFiles.mem_iff]
    simp only [mem_append, mem_map, Prod.mk.injEq, and_true, exists_eq_right, or_iff_right_iff_imp]
    intro impossible
    obtain ⟨_, same, _⟩ := each name none impossible
    cases same
  have distinct : ((byName pairs).map (·.1)).Nodup := by
    have names : pairs.map (·.1) = sorted listing.dirs ++ sorted (listing.files.map (·.1)) := by
      rw [← listed, map_append, keys, map_map]
      exact congrArg _ (map_id _)
    rw [(order.map _).nodup_iff, names, nodup_append]
    refine ⟨sortedDirs.nodup_iff.mpr collected.dirNames, sortedFiles.nodup_iff.mpr collected.fileNames, ?_⟩
    intro dir inDirs file inFiles same
    exact collected.apart dir (sortedDirs.mem_iff.mp inDirs) (same ▸ sortedFiles.mem_iff.mp inFiles)
  simp only [none_iff, not_lt, ne_eq, Decidable.not_not, and_true] at dirLimit size
  refine ⟨⟨listing, gapBefore gaps, _, _, byName pairs, records, header, _, _, padBlocks⟩, collected, placed_names _,
    fun name => ?_, fun name => (fileMember name).symm, fun name record member => ?_, distinct,
      mapM_ok_iff.mp encoded, ?_,
    dirLimit, ?_, ?_, ?_, superblock, (Except.ok.inj called).symm, ?_⟩
  · rw [← sortedDirs.mem_iff, ← keys, mem_map]
    simp only [dirMember]
    constructor
    · rintro ⟨⟨name, content⟩, member, rfl⟩
      obtain ⟨record, rfl, _⟩ := each name content member
      exact ⟨record, member⟩
    · intro ⟨record, member⟩
      exact ⟨_, member, rfl⟩
  · obtain ⟨_, same, encoded⟩ := each name _ ((dirMember name record).mp member)
    cases same
    exact encoded
  · dsimp only
    omega
  · simp only [dirSlotsPerBlock]
    omega
  · dsimp only
    omega
  · exact le_trans (le_max_right _ _) (Nat.le_add_right _ _)
  · rw [← Except.ok.inj called]
    exact size

namespace Layout

/-- The record of an item. -/
def record (layout : Layout) : Text × Option (List UInt8) → Record
  | (name, some _) => ⟨ascii name, Fs.typeDir, List.replicate 7 0, 0, 0, 0⟩
  | (name, none) =>
    let (first, count) := (layout.dataMap.lookup name).getD (0, 0)
    ⟨ascii name, Fs.typeFile, List.replicate 7 0, if count ≠ 0 then layout.dataStart + first else 0, count,
      (layout.listing.blob name).length⟩

variable {layout : Layout} {entries : List (Text × Option (List UInt8))} {image : List UInt8}

lemma record_name (item : Text × Option (List UInt8)) : (layout.record item).name = ascii item.1 := by
  obtain ⟨name, content⟩ := item
  cases content <;> rfl

lemma file_record (found : layout.dataMap.lookup name = some (first, count)) :
    layout.record (name, none) = ⟨ascii name, Fs.typeFile, replicate 7 0,
        if count ≠ 0 then layout.dataStart + first else 0, count,
      (layout.listing.blob name).length⟩ := by
  simp only [record, found, Option.getD_some]

namespace Builds
variable (builds : layout.Builds entries image)
variable {item one two : Text × Option (List UInt8)} {bytes : List UInt8} {slot : Nat} {name : Text}

include builds

lemma encodeRecord_ok (member : item ∈ layout.items)
    (called : encodeRecord layout.dataStart layout.dataMap layout.listing.blob item = .ok bytes) :
    bytes.length = 64 ∧ decodeEntry (ofList bytes) = some (layout.record item) := by
  obtain ⟨name, content⟩ := item
  cases content with
  | none => exact encodeEntry_ok called
  | some ready =>
    cases called
    exact encodeEntry_ok (builds.ready name bytes member)

lemma body_length : layout.body.length = layout.dirBlocks * 8 := by
  have sizes := builds.encoded.length_eq
  have room := builds.room
  simp only [body, length_append, length_replicate, dirSlotsPerBlock] at room ⊢
  omega

lemma body_uniform : ∀ chunk ∈ layout.body, chunk.length = 64 := by
  intro chunk member
  obtain ⟨sizes, each⟩ := forall₂_iff_get.mp builds.encoded
  rcases mem_append.mp member with encoded | free
  · obtain ⟨⟨index, inside⟩, rfl⟩ := mem_iff_get.mp encoded
    exact (builds.encodeRecord_ok (get_mem _ _) (each index (sizes ▸ inside) inside)).1
  · rw [eq_of_mem_replicate free]
    exact length_replicate

lemma body_decodes (inside : slot < layout.body.length) :
    decodeEntry (ofList layout.body[slot]) = layout.items[slot]?.map layout.record := by
  obtain ⟨sizes, each⟩ := forall₂_iff_get.mp builds.encoded
  by_cases used : slot < layout.items.length
  · have within : slot < layout.records.length := sizes ▸ used
    have bytes : layout.body[slot] = layout.records[slot] := getElem_append_left within
    rw [bytes, getElem?_eq_getElem used]
    exact (builds.encodeRecord_ok (getElem_mem used) (each slot used within)).2
  have beyond : layout.records.length ≤ slot := sizes ▸ not_lt.mp used
  have bytes : layout.body[slot] = zeros 64 := by
    simp only [body, getElem_append_right beyond, getElem_replicate]
  rw [bytes, getElem?_eq_none (not_lt.mp used), Option.map_none, decodeEntry_none, entryFree_iff]
  exact fun index _ => ofList_zeros ..

lemma header_size : layout.header.length = 512 := (encodeHeader_ok builds.superblock []).1

lemma front_size : (layout.header ++ layout.body.flatten).length = 512 * layout.dataStart := by
  have chunks : layout.body.flatten.length = 64 * layout.body.length := by
    rw [length_flatten, map_eq_replicate_iff.mpr builds.body_uniform]
    simp [mul_comm]
  rw [length_append, builds.header_size, chunks, builds.body_length, dataStart]
  omega

lemma geometry : HeaderValid (ofList image) ∧
    sbGeometry (ofList image) = ⟨layout.total, 1, layout.dirBlocks, layout.dataStart, layout.dataBlocks⟩ := by
  rw [builds.written, append_assoc, append_assoc, append_assoc]
  exact (encodeHeader_ok builds.superblock _).2

lemma table (inside : slot < layout.dirBlocks * 8) :
    tableOf (diskDir (ofList image) (sbGeometry (ofList image))) slot = layout.items[slot]?.map layout.record := by
  have within : slot < layout.body.length := builds.body_length ▸ inside
  rw [← builds.body_decodes within, tableOf, diskDir, builds.geometry.2, entryAt]
  refine decodeEntry_congr fun index small => ?_
  simp only [entrySize] at small
  have place : 512 * 1 + (slot * entrySize + index) = layout.header.length + (slot * 64 + index) := by
    rw [builds.header_size]
    rfl
  rw [shift_apply, shift_apply, place, builds.written, append_assoc, append_assoc, append_assoc, ofList_append_right,
    ofList_flatten builds.body_uniform _ within small]

lemma extent (file : name ∈ layout.listing.files.map (·.1)) :
    ∃ first count, layout.dataMap.lookup name = some (first, count) ∧ (name, first, count) ∈ layout.dataMap := by
  have listed : name ∈ layout.dataMap.map (·.1) := by
    rw [builds.placed.keys, names, sorted, (perm_insertionSort ..).mem_iff]
    exact file
  cases found : layout.dataMap.lookup name with
  | none =>
    obtain ⟨pair, member, same⟩ := mem_map.mp listed
    have other := lookup_eq_none_iff.mp found pair member
    rw [same] at other
    simp at other
  | some extent =>
    obtain ⟨before, after, same, _⟩ := lookup_eq_some_iff.mp found
    exact ⟨extent.1, extent.2, rfl, by rw [same]; simp⟩

lemma blob (file : (name, bytes) ∈ layout.listing.files) : layout.listing.blob name = bytes := by
  have found : layout.listing.files.lookup name = some bytes := by
    have keys := builds.collected.fileNames
    generalize layout.listing.files = files at keys file
    obtain ⟨before, after, rfl⟩ := append_of_mem file
    refine lookup_eq_some_iff.mpr ⟨before, after, rfl, fun pair member => ?_⟩
    rw [map_append, nodup_append] at keys
    have apart := keys.2.2 pair.1 (mem_map_of_mem member) name (by simp)
    simpa using Ne.symm apart
  rw [Listing.blob, found]
  rfl

lemma content (file : name ∈ layout.listing.files.map (·.1)) :
    (ofList image).slice (512 * (layout.record (name, none)).first)
    (layout.listing.blob name).length = layout.listing.blob name := by
  obtain ⟨first, count, found, member⟩ := builds.extent file
  have counts := builds.placed.counts name first count member
  rw [file_record found]
  by_cases zero : count = 0
  · rw [blockCount_zero.mp (counts.symm.trans zero)]
    rfl
  obtain ⟨inside, same⟩ := builds.placed.extents name first count member zero
  have short := length_le_blocks (layout.listing.blob name)
  have size := builds.placed.size
  have front := builds.front_size
  have within : 512 * (layout.dataStart + first) + (layout.listing.blob name).length ≤
      (layout.header ++ layout.body.flatten ++ layout.data).length := by
    rw [length_append, front, data, size]
    omega
  have place : 512 * (layout.dataStart + first) = (layout.header ++ layout.body.flatten).length + first * 512 := by
    rw [front]
    omega
  have whole : (layout.header ++ layout.body.flatten ++ layout.data).length ≤ image.length := by
    rw [builds.written]
    simp only [length_append]
    omega
  simp only [if_pos zero]
  rw [slice_ofList _ _ _ (by omega), builds.written, append_assoc (_ ++ layout.data),
    drop_append_of_le_length (by omega),
    take_append_of_le_length (by rw [length_drop]; omega), place, drop_append,
    drop_eq_nil_of_le (Nat.le_add_right _ _), nil_append, Nat.add_sub_cancel_left]
  exact same

lemma shape : (sbGeometry (ofList image)).Valid (image.length / 512) := by
  have dirPos := builds.dir_pos
  have dirLe := builds.dir_le
  have dataPos := builds.data_pos
  rw [builds.size, builds.geometry.2, block, Nat.mul_div_cancel _ (by omega)]
  exact ⟨by simp only [total]; omega, le_rfl, dirPos, dirLe, Nat.one_pos, by simp only [total]; omega, dataPos,
    by simp only [dataStart]; omega, by simp only [total, dataStart]; omega, by simp only [dataStart]; omega⟩

lemma listed {content} (member : (name, content) ∈ layout.items) :
    name ∈ layout.listing.dirs ∨ name ∈ layout.listing.files.map (·.1) := by
  cases content with
  | none => exact .inr ((builds.files name).mpr member)
  | some record => exact .inl ((builds.dirs name).mpr ⟨record, member⟩)

lemma record_valid (member : item ∈ layout.items) : (layout.record item).Valid (sbGeometry (ofList image)) := by
  obtain ⟨name, content⟩ := item
  obtain ⟨parts, good, rfl⟩ := builds.collected.good (builds.listed member)
  have named : ascii (join parts) ≠ [] := fun empty => good.join_ne_nil (map_eq_nil_iff.mp empty)
  cases content with
  | some ready => exact ⟨named, good.components, rfl, .inr ⟨rfl, rfl, rfl, rfl⟩⟩
  | none =>
    obtain ⟨first, count, found, held⟩ := builds.extent ((builds.files _).mpr member)
    have counts := builds.placed.counts _ first count held
    have dataLe := builds.data_le
    rw [file_record found, builds.geometry.2]
    refine ⟨named, good.components, rfl, .inl ⟨rfl, ?_⟩⟩
    simp only [ExtentValid]
    by_cases zero : count = 0
    · rw [blockCount_zero.mp (counts.symm.trans zero), if_neg (fun nonzero => nonzero zero)]
      exact .inl ⟨zero, rfl, rfl⟩
    obtain ⟨inside, _⟩ := builds.placed.extents _ first count held zero
    have short := length_le_blocks (layout.listing.blob (join parts))
    have nonempty := length_pos_of_ne_nil fun empty => zero (counts.trans (blockCount_zero.mpr empty))
    rw [← counts] at short
    rw [if_pos zero]
    exact .inr ⟨nonempty, short, Nat.le_add_right _ _, by omega⟩

lemma records_apart (one : a ∈ layout.items) (two : b ∈ layout.items) (other : a.1 ≠ b.1) :
    (layout.record a).Apart (layout.record b) := by
  obtain ⟨nameA, contentA⟩ := a
  obtain ⟨nameB, contentB⟩ := b
  cases contentA with
  | some ready => exact .inl rfl
  | none =>
    cases contentB with
    | some ready => exact .inr (.inl rfl)
    | none =>
      obtain ⟨firstA, countA, foundA, heldA⟩ := builds.extent ((builds.files _).mpr one)
      obtain ⟨firstB, countB, foundB, heldB⟩ := builds.extent ((builds.files _).mpr two)
      have apart : countA = 0 ∨ countB = 0 ∨ firstA + countA ≤ firstB ∨ firstB + countB ≤ firstA :=
        builds.placed.separate heldA heldB other
      rw [file_record foundA, file_record foundB]
      simp only [Record.Apart]
      split <;> split <;> omega

lemma index_unique {a b : Nat} (heldA : layout.items[a]? = some one) (heldB : layout.items[b]? = some two)
    (same : one.1 = two.1) : a = b := by
  have inside := (List.getElem?_eq_some_iff.mp heldA).1
  refine (getElem?_inj (by rwa [length_map]) builds.distinct).mp ?_
  rw [getElem?_map, getElem?_map, heldA, heldB, Option.map_some, Option.map_some, same]

lemma name_unique (heldA : one ∈ layout.items) (heldB : two ∈ layout.items) (same : ascii one.1 = ascii two.1) :
    one.1 = two.1 := by
  obtain ⟨partsA, goodA, nameA⟩ := builds.collected.good (builds.listed heldA)
  obtain ⟨partsB, goodB, nameB⟩ := builds.collected.good (builds.listed heldB)
  exact ascii_inj (nameA ▸ goodA.printable) (nameB ▸ goodB.printable) same

lemma parent_listed (listed : name ∈ layout.listing.dirs ∨ name ∈ layout.listing.files.map (·.1))
    (member : parent ∈ ancestors (ascii name)) : ∃ dir ∈ layout.listing.dirs, ascii dir = parent := by
  obtain ⟨parts, good, rfl⟩ := builds.collected.good listed
  obtain ⟨depth, low, high, rfl⟩ := good.ancestors_ascii.mp member
  obtain ⟨stop, cut, before⟩ := good.before_slash.mpr ⟨depth, low, high, rfl⟩
  exact ⟨_, builds.collected.parent listed cut, congrArg ascii before⟩

lemma mountable : Mountable (image.length / 512) (ofList image) := by
  refine ⟨builds.geometry.1, builds.shape, ?_⟩
  have slots : (sbGeometry (ofList image)).slots = layout.dirBlocks * 8 := by
    rw [builds.geometry.2]
    rfl
  have read : ∀ slot found, slot < layout.dirBlocks * 8 →
    (tableOf (diskDir (ofList image) (sbGeometry (ofList image))) slot = some found ↔
        ∃ item, layout.items[slot]? = some item ∧ layout.record item = found) := by
    intro slot found inside
    rw [builds.table inside, Option.map_eq_some_iff]
  rw [slots]
  refine ⟨?_, ?_, ?_, ?_⟩
  · intro slot found inside held
    obtain ⟨item, at_, rfl⟩ := (read slot found inside).mp held
    exact builds.record_valid (mem_of_getElem? at_)
  · intro a b one two insideA insideB heldA heldB same
    obtain ⟨itemA, atA, rfl⟩ := (read a one insideA).mp heldA
    obtain ⟨itemB, atB, rfl⟩ := (read b two insideB).mp heldB
    rw [record_name, record_name] at same
    exact builds.index_unique atA atB (builds.name_unique (mem_of_getElem? atA) (mem_of_getElem? atB) same)
  · intro slot found inside held parent member
    obtain ⟨⟨name, content⟩, at_, rfl⟩ := (read slot found inside).mp held
    rw [record_name] at member
    obtain ⟨dir, listed, rfl⟩ := builds.parent_listed (builds.listed (mem_of_getElem? at_)) member
    obtain ⟨record, held⟩ := (builds.dirs dir).mp listed
    obtain ⟨above, placed⟩ := mem_iff_getElem?.mp held
    have room := builds.room
    have within : above < layout.dirBlocks * 8 :=
      lt_of_lt_of_le (List.getElem?_eq_some_iff.mp placed).1 room
    exact ⟨above, _, within, (read above _ within).mpr ⟨_, placed, rfl⟩, rfl, rfl⟩
  · intro a b one two insideA insideB heldA heldB other
    obtain ⟨itemA, atA, rfl⟩ := (read a one insideA).mp heldA
    obtain ⟨itemB, atB, rfl⟩ := (read b two insideB).mp heldB
    exact builds.records_apart (mem_of_getElem? atA) (mem_of_getElem? atB) fun same =>
      other (builds.index_unique atA atB same)

end Builds
end Layout

/-! Opening and listing. -/

lemma GoodParts.path (good : GoodParts parts) :
    PathShape (ofList (ascii ('/' :: join parts))) ((join parts).length + 1) ∧
      pathKey (ofList (ascii ('/' :: join parts))) ((join parts).length + 1) = ascii (join parts) := by
  have short := good.short
  have size : (ascii (join parts)).length = (join parts).length := length_map ..
  have shifted : (ofList (ascii ('/' :: join parts))).shift 1 = ofList (ascii (join parts)) :=
    @shift_append [slash] (ascii (join parts)) 1 rfl
  have key : pathKey (ofList (ascii ('/' :: join parts))) ((join parts).length + 1) = ascii (join parts) := by
    have bytes := slice_shift (ofList (ascii ('/' :: join parts))) 1 0 (join parts).length
    rw [shifted, slice_ofList _ _ _ (by omega), drop_zero, take_of_length_le (by omega)] at bytes
    exact bytes.symm
  refine ⟨⟨by omega, by simp only [maxPath]; omega, ?_, rfl, fun index low high => ?_, .inr ?_⟩, key⟩
  · simp [ofList, ascii]
  · have byte := congrFun shifted (index - 1)
    rw [shift_apply, Nat.add_sub_cancel' low] at byte
    rw [byte]
    exact good.ascii_printable (by omega)
  · rw [← pathKey, key]
    exact good.components

lemma walk_directories {files : Files} {parents : List (List UInt8)}
    (dirs : ∀ parent ∈ parents, files.nodes parent = some .directory) : files.walk parents = none := by
  induction parents with
  | nil => rfl
  | cons parent parents ih =>
    simp only [Files.walk, dirs parent mem_cons_self]
    exact ih fun other member => dirs other (mem_cons_of_mem _ member)

lemma openFile_first {files : Files} {path : ByteMemory} {len : Nat} {bytes : List UInt8}
    (shape : PathShape path len) (long : len ≠ 1)
    (parents : ∀ parent ∈ ancestors (pathKey path len), files.nodes parent = some .directory)
    (file : files.nodes (pathKey path len) = some (.file bytes)) (closed : ∀ slot, files.handles slot = none)
    (generation : files.generations 0 = 1) :
    ∃ opened, files.openFile (some path) = (.ok, some 16, opened) ∧
    opened.content 16 = some (pathKey path len, bytes) := by
  have found : files.fileKey (some path) = .ok (pathKey path len) := by
    simp only [Files.fileKey, Files.key, pathOk_iff.mpr shape, long, if_false, walk_directories parents, bind,
      Except.bind, file]
  have slot : ((range maxOpen).find? fun slot => (files.handles slot).isNone) = some 0 := by
    simp only [closed]
    rfl
  have first : packHandle 0 (bump (files.generations 0)) = 16 := by
    rw [generation]
    rfl
  simp only [Files.openFile, found, slot, first]
  refine ⟨_, rfl, ?_⟩
  simp [Files.content, Files.decode, Files.setHandle, generation, bump, u32, file]

namespace Layout

/-- The directory entry of an item. -/
def dirent (layout : Layout) (item : Text × Option (List UInt8)) : Dirent :=
  ⟨slash :: (layout.record item).name, (layout.record item).type, (layout.record item).length⟩

variable {layout : Layout} {entries : List (Text × Option (List UInt8))} {image : List UInt8} {fs : Volume}

/-- A volume whose directory is the one built. -/
structure Served (layout : Layout) (image : List UInt8) (fs : Volume) : Prop where
  mounted : fs.Mounted
  slots : fs.dirSlots = layout.dirBlocks * 8
  disk : (fs.blk.devices fs.dev).disk = ofList image
  table : ∀ slot, slot < fs.dirSlots → tableOf fs.dir slot = layout.items[slot]?.map layout.record

lemma Builds.served (builds : layout.Builds entries image)
    (disk : (before.blk.devices dev).disk = ofList image) (called : fsMount drive before dev = some (.ok, fs)) :
    layout.Served image fs := by
  obtain ⟨_, synced, device, kept, _⟩ := fsMount_ok called
  have same : (fs.blk.devices fs.dev).disk = ofList image := by rw [device, kept, disk]
  have geometry := synced.geometry
  rw [same, builds.geometry.2] at geometry
  have slots : fs.dirSlots = layout.dirBlocks * 8 := by
    rw [synced.slots, ← geometry]
    rfl
  refine ⟨synced.toMounted, slots, same, fun slot inside => ?_⟩
  have mirror := synced.mirror
  rw [same, ← geometry, ← builds.geometry.2] at mirror
  rw [tableOf_congr mirror inside, builds.table (slots ▸ inside)]

namespace Served
variable (served : layout.Served image fs) (builds : layout.Builds entries image)
variable {name : Text} {bytes : List UInt8}

include served builds

lemma held (member : item ∈ layout.items) :
    ∃ slot, slot < fs.dirSlots ∧ tableOf fs.dir slot = some (layout.record item) := by
  obtain ⟨slot, at_⟩ := mem_iff_getElem?.mp member
  have inside : slot < fs.dirSlots := by
    rw [served.slots]
    exact lt_of_lt_of_le (List.getElem?_eq_some_iff.mp at_).1 builds.room
  exact ⟨slot, inside, by rw [served.table slot inside, at_, Option.map_some]⟩

lemma directory (dir : name ∈ layout.listing.dirs) : fs.files.nodes (ascii name) = some .directory := by
  obtain ⟨ready, member⟩ := (builds.dirs name).mp dir
  obtain ⟨slot, inside, held⟩ := served.held builds member
  have found := served.mounted.table.lookup_iff.mpr ⟨slot, inside, held, rfl⟩
  simp only [Volume.files, Table.nodes]
  rw [show ascii name = (layout.record (name, some ready)).name from rfl, found]
  rfl

lemma file (listed : (name, bytes) ∈ layout.listing.files) : fs.files.nodes (ascii name) = some (.file bytes) := by
  have key : name ∈ layout.listing.files.map (·.1) := mem_map_of_mem listed
  obtain ⟨slot, inside, held⟩ := served.held builds ((builds.files name).mp key)
  obtain ⟨first, count, found, _⟩ := builds.extent key
  have record := file_record found
  have length : (layout.record (name, none)).length = bytes.length := by rw [record, builds.blob listed]
  have node := served.mounted.table.file_node inside held (by rw [record]) (ofList image)
  have content := builds.content key
  rw [builds.blob listed] at content
  rw [length, content, record_name] at node
  simp only [Volume.files, served.disk]
  exact node

lemma opens (listed : (name, bytes) ∈ layout.listing.files) (closed : ∀ slot, (fs.handles slot).inUse = false)
    (generation : fs.generations 0 = 1) :
    ∃ opened, fsOpen fs (some (ofList (ascii ('/' :: name)))) = (.ok, some 16, opened) ∧ opened.Mounted ∧
      opened.files.content 16 = some (ascii name, bytes) := by
  have file : name ∈ layout.listing.dirs ∨ name ∈ layout.listing.files.map (·.1) := .inr (mem_map_of_mem listed)
  obtain ⟨parts, good, rfl⟩ := builds.collected.good file
  obtain ⟨shape, key⟩ := good.path
  have nonempty := length_pos_of_ne_nil good.join_ne_nil
  have parents : ∀ parent ∈ ancestors (ascii (join parts)), fs.files.nodes parent = some .directory := by
    intro parent member
    obtain ⟨dir, listed, rfl⟩ := builds.parent_listed file member
    exact served.directory builds listed
  obtain ⟨target, opened, content⟩ := @openFile_first fs.files _ _ bytes shape (by omega) (by rwa [key])
    (by rw [key]; exact served.file builds listed) (fun slot => by simp only [Volume.files, closed]; rfl) generation
  rcases ran : fsOpen fs (some (ofList (ascii ('/' :: join parts)))) with ⟨result, handle, last⟩
  have agree := fsOpen_refines served.mounted ran
  rw [opened] at agree
  cases agree
  exact ⟨last, rfl, (@fsOpen_effect .working _ _ served.mounted _ _ _ ran).mounted, key ▸ content⟩

lemma readdir (ordinal : Nat) : fsReaddir fs ordinal = match (layout.items.map layout.dirent)[ordinal]? with
      | some entry => (.ok, some entry, fs)
      | none => (.endOfDir, none, fs) := by
  have room := builds.room
  simp only [dirSlotsPerBlock] at room
  have live : fs.liveSlots = range layout.items.length := by
    have free : ∀ index, index < fs.dirSlots → (entryFree (entryAt fs.dir index) = true ↔
      layout.items.length ≤ index) := by
      intro index inside
      rw [← decodeEntry_none, ← tableOf, served.table index inside, Option.map_eq_none_iff, getElem?_eq_none_iff]
    obtain ⟨rest, size⟩ := Nat.exists_eq_add_of_le (show layout.items.length ≤ fs.dirSlots by rw [served.slots]; omega)
    rw [Volume.liveSlots, size, range_add, filter_append, filter_eq_self.mpr, filter_eq_nil_iff.mpr, append_nil]
    · intro index member
      obtain ⟨offset, inside, rfl⟩ := mem_map.mp member
      rw [(free _ (by have := mem_range.mp inside; omega)).mpr (Nat.le_add_right _ _)]
      simp
    · intro index member
      have inside := mem_range.mp member
      rw [Bool.not_eq_true', Bool.eq_false_iff, ne_eq, free index (by omega)]
      omega
  rw [fsReaddir_eq served.mounted, live, getElem?_map]
  by_cases inside : ordinal < layout.items.length
  · have held := served.table ordinal (by rw [served.slots]; omega)
    rw [getElem?_eq_getElem inside, Option.map_some] at held
    obtain ⟨_, name, type, _, _, _, length⟩ := decodeEntry_some held
    rw [getElem?_range inside, getElem?_eq_getElem inside]
    simp only [Volume.dirent, name, type, length, Option.map_some]
    rfl
  rw [getElem?_eq_none (by simpa using inside), getElem?_eq_none (by omega)]
  rfl

end Served

section
variable (builds : layout.Builds entries image)
include builds

lemma Builds.dirent_file
    (file : (name, bytes) ∈ layout.listing.files) :
    layout.dirent (name, none) = ⟨ascii ('/' :: name), Fs.typeFile, bytes.length⟩ := by
  obtain ⟨first, count, found, _⟩ := builds.extent (mem_map_of_mem file)
  simp only [dirent, file_record found, builds.blob file]
  rfl

/-- The listing is the entries and the directories on the way to them. -/
lemma Builds.mem_dirents :
    entry ∈ layout.items.map layout.dirent ↔ (∃ path bytes, (path, some bytes) ∈ entries ∧
      entry = ⟨ascii path, Fs.typeFile, bytes.length⟩) ∨
        ∃ path, ((path, none) ∈ entries ∨ Intermediate entries path) ∧ entry = ⟨ascii path, Fs.typeDir, 0⟩ := by
  have collected := builds.collected
  rw [mem_map]
  constructor
  · rintro ⟨⟨name, content⟩, member, rfl⟩
    cases content with
    | none =>
      obtain ⟨⟨_, bytes⟩, file, rfl⟩ := mem_map.mp ((builds.files name).mpr member)
      exact .inl ⟨_, bytes, (collected.files _ bytes).mp file, builds.dirent_file file⟩
    | some ready => exact .inr ⟨'/' :: name, (collected.dirs name).mp ((builds.dirs name).mpr ⟨ready, member⟩), rfl⟩
  rintro (⟨path, bytes, given, rfl⟩ | ⟨path, given, rfl⟩)
  · obtain ⟨parts, _, rfl⟩ := collected.paths path _ given
    have file := (collected.files (join parts) bytes).mpr given
    exact ⟨(join parts, none), (builds.files _).mp (mem_map_of_mem file), builds.dirent_file file⟩
  have absolute : ∃ name, path = '/' :: name := by
    rcases given with own | ⟨whole, content, stop, member, positive, _, rfl⟩
    · obtain ⟨parts, _, rfl⟩ := collected.paths path _ own
      exact ⟨_, rfl⟩
    obtain ⟨parts, _, rfl⟩ := collected.paths whole content member
    obtain ⟨rest, rfl⟩ := Nat.exists_eq_add_of_lt positive
    exact ⟨(join parts).take (0 + rest), rfl⟩
  obtain ⟨name, rfl⟩ := absolute
  obtain ⟨ready, member⟩ := (builds.dirs name).mp ((collected.dirs name).mpr given)
  exact ⟨(name, some ready), member, rfl⟩

lemma Builds.dirents_nodup : (layout.items.map layout.dirent).Nodup := by
  refine List.Nodup.map_on (fun one heldA two heldB same => ?_) builds.distinct.of_map
  have names : ascii one.1 = ascii two.1 := by
    have paths := congrArg Dirent.name same
    simp only [dirent, record_name, List.cons.injEq, true_and] at paths
    exact paths
  exact inj_on_of_nodup_map builds.distinct heldA heldB (builds.name_unique heldA heldB names)

end

end Layout

section
variable {entries : List (Text × Option (List UInt8))} {padBlocks : Nat} {dataSlack : Int} {gaps : List (Text × Int)}
  {dirSlack : Int} {image : List UInt8} {drive : Blk.Drive} {devices : Nat → Blk.Device} {dev : Nat}

lemma built_served (called : build entries padBlocks dataSlack gaps dirSlack = .ok image) (works : drive.Works)
    (known : dev < Blk.maxDevices) (attached : devices dev = .attach image)
    (small : image.length / 512 ≤ Blk.lba28Max) :
    ∃ layout fs, Layout.Builds layout entries image ∧ fsMount drive (.boot devices) dev = some (.ok, fs) ∧
    layout.Served image fs ∧
      (∀ slot, (fs.handles slot).inUse = false) ∧ fs.generations 0 = 1 := by
  obtain ⟨layout, builds⟩ := build_ok called
  have disk : ((Volume.boot devices).blk.devices dev).disk = ofList image := congrArg Blk.Device.disk attached
  have blocks : ((Volume.boot devices).blk.devices dev).blockCount = image.length / 512 :=
    (congrArg Blk.Device.blockCount attached).trans (min_eq_left small)
  have present : ((Volume.boot devices).blk.devices dev).present = true := congrArg Blk.Device.present attached
  obtain ⟨fs, mounted, from_⟩ := @fsMount_accepts drive (.boot devices) _ dev works.reads rfl known present
    (by rw [disk, blocks]; exact builds.mountable)
  refine ⟨layout, fs, builds, mounted, builds.served disk mounted, fun slot => ?_, ?_⟩
  · rw [from_.handles]
    rfl
  · rw [from_.generations]
    rfl

/-- What the builder was given comes back: the image mounts, each file reads back wherever and
as far as one call may read, and the directory lists the entries and the directories on the
way to them, each once. -/
theorem built_image_reads_back (called : build entries padBlocks dataSlack gaps dirSlack = .ok image)
    (works : drive.Works) (known : dev < Blk.maxDevices) (attached : devices dev = .attach image)
    (small : image.length / 512 ≤ Blk.lba28Max) :
    ∃ fs, fsMount drive (.boot devices) dev = some (.ok, fs) ∧ (∀ path bytes, (path, some bytes) ∈ entries →
        ∃ handle opened, fsOpen fs (some (ofList (ascii path))) = (.ok, some handle, opened) ∧
          ∀ offset address len, offset ≤ bytes.length → len ≤ maxReadBytes → address ≠ 0 → address % 2 = 0 →
            (fsRead drive opened handle offset address len).1 = ⟨.ok, some ((bytes.drop offset).take len).length,
              (bytes.drop offset).take len⟩) ∧
      ∃ listing : List Dirent, listing.Nodup ∧ (∀ ordinal, fsReaddir fs ordinal = match listing[ordinal]? with
          | some entry => (.ok, some entry, fs)
          | none => (.endOfDir, none, fs)) ∧
        ∀ entry, entry ∈ listing ↔ (∃ path bytes, (path, some bytes) ∈ entries ∧
          entry = ⟨ascii path, Fs.typeFile, bytes.length⟩) ∨
            ∃ path, ((path, none) ∈ entries ∨ Intermediate entries path) ∧ entry = ⟨ascii path, Fs.typeDir, 0⟩ := by
  obtain ⟨layout, fs, builds, mounted, served, closed, generation⟩ := built_served called works known attached small
  refine ⟨fs, mounted, fun path bytes given => ?_, layout.items.map layout.dirent, builds.dirents_nodup,
    served.readdir builds,
    fun entry => builds.mem_dirents⟩
  obtain ⟨parts, _, rfl⟩ := builds.collected.paths path _ given
  obtain ⟨opened, ran, ready, content⟩ := served.opens builds ((builds.collected.files _ bytes).mpr given) closed
    generation
  refine ⟨16, opened, ran, fun offset address len inside short nonzero even => ?_⟩
  rcases read : fsRead drive opened 16 offset address len with ⟨answer, after⟩
  rw [← (fsRead_refines ready read (.inl works)).1]
  simp only [Files.read, content]
  rw [if_neg (by omega), if_neg (by omega), if_neg (by omega)]

/-- The host decoder reads back what the host builder wrote: every file, with its bytes where its entry points. -/
theorem built_image_decodes (built : build entries padBlocks dataSlack gaps dirSlack = .ok image) :
    ∃ result, FsOutput.decode image = .ok result ∧
      ∀ name bytes, ('/' :: name, some bytes) ∈ entries → ∃ entry ∈ result.entries,
        entry.name = ascii name ∧ entry.ftype = typeFile ∧ (ofList image).slice
        (512 * entry.first) entry.length = bytes := by
  obtain ⟨layout, builds⟩ := build_ok built
  have size := builds.size
  simp only [block, Layout.total] at size
  have shape := @FsOutput.geometry_shape image (by omega)
  have dirs : (FsOutput.geometry image).dirBlocks = layout.dirBlocks :=
    congrArg Geometry.dirBlocks (shape.trans builds.geometry.2)
  refine ⟨_, (FsOutput.decode_iff (by omega) (by omega)).mpr ⟨builds.mountable, rfl⟩, fun name bytes given => ?_⟩
  have listed := (builds.collected.files name bytes).mpr given
  have key : name ∈ layout.listing.files.map (·.1) := mem_map_of_mem listed
  obtain ⟨slot, held⟩ := mem_iff_getElem?.mp ((builds.files name).mp key)
  have inside : slot < layout.dirBlocks * 8 := lt_of_lt_of_le (List.getElem?_eq_some_iff.mp held).1 builds.room
  obtain ⟨_, _, found, _⟩ := builds.extent key
  have record := Layout.file_record found
  have content := builds.content key
  rw [builds.blob listed] at content record
  have stored : FsOutput.imageTable image (FsOutput.geometry image) slot = some (layout.record (name, none)) := by
    rw [FsOutput.imageTable, shape, builds.table inside, held, Option.map_some]
  refine ⟨_, FsOutput.mem_described.mpr ⟨slot, _, dirs ▸ inside, stored, rfl⟩, rfl, by rw [record]; rfl, ?_⟩
  rw [← content]
  exact congrArg _ (by rw [record]; rfl)

end

/-- A nested file and another behind a gap. -/
theorem built_image_decodes_two_files :
    ∃ image result, build [(['/', 'd', '/', 'a'], some [1, 2, 3]), (['/', 'b'], some [4])] 1 1
    [(['b'], 2)] 0 = .ok image ∧
      FsOutput.decode image = .ok result ∧
      (∃ entry ∈ result.entries, entry.name = ascii ['d', '/', 'a'] ∧
        (ofList image).slice (512 * entry.first) entry.length = [1, 2, 3]) ∧
      ∃ entry ∈ result.entries, entry.name = ascii ['b'] ∧ (ofList image).slice (512 * entry.first) entry.length =
      [4] := by
  obtain ⟨image, built, -⟩ : ∃ image, build [(['/', 'd', '/', 'a'], some [1, 2, 3]),
    (['/', 'b'], some [4])] 1 1 [(['b'], 2)] 0 = .ok image ∧
      image.length = 4096 := exists_ok (by decide +kernel)
  obtain ⟨result, decoded, files⟩ := built_image_decodes built
  obtain ⟨first, inside, name, -, bytes⟩ := files _ _ mem_cons_self
  obtain ⟨second, within, other, -, more⟩ := files _ _ (mem_cons_of_mem _ mem_cons_self)
  exact ⟨image, result, built, decoded, ⟨first, inside, name, bytes⟩, second, within, other, more⟩

theorem built_image_reads_back_nested :
    ∃ image fs handle opened, build [(['/', 'd', '/', 'a'], some [1, 2, 3])] 1 1 [] 0 = .ok image ∧
      fsMount .working (.boot fun _ => .attach image) 0 = some (.ok, fs) ∧
      fsOpen fs (some (ofList (ascii ['/', 'd', '/', 'a']))) = (.ok, some handle, opened) ∧
      (fsRead .working opened handle 0 2 3).1 = ⟨.ok, some 3, [1, 2, 3]⟩ := by
  obtain ⟨image, built, size⟩ : ∃ image, build [(['/', 'd', '/', 'a'], some [1, 2, 3])] 1 1 [] 0 = .ok image ∧
    image.length = 2560 :=
    exists_ok (by decide +kernel)
  obtain ⟨fs, mounted, files, _⟩ := @built_image_reads_back _ _ _ _ _ _ .working (fun _ => .attach image) 0 built
    Blk.Drive.working_works (by decide) rfl (by rw [size]; decide)
  obtain ⟨handle, opened, ran, reads⟩ := files _ _ mem_cons_self
  exact ⟨image, fs, handle, opened, built, mounted, ran, reads 0 2 3 (by decide) (by decide) (by decide) (by decide)⟩

/-- One call never reads more than 16384 bytes, so a longer file cannot be read whole by one. -/
theorem long_file_refused :
    ∃ path bytes image fs handle opened, build [(path, some bytes)] 0 0 [] 0 = .ok image ∧
      fsMount .working (.boot fun _ => .attach image) 0 = some (.ok, fs) ∧
      fsOpen fs (some (ofList (ascii path))) = (.ok, some handle, opened) ∧
      (fsRead .working opened handle 0 2 bytes.length).1 = ⟨.invalid, none, []⟩ := by
  obtain ⟨image, built, size⟩ : ∃ image, build [(['/', 'a'], some (replicate 16385 7))] 0 0 [] 0 = .ok image ∧
    image.length = 17920 :=
    exists_ok (by decide +kernel)
  obtain ⟨layout, fs, builds, mounted, served, closed, generation⟩ :=
    @built_served _ _ _ _ _ _ .working (fun _ => .attach image) 0
    built Blk.Drive.working_works (by decide) rfl (by rw [size]; decide)
  obtain ⟨opened, ran, ready, content⟩ := served.opens builds ((builds.collected.files ['a'] _).mpr mem_cons_self)
    closed generation
  refine ⟨_, _, image, fs, 16, opened, built, mounted, ran, ?_⟩
  rcases read : fsRead .working opened 16 0 2 (replicate 16385 (7 : UInt8)).length with ⟨answer, after⟩
  rw [← (fsRead_refines ready read (.inl Blk.Drive.working_works)).1]
  simp only [Files.read, content]
  rw [if_pos (by rw [length_replicate]; decide)]

end Rynor.FsImage
