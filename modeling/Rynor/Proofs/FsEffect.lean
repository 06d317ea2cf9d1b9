import Rynor.Proofs.FsWrite

/-! What one call can do to the directory and to the disk, whatever the drive does. Every
fact about runs is derived from this. -/

namespace Rynor.Fs
open ByteMemory Blk List

/-- The file a call is about, if its arguments denote one. -/
def Volume.names (fs : Volume) : Op → Option (List UInt8)
  | .create path | .openFile path | .stat path | .unlink path =>
    match path, pathOk path with
    | some path, some len => some (pathKey path len)
    | _, _ => none
  | .write handle .. | .read handle .. | .close handle =>
    (decodeHandle fs handle).bind fun slot => (tableOf fs.dir (fs.handles slot).entry).map (·.name)

/-- The directory changes: a slot and the entry the call wants there. -/
inductive Change (fs : Volume) : Op → Nat → ByteMemory → Prop where
  | create {path : ByteMemory} {len slot : Nat} (shape : PathShape path len) (long : len ≠ 1)
    (inside : slot < fs.dirSlots)
      (vacant : tableOf fs.dir slot = none) (fresh : (tableOf fs.dir).find fs.dirSlots (pathKey path len) = none)
      (parents : (tableOf fs.dir).walk fs.dirSlots (ancestors (pathKey path len)) = none) :
      Change fs (.create (some path)) slot (newEntry (pathKey path len))
  | unlink {path : Option ByteMemory} {slot : Nat} {record : Record} (file : fs.FileAt slot record)
      (named : fs.names (.unlink path) = some record.name) : Change fs (.unlink path) slot fun _ => 0
  | grow {handle offset address len slot : Nat} {source : ByteMemory} {record : Record}
      (decoded : decodeHandle fs handle = some slot) (file : fs.FileAt (fs.handles slot).entry record)
        (positive : 0 < len)
      (fits : offset + len ≤ record.count * 512) :
      Change fs (.write handle offset address source len) (fs.handles slot).entry
        (wr64le (entryAt fs.dir (fs.handles slot).entry) 56 (offset + len))
  | relocate {handle offset address len slot newFirst : Nat} {source : ByteMemory} {record : Record}
      (decoded : decodeHandle fs handle = some slot) (file : fs.FileAt (fs.handles slot).entry record)
        (positive : 0 < len)
      (taken : relocates fs handle offset address len = true)
      (free : (tableOf fs.dir).FreeRange fs.dirSlots fs.geometry newFirst ((offset + len + 511) / 512)) :
      Change fs (.write handle offset address source len) (fs.handles slot).entry
        (switchedEntry (entryAt fs.dir (fs.handles slot).entry) newFirst ((offset + len + 511) / 512) (offset + len))

lemma Table.walk_none {table : Table} {slots : Nat} {parents : List (List UInt8)}
    (clear : table.walk slots parents = none) {parent : List UInt8} (member : parent ∈ parents) :
    ∃ above holder, above < slots ∧ table above = some holder ∧ holder.name = parent ∧ holder.type = typeDir := by
  induction parents with
  | nil => cases member
  | cons head rest ih =>
    simp only [Table.walk] at clear
    split at clear
    · cases clear
    rename_i holder found
    split at clear
    next folder =>
      rcases mem_cons.mp member with rfl | later
      · obtain ⟨slot, inside, _, held, name⟩ := Table.lookup_some found
        exact ⟨slot, holder, inside, held, name, folder⟩
      · exact ih clear later
    · cases clear

lemma Table.walk_code {table : Table} {slots : Nat} {parents : List (List UInt8)} {code : FsResult}
    (refused : table.walk slots parents = some code) : code = .notFound ∨ code = .notDir := by
  induction parents with
  | nil => cases refused
  | cons parent rest ih =>
    simp only [Table.walk] at refused
    split at refused
    · cases refused
      exact .inl rfl
    split at refused
    · exact ih refused
    · cases refused
      exact .inr rfl

section
variable {fs : Volume} {op : Op} {slot : Nat} {entry : ByteMemory} {record : Record}

section
variable (mounted : fs.Mounted)
include mounted

/-- A file whose extent or length changes keeps its name and its place in the tree. -/
private lemma resize_valid {next} (file : fs.FileAt slot record) (name : next.name = record.name)
    (valid : next.Valid fs.geometry)
    (apart : ∀ other holder, other < fs.dirSlots → other ≠ slot → tableOf fs.dir other = some holder →
      holder.Apart next) :
    Table.Valid (Function.update (tableOf fs.dir) slot (some next)) fs.dirSlots fs.geometry := by
  refine mounted.table.replace ?_ ?_
  · intro held same
    rw [file.held] at same
    cases same
    exact file.file
  intro wanted same
  cases same
  refine ⟨valid, fun other holder inside different held => ⟨fun same => ?_,
    apart other holder inside different held⟩, ?_⟩
  · exact different (mounted.table.unique other slot holder record inside file.inside held file.held (same.trans name))
  · intro parent member
    rw [name] at member
    exact mounted.table.parents slot record file.inside file.held parent member

lemma Volume.Mounted.file_valid (file : fs.FileAt slot record) : record.Valid fs.geometry :=
  mounted.table.records slot record file.inside file.held

private lemma grown_record (file : fs.FileAt slot record) (positive : 0 < stop)
    (fits : stop ≤ record.count * 512) : Record.Valid fs.geometry { record with length := stop } := by
  have valid := mounted.file_valid file
  have extent := mounted.file_extent file
  have some : record.count ≠ 0 := by omega
  exact ⟨valid.named, valid.components, valid.reserved,
    .inl ⟨file.file, .inr ⟨positive, fits, extent.low some, extent.high some⟩⟩⟩

lemma Volume.Mounted.free_bound {first count}
    (free : (tableOf fs.dir).FreeRange fs.dirSlots fs.geometry first count) : first + count < u64 := by
  have inside := mounted.shape.data_inside
  have small := mounted.small
  have high := free.2.1
  have limit : lba28Max < u64 := by decide
  omega

lemma relocates_some (decoded : decodeHandle fs handle = some index)
    (file : fs.FileAt (fs.handles index).entry record) :
    relocates fs handle offset address len = true ↔ len ≤ maxWriteBytes ∧ offset ≤ record.length ∧ len ≠ 0 ∧
    address ≠ 0 ∧
      address % 2 ≠ 1 ∧ record.count * 512 < offset + len := by
  obtain ⟨_, _, type, _, _, count, length⟩ := decodeEntry_some file.held
  obtain ⟨lengthBound, countBound⟩ := mounted.length_bound file
  have covers := (mounted.file_extent file).covers
  have width := u64_eq
  have most : maxWriteBytes = 16384 := by decide
  have wide : record.count * 512 % u64 = record.count * 512 := Nat.mod_eq_of_lt (by omega)
  simp only [relocates, decoded, type, file.file, count, length, wide, decide_eq_true_eq, true_and]
  constructor
  · rintro ⟨short, begun, _, nonzero, placed, aligned, _, past⟩
    exact ⟨short, begun, nonzero, placed, aligned, past⟩
  · rintro ⟨short, begun, nonzero, placed, aligned, past⟩
    exact ⟨short, begun, by omega, nonzero, placed, aligned, by omega, past⟩

lemma Volume.Mounted.decode_grown (file : fs.FileAt slot record) (fits : stop ≤ record.count * 512) :
    decodeEntry (wr64le (entryAt fs.dir slot) 56 stop) = some { record with length := stop } := by
  have bound := (mounted.length_bound file).2
  have width := u64_eq
  exact decodeEntry_grown file.held file.file (by omega)

lemma Volume.Mounted.decode_switched (file : fs.FileAt slot record) (begun : offset ≤ record.length)
    (short : len ≤ maxWriteBytes) (free : (tableOf fs.dir).FreeRange fs.dirSlots fs.geometry
      first ((offset + len + 511) / 512)) :
    decodeEntry (switchedEntry (entryAt fs.dir slot) first ((offset + len + 511) / 512) (offset + len)) =
      some { record with first, count := (offset + len + 511) / 512, length := offset + len } := by
  have bound := mounted.free_bound free
  have lengthBound := (mounted.length_bound file).1
  have width := u64_eq
  have most : maxWriteBytes = 16384 := by decide
  exact decodeEntry_switched file.held file.file (by omega) (by omega) (by omega)

/-- A change replaces a leaf and keeps the directory valid; what it writes is known. -/
lemma Change.valid (change : Change fs op slot entry) :
    slot < fs.dirSlots ∧ (∀ record, tableOf fs.dir slot = some record → record.type = typeFile) ∧
      Table.Valid (Function.update (tableOf fs.dir) slot (decodeEntry entry)) fs.dirSlots fs.geometry := by
  have isFile : ∀ {index : Nat} {held : Record}, fs.FileAt index held → ∀ record, tableOf fs.dir index =
    some record → record.type = typeFile := by
    intro index held file record same
    rw [file.held] at same
    cases same
    exact file.file
  cases change with
  | @create path len slot shape long inside vacant fresh parents =>
    have key := shape.keyValid long
    have empty : ∀ record, tableOf fs.dir slot = some record → record.type = typeFile := by
      intro record held
      rw [vacant] at held
      cases held
    refine ⟨inside, empty, ?_⟩
    rw [decodeEntry_newEntry key]
    refine mounted.table.replace empty fun record same => ?_
    cases same
    refine ⟨⟨key.nonempty, key.components, rfl, .inl ⟨rfl, .inl ⟨rfl, rfl, rfl⟩⟩⟩, ?_, ?_⟩
    · intro other holder otherInside _ held
      exact ⟨Table.find_none fresh key.nonempty otherInside held, .inr (.inl rfl)⟩
    · intro parent member
      exact Table.walk_none parents member
  | unlink file named =>
    refine ⟨file.inside, isFile file, ?_⟩
    rw [decodeEntry_zero]
    exact mounted.table.replace (isFile file) nofun
  | @grow handle offset address len index source record decoded file positive fits =>
    refine ⟨file.inside, isFile file, ?_⟩
    rw [mounted.decode_grown file fits]
    refine resize_valid mounted file rfl (grown_record mounted file (by omega) fits) ?_
    intro other holder inside different held
    exact mounted.table.apart other _ holder record inside file.inside held file.held different
  | @relocate handle offset address len index newFirst source record decoded file positive taken free =>
    have valid := mounted.file_valid file
    obtain ⟨short, begun, _⟩ := (relocates_some mounted decoded file).mp taken
    refine ⟨file.inside, isFile file, ?_⟩
    rw [mounted.decode_switched file begun short free]
    have extent : ExtentValid fs.geometry newFirst ((offset + len + 511) / 512) (offset + len) :=
      .inr ⟨by omega, by omega, free.1, free.2.1⟩
    refine resize_valid mounted file rfl ?_ ?_
    · exact ⟨valid.named, valid.components, valid.reserved, .inl ⟨file.file, extent⟩⟩
    · intro other holder inside _ held
      rcases free.2.2 other holder inside held with empty | before | after
      · exact .inl empty
      · exact .inr (.inr (.inl before))
      · exact .inr (.inr (.inr after))

end

lemma names_write (decoded : decodeHandle fs handle = some index)
    (file : fs.FileAt (fs.handles index).entry record) (offset address : Nat) (source : ByteMemory) (len : Nat) :
    fs.names (.write handle offset address source len) = some record.name := by
  simp [Volume.names, decoded, file.held]

lemma Change.old_name (change : Change fs op slot entry) (held : tableOf fs.dir slot = some record) :
    fs.names op = some record.name := by
  cases change with
  | create shape long inside vacant fresh parents =>
    rw [vacant] at held
    cases held
  | unlink file named =>
    rw [file.held] at held
    cases held
    exact named
  | grow decoded file positive fits | relocate decoded file _ _ _ =>
    rw [file.held] at held
    cases held
    exact names_write decoded file _ _ _ _

/-- What the entry of a change decodes to: a file, unless the call removes one. -/
lemma Change.decoded (mounted : fs.Mounted) (change : Change fs op slot entry) :
    (∃ path, op = .unlink path ∧ decodeEntry entry = none) ∨
      ∃ next, decodeEntry entry = some next ∧ next.type = typeFile ∧ fs.names op = some next.name := by
  cases change with
  | @create path len slot shape long inside vacant fresh parents =>
    right
    refine ⟨_, decodeEntry_newEntry (shape.keyValid long), rfl, ?_⟩
    simp only [Volume.names, pathOk_iff.mpr shape, newRecord]
  | unlink file named => exact .inl ⟨_, rfl, decodeEntry_zero⟩
  | @grow handle offset address len index source record decoded file positive fits =>
    exact .inr ⟨_, mounted.decode_grown file fits, file.file, names_write decoded file offset address source len⟩
  | @relocate handle offset address len index newFirst source record decoded file positive taken free =>
    obtain ⟨short, begun, _⟩ := (relocates_some mounted decoded file).mp taken
    exact .inr ⟨_, mounted.decode_switched file begun short free, file.file,
      names_write decoded file offset address source len⟩

end

/-! The effect of a call. -/

section
variable {drive : Drive} {fs after : Volume} {op : Op} {reply : Reply} {data tail : List (Nat × ByteMemory)}
variable {slot len handle offset address : Nat} {entry : ByteMemory} {blk before final : Blk.State}
  {result : FsResult} {path : Option ByteMemory}
  {record : Record}

/-- Sectors of the data region, none of them another file's. -/
structure DataStores (fs : Volume) (op : Op) (data : List (Nat × ByteMemory)) : Prop where
  inside : ∀ entry ∈ data, fs.geometry.dataStart ≤ entry.1 ∧ entry.1 < fs.geometry.dataStart + fs.geometry.dataBlocks
  owned : ∀ entry ∈ data, ∀ slot record, slot < fs.dirSlots → tableOf fs.dir slot = some record →
    record.first ≤ entry.1 → entry.1 < record.first + record.count → fs.names op = some record.name

/-- One attempt at a directory change: stored and taken over into RAM, or reported as an
error, and then on the disk only after an ambiguous outcome. -/
structure Attempt (drive : Drive) (fs : Volume) (op : Op) (result : FsResult) (data tail : List (Nat × ByteMemory))
    (slot : Nat) (entry dir : ByteMemory) : Prop where
  change : Change fs op slot entry
  stored : tail = [] ∨ ∃ bytes, tail = [(slotSector fs slot, bytes)] ∧
    replay sectorSize (fs.blk.devices fs.dev).disk (data ++ tail) =
      (replay sectorSize (fs.blk.devices fs.dev).disk data).overlay (512 * fs.geometry.dirStart + slot * entrySize)
        entrySize entry
  outcome : (result = .ok ∧ tail ≠ [] ∧ dir = fs.dir.overlay (slot * entrySize) entrySize entry) ∨
    (result = .ioErr ∧ dir = fs.dir ∧ (drive.Clean → tail = []))

/-- Everything one call can do. -/
structure Effect (drive : Drive) (fs : Volume) (op : Op) (reply : Reply) (after : Volume)
    (data tail : List (Nat × ByteMemory)) : Prop where
  wrote : Wrote fs.dev (data ++ tail) fs.blk after.blk
  stores : DataStores fs op data
  device : after.dev = fs.dev
  geometry : after.geometry = fs.geometry
  slots : after.dirSlots = fs.dirSlots
  mounted : after.Mounted
  directory : (tail = [] ∧ after.dir = fs.dir) ∨
    ∃ slot entry, Attempt drive fs op reply.result data tail slot entry after.dir

lemma DataStores.nil : DataStores fs op [] := ⟨nofun, nofun⟩

section
variable (mounted : fs.Mounted)
include mounted

lemma Volume.Mounted.staged (stage : String) : Volume.Mounted { fs with stage } :=
  ⟨mounted.on, mounted.authorized, mounted.usable, mounted.shape, mounted.slots, mounted.table, mounted.handles⟩

lemma Effect.moved (wrote : Wrote fs.dev data fs.blk blk) (stores : DataStores fs op data) (stage : String) :
    Effect drive fs op reply { fs with blk, stage } data [] := by
  refine ⟨?_, stores, rfl, rfl, rfl, (mounted.stored wrote).staged stage, .inl ⟨rfl, rfl⟩⟩
  rw [append_nil]
  exact wrote

lemma Effect.idle (stage : String) : Effect drive fs op reply { fs with stage } [] [] :=
  .moved mounted (.nil rfl) .nil stage

lemma Volume.Mounted.changed {handles : Nat → Handle} {stores stage} (change : Change fs op slot entry)
    (wrote : Wrote fs.dev stores fs.blk blk)
    (kept : ∀ index, (handles index).inUse = true → fs.handles index = handles index ∧
      ((handles index).entry = slot → ∃ next, decodeEntry entry = some next ∧ next.type = typeFile)) :
    Volume.Mounted { fs with blk, dir := fs.dir.overlay (slot * entrySize) entrySize entry, handles, stage } := by
  have moved := mounted.stored wrote
  refine ⟨mounted.on, mounted.authorized, moved.usable, moved.shape, mounted.slots, ?_, ?_⟩
  · rw [tableOf_overlay]
    exact (change.valid mounted).2.2
  intro index used
  obtain ⟨same, replaced⟩ := kept index used
  simp only at used ⊢
  rw [← same] at used replaced ⊢
  obtain ⟨inside, record, held, file⟩ := mounted.handles index used
  refine ⟨inside, ?_⟩
  rw [tableOf_overlay]
  by_cases here : (fs.handles index).entry = slot
  · obtain ⟨next, decoded, nextFile⟩ := replaced here
    rw [here, Function.update_self]
    exact ⟨next, decoded, nextFile⟩
  · rw [Function.update_of_ne here]
    exact ⟨record, held, file⟩

end

lemma SlotWritten.attempt (change : Change fs op slot entry)
    (wrote : Wrote fs.dev data fs.blk blk) (written : SlotWritten drive { fs with blk } slot entry result after) :
    ∃ tail, Wrote fs.dev (data ++ tail) fs.blk after.blk ∧
    Attempt drive fs op result data tail slot entry after.dir := by
  have disk : (blk.devices fs.dev).disk = replay sectorSize (fs.blk.devices fs.dev).disk data := wrote.disk
  have placed := slotBytes_store { fs with blk } slot entry
  simp only [disk] at placed
  have image : replay sectorSize (fs.blk.devices fs.dev).disk
    (data ++ [(slotSector fs slot, slotBytes { fs with blk } slot entry)]) =
      (replay sectorSize (fs.blk.devices fs.dev).disk data).overlay (512 * fs.geometry.dirStart + slot * entrySize)
        entrySize entry := by
    rw [replay_append, replay_cons, replay_nil]
    exact placed
  rcases written.outcome with ⟨ok, dir, stored⟩ | ⟨failed, dir, lost⟩ | ⟨failed, dir, unclean, stored⟩
  · exact ⟨_, wrote.trans stored, change, .inr ⟨_, rfl, image⟩, .inl ⟨ok, nofun, dir⟩⟩
  · exact ⟨[], wrote.trans lost, change, .inl rfl, .inr ⟨failed, dir, fun _ => rfl⟩⟩
  · exact ⟨_, wrote.trans stored, change, .inr ⟨_, rfl, image⟩, .inr ⟨failed, dir, fun clean => absurd clean unclean⟩⟩

/-- The same for a change that leaves a file in its slot: no handle is affected. -/
lemma SlotWritten.effect (mounted : fs.Mounted)
    (change : Change fs op slot entry) (wrote : Wrote fs.dev data fs.blk blk) (stores : DataStores fs op data)
    (written : SlotWritten drive { fs with blk } slot entry reply.result after)
    (file : ∃ next, decodeEntry entry = some next ∧ next.type = typeFile) :
    ∃ tail, Effect drive fs op reply after data tail ∧
    Attempt drive fs op reply.result data tail slot entry after.dir := by
  obtain ⟨stage, rest⟩ := written.rest
  obtain ⟨tail, stored, attempt⟩ := written.attempt change wrote
  refine ⟨tail, ⟨stored, stores, by rw [rest], by rw [rest], by rw [rest], ?_, .inr ⟨slot, entry, attempt⟩⟩, attempt⟩
  rcases attempt.outcome with ⟨_, _, dir⟩ | ⟨_, dir, _⟩
  · rw [rest, dir]
    exact mounted.changed change stored fun index used => ⟨rfl, fun _ => file⟩
  · rw [rest, dir]
    exact (mounted.stored stored).staged stage

lemma checkPath_ok (accepted : checkPath fs path = .ok (found, len)) : path = some found ∧ PathShape found len := by
  simp only [checkPath] at accepted
  split at accepted
  · cases accepted
  split at accepted
  next path' len' valid =>
    cases accepted
    exact ⟨rfl, pathOk_iff.mp valid⟩
  · cases accepted

lemma resolveFile_spec (called : resolveFile fs path = outcome) : (∃ error, outcome = .error error ∧ error.code ≠ .ok) ∨
      ∃ slot record, outcome = .ok slot ∧ fs.FileAt slot record ∧ fs.names (.unlink path) = some record.name := by
  simp only [resolveFile, bind, Except.bind] at called
  split at called
  next failed =>
    refine .inl ⟨_, called.symm, ?_⟩
    simp only [checkPath] at failed
    repeat' split at failed
    all_goals
      cases failed
      try exact nofun
  rename_i pair accepted
  obtain ⟨found, len⟩ := pair
  obtain ⟨rfl, shape⟩ := checkPath_ok accepted
  simp only [resolve_eq shape] at called
  by_cases root : len = 1
  · simp only [root, if_true] at called
    exact .inl ⟨_, called.symm, nofun⟩
  simp only [root, if_false] at called
  cases blocked : (tableOf fs.dir).walk fs.dirSlots (ancestors (pathKey found len)) with
  | some code =>
    simp only [blocked] at called
    refine .inl ⟨_, called.symm, ?_⟩
    rcases Table.walk_code blocked with rfl | rfl <;> exact nofun
  | none =>
    cases hit : (tableOf fs.dir).find fs.dirSlots (pathKey found len) with
    | none =>
      simp only [blocked, hit] at called
      exact .inl ⟨_, called.symm, nofun⟩
    | some index =>
      simp only [blocked, hit] at called
      split at called
      · exact .inl ⟨_, called.symm, nofun⟩
      rename_i type
      obtain ⟨inside, _, record, held, name⟩ := Table.find_some hit
      have file := (decodeEntry_some held).2.2.1
      refine .inr ⟨index, record, called.symm, ⟨inside, held, ?_⟩, ?_⟩
      · rw [← file]
        exact Decidable.not_not.mp type
      · simp only [Volume.names, pathOk_iff.mpr shape, name]

lemma resolveFile_ok (resolved : resolveFile fs path = .ok slot) :
    ∃ record, fs.FileAt slot record ∧ fs.names (.unlink path) = some record.name := by
  rcases resolveFile_spec resolved with ⟨_, same, _⟩ | ⟨_, record, same, found⟩
  · cases same
  · cases same
    exact ⟨record, found⟩

lemma fsCreate_effect (mounted : fs.Mounted) (called : fsCreate drive fs path = (result, after)) :
    ∃ tail, Effect drive fs (.create path) (.status result) after [] tail := by
  have refuse : ∀ {error : FsError}, fs.fail error = (result, after) →
    ∃ tail, Effect drive fs (.create path) (.status result) after [] tail := by
    intro error failed
    cases failed
    exact ⟨[], Effect.idle mounted _⟩
  simp only [fsCreate] at called
  split at called
  · exact refuse called
  rename_i found len accepted
  obtain ⟨rfl, shape⟩ := checkPath_ok accepted
  by_cases root : len = 1
  · rw [if_pos root] at called
    exact refuse called
  rw [if_neg root, walkPath_eq _ _ shape root] at called
  cases blocked : (tableOf fs.dir).walk fs.dirSlots (ancestors (pathKey found len)) with
  | some code =>
    simp only [blocked] at called
    exact refuse called
  | none =>
    cases hit : (tableOf fs.dir).find fs.dirSlots (pathKey found len) with
    | some index =>
      simp only [blocked, hit] at called
      exact refuse called
    | none =>
      simp only [blocked, hit] at called
      split at called
      · exact refuse called
      rename_i slot vacant
      have inside : slot < fs.dirSlots := mem_range.mp (mem_of_find?_eq_some vacant)
      have clear : entryFree (entryAt fs.dir slot) = true :=
        find?_some (p := fun slot => entryFree (entryAt fs.dir slot)) vacant
      have empty : tableOf fs.dir slot = none := decodeEntry_none.mpr clear
      have change : Change fs (.create (some found)) slot (newEntry (pathKey found len)) :=
        .create shape root inside empty hit blocked
      have written : SlotWritten drive { fs with blk := fs.blk } slot (newEntry (pathKey found len))
          (Reply.status result).result after := dirWriteSlot_spec mounted inside called
      obtain ⟨tail, effect, _⟩ := written.effect mounted change (Wrote.nil rfl) DataStores.nil ⟨_,
        decodeEntry_newEntry (shape.keyValid root), rfl⟩
      exact ⟨tail, effect⟩

lemma fsUnlink_effect (mounted : fs.Mounted) (called : fsUnlink drive fs path = (result, after)) :
    ∃ tail, Effect drive fs (.unlink path) (.status result) after [] tail := by
  simp only [fsUnlink] at called
  split at called
  · cases called
    exact ⟨[], Effect.idle mounted _⟩
  rename_i slot resolved
  obtain ⟨record, file, named⟩ := resolveFile_ok resolved
  have change : Change fs (.unlink path) slot fun _ => 0 := .unlink file named
  rcases cleared : dirWriteSlot drive fs slot fun _ => 0 with ⟨code, volume⟩
  have written : SlotWritten drive { fs with blk := fs.blk } slot (fun _ => 0) code volume :=
    dirWriteSlot_spec mounted file.inside cleared
  obtain ⟨stage, rest⟩ := written.rest
  obtain ⟨tail, stored, attempt⟩ := written.attempt change (Wrote.nil rfl)
  rw [cleared] at called
  rcases attempt.outcome with ⟨rfl, _, dir⟩ | ⟨rfl, dir, _⟩
  · cases called
    refine ⟨tail, stored, DataStores.nil, by rw [rest], by rw [rest], by rw [rest], ?_, .inr ⟨slot, _, attempt⟩⟩
    rw [rest, dir]
    refine mounted.changed change stored fun index used => ?_
    by_cases closed : (fs.handles index).inUse = true ∧ (fs.handles index).entry = slot
    · simp only [closeEntry, closed, and_self, if_true] at used
      cases used
    have kept : closeEntry fs.handles slot index = fs.handles index := if_neg closed
    rw [kept] at used ⊢
    exact ⟨rfl, fun here => absurd ⟨used, here⟩ closed⟩
  cases called
  refine ⟨tail, stored, DataStores.nil, by rw [rest], by rw [rest], by rw [rest], ?_, .inr ⟨slot, _, attempt⟩⟩
  rw [rest, dir]
  exact (mounted.stored stored).staged stage

private lemma inPlace_stores (mounted : fs.Mounted) (file : fs.FileAt index record)
    (named : fs.names op = some record.name)
    (stored : Stored fs.dev record.first (record.first + record.count) before final data) : DataStores fs op data := by
  have extent := mounted.file_extent file
  refine ⟨fun entry member => ?_, fun entry member slot other inside held low high => ?_⟩
  · have bound := stored.confined entry member
    have some : record.count ≠ 0 := by omega
    have low := extent.low some
    have high := extent.high some
    omega
  have bound := stored.confined entry member
  have same : slot = index := by
    by_contra different
    rcases mounted.table.apart slot index other record inside file.inside held file.held
      different with a | b | c | d <;> omega
  subst same
  rw [file.held] at held
  cases held
  exact named

private lemma fresh_stores {first count} (free : (tableOf fs.dir).FreeRange fs.dirSlots fs.geometry first count)
    (stored : Stored fs.dev first (first + count) before final data) : DataStores fs op data := by
  refine ⟨fun entry member => ?_, fun entry member slot other inside held low high => ?_⟩
  · have bound := stored.confined entry member
    have low := free.1
    have high := free.2.1
    omega
  · have bound := stored.confined entry member
    rcases free.2.2 slot other inside held with a | b | c <;> omega

/-- The allocator's scan ends, so the call returns. -/
lemma fsWrite_returns (drive : Drive) (handle offset address : Nat) (source : ByteMemory) (len : Nat)
    (mounted : fs.Mounted) :
    ∃ answer after, fsWrite drive fs handle offset address source len = some (answer, after) := by
  cases decoded : decodeHandle fs handle with
  | none =>
    unfold fsWrite
    simp only [decoded]
    exact ⟨_, _, rfl⟩
  | some slot =>
    obtain ⟨record, file⟩ := mounted.open_file decoded
    rw [fsWrite_eq mounted decoded file]
    split
    · exact ⟨_, _, rfl⟩
    rename_i short
    split
    · exact ⟨_, _, rfl⟩
    rename_i begun
    iterate 4
      split
      · exact ⟨_, _, rfl⟩
    rename_i fits
    obtain ⟨answer, after, returned, _⟩ := writeRelocate_spec drive source mounted file (not_lt.mp begun)
      (not_le.mp fits) (not_lt.mp short)
    exact ⟨answer, after, returned⟩

/-- The data and directory stores of a relocating write. -/
structure Relocation (drive : Drive) (fs : Volume) (op : Op) (result : FsResult) (data tail : List (Nat × ByteMemory))
    (index newFirst blocks stop : Nat) (content dir : ByteMemory) : Prop where
  free : (tableOf fs.dir).FreeRange fs.dirSlots fs.geometry newFirst blocks
  confined : ∀ entry ∈ data, newFirst ≤ entry.1 ∧ entry.1 < newFirst + blocks
  switched : tail ≠ [] → replay sectorSize (fs.blk.devices fs.dev).disk data =
      (fs.blk.devices fs.dev).disk.overlay (512 * newFirst) (512 * blocks) content ∧
    Attempt drive fs op result data tail index (switchedEntry (entryAt fs.dir index) newFirst blocks stop) dir

/-- A relocating write fills free blocks and then switches the entry; one that fails reports
no bytes and keeps the directory. -/
lemma fsWrite_relocation (drive : Drive) (source : ByteMemory) (mounted : fs.Mounted)
    (decoded : decodeHandle fs handle = some slot) (file : fs.FileAt (fs.handles slot).entry record)
    (taken : relocates fs handle offset address len = true) :
    ∃ answer after, fsWrite drive fs handle offset address source len = some (answer, after) ∧
      (answer.result ≠ .ok → answer.nwritten = some 0 ∧ ∃ stage, after = { fs with blk := after.blk, stage }) ∧
      ∃ data tail, Effect drive fs (.write handle offset address source len) (.written answer) after data tail ∧
        ((data = [] ∧ tail = []) ∨ ∃ newFirst, Relocation drive fs (.write handle offset address source len)
          answer.result data tail
          (fs.handles slot).entry newFirst ((offset + len + 511) / 512) (offset + len)
          (relocated ((fs.blk.devices fs.dev).disk.shift (512 * record.first)) source offset (offset + len))
            after.dir) := by
  obtain ⟨short, begun, nonzero, placed, aligned, past⟩ := (relocates_some mounted decoded file).mp taken
  have covers := (mounted.file_extent file).covers
  have lengthBound := (mounted.length_bound file).1
  have width := u64_eq
  have most : maxWriteBytes = 16384 := by decide
  have path : fsWrite drive fs handle offset address source len =
      writeRelocate drive fs (fs.handles slot).entry record.count record.first offset source len (offset + len) := by
    rw [fsWrite_eq mounted decoded file, if_neg (by omega), if_neg (by omega), if_neg (by omega), if_neg nonzero,
      if_neg (by omega), if_neg (by omega)]
  obtain ⟨answer, after, called, outcome⟩ := writeRelocate_spec drive source mounted file begun past short
  refine ⟨answer, after, path.trans called, ?_⟩
  rcases outcome with ⟨_, rfl, stage, rfl⟩ | ⟨newFirst, blk, ok, free, moves, outcome⟩
  · exact ⟨fun _ => ⟨rfl, stage, rfl⟩, [], [], Effect.idle mounted _, .inl ⟨rfl, rfl⟩⟩
  obtain ⟨data, stored⟩ := moves.stored
  rcases outcome with ⟨done, reported, written⟩ | ⟨_, rfl, stage, rfl⟩
  · have change : Change fs (.write handle offset address source len) (fs.handles slot).entry _ :=
      .relocate decoded file (Nat.pos_of_ne_zero nonzero) taken free
    have next := mounted.decode_switched file begun short free
    have written : SlotWritten drive { fs with blk } (fs.handles slot).entry _ (Reply.written answer).result after :=
      written
    obtain ⟨tail, effect, attempt⟩ := written.effect mounted change stored.wrote (fresh_stores free stored)
      ⟨_, next, file.file⟩
    refine ⟨fun failed => ?_, data, tail, effect, .inr ⟨newFirst, free, stored.confined, fun _ => ⟨?_, attempt⟩⟩⟩
    · rw [if_neg failed] at reported
      obtain ⟨stage, rest⟩ := written.rest
      refine ⟨reported, stage, ?_⟩
      rcases attempt.outcome with ⟨fine, _⟩ | ⟨_, dir, _⟩
      · exact absurd fine failed
      · rw [dir] at rest
        exact rest
    · rw [← stored.wrote.disk]
      exact moves.exact done
  · exact ⟨fun _ => ⟨rfl, stage, rfl⟩, data, [], .moved mounted stored.wrote (fresh_stores free stored) stage,
      .inr ⟨newFirst, free, stored.confined, fun some => absurd rfl some⟩⟩

section
variable (mounted : fs.Mounted)
include mounted

lemma fsWrite_effect (called : fsWrite drive fs handle offset address source len = some (answer, after)) :
    ∃ data tail, Effect drive fs (.write handle offset address source len) (.written answer) after data tail := by
  cases decoded : decodeHandle fs handle with
  | none =>
    unfold fsWrite at called
    simp only [decoded] at called
    cases called
    exact ⟨[], [], Effect.idle mounted _⟩
  | some slot =>
    obtain ⟨record, file⟩ := mounted.open_file decoded
    have named : fs.names (.write handle offset address source len) = some record.name :=
      names_write decoded file _ _ _ _
    have whole := called
    rw [fsWrite_eq mounted decoded file] at called
    iterate 4
      split at called
      · cases called
        exact ⟨[], [], Effect.idle mounted _⟩
    rename_i long past bad empty
    split at called
    · rename_i within
      obtain ⟨⟨stage, rest⟩, moves, _⟩ := writeWithin_spec mounted file within (Option.some.inj called)
      obtain ⟨data, stored⟩ := moves.stored
      rw [rest]
      exact ⟨data, [], .moved mounted stored.wrote (inPlace_stores mounted file named stored) stage⟩
    split at called
    · rename_i fits
      obtain ⟨blk, ok, moves, outcome⟩ := writeGrow_spec mounted file fits (Option.some.inj called)
      obtain ⟨data, stored⟩ := moves.stored
      refine ⟨data, ?_⟩
      rcases outcome with ⟨_, _, written⟩ | ⟨_, _, stage, rest⟩
      · have change : Change fs (.write handle offset address source len) (fs.handles slot).entry _ :=
          .grow decoded file (Nat.pos_of_ne_zero empty) fits
        have written : SlotWritten drive { fs with blk } (fs.handles slot).entry _ (Reply.written answer).result
          after := written
        obtain ⟨tail, effect, _⟩ := written.effect mounted change stored.wrote
          (inPlace_stores mounted file named stored)
          ⟨_, mounted.decode_grown file fits, file.file⟩
        exact ⟨tail, effect⟩
      · rw [rest]
        exact ⟨[], .moved mounted stored.wrote (inPlace_stores mounted file named stored) stage⟩
    have taken : relocates fs handle offset address len = true :=
      (relocates_some mounted decoded file).mpr ⟨by omega, by omega, empty, by omega, by omega, by omega⟩
    obtain ⟨answer', after', same, _, data, tail, effect, _⟩ :=
      fsWrite_relocation drive source mounted decoded file taken
    rw [same] at whole
    cases whole
    exact ⟨data, tail, effect⟩

lemma Effect.handles (handles : Nat → Handle) (generations : Nat → Nat)
    (files : ∀ slot, (handles slot).inUse = true → ∃ record, fs.FileAt (handles slot).entry record) :
    Effect drive fs op reply { fs with handles, generations } [] [] := by
  refine ⟨Wrote.nil rfl, DataStores.nil, rfl, rfl, rfl, ?_, .inl ⟨rfl, rfl⟩⟩
  refine ⟨mounted.on, mounted.authorized, mounted.usable, mounted.shape, mounted.slots, mounted.table,
    fun slot used => ?_⟩
  obtain ⟨record, file⟩ := files slot used
  exact ⟨file.inside, record, file.held, file.file⟩

lemma Volume.Mounted.used_file (used : (fs.handles slot).inUse = true) :
    ∃ record, fs.FileAt (fs.handles slot).entry record := by
  obtain ⟨inside, record, held, file⟩ := mounted.handles slot used
  exact ⟨record, inside, held, file⟩

lemma fsOpen_effect {path result handle}
    (called : fsOpen fs path = (result, handle, after)) :
    Effect drive fs (.openFile path) (.opened result handle) after [] [] := by
  simp only [fsOpen] at called
  split at called
  · cases called
    exact Effect.idle mounted _
  rename_i entry resolved
  obtain ⟨record, file, _⟩ := resolveFile_ok resolved
  split at called
  · cases called
    exact Effect.idle mounted _
  rename_i slot _
  cases called
  refine Effect.handles mounted _ _ fun other used => ?_
  by_cases same : other = slot
  · simp only [same, if_true]
    exact ⟨record, file⟩
  · simp only [same, if_false] at used ⊢
    exact mounted.used_file used

lemma fsClose_effect (called : fsClose fs handle = (result, after)) :
    Effect drive fs (.close handle) (.status result) after [] [] := by
  simp only [fsClose] at called
  split at called
  · cases called
    exact Effect.idle mounted _
  rename_i slot _
  cases called
  refine Effect.handles mounted _ _ fun other used => ?_
  by_cases same : other = slot
  · simp only [same, if_true] at used
    cases used
  · simp only [same, if_false] at used ⊢
    exact mounted.used_file used

lemma fsStat_effect {info} (called : fsStat fs path = (result, info, after)) :
    Effect drive fs (.stat path) (.stat result info) after [] [] := by
  simp only [fsStat] at called
  split at called
  · cases called
    exact Effect.idle mounted _
  · split at called <;> cases called <;> exact Effect.idle mounted _

lemma fsRead_eq (decoded : decodeHandle fs handle = some slot) (file : fs.FileAt (fs.handles slot).entry record) :
    fsRead drive fs handle offset address len = if len > maxReadBytes then
      (⟨.invalid, none, []⟩, { fs with stage := "too-long" })
      else if offset > record.length then (⟨.range, none, []⟩, { fs with stage := "past-end" })
      else if len ≠ 0 ∧ (address = 0 ∨ address % 2 = 1) then (⟨.invalid, none, []⟩, { fs with stage := "bad-buf" })
      else if min len (record.length - offset) = 0 then (⟨.ok, some 0, []⟩, fs)
      else
        let n := min len (record.length - offset)
        let moved := readLoop drive fs.dev address n n (record.first + offset / 512) (offset % 512) 0 [] fs.blk
        match moved.result with
        | .ok => (⟨.ok, some n, moved.data⟩, { fs with blk := moved.blk })
        | _ => (⟨.ioErr, some moved.done, moved.data⟩, { fs with blk := moved.blk, stage := "io-data" }) := by
  obtain ⟨_, _, type, _, first, _, length⟩ := decodeEntry_some file.held
  have covers := (mounted.file_extent file).covers
  have total := mounted.extent_total file
  have small := mounted.small
  have limit : lba28Max < u64 := by decide
  have least : (if len < record.length - offset then len else record.length - offset) =
    min len (record.length - offset) := by
    split <;> omega
  unfold fsRead
  simp only [decoded, type, file.file, first, length, ne_eq, not_true, if_false, least]
  split
  · rfl
  split
  · rfl
  rename_i begun
  have sector : (record.first + offset / 512) % u64 = record.first + offset / 512 := Nat.mod_eq_of_lt (by omega)
  rw [sector]
  split
  · rfl
  split
  next none => rw [none]
  generalize readLoop drive fs.dev address (min len (record.length - offset)) (min len (record.length - offset))
    (record.first + offset / 512) (offset % 512) 0 [] fs.blk = moved
  cases moved.result <;> rfl

lemma fsRead_effect (called : fsRead drive fs handle offset address len = (answer, after)) :
    Effect drive fs (.read handle offset address len) (.bytes answer) after [] [] := by
  cases decoded : decodeHandle fs handle with
  | none =>
    simp only [fsRead, decoded] at called
    cases called
    exact Effect.idle mounted _
  | some slot =>
    obtain ⟨record, file⟩ := mounted.open_file decoded
    have covers := (mounted.file_extent file).covers
    have total := mounted.extent_total file
    rw [fsRead_eq mounted decoded file] at called
    split at called
    · cases called
      exact Effect.idle mounted _
    rename_i short
    split at called
    · cases called
      exact Effect.idle mounted _
    rename_i begun
    split at called
    · cases called
      exact Effect.idle mounted _
    rename_i placed
    split at called
    · cases called
      exact Effect.idle mounted _
    rename_i some
    simp only at called
    generalize moved : readLoop drive fs.dev address (min len (record.length - offset))
      (min len (record.length - offset))
      (record.first + offset / 512) (offset % 512) 0 [] fs.blk = transfer at called
    obtain ⟨moves, _⟩ := readLoop_spec fs.geometry.total (by omega) (Nat.mod_lt _ (by decide)) (by omega)
      (Nat.zero_le _) (by omega) moved
    obtain ⟨stores, stored⟩ := moves.stored
    have none : stores = [] := by
      cases stores with
      | nil => rfl
      | cons entry rest =>
        have bound := stored.confined entry (by simp)
        omega
    subst none
    split at called
    · cases called
      exact .moved mounted stored.wrote .nil fs.stage
    · cases called
      exact .moved mounted stored.wrote .nil _

end

/-- Every call on a mounted filesystem returns, and does what `Effect` says. -/
lemma step_effect (drive : Drive) (op : Op) (mounted : fs.Mounted) :
    ∃ reply after data tail, step drive fs op = some (reply, after) ∧ Effect drive fs op reply after data tail := by
  cases op with
  | create path =>
    obtain ⟨tail, effect⟩ := fsCreate_effect mounted (show fsCreate drive fs path = (_, _) from rfl)
    exact ⟨_, _, [], tail, rfl, effect⟩
  | openFile path => exact ⟨_, _, [], [], rfl, fsOpen_effect mounted rfl⟩
  | write handle offset address source len =>
    obtain ⟨answer, after, returned⟩ := fsWrite_returns drive handle offset address source len mounted
    obtain ⟨data, tail, effect⟩ := fsWrite_effect mounted returned
    exact ⟨_, _, data, tail, by simp only [step, returned, Option.map_some], effect⟩
  | read handle offset address len => exact ⟨_, _, [], [], rfl, fsRead_effect mounted rfl⟩
  | stat path => exact ⟨_, _, [], [], rfl, fsStat_effect mounted rfl⟩
  | unlink path =>
    obtain ⟨tail, effect⟩ := fsUnlink_effect mounted (show fsUnlink drive fs path = (_, _) from rfl)
    exact ⟨_, _, [], tail, rfl, effect⟩
  | close handle => exact ⟨_, _, [], [], rfl, fsClose_effect mounted rfl⟩

end

end Rynor.Fs
