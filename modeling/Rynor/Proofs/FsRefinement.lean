import Rynor.Storage.FsSpec
import Rynor.Proofs.FsEffect

/-! The filesystem refines the file map: every call that reports no I/O error, and so every
call on a working drive, answers as the map does and moves to the state the map moves to. -/

namespace Rynor.Fs
open ByteMemory Blk List Bool Option
open Function (update update_self update_of_ne)

/-! The abstraction. -/

def Record.node (disk : ByteMemory) (record : Record) : Node :=
  if record.type = typeDir then .directory else .file (disk.slice (512 * record.first) record.length)

/-- The files a directory describes on a disk. -/
def Table.nodes (table : Table) (slots : Nat) (disk : ByteMemory) (name : List UInt8) : Option Node :=
  (table.lookup slots name).map (Record.node disk)

def Volume.files (fs : Volume) : Files :=
  { nodes := (tableOf fs.dir).nodes fs.dirSlots (fs.blk.devices fs.dev).disk
    handles := fun slot =>
      if (fs.handles slot).inUse then (tableOf fs.dir (fs.handles slot).entry).map (·.name) else none
    generations := fs.generations }

/-- There is space for what the call wants to add: a free slot for a create; for a write, its
own extent or a gap. -/
def Volume.HasRoom (fs : Volume) : Op → Prop
  | .create _ => ∃ slot, slot < fs.dirSlots ∧ tableOf fs.dir slot = none
  | .write handle offset _ _ len =>
    ∀ slot record, decodeHandle fs handle = some slot → tableOf fs.dir (fs.handles slot).entry = some record →
      offset + len ≤ record.count * 512 ∨ ∃ first, (tableOf fs.dir).FreeRange fs.dirSlots fs.geometry
        first ((offset + len + 511) / 512)
  | _ => True

/-! Lookups in a table with one slot replaced. -/

namespace Table.Valid
variable {table : Table} {slots slot : Nat} {geometry : Geometry} {next : Option Record} {key : List UInt8}
  {record : Record}

section
variable (valid : table.Valid slots geometry)
include valid

lemma lookup_iff :
    table.lookup slots key = some record ↔ ∃ slot, slot < slots ∧ table slot = some record ∧ record.name = key := by
  constructor
  · intro found
    obtain ⟨slot, inside, _, held, name⟩ := Table.lookup_some found
    exact ⟨slot, inside, held, name⟩
  · rintro ⟨slot, inside, held, name⟩
    have found := valid.find_iff.mpr ⟨inside, record, held, name⟩
    simp [Table.lookup, found, held]

lemma lookup_congr {other : Table} (same : ∀ slot, slot < slots → other slot = table slot) :
    other.lookup slots key = table.lookup slots key := by
  apply Option.ext
  intro record
  rw [valid.lookup_iff, (valid.congr same).lookup_iff]
  constructor
  · rintro ⟨slot, inside, held, name⟩
    exact ⟨slot, inside, same slot inside ▸ held, name⟩
  · rintro ⟨slot, inside, held, name⟩
    exact ⟨slot, inside, (same slot inside).trans held, name⟩

lemma lookup_update_gone (inside : slot < slots) (held : table slot = some record)
    (after : Table.Valid (update table slot none) slots geometry) :
    Table.lookup (update table slot none) slots record.name = none := by
  rcases found : Table.lookup (update table slot none) slots record.name with _ | holder
  · rfl
  obtain ⟨other, otherInside, holds, name⟩ := after.lookup_iff.mp found
  by_cases same : other = slot
  · subst same
    rw [update_self] at holds
    cases holds
  · rw [update_of_ne same] at holds
    exact absurd (valid.unique other slot holder record otherInside inside holds held name) same

lemma lookup_update_other (after : Table.Valid (update table slot next) slots geometry)
    (old : ∀ record, table slot = some record → record.name ≠ key)
    (new : ∀ record, next = some record → record.name ≠ key) :
    Table.lookup (update table slot next) slots key = table.lookup slots key := by
  apply Option.ext
  intro record
  rw [after.lookup_iff, valid.lookup_iff]
  constructor
  · rintro ⟨other, inside, held, name⟩
    by_cases same : other = slot
    · subst same
      rw [update_self] at held
      exact absurd name (new record held)
    · rw [update_of_ne same] at held
      exact ⟨other, inside, held, name⟩
  · rintro ⟨other, inside, held, name⟩
    have different : other ≠ slot := by
      rintro rfl
      exact old record held name
    exact ⟨other, inside, (update_of_ne different ..).trans held, name⟩

end

end Table.Valid

section
variable {drive : Drive} {fs after : Volume} {op : Op} {reply : Reply} {data tail : List (Nat × ByteMemory)}
  {slot : Nat} {record : Record}
variable {table : Table} {slots handle offset address len length : Nat} {entry : ByteMemory} {name : List UInt8}
  {blk : Blk.State} {next : Record}
  {path : Option ByteMemory} {result : FsResult} {room : Bool}

lemma Table.Valid.file_node (valid : table.Valid slots geometry)
    (inside : slot < slots) (held : table slot = some record) (file : record.type = typeFile) (disk : ByteMemory) :
    table.nodes slots disk record.name = some (.file (disk.slice (512 * record.first) record.length)) := by
  have other : record.type ≠ typeDir := by
    rw [file]
    decide
  simp only [Table.nodes, valid.lookup_iff.mpr ⟨slot, inside, held, rfl⟩, map_some, Record.node, other, if_false]

lemma Volume.Mounted.file_node (mounted : fs.Mounted) (file : fs.FileAt slot record) :
    fs.files.nodes record.name = some (.file ((fs.blk.devices fs.dev).disk.slice (512 * record.first) record.length)) :=
  mounted.table.file_node file.inside file.held file.file _

lemma Attempt.outside {result dir} (attempt : Attempt drive fs op result data tail slot entry dir)
    (mounted : fs.Mounted) {store} (late : store ∈ tail) :
    store.1 < fs.geometry.dataStart ∨ fs.geometry.dataStart + fs.geometry.dataBlocks ≤ store.1 := by
  have bound := mounted.slot_sector (attempt.change.valid mounted).1
  have apart := mounted.shape.apart
  rcases attempt.stored with none | ⟨bytes, one, _⟩
  · rw [none] at late
    cases late
  rw [one] at late
  rw [mem_singleton.mp late]
  dsimp only
  omega

/-- The stores of a call miss every file it is not about. -/
lemma Effect.slice_kept (effect : Effect drive fs op reply after data tail) (mounted : fs.Mounted)
    (inside : slot < fs.dirSlots)
    (held : tableOf fs.dir slot = some record) (other : fs.names op ≠ some record.name) (count : Nat) :
    (replay sectorSize (fs.blk.devices fs.dev).disk ((data ++ tail).take count)).slice
    (512 * record.first) record.length =
      (fs.blk.devices fs.dev).disk.slice (512 * record.first) record.length := by
  have extent := (mounted.table.records slot record inside held).inside
  have covers := extent.covers
  refine slice_congr fun index low => replay_outside fun entry member same => ?_
  have some : record.count ≠ 0 := by omega
  have first := extent.low some
  have last := extent.high some
  simp only [sectorSize] at same
  rcases mem_append.mp (mem_of_mem_take member) with early | late
  · exact other (effect.stores.owned entry early slot record inside held (by omega) (by omega))
  rcases effect.directory with ⟨none, _⟩ | ⟨target, image, attempt⟩
  · rw [none] at late
    cases late
  have outside := attempt.outside mounted late
  omega

/-- A change moves no name but the one it is about. -/
lemma Change.lookup_other (change : Change fs op slot entry) (mounted : fs.Mounted) (other : fs.names op ≠ some name) :
    Table.lookup (update (tableOf fs.dir) slot (decodeEntry entry)) fs.dirSlots name =
    (tableOf fs.dir).lookup fs.dirSlots name := by
  refine Table.Valid.lookup_update_other mounted.table (change.valid mounted).2.2 ?_ ?_
  · intro record held here
    exact other (here ▸ change.old_name held)
  intro record decoded here
  rcases change.decoded mounted with ⟨_, _, none⟩ | ⟨next, found, _, named⟩
  · rw [none] at decoded
    cases decoded
  rw [found] at decoded
  cases decoded
  exact other (here ▸ named)

section
variable (effect : Effect drive fs op reply after data tail) (mounted : fs.Mounted) (other : fs.names op ≠ some name)
include effect mounted other

/-- At every point of a call the files it is not about have their bytes. -/
lemma Effect.nodes_kept (same : table.lookup fs.dirSlots name = (tableOf fs.dir).lookup fs.dirSlots name)
    (count : Nat) :
    table.nodes fs.dirSlots (replay sectorSize (fs.blk.devices fs.dev).disk ((data ++ tail).take count)) name =
    fs.files.nodes name := by
  simp only [Volume.files, Table.nodes, same]
  cases found : (tableOf fs.dir).lookup fs.dirSlots name with
  | none => rfl
  | some record =>
    obtain ⟨slot, inside, _, held, rfl⟩ := Table.lookup_some found
    simp only [map_some, Record.node, effect.slice_kept mounted inside held other count]

lemma Effect.others : after.files.nodes name = fs.files.nodes name := by
  have same : (tableOf after.dir).lookup fs.dirSlots name = (tableOf fs.dir).lookup fs.dirSlots name := by
    rcases effect.directory with ⟨_, dir⟩ | ⟨target, image, attempt⟩
    · rw [dir]
    rcases attempt.outcome with ⟨_, _, dir⟩ | ⟨_, dir, _⟩
    · rw [dir, tableOf_overlay]
      exact attempt.change.lookup_other mounted other
    · rw [dir]
  have kept := effect.nodes_kept mounted other same (data ++ tail).length
  rw [take_length, ← effect.wrote.disk] at kept
  simp only [Volume.files, effect.slots, effect.device]
  exact kept

end

/-! Paths and handles. -/

lemma Volume.walk_eq (fs : Volume) (parents : List (List UInt8)) :
    fs.files.walk parents = (tableOf fs.dir).walk fs.dirSlots parents := by
  induction parents with
  | nil => rfl
  | cons parent rest ih =>
    have node : fs.files.nodes parent = ((tableOf fs.dir).lookup fs.dirSlots parent).map
      (Record.node (fs.blk.devices fs.dev).disk) := rfl
    simp only [Files.walk, Table.walk, node]
    cases found : (tableOf fs.dir).lookup fs.dirSlots parent with
    | none => rfl
    | some holder =>
      by_cases folder : holder.type = typeDir
      · simp only [map_some, Record.node, folder, if_true, ih]
      · simp only [map_some, Record.node, folder, if_false]

lemma Volume.nodes_isSome (fs : Volume) (key : List UInt8) :
    (fs.files.nodes key).isSome = ((tableOf fs.dir).find fs.dirSlots key).isSome := by
  cases hit : (tableOf fs.dir).find fs.dirSlots key with
  | none => simp [Volume.files, Table.nodes, Table.lookup_none.mpr hit]
  | some slot =>
    obtain ⟨_, _, record, held, _⟩ := Table.find_some hit
    simp [Volume.files, Table.nodes, Table.lookup, hit, held]

/-- `fs_open` and `fs_unlink` find the file the map finds. -/
lemma resolveFile_refines (mounted : fs.Mounted) (path : Option ByteMemory) :
    (∃ error, resolveFile fs path = .error error ∧ fs.files.fileKey path = .error error.code) ∨
      ∃ slot record, resolveFile fs path = .ok slot ∧ fs.FileAt slot record ∧
      fs.files.fileKey path = .ok record.name := by
  simp only [resolveFile, checkPath, mounted.on, true_eq_false, if_false, Files.fileKey, Files.key, bind, Except.bind]
  cases accepted : pathOk path with
  | none =>
    left
    cases path <;> exact ⟨_, rfl, rfl⟩
  | some len =>
    obtain ⟨path, rfl⟩ := pathOk_given accepted
    have shape := pathOk_iff.mp accepted
    simp only [resolve_eq shape, Volume.walk_eq]
    by_cases root : len = 1
    · simp only [root, if_true]
      exact .inl ⟨_, rfl, rfl⟩
    simp only [root, if_false]
    cases blocked : (tableOf fs.dir).walk fs.dirSlots (ancestors (pathKey path len)) with
    | some code => exact .inl ⟨_, rfl, rfl⟩
    | none =>
      cases hit : (tableOf fs.dir).find fs.dirSlots (pathKey path len) with
      | none =>
        simp only [Volume.files, Table.nodes, Table.lookup_none.mpr hit]
        exact .inl ⟨_, rfl, rfl⟩
      | some slot =>
        obtain ⟨inside, _, record, held, name⟩ := Table.find_some hit
        have type := (decodeEntry_some held).2.2.1
        have looked : (tableOf fs.dir).lookup fs.dirSlots (pathKey path len) = some record := by
          simp [Table.lookup, hit, held]
        simp only [Volume.files, Table.nodes, looked, type]
        rcases (mounted.table.records slot record inside held).kind with file | folder
        · right
          have other : record.type ≠ typeDir := by rw [file.1]; decide
          refine ⟨slot, record, ?_, ⟨inside, held, file.1⟩, ?_⟩
          · simp [file.1]
          · simp [Record.node, other, name]
        left
        have other : record.type ≠ typeFile := by rw [folder.1]; decide
        refine ⟨⟨.notFile, "not-file"⟩, ?_, ?_⟩
        · simp [other]
        · simp [Record.node, folder.1]

/-- An open handle denotes the same file on both sides. -/
lemma decode_refines (mounted : fs.Mounted) (handle : Nat) :
    (decodeHandle fs handle = none ∧ fs.files.decode handle = none ∧ fs.files.content handle = none) ∨
      ∃ slot record, decodeHandle fs handle = some slot ∧ fs.FileAt (fs.handles slot).entry record ∧
        fs.files.decode handle = some (slot, record.name) ∧
        fs.files.content handle = some (record.name,
          (fs.blk.devices fs.dev).disk.slice (512 * record.first) record.length) := by
  cases decoded : decodeHandle fs handle with
  | none =>
    left
    have missing : fs.files.decode handle = none := by
      rw [Files.decode]
      split
      · rfl
      rename_i kept
      obtain ⟨nonzero, generation⟩ := not_or.mp kept
      have closed : (fs.handles (handle % 8)).inUse = false := by
        by_contra used
        have generation : ¬ fs.generations (handle % 8) ≠ handle / 8 := generation
        simp only [decodeHandle, mounted.on, true_eq_false, if_false] at decoded
        rw [if_neg (by simp only [maxOpen]; omega), if_neg (not_or.mpr ⟨used, generation⟩)] at decoded
        cases decoded
      have none : fs.files.handles (handle % 8) = none := by simp [Volume.files, closed]
      rw [none, map_none]
    exact ⟨rfl, missing, by simp [Files.content, missing]⟩
  | some slot =>
    right
    obtain ⟨record, file⟩ := mounted.open_file decoded
    obtain ⟨rfl, used, generation, nonzero, _⟩ := decodeHandle_some decoded
    have named : fs.files.decode handle = some (handle % 8, record.name) := by
      simp [Files.decode, Volume.files, nonzero, generation, used, file.held]
    refine ⟨_, record, rfl, file, named, ?_⟩
    simp only [Files.content, named, mounted.file_node file]

/-! The calls. -/

/-- Handles keep their names through a change that leaves a file in its slot. -/
private lemma handles_kept (mounted : fs.Mounted) (change : Change fs op slot entry)
    (decoded : decodeEntry entry = some next) (named : fs.names op = some next.name)
    (handles : after.handles = fs.handles)
    (dir : after.dir = fs.dir.overlay (slot * entrySize) entrySize entry) : after.files.handles = fs.files.handles := by
  funext index
  simp only [Volume.files, handles, dir, tableOf_overlay]
  by_cases used : (fs.handles index).inUse = true
  · simp only [used, if_true]
    by_cases here : (fs.handles index).entry = slot
    · obtain ⟨_, record, held, _⟩ := mounted.handles index used
      rw [here] at held ⊢
      have old := change.old_name held
      rw [named] at old
      rw [update_self, decoded, held, map_some, map_some, Option.some.inj old]
    · rw [update_of_ne here]
  · simp [used]

/-- The map after a stored change that leaves a file of this content in its slot. -/
lemma Effect.files_changed (effect : Effect drive fs op reply after data tail) (mounted : fs.Mounted)
    (change : Change fs op slot entry) (dir : after.dir = fs.dir.overlay (slot * entrySize) entrySize entry)
    (decoded : decodeEntry entry = some next) (handles : after.handles = fs.handles)
    (generations : after.generations = fs.generations)
    (content : (after.blk.devices fs.dev).disk.slice (512 * next.first) next.length = bytes) :
    after.files = fs.files.setNode next.name (some (.file bytes)) := by
  obtain ⟨named, file⟩ : fs.names op = some next.name ∧ next.type = typeFile := by
    rcases change.decoded mounted with ⟨_, _, none⟩ | ⟨found, same, file, named⟩
    · rw [none] at decoded
      cases decoded
    rw [same] at decoded
    cases decoded
    exact ⟨named, file⟩
  have nodes : after.files.nodes = (fs.files.setNode next.name (some (.file bytes))).nodes := by
    funext name
    by_cases same : name = next.name
    · subst same
      have held : after.FileAt slot next := by
        refine ⟨effect.slots ▸ (change.valid mounted).1, ?_, file⟩
        rw [dir, tableOf_overlay, update_self, decoded]
      rw [effect.mounted.file_node held, effect.device, content]
      simp [Files.setNode]
    · rw [effect.others mounted (by rw [named]; simpa using Ne.symm same)]
      simp [Files.setNode, same]
  have kept := handles_kept mounted change decoded named handles dir
  exact Files.ext nodes kept generations

lemma SlotWritten.ok {entry result} (written : SlotWritten drive fs slot entry result after)
    (fine : drive.Works ∨ result ≠ .ioErr) :
    result = .ok ∧ after.dir = fs.dir.overlay (slot * entrySize) entrySize entry := by
  rcases written.outcome with ⟨ok, dir, _⟩ | ⟨failed, _⟩ | ⟨failed, _⟩
  · exact ⟨ok, dir⟩
  all_goals
    exact fine.elim (fun works => by rw [written.works works] at failed; cases failed) fun other => absurd failed other

lemma freeSlot_some (vacant : freeSlot fs = some index) : index < fs.dirSlots ∧ tableOf fs.dir index = none := by
  have clear : entryFree (entryAt fs.dir index) = true :=
    find?_some (p := fun slot => entryFree (entryAt fs.dir slot)) vacant
  exact ⟨mem_range.mp (mem_of_find?_eq_some vacant), decodeEntry_none.mpr clear⟩

section
variable (mounted : fs.Mounted)
include mounted

lemma fsCreate_refines
    (called : fsCreate drive fs path = (result, after)) (fine : drive.Works ∨ result ≠ .ioErr)
    (space : room = true ↔ fs.HasRoom (.create path)) :
    fs.files.create room path = (result, after.files) := by
  simp only [fsCreate, checkPath, mounted.on, true_eq_false, if_false] at called
  simp only [Files.create, Files.key]
  cases accepted : pathOk path with
  | none =>
    cases path <;> simp only [accepted] at called ⊢ <;> cases called <;> rfl
  | some len =>
    obtain ⟨path, rfl⟩ := pathOk_given accepted
    have shape := pathOk_iff.mp accepted
    simp only [accepted] at called
    simp only [Volume.walk_eq]
    by_cases root : len = 1
    · simp only [root, if_true] at called ⊢
      cases called
      rfl
    simp only [root, if_false] at called ⊢
    rw [walkPath_eq _ _ shape root] at called
    cases blocked : (tableOf fs.dir).walk fs.dirSlots (ancestors (pathKey path len)) with
    | some code =>
      simp only [blocked] at called
      cases called
      rfl
    | none =>
      simp only [Volume.nodes_isSome]
      cases hit : (tableOf fs.dir).find fs.dirSlots (pathKey path len) with
      | some index =>
        simp only [blocked, hit] at called
        cases called
        rfl
      | none =>
        simp only [blocked, hit] at called
        simp only [isSome_none, false_eq_true, if_false]
        cases vacant : freeSlot fs with
        | none =>
          simp only [vacant] at called
          cases called
          have full : room = false := by
            rw [← not_eq_true, space]
            rintro ⟨index, inside, clear⟩
            have miss := find?_eq_none.mp vacant index (mem_range.mpr inside)
            exact miss (decodeEntry_none.mp clear)
          simp only [full, false_eq_true, if_false]
          rfl
        | some slot =>
          simp only [vacant] at called
          obtain ⟨inside, clear⟩ := freeSlot_some vacant
          have free : room = true := space.mpr ⟨slot, inside, clear⟩
          have change : Change fs (.create (some path)) slot (newEntry (pathKey path len)) :=
            .create shape root inside clear hit blocked
          have written : SlotWritten drive { fs with blk := fs.blk } slot (newEntry (pathKey path len))
              (Reply.status result).result after := dirWriteSlot_spec mounted inside called
          have decoded := decodeEntry_newEntry (shape.keyValid root)
          obtain ⟨tail, effect, _⟩ := written.effect mounted change (Wrote.nil rfl) DataStores.nil ⟨_, decoded, rfl⟩
          obtain ⟨stage, rest⟩ := written.rest
          obtain ⟨ok, dir⟩ := written.ok fine
          have ok : result = .ok := ok
          simp only [free, if_true, ok]
          rw [effect.files_changed mounted change dir decoded (by rw [rest]) (by rw [rest]) rfl]
          rfl

lemma fsUnlink_refines (called : fsUnlink drive fs path = (result, after)) (fine : drive.Works ∨ result ≠ .ioErr) :
    fs.files.unlink path = (result, after.files) := by
  obtain ⟨tail, effect⟩ := fsUnlink_effect mounted called
  simp only [fsUnlink] at called
  simp only [Files.unlink]
  rcases resolveFile_refines mounted path with ⟨error, refused, agree⟩ | ⟨slot, record, resolved, file, agree⟩
  · simp only [refused] at called
    cases called
    simp only [agree]
    rfl
  simp only [resolved] at called
  have change : Change fs (.unlink path) slot fun _ => 0 := by
    obtain ⟨other, otherFile, named⟩ := resolveFile_ok resolved
    exact .unlink otherFile named
  rcases cleared : dirWriteSlot drive fs slot fun _ => 0 with ⟨code, volume⟩
  have written := dirWriteSlot_spec mounted file.inside cleared
  obtain ⟨stage, rest⟩ := written.rest
  rw [cleared] at called
  have reported : code = result := by
    cases code <;> cases called <;> rfl
  obtain ⟨rfl, dir⟩ := written.ok (reported ▸ fine)
  cases called
  simp only [agree]
  have valid := (change.valid mounted).2.2
  rw [decodeEntry_zero] at valid
  have nodes : (Volume.files { volume with handles := closeEntry volume.handles slot }).nodes =
    (fs.files.setNode record.name none).nodes := by
    funext name
    by_cases same : name = record.name
    · subst same
      have gone := mounted.table.lookup_update_gone file.inside file.held valid
      simp only [Files.setNode, if_true]
      simp only [Volume.files, Table.nodes, dir, tableOf_overlay, decodeEntry_zero]
      rw [rest]
      simp only [gone, map_none]
    · rw [effect.others mounted (by rw [change.old_name file.held]; simpa using Ne.symm same)]
      simp [Files.setNode, same]
  refine congrArg _ (Files.ext nodes.symm ?_ ?_)
  · funext index
    simp only [Volume.files, dir, tableOf_overlay, decodeEntry_zero, closeEntry]
    rw [rest]
    simp only
    by_cases used : (fs.handles index).inUse = true
    · obtain ⟨inside, holder, held, _⟩ := mounted.handles index used
      by_cases here : (fs.handles index).entry = slot
      · rw [here, file.held] at held
        cases held
        simp [used, here, file.held]
      have other : holder.name ≠ record.name := fun same =>
        here (mounted.table.unique _ slot holder record inside file.inside held file.held same)
      simp [used, here, held, other]
    · simp [used]
  · simp only [Volume.files]
    rw [rest]
    rfl

lemma fsOpen_refines {handle} (called : fsOpen fs path = (result, handle, after)) :
    fs.files.openFile path = (result, handle, after.files) := by
  simp only [fsOpen] at called
  simp only [Files.openFile]
  rcases resolveFile_refines mounted path with ⟨error, refused, agree⟩ | ⟨entry, record, resolved, file, agree⟩
  · simp only [refused] at called
    cases called
    simp only [agree]
    rfl
  simp only [resolved] at called
  simp only [agree]
  have search : ((List.range maxOpen).find? fun slot => (fs.files.handles slot).isNone) = freeHandle fs := by
    simp only [freeHandle]
    congr 1
    funext slot
    by_cases used : (fs.handles slot).inUse = true
    · obtain ⟨_, holder, held, _⟩ := mounted.handles slot used
      simp [Volume.files, used, held]
    · simp [Volume.files, used]
  rw [search]
  cases free : freeHandle fs with
  | none =>
    simp only [free] at called
    cases called
    rfl
  | some slot =>
    simp only [free] at called
    cases called
    refine Prod.ext rfl (Prod.ext rfl (Files.ext rfl ?_ rfl))
    funext other
    by_cases same : other = slot
    · simp [Files.setHandle, Volume.files, same, file.held]
    · simp [Files.setHandle, Volume.files, same]

lemma fsClose_refines (called : fsClose fs handle = (result, after)) :
    fs.files.close handle = (result, after.files) := by
  simp only [fsClose] at called
  simp only [Files.close]
  rcases decode_refines mounted handle with ⟨missing, agree, _⟩ | ⟨slot, record, decoded, _, agree, _⟩
  · simp only [missing] at called
    cases called
    simp only [agree]
    rfl
  simp only [decoded] at called
  cases called
  simp only [agree]
  refine congrArg _ (Files.ext rfl ?_ rfl)
  funext other
  by_cases same : other = slot
  · simp [Files.setHandle, Volume.files, same]
  · simp [Files.setHandle, Volume.files, same]

lemma fsStat_refines (called : fsStat fs path = (result, info, after)) :
    fs.files.stat path = (result, info.map fun info => { info with blocks := 0 }) ∧ after.files = fs.files := by
  simp only [fsStat, checkPath, mounted.on, true_eq_false, if_false] at called
  simp only [Files.stat, Files.key]
  cases accepted : pathOk path with
  | none =>
    cases path <;> simp only [accepted] at called ⊢ <;> cases called <;> exact ⟨rfl, rfl⟩
  | some len =>
    obtain ⟨path, rfl⟩ := pathOk_given accepted
    have shape := pathOk_iff.mp accepted
    simp only [accepted, resolve_eq shape] at called
    simp only [Volume.walk_eq]
    by_cases root : len = 1
    · simp only [root, if_true] at called ⊢
      cases called
      exact ⟨rfl, rfl⟩
    simp only [root, if_false] at called ⊢
    cases blocked : (tableOf fs.dir).walk fs.dirSlots (ancestors (pathKey path len)) with
    | some code =>
      simp only [blocked] at called
      cases called
      refine ⟨?_, rfl⟩
      have refused := Table.walk_code blocked
      rcases refused with rfl | rfl <;> rfl
    | none =>
      simp only [blocked] at called
      simp only
      cases hit : (tableOf fs.dir).find fs.dirSlots (pathKey path len) with
      | none =>
        simp only [hit] at called
        cases called
        simp only [Volume.files, Table.nodes, Table.lookup_none.mpr hit]
        exact ⟨rfl, trivial⟩
      | some slot =>
        simp only [hit] at called
        cases called
        refine ⟨?_, rfl⟩
        obtain ⟨inside, _, record, held, name⟩ := Table.find_some hit
        obtain ⟨_, _, type, _, _, _, length⟩ := decodeEntry_some held
        have looked : (tableOf fs.dir).lookup fs.dirSlots (pathKey path len) = some record := by
          simp [Table.lookup, hit, held]
        simp only [Volume.files, Table.nodes, looked, map_some, Record.node, type, length]
        rcases (mounted.table.records slot record inside held).kind with file | folder
        · have other : typeFile ≠ typeDir := by decide
          simp only [file.1, other, if_false, slice_length]
        · simp only [folder.1, folder.2.2.2, if_true]

end

private lemma slice_window (memory : ByteMemory) (start length offset len : Nat) (begun : offset ≤ length) :
    ((memory.slice start length).drop offset).take len = memory.slice (start + offset) (min len (length - offset)) := by
  rw [slice_drop _ _ _ _ begun]
  rcases le_total len (length - offset) with within | past
  · rw [slice_take _ _ _ _ within, min_eq_left within]
  · rw [take_of_length_le (by simpa using past), min_eq_right past]

lemma fsRead_refines (mounted : fs.Mounted)
    (called : fsRead drive fs handle offset address len = (answer, after))
    (fine : drive.Works ∨ answer.result ≠ .ioErr) :
    fs.files.read handle offset address len = answer ∧ after.files = fs.files := by
  simp only [Files.read]
  rcases decode_refines mounted handle with ⟨missing, _, agree⟩ | ⟨slot, record, decoded, file, _, agree⟩
  · simp only [fsRead, missing] at called
    cases called
    simp only [agree]
    exact ⟨trivial, rfl⟩
  have covers := (mounted.file_extent file).covers
  have total := mounted.extent_total file
  rw [fsRead_eq mounted decoded file] at called
  simp only [agree, slice_length]
  revert called
  iterate 3
    split
    · rintro ⟨⟩
      exact ⟨rfl, rfl⟩
  rename_i long past bad
  intro called
  simp only [slice_window _ _ _ _ _ (Nat.le_of_not_lt past), slice_length]
  split at called
  next none =>
    cases called
    refine ⟨?_, rfl⟩
    simp only [none, slice_zero]
  simp only at called
  generalize moved : readLoop drive fs.dev address (min len (record.length - offset)) (min len (record.length - offset))
    (record.first + offset / 512) (offset % 512) 0 [] fs.blk = transfer at called
  obtain ⟨moves, _, _, complete, delivered⟩ :=
    readLoop_spec fs.geometry.total (by omega) (Nat.mod_lt _ (by decide)) (by omega)
    (Nat.zero_le _) (by omega) moved
  have works : drive.Works → transfer.result = .ok := fun works => moves.works works mounted.usable
  split at called
  next ok =>
    cases called
    have disk := moves.exact ok
    rw [complete ok, nil_append, Nat.sub_zero,
      show 512 * (record.first + offset / 512) + offset % 512 = 512 * record.first + offset by omega] at delivered
    exact ⟨by rw [delivered], by simp only [Volume.files, disk]⟩
  rename_i failed
  cases called
  exact fine.elim (fun working => absurd (works working) failed) fun other => absurd rfl other

private lemma written_content (disk : ByteMemory) (first : Nat) (len : Nat) (source : ByteMemory)
    (begun : offset ≤ length) :
    (disk.overlay (512 * first + offset) len source).slice (512 * first) (max length (offset + len)) =
      splice (disk.slice (512 * first) length) offset (source.slice 0 len) :=
  slice_overlay_splice disk source begun

lemma relocated_content (disk : ByteMemory) (first newFirst : Nat) (source : ByteMemory)
    (begun : offset ≤ length) (long : length ≤ offset + len) (fits : offset + len ≤ 512 * blocks) :
    (disk.overlay (512 * newFirst) (512 * blocks)
      (relocated (disk.shift (512 * first)) source offset (offset + len))).slice
        (512 * newFirst) (offset + len) = splice (disk.slice (512 * first) length) offset (source.slice 0 len) := by
  simp only [splice, slice_length]
  rw [slice_take _ _ _ _ begun, drop_eq_nil_of_le (by simpa using long), append_nil, slice_add]
  congr 1
  · refine slice_congr fun index inside => ?_
    rw [overlay_inside (by omega) (by omega)]
    simp only [relocated]
    rw [if_pos (by omega), shift_apply]
    exact congrArg disk (by omega)
  · refine slice_congr fun index inside => ?_
    rw [overlay_inside (by omega) (by omega)]
    simp only [relocated]
    rw [if_neg (by omega), if_pos (by omega)]
    exact congrArg source (by omega)

lemma SlotWritten.data_slice (mounted : fs.Mounted) (inside : slot < fs.dirSlots)
    (written : SlotWritten drive { fs with blk } slot entry result after)
    (low : 512 * fs.geometry.dataStart ≤ start)
    (high : start + size ≤ 512 * (fs.geometry.dataStart + fs.geometry.dataBlocks)) :
    (after.blk.devices fs.dev).disk.slice start size = (blk.devices fs.dev).disk.slice start size := by
  have bound := mounted.slot_sector inside
  have apart := mounted.shape.apart
  have missed : ∀ {stores}, Wrote fs.dev stores blk after.blk → (∀ store ∈ stores, store.1 = slotSector fs slot) →
      (after.blk.devices fs.dev).disk.slice start size = (blk.devices fs.dev).disk.slice start size := by
    intro stores wrote only
    rw [wrote.disk]
    refine slice_congr fun index near => replay_outside fun store member same => ?_
    rw [only store member] at same
    simp only [sectorSize] at same
    omega
  rcases written.outcome with ⟨_, _, stored⟩ | ⟨_, _, lost⟩ | ⟨_, _, _, stored⟩
  · exact missed stored fun store member => by rw [mem_singleton.mp member]; rfl
  · exact missed lost (by simp)
  · exact missed stored fun store member => by rw [mem_singleton.mp member]; rfl

lemma fsWrite_refines (mounted : fs.Mounted)
    (called : fsWrite drive fs handle offset address source len = some (answer, after))
    (fine : drive.Works ∨ answer.result ≠ .ioErr)
    (space : room = true ↔ fs.HasRoom (.write handle offset address source len)) :
    fs.files.write room handle offset address source len = (answer, after.files) := by
  obtain ⟨data, tail, effect⟩ := fsWrite_effect mounted called
  simp only [Files.write]
  rcases decode_refines mounted handle with ⟨missing, _, agree⟩ | ⟨slot, record, decoded, file, _, agree⟩
  · unfold fsWrite at called
    simp only [missing] at called
    cases called
    simp only [agree]
    rfl
  have covers := (mounted.file_extent file).covers
  have room_iff : room = true ↔ (offset + len ≤ record.count * 512 ∨
      ∃ first, (tableOf fs.dir).FreeRange fs.dirSlots fs.geometry first ((offset + len + 511) / 512)) := by
    rw [space]
    constructor
    · intro wide
      exact wide slot record decoded file.held
    · intro either slot' record' decoded' held
      rw [decoded] at decoded'
      cases decoded'
      rw [file.held] at held
      cases held
      exact either
  rw [fsWrite_eq mounted decoded file] at called
  simp only [agree, slice_length]
  revert called
  iterate 3
    split
    · rintro ⟨⟩
      rfl
  split
  next empty =>
    rintro ⟨⟩
    rw [empty]
  rename_i long past bad empty
  intro called
  have named := names_write decoded file offset address source len
  split at called
  · rename_i within
    rw [if_neg (by omega)]
    obtain ⟨⟨stage, rest⟩, moves, answered | failed⟩ := writeWithin_spec mounted file within (Option.some.inj called)
    · rw [answered]
      refine congrArg _ (Files.ext ?_ ?_ ?_)
      · funext name
        by_cases same : name = record.name
        · subst same
          have kept : after.FileAt (fs.handles slot).entry record := by
            rw [rest]
            exact ⟨file.inside, file.held, file.file⟩
          rw [effect.mounted.file_node kept, effect.device, moves.exact (by rw [answered])]
          have content := written_content (fs.blk.devices fs.dev).disk record.first len source (not_lt.mp past)
          rw [Nat.max_eq_left within] at content
          simp only [Files.setNode, if_true, content]
        · rw [effect.others mounted (by rw [named]; simpa using Ne.symm same)]
          simp only [Files.setNode, same, if_false]
      · rw [rest]
        rfl
      · rw [rest]
        rfl
    · exact fine.elim (fun works => absurd (failed.symm.trans (moves.works works mounted.usable)) nofun) fun other =>
        absurd failed other
  split at called
  · rename_i fits
    have wide : room = true := room_iff.mpr (.inl fits)
    rw [if_neg (by simp [wide])]
    obtain ⟨blk, ok, moves, ⟨done, reported, written⟩ | ⟨missed, failed, _⟩⟩ :=
      writeGrow_spec mounted file fits (Option.some.inj called)
    · have some : record.count ≠ 0 := by omega
      have low := (mounted.file_extent file).low some
      have high := (mounted.file_extent file).high some
      have change : Change fs (.write handle offset address source len) (fs.handles slot).entry _ :=
        .grow decoded file (Nat.pos_of_ne_zero empty) fits
      obtain ⟨stage, rest⟩ := written.rest
      obtain ⟨code, dir⟩ := written.ok fine
      have content := written_content (fs.blk.devices fs.dev).disk record.first len source (not_lt.mp past)
      rw [Nat.max_eq_right (by omega), ← moves.exact done,
        ← written.data_slice mounted file.inside (by omega) (by omega)] at content
      rw [effect.files_changed mounted change dir (mounted.decode_grown file fits) (by rw [rest])
        (by rw [rest]) content]
      cases answer
      simp only at code reported
      rw [code, reported]
    · exact fine.elim (fun works => absurd (moves.works works mounted.usable) missed) fun other => absurd failed other
  rename_i within fits
  obtain ⟨answer', after', same, outcome⟩ := writeRelocate_spec drive source mounted file (not_lt.mp past)
    (not_le.mp fits) (not_lt.mp long)
  rw [same] at called
  cases called
  rcases outcome with ⟨full, answered, stage, rest⟩ | ⟨newFirst, blk, ok, free, moves, outcome⟩
  · have none : room = false := by
      rw [← not_eq_true, room_iff]
      rintro (fit | ⟨first, found⟩)
      · exact fits fit
      · exact full first found
    rw [if_pos ⟨by omega, none⟩, answered, rest]
    rfl
  have wide : room = true := room_iff.mpr (.inr ⟨newFirst, free⟩)
  rw [if_neg (by simp [wide])]
  rcases outcome with ⟨done, reported, written⟩ | ⟨missed, failed, _⟩
  · have low := free.1
    have high := free.2.1
    have taken : relocates fs handle offset address len = true :=
      (relocates_some mounted decoded file).mpr ⟨by omega, by omega, empty, by omega, by omega, by omega⟩
    have change : Change fs (.write handle offset address source len) (fs.handles slot).entry _ :=
      .relocate decoded file (Nat.pos_of_ne_zero empty) taken free
    obtain ⟨stage, rest⟩ := written.rest
    obtain ⟨code, dir⟩ := written.ok fine
    have content := relocated_content (fs.blk.devices fs.dev).disk record.first newFirst source
      (not_lt.mp past) (show record.length ≤ offset + len by omega)
        (show offset + len ≤ 512 * ((offset + len + 511) / 512) by omega)
    rw [← moves.exact done, ← written.data_slice mounted file.inside (by omega) (by omega)] at content
    have next := mounted.decode_switched file (not_lt.mp past) (not_lt.mp long) free
    rw [effect.files_changed mounted change dir next (by rw [rest]) (by rw [rest]) content]
    cases answer
    simp only at code reported
    rw [code, if_pos rfl] at reported
    rw [code, reported]
  · rw [failed] at fine
    exact fine.elim (fun works => absurd (moves.works works mounted.usable) missed) fun other => absurd rfl other

lemma step_refines (mounted : fs.Mounted) (called : step drive fs op = some (reply, after))
    (fine : drive.Works ∨ reply.result ≠ .ioErr) (space : room = true ↔ fs.HasRoom op) :
    fs.files.step room op = (reply.observed, after.files) := by
  cases op with
  | create path =>
    cases called
    simp only [Files.step, fsCreate_refines mounted rfl fine space, Reply.observed]
  | openFile path =>
    cases called
    simp only [Files.step, fsOpen_refines mounted rfl, Reply.observed]
  | write handle offset address source len =>
    simp only [step, map_eq_some_iff] at called
    obtain ⟨⟨answer, last⟩, ran, same⟩ := called
    cases same
    simp only [Files.step, fsWrite_refines mounted ran fine space, Reply.observed]
  | read handle offset address len =>
    cases called
    obtain ⟨agree, same⟩ := fsRead_refines mounted rfl fine
    simp only [Files.step, agree, same, Reply.observed]
  | stat path =>
    rcases ran : fsStat fs path with ⟨result, info, last⟩
    simp only [step, ran] at called
    cases called
    obtain ⟨agree, same⟩ := fsStat_refines mounted ran
    simp only [Files.step, agree, same]
    cases info <;> rfl
  | unlink path =>
    cases called
    simp only [Files.step, fsUnlink_refines mounted rfl fine, Reply.observed]
  | close handle =>
    cases called
    simp only [Files.step, fsClose_refines mounted rfl, Reply.observed]

end

/-! Whole runs. -/

open Classical in
/-- Whether each call of a run has room, in the state it is made in. -/
noncomputable def Volume.rooms (drive : Drive) : Volume → List Op → List Bool
  | _, [] => []
  | fs, op :: ops =>
    decide (fs.HasRoom op) ::
      match step drive fs op with
      | none => []
      | some (_, next) => rooms drive next ops

lemma run_refines (works : drive.Works) (mounted : fs.Mounted) (ops : List Op) :
    ∃ replies final, run drive fs ops = some (replies, final) ∧ final.Mounted ∧
      fs.files.run (ops.zip (fs.rooms drive ops)) = (replies.map Reply.observed, final.files) := by
  induction ops generalizing fs with
  | nil => exact ⟨[], fs, rfl, mounted, rfl⟩
  | cons op ops ih =>
    obtain ⟨reply, next, data, tail, called, effect⟩ := step_effect drive op mounted
    obtain ⟨replies, final, ran, finalMounted, later⟩ := ih effect.mounted
    refine ⟨reply :: replies, final, Transition.run_cons_of called ran, finalMounted, ?_⟩
    have agree := step_refines mounted called (.inl works)
      (@decide_eq_true_iff (fs.HasRoom op) (Classical.propDecidable _))
    simp only [Volume.rooms, called, zip_cons_cons, Files.run, agree, later, map_cons]

/-- From any mount, any sequence of calls on a working device answers as the file map does,
and every call after it leaves alone the files it does not name. -/
theorem mounted_run_refines {drive : Drive} {before fs : Volume} {dev : Nat}
    (accepted : fsMount drive before dev = some (.ok, fs)) (ops : List Op) :
    ∃ replies final, run .working fs ops = some (replies, final) ∧
      fs.files.run (ops.zip (fs.rooms .working ops)) = (replies.map Reply.observed, final.files) ∧
      ∀ op name reply next, step .working final op = some (reply, next) → final.names op ≠ some name →
        next.files.nodes name = final.files.nodes name := by
  have mounted := (fsMount_ok accepted).2.1.toMounted
  obtain ⟨replies, final, ran, finalMounted, agree⟩ := run_refines Drive.working_works mounted ops
  refine ⟨replies, final, ran, agree, fun op name reply next called other => ?_⟩
  obtain ⟨reply', next', data, tail, called', effect⟩ := step_effect .working op finalMounted
  rw [called] at called'
  cases called'
  exact effect.others finalMounted other

lemma emptyDevice_mounts : ∃ fs, fsMount .working (.boot fun _ => emptyDevice) 0 = some (.ok, fs) := by
  have code : (fsMount .working (.boot fun _ => emptyDevice) 0).map (·.1) = some .ok := by decide +kernel
  obtain ⟨⟨result, fs⟩, accepted, same⟩ := map_eq_some_iff.mp code
  cases same
  exact ⟨fs, accepted⟩

theorem mounted_run_refines_write :
    let ops : List Op := [.create (some (ofList [slash, 0x61])), .openFile (some (ofList [slash, 0x61])),
      .write 16 0 2 (ofList [0x68, 0x69]) 2, .read 16 0 2 2]
    ∃ fs, fsMount .working (.boot fun _ => emptyDevice) 0 = some (.ok, fs) ∧ ∃ replies final, run .working fs ops =
      some (replies, final) ∧
        fs.files.run (ops.zip (fs.rooms .working ops)) = (replies.map Reply.observed, final.files) := by
  intro ops
  obtain ⟨fs, accepted⟩ := emptyDevice_mounts
  obtain ⟨replies, final, ran, agree, _⟩ := mounted_run_refines accepted ops
  exact ⟨fs, accepted, replies, final, ran, agree⟩

end Rynor.Fs
