import Rynor.Proofs.FsCrash

/-! A drive may report an error for a sector it has stored. RAM and disk then disagree about
one directory entry. A removal or a growth that was stored after all does no harm. A new
entry or a new extent does: RAM still counts the slot, the name and the blocks as free. -/

namespace Rynor.Fs
open ByteMemory Blk List Bool

/-- A failed call has put into the directory what RAM knows nothing of: a sector of the
directory was stored by a create, or by a write that relocates its file. -/
def misplaced (fs : Volume) (op : Op) (reply : Reply) (after : Volume) : Bool :=
  reply.result != .ok && storedDirectory && allocates
where
  storedDirectory : Bool :=
    ((after.blk.devices fs.dev).log.drop (fs.blk.devices fs.dev).log.length).any fun entry =>
      decide (fs.geometry.dirStart ≤ entry.1) && decide (entry.1 < fs.geometry.dirStart + fs.geometry.dirBlocks)
  allocates : Bool :=
    match op with
    | .create _ => true
    | .write handle offset address _ len => relocates fs handle offset address len
    | _ => false

/-- No call of the run misplaces anything. -/
def settles (drive : Drive) : Volume → List Op → Bool
  | _, [] => true
  | fs, op :: ops =>
    match step drive fs op with
    | none => true
    | some (reply, next) => !misplaced fs op reply next && settles drive next ops

/-- What a caller may expect of each file, and the files named by a call that failed. -/
structure Ledger where
  expected : List UInt8 → Option Node
  suspects : List (List UInt8)

/-- What a successful call makes of the file it names. -/
def Op.content : Op → Option Node → Option Node
  | .create _, _ => some (.file [])
  | .write _ offset _ source len, some (.file bytes) => some (.file (splice bytes offset (source.slice 0 len)))
  | .unlink _, _ => none
  | _, node => node

def rewritten (nodes : List UInt8 → Option Node) (op : Op) : Option (List UInt8) → List UInt8 → Option Node
  | none => nodes
  | some name => Function.update nodes name (op.content (nodes name))

def Ledger.step (ledger : Ledger) (name : Option (List UInt8)) (op : Op) (result : FsResult) : Ledger :=
  if result = .ok then { ledger with expected := rewritten ledger.expected op name }
  else if result = .ioErr then { ledger with suspects := name.toList ++ ledger.suspects }
  else ledger

/-- The ledger of a run. -/
def Ledger.run (drive : Drive) : Volume → Ledger → List Op → Ledger
  | _, ledger, [] => ledger
  | fs, ledger, op :: ops =>
    match Fs.step drive fs op with
    | none => ledger
    | some (reply, next) => run drive next (ledger.step (fs.names op) op reply.result) ops

/-! What the map does to the file a call names. -/

/-- The file a call is about, in the map. -/
def Files.names (files : Files) : Op → Option (List UInt8)
  | .create path | .openFile path | .stat path | .unlink path =>
    match path, pathOk path with
    | some path, some len => some (pathKey path len)
    | _, _ => none
  | .write handle .. | .read handle .. | .close handle => (files.decode handle).map (·.2)

lemma Volume.Mounted.names_eq {fs : Volume} (mounted : fs.Mounted) (op : Op) : fs.names op = fs.files.names op := by
  have handled : ∀ handle, ((decodeHandle fs handle).bind fun slot => (tableOf fs.dir (fs.handles slot).entry).map
    (·.name)) =
      (fs.files.decode handle).map (·.2) := by
    intro handle
    rcases decode_refines mounted handle with ⟨missing, none, _⟩ | ⟨slot, record, decoded, file, found, _⟩
    · rw [missing, none]
      rfl
    · rw [decoded, found, Option.bind_some, file.held]
      rfl
  cases op with
  | write handle | read handle | close handle => exact handled handle
  | _ => rfl

namespace Files
variable {files : Files}
variable {path : Option ByteMemory} {atRoot code : FsResult} {name : List UInt8} {op : Op} {room : Bool} {after : Files}

lemma key_names (found : files.key path atRoot = .ok name) :
    ∃ place len, path = some place ∧ pathOk path = some len ∧ name = pathKey place len := by
  simp only [key] at found
  split at found
  next place len accepted =>
    split at found
    · cases found
    split at found
    · cases found
    · cases found
      exact ⟨place, len, rfl, accepted, rfl⟩
  · cases found

lemma walk_refused (blocked : files.walk parents = some code) : code ≠ .ok := by
  induction parents with
  | nil => cases blocked
  | cons parent rest ih =>
    simp only [walk] at blocked
    split at blocked
    · cases blocked
      simp
    · exact ih blocked
    · cases blocked
      simp

lemma key_refused (refused : files.key path atRoot = .error code) (root : atRoot ≠ .ok) : code ≠ .ok := by
  simp only [key] at refused
  split at refused
  · split at refused
    · cases refused
      exact root
    split at refused
    next blocked =>
      cases refused
      exact walk_refused blocked
    · cases refused
  · cases refused
    simp

lemma fileKey_cases (path : Option ByteMemory) :
    (∃ code, files.fileKey path = .error code ∧ code ≠ .ok) ∨ ∃ name, files.fileKey path = .ok name ∧
    files.key path .notFile = .ok name := by
  simp only [fileKey, bind, Except.bind]
  cases found : files.key path .notFile with
  | error code => exact .inl ⟨code, rfl, key_refused found (by simp)⟩
  | ok name =>
    simp only
    split
    · exact .inl ⟨_, rfl, (by simp)⟩
    · exact .inl ⟨_, rfl, (by simp)⟩
    · exact .inr ⟨name, rfl, rfl⟩

lemma names_of_key (found : files.key path atRoot = .ok name) (same : files.names op = files.names (.stat path)) :
    files.names op = some name := by
  obtain ⟨place, len, rfl, accepted, rfl⟩ := key_names found
  rw [same]
  simp only [names, accepted]

lemma rewritten_same {nodes : List UInt8 → Option Node} (idle : ∀ node, op.content node = node)
    (name : Option (List UInt8)) :
    rewritten nodes op name = nodes := by
  cases name with
  | none => rfl
  | some name => rw [rewritten, idle, Function.update_eq_self]

lemma setNode_nodes (name : List UInt8) (node : Option Node) :
    (files.setNode name node).nodes = Function.update files.nodes name node := by
  funext other
  simp only [setNode, Function.update_apply]

private lemma write_nodes (called : files.write room handle offset address source len = (answer, after)) :
    after.nodes = if answer.result = .ok then
        rewritten files.nodes (.write handle offset address source len)
        (files.names (.write handle offset address source len))
      else files.nodes := by
  simp only [write] at called
  cases held : files.content handle with
  | none =>
    simp only [held] at called
    cases called
    rfl
  | some pair =>
    obtain ⟨name, bytes⟩ := pair
    have node := content_node held
    have named : files.names (.write handle offset address source len) = some name := by
      simp only [content] at held
      split at held
      · cases held
      rename_i decoded
      split at held
      · cases held
        simp only [names, decoded, Option.map_some]
      · cases held
    have next : rewritten files.nodes (.write handle offset address source len) (some name) =
        Function.update files.nodes name (some (.file (splice bytes offset (source.slice 0 len)))) := by
      simp only [rewritten, node, Op.content]
    simp only [held] at called
    rw [named, next]
    iterate 3
      split at called
      · cases called
        rfl
    split at called
    next empty =>
      have whole : splice bytes offset (source.slice 0 len) = bytes := by
        rw [empty, slice_zero]
        simp [splice]
      cases called
      rw [if_pos rfl, whole, ← node, Function.update_eq_self]
    split at called
    · cases called
      rfl
    · cases called
      rw [if_pos rfl, setNode_nodes]

/-- A successful call rewrites the file it names; any other leaves the files alone. -/
lemma step_nodes (called : files.step room op = (reply, after)) :
    after.nodes = if reply.result = .ok then rewritten files.nodes op (files.names op) else files.nodes := by
  cases op with
  | create path =>
    simp only [step, create] at called
    cases found : files.key path .alreadyExists with
    | error code =>
      simp only [found] at called
      cases called
      exact (if_neg (key_refused found (by simp))).symm
    | ok name =>
      simp only [found] at called
      have named : files.names (.create path) = some name := names_of_key found rfl
      rw [named]
      split at called
      · cases called
        rfl
      split at called
      · cases called
        exact (setNode_nodes name _).trans (if_pos rfl).symm
      · cases called
        rfl
  | openFile path =>
    rw [rewritten_same (fun _ => rfl), ite_self]
    simp only [step, openFile] at called
    split at called
    · cases called
      rfl
    · split at called <;> cases called <;> rfl
  | write handle offset address source len =>
    cases called
    exact write_nodes rfl
  | read handle offset address len | stat _ =>
    rw [rewritten_same (fun _ => rfl), ite_self]
    cases called
    rfl
  | unlink path =>
    simp only [step, unlink] at called
    rcases @fileKey_cases files path with ⟨code, refused, bad⟩ | ⟨name, found, key⟩
    · simp only [refused] at called
      cases called
      exact (if_neg bad).symm
    simp only [found] at called
    cases called
    have named : files.names (.unlink path) = some name := names_of_key key rfl
    rw [named]
    exact (setNode_nodes name _).trans (if_pos rfl).symm
  | close handle =>
    rw [rewritten_same (fun _ => rfl), ite_self]
    simp only [step, close] at called
    split at called <;> cases called <;> rfl

end Files

/-! How far RAM and disk drift apart. -/

/-- A slot may differ if a failed call named its file: the entry may be gone from the disk,
or have another length there. -/
def Strays (suspects : List (List UInt8)) (ram disk : Table) (slots : Nat) : Prop :=
  ∀ slot, slot < slots → disk slot = ram slot ∨ ∃ record, ram slot = some record ∧ record.type = typeFile ∧
    record.name ∈ suspects ∧
      (disk slot = none ∨ ∃ length, 0 < length ∧ length ≤ record.count * 512 ∧ disk slot = some { record with length })

namespace Strays
variable {suspects : List (List UInt8)} {ram disk : Table} {slots slot : Nat} {geometry : Geometry}
  {next record : Record}

lemma refl (table : Table) : Strays suspects table table slots := fun _ _ => .inl rfl

section
variable (strays : Strays suspects ram disk slots)
include strays

lemma mono (grown : ∀ name ∈ suspects, name ∈ more) : Strays more ram disk slots := by
  intro slot inside
  rcases strays slot inside with same | ⟨record, held, file, suspect, rest⟩
  · exact .inl same
  · exact .inr ⟨record, held, file, grown _ suspect, rest⟩

lemma update (entry : Option Record) :
    Strays suspects (Function.update ram slot entry) (Function.update disk slot entry) slots := by
  intro other inside
  by_cases same : other = slot
  · subst same
    rw [Function.update_self, Function.update_self]
    exact .inl rfl
  · rw [Function.update_of_ne same, Function.update_of_ne same]
    exact strays other inside

lemma astray (entry : Option Record) (held : ram slot = some record) (file : record.type = typeFile)
    (suspect : record.name ∈ suspects)
    (drift : entry = none ∨ ∃ length, 0 < length ∧ length ≤ record.count * 512 ∧ entry = some { record with length }) :
    Strays suspects ram (Function.update disk slot entry) slots := by
  intro other inside
  by_cases same : other = slot
  · subst same
    rw [Function.update_self]
    exact .inr ⟨record, held, file, suspect, drift⟩
  · rw [Function.update_of_ne same]
    exact strays other inside

lemma held (valid : ram.Valid slots geometry) (inside : slot < slots) (found : disk slot = some next) :
    ∃ record, ram slot = some record ∧ next.Valid geometry ∧ next.name = record.name ∧ next.first = record.first ∧
    next.count = record.count := by
  rcases strays slot inside with same | ⟨record, held, file, _, gone | ⟨length, positive, fits, drift⟩⟩
  · rw [found] at same
    exact ⟨next, same.symm, valid.records slot next inside same.symm, rfl, rfl, rfl⟩
  · rw [found] at gone
    cases gone
  rw [found] at drift
  cases drift
  have known := valid.records slot record inside held
  have extent := known.inside
  have some : record.count ≠ 0 := by omega
  refine ⟨record, held, ⟨known.named, known.components, known.reserved, .inl ⟨file, .inr ⟨positive, fits, ?_, ?_⟩⟩⟩,
    rfl, rfl, rfl⟩
  · exact extent.low some
  · exact extent.high some

lemma valid (valid : ram.Valid slots geometry) : disk.Valid slots geometry := by
  refine ⟨?_, ?_, ?_, ?_⟩
  · intro slot next inside found
    obtain ⟨_, _, known, _⟩ := strays.held valid inside found
    exact known
  · intro a b one two aInside bInside aFound bFound same
    obtain ⟨first, aHeld, _, aName, _⟩ := strays.held valid aInside aFound
    obtain ⟨second, bHeld, _, bName, _⟩ := strays.held valid bInside bFound
    exact valid.unique a b first second aInside bInside aHeld bHeld (aName.symm.trans (same.trans bName))
  · intro slot next inside found parent member
    obtain ⟨record, held, _, name, _⟩ := strays.held valid inside found
    rw [name] at member
    obtain ⟨above, holder, aboveInside, holds, named, folder⟩ := valid.parents slot record inside held parent member
    refine ⟨above, holder, aboveInside, ?_, named, folder⟩
    rcases strays above aboveInside with same | ⟨other, otherHeld, file, _⟩
    · exact same.trans holds
    rw [holds] at otherHeld
    cases otherHeld
    rw [folder] at file
    exact absurd file (by decide)
  intro a b one two aInside bInside aFound bFound different
  obtain ⟨first, aHeld, _, _, aFirst, aCount⟩ := strays.held valid aInside aFound
  obtain ⟨second, bHeld, _, _, bFirst, bCount⟩ := strays.held valid bInside bFound
  have apart := valid.apart a b first second aInside bInside aHeld bHeld different
  simp only [Record.Apart] at apart ⊢
  rw [aFirst, aCount, bFirst, bCount]
  exact apart

lemma lookup (valid : ram.Valid slots geometry) (trusted : name ∉ suspects) :
    disk.lookup slots name = ram.lookup slots name := by
  apply Option.ext
  intro record
  rw [(strays.valid valid).lookup_iff, valid.lookup_iff]
  constructor
  · rintro ⟨slot, inside, found, named⟩
    rcases strays slot inside with same | ⟨other, held, _, suspect, gone | ⟨length, _, _, drift⟩⟩
    · exact ⟨slot, inside, same.symm.trans found, named⟩
    · rw [found] at gone
      cases gone
    · rw [found] at drift
      cases drift
      exact absurd (named ▸ suspect) trusted
  · rintro ⟨slot, inside, found, named⟩
    rcases strays slot inside with same | ⟨other, held, _, suspect, _⟩
    · exact ⟨slot, inside, same.trans found, named⟩
    rw [found] at held
    cases held
    exact absurd (named ▸ suspect) trusted

end

end Strays

/-! Calls and runs. -/

/-- What holds between the calls of a run: the disk carries a directory that strays from RAM
only for suspects, and RAM shows what is expected of every other file. -/
structure Tracks (ledger : Ledger) (fs : Volume) (table : Table) : Prop where
  mounted : fs.Mounted
  carries : Carries fs (fs.blk.devices fs.dev).disk table
  strays : Strays ledger.suspects (tableOf fs.dir) table fs.dirSlots
  nodes : ∀ name, name ∉ ledger.suspects → fs.files.nodes name = ledger.expected name

section
variable {drive : Drive} {fs after : Volume} {op : Op} {reply : Reply} {data tail : List (Nat × ByteMemory)}
  {ledger : Ledger} {table : Table}

lemma Ledger.step_suspects (ledger : Ledger) (name : Option (List UInt8)) (op : Op) (result : FsResult) :
    ∀ suspect ∈ ledger.suspects, suspect ∈ (ledger.step name op result).suspects := by
  intro suspect member
  simp only [Ledger.step]
  split
  · exact member
  split
  · exact mem_append_right _ member
  · exact member

section
variable (attempt : Attempt drive fs op reply.result data tail slot entry dir) (mounted : fs.Mounted)
  (wrote : Wrote fs.dev (data ++ tail) fs.blk after.blk) (done : tail ≠ [])
include attempt mounted wrote done

lemma Attempt.stored_directory : misplaced.storedDirectory fs after = true := by
  have bound := mounted.slot_sector (attempt.change.valid mounted).1
  rcases attempt.stored with none | ⟨bytes, one, _⟩
  · exact absurd none done
  have log : (after.blk.devices fs.dev).log.drop (fs.blk.devices fs.dev).log.length = data ++ tail := by
    rw [wrote.device]
    exact drop_left
  rw [misplaced.storedDirectory, log, any_eq_true]
  refine ⟨(slotSector fs slot, bytes), mem_append_right _ (by rw [one]; exact mem_singleton_self _), ?_⟩
  simp only [bound.1, bound.2, decide_true, Bool.and_self]

/-- A change that a settled call stores and reports as failed removes a file or resizes it. -/
lemma Attempt.drift (failed : reply.result = .ioErr) (settled : misplaced fs op reply after = false) :
    ∃ record, tableOf fs.dir slot = some record ∧ record.type = typeFile ∧ (decodeEntry entry = none ∨
        ∃ length, 0 < length ∧ length ≤ record.count * 512 ∧ decodeEntry entry = some { record with length }) := by
  have stored := attempt.stored_directory mounted wrote done
  simp only [misplaced, failed, stored] at settled
  cases attempt.change with
  | create shape long inside vacant fresh parents => cases settled
  | unlink file named => exact ⟨_, file.held, file.file, .inl decodeEntry_zero⟩
  | @grow handle offset address len index source record decoded file positive fits =>
    exact ⟨record, file.held, file.file, .inr ⟨offset + len, by omega, fits, mounted.decode_grown file fits⟩⟩
  | relocate decoded file positive taken free =>
    simp only [misplaced.allocates, taken] at settled
    cases settled

end

lemma Tracks.nodes_step (tracks : Tracks ledger fs table) (called : step drive fs op = some (reply, after))
    (effect : Effect drive fs op reply after data tail) {name : List UInt8}
    (trusted : name ∉ (ledger.step (fs.names op) op reply.result).suspects) :
    after.files.nodes name = (ledger.step (fs.names op) op reply.result).expected name := by
  have before : fs.files.nodes name = ledger.expected name :=
    tracks.nodes name fun suspect => trusted (ledger.step_suspects _ _ _ name suspect)
  by_cases failed : reply.result = .ioErr
  · have other : fs.names op ≠ some name := by
      intro named
      apply trusted
      simp only [Ledger.step, failed, named]
      exact mem_append_left _ (mem_singleton_self name)
    rw [effect.others tracks.mounted other, before]
    simp only [Ledger.step, failed]
    rfl
  have agree := step_refines tracks.mounted called (.inr failed)
    (@decide_eq_true_iff (fs.HasRoom op) (Classical.propDecidable _))
  have nodes := Files.step_nodes agree
  have result : reply.observed.result = reply.result := by
    cases reply with
    | stat result info => cases info <;> rfl
    | _ => rfl
  rw [result, ← tracks.mounted.names_eq op] at nodes
  rw [nodes]
  simp only [Ledger.step]
  by_cases ok : reply.result = .ok
  · rw [if_pos ok, if_pos ok]
    rcases named : fs.names op with _ | target
    · exact before
    simp only [rewritten]
    rw [Function.update_apply, Function.update_apply, before]
    split
    next same => rw [← same, before]
    · rfl
  · rw [if_neg ok, if_neg ok, if_neg failed, before]

lemma Tracks.step (tracks : Tracks ledger fs table) (called : Fs.step drive fs op = some (reply, after))
    (effect : Effect drive fs op reply after data tail) (settled : misplaced fs op reply after = false) :
    ∃ next, Tracks (ledger.step (fs.names op) op reply.result) after next := by
  have mounted := tracks.mounted
  have kept := tracks.strays.mono (ledger.step_suspects (fs.names op) op reply.result)
  have finish : ∀ {next}, Carries after (after.blk.devices after.dev).disk next →
      Strays (ledger.step (fs.names op) op reply.result).suspects (tableOf after.dir) next fs.dirSlots →
      ∃ next, Tracks (ledger.step (fs.names op) op reply.result) after next := by
    intro next carries strays
    exact ⟨next, effect.mounted, carries, effect.slots ▸ strays,
      fun name trusted => tracks.nodes_step called effect trusted⟩
  rcases effect.carries_after mounted tracks.carries with ⟨none, carries⟩ | ⟨slot, entry, attempt, done, carries⟩
  · exact finish carries (effect.dir_kept none ▸ kept)
  rcases attempt.outcome with ⟨_, _, dir⟩ | ⟨failed, dir, _⟩
  · refine finish carries ?_
    rw [dir, tableOf_overlay]
    exact kept.update _
  obtain ⟨record, held, file, drift⟩ := attempt.drift mounted effect.wrote done failed settled
  have suspect : record.name ∈ (ledger.step (fs.names op) op reply.result).suspects := by
    simp only [Ledger.step, failed, attempt.change.old_name held]
    exact mem_append_left _ (mem_singleton_self _)
  refine finish carries ?_
  rw [dir]
  exact kept.astray _ held file suspect drift

end

lemma Tracks.run (tracks : Tracks ledger fs table) (settled : settles drive fs ops = true) :
    ∃ replies final next, Fs.run drive fs ops = some (replies, final) ∧ final.dev = fs.dev ∧ Tracks
    (ledger.run drive fs ops) final next := by
  induction ops generalizing fs ledger table with
  | nil => exact ⟨[], fs, table, rfl, rfl, tracks⟩
  | cons op ops ih =>
    obtain ⟨reply, after, data, tail, called, effect⟩ := step_effect drive op tracks.mounted
    simp only [settles, called, and_eq_true, not_eq_true'] at settled
    obtain ⟨next, followed⟩ := tracks.step called effect settled.1
    obtain ⟨replies, final, last, ran, device, finished⟩ := ih followed settled.2
    refine ⟨reply :: replies, final, last, Transition.run_cons_of called ran, device.trans effect.device, ?_⟩
    simp only [Ledger.run, called]
    exact finished

/-- On any drive, as long as no failed create or relocation has stored a directory sector:
after every call the image mounts, and every file that no failed call named has, in RAM and
after a remount, the bytes last written to it. -/
theorem settled_run_remounts {mounting drive : Drive} {before fs : Volume} {dev : Nat} {ops : List Op}
    (accepted : fsMount mounting before dev = some (.ok, fs)) (settled : settles drive fs ops = true) :
    ∃ replies final again, run drive fs ops = some (replies, final) ∧ remount final
    (final.blk.devices dev).disk = some (.ok, again) ∧
      ∀ name, name ∉ (Ledger.run drive fs ⟨fs.files.nodes, []⟩ ops).suspects →
        final.files.nodes name = (Ledger.run drive fs ⟨fs.files.nodes, []⟩ ops).expected name ∧
          again.files.nodes name = (Ledger.run drive fs ⟨fs.files.nodes, []⟩ ops).expected name := by
  obtain ⟨_, synced, rfl, _⟩ := fsMount_ok accepted
  have start : Tracks ⟨fs.files.nodes, []⟩ fs (tableOf fs.dir) :=
    ⟨synced.toMounted, synced.carries, .refl _, fun _ _ => rfl⟩
  obtain ⟨replies, final, table, ran, device, tracks⟩ := start.run settled
  have mounted := tracks.mounted
  rw [← device]
  obtain ⟨again, accepted, nodes⟩ := tracks.carries.remounts mounted (tracks.strays.valid mounted.table)
  refine ⟨replies, final, again, ran, accepted, fun name trusted => ?_⟩
  have shown := tracks.nodes name trusted
  refine ⟨shown, ?_⟩
  rw [nodes, ← shown]
  simp only [Table.nodes, Volume.files, tracks.strays.lookup mounted.table trusted]

theorem settled_run_remounts_unlink :
    let drive : Drive := ⟨fun _ => false, fun command => if command = 5 then .ambiguous else .stored⟩
    let ops : List Op := [.create (some (ofList [slash, 0x61])), .unlink (some (ofList [slash, 0x61])),
      .create (some (ofList [slash, 0x62]))]
    ∃ fs, fsMount .working (.boot fun _ => emptyDevice) 0 = some (.ok, fs) ∧ settles drive fs ops = true ∧
      ∃ replies final again, run drive fs ops = some (replies, final) ∧ remount final (final.blk.devices 0).disk =
        some (.ok, again) := by
  intro drive ops
  have steps : (fsMount .working (.boot fun _ => emptyDevice) 0).map (fun start => (start.1,
    settles drive start.2 ops)) =
      some (.ok, true) := by decide +kernel
  obtain ⟨⟨code, fs⟩, accepted, same⟩ := Option.map_eq_some_iff.mp steps
  simp only [Prod.mk.injEq] at same
  obtain ⟨rfl, settled⟩ := same
  obtain ⟨replies, final, again, ran, mounts, _⟩ := settled_run_remounts accepted settled
  exact ⟨fs, accepted, settled, replies, final, again, ran, mounts⟩

/-- The first write to one file stores its entry and reports an error; the first write to
another then takes the same block, succeeds, and the image is refused. -/
theorem ambiguous_relocation_overlaps :
    let drive : Drive := ⟨fun _ => false, fun command => if command = 8 then .ambiguous else .stored⟩
    let ops : List Op := [.create (some (ofList [slash, 0x61])), .create (some (ofList [slash, 0x62])),
      .openFile (some (ofList [slash, 0x61])), .openFile (some (ofList [slash, 0x62])),
      .write 16 0 2 (ofList [0x68]) 1, .write 17 0 2 (ofList [0x69]) 1]
    ∃ fs replies final again, fsMount .working (.boot fun _ => emptyDevice) 0 = some (.ok, fs) ∧
      run drive fs ops = some (replies, final) ∧ replies.map Reply.result = [.ok, .ok, .ok, .ok, .ioErr, .ok] ∧
      remount final (final.blk.devices 0).disk = some (.corrupt, again) := by
  intro drive ops
  have steps : ((fsMount .working (.boot fun _ => emptyDevice) 0).bind fun start =>
      (run drive start.2 ops).bind fun last =>
        (remount last.2 (last.2.blk.devices 0).disk).map fun again => (start.1, last.1.map Reply.result, again.1)) =
      some (.ok, [.ok, .ok, .ok, .ok, .ioErr, .ok], .corrupt) := by decide +kernel
  obtain ⟨⟨code, fs⟩, accepted, later⟩ := Option.bind_eq_some_iff.mp steps
  obtain ⟨⟨replies, final⟩, ran, last⟩ := Option.bind_eq_some_iff.mp later
  obtain ⟨⟨verdict, again⟩, refused, same⟩ := Option.map_eq_some_iff.mp last
  simp only [Prod.mk.injEq] at same
  obtain ⟨rfl, results, rfl⟩ := same
  exact ⟨fs, replies, final, again, accepted, ran, results, refused⟩

end Rynor.Fs
