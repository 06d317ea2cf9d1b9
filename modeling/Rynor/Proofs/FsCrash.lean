import Rynor.Proofs.FsRefinement

/-! What is on the disk while a call runs, and what a mount finds there after a crash at
any point of it. -/

namespace Rynor.Fs
open ByteMemory Blk List Option
open Function (update update_self update_of_ne)

/-- The disk carries the volume's superblock and this directory. -/
structure Carries (fs : Volume) (disk : ByteMemory) (table : Table) : Prop where
  header : HeaderValid disk
  geometry : sbGeometry disk = fs.geometry
  slots : ∀ slot, slot < fs.dirSlots → tableOf (diskDir disk fs.geometry) slot = table slot

section
variable {drive : Drive} {fs after : Volume} {op : Op} {reply : Reply} {data tail : List (Nat × ByteMemory)}
  {disk other : ByteMemory} {table : Table}

lemma Volume.Synced.carries (synced : fs.Synced) : Carries fs (fs.blk.devices fs.dev).disk (tableOf fs.dir) :=
  ⟨synced.header, synced.geometry, fun _ inside => (tableOf_congr synced.mirror inside).symm⟩

section
variable (carries : Carries fs disk table)
include carries

lemma Carries.congr {next} (head : ∀ index, index < 512 → other index = disk index)
    (slots : ∀ slot, slot < fs.dirSlots → tableOf (diskDir other fs.geometry) slot = next slot) :
    Carries fs other next :=
  ⟨carries.header.congr head, (sbGeometry_congr head).trans carries.geometry, slots⟩

/-- Data stores stay out of the superblock and the directory. -/
lemma Carries.data_kept (mounted : fs.Mounted) (stores : DataStores fs op data) (count : Nat) :
    Carries fs (replay sectorSize disk (data.take count)) table := by
  have apart := mounted.shape.apart
  have positive := mounted.shape.dataStart_pos
  have slots := mounted.slots
  simp only [Geometry.slots, dirEntriesPerBlock] at slots
  refine carries.congr (fun index low => replay_outside fun entry member same => ?_) fun slot inside => ?_
  · have bound := stores.inside entry (mem_of_mem_take member)
    simp only [sectorSize] at same
    omega
  rw [← carries.slots slot inside]
  refine tableOf_congr (fun index low => ?_) inside
  simp only [entrySize] at low
  refine replay_outside fun entry member same => ?_
  have bound := stores.inside entry (mem_of_mem_take member)
  simp only [sectorSize] at same
  omega

lemma Carries.slot_written (mounted : fs.Mounted) (slot : Nat) (entry : ByteMemory) :
    Carries fs (disk.overlay (512 * fs.geometry.dirStart + slot * entrySize) entrySize entry)
    (update table slot (decodeEntry entry)) := by
  have positive := mounted.shape.dirStart_pos
  refine carries.congr (fun index low => overlay_outside (by omega)) fun index low => ?_
  rw [diskDir_overlay, tableOf_overlay]
  by_cases same : index = slot
  · rw [same, update_self, update_self]
  · rw [update_of_ne same, update_of_ne same, carries.slots index low]

end

lemma Attempt.carries (attempt : Attempt drive fs op result data tail slot entry dir)
    (mounted : fs.Mounted) (stores : DataStores fs op data) (carries : Carries fs (fs.blk.devices fs.dev).disk table)
    (done : tail ≠ []) :
    Carries fs (replay sectorSize (fs.blk.devices fs.dev).disk (data ++ tail))
    (update table slot (decodeEntry entry)) := by
  rcases attempt.stored with none | ⟨bytes, _, image⟩
  · exact absurd none done
  have written := carries.data_kept mounted stores data.length
  rw [take_length] at written
  rw [image]
  exact written.slot_written mounted slot entry

section
variable (effect : Effect drive fs op reply after data tail)
include effect

lemma Effect.dir_kept (none : tail = []) : after.dir = fs.dir := by
  rcases effect.directory with ⟨_, dir⟩ | ⟨slot, entry, attempt⟩
  · exact dir
  rcases attempt.outcome with ⟨_, stored, _⟩ | ⟨_, dir, _⟩
  · exact absurd none stored
  · exact dir

/-- A crash comes before the slot write of a call, or after all of its stores. -/
lemma Effect.crash_point (count : Nat) :
    ((data ++ tail).take count = data.take count ∧ (tail = [] ∨ count ≤ data.length)) ∨
    ((data ++ tail).take count = data ++ tail ∧ tail ≠ []) := by
  by_cases short : count ≤ data.length
  · exact .inl ⟨take_append_of_le_length short, .inr short⟩
  have single : tail = [] ∨ tail.length = 1 := by
    rcases effect.directory with ⟨none, _⟩ | ⟨slot, entry, attempt⟩
    · exact .inl none
    rcases attempt.stored with none | ⟨bytes, one, _⟩
    · exact .inl none
    · exact .inr (by rw [one]; rfl)
  rcases single with none | one
  · left
    rw [none, append_nil]
    exact ⟨rfl, .inl rfl⟩
  right
  refine ⟨take_of_length_le ?_, ?_⟩
  · rw [length_append, one]
    exact not_le.mp short
  · rintro rfl
    cases one

lemma Effect.carries (mounted : fs.Mounted) (carries : Carries fs (fs.blk.devices fs.dev).disk table) (count : Nat) :
    Carries fs (replay sectorSize (fs.blk.devices fs.dev).disk ((data ++ tail).take count)) table ∨
    ∃ slot entry, Change fs op slot entry ∧
        Carries fs (replay sectorSize (fs.blk.devices fs.dev).disk ((data ++ tail).take count))
        (update table slot (decodeEntry entry)) := by
  rcases effect.crash_point count with ⟨early, _⟩ | ⟨whole, done⟩
  · left
    rw [early]
    exact carries.data_kept mounted effect.stores count
  rcases effect.directory with ⟨none, _⟩ | ⟨slot, entry, attempt⟩
  · exact absurd none done
  right
  rw [whole]
  exact ⟨slot, entry, attempt.change, attempt.carries mounted effect.stores carries done⟩

lemma Effect.carries_after (mounted : fs.Mounted) (carries : Carries fs (fs.blk.devices fs.dev).disk table) :
    (tail = [] ∧ Carries after (after.blk.devices after.dev).disk table) ∨
      ∃ slot entry, Attempt drive fs op reply.result data tail slot entry after.dir ∧ tail ≠ [] ∧
        Carries after (after.blk.devices after.dev).disk (update table slot (decodeEntry entry)) := by
  have moved : ∀ {disk table}, Carries fs disk table → Carries after disk table := by
    intro disk table carries
    refine ⟨carries.header, carries.geometry.trans effect.geometry.symm, ?_⟩
    rw [effect.slots, effect.geometry]
    exact carries.slots
  rw [effect.device, effect.wrote.disk]
  by_cases none : tail = []
  · left
    have kept := carries.data_kept mounted effect.stores data.length
    rw [take_length] at kept
    rw [none, append_nil]
    exact ⟨rfl, moved kept⟩
  rcases effect.directory with ⟨empty, _⟩ | ⟨slot, entry, attempt⟩
  · exact absurd empty none
  · exact .inr ⟨slot, entry, attempt, none, moved (attempt.carries mounted effect.stores carries none)⟩

end

/-- A disk that carries a valid directory mounts, and shows the files the directory describes. -/
lemma Carries.remounts (carries : Carries fs disk table) (mounted : fs.Mounted)
    (valid : table.Valid fs.dirSlots fs.geometry) :
    ∃ again, remount fs disk = some (.ok, again) ∧ again.files.nodes = table.nodes fs.dirSlots disk := by
  have device : ((fs.reboot disk).blk.devices fs.dev).disk = disk := if_pos rfl
  have mountable : Mountable ((fs.reboot disk).blk.devices fs.dev).blockCount
    ((fs.reboot disk).blk.devices fs.dev).disk := by
    rw [device]
    refine ⟨carries.header, ?_, ?_⟩
    · rw [carries.geometry]
      exact mounted.shape
    · rw [carries.geometry, ← mounted.slots]
      exact valid.congr carries.slots
  have reads : ∀ command, Drive.working.readFails command = false := fun _ => rfl
  have present : ((fs.reboot disk).blk.devices fs.dev).present = true := mounted.usable.present
  obtain ⟨again, accepted, found⟩ := fsMount_accepts reads rfl mounted.usable.known present mountable
  have geometry : again.geometry = fs.geometry := by rw [found.geometry, device, carries.geometry]
  have slots : again.dirSlots = fs.dirSlots := by rw [found.slots, geometry, mounted.slots]
  have image : (again.blk.devices again.dev).disk = disk := by
    rw [found.devices, found.device]
    simp only [State.setDevice, if_true, device]
  have same : ∀ slot, slot < fs.dirSlots → tableOf again.dir slot = table slot := by
    intro slot inside
    rw [← carries.slots slot inside, ← device, ← geometry]
    exact tableOf_congr found.mirror (slots ▸ inside)
  refine ⟨again, accepted, funext fun name => ?_⟩
  simp only [Volume.files, Table.nodes, slots, image, valid.lookup_congr same]

/-- Mounted, and the disk carries the directory that is in RAM. -/
structure Volume.Agrees (fs : Volume) : Prop where
  mounted : fs.Mounted
  disk : Carries fs (fs.blk.devices fs.dev).disk (tableOf fs.dir)

lemma Volume.Synced.agrees (synced : fs.Synced) : fs.Agrees := ⟨synced.toMounted, synced.carries⟩

/-- Without ambiguous writes RAM and disk stay together. -/
lemma Effect.agrees (effect : Effect drive fs op reply after data tail) (agrees : fs.Agrees) (clean : drive.Clean) :
    after.Agrees := by
  refine ⟨effect.mounted, ?_⟩
  rcases effect.carries_after agrees.mounted agrees.disk with ⟨none, carries⟩ | ⟨slot, entry, attempt, done, carries⟩
  · rw [effect.dir_kept none]
    exact carries
  rcases attempt.outcome with ⟨_, _, dir⟩ | ⟨_, _, lost⟩
  · rw [dir, tableOf_overlay]
    exact carries
  · exact absurd (lost clean) done

end

/-- A run on a drive without ambiguous writes: at every crash point the disk carries a valid
directory, and at its end the one in RAM. -/
lemma run_carries (clean : drive.Clean) (agrees : fs.Agrees) (ops : List Op) :
    ∃ replies final stores, run drive fs ops = some (replies, final) ∧ final.Agrees ∧ final.dev = fs.dev ∧
    Wrote fs.dev stores fs.blk final.blk ∧
      ∀ count, ∃ table, Table.Valid table fs.dirSlots fs.geometry ∧
        Carries fs (replay sectorSize (fs.blk.devices fs.dev).disk (stores.take count)) table := by
  induction ops generalizing fs with
  | nil =>
    refine ⟨[], fs, [], rfl, agrees, rfl, Wrote.nil rfl, fun count => ⟨_, agrees.mounted.table, ?_⟩⟩
    rw [take_nil]
    exact agrees.disk
  | cons op ops ih =>
    obtain ⟨reply, next, data, tail, called, effect⟩ := step_effect drive op agrees.mounted
    obtain ⟨replies, final, stores, ran, finalAgrees, device, wrote, crashes⟩ := ih (effect.agrees agrees clean)
    rw [effect.device] at device wrote crashes
    refine ⟨reply :: replies, final, (data ++ tail) ++ stores, Transition.run_cons_of called ran, finalAgrees, device,
      effect.wrote.trans wrote, fun count => ?_⟩
    by_cases early : count ≤ (data ++ tail).length
    · rw [take_append_of_le_length early]
      rcases effect.carries agrees.mounted agrees.disk count with carries | ⟨slot, entry, change, carries⟩
      · exact ⟨_, agrees.mounted.table, carries⟩
      · exact ⟨_, (change.valid agrees.mounted).2.2, carries⟩
    obtain ⟨table, valid, carries⟩ := crashes (count - (data ++ tail).length)
    rw [take_append, take_of_length_le (Nat.le_of_not_le early), replay_append, ← effect.wrote.disk]
    rw [effect.slots, effect.geometry] at valid
    refine ⟨table, valid, carries.header, carries.geometry.trans effect.geometry, ?_⟩
    rw [← effect.slots, ← effect.geometry]
    exact carries.slots

/-- From any accepted image, on a drive that loses the writes it fails: after a crash at any
point of any sequence of calls the image mounts again, and between calls the directory in RAM
is the one on the disk. -/
theorem clean_run_mountable {mounting drive : Drive} {before fs : Volume} {dev : Nat}
    (accepted : fsMount mounting before dev = some (.ok, fs)) (clean : drive.Clean) (ops : List Op) :
    ∃ replies final stores, run drive fs ops = some (replies, final) ∧ (final.blk.devices dev).log =
    (fs.blk.devices dev).log ++ stores ∧
      (∀ count, ∃ again, remount fs (replay sectorSize (fs.blk.devices dev).disk (stores.take count)) =
        some (.ok, again)) ∧
      (final.blk.devices dev).disk = replay sectorSize (fs.blk.devices dev).disk stores ∧
      final.dirSlots = (sbGeometry (final.blk.devices dev).disk).slots ∧
      ∀ slot, slot < final.dirSlots →
        tableOf final.dir slot = tableOf (diskDir (final.blk.devices dev).disk
          (sbGeometry (final.blk.devices dev).disk)) slot := by
  obtain ⟨_, synced, rfl, _⟩ := fsMount_ok accepted
  obtain ⟨replies, final, stores, ran, agrees, device, wrote, crashes⟩ := run_carries clean synced.agrees ops
  have disk := agrees.disk
  rw [device] at disk
  refine ⟨replies, final, stores, ran, ?_, fun count => ?_, wrote.disk, ?_, fun slot inside => ?_⟩
  · rw [wrote.device]
    rfl
  · obtain ⟨table, valid, carries⟩ := crashes count
    obtain ⟨again, mounts, _⟩ := carries.remounts synced.toMounted valid
    exact ⟨again, mounts⟩
  · rw [disk.geometry, agrees.mounted.slots]
  · rw [disk.geometry, disk.slots slot inside]

theorem clean_run_mountable_lost :
    let drive : Drive := ⟨fun _ => false, fun command => if command = 3 then .lost else .stored⟩
    ∃ fs, fsMount .working (.boot fun _ => emptyDevice) 0 = some (.ok, fs) ∧ drive.Clean ∧
      ∃ replies final, ∃ stores : List (Nat × ByteMemory),
        run drive fs [.create (some (ofList [slash, 0x61])), .create (some (ofList [slash, 0x62]))] =
          some (replies, final) ∧
        ∀ count, ∃ again, remount fs (replay sectorSize (fs.blk.devices 0).disk (stores.take count)) =
          some (.ok, again) := by
  intro drive
  have clean : drive.Clean := by
    intro command
    simp only [drive]
    split <;> exact nofun
  obtain ⟨fs, accepted⟩ := emptyDevice_mounts
  obtain ⟨replies, final, stores, ran, _, crashes, _⟩ := clean_run_mountable accepted clean
    [.create (some (ofList [slash, 0x61])), .create (some (ofList [slash, 0x62]))]
  exact ⟨fs, accepted, clean, replies, final, stores, ran, crashes⟩

/-! Relocation. -/

section
variable {drive : Drive} {fs after : Volume} {op : Op} {result : FsResult} {data tail : List (Nat × ByteMemory)}
  {index newFirst blocks stop : Nat} {content dir : ByteMemory} {record : Record}

/-- A relocation stores outside every live extent. -/
lemma Relocation.nodes_kept (relocation : Relocation drive fs op result data tail index newFirst
      blocks stop content dir)
    (mounted : fs.Mounted) (count : Nat) :
    (tableOf fs.dir).nodes fs.dirSlots (replay sectorSize (fs.blk.devices fs.dev).disk ((data ++ tail).take count)) =
    fs.files.nodes := by
  funext name
  simp only [Volume.files, Table.nodes]
  rcases found : (tableOf fs.dir).lookup fs.dirSlots name with _ | record
  · rfl
  obtain ⟨slot, inside, _, held, _⟩ := Table.lookup_some found
  have extent := (mounted.table.records slot record inside held).inside
  have covers := extent.covers
  have kept : (replay sectorSize (fs.blk.devices fs.dev).disk ((data ++ tail).take count)).slice (512 * record.first)
    record.length =
      (fs.blk.devices fs.dev).disk.slice (512 * record.first) record.length := by
    refine slice_congr fun offset low => replay_outside fun entry member same => ?_
    simp only [sectorSize] at same
    rcases mem_append.mp (mem_of_mem_take member) with early | late
    · have bound := relocation.confined entry early
      have free := relocation.free.2.2 slot record inside held
      omega
    obtain ⟨_, attempt⟩ := relocation.switched (ne_nil_of_mem late)
    have outside := attempt.outside mounted late
    have some : record.count ≠ 0 := by omega
    have first := extent.low some
    have last := extent.high some
    omega
  simp only [map_some, Record.node, kept]

/-- Once the switch is stored, the disk shows the new content under the old name. -/
lemma Relocation.nodes_switched
    (relocation : Relocation drive fs (.write handle offset address source len) result data tail index newFirst
      ((offset + len + 511) / 512)
      (offset + len) (relocated ((fs.blk.devices fs.dev).disk.shift (512 * record.first)) source offset
        (offset + len)) dir)
    (mounted : fs.Mounted) (file : fs.FileAt index record) (begun : offset ≤ record.length)
    (long : record.length ≤ offset + len)
    (short : len ≤ maxWriteBytes) (done : tail ≠ []) : Table.nodes (update (tableOf fs.dir) index
        (decodeEntry (switchedEntry (entryAt fs.dir index) newFirst ((offset + len + 511) / 512) (offset + len))))
        fs.dirSlots
        (replay sectorSize (fs.blk.devices fs.dev).disk (data ++ tail)) record.name =
      some (.file (splice ((fs.blk.devices fs.dev).disk.slice (512 * record.first) record.length) offset
        (source.slice 0 len))) := by
  obtain ⟨copied, attempt⟩ := relocation.switched done
  obtain ⟨low, high, _⟩ := relocation.free
  have slots := mounted.slots
  have inside := file.inside
  have apart := mounted.shape.apart
  simp only [Geometry.slots, dirEntriesPerBlock] at slots
  have next := mounted.decode_switched file begun short relocation.free
  have valid := (attempt.change.valid mounted).2.2
  have shown := valid.file_node file.inside ((update_self ..).trans next) file.file
    (replay sectorSize (fs.blk.devices fs.dev).disk (data ++ tail))
  simp only at shown
  rw [shown]
  rcases attempt.stored with none | ⟨bytes, _, image⟩
  · exact absurd none done
  · rw [image, overlay_slice_disjoint (by simp only [entrySize]; omega), copied,
      relocated_content _ _ _ _ begun long (by omega)]

end

lemma content_node {files : Files} {handle : Nat} {name bytes : List UInt8}
    (content : files.content handle = some (name, bytes)) :
    files.nodes name = some (.file bytes) := by
  simp only [Files.content] at content
  split at content
  · cases content
  split at content
  next found =>
    cases content
    exact found
  · cases content

lemma relocation_crash (drive : Drive) (source : ByteMemory) (agrees : fs.Agrees)
    (taken : relocates fs handle offset address len = true) :
    ∃ name bytes answer after stores, fs.files.content handle = some (name, bytes) ∧
      fsWrite drive fs handle offset address source len = some (answer, after) ∧
      Wrote fs.dev stores fs.blk after.blk ∧ after.Mounted ∧
      (answer.result ≠ .ok → answer.nwritten = some 0 ∧ after.files = fs.files) ∧
      ∀ count, ∃ again, remount fs (replay sectorSize (fs.blk.devices fs.dev).disk (stores.take count)) =
      some (.ok, again) ∧
        (again.files.nodes = fs.files.nodes ∨
          again.files.nodes = (fs.files.setNode name
            (some (.file (splice bytes offset (source.slice 0 len))))).nodes) := by
  have mounted := agrees.mounted
  rcases decode_refines mounted handle with ⟨missing, _⟩ | ⟨slot, record, decoded, file, _, agree⟩
  · simp [relocates, missing] at taken
  obtain ⟨short, begun, _, _, _, past⟩ := (relocates_some mounted decoded file).mp taken
  have covers := (mounted.file_extent file).covers
  obtain ⟨answer, after, called, failure, data, tail, effect, outcome⟩ :=
    fsWrite_relocation drive source mounted decoded file taken
  have named := names_write decoded file offset address source len
  have kept : ∀ count, (tableOf fs.dir).nodes fs.dirSlots
      (replay sectorSize (fs.blk.devices fs.dev).disk ((data ++ tail).take count)) = fs.files.nodes := by
    intro count
    rcases outcome with ⟨rfl, rfl⟩ | ⟨newFirst, relocation⟩
    · rw [append_nil, take_nil]
      rfl
    · exact relocation.nodes_kept mounted count
  refine ⟨record.name, _, answer, after, data ++ tail, agree, called, effect.wrote, effect.mounted, fun failed => ?_,
    fun count => ?_⟩
  · obtain ⟨reported, stage, rest⟩ := failure failed
    refine ⟨reported, Files.ext ?_ (by rw [rest]; rfl) (by rw [rest]; rfl)⟩
    have same := kept (data ++ tail).length
    rw [take_length, ← effect.wrote.disk] at same
    rw [rest]
    exact same
  rcases effect.crash_point count with ⟨early, _⟩ | ⟨whole, done⟩
  · have carries := agrees.disk.data_kept mounted effect.stores count
    rw [← early] at carries
    obtain ⟨again, accepted, nodes⟩ := carries.remounts mounted mounted.table
    exact ⟨again, accepted, .inl (nodes.trans (kept count))⟩
  rcases outcome with ⟨_, none⟩ | ⟨newFirst, relocation⟩
  · exact absurd none done
  obtain ⟨_, attempt⟩ := relocation.switched done
  have carries := attempt.carries mounted effect.stores agrees.disk done
  obtain ⟨again, accepted, nodes⟩ := carries.remounts mounted (attempt.change.valid mounted).2.2
  rw [whole]
  refine ⟨again, accepted, .inr (funext fun name => ?_)⟩
  rw [nodes]
  by_cases same : name = record.name
  · subst same
    rw [relocation.nodes_switched mounted file begun (by omega) short done]
    simp only [Files.setNode, if_true]
  have other : fs.names (.write handle offset address source len) ≠ some name := by
    rw [named]
    simpa using Ne.symm same
  have others := effect.nodes_kept mounted other (attempt.change.lookup_other mounted other) count
  rw [whole] at others
  rw [others]
  simp only [Files.setNode, same, if_false]

/-- A relocating write, whatever the drive does during it: a crash at any point leaves the
target with all of its old or all of its new content and every other file as it was; a
write that fails reports no bytes, and reads go on returning the old content. -/
theorem relocation_atomic {mounting earlier : Drive} {before start fs : Volume} {dev : Nat} {ops : List Op}
    {replies : List Reply} (accepted : fsMount mounting before dev = some (.ok, start)) (clean : earlier.Clean)
    (ran : run earlier start ops = some (replies, fs))
    {handle offset address len : Nat} (taken : relocates fs handle offset address len = true) (drive : Drive)
    (source : ByteMemory) :
    ∃ name bytes answer after stores, fs.files.content handle = some (name, bytes) ∧
      fsWrite drive fs handle offset address source len = some (answer, after) ∧
      (after.blk.devices dev).log = (fs.blk.devices dev).log ++ stores ∧
      (∀ count, ∃ again, remount fs (replay sectorSize (fs.blk.devices dev).disk (stores.take count)) =
        some (.ok, again) ∧
        (again.files.nodes name = some (.file bytes) ∨
          again.files.nodes name = some (.file (splice bytes offset (source.slice 0 len)))) ∧
        ∀ other, other ≠ name → again.files.nodes other = fs.files.nodes other) ∧
      (answer.result ≠ .ok → answer.nwritten = some 0 ∧
        ∀ from_ buffer size, (fsRead .working after handle from_ buffer size).1 =
        fs.files.read handle from_ buffer size) := by
  obtain ⟨_, synced, rfl, _⟩ := fsMount_ok accepted
  obtain ⟨_, final, _, ran', agrees, device, _, _⟩ := run_carries clean synced.agrees ops
  rw [ran] at ran'
  cases ran'
  rw [← device]
  obtain ⟨name, bytes, answer, after, stores, content, called, wrote, mounted, failure, crashes⟩ :=
    relocation_crash drive source agrees taken
  refine ⟨name, bytes, answer, after, stores, content, called, ?_, fun count => ?_, fun failed => ?_⟩
  · rw [wrote.device]
    rfl
  · obtain ⟨again, mounts, old | new⟩ := crashes count
    · refine ⟨again, mounts, .inl ?_, fun other _ => by rw [old]⟩
      rw [old]
      exact content_node content
    · refine ⟨again, mounts, .inr ?_, fun other different => ?_⟩
      · rw [new]
        simp only [Files.setNode, if_true]
      · rw [new]
        simp only [Files.setNode, different, if_false]
  · obtain ⟨reported, same⟩ := failure failed
    refine ⟨reported, fun from_ buffer size => ?_⟩
    rcases delivered : fsRead .working after handle from_ buffer size with ⟨answer, last⟩
    obtain ⟨agree, _⟩ := fsRead_refines mounted delivered (.inl Drive.working_works)
    rw [← agree, same]

/-- `/d/b` grows past its block while the outcome of every write is unknown, and `/a` lies beside it. -/
theorem relocation_atomic_beside_a_file :
    let drive : Drive := ⟨fun _ => false, fun _ => .ambiguous⟩
    let target : List UInt8 := [0x64, slash, 0x62]
    ∃ start replies fs, fsMount .working (.boot fun _ => sampleDevice) 0 = some (.ok, start) ∧
      run .working start [.openFile (some (ofList (slash :: target)))] = some (replies, fs) ∧
        relocates fs 16 3 2 510 = true ∧
      ∃ answer after stores, fsWrite drive fs 16 3 2 (fun _ => 0x78) 510 = some (answer, after) ∧
        (after.blk.devices 0).log = (fs.blk.devices 0).log ++ stores ∧
        ∀ count, ∃ again, remount fs (replay sectorSize (fs.blk.devices 0).disk (stores.take count)) =
          some (.ok, again) ∧
          (again.files.nodes target = some (.file [0x68, 0x65, 0x79]) ∨
            again.files.nodes target = some (.file (splice [0x68, 0x65, 0x79] 3 (slice (fun _ => 0x78) 0 510)))) ∧
          again.files.nodes [0x61] = some (.file [0x68, 0x69]) := by
  intro drive target
  have steps : ((fsMount .working (.boot fun _ => sampleDevice) 0).bind fun start =>
      (run .working start.2 [.openFile (some (ofList (slash :: target)))]).map fun last =>
        ((start.1, relocates last.2 16 3 2 510), last.2.files.content 16, last.2.files.nodes [0x61])) =
      some ((.ok, true), some (target, [0x68, 0x65, 0x79]), some (.file [0x68, 0x69])) := by decide +kernel
  obtain ⟨⟨code, start⟩, accepted, later⟩ := bind_eq_some_iff.mp steps
  obtain ⟨⟨replies, fs⟩, ran, same⟩ := map_eq_some_iff.mp later
  simp only [Prod.mk.injEq] at same
  obtain ⟨⟨rfl, taken⟩, held, beside⟩ := same
  obtain ⟨name, bytes, answer, after, stores, content, called, logged, crashes, _⟩ :=
    relocation_atomic accepted Drive.working_works.clean ran taken drive fun _ => 0x78
  rw [held] at content
  cases content
  refine ⟨start, replies, fs, accepted, ran, taken, answer, after, stores, called, logged, fun count => ?_⟩
  obtain ⟨again, mounts, whole, others⟩ := crashes count
  exact ⟨again, mounts, whole, by rw [others [0x61] (by decide), beside]⟩

/-- After any history without ambiguous writes, and whatever the drive does during the next call: a crash at any point
of it leaves every file that the call does not name as it was. -/
theorem crash_keeps_other_files {earlier : Drive} {start fs : Volume}
    (accepted : fsMount mounting before dev = some (.ok, start))
    (clean : earlier.Clean) (ran : run earlier start ops = some (replies, fs)) (drive : Drive) (op : Op) :
    ∃ reply after stores, step drive fs op = some (reply, after) ∧ (after.blk.devices dev).log =
    (fs.blk.devices dev).log ++ stores ∧
      ∀ count, ∃ again, remount fs (replay sectorSize (fs.blk.devices dev).disk (stores.take count)) =
      some (.ok, again) ∧
        ∀ name, fs.names op ≠ some name → again.files.nodes name = fs.files.nodes name := by
  obtain ⟨_, synced, rfl, _⟩ := fsMount_ok accepted
  obtain ⟨_, _, _, ran', agrees, device, _, _⟩ := run_carries clean synced.agrees ops
  rw [ran] at ran'
  cases ran'
  rw [← device]
  have mounted := agrees.mounted
  obtain ⟨reply, after, data, tail, called, effect⟩ := step_effect drive op mounted
  refine ⟨reply, after, data ++ tail, called, by rw [effect.wrote.device]; rfl, fun count => ?_⟩
  -- the disk carries the directory from before the call, or the one with the call's change
  rcases effect.carries mounted agrees.disk count with carries | ⟨slot, entry, change, carries⟩
  · obtain ⟨again, mounts, shown⟩ := carries.remounts mounted mounted.table
    exact ⟨again, mounts, fun name other => by rw [shown, effect.nodes_kept mounted other rfl]⟩
  · obtain ⟨again, mounts, shown⟩ := carries.remounts mounted (change.valid mounted).2.2
    exact ⟨again, mounts, fun name other => by
      rw [shown, effect.nodes_kept mounted other (change.lookup_other mounted other)]⟩

/-- A new file is written for the first time while the outcome of every write is unknown: `/d/b` and `/a` stay. -/
theorem crash_keeps_other_files_of_write :
    let drive : Drive := ⟨fun _ => false, fun _ => .ambiguous⟩
    let ops : List Op := [.create (some (ofList [slash, 0x63])), .openFile (some (ofList [slash, 0x63]))]
    ∃ start replies fs, fsMount .working (.boot fun _ => sampleDevice) 0 = some (.ok, start) ∧
      run .working start ops = some (replies, fs) ∧
      ∃ reply after stores, step drive fs (.write 16 0 2 (ofList [0x78]) 1) = some (reply, after) ∧
        (after.blk.devices 0).log = (fs.blk.devices 0).log ++ stores ∧
        ∀ count, ∃ again, remount fs (replay sectorSize (fs.blk.devices 0).disk (stores.take count)) =
          some (.ok, again) ∧
          again.files.nodes [0x64, slash, 0x62] = some (.file [0x68, 0x65, 0x79]) ∧
            again.files.nodes [0x61] = some (.file [0x68, 0x69]) := by
  intro drive ops
  have steps : ((fsMount .working (.boot fun _ => sampleDevice) 0).bind fun start =>
    (run .working start.2 ops).map fun last =>
      (start.1, last.2.names (.write 16 0 2 (ofList [0x78]) 1), last.2.files.nodes [0x64, slash, 0x62],
        last.2.files.nodes [0x61])) =
      some (.ok, some [0x63], some (.file [0x68, 0x65, 0x79]), some (.file [0x68, 0x69])) := by decide +kernel
  obtain ⟨⟨code, start⟩, accepted, later⟩ := bind_eq_some_iff.mp steps
  obtain ⟨⟨replies, fs⟩, ran, same⟩ := map_eq_some_iff.mp later
  simp only [Prod.mk.injEq] at same
  obtain ⟨rfl, target, inner, beside⟩ := same
  obtain ⟨reply, after, stores, called, logged, crashes⟩ :=
    crash_keeps_other_files accepted Drive.working_works.clean ran drive (.write 16 0 2 (ofList [0x78]) 1)
  refine ⟨start, replies, fs, accepted, ran, reply, after, stores, called, logged, fun count => ?_⟩
  obtain ⟨again, mounts, others⟩ := crashes count
  rw [target] at others
  exact ⟨again, mounts, by rw [others _ (by decide), inner], by rw [others _ (by decide), beside]⟩

end Rynor.Fs
