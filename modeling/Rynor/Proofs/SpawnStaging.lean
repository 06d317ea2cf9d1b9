import Rynor.Core.SpawnCalls
import Rynor.Proofs.FsRefinement
import Rynor.Proofs.HeapRuns
import Rynor.Proofs.UserCopies

/-! What an empty heap can stage: the arena is one free block, and a block carries its
header, its footer and whole granules. -/

namespace Rynor
open Vm Fs Blk ByteMemory Option

section
variable {cpu : Cpu} {drive : Drive} {path : ByteMemory} {name bytes : List UInt8} {heap : Heap.State} {fs : Volume}

/-- The largest image one block of the arena holds. -/
def stagingRoom : Nat := Heap.arenaBytes - Heap.headerBytes - Heap.footerBytes

/-- A regular file by its path. -/
def Fs.Files.Names (files : Files) (path : ByteMemory) (name bytes : List UInt8) : Prop :=
  files.fileKey (some path) = .ok name ∧ files.nodes name = some (.file bytes)

lemma Fs.Files.Names.stat {files : Files} (names : files.Names path name bytes) :
    files.stat (some path) = (.ok, some ⟨typeFile, bytes.length, 0⟩) := by
  obtain ⟨key, node⟩ := names
  simp only [Files.fileKey, Files.key] at key
  simp only [Files.stat, Files.key]
  rcases accepted : pathOk (some path) with _ | len
  · simp [accepted, bind, Except.bind] at key
  by_cases root : len = 1
  · simp [accepted, root, bind, Except.bind] at key
  cases blocked : files.walk (ancestors (pathKey path len)) with
  | some code => simp [accepted, root, blocked, bind, Except.bind] at key
  | none =>
    simp only [accepted, root, if_false, blocked, bind, Except.bind] at key
    have same : pathKey path len = name := by
      split at key <;> cases key
      rfl
    rw [same] at blocked
    simp [root, blocked, same, node]

lemma Heap.Sound.heapAlloc_empty (empty : Sound heap [⟨arenaBytes, true⟩]) (foreground : cpu.foreground = true)
    {size} (some_ : size ≠ 0) :
    (size ≤ stagingRoom ∧ ∃ img next, heapAlloc cpu size 8 true heap = (.ok, some img, next)) ∨
      (stagingRoom < size ∧ ∃ result, result ≠ .ok ∧ heapAlloc cpu size 8 true heap = (result, none, heap)) := by
  have outcome := empty.heapAlloc_allocates cpu size 8 true
  generalize heapAlloc cpu size 8 true heap = call at outcome
  cases outcome with
  | misuse result failed reason => simp [foreground, some_, show validAlign 8 = true by decide] at reason
  | exhausted result failed missing =>
    have narrow := missing heapBase ⟨arenaBytes, true⟩ (by simp [Segments.place]) rfl
    rw [hosts_iff (by decide), show leadGap 8 heapBase = 0 by decide] at narrow
    refine .inr ⟨?_, result, failed, rfl⟩
    unfold neededBytes stagingRoom arenaBytes headerBytes footerBytes granule at *
    dsimp only at narrow
    omega
  | granted next cut chosen used sound occupied fresh room aligned =>
    refine .inl ⟨?_, _, next, rfl⟩
    have bounds := Segments.place_bounds ((occupied chosen used).mpr (.inr ⟨rfl, rfl⟩))
    rw [sound.whole] at bounds
    unfold neededBytes stagingRoom arenaBytes headerBytes footerBytes granule at *
    dsimp only at bounds
    omega

/-- Staging runs out of memory exactly on the files that open and exceed the room. -/
lemma stageImage_noMem_iff (mounted : fs.Mounted) (empty : Heap.Sound heap [⟨Heap.arenaBytes, true⟩])
    (foreground : cpu.foreground = true)
    (names : fs.files.Names path name bytes) (least : rnyxHeaderLen ≤ bytes.length)
    (most : bytes.length ≤ imgStageMax) :
    (∃ after left, stageImage drive cpu path fs heap = .ok (.error .noMem, after, left)) ↔
      (fs.files.openFile (some path)).1 = .ok ∧ stagingRoom < bytes.length := by
  rcases stated : fsStat fs (some path) with ⟨code, info, seen⟩
  have kept := (@fsStat_effect .working _ _ _ _ mounted _ stated).mounted
  obtain ⟨agree, same⟩ := fsStat_refines mounted stated
  rw [names.stat] at agree
  simp only [Prod.mk.injEq] at agree
  obtain ⟨rfl, shown⟩ := agree
  obtain ⟨⟨type, size, blocks⟩, rfl, same⟩ := map_eq_some_iff.mp shown.symm
  simp only [Stat.mk.injEq] at same
  obtain ⟨rfl, rfl, -⟩ := same
  rcases opened : fsOpen seen (some path) with ⟨result, handle, ready⟩
  have agree := fsOpen_refines kept opened
  rw [‹seen.files = fs.files›] at agree
  have bounds : ¬(bytes.length < rnyxHeaderLen ∨ bytes.length > imgStageMax) := by omega
  simp only [stageImage, stated, opened, agree, ne_eq, not_true, if_false, bounds]
  simp only [Files.openFile, names.1] at agree
  split at agree <;> simp only [Prod.mk.injEq] at agree <;> obtain ⟨rfl, rfl, -⟩ := agree
  · simp
  · have filled : bytes.length ≠ 0 := by
      unfold rnyxHeaderLen at least
      omega
    rcases empty.heapAlloc_empty foreground filled with ⟨small, img, next, taken⟩ | ⟨large, result, failed, taken⟩
    · simp only [taken, Nat.not_lt_of_le small, and_false, iff_false]
      rintro ⟨after, left, ran⟩
      -- Past the allocation every refusal is an I/O error.
      split at ran
      · split at ran <;> cases ran
      split at ran
      · cases ran
      · split at ran <;> cases ran
    · simp [taken, large]

lemma rnyxValidate_congr {img other} (same : ∀ i, i < rnyxHeaderLen → img i = other i) (len : Nat) :
    rnyxValidate img len = rnyxValidate other len := by
  have field (offset size : Nat) (inside : offset + size ≤ rnyxHeaderLen) :
      (img.shift offset).littleEndian size = (other.shift offset).littleEndian size :=
    littleEndian_congr fun i low => same _ (by omega)
  simp only [rnyxValidate, field 0 4 (by decide), field 4 2 (by decide), field 6 2 (by decide),
    field 8 2 (by decide), field 10 2 (by decide),
    field 12 4 (by decide), field 16 4 (by decide), field 20 4 (by decide), field 24 4 (by decide)]

lemma rnyxValidate_least {img len layout} (valid : rnyxValidate img len = .ok layout) : rnyxHeaderLen ≤ len := by
  by_contra short
  simp [rnyxValidate, not_le.mp short] at valid

/-- With an empty heap a request for a valid image, which the admission does not refuse for
memory, fails for memory exactly if the file opens and is larger than the room. -/
theorem sysSpawn_stages_iff {k : Kernel} {s : Space} {specPtr handleOut : Nat}
    {spawnImage : SpawnRequest → List UInt8 → Except SysResult Nat}
    {request : SpawnRequest} {layout : RnyxLayout} (mounted : k.fs.Mounted)
    (empty : Heap.Sound k.heap [⟨Heap.arenaBytes, true⟩])
    (foreground : k.m.cpu.foreground = true) (asked : spawnRequest k.m s specPtr handleOut = .ok request)
    (names : k.fs.files.Names request.path name bytes) (most : bytes.length ≤ imgStageMax)
    (valid : rnyxValidate (ofList bytes) bytes.length = .ok layout)
    (frames : ∀ image, spawnImage request image ≠ .error .noMem) :
    (∀ after, sysSpawn drive spawnImage k s specPtr handleOut ≠ .ok (.noMem, after)) ↔
      (bytes.length ≤ stagingRoom ∨ (k.fs.files.openFile (some request.path)).1 ≠ .ok) := by
  have staging := @stageImage_noMem_iff k.m.cpu drive _ _ _ _ _ mounted empty foreground names
    (rnyxValidate_least valid) most
  rw [← not_exists, ← not_iff_not, not_not, not_or, not_le, not_not, and_comm, ← staging]
  simp only [sysSpawn, foreground, Bool.not_true, Bool.false_eq_true, if_false, asked]
  constructor
  · rintro ⟨after, ran⟩
    split at ran
    · cases ran
    next rc after left staged =>
      simp only [Except.ok.injEq, Prod.mk.injEq] at ran
      obtain ⟨rfl, -⟩ := ran
      exact ⟨after, left, staged⟩
    next image img after left staged =>
    split at ran
    · split at ran
      next refused =>
        simp only [Except.ok.injEq, Prod.mk.injEq] at ran
        obtain ⟨rfl, -⟩ := ran
        exact absurd refused (frames _)
      · split_ifs at ran
        cases ran
    · cases ran
  · rintro ⟨after, left, staged⟩
    exact ⟨⟨k.m, after, left⟩, by simp only [staged]⟩

end

/-! A version 2 image of 65500 code bytes passes the format and does not fit. -/

def imageDevice : Device :=
  { present := true, writable := false, blockCount := 131, log := [], addressable := by decide
    disk := ((ofList (magic ++ [1, 0, 0, 0] ++ [0, 2, 0, 0] ++ word 131 ++ word 1 ++
      word 1 ++ word 2 ++ word 129)).overlay 512 64
      (ofList ([0x66] ++ List.replicate 31 0 ++ word 1 ++ word 2 ++ word 128 ++
        [0xf8, 0xff, 0, 0, 0, 0, 0, 0]))).overlay 1024 28
      (ofList [0x52, 0x59, 0x4e, 0x58, 2, 0, 1, 0, 28, 0, 0, 0, 0, 0, 0, 0, 0xdc, 0xff, 0, 0, 0, 0, 0, 0, 0, 0, 0, 0]) }
where
  word (value : UInt8) : List UInt8 := [value, 0, 0, 0, 0, 0, 0, 0]

def freshHeap : Heap.State :=
  ⟨Heap.publish (fun _ => 0) Heap.heapBase Heap.arenaBytes true, Heap.arenaBytes, 0, 0, 1, true⟩

lemma freshHeap_sound : Heap.Sound freshHeap [⟨Heap.arenaBytes, true⟩] :=
  ⟨rfl, rfl, Heap.tiled_singleton (Heap.publish_marked (by decide) (by decide) (by decide)), rfl,
    List.isChain_singleton _, rfl, rfl, rfl⟩

def spawnPath : SpawnRequest := ⟨ofList [0x2f, 0x66], [], stdinClosed⟩

lemma spawnPath_asked : spawnRequest twoPage twoPageSpace 0x401800 0x401ff8 = .ok spawnPath := rfl

lemma imageDevice_file : ∃ fs bytes, fsMount .working (.boot fun _ => imageDevice) 0 = some (.ok, fs) ∧
    fs.files.Names spawnPath.path [0x66] bytes ∧ bytes.length = 65528 ∧ rnyxValidate
    (ofList bytes) bytes.length = .ok ⟨28, 65500, 65528, 0, 0⟩ ∧
    ∃ after, sysSpawn .working (fun _ _ => .ok 1) ⟨twoPage, fs, freshHeap⟩ twoPageSpace 0x401800 0x401ff8 = .ok
    (.noMem, after) := by
  have ran : (fsMount .working (.boot fun _ => imageDevice) 0).any (fun p => decide (p.1 = .ok ∧
      (p.2.files.fileKey (some spawnPath.path)).toOption = some [0x66] ∧
      ((tableOf p.2.dir).lookup p.2.dirSlots [0x66]).map (fun r => (r.type, r.first, r.length)) =
        some (typeFile, 2, 65528) ∧
      (rnyxValidate ((p.2.blk.devices p.2.dev).disk.shift 1024) 65528).toOption = some ⟨28, 65500, 65528, 0, 0⟩ ∧
      (sysSpawn .working (fun _ _ => .ok 1) ⟨twoPage, p.2, freshHeap⟩ twoPageSpace 0x401800 0x401ff8).toOption.map
        (·.1) = some .noMem)) = true := by
    decide +kernel
  obtain ⟨⟨code, fs⟩, mounted, facts⟩ := (any_eq_true _ _).mp ran
  obtain ⟨rfl, key, entry, valid, spawned⟩ := of_decide_eq_true facts
  obtain ⟨record, found, shape⟩ := map_eq_some_iff.mp entry
  simp only [Prod.mk.injEq] at shape
  obtain ⟨type, first, length⟩ := shape
  have node : fs.files.nodes [0x66] = some (.file ((fs.blk.devices fs.dev).disk.slice 1024 65528)) := by
    simp [Volume.files, Table.nodes, found, Record.node, type, first, length, show ¬typeFile = typeDir by decide]
  refine ⟨fs, _, mounted, ⟨toOption_ok key, node⟩, slice_length _ _ _, ?_, ?_⟩
  · rw [slice_length, ← toOption_ok valid]
    apply rnyxValidate_congr
    intro i low
    simp [ofList, List.getD, show i < 65528 by unfold rnyxHeaderLen at low; omega]
  · obtain ⟨⟨rc, after⟩, ran, rfl⟩ := map_eq_some_iff.mp spawned
    exact ⟨after, toOption_ok ran⟩
where
  toOption_ok {ε α : Type} {x : Except ε α} {a : α} (known : x.toOption = some a) : x = .ok a := by
    cases x <;> cases known
    rfl

/-- The image is legal, and the call answers that memory is short. -/
theorem sysSpawn_no_room : ∃ fs bytes layout after, fsMount .working (.boot fun _ => imageDevice) 0 = some (.ok, fs) ∧
    fs.files.Names spawnPath.path [0x66] bytes ∧ bytes.length ≤ imgStageMax ∧ rnyxValidate
    (ofList bytes) bytes.length = .ok layout ∧
    sysSpawn .working (fun _ _ => .ok 1) ⟨twoPage, fs, freshHeap⟩ twoPageSpace 0x401800 0x401ff8 = .ok
    (.noMem, after) := by
  obtain ⟨fs, bytes, mounted, names, length, valid, after, ran⟩ := imageDevice_file
  exact ⟨fs, bytes, _, after, mounted, names, by rw [length]; decide, valid, ran⟩

theorem sysSpawn_stages_iff_image : ∃ fs bytes, fsMount .working (.boot fun _ => imageDevice) 0 = some (.ok, fs) ∧
    fs.files.Names spawnPath.path [0x66] bytes ∧
    ¬(bytes.length ≤ stagingRoom ∨ (fs.files.openFile (some spawnPath.path)).1 ≠ .ok) := by
  obtain ⟨fs, bytes, mounted, names, length, valid, after, ran⟩ := imageDevice_file
  refine ⟨fs, bytes, mounted, names, fun fits => ?_⟩
  have iff := @sysSpawn_stages_iff .working [0x66] bytes ⟨twoPage, fs, freshHeap⟩ twoPageSpace 0x401800 0x401ff8
    (fun _ _ => .ok 1) spawnPath _
    (fsMount_ok mounted).2.1.toMounted freshHeap_sound rfl spawnPath_asked names (by rw [length]; decide) valid nofun
  exact iff.mpr fits after ran

end Rynor
