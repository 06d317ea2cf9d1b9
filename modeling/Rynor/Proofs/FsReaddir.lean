import Rynor.Proofs.FsHandles

/-! Directory enumeration: `fs_readdir` yields the live slots in order, and the names it yields are the paths that
`fs_stat` resolves. -/

namespace Rynor.Fs
open ByteMemory Blk List
variable {fs : Volume} {slot : Nat} {path : ByteMemory}

def Volume.liveSlots (fs : Volume) : List Nat :=
  (List.range fs.dirSlots).filter fun slot => !entryFree (entryAt fs.dir slot)

/-- What `fs_readdir` makes of a live slot. -/
def Volume.dirent (fs : Volume) (slot : Nat) : Dirent :=
  ⟨slash :: entryName (entryAt fs.dir slot), entryType (entryAt fs.dir slot), entryLength (entryAt fs.dir slot)⟩

lemma readdirScan_eq (dir : ByteMemory) (slots : List Nat) (ordinal : Nat) :
    readdirScan dir slots ordinal = (slots.filter fun slot => !entryFree (entryAt dir slot))[ordinal]? := by
  induction slots generalizing ordinal with
  | nil => rfl
  | cons slot slots ih =>
    rw [readdirScan.eq_def, filter_cons]
    dsimp only
    cases entryFree (entryAt dir slot) with
    | true => exact ih ordinal
    | false =>
      cases ordinal with
      | zero => rfl
      | succ ordinal => exact ih ordinal

lemma mem_liveSlots : slot ∈ fs.liveSlots ↔ slot < fs.dirSlots ∧ ∃ record, tableOf fs.dir slot = some record := by
  rw [Volume.liveSlots, mem_filter, mem_range, tableOf, ← Option.isSome_iff_exists, Option.isSome_iff_ne_none, ne_eq,
    decodeEntry_none,
    Bool.not_eq_true, Bool.not_eq_true']

section
variable (mounted : fs.Mounted)
include mounted

lemma Volume.Mounted.named (live : slot ∈ fs.liveSlots) :
    Named (entryAt fs.dir slot) (entryName (entryAt fs.dir slot)).length := by
  obtain ⟨inside, record, held⟩ := mem_liveSlots.mp live
  have name := (decodeEntry_some held).2.1
  have nonempty : nameLen (entryAt fs.dir slot) ≠ 0 := by
    rw [← entryName_length, name]
    exact fun empty => (mounted.table.records slot record inside held).named (eq_nil_of_length_eq_zero empty)
  rw [entryName_length]
  exact nameLen_named nonempty

lemma fsReaddir_eq (ordinal : Nat) : fsReaddir fs ordinal = match fs.liveSlots[ordinal]? with
      | some slot => (.ok, some (fs.dirent slot), fs)
      | none => (.endOfDir, none, fs) := by
  rw [fsReaddir, if_neg (by rw [mounted.on]; simp), readdirScan_eq, ← Volume.liveSlots]
  cases found : fs.liveSlots[ordinal]? with
  | none => rfl
  | some slot =>
    have named := mounted.named (mem_of_getElem? found)
    rw [entryName_length] at named
    exact if_neg (ne_of_gt named.positive)

omit mounted in
lemma Table.Valid.walk {table : Table} {slots : Nat} {geometry : Geometry} {parents : List (List UInt8)}
    (valid : table.Valid slots geometry)
    (above : ∀ parent ∈ parents, ∃ slot holder, slot < slots ∧ table slot = some holder ∧ holder.name = parent ∧
      holder.type = typeDir) :
    table.walk slots parents = none := by
  induction parents with
  | nil => rfl
  | cons parent parents ih =>
    obtain ⟨slot, holder, inside, held, name, folder⟩ := above parent mem_cons_self
    have found : table.lookup slots parent = some holder := by
      rw [Table.lookup, valid.find_iff.mpr ⟨inside, holder, held, name⟩]
      exact held
    rw [Table.walk, found]
    exact (if_pos folder).trans (ih fun other member => above other (mem_cons_of_mem _ member))

/-- The text of a path: the bytes before the terminator. -/
def Spells (path : ByteMemory) (text : List UInt8) : Prop := path.slice 0 text.length = text ∧ path text.length = 0

section
variable (live : slot ∈ fs.liveSlots) (spelled : Spells path (fs.dirent slot).name)
include live spelled

/-- The name of a live slot is a path that is resolved to the slot. -/
lemma resolve_dirent : ∃ len, PathShape path len ∧ resolve fs.dir fs.dirSlots path len = .slot slot := by
  obtain ⟨inside, record, held⟩ := mem_liveSlots.mp live
  have name := (decodeEntry_some held).2.1
  have valid := mounted.table.records slot record inside held
  have named := mounted.named live
  obtain ⟨bytes, ended⟩ := spelled
  simp only [Volume.dirent, length_cons] at bytes ended
  rw [slice_succ, List.cons.injEq] at bytes
  have key : pathKey path ((entryName (entryAt fs.dir slot)).length + 1) = record.name := bytes.2.trans name
  have shape : PathShape path ((entryName (entryAt fs.dir slot)).length + 1) := by
    refine ⟨Nat.succ_pos _, Nat.succ_le_succ named.bounded, ended, bytes.1, fun index low high => ?_, .inr ?_⟩
    · obtain ⟨offset, rfl⟩ := Nat.exists_eq_add_of_le low
      have same := congrArg (fun bytes => bytes[offset]?) bytes.2
      simp only [entryName, slice_length] at same high
      rw [getElem?_eq_getElem (by simp; omega), getElem?_eq_getElem (by simp; omega), slice_getElem, slice_getElem,
        Option.some.injEq] at same
      rw [same, zero_add]
      exact named.printable offset (by rw [entryName_length]; omega)
    · rw [← pathKey, key]
      exact valid.components
  have long : (entryName (entryAt fs.dir slot)).length + 1 ≠ 1 := by
    have := named.positive
    omega
  refine ⟨_, shape, ?_⟩
  rw [resolve_eq shape, if_neg long, key, mounted.table.walk (mounted.table.parents slot record inside held),
    mounted.table.find_iff.mpr ⟨inside, record, held, rfl⟩]

lemma stat_dirent :
    ∃ blocks, fsStat fs (some path) = (.ok, some ⟨(fs.dirent slot).type, (fs.dirent slot).size, blocks⟩, fs) := by
  obtain ⟨len, shape, resolved⟩ := resolve_dirent mounted live spelled
  have checked : checkPath fs (some path) = .ok (path, len) := by
    have valid := pathOk_iff.mpr shape
    simp only [checkPath, mounted.on, valid, Bool.true_eq_false, if_false]
  rw [fsStat, checked]
  dsimp only
  rw [resolved]
  exact ⟨_, rfl⟩

end

omit mounted in
/-- A path that is resolved spells the root or the name of a live slot. -/
lemma stat_listed {stat after} (called : fsStat fs (some path) = (.ok, some stat, after)) :
    Spells path [slash] ∨ ∃ slot ∈ fs.liveSlots, Spells path (fs.dirent slot).name := by
  rw [fsStat] at called
  split at called
  · exact absurd (congrArg (fun reply => reply.2.1) called) (by simp)
  rename_i found len accepted
  obtain ⟨same, shape⟩ := checkPath_ok accepted
  cases same
  rw [resolve_eq shape] at called
  by_cases root : len = 1
  · subst root
    exact .inl ⟨by rw [length_singleton, slice_succ, shape.leading]; rfl, shape.terminated⟩
  rw [if_neg root] at called
  split at called
  · exact absurd (congrArg (fun reply => reply.2.1) called) (by simp)
  next resolved => split at resolved <;> cases resolved
  next slot resolved =>
  split at resolved <;> cases resolved
  rename_i hit
  obtain ⟨inside, _, record, held, name⟩ := Table.find_some hit
  have size : len = (fs.dirent slot).name.length := by
    have := shape.positive
    rw [Volume.dirent, length_cons, (decodeEntry_some held).2.1, name, pathKey, slice_length]
    omega
  refine .inr ⟨slot, mem_liveSlots.mpr ⟨inside, record, held⟩, ?_, size ▸ shape.terminated⟩
  rw [Volume.dirent, length_cons, slice_succ, shape.leading, (decodeEntry_some held).2.1, name, pathKey, slice_length]

end

/-- On a mounted filesystem the ordinals below some count yield live entries and all others the end. Every live entry
is yielded for one ordinal. The names it yields are paths that `fs_stat` resolves to the same type and length, and
every other path that it resolves, the root apart, is among them. -/
theorem readdir_enumerates {drive : Drive} {devices : Nat → Device} {ops : List VolumeOp}
    {replies : List (Option Reply)}
    (ran : volumeRun drive (.boot devices) ops = some (replies, fs)) (on : fs.isMounted = true) :
    (∃ count, (∀ ordinal, ordinal < count → ∃ slot ∈ fs.liveSlots, fsReaddir fs ordinal =
      (.ok, some (fs.dirent slot), fs)) ∧
      ∀ ordinal, count ≤ ordinal → fsReaddir fs ordinal = (.endOfDir, none, fs)) ∧
    (∀ slot ∈ fs.liveSlots, ∃! ordinal, fsReaddir fs ordinal = (.ok, some (fs.dirent slot), fs)) ∧
    (∀ ordinal entry path, (fsReaddir fs ordinal).2.1 = some entry → Spells path entry.name →
      ∃ blocks, fsStat fs (some path) = (.ok, some ⟨entry.type, entry.size, blocks⟩, fs)) ∧
    ∀ path stat after, fsStat fs (some path) = (.ok, some stat, after) → ¬ Spells path [slash] →
      ∃ ordinal entry, (fsReaddir fs ordinal).2.1 = some entry ∧ Spells path entry.name := by
  have mounted := volumeRun_mounted ran on
  have yields {ordinal slot : Nat} (found : fs.liveSlots[ordinal]? = some slot) :
      fsReaddir fs ordinal = (.ok, some (fs.dirent slot), fs) := by rw [fsReaddir_eq mounted, found]
  have yielded {ordinal : Nat} {entry : Dirent} (called : (fsReaddir fs ordinal).2.1 = some entry) :
      ∃ slot, fs.liveSlots[ordinal]? = some slot ∧ fs.dirent slot = entry := by
    rw [fsReaddir_eq mounted] at called
    cases found : fs.liveSlots[ordinal]? with
    | none => rw [found] at called; cases called
    | some slot => rw [found] at called; exact ⟨slot, rfl, Option.some.inj called⟩
  have distinct : fs.liveSlots.Nodup := nodup_range.filter _
  refine ⟨⟨fs.liveSlots.length, fun ordinal inside => ?_, fun ordinal past => ?_⟩, fun slot live => ?_, ?_, ?_⟩
  · exact ⟨_, getElem_mem inside, yields (getElem?_eq_getElem inside)⟩
  · rw [fsReaddir_eq mounted, getElem?_eq_none past]
  · obtain ⟨ordinal, found⟩ := mem_iff_getElem?.mp live
    refine ⟨ordinal, yields found, fun other called => ?_⟩
    obtain ⟨holder, listed, same⟩ := yielded (congrArg (fun reply => reply.2.1) called)
    obtain ⟨inside, record, held⟩ := mem_liveSlots.mp live
    obtain ⟨holderInside, owner, owned⟩ := mem_liveSlots.mp (mem_of_getElem? listed)
    -- two live slots with one name are one slot
    have names : owner.name = record.name := by
      have equal := congrArg Dirent.name same
      simp only [Volume.dirent, (decodeEntry_some held).2.1, (decodeEntry_some owned).2.1, List.cons.injEq,
        true_and] at equal
      exact equal
    have equal := mounted.table.unique holder slot owner record holderInside inside owned held names
    subst equal
    exact (getElem?_inj (List.getElem?_eq_some_iff.mp listed).1 distinct).mp (listed.trans found.symm)
  · intro ordinal entry path called spelled
    obtain ⟨slot, found, rfl⟩ := yielded called
    exact stat_dirent mounted (mem_of_getElem? found) spelled
  · intro path stat after called below
    obtain ⟨slot, live, spelled⟩ := (stat_listed called).resolve_left below
    obtain ⟨ordinal, found⟩ := mem_iff_getElem?.mp live
    exact ⟨ordinal, fs.dirent slot, by rw [yields found], spelled⟩

/-- Slots 1, 2 and 4 are taken, the first by a directory: three ordinals yield them, and `/d/b` is stated as it is
listed. -/
theorem readdir_enumerates_sparse :
    ∃ replies fs, volumeRun .working (.boot fun _ => sampleDevice) [.mount 0] = some (replies, fs) ∧
    fs.isMounted = true ∧
      fs.liveSlots = [1, 2, 4] ∧ fs.dirent 1 = ⟨[slash, 0x64], typeDir, 0⟩ ∧
      (∀ slot ∈ fs.liveSlots, ∃! ordinal, fsReaddir fs ordinal = (.ok, some (fs.dirent slot), fs)) ∧
      (∃ blocks, fsStat fs (some (ofList [slash, 0x64, slash, 0x62])) = (.ok, some ⟨typeFile, 3, blocks⟩, fs)) ∧
      ∀ path stat after, fsStat fs (some path) = (.ok, some stat, after) → ¬ Spells path [slash] →
        ∃ ordinal entry, (fsReaddir fs ordinal).2.1 = some entry ∧ Spells path entry.name := by
  have steps : ((volumeRun .working (.boot fun _ => sampleDevice) [.mount 0]).map
      fun (_, fs) => (fs.isMounted, fs.liveSlots, fs.dirent 1, (fsReaddir fs 1).2.1)) =
      some (true, [1, 2, 4], ⟨[slash, 0x64], typeDir, 0⟩, some ⟨[slash, 0x64, slash, 0x62], typeFile, 3⟩) := by
        decide +kernel
  obtain ⟨⟨replies, fs⟩, ran, same⟩ := Option.map_eq_some_iff.mp steps
  simp only [Prod.mk.injEq] at same
  obtain ⟨on, live, folder, second⟩ := same
  obtain ⟨_, once, stated, listed⟩ := readdir_enumerates ran on
  exact ⟨replies, fs, ran, on, live, folder, once, stated 1 _ _ second ⟨rfl, rfl⟩, listed⟩

end Rynor.Fs
