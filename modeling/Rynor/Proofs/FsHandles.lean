import Rynor.Proofs.FsRefinement

/-! Handles over whole runs, mounts and unmounts included. A handle packs a slot and the
slot's generation. Generations have 32 bits and the handle keeps 29 of them, so a handle is
good for as long as no generation outgrows what the handle can hold. -/

namespace Rynor.Fs
open ByteMemory Blk List Bool
variable {fs : Volume} {path : Option ByteMemory} {entry : Nat}

/-! Which calls move handles. -/

structure SameHandles (fs after : Volume) : Prop where
  mounted : after.isMounted = fs.isMounted
  handles : after.handles = fs.handles
  generations : after.generations = fs.generations

section
variable {drive : Drive} {fs after : Volume}
variable {result : FsResult} {path : Option ByteMemory} {first offset address len entry stop handle : Nat}
  {source : ByteMemory} {answer : WriteReply}

lemma dirWriteSlot_handles {slot entry} (called : dirWriteSlot drive fs slot entry = (result, after)) :
    SameHandles fs after := by
  simp only [dirWriteSlot] at called
  repeat' split at called
  all_goals
    cases called
    exact ⟨rfl, rfl, rfl⟩

lemma fsCreate_handles (called : fsCreate drive fs path = (result, after)) : SameHandles fs after := by
  simp only [fsCreate] at called
  repeat' split at called
  all_goals first
    | exact dirWriteSlot_handles called
    | cases called; exact ⟨rfl, rfl, rfl⟩

lemma writeWithin_handles (called : writeWithin drive fs first offset address source len = (answer, after)) :
    SameHandles fs after := by
  simp only [writeWithin] at called
  split at called
  all_goals
    cases called
    exact ⟨rfl, rfl, rfl⟩

lemma writeGrow_handles (called : writeGrow drive fs entry first offset address source len stop = (answer, after)) :
    SameHandles fs after := by
  unfold writeGrow at called
  simp only at called
  split at called
  · rcases written : dirWriteSlot drive { fs with blk := (writeDataBlocks drive fs.blk fs.dev first offset address len source).blk } entry
        (wr64le (entryAt fs.dir entry) 56 stop) with ⟨code, last⟩
    have kept := dirWriteSlot_handles written
    rw [written] at called
    cases called
    exact ⟨kept.mounted, kept.handles, kept.generations⟩
  · cases called
    exact ⟨rfl, rfl, rfl⟩

lemma writeRelocate_handles {count}
    (called : writeRelocate drive fs entry count first offset source len stop = some (answer, after)) :
    SameHandles fs after := by
  unfold writeRelocate at called
  simp only at called
  split at called
  · cases called
    exact ⟨rfl, rfl, rfl⟩
  split at called
  · cases called
  · cases called
    exact ⟨rfl, rfl, rfl⟩
  split at called
  · cases called
    exact ⟨rfl, rfl, rfl⟩
  split at called
  · cases called
    exact ⟨rfl, rfl, rfl⟩
  split at called
  all_goals
    rename_i switched
    cases called
    have kept := dirWriteSlot_handles switched
    exact ⟨kept.mounted, kept.handles, kept.generations⟩

lemma fsWrite_handles (called : fsWrite drive fs handle offset address source len = some (answer, after)) :
    SameHandles fs after := by
  simp only [fsWrite] at called
  repeat' split at called
  all_goals first
    | exact writeWithin_handles (Option.some.inj called)
    | exact writeGrow_handles (Option.some.inj called)
    | exact writeRelocate_handles called
    | cases called; exact ⟨rfl, rfl, rfl⟩

lemma fsRead_handles {answer} (called : fsRead drive fs handle offset address len = (answer, after)) :
    SameHandles fs after := by
  unfold fsRead at called
  simp only at called
  repeat' split at called
  all_goals
    cases called
    exact ⟨rfl, rfl, rfl⟩

lemma fsStat_handles (called : fsStat fs path = (result, info, after)) : SameHandles fs after := by
  simp only [fsStat] at called
  split at called
  · cases called
    exact ⟨rfl, rfl, rfl⟩
  · split at called <;> cases called <;> exact ⟨rfl, rfl, rfl⟩

lemma fsOpen_handles {handle} (called : fsOpen fs path = (result, handle, after)) :
    (handle = none ∧ SameHandles fs after) ∨ ∃ entry slot, resolveFile fs path = .ok entry ∧
    freeHandle fs = some slot ∧ result = .ok ∧
        handle = some (packHandle slot (bump (fs.generations slot))) ∧ after = { fs with
          generations := fun other => if other = slot then bump (fs.generations slot) else fs.generations other,
          handles := fun other => if other = slot then ⟨true, entry⟩ else fs.handles other } := by
  simp only [fsOpen] at called
  split at called
  · cases called
    exact .inl ⟨rfl, rfl, rfl, rfl⟩
  rename_i entry resolved
  split at called
  · cases called
    exact .inl ⟨rfl, rfl, rfl, rfl⟩
  rename_i slot vacant
  cases called
  exact .inr ⟨entry, slot, resolved, vacant, rfl, rfl, rfl⟩

lemma fsClose_handles (called : fsClose fs handle = (result, after)) :
    (result = .badHandle ∧ decodeHandle fs handle = none ∧ SameHandles fs after) ∨ ∃ slot, decodeHandle fs handle =
    some slot ∧ result = .ok ∧
        after = { fs with handles := fun other => if other = slot then { fs.handles slot with inUse := false } else fs.handles other } := by
  simp only [fsClose] at called
  split at called
  next missing =>
    cases called
    exact .inl ⟨rfl, missing, rfl, rfl, rfl⟩
  rename_i slot decoded
  cases called
  exact .inr ⟨slot, decoded, rfl, rfl⟩

lemma fsUnlink_handles (called : fsUnlink drive fs path = (result, after)) :
    (result ≠ .ok ∧ SameHandles fs after) ∨ ∃ entry, resolveFile fs path = .ok entry ∧ result = .ok ∧
    after.isMounted = fs.isMounted ∧
        after.handles = closeEntry fs.handles entry ∧ after.generations = fs.generations := by
  simp only [fsUnlink] at called
  split at called
  next error refused =>
    cases called
    rcases resolveFile_spec refused with ⟨_, same, wrong⟩ | ⟨_, _, same, _⟩
    · cases same
      exact .inl ⟨wrong, rfl, rfl, rfl⟩
    · cases same
  rename_i entry resolved
  rcases cleared : dirWriteSlot drive fs entry fun _ => 0 with ⟨code, last⟩
  have kept := dirWriteSlot_handles cleared
  rw [cleared] at called
  split at called
  next same =>
    cases same
    cases called
    exact .inr ⟨entry, resolved, rfl, kept.mounted, by rw [kept.handles], kept.generations⟩
  rename_i other
  cases called
  exact .inl ⟨fun fine => other _ (by rw [fine]), kept⟩

/-- A mount closes every handle; one that succeeds bumps every generation. -/
lemma fsMount_handles (called : fsMount drive fs dev = some (result, after)) :
    (∀ slot, (after.handles slot).inUse = false) ∧ ((after.isMounted = false ∧ after.generations = fs.generations) ∨
        (after.Mounted ∧ result = .ok ∧ after.generations = fun slot => bump (fs.generations slot))) := by
  by_cases fine : result = .ok
  · subst fine
    obtain ⟨_, synced, _, _, _, handles, generations⟩ := fsMount_ok called
    rw [handles]
    exact ⟨fun _ => rfl, .inr ⟨synced.toMounted, rfl, generations⟩⟩
  simp only [fsMount] at called
  split at called
  · cases called
  rename_i cleared revoked
  obtain ⟨_, rest⟩ := revoke_devices revoked
  rw [rest] at called
  split at called
  · cases called
    exact ⟨fun _ => rfl, .inl ⟨rfl, rfl⟩⟩
  simp only [Option.some.injEq, mountDevice] at called
  repeat' split at called
  all_goals
    cases called
    first
      | exact absurd rfl fine
      | exact ⟨fun _ => rfl, .inl ⟨rfl, rfl⟩⟩

lemma fsUnmount_handles (called : fsUnmount fs = some after) :
    (∀ slot, (after.handles slot).inUse = false) ∧ after.isMounted = false ∧ after.generations = fs.generations := by
  simp only [fsUnmount] at called
  split at called
  · cases called
  rename_i cleared revoked
  obtain ⟨_, rest⟩ := revoke_devices revoked
  cases called
  rw [rest]
  exact ⟨fun _ => rfl, rfl, rfl⟩

end

/-! The life of a handle. -/

/-- The call ends a handle to the file `key`: it closes the handle, unlinks the file, or
takes the filesystem away. -/
def ends (fs : Volume) (handle : Nat) (key : List UInt8) : VolumeOp → Option Reply → Bool
  | .mount _, _ => true
  | .unmount, _ => true
  | .file (.close other), some reply => decide (other = handle ∧ reply.result = .ok)
  | .file (.unlink path), some reply => decide (fs.names (.unlink path) = some key ∧ reply.result = .ok)
  | _, _ => false

/-- The call keeps the counters in range: an open finds a generation whose successor fits the
29 bits of a handle, a mount none that would wrap. -/
def paced (fs : Volume) : VolumeOp → Option Reply → Bool
  | .file (.openFile _), some (.opened .ok _) =>
    (freeHandle fs).all fun slot => decide (fs.generations slot + 1 < 2 ^ 29)
  | .mount _, some (.status .ok) => (List.range maxOpen).all fun slot => decide (fs.generations slot + 1 < u32)
  | _, _ => true

def pacedRun (drive : Drive) : Volume → List VolumeOp → Bool
  | _, [] => true
  | fs, op :: ops =>
    match volumeStep drive fs op with
    | none => true
    | some (reply, next) => paced fs op reply && pacedRun drive next ops

def endedRun (drive : Drive) (handle : Nat) (key : List UInt8) : Volume → List VolumeOp → Bool
  | _, [] => false
  | fs, op :: ops =>
    match volumeStep drive fs op with
    | none => false
    | some (reply, next) => ends fs handle key op reply || endedRun drive handle key next ops

/-- The handle with this slot and generation is open on the file `key`. -/
structure Live (fs : Volume) (slot generation : Nat) (key : List UInt8) : Prop where
  mounted : fs.Mounted
  used : (fs.handles slot).inUse = true
  current : fs.generations slot = generation
  names : ∃ record, tableOf fs.dir (fs.handles slot).entry = some record ∧ record.name = key

/-- The generation has passed, or nobody has the slot open. -/
def Dead (fs : Volume) (slot generation : Nat) : Prop :=
  generation < fs.generations slot ∨ (fs.generations slot = generation ∧ (fs.handles slot).inUse = false)

/-- What a call does to the handles. -/
inductive HandleMove (fs after : Volume) : VolumeOp → Option Reply → Prop where
  | same {op : Op} {reply : Reply} (kept : SameHandles fs after) (idle : ∀ handle key, ends fs handle key (.file op)
    (some reply) = false) :
      HandleMove fs after (.file op) (some reply)
  | opened {path : Option ByteMemory} {entry slot : Nat} (resolved : resolveFile fs path = .ok entry)
    (vacant : freeHandle fs = some slot)
      (moved : after = { fs with
        generations := fun other => if other = slot then bump (fs.generations slot) else fs.generations other,
        handles := fun other => if other = slot then ⟨true, entry⟩ else fs.handles other }) :
      HandleMove fs after (.file (.openFile path))
        (some (.opened .ok (some (packHandle slot (bump (fs.generations slot))))))
  | closed {handle slot : Nat} (decoded : decodeHandle fs handle = some slot) (moved : after = { fs with
        handles := fun other => if other = slot then { fs.handles slot with inUse := false } else fs.handles other }) :
      HandleMove fs after (.file (.close handle)) (some (.status .ok))
  | unlinked {path : Option ByteMemory} {entry : Nat} (resolved : resolveFile fs path = .ok entry)
    (on : after.isMounted = fs.isMounted)
      (handles : after.handles = closeEntry fs.handles entry) (generations : after.generations = fs.generations) :
      HandleMove fs after (.file (.unlink path)) (some (.status .ok))
  | withdrawn {op : VolumeOp} {reply : Option Reply} (off : after.isMounted = false)
    (unused : ∀ slot, (after.handles slot).inUse = false)
      (generations : after.generations = fs.generations) (final : ∀ handle key, ends fs handle key op reply = true) :
      HandleMove fs after op reply
  | mounted {dev : Nat} (mounted : after.Mounted) (unused : ∀ slot, (after.handles slot).inUse = false)
      (generations : after.generations = fun slot => bump (fs.generations slot)) :
        HandleMove fs after (.mount dev) (some (.status .ok))

section
variable {drive : Drive} {fs after : Volume} {slot generation handle : Nat} {key : List UInt8}
variable {op : VolumeOp} {reply : Option Reply} {generation : Nat}

lemma step_moves {op reply} (called : step drive fs op = some (reply, after)) :
    HandleMove fs after (.file op) (some reply) := by
  cases op with
  | create path =>
    cases called
    exact .same (fsCreate_handles rfl) fun _ _ => rfl
  | openFile path =>
    rcases ran : fsOpen fs path with ⟨result, returned, last⟩
    simp only [step, ran] at called
    cases called
    rcases fsOpen_handles ran with ⟨_, kept⟩ | ⟨entry, taken, resolved, vacant, rfl, rfl, moved⟩
    · exact .same kept fun _ _ => rfl
    · exact .opened resolved vacant moved
  | write handle offset address source len =>
    simp only [step, Option.map_eq_some_iff] at called
    obtain ⟨⟨answer, last⟩, ran, same⟩ := called
    cases same
    exact .same (fsWrite_handles ran) fun _ _ => rfl
  | read handle offset address len =>
    cases called
    exact .same (fsRead_handles rfl) fun _ _ => rfl
  | stat path =>
    cases called
    exact .same (fsStat_handles rfl) fun _ _ => rfl
  | unlink path =>
    rcases ran : fsUnlink drive fs path with ⟨result, last⟩
    simp only [step, ran] at called
    cases called
    rcases fsUnlink_handles ran with ⟨failed, kept⟩ | ⟨entry, resolved, rfl, on, handles, generations⟩
    · exact .same kept fun _ _ => decide_eq_false fun both => failed both.2
    · exact .unlinked resolved on handles generations
  | close handle =>
    rcases ran : fsClose fs handle with ⟨result, last⟩
    simp only [step, ran] at called
    cases called
    rcases fsClose_handles ran with ⟨rfl, _, kept⟩ | ⟨taken, decoded, rfl, moved⟩
    · exact .same kept fun _ _ => decide_eq_false (by simp [Reply.result])
    · exact .closed decoded moved

lemma volumeStep_moves (called : volumeStep drive fs op = some (reply, after)) : HandleMove fs after op reply := by
  cases op with
  | file op =>
    simp only [volumeStep, Option.map_eq_some_iff] at called
    obtain ⟨⟨answer, last⟩, ran, same⟩ := called
    cases same
    exact step_moves ran
  | mount dev =>
    simp only [volumeStep, Option.map_eq_some_iff] at called
    obtain ⟨⟨result, last⟩, ran, same⟩ := called
    cases same
    obtain ⟨unused, ⟨off, generations⟩ | ⟨mounted, rfl, generations⟩⟩ := fsMount_handles ran
    · exact .withdrawn off unused generations fun _ _ => rfl
    · exact .mounted mounted unused generations
  | unmount =>
    simp only [volumeStep, Option.map_eq_some_iff] at called
    obtain ⟨last, ran, same⟩ := called
    cases same
    obtain ⟨unused, off, generations⟩ := fsUnmount_handles ran
    exact .withdrawn off unused generations fun _ _ => rfl

lemma bump_eq (room : generation + 1 < u32) : bump generation = generation + 1 := by
  have same : (generation + 1) % u32 = generation + 1 := Nat.mod_eq_of_lt room
  rw [bump, same, if_neg (Nat.succ_ne_zero generation)]

lemma freeHandle_some (vacant : freeHandle fs = some slot) : slot < maxOpen ∧ (fs.handles slot).inUse = false := by
  have found := find?_some (p := fun slot => !(fs.handles slot).inUse) vacant
  exact ⟨mem_range.mp (mem_of_find?_eq_some vacant), by simpa using found⟩

lemma packHandle_fits (low : slot < maxOpen) (fits : generation < 2 ^ 29) :
    packHandle slot generation % 8 = slot ∧ packHandle slot generation / 8 = generation := by
  have width : u32 = 4294967296 := by decide
  have most : maxOpen = 8 := rfl
  have same : generation * 8 % u32 = generation * 8 := Nat.mod_eq_of_lt (by omega)
  rw [packHandle, same]
  omega

lemma Live.decoded (live : Live fs (handle % 8) (handle / 8) key) (positive : handle / 8 ≠ 0) :
    decodeHandle fs handle = some (handle % 8) := by
  have low : handle % 8 < maxOpen := Nat.mod_lt _ (by decide)
  simp only [decodeHandle]
  rw [if_neg (by omega), if_neg (by rw [live.mounted.on]; simp), if_neg]
  rintro (unused | passed)
  · rw [live.used] at unused
    cases unused
  · exact passed live.current

lemma Dead.rejected (dead : Dead fs (handle % 8) (handle / 8)) : decodeHandle fs handle = none := by
  rcases decoded : decodeHandle fs handle with _ | slot
  · rfl
  obtain ⟨rfl, used, current, _⟩ := decodeHandle_some decoded
  rcases dead with passed | ⟨_, unused⟩
  · omega
  · rw [used] at unused
    cases unused

/-- A slot's generation only grows, and grows before the slot is open again. -/
lemma Dead.step_kept (dead : Dead fs slot generation) (low : slot < maxOpen)
    (moves : HandleMove fs after op reply) (pace : paced fs op reply = true) : Dead after slot generation := by
  have width : u32 = 4294967296 := by decide
  have unopened : ((fs.handles slot).inUse = false → (after.handles slot).inUse = false) →
    after.generations = fs.generations →
      Dead after slot generation := by
    intro unused generations
    rw [Dead, generations]
    exact dead.imp_right fun last => ⟨last.1, unused last.2⟩
  cases moves with
  | same kept idle => exact unopened (by rw [kept.handles]; exact id) kept.generations
  | @opened path entry taken resolved vacant moved =>
    simp only [paced, vacant, Option.all_some, decide_eq_true_eq] at pace
    subst moved
    by_cases here : slot = taken
    · subst here
      simp only [Dead, if_true, bump_eq (show fs.generations slot + 1 < u32 by omega)]
      rcases dead with passed | ⟨current, _⟩ <;> omega
    · simp only [Dead, here, if_false]
      exact dead
  | closed decoded moved =>
    subst moved
    refine unopened (fun unused => ?_) rfl
    simp only
    split
    · rfl
    · exact unused
  | unlinked resolved on handles generations =>
    refine unopened (fun unused => ?_) generations
    simp [handles, closeEntry, unused]
  | withdrawn off unused generations => exact unopened (fun _ => unused slot) generations
  | mounted mounted unused generations =>
    simp only [paced, all_eq_true, mem_range, decide_eq_true_eq] at pace
    simp only [Dead, generations, bump_eq (pace slot low)]
    rcases dead with passed | ⟨current, _⟩ <;> omega

/-- A change to the directory keeps the name in a slot, unless it unlinks that file. -/
lemma Effect.name_kept {op reply data tail} (effect : Effect drive fs op reply after data tail)
    (mounted : fs.Mounted) {index record} (held : tableOf fs.dir index = some record)
    (stays : ∀ path, op = .unlink path → reply.result = .ok → fs.names op ≠ some record.name) :
    ∃ next, tableOf after.dir index = some next ∧ next.name = record.name := by
  rcases effect.directory with ⟨_, dir⟩ | ⟨target, entry, attempt⟩
  · rw [dir]
    exact ⟨record, held, rfl⟩
  rcases attempt.outcome with ⟨done, _, dir⟩ | ⟨_, dir, _⟩
  · rw [dir, tableOf_overlay]
    by_cases here : index = target
    · subst here
      rw [Function.update_self]
      have old := attempt.change.old_name held
      rcases attempt.change.decoded mounted with ⟨path, unlinked, _⟩ | ⟨next, decoded, _, named⟩
      · exact absurd old (stays path unlinked done)
      · exact ⟨next, decoded, Option.some.inj (named.symm.trans old)⟩
    · rw [Function.update_of_ne here]
      exact ⟨record, held, rfl⟩
  · rw [dir]
    exact ⟨record, held, rfl⟩

lemma Live.step_kept (live : Live fs (handle % 8) (handle / 8) key)
    (called : volumeStep drive fs op = some (reply, after)) (pace : paced fs op reply = true) :
    (ends fs handle key op reply = true ∧ Dead after (handle % 8) (handle / 8)) ∨
      (ends fs handle key op reply = false ∧ Live after (handle % 8) (handle / 8) key) := by
  have mounted := live.mounted
  obtain ⟨record, held, rfl⟩ := live.names
  have inside := (mounted.handles (handle % 8) live.used).1
  have effect : ∀ op answer, volumeStep drive fs (.file op) = some (some answer, after) →
    ∃ data tail, Effect drive fs op answer after data tail := by
    intro op answer called
    obtain ⟨answer', after', data, tail, stepped, effect⟩ := step_effect drive op mounted
    simp only [volumeStep, stepped, Option.map_some, Option.some.injEq, Prod.mk.injEq] at called
    obtain ⟨rfl, rfl⟩ := called
    exact ⟨data, tail, effect⟩
  cases volumeStep_moves called with
  | @same op answer kept idle =>
    obtain ⟨data, tail, effect⟩ := effect op answer called
    refine .inr ⟨idle handle record.name, effect.mounted, ?_, ?_, ?_⟩
    · rw [kept.handles]
      exact live.used
    · rw [kept.generations]
      exact live.current
    · rw [kept.handles]
      refine effect.name_kept mounted held fun path unlinked done named => ?_
      subst unlinked
      exact of_decide_eq_false (idle handle record.name) ⟨named, done⟩
  | @opened path entry taken resolved vacant moved =>
    obtain ⟨data, tail, effect⟩ := effect _ _ called
    have free := (freeHandle_some vacant).2
    have other : handle % 8 ≠ taken := by
      intro same
      have used := live.used
      rw [same, free] at used
      cases used
    have stays := effect.mounted
    subst moved
    refine .inr ⟨rfl, stays, ?_, ?_, ?_⟩
    · simp only [other, if_false, live.used]
    · simp only [other, if_false, live.current]
    · simp only [other, if_false]
      exact ⟨record, held, rfl⟩
  | @closed which taken decoded moved =>
    obtain ⟨data, tail, effect⟩ := effect _ _ called
    obtain ⟨rfl, _, current, _⟩ := decodeHandle_some decoded
    have stays := effect.mounted
    subst moved
    by_cases same : which = handle
    · subst same
      refine .inl ⟨decide_eq_true ⟨rfl, rfl⟩, .inr ⟨live.current, ?_⟩⟩
      simp only [if_true]
    have other : handle % 8 ≠ which % 8 := by
      intro slots
      rw [← slots, live.current] at current
      omega
    refine .inr ⟨decide_eq_false fun both => same both.1, stays, ?_, live.current, ?_⟩
    · simp only [other, if_false, live.used]
    · simp only [other, if_false]
      exact ⟨record, held, rfl⟩
  | @unlinked path entry resolved on handles generations =>
    obtain ⟨data, tail, effect⟩ := effect _ _ called
    obtain ⟨target, file, named⟩ := resolveFile_ok resolved
    have current : after.generations (handle % 8) = handle / 8 := by rw [generations, live.current]
    by_cases same : fs.names (.unlink path) = some record.name
    · have here : (fs.handles (handle % 8)).entry = entry := by
        have names : record.name = target.name := Option.some.inj (same.symm.trans named)
        exact mounted.table.unique _ _ record target inside file.inside held file.held names
      refine .inl ⟨decide_eq_true ⟨same, rfl⟩, .inr ⟨current, ?_⟩⟩
      simp [handles, closeEntry, live.used, here]
    have other : (fs.handles (handle % 8)).entry ≠ entry := by
      intro here
      rw [here, file.held] at held
      cases held
      exact same named
    have open_ : after.handles (handle % 8) = fs.handles (handle % 8) := by
      simp [handles, closeEntry, other]
    refine .inr ⟨decide_eq_false fun both => same both.1, effect.mounted, ?_, current, ?_⟩
    · rw [open_, live.used]
    · rw [open_]
      exact effect.name_kept mounted held fun _ _ _ => same
  | withdrawn off unused generations final =>
    exact .inl ⟨final handle record.name, .inr ⟨by rw [generations, live.current], unused _⟩⟩
  | mounted mounted unused generations =>
    have low : handle % 8 < maxOpen := Nat.mod_lt _ (by decide)
    simp only [paced, all_eq_true, mem_range, decide_eq_true_eq] at pace
    refine .inl ⟨rfl, .inl ?_⟩
    have next := bump_eq (pace _ low)
    rw [live.current] at next
    simp only [generations, live.current, next]
    exact Nat.lt_succ_self _

/-- Over a run: open until the first call that ends the handle, then dead for good. -/
lemma handle_run (ran : volumeRun drive fs ops = some (replies, after)) (pace : pacedRun drive fs ops = true) :
    (Dead fs (handle % 8) (handle / 8) → Dead after (handle % 8) (handle / 8)) ∧
    (Live fs (handle % 8) (handle / 8) key →
        (endedRun drive handle key fs ops = true ∧ Dead after (handle % 8) (handle / 8)) ∨
          (endedRun drive handle key fs ops = false ∧ Live after (handle % 8) (handle / 8) key)) := by
  have low : handle % 8 < maxOpen := Nat.mod_lt _ (by decide)
  induction ops generalizing fs replies with
  | nil =>
    cases ran
    exact ⟨id, fun live => .inr ⟨rfl, live⟩⟩
  | cons op ops ih =>
    obtain ⟨reply, next, rest, called, later, _⟩ := Transition.run_cons ran
    simp only [pacedRun, called, and_eq_true] at pace
    obtain ⟨deadLater, liveLater⟩ := ih later pace.2
    refine ⟨fun dead => deadLater (dead.step_kept low (volumeStep_moves called) pace.1), fun live => ?_⟩
    simp only [endedRun, called]
    rcases live.step_kept called pace.1 with ⟨spent, dead⟩ | ⟨goes, stays⟩
    · rw [spent, Bool.true_or]
      exact .inl ⟨rfl, deadLater dead⟩
    · rw [goes, Bool.false_or]
      exact liveLater stays

end

lemma volumeRun_mounted {devices : Nat → Device}
    (ran : volumeRun drive (.boot devices) ops = some (replies, fs)) : fs.isMounted = true → fs.Mounted := by
  refine Transition.run_invariant (fun fs : Volume => fs.isMounted = true → fs.Mounted) ?_ ran nofun
  intro fs op reply next holds called on
  cases op with
  | file op =>
    simp only [volumeStep, Option.map_eq_some_iff] at called
    obtain ⟨⟨answer, last⟩, stepped, same⟩ := called
    cases same
    have kept : last.isMounted = fs.isMounted := by
      cases step_moves stepped with
      | same kept _ => exact kept.mounted
      | opened _ _ moved | closed _ moved => rw [moved]
      | unlinked _ kept _ _ => exact kept
      | withdrawn off _ _ _ => exact absurd (off.symm.trans on) nofun
    obtain ⟨_, _, data, tail, stepped', effect⟩ := step_effect drive op (holds (kept.symm.trans on))
    rw [stepped] at stepped'
    cases stepped'
    exact effect.mounted
  | mount dev =>
    simp only [volumeStep, Option.map_eq_some_iff] at called
    obtain ⟨⟨result, last⟩, ran, same⟩ := called
    cases same
    rcases (fsMount_handles ran).2 with ⟨off, _⟩ | ⟨mounted, _⟩
    · exact absurd (off.symm.trans on) nofun
    · exact mounted
  | unmount =>
    simp only [volumeStep, Option.map_eq_some_iff] at called
    obtain ⟨last, ran, same⟩ := called
    cases same
    exact absurd ((fsUnmount_handles ran).2.1.symm.trans on) nofun

lemma fsClose_rejects (fs : Volume) (handle : Nat) :
    (fsClose fs handle).1 = .badHandle ↔ decodeHandle fs handle = none := by
  rcases called : fsClose fs handle with ⟨result, after⟩
  rcases fsClose_handles called with ⟨rfl, missing, _⟩ | ⟨slot, decoded, rfl, _⟩
  · simp [missing]
  · simp [decoded]

lemma fsRead_rejects (drive : Drive) (fs : Volume) (handle offset address len : Nat) :
    (fsRead drive fs handle offset address len).1.result = .badHandle ↔ decodeHandle fs handle = none := by
  cases decoded : decodeHandle fs handle with
  | none => simp [fsRead, decoded]
  | some slot =>
    simp only [fsRead, decoded, reduceCtorEq, iff_false]
    repeat' split
    all_goals simp

lemma resolveFile_mounted (resolved : resolveFile fs path = .ok entry) : fs.isMounted = true := by
  cases on : fs.isMounted with
  | true => rfl
  | false =>
    simp only [resolveFile, checkPath, on, if_true, bind, Except.bind] at resolved
    cases resolved

/-- A handle that an open returns is accepted until a call ends it, and rejected ever after,
in every run that keeps the generations in range. -/
theorem handle_until_ended {drive : Drive} {devices : Nat → Device} {early late : List VolumeOp}
    {before behind : List (Option Reply)} {fs held final : Volume} {path : Option ByteMemory} {handle : Nat}
    (ran : volumeRun drive (.boot devices) early = some (before, fs))
    (opened : volumeStep drive fs (.file (.openFile path)) = some (some (.opened .ok (some handle)), held))
    (later : volumeRun drive held late = some (behind, final))
    (pace : pacedRun drive fs (.file (.openFile path) :: late) = true) :
    ∃ key, fs.names (.openFile path) = some key ∧
    (decodeHandle final handle = none ↔ endedRun drive handle key held late = true) ∧
      ((fsClose final handle).1 = .badHandle ↔ endedRun drive handle key held late = true) ∧
      ∀ reader offset address len,
        (fsRead reader final handle offset address len).1.result = .badHandle ↔ endedRun drive handle key held late =
        true := by
  simp only [pacedRun, opened, and_eq_true] at pace
  obtain ⟨key, live, positive, named⟩ : ∃ key, Live held (handle % 8) (handle / 8) key ∧ handle / 8 ≠ 0 ∧
    fs.names (.openFile path) = some key := by
    have sound := volumeRun_mounted ran
    have width : u32 = 4294967296 := by decide
    simp only [volumeStep, Option.map_eq_some_iff, Prod.mk.injEq, Option.some.injEq] at opened
    obtain ⟨⟨answer, last⟩, stepped, rfl, rfl⟩ := opened
    rcases called : fsOpen fs path with ⟨result, returned, after⟩
    simp only [step, called, Option.some.injEq, Prod.mk.injEq, Reply.opened.injEq] at stepped
    obtain ⟨⟨rfl, rfl⟩, rfl⟩ := stepped
    rcases fsOpen_handles called with ⟨none, _⟩ | ⟨entry, slot, resolved, vacant, _, same, moved⟩
    · cases none
    obtain ⟨record, file, named⟩ := resolveFile_ok resolved
    have low := (freeHandle_some vacant).1
    have mounted : fs.Mounted := sound (resolveFile_mounted resolved)
    have fits := pace.1
    simp only [paced, vacant, Option.all_some, decide_eq_true_eq] at fits
    cases same
    rw [bump_eq (by omega)] at moved ⊢
    obtain ⟨index, generation⟩ := packHandle_fits low fits
    rw [index, generation]
    have effect : Effect drive fs (.openFile path) (.opened .ok _) after [] [] := fsOpen_effect mounted called
    refine ⟨record.name, ⟨effect.mounted, ?_, ?_, ?_⟩, Nat.succ_ne_zero _, named⟩
    · rw [moved]
      simp only [if_true]
    · rw [moved]
      simp only [if_true]
    · rw [moved]
      simp only [if_true]
      exact ⟨record, file.held, rfl⟩
  have verdict : decodeHandle final handle = none ↔ endedRun drive handle key held late = true := by
    rcases (handle_run later pace.2).2 live with ⟨spent, dead⟩ | ⟨goes, stays⟩
    · simp [spent, dead.rejected]
    · simp [goes, stays.decoded positive]
  refine ⟨key, named, verdict, (fsClose_rejects final handle).trans verdict, fun reader offset address len => ?_⟩
  exact (fsRead_rejects reader final handle offset address len).trans verdict

theorem handle_until_ended_close :
    let path := some (ofList [slash, 0x61])
    ∃ before fs held behind final, volumeRun .working (.boot fun _ => emptyDevice) [.mount 0, .file (.create path)] =
      some (before, fs) ∧
      volumeStep .working fs (.file (.openFile path)) = some (some (.opened .ok (some 16)), held) ∧
      volumeRun .working held [.file (.close 16), .file (.openFile path)] = some (behind, final) ∧
        decodeHandle final 16 = none := by
  intro path
  have steps : ((volumeRun .working (.boot fun _ => emptyDevice) [.mount 0, .file (.create path)]).bind fun (_, fs) =>
      (volumeStep .working fs (.file (.openFile path))).bind fun (reply, held) =>
        (volumeRun .working held [.file (.close 16), .file (.openFile path)]).map fun (_, _) =>
          (reply, pacedRun .working fs [.file (.openFile path), .file (.close 16), .file (.openFile path)],
            endedRun .working 16 [0x61] held [.file (.close 16), .file (.openFile path)],
            fs.names (.openFile path))) = some (some (.opened .ok (some 16)), true, true, some [0x61]) := by
              decide +kernel
  obtain ⟨⟨before, fs⟩, ran, steps⟩ := Option.bind_eq_some_iff.mp steps
  obtain ⟨⟨reply, held⟩, opened, steps⟩ := Option.bind_eq_some_iff.mp steps
  obtain ⟨⟨behind, final⟩, later, same⟩ := Option.map_eq_some_iff.mp steps
  simp only [Prod.mk.injEq] at same
  obtain ⟨rfl, pace, ended, named⟩ := same
  obtain ⟨key, named', verdict, _⟩ := handle_until_ended ran opened later pace
  rw [named] at named'
  cases named'
  exact ⟨before, fs, held, behind, final, ran, opened, later, verdict.mpr ended⟩

/-! A generation the handle cannot hold. -/

/-- One file opened and closed over and over, from a slot of this generation. -/
def reopen (path : Option ByteMemory) : Nat → Nat → List VolumeOp
  | 0, _ => []
  | rounds + 1, generation =>
    .file (.openFile path) :: .file (.close (packHandle 0 (generation + 1))) :: reopen path rounds (generation + 1)

lemma reopen_run (rounds generation : Nat) (resolved : resolveFile fs path = .ok entry)
    (unused : (fs.handles 0).inUse = false) (current : fs.generations 0 = generation)
    (room : generation + rounds < 2 ^ 29) :
    ∃ replies final, volumeRun .working fs (reopen path rounds generation) = some (replies, final) ∧
    resolveFile final path = .ok entry ∧
      (final.handles 0).inUse = false ∧ final.generations 0 = generation + rounds := by
  induction rounds generalizing generation fs with
  | zero => exact ⟨[], fs, rfl, resolved, unused, current⟩
  | succ rounds ih =>
    have width : u32 = 4294967296 := by decide
    have vacant : freeHandle fs = some 0 := by simp [freeHandle, maxOpen, range_succ_eq_map, unused]
    have low : 0 < maxOpen := by decide
    obtain ⟨index, packed⟩ := packHandle_fits low (show generation + 1 < 2 ^ 29 by omega)
    have opens : volumeStep .working fs (.file (.openFile path)) =
      some (some (.opened .ok (some (packHandle 0 (generation + 1)))),
        { fs with
          generations := fun other => if other = 0 then generation + 1 else fs.generations other,
          handles := fun other => if other = 0 then ⟨true, entry⟩ else fs.handles other }) := by
      simp only [volumeStep, step, fsOpen, resolved, vacant, current, bump_eq (show generation + 1 < u32 by omega),
        Option.map_some]
    generalize there : ({ fs with
          generations := fun other => if other = 0 then generation + 1 else fs.generations other,
          handles := fun other => if other = 0 then ⟨true, entry⟩ else fs.handles other } : Volume) = opened at opens
    have decoded : decodeHandle opened (packHandle 0 (generation + 1)) = some 0 := by
      have on := resolveFile_mounted resolved
      rw [← there]
      simp [decodeHandle, index, packed, on, maxOpen]
    have closes : volumeStep .working opened (.file (.close (packHandle 0 (generation + 1)))) =
      some (some (.status .ok),
        { opened with handles := fun other => if other = 0 then { opened.handles 0 with inUse := false } else opened.handles other }) := by
      simp only [volumeStep, step, fsClose, decoded, Option.map_some]
    generalize done : ({ opened with
          handles := fun other => if other = 0 then { opened.handles 0 with inUse := false }
            else opened.handles other } : Volume) = closed at closes
    have again : resolveFile closed path = .ok entry := by
      rw [← done, ← there]
      exact resolved
    obtain ⟨replies, final, ran, rest⟩ := ih (generation + 1) again (by rw [← done]; rfl)
      (by rw [← done, ← there]; rfl) (by omega)
    refine ⟨_, final, Transition.run_cons_of opens (Transition.run_cons_of closes ran), ?_⟩
    rw [show generation + (rounds + 1) = generation + 1 + rounds by omega]
    exact rest

/-- After enough opens and closes of one file, `fs_open` succeeds with a handle that no call
accepts. -/
theorem overflowing_handle_rejected :
    ∃ ops replies fs final, volumeRun .working (.boot fun _ => emptyDevice) ops = some (replies, fs) ∧
      volumeStep .working fs (.file (.openFile (some (ofList [slash, 0x61])))) =
      some (some (.opened .ok (some 0)), final) ∧
      decodeHandle final 0 = none ∧ (fsClose final 0).1 = .badHandle := by
  have steps : ((volumeRun .working (.boot fun _ => emptyDevice) [.mount 0,
    .file (.create (some (ofList [slash, 0x61])))]).map
      fun (_, fs) => ((resolveFile fs (some (ofList [slash, 0x61]))).toOption, (fs.handles 0).inUse,
        fs.generations 0)) =
      some (some 0, false, 1) := by decide +kernel
  obtain ⟨⟨replies, fs⟩, ran, same⟩ := Option.map_eq_some_iff.mp steps
  simp only [Prod.mk.injEq] at same
  obtain ⟨resolved, unused, current⟩ := same
  have found : resolveFile fs (some (ofList [slash, 0x61])) = .ok 0 := by
    cases place : resolveFile fs (some (ofList [slash, 0x61])) with
    | error error =>
      rw [place] at resolved
      cases resolved
    | ok entry =>
      rw [place] at resolved
      cases resolved
      rfl
  obtain ⟨later, last, cycled, again, free, generation⟩ := reopen_run (2 ^ 29 - 2) 1 found unused current (by decide)
  have vacant : freeHandle last = some 0 := by simp [freeHandle, maxOpen, range_succ_eq_map, free]
  have bumped : bump (1 + (2 ^ 29 - 2)) = 2 ^ 29 := by decide
  have opened : fsOpen last (some (ofList [slash, 0x61])) = (.ok, some 0,
      { last with
        generations := fun other => if other = 0 then 2 ^ 29 else last.generations other,
        handles := fun other => if other = 0 then ⟨true, 0⟩ else last.handles other }) := by
    simp only [fsOpen, again, vacant, generation, bumped]
    rfl
  generalize ({ last with
        generations := fun other => if other = 0 then 2 ^ 29 else last.generations other,
        handles := fun other => if other = 0 then ⟨true, 0⟩ else last.handles other } : Volume) = final at opened
  have rejected : decodeHandle final 0 = none := by simp [decodeHandle]
  refine ⟨_, _, last, final, Transition.run_append_of ran cycled, ?_, rejected, (fsClose_rejects final 0).mpr rejected⟩
  simp only [volumeStep, step, opened, Option.map_some]

end Rynor.Fs
