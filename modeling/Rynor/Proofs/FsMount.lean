import Rynor.Storage.FsRun
import Rynor.Proofs.FsAlloc
import Rynor.Proofs.FsPaths

/-! Mounting: what `fs_mount` accepts, and what holds of the filesystem's variables and of
the disk once it has. -/

namespace Rynor.Fs
open ByteMemory Blk List Checks
variable {capacity slots index dev : Nat} {sb dir disk other : ByteMemory} {geometry : Geometry} {error : FsError}
  {drive : Drive} {fs after : Volume}

/-- The fixed part of the superblock. -/
structure HeaderValid (sb : ByteMemory) : Prop where
  magic : sb.slice 0 8 = magic
  version : rd32le (sb.shift 8) = 1
  blockSize : rd32le (sb.shift 12) = 512
  reserved : rd64le (sb.shift 56) = 0
  padding : ∀ index, 64 ≤ index → index < 512 → sb index = 0

lemma superblockError_iff (small : capacity ≤ lba28Max) :
    superblockError capacity sb = none ↔ HeaderValid sb ∧ (sbGeometry sb).Valid capacity := by
  rw [← geometryError_iff small]
  have padding : ((range' 64 448).any fun index => sb index != 0) = false ↔ ∀ index, 64 ≤ index → index < 512 →
    sb index = 0 := by
    simp only [any_eq_false, mem_range'_1, bne_iff_ne, Decidable.not_not]
    constructor
    · intro clear index low high
      exact clear index ⟨low, by omega⟩
    · intro clear index inside
      exact clear index inside.1 (by omega)
  simp only [superblockError, none_iff, ne_eq, Decidable.not_not, Bool.not_eq_true, padding]
  constructor
  · intro ⟨found, version, size, reserved, clear, geometry⟩
    exact ⟨⟨found, version, size, reserved, clear⟩, geometry⟩
  · intro ⟨header, geometry⟩
    exact ⟨header.magic, header.version, header.blockSize, header.reserved, header.padding, geometry⟩

lemma superblockError_code (refused : superblockError capacity sb = some error) : error.code ≠ .ok := by
  repeat
    rcases some_cases refused with rfl | refused
    · exact nofun
  cases refused

private lemma entryError_code (refused : entryError geometry entry = some error) : error.code ≠ .ok := by
  simp only [entryError] at refused
  repeat' split at refused
  all_goals first
    | (cases refused; simp)
    | cases refused

private lemma namespaceError_code (refused : namespaceError dir slots index = some error) : error.code ≠ .ok := by
  simp only [namespaceError] at refused
  split at refused
  · cases refused
  rcases Option.or_eq_some_iff.mp refused with duplicate | ⟨_, dangling⟩
  · obtain ⟨other, _, found⟩ := exists_of_findSome?_eq_some duplicate
    repeat' split at found
    all_goals first
      | (cases found; simp)
      | cases found
  obtain ⟨stop, _, found⟩ := exists_of_findSome?_eq_some dangling
  repeat' split at found
  all_goals first
    | (cases found; simp)
    | cases found

private lemma extentError_code (refused : extentError dir slots index = some error) : error.code ≠ .ok := by
  simp only [extentError] at refused
  split at refused
  · cases refused
  obtain ⟨other, _, found⟩ := exists_of_findSome?_eq_some refused
  repeat' split at found
  all_goals first
    | (cases found; simp)
    | cases found

lemma directoryError_code (refused : directoryError geometry dir = some error) : error.code ≠ .ok := by
  simp only [directoryError] at refused
  rcases Option.or_eq_some_iff.mp refused with first | ⟨_, later⟩
  · obtain ⟨index, _, found⟩ := exists_of_findSome?_eq_some first
    exact entryError_code found
  rcases Option.or_eq_some_iff.mp later with second | ⟨_, third⟩
  · obtain ⟨index, _, found⟩ := exists_of_findSome?_eq_some second
    exact namespaceError_code found
  · obtain ⟨index, _, found⟩ := exists_of_findSome?_eq_some third
    exact extentError_code found

/-- The directory region of a disk. -/
def diskDir (disk : ByteMemory) (geometry : Geometry) : ByteMemory := disk.shift (512 * geometry.dirStart)

/-- The image `fs_mount` accepts on a device of `capacity` blocks. -/
structure Mountable (capacity : Nat) (disk : ByteMemory) : Prop where
  header : HeaderValid disk
  shape : (sbGeometry disk).Valid capacity
  table : (tableOf (diskDir disk (sbGeometry disk))).Valid (sbGeometry disk).slots (sbGeometry disk)

lemma Table.Valid.congr {table other : Table} (valid : table.Valid slots geometry)
    (same : ∀ slot, slot < slots → other slot = table slot) : other.Valid slots geometry := by
  refine ⟨?_, ?_, ?_, ?_⟩
  · intro slot record inside held
    exact valid.records slot record inside (same slot inside ▸ held)
  · intro a b one two aInside bInside aHeld bHeld
    exact valid.unique a b one two aInside bInside (same a aInside ▸ aHeld) (same b bInside ▸ bHeld)
  · intro slot record inside held parent member
    obtain ⟨above, holder, aboveInside, holds, rest⟩ :=
      valid.parents slot record inside (same slot inside ▸ held) parent member
    exact ⟨above, holder, aboveInside, (same above aboveInside).trans holds, rest⟩
  · intro a b one two aInside bInside aHeld bHeld
    exact valid.apart a b one two aInside bInside (same a aInside ▸ aHeld) (same b bInside ▸ bHeld)

lemma sbGeometry_congr (head : ∀ index, index < 512 → other index = disk index) :
    sbGeometry other = sbGeometry disk := by
  have word : ∀ offset, offset + 8 ≤ 512 → rd64le (other.shift offset) = rd64le (disk.shift offset) :=
    fun offset fits => littleEndian_congr fun index inside => head _ (by omega)
  simp only [sbGeometry, word 16 (by omega), word 24 (by omega), word 32 (by omega), word 40 (by omega),
    word 48 (by omega)]

lemma HeaderValid.congr (header : HeaderValid disk) (head : ∀ index, index < 512 → other index = disk index) :
    HeaderValid other := by
  refine ⟨?_, ?_, ?_, ?_, ?_⟩
  · rw [← header.magic]
    exact slice_congr fun index inside => head _ (by omega)
  · rw [← header.version]
    exact littleEndian_congr fun index inside => head _ (by omega)
  · rw [← header.blockSize]
    exact littleEndian_congr fun index inside => head _ (by omega)
  · rw [← header.reserved]
    exact littleEndian_congr fun index inside => head _ (by omega)
  · intro index low high
    rw [head index high, header.padding index low high]

private lemma readDirectory_spec {fuel got before after final result} (known : dev < maxDevices)
    (present : (before.devices dev).present = true)
    (inside : geometry.dirStart + geometry.dirBlocks ≤ (before.devices dev).blockCount)
    (enough : geometry.dirBlocks ≤ got + fuel)
    (started : got ≤ geometry.dirBlocks) (called : readDirectory drive dev geometry fuel got before dir =
      (result, final, after)) :
    Wrote dev [] before after ∧ (result = .ok → final = dir.overlay (got * 512) ((geometry.dirBlocks - got) * 512)
        ((diskDir (before.devices dev).disk geometry).shift (got * 512))) ∧
        ((∀ command, drive.readFails command = false) → result = .ok) := by
  have limit : lba28Max < u64 := by decide
  have addressable := (before.devices dev).addressable
  induction fuel generalizing got before dir with
  | zero =>
    cases called
    rw [show geometry.dirBlocks - got = 0 by omega, zero_mul, overlay_zero]
    exact ⟨Wrote.nil rfl, fun _ => rfl, fun _ => rfl⟩
  | succ fuel ih =>
    simp only [readDirectory] at called
    by_cases more : got < geometry.dirBlocks
    · rw [if_pos more, Nat.mod_eq_of_lt (by omega)] at called
      generalize chunk : (if geometry.dirBlocks - got > 32 then 32 else geometry.dirBlocks - got) = count at called
      have bound : 0 < count ∧ count ≤ 32 ∧ count ≤ geometry.dirBlocks - got := by split at chunk <;> omega
      rcases fetched : blkRead drive before dev (geometry.dirStart + got) count staticAddress
        (count * 512) with ⟨code, reply⟩
      obtain ⟨bytes, loaded⟩ := reply
      obtain ⟨same, holds, succeeds⟩ := blkRead_spec fetched
      have serves : before.Serves dev (geometry.dirStart + got) count :=
        ⟨known, present, bound.1, bound.2.1, by omega⟩
      rw [fetched] at called
      split at called
      next outcome =>
        cases outcome
        have device := same.device
        rw [Device.putAll_nil] at device
        obtain ⟨rest, collected, finishes⟩ :=
          ih (by rw [device]; exact present) (by rw [device]; exact inside) (by omega) (by omega)
          called (by rw [device]; exact addressable)
        refine ⟨Wrote.nil ((Wrote.none_iff.mp rest).trans (Wrote.none_iff.mp same)), fun ok => ?_, finishes⟩
        have read : bytes = (diskDir (before.devices dev).disk geometry).shift (got * 512) := by
          rw [holds rfl, diskDir, shift_shift]
          exact congrArg _ (by simp only [sectorSize]; omega)
        rw [collected ok, read, device]
        refine overlay_join (by omega) (by omega) fun index _ => ?_
        rw [shift_apply, shift_apply]
        exact congrArg (diskDir (before.devices dev).disk geometry) (by omega)
      next failed outcome =>
      cases outcome
      cases called
      exact ⟨same, fun ok => absurd ok failed, fun reads => succeeds serves (by decide) rfl reads⟩
    rw [if_neg more] at called
    cases called
    rw [show geometry.dirBlocks - got = 0 by omega, zero_mul, overlay_zero]
    exact ⟨Wrote.nil rfl, fun _ => rfl, fun _ => rfl⟩

/-- Everything a successful mount of `dev` leaves behind. -/
structure MountedFrom (fs : Volume) (dev : Nat) (after : Volume) : Prop where
  on : after.isMounted = true
  authorized : after.writableAuthorized = true
  device : after.dev = dev
  geometry : after.geometry = sbGeometry (fs.blk.devices dev).disk
  slots : after.dirSlots = after.geometry.slots
  handles : after.handles = closeAll fs.handles
  generations : after.generations = fun slot => bump (fs.generations slot)
  devices : after.blk.devices = (fs.blk.setDevice dev { fs.blk.devices dev with writable := true }).devices
  mirror : ∀ index, index < after.dirSlots * entrySize →
    after.dir index = diskDir (fs.blk.devices dev).disk after.geometry index

lemma mountDevice_spec {result : FsResult} (called : mountDevice drive fs dev (fs.blk.devices dev) = (result, after))
    (known : dev < maxDevices) (present : (fs.blk.devices dev).present = true) :
    (result = .ok → Mountable (fs.blk.devices dev).blockCount (fs.blk.devices dev).disk ∧ MountedFrom fs dev after) ∧
      ((∀ command, drive.readFails command = false) →
        Mountable (fs.blk.devices dev).blockCount (fs.blk.devices dev).disk → result = .ok) ∧
      (result ≠ .ok → after.blk.devices = fs.blk.devices ∧ after.isMounted = fs.isMounted ∧
        after.writableAuthorized = fs.writableAuthorized) := by
  have small := (fs.blk.devices dev).addressable
  have found : blkDevice fs.blk dev = some (fs.blk.devices dev) := by simp [blkDevice, known, present]
  simp only [mountDevice] at called
  rcases fetched : blkRead drive fs.blk dev 0 1 staticAddress 512 with ⟨code, reply⟩
  obtain ⟨sb, loaded⟩ := reply
  obtain ⟨same, holds, succeeds⟩ := blkRead_spec fetched
  rw [fetched] at called
  have devices := Wrote.none_iff.mp same
  split at called
  next outcome =>
    cases outcome
    have bytes : sb = (fs.blk.devices dev).disk := by
      rw [holds rfl, Nat.mul_zero, shift_zero]
    subst bytes
    cases refused : superblockError (fs.blk.devices dev).blockCount (fs.blk.devices dev).disk with
    | some error =>
      rw [refused] at called
      cases called
      refine ⟨fun ok => absurd ok (superblockError_code refused), fun _ mountable => ?_, fun _ => ⟨devices, rfl, rfl⟩⟩
      rw [(superblockError_iff small).mpr ⟨mountable.header, mountable.shape⟩] at refused
      cases refused
    | none =>
      obtain ⟨header, shape⟩ := (superblockError_iff small).mp refused
      rw [refused] at called
      simp only at called
      generalize geometry : sbGeometry (fs.blk.devices dev).disk = g at called shape
      rcases listed : readDirectory drive dev g g.dirBlocks 0 loaded fs.dir with ⟨code, reply⟩
      obtain ⟨dir, read⟩ := reply
      have inside := le_trans shape.dir_inside shape.total_le
      obtain ⟨same', collected, finishes⟩ := readDirectory_spec known (by rw [devices]; exact present)
        (by rw [devices]; exact inside) (by omega) (Nat.zero_le _) listed
      have devices' : read.devices = fs.blk.devices := (Wrote.none_iff.mp same').trans devices
      rw [devices, Nat.sub_zero, Nat.zero_mul, shift_zero] at collected
      rw [listed] at called
      split at called
      next outcome =>
        cases outcome
        have mirror : ∀ index, index < g.slots * entrySize → dir index = diskDir (fs.blk.devices dev).disk g index := by
          intro index low
          simp only [Geometry.slots, entrySize, dirEntriesPerBlock] at low
          rw [collected rfl, overlay_inside (Nat.zero_le _) (by omega), Nat.sub_zero]
        have tables : ∀ slot, slot < g.slots → tableOf dir slot = tableOf (diskDir (fs.blk.devices dev).disk g) slot :=
          fun slot low => tableOf_congr mirror low
        cases rejected : directoryError g dir with
        | some error =>
          rw [rejected] at called
          cases called
          refine ⟨fun ok => absurd ok (directoryError_code rejected), fun _ mountable => ?_,
            fun _ => ⟨devices', rfl, rfl⟩⟩
          rw [(directoryError_iff shape small).mpr ((geometry ▸ mountable.table).congr tables)] at rejected
          cases rejected
        | none =>
          have table := ((directoryError_iff shape small).mp rejected).congr fun slot low => (tables slot low).symm
          rw [rejected] at called
          have writable : blkSetWritable read dev =
            (.ok, read.setDevice dev { read.devices dev with writable := true }) := by
            simp only [blkSetWritable, blkDevice, devices', known, present, and_self, if_true]
          simp only [writable] at called
          cases called
          refine ⟨fun _ => ⟨⟨header, geometry.symm ▸ shape, geometry.symm ▸ table⟩, ?_⟩, fun _ _ => rfl,
            fun failed => absurd rfl failed⟩
          refine ⟨rfl, rfl, rfl, geometry.symm, rfl, rfl, rfl, ?_, mirror⟩
          simp only [State.setDevice, devices']
      next failed outcome =>
      cases outcome
      cases called
      exact ⟨(by simp), fun reads _ => absurd (finishes reads) failed, fun _ => ⟨devices', rfl, rfl⟩⟩
  next failed outcome =>
  cases outcome
  cases called
  refine ⟨(by simp), fun reads mountable => absurd
    (succeeds ⟨known, present, by decide, by decide, ?_⟩ (by decide) rfl reads) failed,
    fun _ => ⟨devices, rfl, rfl⟩⟩
  have := mountable.shape.total_pos
  have := mountable.shape.total_le
  omega

/-- The filesystem's variables while it is mounted; nothing yet about the disk. -/
structure Volume.Mounted (fs : Volume) : Prop where
  on : fs.isMounted = true
  authorized : fs.writableAuthorized = true
  usable : Usable fs.blk fs.dev fs.geometry.total
  shape : fs.geometry.Valid (fs.blk.devices fs.dev).blockCount
  slots : fs.dirSlots = fs.geometry.slots
  table : (tableOf fs.dir).Valid fs.dirSlots fs.geometry
  handles : ∀ slot, (fs.handles slot).inUse = true → (fs.handles slot).entry < fs.dirSlots ∧
    ∃ record, tableOf fs.dir (fs.handles slot).entry = some record ∧ record.type = typeFile

/-- Mounted, with the disk saying what the variables say. -/
structure Volume.Synced (fs : Volume) : Prop extends fs.Mounted where
  header : HeaderValid (fs.blk.devices fs.dev).disk
  geometry : sbGeometry (fs.blk.devices fs.dev).disk = fs.geometry
  mirror : ∀ index, index < fs.dirSlots * entrySize →
    fs.dir index = diskDir (fs.blk.devices fs.dev).disk fs.geometry index

lemma MountedFrom.synced (mounted : MountedFrom fs dev after) (known : dev < maxDevices)
    (present : (fs.blk.devices dev).present = true)
    (mountable : Mountable (fs.blk.devices dev).blockCount (fs.blk.devices dev).disk) : after.Synced := by
  have device : after.blk.devices after.dev = { fs.blk.devices dev with writable := true } := by
    rw [mounted.devices, mounted.device]
    exact if_pos rfl
  have shape : after.geometry.Valid (after.blk.devices after.dev).blockCount := by
    rw [device, mounted.geometry]
    exact mountable.shape
  have table : (tableOf after.dir).Valid after.dirSlots after.geometry := by
    have mirror := mounted.mirror
    rw [mounted.slots, mounted.geometry] at mirror ⊢
    exact mountable.table.congr fun slot inside => tableOf_congr mirror inside
  refine ⟨⟨mounted.on, mounted.authorized, ?_, shape, mounted.slots, table, ?_⟩, ?_, ?_, ?_⟩
  · refine ⟨mounted.device ▸ known, ?_, ?_, shape.total_le⟩
    · rw [device]
      exact present
    · rw [device]
  · intro slot open_
    rw [mounted.handles] at open_
    cases open_
  · rw [device]
    exact mountable.header
  · rw [device, mounted.geometry]
  · rw [device]
    exact mounted.mirror

lemma revoke_devices (revoked : revoke fs = some after) :
    (∃ writable : Nat → Bool, after.blk.devices = fun id => { fs.blk.devices id with writable := writable id }) ∧
      after = { fs with blk := after.blk, writableAuthorized := false } := by
  simp only [revoke] at revoked
  split at revoked
  · rcases cleared : blkClearWritable fs.blk fs.dev with ⟨result, blk⟩
    rw [cleared] at revoked
    cases result with
    | ok =>
      cases revoked
      simp only [blkClearWritable] at cleared
      split at cleared
      · cases cleared
      rename_i device found
      cases cleared
      simp only [blkDevice] at found
      split at found
      · cases found
        refine ⟨⟨fun id => if id = fs.dev then false else (fs.blk.devices id).writable, ?_⟩, rfl⟩
        funext id
        simp only [State.setDevice]
        split
        next same => rw [same]
        · rfl
      · cases found
    | _ => cases revoked
  rename_i withdrawn
  cases revoked
  refine ⟨⟨fun id => (fs.blk.devices id).writable, rfl⟩, ?_⟩
  cases fs
  simp only [Bool.not_eq_true] at withdrawn
  rw [← withdrawn]

lemma blkDevice_some (found : blkDevice blk dev = some device) :
    (dev < maxDevices ∧ (blk.devices dev).present = true) ∧ device = blk.devices dev := by
  simp only [blkDevice] at found
  split at found
  next reachable =>
    cases found
    exact ⟨reachable, rfl⟩
  · cases found

/-- A successful mount: the image was mountable and is left alone, no handle is open. -/
lemma fsMount_ok (called : fsMount drive fs dev = some (.ok, after)) :
    Mountable (fs.blk.devices dev).blockCount (fs.blk.devices dev).disk ∧ after.Synced ∧ after.dev = dev ∧
      (after.blk.devices dev).disk = (fs.blk.devices dev).disk ∧ (after.blk.devices dev).log =
      (fs.blk.devices dev).log ∧
      after.handles = closeAll fs.handles ∧ after.generations = fun slot => bump (fs.generations slot) := by
  simp only [fsMount] at called
  split at called
  · cases called
  rename_i cleared revoked
  obtain ⟨⟨writable, devices⟩, rest⟩ := revoke_devices revoked
  split at called
  · cases called
  rename_i device found
  obtain ⟨reachable, rfl⟩ := blkDevice_some found
  rcases mounted : mountDevice drive { cleared with isMounted := false, handles := closeAll cleared.handles } dev
      (cleared.blk.devices dev) with ⟨result, volume⟩
  rw [mounted] at called
  cases called
  obtain ⟨accepted, _⟩ := mountDevice_spec mounted reachable.1 reachable.2
  obtain ⟨mountable, from_⟩ := accepted rfl
  have synced := from_.synced reachable.1 reachable.2 mountable
  have final : after.blk.devices dev = { fs.blk.devices dev with writable := true } := by
    rw [from_.devices]
    simp only [State.setDevice, if_true, devices]
  refine ⟨by simpa only [devices] using mountable, synced, from_.device, ?_, ?_, ?_, ?_⟩
  · rw [final]
  · rw [final]
  · rw [from_.handles, rest]
    rfl
  · rw [from_.generations, rest]

lemma revoke_succeeds {fs} (granted : fs.writableAuthorized = true → fs.dev < maxDevices ∧
      (fs.blk.devices fs.dev).present = true) :
    ∃ cleared, revoke fs = some cleared := by
  simp only [revoke]
  split
  next authorized =>
    simp only [blkClearWritable, blkDevice, if_pos (granted authorized)]
    exact ⟨_, rfl⟩
  · exact ⟨fs, rfl⟩

/-- A mountable image on a present device with working reads is accepted. -/
lemma fsMount_accepts {drive fs cleared dev} (reads : ∀ command, drive.readFails command = false)
    (revoked : revoke { fs with stage := "none" } = some cleared) (known : dev < maxDevices)
    (present : (fs.blk.devices dev).present = true)
    (mountable : Mountable (fs.blk.devices dev).blockCount (fs.blk.devices dev).disk) :
    ∃ after, fsMount drive fs dev = some (.ok, after) ∧ MountedFrom cleared dev after := by
  obtain ⟨⟨writable, devices⟩, _⟩ := revoke_devices revoked
  have reachable : (cleared.blk.devices dev).present = true := by
    rw [devices]
    exact present
  have found : blkDevice cleared.blk dev = some (cleared.blk.devices dev) := by simp [blkDevice, known, reachable]
  simp only [fsMount, revoked, found]
  rcases mounted : mountDevice drive { cleared with isMounted := false, handles := closeAll cleared.handles } dev
      (cleared.blk.devices dev) with ⟨result, after⟩
  obtain ⟨accepted, succeeds, _⟩ := mountDevice_spec mounted known reachable
  have ok := succeeds reads (by simpa only [devices] using mountable)
  subst ok
  obtain ⟨_, from_⟩ := accepted rfl
  exact ⟨after, rfl, ⟨from_.on, from_.authorized, from_.device, from_.geometry, from_.slots, from_.handles,
    from_.generations,
    from_.devices, from_.mirror⟩⟩

/-! Write authorization. -/

/-- The writable device is the mounted one, and the authorization the filesystem holds can be withdrawn. -/
structure Volume.Authorized (fs : Volume) : Prop where
  writable : ∀ id, (fs.blk.devices id).writable = true ↔ fs.isMounted = true ∧ id = fs.dev
  granted : fs.writableAuthorized = fs.isMounted
  reachable : fs.isMounted = true → fs.dev < maxDevices ∧ (fs.blk.devices fs.dev).present = true

lemma Volume.Authorized.unmounted (off : fs.isMounted = false) (withdrawn : fs.writableAuthorized = false)
    (clear : ∀ id, (fs.blk.devices id).writable = false) : fs.Authorized where
  writable id := by rw [clear, off]; exact ⟨nofun, nofun⟩
  granted := by rw [withdrawn, off]
  reachable on := by rw [off] at on; cases on

lemma Volume.Authorized.revoke (authorized : fs.Authorized) :
    ∃ cleared, Fs.revoke fs = some cleared ∧ cleared.writableAuthorized = false ∧ ∀ id,
    (cleared.blk.devices id).writable = false := by
  unfold Fs.revoke
  split
  next held =>
    have mounted := authorized.granted.symm.trans held
    simp only [blkClearWritable, blkDevice, if_pos (authorized.reachable mounted)]
    refine ⟨_, rfl, rfl, fun id => ?_⟩
    simp only [State.setDevice]
    split
    · rfl
    next other => exact Bool.eq_false_iff.mpr fun written => other ((authorized.writable id).mp written).2
  next free =>
  refine ⟨fs, rfl, Bool.eq_false_iff.mpr free, fun id => Bool.eq_false_iff.mpr fun written => free ?_⟩
  rw [authorized.granted]
  exact ((authorized.writable id).mp written).1

lemma fsMount_authorized (authorized : fs.Authorized) (dev : Nat) :
    ∃ result after, fsMount drive fs dev = some (result, after) ∧ after.Authorized := by
  have entered : Volume.Authorized { fs with stage := "none" } :=
    ⟨authorized.writable, authorized.granted, authorized.reachable⟩
  obtain ⟨cleared, revoked, withdrawn, clear⟩ := entered.revoke
  simp only [fsMount, revoked]
  split
  · exact ⟨_, _, rfl, .unmounted rfl withdrawn clear⟩
  rename_i device found
  obtain ⟨reachable, rfl⟩ := blkDevice_some found
  rcases mounted : mountDevice drive { cleared with isMounted := false, handles := closeAll cleared.handles } dev
      (cleared.blk.devices dev) with ⟨result, after⟩
  refine ⟨result, after, rfl, ?_⟩
  obtain ⟨accepted, _, refused⟩ := mountDevice_spec mounted reachable.1 reachable.2
  by_cases ok : result = .ok
  · obtain ⟨_, from_⟩ := accepted ok
    refine ⟨fun id => ?_, from_.authorized.trans from_.on.symm, fun _ => ?_⟩
    · rw [from_.devices, from_.on, from_.device]
      simp only [State.setDevice]
      split
      next same => exact ⟨fun _ => ⟨trivial, same⟩, fun _ => rfl⟩
      next other => exact ⟨fun written => absurd ((clear id).symm.trans written) (by simp),
        fun both => absurd both.2 other⟩
    · rw [from_.devices, from_.device]
      exact ⟨reachable.1, by simpa [State.setDevice] using reachable.2⟩
  · obtain ⟨devices, off, free⟩ := refused ok
    exact .unmounted off (free.trans withdrawn) fun id => by rw [devices]; exact clear id

/-- A mount of a device or, with none, an unmount. -/
def mountStep (drive : Drive) (fs : Volume) (request : Option Nat) : Option (Option Reply × Volume) :=
  volumeStep drive fs (request.elim .unmount .mount)

lemma mountStep_authorized (authorized : fs.Authorized) (request : Option Nat) :
    ∃ reply after, mountStep drive fs request = some (reply, after) ∧ after.Authorized := by
  cases request with
  | none =>
    obtain ⟨cleared, revoked, withdrawn, clear⟩ := authorized.revoke
    have called : fsUnmount fs = some { cleared with isMounted := false, handles := closeAll cleared.handles } := by
      simp only [fsUnmount, revoked]
    exact ⟨none, _, congrArg (Option.map _) called, .unmounted rfl withdrawn clear⟩
  | some dev =>
    obtain ⟨result, after, called, authorized⟩ := fsMount_authorized authorized dev
    exact ⟨_, after, congrArg (Option.map _) called, authorized⟩

/-- After any mounts and unmounts of any devices, whether they succeed or not, a device is writable if and only if it
is the mounted one; the calls all return. -/
theorem writable_iff_mounted (drive : Drive) (devices : Nat → Device) (requests : List (Option Nat)) :
    ∃ replies fs, Transition.run (mountStep drive) (.boot fun id => { devices id with writable := false }) requests =
      some (replies, fs) ∧
      (∀ id, (fs.blk.devices id).writable = true ↔ fs.isMounted = true ∧ id = fs.dev) ∧
      ∀ one two, (fs.blk.devices one).writable = true → (fs.blk.devices two).writable = true → one = two := by
  have start : Volume.Authorized (.boot fun id => { devices id with writable := false }) :=
    .unmounted rfl rfl fun _ => rfl
  obtain ⟨replies, fs, ran, authorized⟩ := Transition.run_returns Volume.Authorized (fun _ request kept =>
    mountStep_authorized kept request)
    start requests
  refine ⟨replies, fs, ran, authorized.writable, fun one two first second => ?_⟩
  exact ((authorized.writable one).mp first).2.trans ((authorized.writable two).mp second).2.symm

end Rynor.Fs
