import Rynor.Storage.Fs

/-! What the sector loops of the filesystem do to a device: the sectors they store, in
order, and the bytes the disk then holds. The stores are the whole effect; every crash
image is the disk after some of them. -/

namespace Rynor.Blk
open ByteMemory
variable {drive : Drive} {lba start count address : Nat} {bytes : ByteMemory} {result : Result}

def Device.putAll (device : Device) (stores : List (Nat × ByteMemory)) : Device :=
  { device with disk := replay sectorSize device.disk stores, log := device.log ++ stores }

/-- From `before` to `after`, exactly `stores` went to device `id` and nothing else moved. -/
def Wrote (id : Nat) (stores : List (Nat × ByteMemory)) (before after : State) : Prop :=
  after.devices = fun other => if other = id then (before.devices id).putAll stores else before.devices other

/-- The drive loses a failed write: it never stores a sector and reports an error. -/
def Drive.Clean (drive : Drive) : Prop := ∀ command, drive.write command ≠ .ambiguous

structure Drive.Works (drive : Drive) : Prop where
  reads : ∀ command, drive.readFails command = false
  stores : ∀ command, drive.write command = .stored

lemma Drive.working_works : Drive.working.Works := ⟨fun _ => rfl, fun _ => rfl⟩

lemma Drive.Works.clean (works : drive.Works) : drive.Clean := by
  intro command
  rw [works.stores]
  exact nofun

variable {id : Nat} {before middle after : State} {first rest stores : List (Nat × ByteMemory)}

@[simp] lemma Device.putAll_nil (device : Device) : device.putAll [] = device := by
  simp [Device.putAll]

section
variable (wrote : Wrote id stores before after)
include wrote

lemma Wrote.device : after.devices id = (before.devices id).putAll stores := by
  rw [wrote]
  exact if_pos rfl

lemma Wrote.other {other} (different : other ≠ id) : after.devices other = before.devices other := by
  rw [wrote]
  exact if_neg different

lemma Wrote.disk : (after.devices id).disk = replay sectorSize (before.devices id).disk stores := by
  rw [wrote.device]
  rfl

end

lemma Wrote.nil (same : after.devices = before.devices) : Wrote id [] before after := by
  simp only [Wrote, Device.putAll_nil]
  rw [same]
  funext other
  split
  next found => rw [found]
  · rfl

lemma Wrote.none_iff : Wrote id [] before after ↔ after.devices = before.devices := by
  refine ⟨fun wrote => ?_, Wrote.nil⟩
  funext other
  by_cases same : other = id
  · rw [same, wrote.device, Device.putAll_nil]
  · exact wrote.other same

lemma Wrote.trans (one : Wrote id first before middle) (two : Wrote id rest middle after) :
    Wrote id (first ++ rest) before after := by
  simp only [Wrote]
  funext other
  split
  next same =>
    rw [same, two.device, one.device]
    simp [Device.putAll, replay_append, List.append_assoc]
  next different => rw [two.other different, one.other different]

lemma Wrote.same_disk (wrote : Wrote id [] before after) : (after.devices id).disk = (before.devices id).disk := by
  rw [wrote.device, Device.putAll_nil]

/-! One transfer. -/

/-- The device can move this range in one call. -/
structure State.Serves (state : State) (id start count : Nat) : Prop where
  known : id < maxDevices
  present : (state.devices id).present = true
  nonempty : 0 < count
  short : count ≤ maxBlocks
  inside : start + count ≤ (state.devices id).blockCount

lemma Wrote.serves (wrote : Wrote id stores before after) (serves : before.Serves id start count) :
    after.Serves id start count := by
  refine ⟨serves.known, ?_, serves.nonempty, serves.short, ?_⟩
  · rw [wrote.device]
    exact serves.present
  · rw [wrote.device]
    exact serves.inside

lemma permit_ok (serves : state.Serves id start count)
    (aligned : address ≠ 0 ∧ address % 2 = 0) (allowed : needWrite = true → (state.devices id).writable = true) :
    permit state id start count address (count * 512) needWrite = .ok := by
  have nonempty := serves.nonempty
  have short := serves.short
  have inside := serves.inside
  have addressable := (state.devices id).addressable
  have range : validRange (state.devices id) start count (count * 512) = .ok := by
    simp only [validRange]
    rw [if_neg (by omega), if_neg (fun wrong => wrong rfl), if_neg (by omega), if_neg (by omega)]
  simp only [permit, blkDevice, serves.known, serves.present, and_self, if_true]
  rw [if_neg (by omega), range]
  simp only
  rw [if_neg (by omega)]
  cases needWrite with
  | false => simp
  | true => simp [allowed]

lemma readSectors_spec (id : Nat) (drive : Drive) (count : Nat) (state : State) :
    Wrote id [] state (readSectors drive count state).2 ∧
      ((∀ command, drive.readFails command = false) → (readSectors drive count state).1 = .ok) := by
  induction count generalizing state with
  | zero => exact ⟨Wrote.nil rfl, fun _ => rfl⟩
  | succ count ih =>
    simp only [readSectors]
    by_cases fails : drive.readFails state.clock = true
    · rw [if_pos fails]
      exact ⟨Wrote.nil rfl, fun reads => absurd fails (by simp [reads])⟩
    rw [if_neg fails]
    obtain ⟨same, succeeds⟩ := ih state.tick
    exact ⟨Wrote.nil (Wrote.none_iff.mp same), succeeds⟩

lemma blkRead_spec (called : blkRead drive before id start count address len = (result, bytes, after)) :
    Wrote id [] before after ∧ (result = .ok → bytes = (before.devices id).disk.shift (sectorSize * start)) ∧
      (before.Serves id start count → address ≠ 0 ∧ address % 2 = 0 → len = count * 512 →
        (∀ command, drive.readFails command = false) → result = .ok) := by
  simp only [blkRead] at called
  split at called
  next allowed =>
    obtain ⟨same, succeeds⟩ := readSectors_spec id drive count before
    cases called
    exact ⟨same, fun _ => rfl, fun _ _ _ reads => succeeds reads⟩
  rename_i refused different
  cases called
  refine ⟨Wrote.nil rfl, fun accepted => ?_, fun serves aligned size _ => ?_⟩
  · exact absurd accepted different
  · exact absurd (size ▸ permit_ok serves aligned nofun) different

/-- Storing one sector either succeeds, or fails having stored it or not. Only an
ambiguous outcome stores it and fails. -/
lemma blkWrite_one (called : blkWrite drive before id lba 1 address 512 bytes = (result, after)) :
    ((result = .ok ∧ Wrote id [(lba, bytes)] before after) ∨ (result ≠ .ok ∧ Wrote id [] before after) ∨
      (result ≠ .ok ∧ ¬ drive.Clean ∧ Wrote id [(lba, bytes)] before after)) ∧
      (before.Serves id lba 1 → address ≠ 0 ∧ address % 2 = 0 → (before.devices id).writable = true →
        (∀ command, drive.write command = .stored) → result = .ok) := by
  have taken : Wrote id [(lba, bytes)] before (before.tick.setDevice id ((before.devices id).put lba bytes)) := by
    simp only [Wrote, State.setDevice, State.tick, Device.put, Device.putAll, replay_cons, replay_nil]
  simp only [blkWrite] at called
  split at called
  · simp only [writeSectors] at called
    split at called
    · cases called
      exact ⟨.inl ⟨rfl, taken⟩, fun _ _ _ _ => rfl⟩
    next lost =>
      cases called
      refine ⟨.inr (.inl ⟨nofun, Wrote.nil rfl⟩), fun _ _ _ stores => ?_⟩
      rw [stores] at lost
      cases lost
    rename_i ambiguous
    cases called
    refine ⟨.inr (.inr ⟨nofun, fun clean => clean _ ambiguous, taken⟩), fun _ _ _ stores => ?_⟩
    rw [stores] at ambiguous
    cases ambiguous
  rename_i refused
  cases called
  refine ⟨.inr (.inl ⟨refused, Wrote.nil rfl⟩), fun serves aligned writable _ => ?_⟩
  have allowed : permit before id lba 1 address 512 true = .ok := permit_ok serves aligned fun _ => writable
  exact absurd allowed refused

end Rynor.Blk

namespace Rynor.Fs
open ByteMemory Blk

variable {drive : Drive} {dev : Nat} {before after : Blk.State}

lemma dataWrite_spec (called : dataWrite drive before dev lba bytes = (result, after)) :
    ((result = .ok ∧ Wrote dev [(lba, bytes)] before after) ∨ (result = .ioErr ∧ Wrote dev [] before after) ∨
      (result = .ioErr ∧ ¬ drive.Clean ∧ Wrote dev [(lba, bytes)] before after)) ∧
      (before.Serves dev lba 1 → (before.devices dev).writable = true →
        (∀ command, drive.write command = .stored) → result = .ok) := by
  rcases written : blkWrite drive before dev lba 1 staticAddress 512 bytes with ⟨code, blk⟩
  obtain ⟨outcome, succeeds⟩ := blkWrite_one written
  have aligned : staticAddress ≠ 0 ∧ staticAddress % 2 = 0 := by decide
  simp only [dataWrite, written] at called
  split at called
  next same =>
    cases called
    cases same
    refine ⟨?_, fun _ _ _ => rfl⟩
    rcases outcome with done | ⟨failed, _⟩ | ⟨failed, _⟩
    · exact .inl ⟨rfl, done.2⟩
    · exact absurd rfl failed
    · exact absurd rfl failed
  rename_i other same
  cases called
  cases same
  refine ⟨?_, fun serves writable stores => (other (succeeds serves aligned writable stores)).elim⟩
  rcases outcome with done | ⟨_, lost⟩ | ⟨_, ambiguous⟩
  · exact (other done.1).elim
  · exact .inr (.inl ⟨rfl, lost⟩)
  · exact .inr (.inr ⟨rfl, ambiguous⟩)

end Rynor.Fs
