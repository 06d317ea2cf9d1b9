import Rynor.Proofs.FsSlots

/-! The three ways `fs_write` stores a payload: over existing bytes, into the slack of the
extent, or into a fresh extent that a directory write then switches to. For each, the
sectors it may touch and the bytes it leaves, whatever the drive does. -/

namespace Rynor.Fs
open ByteMemory Blk

/-- Slot `index` of the directory is the regular file `record`. -/
structure Volume.FileAt (fs : Volume) (index : Nat) (record : Record) : Prop where
  inside : index < fs.dirSlots
  held : tableOf fs.dir index = some record
  file : record.type = typeFile

/-- The part of the data region that belongs to a file. -/
structure ExtentInside (geometry : Geometry) (record : Record) : Prop where
  covers : record.length ≤ record.count * 512
  low : record.count ≠ 0 → geometry.dataStart ≤ record.first
  high : record.count ≠ 0 → record.first + record.count ≤ geometry.dataStart + geometry.dataBlocks
  blank : record.count = 0 → record.first = 0
  used : record.count ≠ 0 → 0 < record.length

lemma Record.Valid.inside (valid : record.Valid geometry) : ExtentInside geometry record := by
  rcases valid.kind with ⟨_, ⟨count, length, first⟩ | ⟨used, covers, low, high⟩⟩ | ⟨_, first, count, length⟩
  · exact ⟨by omega, fun some => absurd count some, fun some => absurd count some, fun _ => first,
      fun some => absurd count some⟩
  · exact ⟨covers, fun _ => low, fun _ => high, fun zero => by omega, fun _ => used⟩
  · exact ⟨by omega, fun some => absurd count some, fun some => absurd count some, fun _ => first,
      fun some => absurd count some⟩

section
variable {drive : Drive} {fs after : Volume} {index offset address len : Nat} {record : Record} {source : ByteMemory}
  {reply : WriteReply}
variable {handle slot : Nat}

lemma Volume.Mounted.file_extent (mounted : fs.Mounted) (file : fs.FileAt index record) :
    ExtentInside fs.geometry record :=
  (mounted.table.records index record file.inside file.held).inside

lemma Volume.Mounted.extent_total (mounted : fs.Mounted) (file : fs.FileAt index record) :
    record.first + record.count ≤ fs.geometry.total := by
  have extent := mounted.file_extent file
  have inside := mounted.shape.data_inside
  by_cases empty : record.count = 0
  · rw [extent.blank empty, empty]
    exact Nat.zero_le _
  · exact Nat.le_trans (extent.high empty) inside

private lemma inPlace_moves (mounted : fs.Mounted) (file : fs.FileAt index record)
    (fits : offset + len ≤ record.count * 512)
    (called : writeDataBlocks drive fs.blk fs.dev record.first offset address len source = moved) :
    Moves drive fs.dev record.first (record.first + record.count) fs.geometry.total fs.blk moved.blk
    (moved.result = .ok)
        ((fs.blk.devices fs.dev).disk.overlay (512 * record.first + offset) len source) ∧
        (moved.result = .ok ∨ moved.result = .ioErr) := by
  have total := mounted.extent_total file
  obtain ⟨moves, either⟩ := writeDataBlocks_spec fs.geometry.total mounted.small (by omega) called
  exact ⟨moves.widen le_rfl (by omega), either⟩

lemma writeWithin_spec (mounted : fs.Mounted) (file : fs.FileAt index record) (fits : offset + len ≤ record.length)
    (called : writeWithin drive fs record.first offset address source len = (reply, after)) :
      (∃ stage, after = { fs with blk := after.blk, stage }) ∧
      Moves drive fs.dev record.first (record.first + record.count) fs.geometry.total fs.blk after.blk
        (reply.result = .ok)
        ((fs.blk.devices fs.dev).disk.overlay (512 * record.first + offset) len source) ∧
      (reply = ⟨.ok, some len⟩ ∨ reply.result = .ioErr) := by
  have covers := (mounted.file_extent file).covers
  rcases moved : writeDataBlocks drive fs.blk fs.dev record.first offset address len source with ⟨result, done, blk⟩
  obtain ⟨moves, either⟩ := inPlace_moves mounted file (by omega) moved
  simp only [writeWithin, moved] at called
  rcases either with rfl | rfl
  · cases called
    exact ⟨⟨_, rfl⟩, moves, .inl rfl⟩
  · cases called
    exact ⟨⟨_, rfl⟩, moves, .inr rfl⟩

lemma writeGrow_spec (mounted : fs.Mounted) (file : fs.FileAt index record) (fits : offset + len ≤ record.count * 512)
    (called : writeGrow drive fs index record.first offset address source len (offset + len) = (reply, after)) :
    ∃ blk ok, Moves drive fs.dev record.first (record.first + record.count) fs.geometry.total fs.blk blk ok
        ((fs.blk.devices fs.dev).disk.overlay (512 * record.first + offset) len source) ∧
        ((ok ∧ reply.nwritten = some len ∧
          SlotWritten drive { fs with blk } index
            (wr64le (entryAt fs.dir index) 56 (offset + len)) reply.result after) ∨
        (¬ ok ∧ reply.result = .ioErr ∧ ∃ stage, after = { fs with blk, stage })) := by
  rcases moved : writeDataBlocks drive fs.blk fs.dev record.first offset address len source with ⟨result, done, blk⟩
  obtain ⟨moves, either⟩ := inPlace_moves mounted file fits moved
  simp only [writeGrow, moved] at called
  refine ⟨blk, _, moves, ?_⟩
  rcases either with rfl | rfl
  · left
    rcases written : dirWriteSlot drive { fs with blk } index
      (wr64le (entryAt fs.dir index) 56 (offset + len)) with ⟨code, volume⟩
    obtain ⟨stores, stored⟩ := moves.stored
    simp only [written] at called
    cases called
    exact ⟨rfl, rfl, dirWriteSlot_spec (mounted.stored stored.wrote) file.inside written⟩
  right
  cases called
  exact ⟨nofun, rfl, _, rfl⟩

private lemma relocated_disk {disk : ByteMemory} {first newFirst count newBlocks stop : Nat}
    (begun : offset / 512 ≤ newBlocks) (covered : offset ≤ count * 512) (room : count ≤ newBlocks) :
    (disk.overlay (512 * newFirst) (512 * count) (disk.shift (512 * first))).overlay (512 * (newFirst + offset / 512))
        (512 * (newBlocks - offset / 512))
        ((relocated ((disk.overlay (512 * newFirst) (512 * count) (disk.shift (512 * first))).shift (512 * newFirst))
          source
          offset stop).shift (512 * (offset / 512))) =
      disk.overlay (512 * newFirst) (512 * newBlocks) (relocated (disk.shift (512 * first)) source offset stop) := by
  funext byte
  by_cases inside : 512 * newFirst ≤ byte ∧ byte < 512 * newFirst + 512 * newBlocks
  · rw [overlay_inside inside.1 inside.2]
    by_cases patched : 512 * (newFirst + offset / 512) ≤ byte
    · rw [overlay_inside patched (by omega), shift_apply,
        show 512 * (offset / 512) + (byte - 512 * (newFirst + offset / 512)) = byte - 512 * newFirst by omega]
      simp only [relocated]
      by_cases kept : byte - 512 * newFirst < offset
      · rw [if_pos kept, if_pos kept, shift_apply, overlay_inside (by omega) (by omega), Nat.add_sub_cancel_left]
      · rw [if_neg kept, if_neg kept]
    have early : byte - 512 * newFirst < offset := by omega
    rw [overlay_outside (by omega), overlay_inside (by omega) (by omega)]
    simp only [relocated, early, if_true]
  · rw [overlay_outside (by omega), overlay_outside (by omega), overlay_outside (by omega)]

/-- A relocation finds no space, or moves the file to blocks that belong to nobody. -/
lemma writeRelocate_spec (drive : Drive) (source : ByteMemory) (mounted : fs.Mounted) (file : fs.FileAt index record)
    (begun : offset ≤ record.length) (long : record.count * 512 < offset + len) (short : len ≤ maxWriteBytes) :
    ∃ reply after, writeRelocate drive fs index record.count record.first offset source len
    (offset + len) = some (reply, after) ∧
      (((∀ first, ¬ (tableOf fs.dir).FreeRange fs.dirSlots fs.geometry first ((offset + len + 511) / 512)) ∧
          reply = ⟨.noSpc, some 0⟩ ∧ ∃ stage, after = { fs with stage }) ∨
        ∃ newFirst blk ok, (tableOf fs.dir).FreeRange fs.dirSlots fs.geometry newFirst ((offset + len + 511) / 512) ∧
          Moves drive fs.dev newFirst (newFirst + (offset + len + 511) / 512) fs.geometry.total fs.blk blk ok
            ((fs.blk.devices fs.dev).disk.overlay (512 * newFirst) (512 * ((offset + len + 511) / 512))
              (relocated ((fs.blk.devices fs.dev).disk.shift (512 * record.first)) source offset (offset + len))) ∧
          ((ok ∧ reply.nwritten = some (if reply.result = .ok then len else 0) ∧ SlotWritten drive { fs with blk } index
                (switchedEntry (entryAt fs.dir index) newFirst ((offset + len + 511) / 512) (offset + len))
                reply.result after) ∨
            (¬ ok ∧ reply = ⟨.ioErr, some 0⟩ ∧ ∃ stage, after = { fs with blk, stage }))) := by
  have extent := mounted.file_extent file
  have covers := extent.covers
  have oldTotal := mounted.extent_total file
  have small := mounted.small
  have width := u64_eq
  have limit : lba28Max = 268435456 := by decide
  have most : maxWriteBytes = 16384 := by decide
  have inside := mounted.shape.data_inside
  have bounded : ¬ offset + len > u64 - 1 - 511 := by omega
  unfold writeRelocate
  rw [if_neg bounded]
  generalize blocks : (offset + len + 511) / 512 = newBlocks
  have positive : newBlocks ≠ 0 := by omega
  obtain ⟨answer, scanned, meaning⟩ := gapScan_least mounted.table mounted.shape (fs.blk.devices fs.dev).addressable
    newBlocks
  have allocated : allocFirstFit fs newBlocks = some answer := by
    rw [allocFirstFit, if_neg positive, scanned]
  simp only [allocated]
  cases answer with
  | error error =>
    obtain ⟨rfl, full⟩ := meaning
    exact ⟨_, _, rfl, .inl ⟨full, rfl, _, rfl⟩⟩
  | ok newFirst =>
    obtain ⟨meaning, _⟩ := meaning
    simp only
    have apart := meaning.2.2 index record file.inside file.held
    have newTotal : newFirst + newBlocks ≤ fs.geometry.total := le_trans meaning.2.1 inside
    rcases copied : copyBlocks drive fs.dev record.first newFirst record.count 0 fs.blk with ⟨failure, loaded⟩
    have copies := copyBlocks_spec fs.geometry.total small (by omega) (by omega) (by omega) copied
    rw [add_zero, add_zero] at copies
    cases failure with
    | some stage =>
      refine ⟨_, _, rfl, .inr ⟨newFirst, loaded, False, meaning, ?_, .inr ⟨id, rfl, _, rfl⟩⟩⟩
      exact copies.stop (by simp) id (by omega)
    | none =>
      simp only
      rcases patched : patchBlocks drive fs.dev newFirst record.count offset (offset + len) source
        (newBlocks - offset / 512)
          (offset / 512) loaded with ⟨failure, blk⟩
      have patches := patchBlocks_spec fs.geometry.total small (by omega) le_rfl (by omega) (by omega)
        (by omega) patched
      rw [copies.exact rfl, relocated_disk (by omega) (by omega) (by omega)] at patches
      have moves := copies.next (patches.widen (show newFirst ≤ newFirst + offset / 512 by omega)
        (show newFirst + offset / 512 + (newBlocks - offset / 512) ≤ newFirst + newBlocks by omega)) (by omega) le_rfl
      obtain ⟨stores, stored⟩ := moves.stored
      cases failure with
      | some stage =>
        refine ⟨_, _, rfl, .inr ⟨newFirst, blk, _, meaning, moves, .inr ⟨(by simp), rfl, _, rfl⟩⟩⟩
      | none =>
        simp only
        rcases switched : dirSwitchExtent drive { fs with blk } index newFirst newBlocks
          (offset + len) with ⟨result, volume⟩
        have written := dirWriteSlot_spec (mounted.stored stored.wrote) file.inside switched
        rcases written.outcome with ⟨rfl, _⟩ | ⟨rfl, _⟩ | ⟨rfl, _⟩
        all_goals exact ⟨_, _, rfl, .inr ⟨newFirst, blk, _, meaning, moves, .inl ⟨rfl, rfl, written⟩⟩⟩

lemma decodeHandle_some (decoded : decodeHandle fs handle = some slot) :
    slot = handle % 8 ∧ (fs.handles slot).inUse = true ∧ fs.generations slot = handle / 8 ∧ handle / 8 ≠ 0 ∧
    fs.isMounted = true := by
  simp only [decodeHandle] at decoded
  split at decoded
  · cases decoded
  rename_i packed
  split at decoded
  · cases decoded
  rename_i on
  split at decoded
  · cases decoded
  rename_i live
  cases decoded
  simp only [not_or, Bool.not_eq_false, Decidable.not_not] at packed on live
  exact ⟨rfl, live.1, live.2, packed.2, on⟩

lemma Volume.Mounted.open_file (mounted : fs.Mounted) (decoded : decodeHandle fs handle = some slot) :
    ∃ record, fs.FileAt (fs.handles slot).entry record := by
  obtain ⟨inside, record, held, file⟩ := mounted.handles slot (decodeHandle_some decoded).2.1
  exact ⟨record, inside, held, file⟩

lemma Volume.Mounted.length_bound (mounted : fs.Mounted) (file : fs.FileAt index record) :
    record.length ≤ 137438953472 ∧ record.count * 512 ≤ 137438953472 := by
  have covers := (mounted.file_extent file).covers
  have total := mounted.extent_total file
  have small := mounted.small
  have limit : lba28Max = 268435456 := by decide
  omega

lemma fsWrite_eq (mounted : fs.Mounted) (decoded : decodeHandle fs handle = some slot)
    (file : fs.FileAt (fs.handles slot).entry record) :
    fsWrite drive fs handle offset address source len = if len > maxWriteBytes then
      some (⟨.invalid, none⟩, { fs with stage := "too-long" })
      else if offset > record.length then some (⟨.range, none⟩, { fs with stage := "past-end" })
      else if len ≠ 0 ∧ (address = 0 ∨ address % 2 = 1) then some (⟨.invalid, none⟩, { fs with stage := "bad-buf" })
      else if len = 0 then some (⟨.ok, some len⟩, fs)
      else if offset + len ≤ record.length then some (writeWithin drive fs record.first offset address source len)
      else if offset + len ≤ record.count * 512 then
        some (writeGrow drive fs (fs.handles slot).entry record.first offset address source len (offset + len))
      else writeRelocate drive fs (fs.handles slot).entry record.count record.first offset source len
        (offset + len) := by
  obtain ⟨_, _, type, _, first, count, length⟩ := decodeEntry_some file.held
  obtain ⟨lengthBound, countBound⟩ := mounted.length_bound file
  have width := u64_eq
  have most : maxWriteBytes = 16384 := by decide
  unfold fsWrite
  simp only [decoded, type, file.file, first, count, length, ne_eq, not_true, if_false]
  by_cases long : len > maxWriteBytes
  · rw [if_pos long, if_pos long]
  rw [if_neg long, if_neg long]
  by_cases past : offset > record.length
  · rw [if_pos past, if_pos past]
  have bounded : ¬ len > u64 - 1 - offset := by omega
  have wide : record.count * 512 % u64 = record.count * 512 := Nat.mod_eq_of_lt (by omega)
  rw [if_neg past, if_neg past, if_neg bounded, wide]

end

end Rynor.Fs
