import Rynor.Proofs.BlkEffects

/-! The data loops of `fs_read` and `fs_write`: which sectors each may touch, and the bytes
a completed loop leaves on the disk or delivers to the caller. -/

namespace Rynor.Fs
open ByteMemory Blk List
variable {count low' high' lba address cur done index len fuel pos offset newFirst : Nat}
  {one two bytes source : ByteMemory} {ok : Prop}
  {result : Blk.Result} {moved : Written} {failure : Option String}

/-- The device takes and returns any sector below `last`. -/
structure Usable (state : Blk.State) (dev last : Nat) : Prop where
  known : dev < maxDevices
  present : (state.devices dev).present = true
  writable : (state.devices dev).writable = true
  inside : last ≤ (state.devices dev).blockCount

/-- The effect of a data loop: stores confined to the sectors `[low, high)`. -/
structure Stored (dev low high : Nat) (before after : Blk.State) (stores : List (Nat × ByteMemory)) : Prop where
  wrote : Wrote dev stores before after
  confined : ∀ entry ∈ stores, low ≤ entry.1 ∧ entry.1 < high

variable {drive : Drive} {dev : Nat} {before middle after : Blk.State} {stores first rest : List (Nat × ByteMemory)}
  {low high last : Nat}

lemma Usable.serves (usable : Usable before dev last) (nonempty : 0 < count) (short : count ≤ 32)
    (inside : start + count ≤ last) : before.Serves dev start count :=
  ⟨usable.known, usable.present, nonempty, short, le_trans inside usable.inside⟩

lemma Usable.kept (usable : Usable before dev last) (wrote : Wrote dev stores before after) :
    Usable after dev last := by
  refine ⟨usable.known, ?_, ?_, ?_⟩
  · rw [wrote.device]
    exact usable.present
  · rw [wrote.device]
    exact usable.writable
  · rw [wrote.device]
    exact usable.inside

lemma Stored.none (wrote : Wrote dev [] before after) : Stored dev low high before after [] :=
  ⟨wrote, nofun⟩

lemma Stored.widen (stored : Stored dev low high before after stores) (below : low' ≤ low) (above : high ≤ high') :
    Stored dev low' high' before after stores := by
  refine ⟨stored.wrote, fun entry member => ?_⟩
  have inside := stored.confined entry member
  omega

lemma Stored.trans (one : Stored dev low high before middle first) (two : Stored dev low high middle after rest) :
    Stored dev low high before after (first ++ rest) := by
  refine ⟨one.wrote.trans two.wrote, fun entry member => ?_⟩
  rcases mem_append.mp member with early | late
  · exact one.confined entry early
  · exact two.confined entry late

/-- What a loop over the sectors `[low, high)` may do, and what it has done when it reports
success; it succeeds on a working device of at least `last` sectors. -/
structure Moves (drive : Drive) (dev low high last : Nat) (before after : Blk.State) (ok : Prop)
    (target : ByteMemory) : Prop where
  stored : ∃ stores, Stored dev low high before after stores
  exact : ok → (after.devices dev).disk = target
  works : drive.Works → Usable before dev last → ok

lemma Moves.next {done : Prop}
    (start : Moves drive dev low high' last before middle done one)
    (rest : Moves drive dev low' high last middle after ok two)
    (below : high' ≤ high) (above : low ≤ low') : Moves drive dev low high last before after ok two := by
  obtain ⟨first, stored⟩ := start.stored
  obtain ⟨later, more⟩ := rest.stored
  refine ⟨⟨first ++ later, (stored.widen le_rfl below).trans (more.widen above le_rfl)⟩, rest.exact, ?_⟩
  intro works usable
  exact rest.works works (usable.kept stored.wrote)

lemma Moves.stop {done : Prop}
    (start : Moves drive dev low high' last before after done one) (failed : ¬ done) (missed : ¬ ok)
    (below : high' ≤ high) :
    Moves drive dev low high last before after ok two := by
  obtain ⟨first, stored⟩ := start.stored
  refine ⟨⟨first, stored.widen le_rfl below⟩, fun done => absurd done missed, fun works usable => ?_⟩
  exact absurd (start.works works usable) failed

lemma Moves.idle (same : Wrote dev [] before after) (works : drive.Works → Usable before dev last → ok) :
    Moves drive dev low high last before after ok (before.devices dev).disk :=
  ⟨⟨[], Stored.none same⟩, fun _ => same.same_disk, works⟩

lemma Moves.widen (moves : Moves drive dev low high last before after ok target)
    (below : low' ≤ low) (above : high ≤ high') : Moves drive dev low' high' last before after ok target := by
  obtain ⟨stores, stored⟩ := moves.stored
  exact ⟨⟨stores, stored.widen below above⟩, moves.exact, moves.works⟩

lemma dataWrite_moves (last : Nat) {result} (fits : lba < last)
    (called : dataWrite drive before dev lba bytes = (result, after)) :
    Moves drive dev lba (lba + 1) last before after (result = .ok)
    ((before.devices dev).disk.overlay (512 * lba) 512 bytes) := by
  obtain ⟨outcome, succeeds⟩ := dataWrite_spec called
  have single : Wrote dev [(lba, bytes)] before after → Stored dev lba (lba + 1) before after [(lba, bytes)] := by
    intro wrote
    refine ⟨wrote, fun entry member => ?_⟩
    rw [mem_singleton.mp member]
    exact ⟨le_rfl, Nat.lt_succ_self _⟩
  have works : drive.Works → Usable before dev last → result = .ok := fun works usable =>
    succeeds (usable.serves (by decide) (by decide) fits) usable.writable works.stores
  rcases outcome with done | lost | ambiguous
  · exact ⟨⟨_, single done.2⟩, fun _ => by rw [done.2.disk, replay_cons, replay_nil, sectorSize,
      store_eq_overlay (by decide)], works⟩
  · exact ⟨⟨[], Stored.none lost.2⟩, fun ok => absurd (ok.symm.trans lost.1) nofun, works⟩
  · exact ⟨⟨_, single ambiguous.2.2⟩, fun ok => absurd (ok.symm.trans ambiguous.1) nofun, works⟩

lemma blkRead_moves (low last : Nat) (fits : lba + count ≤ last)
    (nonempty : 0 < count) (short : count ≤ 32) (aligned : address ≠ 0 ∧ address % 2 = 0)
    (called : blkRead drive before dev lba count address (count * 512) = (result, bytes, after)) :
    Moves drive dev low low last before after (result = .ok) (before.devices dev).disk ∧
      (result = .ok → bytes = (before.devices dev).disk.shift (512 * lba)) := by
  obtain ⟨same, bytes, succeeds⟩ := blkRead_spec called
  refine ⟨Moves.idle same fun works usable => ?_, bytes⟩
  exact succeeds (usable.serves nonempty short fits) aligned rfl works.reads

lemma blkRead_sector (low last : Nat) (fits : lba < last)
    (called : blkRead drive before dev lba 1 staticAddress 512 = (result, bytes, after)) :
    Moves drive dev low low last before after (result = .ok) (before.devices dev).disk ∧
      (result = .ok → bytes = (before.devices dev).disk.shift (512 * lba)) :=
  blkRead_moves low last fits (by decide) (by decide) (by decide) called

/-! Writing a range. -/

lemma writeBlocks_spec (last : Nat) (fits : cur + index + count ≤ last)
    (called : writeBlocks drive dev cur done source count index before = moved) :
    Moves drive dev (cur + index) (cur + index + count) last before moved.blk (moved.result = .ok)
        ((before.devices dev).disk.overlay (512 * (cur + index)) (512 * count) (source.shift (index * 512))) ∧
      (moved.result = .ok ∨ moved.result = .ioErr) := by
  induction count generalizing index before with
  | zero =>
    subst called
    simp only [mul_zero, overlay_zero]
    exact ⟨Moves.idle (Wrote.nil rfl) fun _ _ => rfl, .inl rfl⟩
  | succ count ih =>
    simp only [writeBlocks] at called
    split at called
    next middle written =>
      have moves := dataWrite_moves last (by omega) written
      obtain ⟨more, outcome⟩ := ih (by omega) called
      refine ⟨?_, outcome⟩
      have target : (middle.devices dev).disk.overlay (512 * (cur + (index + 1))) (512 * count)
        (source.shift ((index + 1) * 512)) =
          (before.devices dev).disk.overlay (512 * (cur + index)) (512 * (count + 1)) (source.shift (index * 512)) := by
        rw [moves.exact rfl]
        refine overlay_join (by omega) (by omega) fun offset _ => ?_
        exact congrArg source (by omega)
      rw [target, show cur + (index + 1) + count = cur + index + (count + 1) by omega] at more
      exact moves.next more (by omega) (by omega)
    next result middle failed written =>
      subst called
      exact ⟨(dataWrite_moves last (by omega) written).stop failed nofun (by omega), .inr rfl⟩

lemma writeLoop_spec (last : Nat) (within : pos < 512) (enough : len ≤ done + fuel)
    (fits : cur + (pos + (len - done) + 511) / 512 ≤ last)
    (called : writeLoop drive dev address len source fuel cur pos done before = moved) :
    Moves drive dev cur (cur + (pos + (len - done) + 511) / 512) last before moved.blk (moved.result = .ok)
        ((before.devices dev).disk.overlay (512 * cur + pos) (len - done) (source.shift done)) ∧
        (moved.result = .ok ∨ moved.result = .ioErr) := by
  induction fuel generalizing cur pos done before with
  | zero =>
    subst called
    rw [show len - done = 0 by omega, overlay_zero]
    exact ⟨Moves.idle (Wrote.nil rfl) fun _ _ => rfl, .inl rfl⟩
  | succ fuel ih =>
    simp only [writeLoop] at called
    by_cases more : done < len
    · rw [if_pos more] at called
      by_cases whole : pos = 0 ∧ len - done ≥ 512 ∧ (address + done) % 2 = 0
      · rw [if_pos whole] at called
        obtain ⟨rfl, large, _⟩ := whole
        generalize chunkSize : (if (len - done) / 512 > 32 then 32 else (len - done) / 512) = chunk at called
        have chunkBound : 0 < chunk ∧ 512 * chunk ≤ len - done := by split at chunkSize <;> omega
        rcases written : writeBlocks drive dev cur done
          (source.shift done) chunk 0 before with ⟨result, finished, middle⟩
        obtain ⟨moves, either⟩ := writeBlocks_spec last (by omega) written
        simp only [written] at called
        simp only [add_zero, zero_mul, shift_zero] at moves either
        rcases either with rfl | rfl
        · obtain ⟨rest, outcome⟩ := ih within (by omega) (by omega) called
          refine ⟨?_, outcome⟩
          have target : (middle.devices dev).disk.overlay (512 * (cur + chunk) + 0) (len - (done + chunk * 512))
            (source.shift (done + chunk * 512)) =
              (before.devices dev).disk.overlay (512 * cur + 0) (len - done) (source.shift done) := by
            rw [moves.exact rfl]
            refine overlay_join (by omega) (by omega) fun offset _ => ?_
            exact congrArg source (by omega)
          rw [target, show cur + chunk + (0 + (len - (done + chunk * 512)) + 511) / 512 = cur +
            (0 + (len - done) + 511) / 512 by omega] at rest
          exact moves.next rest (by omega) (by omega)
        · subst called
          exact ⟨moves.stop nofun nofun (by omega), .inr rfl⟩
      rw [if_neg whole] at called
      generalize takeSize : (if 512 - pos < len - done then 512 - pos else len - done) = take at called
      have takeBound : 0 < take ∧ pos + take ≤ 512 ∧ take ≤ len - done ∧ (take = len - done ∨ pos + take = 512) := by
        split at takeSize <;> omega
      split at called
      next scratch loaded fetched =>
        obtain ⟨reads, bytes⟩ := blkRead_sector cur last (by omega) fetched
        split at called
        next middle written =>
          have moves := dataWrite_moves last (by omega) written
          obtain ⟨rest, outcome⟩ := ih (by decide) (by omega) (by omega) called
          refine ⟨?_, outcome⟩
          have patched : (middle.devices dev).disk = (before.devices dev).disk.overlay (512 * cur + pos) take
            (source.shift done) := by
            rw [moves.exact rfl, reads.exact rfl, bytes rfl, ← store_eq_overlay (by decide),
              store_overlay _ _ _ _ _ takeBound.2.1]
          have target : (middle.devices dev).disk.overlay (512 * (cur + 1) + 0) (len - (done + take))
            (source.shift (done + take)) =
              (before.devices dev).disk.overlay (512 * cur + pos) (len - done) (source.shift done) := by
            rw [patched]
            rcases takeBound.2.2.2 with ended | filled
            · rw [show len - (done + take) = 0 by omega, overlay_zero, ended]
            · refine overlay_join (by omega) (by omega) fun offset _ => ?_
              exact congrArg source (by omega)
          rw [target] at rest
          have sectors : cur + 1 + (0 + (len - (done + take)) + 511) / 512 = cur +
            (pos + (len - done) + 511) / 512 := by omega
          rw [sectors] at rest
          exact reads.next (moves.next rest (by omega) (by omega)) (by omega) le_rfl
        next result middle failed written =>
          subst called
          exact ⟨reads.next ((dataWrite_moves last (by omega) written).stop failed nofun (by omega))
            (by omega) le_rfl, .inr rfl⟩
      next code scratch loaded failed fetched =>
        subst called
        exact ⟨(blkRead_sector cur last (by omega) fetched).1.stop failed nofun (by omega), .inr rfl⟩
    rw [if_neg more] at called
    subst called
    rw [show len - done = 0 by omega, overlay_zero]
    exact ⟨Moves.idle (Wrote.nil rfl) fun _ _ => rfl, .inl rfl⟩

lemma writeDataBlocks_spec (last : Nat) {first} (addressable : last ≤ lba28Max)
    (fits : first + (offset + len + 511) / 512 ≤ last)
    (called : writeDataBlocks drive before dev first offset address len source = moved) :
    Moves drive dev first (first + (offset + len + 511) / 512) last before moved.blk (moved.result = .ok)
        ((before.devices dev).disk.overlay (512 * first + offset) len source) ∧
        (moved.result = .ok ∨ moved.result = .ioErr) := by
  have limit : lba28Max < u64 := by decide
  rw [writeDataBlocks, Nat.mod_eq_of_lt (by omega)] at called
  obtain ⟨moves, either⟩ := writeLoop_spec last (Nat.mod_lt _ (by decide)) (by omega) (by omega) called
  rw [Nat.sub_zero, shift_zero,
    show 512 * (first + offset / 512) + offset % 512 = 512 * first + offset by omega] at moves
  refine ⟨⟨?_, moves.exact, moves.works⟩, either⟩
  obtain ⟨stores, stored⟩ := moves.stored
  exact ⟨stores, stored.widen (by omega) (by omega)⟩

/-! Relocation. -/

lemma copyBlocks_spec (last : Nat) {first ob} (addressable : last ≤ lba28Max)
    (oldFits : first + ob + count ≤ last) (newFits : newFirst + ob + count ≤ last)
    (apart : first + ob + count ≤ newFirst + ob ∨ newFirst + ob + count ≤ first + ob)
    (called : copyBlocks drive dev first newFirst count ob before = (failure, after)) :
    Moves drive dev (newFirst + ob) (newFirst + ob + count) last before after (failure = none)
      ((before.devices dev).disk.overlay (512 * (newFirst + ob)) (512 * count)
        ((before.devices dev).disk.shift (512 * (first + ob)))) := by
  have limit : lba28Max < u64 := by decide
  induction count generalizing ob before with
  | zero =>
    cases called
    rw [mul_zero, overlay_zero]
    exact Moves.idle (Wrote.nil rfl) fun _ _ => rfl
  | succ count ih =>
    simp only [copyBlocks] at called
    rw [Nat.mod_eq_of_lt (by omega), Nat.mod_eq_of_lt (by omega)] at called
    split at called
    next scratch loaded fetched =>
      obtain ⟨reads, bytes⟩ := blkRead_sector (newFirst + ob) last (by omega) fetched
      split at called
      next middle written =>
        have moves := dataWrite_moves last (by omega) written
        have rest := ih (by omega) (by omega) (by omega) called
        have target : (middle.devices dev).disk.overlay (512 * (newFirst + (ob + 1))) (512 * count)
            ((middle.devices dev).disk.shift (512 * (first + (ob + 1)))) =
            (before.devices dev).disk.overlay (512 * (newFirst + ob)) (512 *
              (count + 1)) ((before.devices dev).disk.shift (512 * (first + ob))) := by
          rw [moves.exact rfl, reads.exact rfl, bytes rfl]
          refine overlay_join (by omega) (by omega) fun offset inside => ?_
          rw [shift_apply, overlay_outside (by omega), shift_apply]
          exact congrArg _ (by omega)
        rw [target, show newFirst + (ob + 1) + count = newFirst + ob + (count + 1) by omega] at rest
        exact reads.next (moves.next rest (by omega) (by omega)) (by omega) le_rfl
      next result middle failed written =>
        cases called
        exact reads.next ((dataWrite_moves last (by omega) written).stop failed nofun (by omega)) (by omega) le_rfl
    next code scratch loaded failed fetched =>
      cases called
      exact (blkRead_sector _ last (by omega) fetched).1.stop failed nofun (by omega)

/-- The bytes of a relocated file: the old ones up to `offset`, the payload up to `stop`, zeroes. -/
def relocated (old source : ByteMemory) (offset stop : Nat) : ByteMemory :=
  fun index => if index < offset then old index else if index < stop then source (index - offset) else 0

lemma patchBlock_eq (inside : index < 512) (reached : offset < boff + 512) (begun : boff < stop)
    (ordered : offset ≤ stop) (kept : boff + index < offset → base index = old (boff + index)) :
    patchBlock base source offset stop boff index = relocated old source offset stop (boff + index) := by
  simp only [patchBlock, relocated]
  generalize lowest : (if offset > boff then offset else boff) = lo
  generalize highest : (if stop < boff + 512 then stop else boff + 512) = hi
  have low : lo = max offset boff := by split at lowest <;> omega
  have high : hi = min stop (boff + 512) := by split at highest <;> omega
  have patched : (base.overlay (lo - boff) (hi - lo) (source.shift (lo - offset))) index =
      if boff + index < offset then old (boff + index) else if boff + index < stop then
        source (boff + index - offset) else base index := by
    by_cases before : boff + index < offset
    · rw [overlay_outside (by omega), if_pos before, kept before]
    rw [if_neg before]
    by_cases payload : boff + index < stop
    · rw [overlay_inside (by omega) (by omega), if_pos payload, shift_apply]
      exact congrArg source (by omega)
    · rw [overlay_outside (by omega), if_neg payload]
  by_cases short : stop < boff + 512
  · rw [if_pos short]
    by_cases tail : stop ≤ boff + index
    · rw [overlay_inside (by omega) (by omega), if_neg (by omega), if_neg (by omega)]
    · rw [overlay_outside (by omega), patched]
      simp only [show boff + index < stop by omega, if_true]
  rw [if_neg short, patched]
  simp only [show boff + index < stop by omega, if_true]

/-- A stored block leads on to the next one, any other reply ends the loop. -/
lemma ok_or_stop {reply : FsResult × Blk.State} {goes : Blk.State → Option String × Blk.State}
    (called : (match reply with | (.ok, blk) => goes blk | (_, blk) => (some "io-data", blk)) = out) :
    reply.1 = .ok ∧ goes reply.2 = out ∨ reply.1 ≠ .ok ∧ (some "io-data", reply.2) = out := by
  split at called
  · exact .inl ⟨rfl, called⟩
  · next failed => exact .inr ⟨failed, called⟩

lemma patchBlocks_spec (last : Nat) {stop rest pb} (addressable : last ≤ lba28Max)
    (fits : newFirst + pb + rest ≤ last) (begun : offset / 512 ≤ pb)
    (whole : pb + rest = (stop + 511) / 512) (ordered : offset ≤ stop) (covered : offset ≤ 512 * count)
    (called : patchBlocks drive dev newFirst count offset stop source rest pb before = (failure, after)) :
    Moves drive dev (newFirst + pb) (newFirst + pb + rest) last before after (failure = none)
      ((before.devices dev).disk.overlay (512 * (newFirst + pb)) (512 * rest)
        ((relocated ((before.devices dev).disk.shift (512 * newFirst)) source offset stop).shift (512 * pb))) := by
  have limit : lba28Max < u64 := by decide
  induction rest generalizing pb before with
  | zero =>
    cases called
    rw [mul_zero, overlay_zero]
    exact Moves.idle (Wrote.nil rfl) fun _ _ => rfl
  | succ rest ih =>
    simp only [patchBlocks] at called
    rw [Nat.mod_eq_of_lt (by omega)] at called
    -- One block composed over `base` and written, then the rest of the loop.
    have compose : ∀ {loaded middle : Blk.State} {base : ByteMemory} {result : FsResult}, (loaded.devices dev).disk =
      (before.devices dev).disk →
        (∀ index, index < 512 → pb * 512 + index < offset →
          base index = ((before.devices dev).disk.shift (512 * newFirst)) (pb * 512 + index)) →
        dataWrite drive loaded dev (newFirst + pb) (patchBlock base source offset stop (pb * 512)) = (result, middle) →
        (result = .ok ∧ patchBlocks drive dev newFirst count offset stop source rest (pb + 1) middle =
          (failure, after) ∨
          result ≠ .ok ∧ (some "io-data", middle) = (failure, after)) →
        Moves drive dev (newFirst + pb) (newFirst + pb + (rest + 1)) last loaded after (failure = none)
          ((before.devices dev).disk.overlay (512 * (newFirst + pb)) (512 * (rest + 1))
            ((relocated ((before.devices dev).disk.shift (512 * newFirst)) source offset stop).shift (512 * pb))) := by
      intro loaded middle base result same kept written finished
      have moves := dataWrite_moves last (by omega) written
      rcases finished with ⟨rfl, finished⟩ | ⟨failed, finished⟩
      · have more := ih (by omega) (by omega) (by omega) finished
        have disk : (middle.devices dev).disk = (before.devices dev).disk.overlay (512 * (newFirst + pb)) 512
            ((relocated ((before.devices dev).disk.shift (512 * newFirst)) source offset stop).shift (512 * pb)) := by
          rw [moves.exact rfl, same]
          refine overlay_congr fun index inside => ?_
          rw [patchBlock_eq inside (by omega) (by omega) ordered (kept index inside), shift_apply, mul_comm pb]
        have target : (middle.devices dev).disk.overlay (512 * (newFirst + (pb + 1))) (512 * rest)
            ((relocated ((middle.devices dev).disk.shift (512 * newFirst)) source offset stop).shift (512 * (pb + 1))) =
            (before.devices dev).disk.overlay (512 * (newFirst + pb)) (512 * (rest + 1))
              ((relocated ((before.devices dev).disk.shift (512 * newFirst)) source offset stop).shift (512 * pb)) := by
          rw [disk]
          refine overlay_join (by omega) (by omega) fun index inside => ?_
          have past : ¬ 512 * pb + (512 + index) < offset := by omega
          rw [shift_apply, shift_apply, show 512 * (pb + 1) + index = 512 * pb + (512 + index) by omega]
          simp only [relocated, past, if_false]
        rw [target, show newFirst + (pb + 1) + rest = newFirst + pb + (rest + 1) by omega] at more
        exact moves.next more (by omega) (by omega)
      · cases finished
        exact moves.stop failed (by simp) (by omega)
    by_cases copied : pb < count
    · rw [if_pos copied] at called
      split at called
      next scratch loaded fetched =>
        obtain ⟨reads, bytes⟩ := blkRead_sector (newFirst + pb) last (by omega) fetched
        refine reads.next (compose (reads.exact rfl) ?_ rfl (ok_or_stop called)) (by omega) le_rfl
        intro index _ _
        rw [bytes rfl, shift_apply, shift_apply]
        exact congrArg _ (by omega)
      next code scratch loaded failed fetched =>
        cases called
        exact (blkRead_sector _ last (by omega) fetched).1.stop failed (by simp) (by omega)
    rw [if_neg copied] at called
    refine compose rfl ?_ rfl (ok_or_stop called)
    intro index _ early
    omega

/-! Reading a range. -/

/-- Whatever a read loop has delivered is what the disk holds. -/
lemma readLoop_spec (last : Nat) {n data moved} (placed : address ≠ 0)
    (within : pos < 512) (enough : n ≤ done + fuel) (started : done ≤ n)
      (fits : cur + (pos + (n - done) + 511) / 512 ≤ last)
    (called : readLoop drive dev address n fuel cur pos done data before = moved) :
    Moves drive dev cur cur last before moved.blk (moved.result = .ok) (before.devices dev).disk ∧
      done ≤ moved.done ∧ moved.done ≤ n ∧ (moved.result = .ok → moved.done = n) ∧
      moved.data = data ++ (before.devices dev).disk.slice (512 * cur + pos) (moved.done - done) := by
  induction fuel generalizing cur pos done data before with
  | zero =>
    subst called
    exact ⟨Moves.idle (Wrote.nil rfl) fun _ _ => rfl, le_rfl, started, fun _ => by simp only [readLoop]; omega, by
      simp [readLoop]⟩
  | succ fuel ih =>
    simp only [readLoop] at called
    by_cases more : done < n
    · rw [if_pos more] at called
      -- The two kinds of transfer differ only in how many bytes of which sectors they deliver.
      have advance : ∀ {loaded : Blk.State} {sectors take : Nat} {bytes : List UInt8} {ok : Prop},
          Moves drive dev cur cur last before loaded ok (before.devices dev).disk → ok → done + take ≤ n → 0 < take →
          (512 * (cur + sectors) = 512 * cur + pos + take ∨ done + take = n) →
            cur + sectors + (0 + (n - (done + take)) + 511) / 512 ≤ last →
          bytes = (before.devices dev).disk.slice (512 * cur + pos) take →
          readLoop drive dev address n fuel (cur + sectors) 0 (done + take) (data ++ bytes) loaded = moved →
          Moves drive dev cur cur last before moved.blk (moved.result = .ok) (before.devices dev).disk ∧
            done ≤ moved.done ∧ moved.done ≤ n ∧ (moved.result = .ok → moved.done = n) ∧
            moved.data = data ++ (before.devices dev).disk.slice (512 * cur + pos) (moved.done - done) := by
        intro loaded sectors take bytes ok reads fine within' positive boundary room delivered finished
        obtain ⟨rest, low, high, complete, collected⟩ := ih (by decide) (by omega) within' room finished
        obtain ⟨stores, stored⟩ := reads.stored
        obtain ⟨later, stored'⟩ := rest.stored
        refine ⟨⟨⟨stores ++ later, stored.trans ⟨stored'.wrote, fun entry member => ?_⟩⟩, ?_, ?_⟩, by
          omega, high, complete, ?_⟩
        · have inside := stored'.confined entry member
          omega
        · intro ok
          rw [rest.exact ok, reads.exact fine]
        · intro works usable
          exact rest.works works (usable.kept stored.wrote)
        · rw [collected, reads.exact fine, delivered, append_assoc]
          rcases boundary with aligned | ended
          · rw [show moved.done - done = take + (moved.done - (done + take)) by omega, slice_add, add_zero, aligned]
          · rw [show moved.done - (done + take) = 0 by omega, slice_zero, append_nil,
              show moved.done - done = take by omega]
      by_cases whole : pos = 0 ∧ n - done ≥ 512 ∧ (address + done) % 2 = 0
      · rw [if_pos whole] at called
        obtain ⟨rfl, large, even⟩ := whole
        generalize chunkSize : (if (n - done) / 512 > 32 then 32 else (n - done) / 512) = chunk at called
        have chunkBound : 0 < chunk ∧ chunk ≤ 32 ∧ 512 * chunk ≤ n - done := by split at chunkSize <;> omega
        split at called
        next bytes loaded fetched =>
          obtain ⟨reads, holds⟩ := blkRead_moves cur last (by omega) chunkBound.1 chunkBound.2.1
            ⟨by omega, even⟩ fetched
          refine advance reads rfl (by omega) (by omega) (.inl (by omega)) (by omega) ?_ called
          rw [holds rfl, slice_shift, add_zero]
        next code bytes loaded failed fetched =>
        subst called
        have reads := (blkRead_moves cur last (by omega) chunkBound.1 chunkBound.2.1 ⟨by omega, even⟩ fetched).1
        exact ⟨reads.stop failed failed le_rfl, le_rfl, started, fun ok => absurd ok failed, by simp⟩
      rw [if_neg whole] at called
      generalize takeSize : (if 512 - pos < n - done then 512 - pos else n - done) = take at called
      have takeBound : 0 < take ∧ pos + take ≤ 512 ∧ take ≤ n - done ∧ (take = n - done ∨ pos + take = 512) := by
        split at takeSize <;> omega
      split at called
      next scratch loaded fetched =>
        obtain ⟨reads, holds⟩ := blkRead_sector cur last (by omega) fetched
        refine advance reads rfl (by omega) (by omega) (by omega) (by omega) ?_ called
        rw [holds rfl, slice_shift]
      next code scratch loaded failed fetched =>
      subst called
      have reads := (blkRead_sector cur last (by omega) fetched).1
      exact ⟨reads.stop failed failed le_rfl, le_rfl, started, fun ok => absurd ok failed, by simp⟩
    rw [if_neg more] at called
    subst called
    exact ⟨Moves.idle (Wrote.nil rfl) fun _ _ => rfl, le_rfl, started, fun _ => by simp only; omega, by simp⟩

end Rynor.Fs
