import Rynor.Proofs.HeapCalls

/-! Whole runs of the heap, with its clients' stores between the calls. -/

namespace Rynor.Heap
open ByteMemory Segments List

variable {s : State} {blocks : List Segment} {cpu : Cpu} {book : Book}

/-- An allocation that is not freed, with the request it answered. -/
structure Live where
  pointer : Nat
  size : Nat
  align : Nat
  deriving DecidableEq

def Live.contains (e : Live) (address : Nat) : Bool :=
  decide (e.pointer ≤ address) && decide (address < e.pointer + e.size)

inductive Op
  | alloc (cpu : Cpu) (size align : Nat) (out : Bool)
  | free (cpu : Cpu) (pointer : Nat)
  | store (address : Nat) (byte : UInt8)

abbrev Book := State × List Live

/-- The calls, and the stores of clients into what they hold. -/
def Op.perform : Op → Book → Book
  | .alloc cpu size align out, (s, live) =>
    match heapAlloc cpu size align out s with
    | (.ok, some pointer, s) => (s, ⟨pointer, size, align⟩ :: live)
    | (_, _, s) => (s, live)
  | .free cpu pointer, (s, live) =>
    match heapFree cpu pointer s with
    | (.ok, s) => (s, live.filter (·.pointer ≠ pointer))
    | (_, s) => (s, live)
  | .store address byte, (s, live) =>
    if live.any (·.contains address) then ({ s with memory := Function.update s.memory address byte }, live)
      else (s, live)

def performAll (ops : List Op) (book : Book) : Book := ops.foldl (fun book op => op.perform book) book

/-- The used blocks are those of the live allocations. -/
structure Owned (blocks : List Segment) (live : List Live) : Prop where
  nodup : (live.map Live.pointer).Nodup
  holder : ∀ b n, Occupied blocks b n → ∃ e ∈ live, e.pointer = blockPayload b
  home : ∀ e ∈ live, ∃ b n, Occupied blocks b n ∧ e.pointer = blockPayload b ∧ neededBytes e.size ≤ n
  aligned : ∀ e ∈ live, e.pointer % e.align = 0

def Kept (book : Book) : Prop := ∃ blocks, Sound book.1 blocks ∧ Owned blocks book.2

lemma blockPayload_inj : blockPayload b = blockPayload c ↔ b = c := by
  unfold blockPayload
  omega

lemma Sound.payload_apart (sound : Sound s blocks) (owned : Owned blocks live) (member : e ∈ live)
    (inside : e.contains address = true) (place : (b, x) ∈ place heapBase blocks) :
    ¬((b ≤ address ∧ address < b + 16) ∨ (b + x.size ≤ address + 16 ∧ address < b + x.size)) := by
  obtain ⟨home, n, occupied, pointer, room⟩ := owned.home e member
  have needs := (neededBytes_spec e.size).1
  simp only [Live.contains, Bool.and_eq_true, decide_eq_true_eq] at inside
  have large := (sound.proper (mem_of_place place)).room
  unfold blockPayload headerBytes footerBytes minBytes at *
  by_cases same : b = home
  · subst same
    obtain rfl := sound.occupied_unique place occupied
    dsimp only
    omega
  have apart := place_disjoint place occupied same
  dsimp only at apart
  omega

lemma Op.perform_kept (op : Op) (kept : Kept book) : Kept (op.perform book) := by
  obtain ⟨s, live⟩ := book
  obtain ⟨blocks, sound, owned⟩ := kept
  dsimp only at sound owned
  cases op with
  | alloc cpu size align out =>
    have outcome := sound.heapAlloc_allocates cpu size align out
    simp only [Op.perform]
    generalize heapAlloc cpu size align out s = call at outcome
    cases outcome with
    | misuse result failed reason | exhausted result _ _ => cases result <;> exact ⟨blocks, sound, owned⟩
    | granted next cut chosen used sound occupied fresh room aligned =>
      refine ⟨cut, sound, nodup_cons.mpr ⟨fun again => ?_, owned.nodup⟩, fun b n taken => ?_, ?_, ?_⟩
      · obtain ⟨e, member, same⟩ := mem_map.mp again
        obtain ⟨b, n, taken, pointer, -⟩ := owned.home e member
        rw [blockPayload_inj.mp (pointer.symm.trans same)] at taken
        exact fresh n taken
      · rcases (occupied b n).mp taken with old | ⟨rfl, rfl⟩
        · obtain ⟨e, member, same⟩ := owned.holder b n old
          exact ⟨e, mem_cons_of_mem _ member, same⟩
        · exact ⟨_, mem_cons_self, rfl⟩
      · refine forall_mem_cons.mpr ⟨⟨chosen, used, (occupied _ _).mpr (.inr ⟨rfl, rfl⟩), rfl, room⟩, fun e member => ?_⟩
        obtain ⟨b, n, taken, pointer, enough⟩ := owned.home e member
        exact ⟨b, n, (occupied b n).mpr (.inl taken), pointer, enough⟩
      · exact forall_mem_cons.mpr ⟨aligned, owned.aligned⟩
  | free cpu pointer =>
    have outcome := sound.heapFree_releases cpu pointer
    simp only [Op.perform]
    generalize heapFree cpu pointer s = call at outcome
    cases outcome with
    | misuse result failed reason | notLive result failed _ => cases result <;>
      first | exact ⟨blocks, sound, owned⟩ | exact absurd rfl failed
    | released next joined cursor size sound taken here occupied =>
      subst here
      refine ⟨joined, sound, owned.nodup.sublist (filter_sublist.map _), fun b n there => ?_, fun e member => ?_,
        fun e member => ?_⟩
      · obtain ⟨old, apart⟩ := (occupied b n).mp there
        obtain ⟨e, member, same⟩ := owned.holder b n old
        refine ⟨e, mem_filter.mpr ⟨member, ?_⟩, same⟩
        simpa [same, blockPayload_inj] using apart
      · obtain ⟨member, apart⟩ := mem_filter.mp member
        obtain ⟨b, n, old, same, room⟩ := owned.home e member
        refine ⟨b, n, (occupied b n).mpr ⟨old, ?_⟩, same, room⟩
        simpa [same, blockPayload_inj] using apart
      · exact owned.aligned e (mem_filter.mp member).1
  | store address byte =>
    simp only [Op.perform]
    split
    next held =>
      obtain ⟨e, member, inside⟩ := any_eq_true.mp held
      refine ⟨blocks, { sound with tiled := fun b x there => ?_ }, owned⟩
      refine (sound.tiled b x there).congr fun i tag => Function.update_of_ne (fun same => ?_) _ _
      exact sound.payload_apart owned member inside there (same ▸ tag)
    · exact ⟨blocks, sound, owned⟩

lemma performAll_kept (ops : List Op) (kept : Kept book) : Kept (performAll ops book) :=
  List.foldlRecOn (motive := Kept) ops _ kept fun _ before op _ => op.perform_kept before

lemma heapInitialize_sound (made : heapInitialize cpu backing boot = .ok (.ok, start)) :
    Sound start [⟨arenaBytes, true⟩] := by
  unfold heapInitialize at made
  iterate 3
    split at made
    · cases made
  split at made
  next taken => exact absurd (congrArg Prod.fst (Except.ok.inj made)) taken
  split at made
  · cases made
  split at made
  next failed =>
    split at made
    · cases made
    · cases made
      exact absurd rfl failed
  · cases made
    exact ⟨rfl, rfl, tiled_singleton (publish_marked (by decide) (by decide) (by decide)), rfl,
      isChain_singleton _, rfl, rfl, rfl⟩

lemma Sound.unused_owned (sound : Sound s [⟨arenaBytes, true⟩]) : Kept (s, []) := by
  refine ⟨_, sound, nodup_nil, fun b n taken => ?_, fun e member => ?_, fun e member => ?_⟩
  · cases mem_singleton.mp taken
  · cases member
  · cases member

/-! What the ledger says about the calls to come. -/

section
variable {live : List Live}

lemma Owned.bounds (owned : Owned blocks live) (sound : Sound s blocks) (member : e ∈ live) :
    heapBase + headerBytes ≤ e.pointer ∧ e.pointer + e.size + footerBytes ≤ heapEnd := by
  obtain ⟨b, n, occupied, same, room⟩ := owned.home e member
  have bounds := place_bounds occupied
  have needs := (neededBytes_spec e.size).1
  rw [sound.whole] at bounds
  unfold blockPayload at same
  unfold heapEnd
  dsimp only at bounds
  omega

lemma Owned.apart (owned : Owned blocks live) (first : e ∈ live) (second : f ∈ live) (other : e.pointer ≠ f.pointer) :
    e.pointer + e.size ≤ f.pointer ∨ f.pointer + f.size ≤ e.pointer := by
  obtain ⟨b, n, occupied, same, room⟩ := owned.home e first
  obtain ⟨c, m, alsoOccupied, alsoSame, alsoRoom⟩ := owned.home f second
  have apart := place_disjoint occupied alsoOccupied fun equal => other (by rw [same, alsoSame, equal])
  have needs := (neededBytes_spec e.size).1
  have alsoNeeds := (neededBytes_spec f.size).1
  unfold blockPayload headerBytes footerBytes at *
  dsimp only at apart
  omega

lemma Sound.heapAlloc_fails (sound : Sound s blocks) (foreground : cpu.foreground = true)
    (some_ : size ≠ 0) (valid : validAlign align = true) (failed : (heapAlloc cpu size align true s).1 ≠ .ok)
    (place : (b, x) ∈ place heapBase blocks) (free : x.free = true) : ¬Hosts b x.size size align := by
  have outcome := sound.heapAlloc_allocates cpu size align true
  generalize heapAlloc cpu size align true s = call at outcome failed
  cases outcome with
  | misuse result failed reason => simp [foreground, some_, valid] at reason
  | exhausted result failed missing => exact missing b x place free
  | granted => exact absurd rfl failed

lemma Owned.heapFree_rejects (owned : Owned blocks live) (sound : Sound s blocks) (cpu : Cpu)
    (notLive : ∀ e ∈ live, e.pointer ≠ pointer) : ∃ result, result ≠ .ok ∧ heapFree cpu pointer s = (result, s) := by
  have outcome := sound.heapFree_releases cpu pointer
  generalize heapFree cpu pointer s = call at outcome
  cases outcome with
  | misuse result failed reason | notLive result failed _ => exact ⟨result, failed, rfl⟩
  | released next joined cursor size sound taken here occupied =>
    obtain ⟨e, member, same⟩ := owned.holder cursor size taken
    exact absurd (same.trans here) (notLive e member)

lemma Kept.free_live (kept : Kept (s, live)) (foreground : cpu.foreground = true) (pointer : Nat) :
    ((Op.free cpu pointer).perform (s, live)).2 = live.filter (·.pointer ≠ pointer) := by
  obtain ⟨blocks, sound, owned⟩ := kept
  have outcome := sound.heapFree_releases cpu pointer
  simp only [Op.perform]
  generalize heapFree cpu pointer s = call at outcome
  cases outcome with
  | misuse result failed reason =>
    rw [foreground] at reason
    cases reason
  | notLive result failed missing =>
    have none : live.filter (·.pointer ≠ pointer) = live := filter_eq_self.mpr fun e member => by
      obtain ⟨b, n, taken, same, -⟩ := owned.home e member
      simpa [same] using missing b n taken
    cases result <;> first | exact none.symm | exact absurd rfl failed
  | released => rfl

lemma Kept.free_all (kept : Kept book) (foreground : cpu.foreground = true) (order : List Nat) :
    (performAll (order.map (.free cpu)) book).2 = book.2.filter (fun e => e.pointer ∉ order) := by
  induction order generalizing book with
  | nil => simp [performAll]
  | cons pointer order ih =>
    have next := (Op.free cpu pointer).perform_kept kept
    have done := ih next
    rw [Kept.free_live kept foreground, filter_filter] at done
    refine done.trans (filter_congr fun e _ => ?_)
    simp [Bool.and_comm]

/-- Without a live allocation the arena is one free block again. -/
lemma Kept.single (kept : Kept (s, [])) : Sound s [⟨arenaBytes, true⟩] := by
  obtain ⟨blocks, sound, owned⟩ := kept
  have unused : usedCount blocks = 0 := by
    refine countP_eq_zero.mpr fun x member used => ?_
    obtain ⟨size, free⟩ := x
    obtain rfl : free = false := by simpa using used
    obtain ⟨before, after, rfl⟩ := append_of_mem member
    obtain ⟨e, none, -⟩ := owned.holder _ size (mem_place_iff.mpr ⟨before, after, rfl, rfl⟩)
    cases none
  have single := sound.settled.single unused (by rw [sound.whole]; decide)
  rw [sound.whole] at single
  exact single ▸ sound

end

/-- After the initialisation and every sequence of calls, with any stores of the clients into
live payloads between them: the check passes, the live payloads are aligned, inside the arena
and disjoint, no two free blocks are neighbours, a proper request fails only if no free block
can host it, the release of anything else changes nothing, and releasing what is live, in any
order, restores the one free block. -/
theorem heap_stays_sound {cpu : Cpu} {backing : Backing} {boot start : State}
    (made : heapInitialize cpu backing boot = .ok (.ok, start)) (ops : List Op) {s : State} {live : List Live}
    (ran : performAll ops (start, []) = (s, live)) :
    (∀ cpu, cpu.foreground = true → heapCheck cpu s = true) ∧
      (∀ e ∈ live, heapBase + headerBytes ≤ e.pointer ∧ e.pointer + e.size + footerBytes ≤ heapEnd ∧
        e.pointer % e.align = 0) ∧
      (live.Pairwise fun e f => e.pointer + e.size ≤ f.pointer ∨ f.pointer + f.size ≤ e.pointer) ∧
      (∃ blocks, Tiled s.memory heapBase blocks ∧ total blocks = arenaBytes ∧ Settled blocks ∧
        ∀ cpu size align, cpu.foreground = true → size ≠ 0 → validAlign align = true →
        (heapAlloc cpu size align true s).1 ≠ .ok →
          ∀ b x, (b, x) ∈ place heapBase blocks → x.free = true → ¬Hosts b x.size size align) ∧
      (∀ cpu pointer, (∀ e ∈ live, e.pointer ≠ pointer) → ∃ result, result ≠ .ok ∧
        heapFree cpu pointer s = (result, s)) ∧
      (∀ (cpu : Cpu) (order : List Nat), cpu.foreground = true → order.Perm (live.map Live.pointer) →
        ∃ final, performAll (order.map (.free cpu)) (s, live) = (final, []) ∧
        hb final.memory heapBase = hb start.memory heapBase ∧
          hb final.memory (heapEnd - footerBytes) = hb start.memory (heapEnd - footerBytes) ∧
          hb final.memory heapBase = ⟨arenaBytes, freeMagic⟩ ∧ final.used = start.used ∧
          final.usedBlocks = start.usedBlocks ∧
          final.freeBlocks = start.freeBlocks ∧ final.mapped = start.mapped) := by
  have initial := heapInitialize_sound made
  have kept := ran ▸ performAll_kept ops initial.unused_owned
  obtain ⟨blocks, sound, owned⟩ := kept
  dsimp only at sound owned
  refine ⟨fun cpu => sound.check, fun e member => ?_, (pairwise_map.mp owned.nodup).imp_of_mem fun first second =>
    owned.apart first second, ⟨blocks, sound.tiled, sound.whole, sound.settled, ?_⟩,
    fun cpu pointer => owned.heapFree_rejects sound cpu, fun cpu order foreground all => ?_⟩
  · obtain ⟨low, high⟩ := owned.bounds sound member
    exact ⟨low, high, owned.aligned e member⟩
  · exact fun cpu size align foreground some_ valid failed b x => sound.heapAlloc_fails foreground some_ valid failed
  have emptied : (performAll (order.map (.free cpu)) (s, live)).2 = [] := by
    rw [Kept.free_all ⟨blocks, sound, owned⟩ foreground]
    refine filter_eq_nil_iff.mpr fun e member => ?_
    simpa using all.mem_iff.mpr (mem_map_of_mem member)
  have last : Kept ((performAll (order.map (.free cpu)) (s, live)).1, []) := by
    rw [← emptied]
    exact performAll_kept _ ⟨blocks, sound, owned⟩
  have final := last.single
  have before := (tiled_cons.mp initial.tiled).1
  have after := (tiled_cons.mp final.tiled).1
  refine ⟨_, Prod.ext rfl emptied, after.header.trans before.header.symm, after.footer.trans before.footer.symm,
    after.header,
    final.used.trans initial.used.symm, final.usedBlocks.trans initial.usedBlocks.symm,
      final.freeBlocks.trans initial.freeBlocks.symm,
    final.mapped.trans initial.mapped.symm⟩

/-- A backing that grants every page. -/
def grantsAll : Backing where
  space := true
  query _ := .notMapped
  allocate _ := .ok
  map _ := .ok
  release _ := true
  unmap _ := true

/-- Two blocks, the second with a gap in front of it; a store that looks like a tag; the first
block back. -/
def sampleOps (cpu : Cpu) : List Op :=
  [.alloc cpu 40 8 true, .alloc cpu 100 256 true, .store 0xffffc00000000100 0x43, .free cpu 0xffffc00000000010]

theorem heap_stays_sound_after_four_steps :
    ∃ start s, heapInitialize ⟨true, false⟩ grantsAll ⟨fun _ => 0, 0, 0, 0, 0, false⟩ = .ok (.ok, start) ∧
      performAll (sampleOps ⟨true, false⟩) (start, []) = (s, [⟨0xffffc00000000100, 100, 256⟩]) ∧
      heapCheck ⟨true, false⟩ s = true ∧ ∃ result, result ≠ .ok ∧ heapFree ⟨true, false⟩ 0xffffc00000000010 s =
      (result, s) := by
  have made : heapInitialize ⟨true, false⟩ grantsAll ⟨fun _ => 0, 0, 0, 0, 0, false⟩ =
      .ok (.ok, ⟨publish (fun _ => 0) heapBase arenaBytes true, arenaBytes, 0, 0, 1, true⟩) := rfl
  have live : (performAll (sampleOps ⟨true, false⟩)
    (⟨publish (fun _ => 0) heapBase arenaBytes true, arenaBytes, 0, 0, 1, true⟩, [])).2 =
      [⟨0xffffc00000000100, 100, 256⟩] := by decide +kernel
  have sound := heap_stays_sound made (sampleOps ⟨true, false⟩) (Prod.ext rfl live)
  exact ⟨_, _, made, Prod.ext rfl live, sound.1 _ rfl, sound.2.2.2.2.1 _ _ (by decide)⟩

end Rynor.Heap
