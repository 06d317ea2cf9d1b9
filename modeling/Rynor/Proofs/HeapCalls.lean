import Rynor.Proofs.HeapBlocks

/-! What the calls of the heap do to an arena that its check accepts. -/

namespace Rynor.Heap
open ByteMemory Segments List
variable {x : Segment} {lead used tail size : Nat} {next : State} {left right : List Segment}

variable {memory : ByteMemory} {a b n : Nat} {s : State} {blocks before old new after xs : List Segment}

/-- The arena is tiled with blocks, no two free ones side by side, and the counters agree. -/
structure Sound (s : State) (blocks : List Segment) : Prop where
  ready : s.ready = true
  mapped : s.mapped = arenaBytes
  tiled : Tiled s.memory heapBase blocks
  whole : total blocks = arenaBytes
  settled : Settled blocks
  used : s.used = usedBytes blocks
  usedBlocks : s.usedBlocks = usedCount blocks
  freeBlocks : s.freeBlocks = freeCount blocks

lemma Sound.steps (sound : Sound s blocks) : blocks.length < maxSteps := by
  have bound := sound.tiled.length_le
  rw [sound.whole] at bound
  unfold maxSteps arenaBytes minBytes at *
  omega

lemma Sound.check (sound : Sound s blocks) (foreground : cpu.foreground = true) : heapCheck cpu s = true := by
  obtain ⟨last, ran⟩ := @checkFrom_tiled s.memory heapBase blocks maxSteps ⟨0, 0, 0, false⟩ sound.tiled
    (by rw [sound.whole]; rfl)
    sound.settled (fun no => by cases no) sound.steps
  simp [heapCheck, foreground, sound.ready, ran, sound.used, sound.usedBlocks, sound.freeBlocks, sound.mapped]

/-! Blocks in the place of others. -/

/-- The tags of a list of blocks, one block after the other. -/
def publishAll (memory : ByteMemory) : Nat → List Segment → ByteMemory
  | _, [] => memory
  | a, x :: xs => publishAll (publish memory a x.size x.free) (a + x.size) xs

/-- A size that a block can have. -/
structure Proper (x : Segment) : Prop where
  room : minBytes ≤ x.size
  whole : x.size % granule = 0
  fits : x.size < 256 ^ 8

lemma publishAll_outside (proper : ∀ x ∈ xs, Proper x) (outside : i < a ∨ a + total xs ≤ i) :
    publishAll memory a xs i = memory i := by
  induction xs generalizing memory a with
  | nil => rfl
  | cons x xs ih =>
    rw [total_cons] at outside
    rw [publishAll, ih (fun y member => proper y (mem_cons_of_mem _ member)) (by omega),
      publish_outside (proper x mem_cons_self).room (by omega)]

lemma publishAll_tiled (proper : ∀ x ∈ xs, Proper x) : Tiled (publishAll memory a xs) a xs := by
  induction xs generalizing memory a with
  | nil => exact tiled_nil
  | cons x xs ih =>
    have rest : ∀ y ∈ xs, Proper y := fun y member => proper y (mem_cons_of_mem _ member)
    obtain ⟨room, whole, fits⟩ := proper x mem_cons_self
    refine tiled_cons.mpr ⟨(publish_marked room whole fits).congr fun i inside =>
      publishAll_outside rest (.inl ?_), ih rest⟩
    unfold minBytes at room
    dsimp only at inside
    omega

/-- New blocks take the room of old ones; the blocks around them keep their tags. -/
lemma Tiled.replace (tiled : Tiled memory a (before ++ (old ++ after))) (proper : ∀ x ∈ new, Proper x)
    (same : total new = total old) :
    Tiled (publishAll memory (a + total before) new) a (before ++ (new ++ after)) := by
  obtain ⟨first, rest⟩ := tiled_append.mp tiled
  obtain ⟨-, last⟩ := tiled_append.mp rest
  refine tiled_append.mpr ⟨first.congr fun i low high => publishAll_outside proper (by omega),
    tiled_append.mpr ⟨publishAll_tiled proper, ?_⟩⟩
  rw [same]
  exact last.congr fun i low high => publishAll_outside proper (by omega)

lemma Sound.replace (sound : Sound s (before ++ (old ++ after))) (proper : ∀ x ∈ new, Proper x)
    (same : total new = total old) (settled : Settled (before ++ (new ++ after))) {next}
    (memory : next.memory = publishAll s.memory (heapBase + total before) new)
    (ready : next.ready = s.ready) (mapped : next.mapped = s.mapped)
    (used : next.used + usedBytes old = s.used + usedBytes new)
    (usedBlocks : next.usedBlocks + usedCount old = s.usedBlocks + usedCount new)
    (freeBlocks : next.freeBlocks + freeCount old = s.freeBlocks + freeCount new) :
    Sound next (before ++ (new ++ after)) where
  ready := ready.trans sound.ready
  mapped := mapped.trans sound.mapped
  tiled := memory ▸ sound.tiled.replace proper same
  whole := by
    have whole := sound.whole
    simp only [total_append] at whole ⊢
    omega
  settled := settled
  used := by
    have count := sound.used
    simp only [usedBytes_append] at count ⊢
    omega
  usedBlocks := by
    have count := sound.usedBlocks
    simp only [usedCount_append] at count ⊢
    omega
  freeBlocks := by
    have count := sound.freeBlocks
    simp only [freeCount_append] at count ⊢
    omega

/-- A used block of `n` bytes starts at `b`. -/
def Occupied (blocks : List Segment) (b n : Nat) : Prop := (b, ⟨n, false⟩) ∈ place heapBase blocks

lemma Sound.proper (sound : Sound s blocks) (member : x ∈ blocks) : Proper x := by
  obtain ⟨place, marked⟩ := sound.tiled.marked member
  obtain ⟨first, last, rfl⟩ := append_of_mem member
  refine ⟨marked.room, marked.whole, ?_⟩
  have whole := sound.whole
  rw [total_append, total_cons] at whole
  unfold arenaBytes at whole
  omega

lemma Sound.occupied_unique (sound : Sound s blocks) (first : (b, x) ∈ place heapBase blocks)
    (second : Occupied blocks b n) : x = ⟨n, false⟩ :=
  place_unique (fun y member => lt_of_lt_of_le (by decide) (sound.proper member).room) first second

/-! Allocation. -/

/-- The arguments that the code refuses at once. -/
def validAlign (align : Nat) : Bool :=
  decide (alignMin ≤ align) && decide (align ≤ alignMax) && Alignment.isPowerOfTwo align

/-- What a call can come to. -/
inductive Allocates (s : State) (blocks : List Segment) (cpu : Cpu) (size align : Nat) (out : Bool) :
    Result × Option Nat × State → Prop
  | misuse (result : Result) (failed : result ≠ .ok)
      (reason : cpu.foreground = false ∨ out = false ∨ size = 0 ∨ validAlign align = false) :
      Allocates s blocks cpu size align out (result, none, s)
  | exhausted (result : Result) (failed : result ≠ .ok)
      (missing : ∀ b x, (b, x) ∈ place heapBase blocks → x.free = true → ¬Hosts b x.size size align) :
      Allocates s blocks cpu size align out (result, none, s)
  | granted (next : State) (cut : List Segment) (chosen used : Nat) (sound : Sound next cut)
      (occupied : ∀ b n, Occupied cut b n ↔ Occupied blocks b n ∨ (b = chosen ∧ n = used))
      (fresh : ∀ n, ¬Occupied blocks chosen n) (room : neededBytes size ≤ used)
        (aligned : blockPayload chosen % align = 0) :
      Allocates s blocks cpu size align out (.ok, some (blockPayload chosen), next)

lemma mem_place_carve : (b, ⟨n, false⟩) ∈ place a (carve lead used tail) ↔ b = a + lead ∧ n = used := by
  unfold carve
  split_ifs with noLead noTail noTail <;> simp_all [place]

lemma occupied_carve (sum : lead + used + tail = size) : Occupied (before ++ (carve lead used tail ++ after)) b n ↔
      Occupied (before ++ ⟨size, true⟩ :: after) b n ∨ (b = heapBase + total before + lead ∧ n = used) := by
  simp only [Occupied, place_append, place, carve_total, sum, mem_append, mem_cons, mem_place_carve, Prod.mk.injEq,
    Segment.mk.injEq,
    Bool.false_eq_true, and_false, false_or]
  tauto

lemma Sound.carve (sound : Sound s (before ++ (⟨size, true⟩ :: after))) (sum : lead + used + tail = size)
    (leadRoom : lead = 0 ∨ minBytes ≤ lead) (tailRoom : tail = 0 ∨ minBytes ≤ tail) (usedRoom : minBytes ≤ used)
    (leadWhole : lead % granule = 0) (usedWhole : used % granule = 0)
    (memory : next.memory = publishAll s.memory (heapBase + total before) (carve lead used tail))
    (ready : next.ready = s.ready) (mapped : next.mapped = s.mapped) (usedBytes : next.used = s.used + used)
    (usedBlocks : next.usedBlocks = s.usedBlocks + 1)
    (freeBlocks : next.freeBlocks = s.freeBlocks - 1 + (if lead ≠ 0 then 1 else 0) + (if tail ≠ 0 then 1 else 0)) :
    Sound next (before ++ (Segments.carve lead used tail ++ after)) := by
  have whole : Proper ⟨size, true⟩ := sound.proper (by simp)
  have sizeWhole := whole.whole
  have sizeFits := whole.fits
  dsimp only at sizeWhole sizeFits
  have tailWhole : tail % granule = 0 := by
    unfold granule at *
    omega
  have some_ : 0 < s.freeBlocks := by
    rw [sound.freeBlocks, freeCount_append, freeCount_cons, if_pos rfl]
    omega
  refine @Sound.replace s before [⟨size, true⟩] (Segments.carve lead used tail) after sound ?_ ?_ ?_ next memory
    ready mapped ?_ ?_ ?_
  · intro x member
    simp only [Segments.carve, mem_append, mem_cons, mem_ite_nil_left, not_mem_nil, or_false] at member
    rcases member with ⟨some_, rfl⟩ | rfl | ⟨some_, rfl⟩
    · exact ⟨leadRoom.resolve_left some_, leadWhole, by dsimp only; omega⟩
    · exact ⟨usedRoom, usedWhole, by dsimp only; omega⟩
    · exact ⟨tailRoom.resolve_left some_, tailWhole, by dsimp only; omega⟩
  · rw [carve_total, sum]
    rfl
  · exact sound.settled.carve lead used tail
  · rw [usedBytes]
    unfold Segments.carve
    split_ifs <;> simp [Segments.usedBytes]
  · rw [usedBlocks]
    unfold Segments.carve
    split_ifs <;> simp [usedCount]
  · rw [freeBlocks]
    unfold Segments.carve
    split_ifs <;> simp [freeCount] <;> omega

lemma Sound.start_whole (sound : Sound s (before ++ xs)) : (heapBase + total before) % granule = 0 := by
  have whole := (tiled_append.mp sound.tiled).1.total_whole
  unfold heapBase granule at *
  omega

lemma Sound.heapAlloc_allocates (sound : Sound s blocks) (cpu : Cpu) (size align : Nat) (out : Bool) :
    Allocates s blocks cpu size align out (heapAlloc cpu size align out s) := by
  unfold heapAlloc
  split
  next background => exact .misuse _ (by decide) (.inl (by simpa using background))
  next foreground =>
  rw [if_neg (by simp [sound.ready])]
  split
  next null => exact .misuse _ (by decide) (.inr (.inl (by simpa using null)))
  -- A block has at most the bytes of the arena.
  have tooMuch (large : neededBytes size > arenaBytes) (b : Nat) (x : Segment) (member : (b, x) ∈ place heapBase blocks)
      (_ : x.free = true) : ¬Hosts b x.size size align := by
    rintro ⟨lead, -, -, fits⟩
    have bounds := place_bounds member
    rw [sound.whole] at bounds
    omega
  split
  next odd =>
    by_cases none : size = 0
    · exact .misuse _ (by decide) (.inr (.inr (.inl none)))
    · refine .exhausted _ (by decide) (tooMuch ?_)
      have enough := (neededBytes_spec size).1
      have large := odd.resolve_left none
      unfold u64 headerBytes footerBytes granule at *
      unfold arenaBytes
      omega
  split
  next odd =>
    refine .misuse _ (by decide) (.inr (.inr (.inr ?_)))
    simp only [validAlign, Bool.and_eq_false_iff, decide_eq_false_iff_not]
    rcases odd with low | high | single
    · exact .inl (.inl (not_le.mpr low))
    · exact .inl (.inr (not_le.mpr high))
    · exact .inr (by simpa using single)
  next valid =>
  simp only [not_or, Bool.not_eq_true', Bool.not_eq_false] at valid
  have power := valid.2.2
  have positive := Alignment.pos power
  rw [if_neg (by simp [sound.check (by simpa using foreground)])]
  split
  next large => exact .exhausted _ (by decide) (tooMuch large)
  rcases @findBlock_tiled s.memory heapBase blocks align (neededBytes size) maxSteps sound.tiled
    (by rw [sound.whole]; rfl) sound.steps with
    ⟨before, room, after, rfl, found, fits⟩ | ⟨missed, small⟩
  · rw [found]
    dsimp only
    have gap := leadGap_spec (heapBase + total before) positive
    have gapWhole := leadGap_whole power sound.start_whole
    have needs := neededBytes_spec size
    generalize leadGap align (heapBase + total before) = lead at fits gap gapWhole ⊢
    have roomWhole := (sound.proper (by simp : (⟨room, true⟩ : Segment) ∈ before ++ ⟨room, true⟩ :: after)).whole
    obtain ⟨rest, restIs⟩ : ∃ rest, rest = room - lead - neededBytes size := ⟨_, rfl⟩
    obtain ⟨used, usedIs⟩ : ∃ used, used = if rest < minBytes then neededBytes size + rest else neededBytes size :=
      ⟨_, rfl⟩
    obtain ⟨tail, tailIs⟩ : ∃ tail, tail = if rest < minBytes then 0 else rest := ⟨_, rfl⟩
    rw [← restIs, ← usedIs, ← tailIs]
    have parts : lead + used + tail = room ∧ (tail = 0 ∨ minBytes ≤ tail) ∧ neededBytes size ≤ used ∧
      used % granule = 0 := by
      unfold granule at *
      dsimp only at roomWhole
      rw [usedIs, tailIs]
      split_ifs <;> omega
    obtain ⟨sum, tailRoom, usedRoom, usedWhole⟩ := parts
    have positiveUsed : minBytes ≤ used := by
      unfold headerBytes footerBytes granule minBytes at *
      omega
    refine .granted _ (before ++ (Segments.carve lead used tail ++ after)) (heapBase + total before + lead) used ?_
      ?_ ?_ usedRoom gap.1
    · refine sound.carve sum gap.2.1 tailRoom positiveUsed gapWhole usedWhole (Eq.symm ?_) rfl rfl rfl rfl rfl
      by_cases noLead : lead = 0 <;> by_cases noTail : tail = 0 <;> simp [Segments.carve, noLead, noTail, publishAll]
    · exact fun b n => occupied_carve sum
    intro n taken
    have here : (heapBase + total before, (⟨room, true⟩ : Segment)) ∈ place heapBase
      (before ++ ⟨room, true⟩ :: after) :=
      mem_place_iff.mpr ⟨before, after, rfl, rfl⟩
    have positive : 0 < minBytes := by decide
    by_cases same : lead = 0
    · rw [same, add_zero] at taken
      cases sound.occupied_unique here taken
    · have apart := place_disjoint here taken (by omega)
      dsimp only at apart
      omega
  · rw [missed]
    refine .exhausted _ (by decide) fun b x member isFree => ?_
    rw [hosts_iff positive]
    exact not_le.mpr (small b x member isFree)

/-! Release. -/

/-- What a release can come to. -/
inductive Releases (s : State) (blocks : List Segment) (cpu : Cpu) (pointer : Nat) : Result × State → Prop
  | misuse (result : Result) (failed : result ≠ .ok) (reason : cpu.foreground = false) :
  Releases s blocks cpu pointer (result, s)
  | notLive (result : Result) (failed : result ≠ .ok) (missing : ∀ b n, Occupied blocks b n →
    blockPayload b ≠ pointer) :
      Releases s blocks cpu pointer (result, s)
  | released (next : State) (joined : List Segment) (cursor size : Nat) (sound : Sound next joined)
    (taken : Occupied blocks cursor size)
      (here : blockPayload cursor = pointer) (occupied : ∀ b n, Occupied joined b n ↔
        Occupied blocks b n ∧ b ≠ cursor) :
      Releases s blocks cpu pointer (.ok, next)

/-- A used block given back, together with the free blocks on its sides. -/
lemma occupied_join (leftFree : ∀ x ∈ left, x.free = true) (rightFree : ∀ x ∈ right, x.free = true)
    (proper : ∀ x ∈ before ++ (left ++ ⟨size, false⟩ :: right ++ after), Proper x) :
    Occupied (before ++ ([⟨size + total right + total left, true⟩] ++ after)) b n ↔
      Occupied (before ++ (left ++ ⟨size, false⟩ :: right ++ after)) b n ∧
      b ≠ heapBase + total before + total left := by
  have sum : total (left ++ ⟨size, false⟩ :: right) = size + total right + total left := by
    simp only [total_append, total_cons]
    omega
  have room (member : (⟨n, false⟩ : Segment) ∈ before ++ (left ++ ⟨size, false⟩ :: right ++ after)) : 0 < n :=
    lt_of_lt_of_le (by decide) (proper _ member).room
  have positive : 0 < size := lt_of_lt_of_le (by decide) (proper ⟨size, false⟩ (by simp)).room
  simp only [Occupied, place_append, singleton_append, place, sum, mem_append, mem_cons]
  constructor
  · rintro (first | other | last)
    · have bounds := place_bounds first
      have nonempty := room (by simp [mem_of_place first])
      dsimp only at bounds
      exact ⟨.inl first, by omega⟩
    · cases other
    · have bounds := place_bounds last
      exact ⟨.inr (.inr last), by omega⟩
  rintro ⟨first | (inLeft | here | inRight) | last, apart⟩
  · exact .inl first
  · cases leftFree _ (mem_of_place inLeft)
  · exact absurd (congrArg Prod.fst here) apart
  · cases rightFree _ (mem_of_place inRight)
  · exact .inr (.inr last)

lemma Sound.join (sound : Sound s (before ++ (left ++ ⟨size, false⟩ :: right ++ after)))
    (leftFree : ∀ x ∈ left, x.free = true) (rightFree : ∀ x ∈ right, x.free = true)
    (endsUsed : ∀ x ∈ before.getLast?, x.free = false) (startsUsed : ∀ x ∈ after.head?, x.free = false)
    (memory : next.memory = publish s.memory (heapBase + total before) (size + total right + total left) true)
    (ready : next.ready = s.ready) (mapped : next.mapped = s.mapped) (used : next.used = s.used - size)
    (usedBlocks : next.usedBlocks = s.usedBlocks - 1)
    (freeBlocks : next.freeBlocks = s.freeBlocks - right.length - left.length + 1) :
    Sound next (before ++ ([⟨size + total right + total left, true⟩] ++ after)) := by
  obtain ⟨leftBytes, leftUsed, leftCount⟩ := all_free_counts leftFree
  obtain ⟨rightBytes, rightUsed, rightCount⟩ := all_free_counts rightFree
  have sum : total (left ++ ⟨size, false⟩ :: right) = size + total right + total left := by
    simp only [total_append, total_cons]
    omega
  have bytes : usedBytes (left ++ ⟨size, false⟩ :: right) = size := by
    simp [usedBytes_append, usedBytes_cons, leftBytes, rightBytes]
  have count : usedCount (left ++ ⟨size, false⟩ :: right) = 1 := by
    simp [usedCount_append, usedCount_cons, leftUsed, rightUsed]
  have frees : freeCount (left ++ ⟨size, false⟩ :: right) = left.length + right.length := by
    simp [freeCount_append, freeCount_cons, leftCount, rightCount]
  have oldUsed := sound.used
  have oldCount := sound.usedBlocks
  have oldFrees := sound.freeBlocks
  have whole := sound.whole
  rw [usedBytes_append, usedBytes_append, bytes] at oldUsed
  rw [usedCount_append, usedCount_append, count] at oldCount
  rw [freeCount_append, freeCount_append, frees] at oldFrees
  rw [total_append, total_append, sum] at whole
  have middleWhole := (tiled_append.mp (tiled_append.mp sound.tiled).2).1.total_whole
  have room := (sound.proper (by simp : (⟨size, false⟩ : Segment) ∈ before ++
    (left ++ ⟨size, false⟩ :: right ++ after))).room
  rw [sum] at middleWhole
  obtain ⟨settledBefore, settledRest, -⟩ := isChain_append.mp sound.settled
  obtain ⟨-, settledAfter, -⟩ := isChain_append.mp settledRest
  refine sound.replace (fun x member => ?_) (by rw [sum]; rfl) (settled_free.mpr ⟨settledBefore, settledAfter,
    endsUsed, startsUsed⟩) memory ready
    mapped ?_ ?_ ?_
  · rw [mem_singleton] at member
    subst member
    refine ⟨?_, middleWhole, ?_⟩
    · dsimp only at room ⊢
      omega
    · unfold arenaBytes at whole
      dsimp only
      omega
  · rw [used, bytes, oldUsed]
    simp [usedBytes]
    omega
  · rw [usedBlocks, count, oldCount]
    simp [usedCount]
    omega
  · rw [freeBlocks, frees, oldFrees]
    simp [freeCount]
    omega

lemma Sound.heapFree_releases (sound : Sound s blocks) (cpu : Cpu) (pointer : Nat) :
    Releases s blocks cpu pointer (heapFree cpu pointer s) := by
  have positive : 0 < minBytes := by decide
  have start (b n : Nat) (taken : Occupied blocks b n) : heapBase ≤ b ∧ b + minBytes ≤ heapEnd ∧ b % granule = 0 := by
    obtain ⟨first, last, rfl, rfl⟩ := mem_place_iff.mp taken
    have bounds := place_bounds taken
    have room := (sound.proper (by simp : (⟨n, false⟩ : Segment) ∈ first ++ ⟨n, false⟩ :: last)).room
    rw [sound.whole] at bounds
    exact ⟨bounds.1, by unfold heapEnd; dsimp only at room bounds; omega, sound.start_whole⟩
  unfold heapFree
  split
  next background => exact .misuse _ (by decide) (by simpa using background)
  next foreground =>
  rw [if_neg (by simp [sound.ready])]
  split
  next odd =>
    refine .notLive _ (by decide) fun b n taken same => ?_
    have bounds := start b n taken
    unfold blockPayload headerBytes granule minBytes at *
    omega
  next inside =>
  rw [if_neg (by simp [sound.check (by simpa using foreground)])]
  dsimp only
  have target : pointer - headerBytes ≤ heapBase + total blocks := by
    rw [sound.whole]
    unfold heapEnd at inside
    omega
  obtain ⟨first, last, rfl, found, where_⟩ :=
    @seek_tiled s.memory heapBase blocks (pointer - headerBytes) maxSteps 0 sound.tiled (le_of_lt sound.steps) target
  rw [found]
  dsimp only
  split
  next elsewhere =>
    refine .notLive _ (by decide) fun b n taken same => (where_.resolve_left elsewhere) ⟨n, false⟩ ?_
    rwa [← same, blockPayload, Nat.add_sub_cancel]
  next atTarget =>
  rw [not_not] at atTarget
  obtain ⟨⟨size, free⟩, after, rfl⟩ : ∃ x after, last = x :: after := by
    cases last with
    | nil =>
      have whole := sound.whole
      rw [append_nil] at whole
      unfold heapEnd headerBytes at *
      omega
    | cons x after => exact ⟨x, after, rfl⟩
  have here : (heapBase + total first, (⟨size, free⟩ : Segment)) ∈ place heapBase (first ++ ⟨size, free⟩ :: after) :=
    mem_place_iff.mpr ⟨first, after, rfl, rfl⟩
  have marked := sound.tiled _ _ here
  have pointed : blockPayload (heapBase + total first) = pointer := by
    unfold blockPayload
    omega
  rw [marked.header]
  split
  next notUsed =>
    refine .notLive _ (by decide) fun b n taken same => notUsed (blockTag_used.mpr ?_)
    have equal : b = heapBase + total first := by
      unfold blockPayload at same pointed
      omega
    subst equal
    cases sound.occupied_unique here taken
    rfl
  next isUsed =>
  obtain rfl : free = false := blockTag_used.mp (not_not.mp isUsed)
  obtain ⟨settledFirst, settledAfter⟩ := settled_used.mp sound.settled
  obtain ⟨before, left, rfl, leftIs, -, endsUsed⟩ := settledFirst.free_before
  obtain ⟨right, rest, rfl, rightIs, -, startsUsed⟩ := settledAfter.free_after
  have leftFree : ∀ x ∈ left, x.free = true := by rcases leftIs with rfl | ⟨m, rfl⟩ <;> simp
  have rightFree : ∀ x ∈ right, x.free = true := by rcases rightIs with rfl | ⟨m, rfl⟩ <;> simp
  obtain ⟨tiledFirst, tiledRest⟩ := tiled_append.mp sound.tiled
  have whole := sound.whole
  have next : freeNext s.memory (heapBase + total (before ++ left) + size) = (total right, right.length) := by
    refine freeNext_tiled (tiled_cons.mp tiledRest).2 ?_ rightIs fun _ => startsUsed
    rw [total_append, total_cons] at whole
    unfold heapEnd
    dsimp only at whole
    omega
  have previous : freePrevious s.memory (previousOf heapBase 0 (before ++ left)) = (total left, left.length) :=
    freePrevious_tiled tiledFirst (by decide) leftIs fun _ => endsUsed
  have place : (if left.length = 1 then previousOf heapBase 0 (before ++ left) else heapBase + total (before ++ left)) =
      heapBase + total before := by
    rcases leftIs with rfl | ⟨m, rfl⟩
    · simp
    · simp [previousOf]
      omega
  have shape : before ++ left ++ ⟨size, false⟩ :: (right ++ rest) =
    before ++ (left ++ ⟨size, false⟩ :: right ++ rest) := by simp
  rw [show (blockTag size false).size = size from rfl, next, previous]
  dsimp only
  rw [place]
  rw [shape] at sound ⊢
  refine .released _ (before ++ ([⟨size + total right + total left, true⟩] ++ rest))
    (heapBase + total before + total left) size ?_ ?_ ?_ ?_
  · exact sound.join leftFree rightFree endsUsed startsUsed rfl rfl rfl rfl rfl rfl
  · rw [← shape]
    rwa [total_append, ← add_assoc] at here
  · rwa [total_append, ← add_assoc] at pointed
  · exact fun b n => occupied_join leftFree rightFree fun x => sound.proper

end Rynor.Heap
