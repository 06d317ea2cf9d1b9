import Rynor.Lib.Segments
import Rynor.Memory.Heap

/-! The tags of the arena: what a published block leaves in memory, and what the walks of the
heap compute over an arena that is tiled with blocks. -/

namespace Rynor.Heap
open ByteMemory Segments List

variable {memory other : ByteMemory} {a b size : Nat} {free : Bool} {x : Segment} {xs ys : List Segment}

/-! Tags. -/

lemma hb_congr (same : ∀ i, a ≤ i → i < a + 16 → memory i = other i) : hb memory a = hb other a := by
  have low : littleEndian (memory.shift a) 8 = littleEndian (other.shift a) 8 :=
    littleEndian_congr fun i short => same _ (by omega) (by omega)
  have high : littleEndian (memory.shift (a + 8)) 8 = littleEndian (other.shift (a + 8)) 8 :=
    littleEndian_congr fun i short => same _ (by omega) (by omega)
  rw [hb, low, high, hb]

lemma putTag_outside (outside : i < a ∨ a + 16 ≤ i) : putTag memory a tag i = memory i := by
  rw [putTag, overlay_outside (by omega), overlay_outside (by omega)]

lemma hb_putTag {tag} (size : tag.size < 256 ^ 8) (info : tag.info < 256 ^ 8) : hb (putTag memory a tag) a = tag := by
  have low : littleEndian ((putTag memory a tag).shift a) 8 = tag.size := by
    rw [← littleEndian_ofNat_of_lt size]
    refine littleEndian_congr fun i short => ?_
    rw [shift, putTag, overlay_outside (by omega), overlay_inside (by omega) (by omega), Nat.add_sub_cancel_left]
  have high : littleEndian ((putTag memory a tag).shift (a + 8)) 8 = tag.info := by
    rw [← littleEndian_ofNat_of_lt info]
    refine littleEndian_congr fun i short => ?_
    rw [shift, putTag, overlay_inside (by omega) (by omega), Nat.add_sub_cancel_left]
  rw [hb, low, high]

lemma blockTag_info (size : Nat) (free : Bool) : (blockTag size free).info < 256 ^ 8 := by
  cases free
  · exact (by decide : magic < 256 ^ 8)
  · exact (by decide : freeMagic < 256 ^ 8)

lemma blockTag_free : (blockTag size free).info = freeMagic ↔ free = true := by
  cases free <;> simp [blockTag, freeMagic, magic]

lemma blockTag_used : (blockTag size free).info = magic ↔ free = false := by
  cases free <;> simp [blockTag, freeMagic, magic]

/-! Blocks. -/

/-- A block with its two tags. -/
structure Marked (memory : ByteMemory) (a : Nat) (x : Segment) : Prop where
  room : minBytes ≤ x.size
  whole : x.size % granule = 0
  header : hb memory a = blockTag x.size x.free
  footer : hb memory (a + x.size - footerBytes) = blockTag x.size x.free

lemma Marked.congr (marked : Marked memory a x)
    (same : ∀ i, (a ≤ i ∧ i < a + 16) ∨ (a + x.size ≤ i + 16 ∧ i < a + x.size) → other i = memory i) :
    Marked other a x where
  room := marked.room
  whole := marked.whole
  header := by
    rw [← marked.header]
    exact hb_congr fun i low high => same i (.inl ⟨low, high⟩)
  footer := by
    have room := marked.room
    rw [← marked.footer]
    refine hb_congr fun i low high => same i (.inr ?_)
    unfold minBytes footerBytes at *
    omega

lemma publish_outside (room : minBytes ≤ size) (outside : i < a ∨ a + size ≤ i) :
    publish memory a size free i = memory i := by
  unfold minBytes at room
  rw [publish, putTag_outside (by unfold footerBytes; omega), putTag_outside (by omega)]

lemma publish_marked (room : minBytes ≤ size) (whole : size % granule = 0) (fits : size < 256 ^ 8) :
    Marked (publish memory a size free) a ⟨size, free⟩ where
  room := room
  whole := whole
  header := by
    have written := @hb_putTag memory a (blockTag size free) fits (blockTag_info ..)
    rw [← written, publish]
    refine hb_congr fun i low high => putTag_outside (.inl ?_)
    unfold minBytes footerBytes at *
    omega
  footer := hb_putTag fits (blockTag_info ..)

/-- The segments lie in memory from `a` on, with their tags. -/
def Tiled (memory : ByteMemory) (a : Nat) (xs : List Segment) : Prop := ∀ b x, (b, x) ∈ place a xs → Marked memory b x

lemma tiled_append : Tiled memory a (xs ++ ys) ↔ Tiled memory a xs ∧ Tiled memory (a + total xs) ys := by
  simp only [Tiled, place_append, mem_append, or_imp, forall_and]

lemma tiled_cons : Tiled memory a (x :: xs) ↔ Marked memory a x ∧ Tiled memory (a + x.size) xs := by
  simp [Tiled, place, or_imp, forall_and]

lemma tiled_nil : Tiled memory a [] := fun _ _ member => by cases member

lemma tiled_singleton (marked : Marked memory a x) : Tiled memory a [x] := tiled_cons.mpr ⟨marked, tiled_nil⟩

section
variable (tiled : Tiled memory a xs)
include tiled

lemma Tiled.congr (same : ∀ i, a ≤ i → i < a + total xs → other i = memory i) : Tiled other a xs := by
  intro b x member
  have bounds := place_bounds member
  have marked := tiled b x member
  have room := marked.room
  unfold minBytes at room
  exact marked.congr fun i inside => same i (by omega) (by omega)

lemma Tiled.marked (member : x ∈ xs) : ∃ b, Marked memory b x := by
  obtain ⟨before, after, rfl⟩ := append_of_mem member
  exact ⟨_, tiled _ x (mem_place_iff.mpr ⟨before, after, rfl, rfl⟩)⟩

lemma Tiled.length_le : xs.length * minBytes ≤ total xs := by
  induction xs generalizing a with
  | nil => exact Nat.zero_le _
  | cons x xs ih =>
    obtain ⟨marked, rest⟩ := tiled_cons.mp tiled
    have room := marked.room
    have more := ih rest
    rw [length_cons, Nat.succ_mul, total_cons]
    omega

lemma Tiled.total_whole : total xs % granule = 0 := by
  induction xs generalizing a with
  | nil => rfl
  | cons x xs ih =>
    obtain ⟨marked, rest⟩ := tiled_cons.mp tiled
    rw [total_cons, Nat.add_mod, marked.whole, ih rest]
    rfl

end

/-! Walks. -/

lemma checkFrom_tiled {steps tally} (tiled : Tiled memory a xs) (whole : a + total xs = heapEnd) (settled : Settled xs)
    (start : tally.previousFree = true → ∀ x ∈ xs.head?, x.free = false) (enough : xs.length < steps) :
    ∃ last, checkFrom memory steps a tally =
      some (heapEnd, ⟨tally.used + usedBytes xs, tally.allocated + usedCount xs,
        tally.freeCount + freeCount xs, last⟩) := by
  induction xs generalizing a steps tally with
  | nil =>
    obtain ⟨steps, rfl⟩ := Nat.exists_eq_succ_of_ne_zero (Nat.ne_of_gt enough)
    rw [total_nil, Nat.add_zero] at whole
    rw [checkFrom, if_neg (by omega), whole]
    exact ⟨_, rfl⟩
  | cons x xs ih =>
    obtain ⟨steps, rfl⟩ := Nat.exists_eq_succ_of_ne_zero (Nat.ne_of_gt (Nat.lt_of_le_of_lt (Nat.zero_le _) enough))
    obtain ⟨marked, rest⟩ := tiled_cons.mp tiled
    obtain ⟨next, restSettled⟩ := isChain_cons.mp settled
    have room := marked.room
    have positive : 0 < minBytes := by decide
    rw [total_cons] at whole
    have valid : ¬((blockTag x.size x.free).size < minBytes ∨ (blockTag x.size x.free).size % granule ≠ 0 ∨
        (blockTag x.size x.free).size > heapEnd - a ∨
        ((blockTag x.size x.free).info ≠ magic ∧ (blockTag x.size x.free).info ≠ freeMagic)) := by
      rintro (small | odd | large | unknown)
      · exact absurd small (Nat.not_lt.mpr room)
      · exact odd marked.whole
      · have bound : x.size > heapEnd - a := large
        omega
      · rcases Bool.eq_false_or_eq_true x.free with isFree | isUsed
        · exact unknown.2 (blockTag_free.mpr isFree)
        · exact unknown.1 (blockTag_used.mpr isUsed)
    have tagSize : (blockTag x.size x.free).size = x.size := rfl
    rw [checkFrom, if_pos (by omega), if_neg (by omega)]
    dsimp only
    rw [marked.header, if_neg valid, tagSize, marked.footer, if_neg (by simp [tagSize])]
    rw [usedBytes_cons, usedCount_cons, freeCount_cons]
    by_cases isFree : x.free = true
    · have calm : ¬tally.previousFree = true := fun before => by
        have used := start before x rfl
        rw [isFree] at used
        cases used
      rw [if_pos (blockTag_free.mpr isFree), if_neg calm]
      obtain ⟨last, ran⟩ := @ih (a + x.size) steps
        { tally with freeCount := tally.freeCount + 1, previousFree := true } rest (by omega)
        restSettled (fun _ y first => by simpa [isFree] using next y first) (by simpa using enough)
      refine ⟨last, ran.trans ?_⟩
      simp [isFree, Nat.add_assoc]
    rw [if_neg fun tag => isFree (blockTag_free.mp tag)]
    obtain ⟨last, ran⟩ := @ih (a + x.size) steps
      { tally with used := tally.used + x.size, allocated := tally.allocated + 1, previousFree := false } rest
        (by omega)
      restSettled (fun before => by cases before) (by simpa using enough)
    refine ⟨last, ran.trans ?_⟩
    simp [isFree, Nat.add_assoc]

lemma findBlock_tiled {align needed steps} (tiled : Tiled memory a xs) (whole : a + total xs = heapEnd)
    (enough : xs.length < steps) :
    (∃ before size after, xs = before ++ ⟨size, true⟩ :: after ∧
      findBlock memory align needed steps a = some (a + total before, size) ∧ leadGap align
      (a + total before) + needed ≤ size) ∨
    (findBlock memory align needed steps a = none ∧ ∀ b x, (b, x) ∈ place a xs → x.free = true →
      x.size < leadGap align b + needed) := by
  induction xs generalizing a steps with
  | nil =>
    obtain ⟨steps, rfl⟩ := Nat.exists_eq_succ_of_ne_zero (Nat.ne_of_gt enough)
    rw [total_nil, Nat.add_zero] at whole
    exact .inr ⟨by rw [findBlock, if_neg (by omega)], fun _ _ member => by cases member⟩
  | cons x xs ih =>
    obtain ⟨steps, rfl⟩ := Nat.exists_eq_succ_of_ne_zero (Nat.ne_of_gt (Nat.lt_of_le_of_lt (Nat.zero_le _) enough))
    obtain ⟨marked, rest⟩ := tiled_cons.mp tiled
    have room := marked.room
    have positive : 0 < minBytes := by decide
    rw [total_cons] at whole
    rw [findBlock, if_pos (by omega)]
    dsimp only
    rw [marked.header, show (blockTag x.size x.free).size = x.size from rfl]
    split
    next refused =>
      rcases ih rest (by omega) (by simpa using enough) with ⟨before, size, after, rfl, found, fits⟩ | ⟨missed, small⟩
      · refine .inl ⟨x :: before, size, after, rfl, ?_, ?_⟩
        · rw [found, total_cons, Nat.add_assoc]
        · rwa [total_cons, ← Nat.add_assoc]
      refine .inr ⟨missed, fun b y member isFree => ?_⟩
      rcases mem_cons.mp member with here | later
      · cases here
        have tag : (blockTag x.size x.free).info = freeMagic := blockTag_free.mpr isFree
        omega
      · exact small b y later isFree
    rename_i accepted
    simp only [not_or, not_not] at accepted
    obtain ⟨size, free⟩ := x
    obtain rfl : free = true := blockTag_free.mp accepted.1
    refine .inl ⟨[], size, xs, rfl, rfl, ?_⟩
    simp only [total_nil, Nat.add_zero] at accepted ⊢
    omega

/-- Where the block before the cursor starts. -/
def previousOf (a previous : Nat) (xs : List Segment) : Nat :=
  match xs.getLast? with
  | none => previous
  | some x => a + total xs - x.size

lemma previousOf_cons (a previous : Nat) (x : Segment) (xs : List Segment) :
    previousOf (a + x.size) a xs = previousOf a previous (x :: xs) := by
  unfold previousOf
  cases xs with
  | nil => simp
  | cons y ys =>
    rw [getLast?_cons_cons, getLast?_eq_getLast_of_ne_nil (cons_ne_nil y ys)]
    simp only [total_cons, add_assoc]

lemma seek_tiled {target steps previous} (tiled : Tiled memory a xs) (enough : xs.length ≤ steps)
    (below : target ≤ a + total xs) :
    ∃ before after, xs = before ++ after ∧ seek memory target steps a previous =
    (a + total before, previousOf a previous before) ∧
      (a + total before = target ∨ ∀ x, (target, x) ∉ place a xs) := by
  induction xs generalizing a steps previous with
  | nil =>
    refine ⟨[], [], rfl, ?_, .inr fun _ member => by cases member⟩
    rw [total_nil] at below
    cases steps with
    | zero => rfl
    | succ steps =>
      rw [seek, if_neg (by omega)]
      rfl
  | cons x xs ih =>
    obtain ⟨steps, rfl⟩ := Nat.exists_eq_succ_of_ne_zero (ne_of_gt (lt_of_lt_of_le (Nat.zero_lt_succ _) enough))
    obtain ⟨marked, rest⟩ := tiled_cons.mp tiled
    rw [seek]
    split
    next short =>
      rw [total_cons] at below
      obtain ⟨before, after, rfl, found, where_⟩ :=
        @ih (a + x.size) steps a rest (by simpa using enough) (by omega)
      refine ⟨x :: before, after, rfl, ?_, ?_⟩
      · rw [marked.header, show (blockTag x.size x.free).size = x.size from rfl, found, total_cons, add_assoc,
          previousOf_cons a previous]
      · rw [total_cons, ← add_assoc]
        refine where_.imp id fun missing y member => ?_
        rcases mem_cons.mp member with here | later
        · cases here
          omega
        · exact missing y later
    rename_i reached
    refine ⟨[], x :: xs, rfl, rfl, ?_⟩
    rw [total_nil, add_zero]
    rcases Nat.lt_or_eq_of_le (not_lt.mp reached) with early | same
    · exact .inr fun y member => absurd (place_bounds member).1 (not_le.mpr early)
    · exact .inl same.symm

lemma freeNext_tiled (tiled : Tiled memory a (xs ++ ys)) (whole : a + total (xs ++ ys) = heapEnd)
    (taken : xs = [] ∨ ∃ size, xs = [⟨size, true⟩]) (next : xs = [] → ∀ y ∈ ys.head?, y.free = false) :
    freeNext memory a = (total xs, xs.length) := by
  rcases taken with rfl | ⟨size, rfl⟩
  · rw [freeNext, if_neg]
    · rfl
    rintro ⟨below, tag⟩
    cases ys with
    | nil =>
      rw [append_nil, total_nil] at whole
      omega
    | cons y ys =>
      rw [(tiled_cons.mp tiled).1.header, blockTag_free] at tag
      have used := next rfl y rfl
      rw [tag] at used
      cases used
  have marked := (tiled_cons.mp tiled).1
  have room := marked.room
  have positive : 0 < minBytes := by decide
  have inside : a < heapEnd := by
    rw [singleton_append, total_cons] at whole
    omega
  rw [freeNext, if_pos ⟨inside, by rw [marked.header, blockTag_free]⟩, marked.header]
  rfl

lemma freePrevious_tiled (tiled : Tiled memory a (xs ++ ys)) (positive : 0 < a)
    (taken : ys = [] ∨ ∃ size, ys = [⟨size, true⟩]) (before : ys = [] → ∀ x ∈ xs.getLast?, x.free = false) :
    freePrevious memory (previousOf a 0 (xs ++ ys)) = (total ys, ys.length) := by
  rcases taken with rfl | ⟨size, rfl⟩
  · rw [append_nil] at tiled ⊢
    rw [freePrevious, if_neg]
    · rfl
    rintro ⟨nonzero, tag⟩
    rcases eq_nil_or_concat xs with rfl | ⟨init, x, rfl⟩
    · exact nonzero rfl
    rw [concat_eq_append] at tiled tag
    have used := before rfl x (by simp)
    have place : previousOf a 0 (init ++ [x]) = a + total init := by
      simp only [previousOf, getLast?_concat, total_append, total_cons, total_nil]
      omega
    rw [place, (tiled_cons.mp (tiled_append.mp tiled).2).1.header, blockTag_free, used] at tag
    cases tag
  have place : previousOf a 0 (xs ++ [⟨size, true⟩]) = a + total xs := by
    simp only [previousOf, getLast?_concat, total_append, total_cons, total_nil]
    omega
  have marked := (tiled_cons.mp (tiled_append.mp tiled).2).1
  rw [place, freePrevious, if_pos ⟨by omega, by rw [marked.header, blockTag_free]⟩, marked.header]
  rfl

/-! The place of an aligned block in a free one. -/

/-- A free block of `total` bytes at `a` can be cut into a block for the request with an aligned
payload and, in front of it, nothing or a whole block. -/
def Hosts (a total size align : Nat) : Prop :=
  ∃ lead, (lead = 0 ∨ minBytes ≤ lead) ∧ blockPayload (a + lead) % align = 0 ∧ lead + neededBytes size ≤ total

lemma raiseGap_spec {align steps gap} (positive : 0 < align) (enough : minBytes ≤ gap + steps) :
    ∃ turns, raiseGap align steps gap = gap + turns * align ∧
    (raiseGap align steps gap = 0 ∨ minBytes ≤ raiseGap align steps gap) ∧
      (gap = 0 → turns = 0) ∧ ∀ k < turns, gap + k * align < minBytes := by
  induction steps generalizing gap with
  | zero => exact ⟨0, by simp [raiseGap], .inr enough, fun _ => rfl, fun k none => by omega⟩
  | succ steps ih =>
    rw [raiseGap]
    split
    next low =>
      obtain ⟨turns, raised, room, -, least⟩ := @ih (gap + align) (by omega)
      refine ⟨turns + 1, by rw [raised, Nat.succ_mul]; omega, room, fun none => absurd none low.1, fun k short => ?_⟩
      cases k with
      | zero => simpa using low.2
      | succ k =>
        have before := least k (by omega)
        rw [Nat.succ_mul]
        omega
    next high => exact ⟨0, by simp, by omega, fun _ => rfl, fun k none => by omega⟩

section
variable {align cursor : Nat}

lemma leadGap_spec (cursor : Nat) (positive : 0 < align) :
    blockPayload (cursor + leadGap align cursor) % align = 0 ∧
    (leadGap align cursor = 0 ∨ minBytes ≤ leadGap align cursor) ∧
      ∀ lead, (lead = 0 ∨ minBytes ≤ lead) → blockPayload (cursor + lead) % align = 0 →
      leadGap align cursor ≤ lead := by
  have first : (align - blockPayload cursor % align) % align = Alignment.gap align (blockPayload cursor) := by
    have small := Nat.mod_lt (blockPayload cursor) positive
    rw [Alignment.gap]
    split
    · exact Nat.mod_eq_of_lt (by omega)
    rename_i zero
    rw [not_not.mp zero, Nat.sub_zero, Nat.mod_self]
  have shifted (lead : Nat) : blockPayload (cursor + lead) = blockPayload cursor + lead := by unfold blockPayload; omega
  obtain ⟨turns, raised, room, none, least⟩ :=
    @raiseGap_spec align minBytes (Alignment.gap align (blockPayload cursor)) positive (Nat.le_add_left _ _)
  rw [leadGap, first]
  refine ⟨?_, room, fun lead whole aligned => ?_⟩
  · rw [shifted]
    exact (Alignment.aligned_iff positive).mpr ⟨turns, raised⟩
  rw [shifted] at aligned
  obtain ⟨k, rfl⟩ := (Alignment.aligned_iff positive).mp aligned
  rw [raised]
  by_cases early : k < turns
  · have below := least k early
    have zero : Alignment.gap align (blockPayload cursor) = 0 := by omega
    rw [none zero] at early
    omega
  · exact Nat.add_le_add_left (Nat.mul_le_mul_right _ (not_lt.mp early)) _

lemma hosts_iff (positive : 0 < align) : Hosts a size b align ↔ leadGap align a + neededBytes b ≤ size := by
  obtain ⟨aligned, room, least⟩ := leadGap_spec a positive
  constructor
  · rintro ⟨lead, whole, atLead, fits⟩
    have bound := least lead whole atLead
    omega
  · exact fun fits => ⟨_, room, aligned, fits⟩

lemma leadGap_whole (power : Alignment.isPowerOfTwo align = true) (whole : cursor % granule = 0) :
    leadGap align cursor % granule = 0 := by
  obtain ⟨aligned, -, least⟩ := leadGap_spec cursor (Alignment.pos power)
  have payload : granule ∣ blockPayload cursor := by
    unfold blockPayload headerBytes granule at *
    omega
  rcases Nat.le_total align granule with small | large
  · have fine := Nat.mod_eq_zero_of_dvd (Nat.dvd_trans (Alignment.dvd_of_le power (by decide) small) payload)
    rw [Nat.le_zero.mp (least 0 (.inl rfl) fine)]
    rfl
  have multiple := Nat.dvd_trans (Alignment.dvd_of_le (by decide) power large) (Nat.dvd_of_mod_eq_zero aligned)
  unfold blockPayload headerBytes granule at *
  omega

end

lemma neededBytes_spec (size : Nat) :
    size + headerBytes + footerBytes ≤ neededBytes size ∧ neededBytes size % granule = 0 := by
  unfold neededBytes headerBytes footerBytes granule
  omega

end Rynor.Heap
