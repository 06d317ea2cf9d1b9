import Rynor.Proofs.PmmRegions

/-! The usable frames in the order of their addresses, and what the walks of the allocator
over the regions compute in terms of them. -/

namespace Rynor.Pmm
open Bitmap State List
variable {address k step last left : Nat} {clear : Nat → Bool}

/-- The addresses of the frames of a region. -/
def Region.frames (r : Region) : List Nat := (List.range r.pages).map fun k => r.base + k * pageSize

/-- The addresses of the usable frames. -/
def frames (regions : List Region) : List Nat := (regions.filter isUsable).flatMap Region.frames

variable {regions : List Region} {r : Region} {rest : List Region}

lemma frames_cons (r : Region) (rest : List Region) :
    frames (r :: rest) = (if r.kind = .usable then r.frames else []) ++ frames rest := by
  by_cases usable : r.kind = .usable <;> simp [frames, isUsable, usable]

@[simp] lemma Region.frames_length (r : Region) : r.frames.length = r.pages := by simp [Region.frames]

lemma frames_length (regions : List Region) : (frames regions).length = candidateFrames regions := by
  simp [frames, candidateFrames, length_flatMap]

lemma Region.Valid.pages_eq (valid : r.Valid) : r.base + r.pages * pageSize = r.stop := by
  have base := valid.base_aligned
  have stop := valid.stop_aligned
  have order := valid.nonempty
  unfold Region.pages pageSize at *
  omega

lemma Region.Valid.mem_frames (valid : r.Valid) :
    address ∈ r.frames ↔ r.base ≤ address ∧ address < r.stop ∧ address % pageSize = 0 := by
  have base := valid.base_aligned
  have whole := valid.pages_eq
  simp only [Region.frames, mem_map, mem_range]
  constructor
  · rintro ⟨k, inside, rfl⟩
    unfold pageSize at *
    omega
  · rintro ⟨low, high, aligned⟩
    refine ⟨(address - r.base) / pageSize, ?_, ?_⟩
    · rw [Nat.div_lt_iff_lt_mul (by decide)]
      omega
    · unfold pageSize at base aligned ⊢
      omega

lemma mem_frames (wellFormed : WellFormed regions) :
    address ∈ frames regions ↔ ∃ r ∈ regions, r.kind = .usable ∧ r.base ≤ address ∧ address < r.stop ∧
    address % pageSize = 0 := by
  simp only [frames, mem_flatMap, mem_filter, isUsable, beq_iff_eq]
  constructor
  · rintro ⟨r, ⟨member, usable⟩, inside⟩
    exact ⟨r, member, usable, (wellFormed.valid r member).mem_frames.mp inside⟩
  · rintro ⟨r, member, usable, inside⟩
    exact ⟨r, ⟨member, usable⟩, (wellFormed.valid r member).mem_frames.mpr inside⟩

lemma WellFormed.tail (wellFormed : WellFormed (r :: rest)) : WellFormed rest :=
  ⟨fun x member => wellFormed.valid x (mem_cons_of_mem _ member), (pairwise_cons.mp wellFormed.apart).2⟩

lemma Region.frames_sorted (r : Region) : r.frames.Pairwise (· < ·) := by
  refine pairwise_map.mpr (pairwise_lt_range.imp fun {a b} less => ?_)
  unfold pageSize
  omega

lemma frames_sorted (wellFormed : WellFormed regions) : (frames regions).Pairwise (· < ·) := by
  induction regions with
  | nil => exact .nil
  | cons r rest ih =>
    rw [frames_cons]
    refine pairwise_append.mpr ⟨?_, ih wellFormed.tail, ?_⟩
    · split
      · exact r.frames_sorted
      · exact .nil
    intro early inFirst late inRest
    obtain ⟨other, member, -, low, -⟩ := (mem_frames wellFormed.tail).mp inRest
    have order := ((pairwise_cons.mp wellFormed.apart).1 other member).ordered
    split at inFirst
    · have bounds := (wellFormed.valid r mem_cons_self).mem_frames.mp inFirst
      omega
    · cases inFirst

lemma frames_nodup (wellFormed : WellFormed regions) : (frames regions).Nodup :=
  (frames_sorted wellFormed).imp Nat.ne_of_lt

/-! Walks. -/

lemma frames_get_here (usable : r.kind = .usable) (inside : k < r.pages) :
    (frames (r :: rest))[k]? = some (r.base + k * pageSize) := by
  rw [frames_cons, if_pos usable, getElem?_append_left (by simpa using inside)]
  simp [Region.frames, inside]

lemma frames_get_later (r : Region) (rest : List Region) (later : Nat) :
    (frames (r :: rest))[(if r.kind = .usable then r.pages else 0) + later]? = (frames rest)[later]? := by
  have length : (if r.kind = .usable then r.frames else []).length = if r.kind = .usable then r.pages else 0 := by
    split <;> simp
  rw [frames_cons, getElem?_append_right (by rw [length]; omega), length, Nat.add_sub_cancel_left]

lemma frameAddress_eq (regions : List Region) (index : Nat) :
    frameAddress regions index = (frames regions)[index]? := by
  induction regions generalizing index with
  | nil => rfl
  | cons r rest ih =>
    have later := frames_get_later r rest
    rw [frameAddress]
    by_cases usable : r.kind = .usable
    · rw [if_neg (not_not.mpr usable)]
      split
      next beyond => rw [ih, ← later, if_pos usable, Nat.add_sub_cancel' beyond]
      next inside => rw [frames_get_here usable (Nat.not_le.mp inside)]
    · rw [if_pos usable, ih, ← later, if_neg usable, Nat.zero_add]

/-- `locate` finds the index of every usable frame, and of nothing else. -/
lemma locateFrom_spec (wellFormed : WellFormed regions) (bitmap : Bytes) (aligned : address % pageSize = 0)
    (offset : Nat) :
    (∃ index, (frames regions)[index]? = some address ∧
      locateFrom bitmap address offset regions = (if bit bitmap (offset + index) then .allocated
        else .free, some (offset + index))) ∨
    (address ∉ frames regions ∧ (locateFrom bitmap address offset regions).2 = none ∧
      ((locateFrom bitmap address offset regions).1 = .reserved ∨
        (locateFrom bitmap address offset regions).1 = .unavailable)) := by
  induction regions generalizing offset with
  | nil => exact .inr ⟨by simp [frames], rfl, .inr rfl⟩
  | cons r rest ih =>
    have valid := wellFormed.valid r mem_cons_self
    have apart := (pairwise_cons.mp wellFormed.apart).1
    rw [locateFrom]
    by_cases here : r.base ≤ address ∧ address < r.stop
    · rw [if_pos here]
      have notLater : address ∉ frames rest := by
        intro member
        obtain ⟨other, found, -, low, -⟩ := (mem_frames wellFormed.tail).mp member
        have order := (apart other found).ordered
        omega
      by_cases usable : r.kind = .usable
      · refine .inl ⟨(address - r.base) / pageSize, ?_, ?_⟩
        · have inside : (address - r.base) / pageSize < r.pages := by
            rw [Nat.div_lt_iff_lt_mul (by decide)]
            have whole := valid.pages_eq
            omega
          rw [frames_get_here usable inside]
          have base := valid.base_aligned
          simp only [pageSize, Option.some.injEq] at *
          omega
        · rw [if_neg (not_not.mpr usable)]
      · rw [if_pos usable, frames_cons, if_neg usable, nil_append]
        exact .inr ⟨notLater, rfl, .inl rfl⟩
    rw [if_neg here]
    have notHere : address ∉ r.frames := fun member =>
      here ⟨(valid.mem_frames.mp member).1, (valid.mem_frames.mp member).2.1⟩
    by_cases usable : r.kind = .usable
    · rw [if_pos usable]
      rcases ih wellFormed.tail (offset + r.pages) with ⟨index, found, located⟩ | ⟨missing, other⟩
      · refine .inl ⟨r.pages + index, ?_, by rw [located, add_assoc]⟩
        rw [← found, ← frames_get_later r rest index, if_pos usable]
      · exact .inr ⟨by simp [frames_cons, usable, notHere, missing], other⟩
    rw [if_neg usable, frames_cons, if_neg usable, nil_append]
    exact ih wellFormed.tail offset

/-! Runs of frames. -/

/-- Frames that follow each other in the order follow each other in memory, within a region. -/
lemma scanSpan_some (ran : scanSpan clear step last left k = some found) :
    clear found = true ∧ found ≤ last ∧ ∃ turns, found = k + turns * step := by
  induction left generalizing k with
  | zero => cases ran
  | succ left ih =>
    rw [scanSpan] at ran
    split at ran
    next below =>
      split at ran
      next good =>
        cases ran
        exact ⟨good, below, 0, by simp⟩
      obtain ⟨good, inside, turns, equal⟩ := ih ran
      exact ⟨good, inside, turns + 1, by rw [equal, Nat.succ_mul]; omega⟩
    · cases ran

lemma scanSpan_complete (positive : 0 < step) (enough : last < left + k) (inside : k + turns * step ≤ last)
    (good : clear (k + turns * step) = true) :
    ∃ found, scanSpan clear step last left k = some found ∧ found ≤ k + turns * step := by
  induction left generalizing k turns with
  | zero => omega
  | succ left ih =>
    rw [scanSpan, if_pos (by omega)]
    split
    · exact ⟨k, rfl, Nat.le_add_right _ _⟩
    rename_i dirty
    cases turns with
    | zero => simp [dirty] at good
    | succ turns =>
      have same : k + (turns + 1) * step = k + step + turns * step := by rw [Nat.succ_mul]; omega
      rw [same] at inside good ⊢
      exact ih (by omega) inside good

lemma alignStep_pos (alignBytes : Nat) : 0 < alignStep alignBytes := by
  unfold alignStep pageSize
  split <;> omega

/-- The aligned frames of a region are those the scan visits. -/
lemma Region.Valid.aligned_iff (valid : r.Valid) (power : Alignment.isPowerOfTwo alignBytes = true) (k : Nat) :
    (r.base + k * pageSize) % alignBytes = 0 ↔ ∃ turns, k = firstAligned r alignBytes + turns *
    alignStep alignBytes := by
  have page : Alignment.isPowerOfTwo pageSize = true := by decide
  obtain ⟨b, base⟩ := Nat.dvd_of_mod_eq_zero valid.base_aligned
  by_cases small : alignBytes ≤ pageSize
  · have first : firstAligned r alignBytes = 0 := by
      rw [firstAligned, if_neg fun big => absurd big.1 (Nat.not_lt.mpr small)]
    refine ⟨fun _ => ⟨k, by simp [first, alignStep, small]⟩, fun _ => Nat.mod_eq_zero_of_dvd ?_⟩
    rw [base, Nat.mul_comm k, ← Nat.mul_add]
    exact Nat.dvd_mul_right_of_dvd (Alignment.dvd_of_le power page small) _
  obtain ⟨step, whole⟩ := Alignment.dvd_of_le page power (Nat.le_of_not_le small)
  have steps : alignStep alignBytes = step := by
    rw [alignStep, if_neg small, whole, Nat.mul_div_cancel_left step (by decide)]
  have positive : 0 < step := steps ▸ alignStep_pos alignBytes
  have first : firstAligned r alignBytes = Alignment.gap step b := by
    rw [firstAligned, Alignment.gap, whole, base, Nat.mul_mod_mul_left, ← Nat.mul_sub,
      Nat.mul_div_cancel_left _ (by decide)]
    have big : pageSize * step > pageSize := by omega
    have zero : pageSize * (b % step) ≠ 0 ↔ b % step ≠ 0 := by unfold pageSize; omega
    simp only [big, true_and, zero]
  rw [first, steps, ← Alignment.aligned_iff positive, whole, base, Nat.mul_comm k, ← Nat.mul_add, Nat.mul_mod_mul_left]
  unfold pageSize
  omega

/-- `n` usable frames from `address` on, all free, aligned and below the limit; `offset` is
the index of the first frame of the regions. -/
structure FreeRun (bitmap : Bytes) (offset : Nat) (regions : List Region) (n alignBytes limitEnd address : Nat) :
    Prop where
  free : ∀ j < n, ∃ index, (frames regions)[index]? = some (address + j * pageSize) ∧ bit bitmap (offset + index) =
    false
  aligned : address % alignBytes = 0
  below : limitEnd = 0 ∨ address + n * pageSize ≤ limitEnd

lemma WellFormed.cases (wellFormed : WellFormed regions) (member : r ∈ regions) (also : other ∈ regions) :
    r = other ∨ Apart r other ∨ Apart other r :=
  Pairwise.forall_of_forall_of_flip (R := fun r other => r = other ∨ Apart r other ∨ Apart other r)
    (fun _ _ => .inl rfl)
    (wellFormed.apart.imp fun apart => .inr (.inl apart)) (wellFormed.apart.imp fun apart => .inr (.inr apart))
      member also

lemma run_stays (wellFormed : WellFormed regions) (member : r ∈ regions) (usable : r.kind = .usable)
    (starts : address ∈ r.frames) (run : ∀ j < n, address + j * pageSize ∈ frames regions) :
    address + n * pageSize ≤ r.stop ∨ n = 0 := by
  have valid := wellFormed.valid r member
  have first := valid.mem_frames.mp starts
  induction n with
  | zero => exact .inr rfl
  | succ n ih =>
    have stopAligned := valid.stop_aligned
    rcases ih fun j short => run j (by omega) with inside | rfl
    · -- The next frame cannot be the first of another usable region: those keep a distance.
      obtain ⟨other, also, alsoUsable, low, high, aligned⟩ := (mem_frames wellFormed).mp (run n (by omega))
      have notOver : address + n * pageSize ≠ r.stop := by
        intro spent
        rcases wellFormed.cases member also with rfl | before | after
        · omega
        · have gap := before.gap usable alsoUsable
          omega
        · have order := after.ordered
          omega
      have lastAligned := first.2.2
      unfold pageSize at *
      omega
    · unfold pageSize at *
      omega

lemma frames_later (wellFormed : WellFormed (r :: rest)) (later : r.stop ≤ address)
    (member : address ∈ frames (r :: rest)) : address ∈ frames rest := by
  rw [frames_cons, mem_append] at member
  rcases member with here | there
  · split at here
    · have bounds := (wellFormed.valid r mem_cons_self).mem_frames.mp here
      omega
    · cases here
  · exact there

/-- What a successful scan has found. -/
def FoundRun (bitmap : Bytes) (offset : Nat) (regions : List Region) (n alignBytes limitEnd start : Nat) : Prop :=
  ∃ index address, start = offset + index ∧ runClear bitmap start n = true ∧
    (∀ j < n, (frames regions)[index + j]? = some (address + j * pageSize)) ∧ address % alignBytes = 0 ∧
    (limitEnd = 0 ∨ address + n * pageSize ≤ limitEnd)

section
variable {bitmap : Bytes} {frameCount n alignBytes limitEnd offset start : Nat}

lemma spanOf_le (valid : r.Valid) : spanOf r limitEnd ≤ r.pages := by
  have order := valid.nonempty
  unfold spanOf Region.pages pageSize
  split <;> omega

lemma spanOf_below (after : r.base < limitEnd) (valid : r.Valid) :
    r.base + spanOf r limitEnd * pageSize ≤ limitEnd := by
  have order := valid.nonempty
  unfold spanOf pageSize
  split <;> omega

/-- Every frame of the region that ends by the limit is in the span. -/
lemma le_spanOf (valid : r.Valid) (inside : r.base + k * pageSize ≤ r.stop)
    (below : limitEnd = 0 ∨ r.base + k * pageSize ≤ limitEnd) : k ≤ spanOf r limitEnd := by
  have order := valid.nonempty
  unfold spanOf Region.pages pageSize at *
  split <;> omega

section
variable (wellFormed : WellFormed regions) (power : Alignment.isPowerOfTwo alignBytes = true)
include wellFormed power

lemma scanFrom_some (ran : scanFrom bitmap frameCount n alignBytes limitEnd offset regions = some start) :
    FoundRun bitmap offset regions n alignBytes limitEnd start := by
  induction regions generalizing offset with
  | nil => cases ran
  | cons r rest ih =>
    have valid := wellFormed.valid r mem_cons_self
    rw [scanFrom] at ran
    split at ran
    next other =>
      obtain ⟨index, address, same, clear, run, more⟩ := ih wellFormed.tail ran
      refine ⟨index, address, same, clear, fun j short => ?_, more⟩
      rw [frames_cons, if_neg other, nil_append]
      exact run j short
    rename_i usable
    rw [not_not] at usable
    split at ran
    · cases ran
    split at ran
    · cases ran
    have skip (later : scanFrom bitmap frameCount n alignBytes limitEnd (offset + r.pages) rest = some start) :
        FoundRun bitmap offset (r :: rest) n alignBytes limitEnd start := by
      obtain ⟨index, address, same, clear, run, more⟩ := ih wellFormed.tail later
      have shifted := frames_get_later r rest
      rw [if_pos usable] at shifted
      refine ⟨r.pages + index, address, by omega, clear, fun j short => ?_, more⟩
      rw [Nat.add_assoc, shifted, run j short]
    split at ran
    · exact skip ran
    rename_i reachable
    dsimp only at ran
    split at ran
    next k found =>
      cases ran
      split at found
      next room =>
        obtain ⟨clear, last, visited⟩ := scanSpan_some found
        have within := @spanOf_le r limitEnd valid
        refine ⟨k, r.base + k * pageSize, rfl, clear, fun j short => ?_, (valid.aligned_iff power k).mpr visited, ?_⟩
        · rw [frames_get_here usable (by omega), Nat.add_mul, Nat.add_assoc]
        by_cases limited : limitEnd = 0
        · exact .inl limited
        have below := spanOf_below (Nat.not_le.mp fun short => reachable ⟨limited, short⟩) valid
        have inSpan : (k + n) * pageSize ≤ spanOf r limitEnd * pageSize := Nat.mul_le_mul_right _ (by omega)
        rw [Nat.add_mul] at inSpan
        exact .inr (by omega)
      · cases found
    · exact skip ran

/-- A scan stops no later than at the first run that is free. -/
lemma scanFrom_complete (positive : 0 < n)
    (fits : offset + candidateFrames regions ≤ frameCount)
    (run : FreeRun bitmap offset regions n alignBytes limitEnd address) :
    ∃ index first, scanFrom bitmap frameCount n alignBytes limitEnd offset regions = some (offset + index) ∧
      (frames regions)[index]? = some first ∧ first ≤ address := by
  induction regions generalizing offset with
  | nil =>
    obtain ⟨index, found, -⟩ := run.free 0 positive
    simp [frames] at found
  | cons r rest ih =>
    have valid := wellFormed.valid r mem_cons_self
    rw [candidateFrames_cons] at fits
    have members : ∀ j < n, address + j * pageSize ∈ frames (r :: rest) := fun j short => by
      obtain ⟨index, found, -⟩ := run.free j short
      exact mem_of_getElem? found
    -- A run that starts later lies in the later regions altogether.
    have later (starts : r.stop ≤ address) : ∃ index first,
        scanFrom bitmap frameCount n alignBytes limitEnd (offset + if r.kind = .usable then r.pages else 0) rest =
          some (offset + index) ∧
          (frames (r :: rest))[index]? = some first ∧ first ≤ address := by
      have behind : FreeRun bitmap (offset + if r.kind = .usable then r.pages else 0) rest n alignBytes limitEnd
        address := by
        refine ⟨fun j short => ?_, run.aligned, run.below⟩
        obtain ⟨index, found, free⟩ := run.free j short
        obtain ⟨place, there⟩ := mem_iff_getElem?.mp (frames_later wellFormed (by omega) (members j short))
        rw [← frames_get_later r] at there
        have same := (getElem?_inj (List.getElem?_eq_some_iff.mp found).1 (frames_nodup wellFormed)).mp
          (found.trans there.symm)
        rw [frames_get_later] at there
        exact ⟨place, there, by rw [Nat.add_assoc, ← same]; exact free⟩
      obtain ⟨index, first, ran, found, before⟩ := ih wellFormed.tail (by omega) behind
      exact ⟨_, first, by rw [ran, Nat.add_assoc], by rw [frames_get_later, found], before⟩
    have first := members 0 positive
    rw [Nat.zero_mul, Nat.add_zero] at first
    have afterwards (there : address ∈ frames rest) : r.stop ≤ address := by
      obtain ⟨next, member, -, low, -⟩ := (mem_frames wellFormed.tail).mp there
      exact Nat.le_trans ((pairwise_cons.mp wellFormed.apart).1 next member).ordered low
    rw [frames_cons, mem_append] at first
    rw [scanFrom]
    by_cases usable : r.kind = .usable
    · rw [if_pos usable] at fits later first
      have proper : ¬(r.stop ≤ r.base ∨ r.base % pageSize ≠ 0 ∨ r.stop % pageSize ≠ 0) := by
        simp [valid.base_aligned, valid.stop_aligned, valid.nonempty]
      have whole := valid.pages_eq
      have order := valid.nonempty
      have somePages : r.pages ≠ 0 := by
        intro none
        rw [none] at whole
        omega
      have within := @spanOf_le r limitEnd valid
      rw [if_neg (not_not.mpr usable), if_neg proper, if_neg (by omega)]
      split
      next beyond =>
        refine later (afterwards (first.resolve_left fun here => ?_))
        have bounds := valid.mem_frames.mp here
        have below := run.below
        have positiveBytes : 0 < n * pageSize := Nat.mul_pos positive (by decide)
        omega
      dsimp only
      by_cases here : address ∈ r.frames
      · -- The run lies in this region, at a place the scan comes by.
        obtain ⟨k, short, rfl⟩ := mem_map.mp here
        have stays := (run_stays wellFormed mem_cons_self usable here members).resolve_right (by omega)
        have enough : k + n ≤ spanOf r limitEnd := by
          have below := run.below
          refine le_spanOf valid ?_ ?_ <;> rw [Nat.add_mul] <;> omega
        obtain ⟨turns, visited⟩ := (valid.aligned_iff power k).mp run.aligned
        have clear : runClear bitmap (offset + k) n = true := by
          refine runClear_iff.mpr fun index low high => ?_
          obtain ⟨place, found, free⟩ := run.free (index - (offset + k)) (by omega)
          have inside : index - offset < r.pages := by omega
          have same : (frames (r :: rest))[index - offset]? =
            some (r.base + k * pageSize + (index - (offset + k)) * pageSize) := by
            rw [frames_get_here usable inside, Nat.add_assoc, ← Nat.add_mul, show k + (index - (offset + k)) =
              index - offset by omega]
          have placed := (getElem?_inj (List.getElem?_eq_some_iff.mp found).1 (frames_nodup wellFormed)).mp
            (found.trans same.symm)
          rwa [placed, Nat.add_sub_cancel' (by omega)] at free
        obtain ⟨stop, ran, before⟩ : ∃ found, scanSpan (fun k => runClear bitmap (offset + k) n) (alignStep alignBytes)
            (spanOf r limitEnd - n) (spanOf r limitEnd - n + 1) (firstAligned r alignBytes) = some found ∧
              found ≤ k := by
          rw [visited] at clear ⊢
          exact scanSpan_complete (alignStep_pos alignBytes) (by omega) (by omega) clear
        rw [if_pos (by omega), ran]
        exact ⟨stop, r.base + stop * pageSize, rfl, frames_get_here usable (by omega),
          Nat.add_le_add_left (Nat.mul_le_mul_right _ before) _⟩
      have starts := afterwards (first.resolve_left here)
      split
      next k found =>
        split at found
        · obtain ⟨-, last, -⟩ := scanSpan_some found
          have inside : k < r.pages := by omega
          refine ⟨k, r.base + k * pageSize, rfl, frames_get_here usable inside, ?_⟩
          have bytes := Nat.mul_le_mul_right pageSize (Nat.le_of_lt inside)
          omega
        · cases found
      · exact later starts
    rw [if_neg usable] at later first
    rw [if_pos usable]
    exact later (afterwards (first.resolve_left nofun))

end

end

end Rynor.Pmm
