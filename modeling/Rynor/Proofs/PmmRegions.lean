import Rynor.Lib.Checks
import Rynor.Memory.Pmm

/-! Region lists: the normalized map is sorted, disjoint and page-aligned, and reserving a
range only ever takes usable memory away. -/

namespace Rynor.Pmm
open List Checks
variable {limit cursor next bits base stop : Nat} {found regions after normalized : List Region} {r piece : Region}
  {kind : Kind}

/-- A nonempty region of whole pages below the architectural limit. -/
structure Region.Valid (r : Region) : Prop where
  nonempty : r.base < r.stop
  base_aligned : r.base % pageSize = 0
  stop_aligned : r.stop % pageSize = 0
  bounded : r.stop ≤ 2 ^ 52

/-- In order, and never two usable regions side by side. -/
structure Apart (first second : Region) : Prop where
  ordered : first.stop ≤ second.base
  gap : first.kind = .usable → second.kind = .usable → first.stop < second.base

structure WellFormed (regions : List Region) : Prop where
  valid : ∀ r ∈ regions, r.Valid
  apart : regions.Pairwise Apart

/-! The sweep. -/

/-- A candidate: whole pages below the limit. -/
structure Candidate (limit : Nat) (r : Region) : Prop where
  nonempty : r.base < r.stop
  base_aligned : r.base % pageSize = 0
  stop_aligned : r.stop % pageSize = 0
  below : r.stop ≤ limit

lemma entryCandidates_valid (aligned : limit % pageSize = 0) (read : entryCandidates limit entry = .ok found) :
    ∀ r ∈ found, Candidate limit r := by
  unfold entryCandidates at read
  obtain ⟨_, read⟩ := ok_iff.mp read
  split at read
  · cases read
    nofun
  split at read
  · cases read
    nofun
  rename_i nonzero
  obtain ⟨inRange, read⟩ := ok_iff.mp read
  have widened : ∀ kind, Candidate limit ⟨pageDown entry.base, pageUp (entry.base + entry.length), kind⟩ := by
    intro kind
    constructor <;> simp only [pageUp, pageDown, pageSize] at * <;> omega
  split at read
  · cases read
    simpa using widened _
  dsimp only at read
  split at read
  · cases read
    simpa using widened _
  rename_i shrunk
  cases read
  simp only [mem_append, mem_ite_nil_right, mem_singleton]
  rintro r ((⟨fringe, rfl⟩ | rfl) | ⟨fringe, rfl⟩) <;> constructor <;>
    simp only [pageUp, pageDown, pageSize] at * <;> omega

lemma candidates_cons : candidates limit (entry :: entries) = .ok found ↔
    ∃ first rest, entryCandidates limit entry = .ok first ∧ candidates limit entries = .ok rest ∧
    first ++ rest = found := by
  simp only [candidates, bind_ok_iff, pure, Except.pure, Except.ok.injEq, exists_and_left]

lemma candidates_valid (aligned : limit % pageSize = 0) (read : candidates limit entries = .ok found) :
    ∀ r ∈ found, Candidate limit r := by
  induction entries generalizing found with
  | nil =>
    cases read
    nofun
  | cons entry entries ih =>
    obtain ⟨first, rest, here, later, rfl⟩ := candidates_cons.mp read
    exact forall_mem_append.mpr ⟨entryCandidates_valid aligned here, ih later⟩

/-- The cursor is on a page boundary, and so is where it goes. -/
lemma nextBoundary_spec (valid : ∀ r ∈ found, Candidate limit r) (aligned : limit % pageSize = 0)
    (inside : cursor < limit) :
    cursor < nextBoundary found cursor limit ∧ nextBoundary found cursor limit ≤ limit ∧
    nextBoundary found cursor limit % pageSize = 0 := by
  refine List.foldlRecOn (motive := fun next => cursor < next ∧ next ≤ limit ∧ next % pageSize = 0) found _ ⟨inside,
    Nat.le_refl _, aligned⟩
    fun next holds r member => ?_
  have candidate := valid r member
  have base := candidate.base_aligned
  have stop := candidate.stop_aligned
  dsimp only
  split <;> split <;> omega

/-- What the sweep has emitted up to the cursor, the last region first. -/
structure Swept (cursor : Nat) (regions : List Region) : Prop where
  valid : ∀ r ∈ regions, Candidate cursor r
  apart : regions.Pairwise fun later earlier => Apart earlier later

lemma Swept.later (swept : Swept cursor regions) (moved : cursor ≤ next) : Swept next regions :=
  ⟨fun r member => { swept.valid r member with below := Nat.le_trans (swept.valid r member).below moved }, swept.apart⟩

/-- An interval of the sweep: a hole adds nothing, and another one grows the last region or is a region of its own. -/
inductive Emitted (cursor next : Nat) (kind : Kind) : List Region → List Region → Prop
  | hole {regions : List Region} (none : kind = .hole) : Emitted cursor next kind regions regions
  | grown {last : Region} {earlier : List Region} (real : kind ≠ .hole) (touches : last.stop = cursor)
    (same : last.kind = kind) :
    Emitted cursor next kind (last :: earlier) ({ last with stop := next } :: earlier)
  | added {regions : List Region} (real : kind ≠ .hole) (fresh : ∀ last ∈ regions.head?, ¬(last.stop = cursor ∧
    last.kind = kind)) :
    Emitted cursor next kind regions (⟨cursor, next, kind⟩ :: regions)

lemma emit_emitted (emitted : emit regions cursor next kind = .ok after) : Emitted cursor next kind regions after := by
  unfold emit at emitted
  split at emitted
  next none =>
    cases emitted
    exact .hole none
  next real =>
  split at emitted
  · cases emitted
    exact .added real nofun
  split at emitted
  next same =>
    cases emitted
    exact .grown real same.1 same.2
  next fresh =>
  obtain ⟨_, emitted⟩ := ok_iff.mp emitted
  cases emitted
  exact .added real (by simpa using fresh)

lemma Emitted.swept (emitted : Emitted cursor next kind regions after) (swept : Swept cursor regions)
    (moved : cursor < next) (aligned : cursor % pageSize = 0) (nextAligned : next % pageSize = 0) :
    Swept next after := by
  have later := swept.later (Nat.le_of_lt moved)
  cases emitted with
  | hole => exact later
  | @grown last earlier _ touches _ =>
    have held := swept.valid last mem_cons_self
    obtain ⟨order, apart⟩ := pairwise_cons.mp swept.apart
    refine ⟨forall_mem_cons.mpr ⟨?_, (forall_mem_cons.mp later.valid).2⟩, pairwise_cons.mpr ⟨fun r member => ?_, apart⟩⟩
    · exact ⟨Nat.lt_trans held.nonempty (touches ▸ moved), held.base_aligned, nextAligned, Nat.le_refl _⟩
    · exact ⟨(order r member).ordered, (order r member).gap⟩
  | added _ fresh =>
    refine ⟨forall_mem_cons.mpr ⟨⟨moved, aligned, nextAligned, Nat.le_refl _⟩, later.valid⟩,
      pairwise_cons.mpr ⟨fun r member => ?_, swept.apart⟩⟩
    refine ⟨(swept.valid r member).below, fun usable also => ?_⟩
    rcases regions with _ | ⟨last, earlier⟩
    · cases member
    have new := fresh last rfl
    have held := swept.valid last mem_cons_self
    have bound := held.below
    rcases mem_cons.mp member with rfl | older
    · exact Nat.lt_of_le_of_ne bound fun same => new ⟨same, usable.trans also.symm⟩
    · have first := ((pairwise_cons.mp swept.apart).1 r older).ordered
      have second := held.nonempty
      dsimp only
      omega

/-- What every interval of the sweep keeps holds at the limit. -/
lemma sweep_rule {Holds : Nat → List Region → Prop} (valid : ∀ r ∈ found, Candidate limit r)
    (limitAligned : limit % pageSize = 0)
    (step : ∀ {cursor regions after}, cursor % pageSize = 0 → cursor < limit → Holds cursor regions →
      emit regions cursor (nextBoundary found cursor limit) (claim found cursor).1 = .ok after → Holds
      (nextBoundary found cursor limit) after)
    (aligned : cursor % pageSize = 0) (below : cursor ≤ limit) (enough : limit ≤ cursor + turns)
    (start : Holds cursor regions)
    (ran : sweep found limit turns cursor regions = .ok after) : Holds limit after := by
  induction turns generalizing cursor regions with
  | zero =>
    cases ran
    exact Nat.le_antisymm below enough ▸ start
  | succ turns ih =>
    rw [sweep] at ran
    split at ran
    next inside =>
      obtain ⟨moved, nextBelow, nextAligned⟩ := nextBoundary_spec valid limitAligned inside
      obtain ⟨emitted, emits, ran⟩ := bind_ok_iff.mp ran
      exact ih nextAligned nextBelow (by omega) (step aligned inside start emits) ran
    next beyond =>
      cases ran
      exact Nat.le_antisymm below (Nat.le_of_not_lt beyond) ▸ start

lemma two_pow_aligned (wide : 32 ≤ bits) : 2 ^ bits % pageSize = 0 := by
  obtain ⟨extra, rfl⟩ := Nat.exists_eq_add_of_le wide
  rw [Nat.pow_add]
  exact Nat.mod_eq_zero_of_dvd (Nat.dvd_trans (by decide) (Nat.dvd_mul_right _ _))

lemma lowestBase_spec (valid : ∀ r ∈ found, Candidate limit r) (aligned : limit % pageSize = 0) :
    lowestBase found limit % pageSize = 0 ∧ lowestBase found limit ≤ limit := by
  refine List.foldlRecOn (motive := fun cursor => cursor % pageSize = 0 ∧ cursor ≤ limit) found
    _ ⟨aligned, Nat.le_refl _⟩
    fun cursor holds r member => ?_
  have base := (valid r member).base_aligned
  split <;> omega

lemma pmmNormalize_iff {map} :
    pmmNormalize map bits = .ok normalized ↔ ¬(bits < 32 ∨ bits > 52) ∧ headerValid map.header = true ∧
      ∃ found, candidates (2 ^ bits) ((List.range map.header.count).map map.entries) = .ok found ∧ found ≠ [] ∧
        sweep found (2 ^ bits) (2 ^ bits - lowestBase found (2 ^ bits)) (lowestBase found (2 ^ bits))
        [] = .ok normalized.reverse := by
  simp only [pmmNormalize, ok_iff, Bool.not_eq_true', Bool.not_eq_false]
  refine and_congr_right fun _ => and_congr_right fun _ => ?_
  split
  next read => simp [read]
  next read => simp [read]
  next found some read =>
  have turned (swept : Except String (List Region)) : swept.map reverse = .ok normalized ↔
    swept = .ok normalized.reverse := by
    cases swept <;> simp [Except.map, reverse_eq_iff]
  rw [turned]
  constructor
  · exact fun ran => ⟨found, read, some, ran⟩
  · rintro ⟨_, again, _, ran⟩
    cases read.symm.trans again
    exact ran

lemma pmmNormalize_wellFormed {map} (read : pmmNormalize map bits = .ok normalized) : WellFormed normalized := by
  obtain ⟨width, _, found, scanned, _, ran⟩ := pmmNormalize_iff.mp read
  have aligned : 2 ^ bits % pageSize = 0 := two_pow_aligned (by omega)
  have bounded : 2 ^ bits ≤ 2 ^ 52 := Nat.pow_le_pow_right (by decide) (by omega)
  have valid := candidates_valid aligned scanned
  obtain ⟨startAligned, startBelow⟩ := lowestBase_spec valid aligned
  have step {cursor regions after} (here : cursor % pageSize = 0) (inside : cursor < 2 ^ bits)
    (swept : Swept cursor regions)
      (emits : emit regions cursor (nextBoundary found cursor (2 ^ bits)) (claim found cursor).1 = .ok after) :
      Swept (nextBoundary found cursor (2 ^ bits)) after := by
    obtain ⟨moved, _, nextAligned⟩ := nextBoundary_spec valid aligned inside
    exact (emit_emitted emits).swept swept moved here nextAligned
  have start : Swept (lowestBase found (2 ^ bits)) [] := ⟨nofun, .nil⟩
  have all := sweep_rule valid aligned step startAligned startBelow (by omega) start ran
  refine ⟨fun r member => ?_, pairwise_reverse.mp all.apart⟩
  have held := all.valid r (mem_reverse.mpr member)
  exact ⟨held.nonempty, held.base_aligned, held.stop_aligned, Nat.le_trans held.below bounded⟩

/-! Reserving. -/

/-- A piece of a region, usable only where the region was. -/
structure Within (piece whole : Region) : Prop where
  base : whole.base ≤ piece.base
  stop : piece.stop ≤ whole.stop
  usable : piece.kind = .usable → whole.kind = .usable

lemma Apart.within (apart : Apart first second) (inFirst : Within piece first) (inSecond : Within other second) :
    Apart piece other where
  ordered := Nat.le_trans inFirst.stop (Nat.le_trans apart.ordered inSecond.base)
  gap left right := Nat.lt_of_le_of_lt inFirst.stop
    (Nat.lt_of_lt_of_le (apart.gap (inFirst.usable left) (inSecond.usable right)) inSecond.base)

lemma Within.refl (r : Region) : Within r r := ⟨Nat.le_refl _, Nat.le_refl _, id⟩

lemma Within.trans (first : Within piece middle) (second : Within middle whole) : Within piece whole :=
  ⟨Nat.le_trans second.base first.base, Nat.le_trans first.stop second.stop, second.usable ∘ first.usable⟩

/-- What is left after a range was taken out. -/
structure Reserved (base stop : Nat) (regions after : List Region) : Prop where
  wellFormed : WellFormed after
  pieces : ∀ r ∈ after, ∃ whole ∈ regions, Within r whole
  clear : ∀ r ∈ after, r.kind = .usable → r.stop ≤ base ∨ stop ≤ r.base
  fewer : candidateFrames after ≤ candidateFrames regions

lemma candidateFrames_cons (r : Region) (rest : List Region) :
    candidateFrames (r :: rest) = (if r.kind = .usable then r.pages else 0) + candidateFrames rest := by
  unfold candidateFrames
  by_cases usable : r.kind = .usable
  · simp [isUsable, usable]
  · simp [isUsable, usable]

lemma candidateFrames_append (first second : List Region) :
    candidateFrames (first ++ second) = candidateFrames first + candidateFrames second := by
  simp [candidateFrames]

/-- One region, or its pieces around the range. -/
structure Pieces (base stop : Nat) (r : Region) (pieces : List Region) : Prop where
  wellFormed : WellFormed pieces
  within : ∀ piece ∈ pieces, Within piece r
  clear : ∀ piece ∈ pieces, piece.kind = .usable → piece.stop ≤ base ∨ stop ≤ piece.base
  fewer : candidateFrames pieces ≤ candidateFrames [r]

lemma splitRegion_pieces (valid : r.Valid) (usable : r.kind = .usable)
    (taken : kind ≠ .usable) (meets : r.base < stop ∧ base < r.stop) (nonempty : base < stop)
    (baseAligned : base % pageSize = 0)
    (stopAligned : stop % pageSize = 0) : Pieces base stop r (splitRegion base stop kind r) := by
  obtain ⟨low, lowIs⟩ : ∃ low, low = max base r.base := ⟨_, rfl⟩
  obtain ⟨high, highIs⟩ : ∃ high, high = min stop r.stop := ⟨_, rfl⟩
  have lowAligned : low % pageSize = 0 := by
    rcases Nat.le_total base r.base with before | after
    · rw [lowIs, Nat.max_eq_right before, valid.base_aligned]
    · rw [lowIs, Nat.max_eq_left after, baseAligned]
  have highAligned : high % pageSize = 0 := by
    rcases Nat.le_total stop r.stop with before | after
    · rw [highIs, Nat.min_eq_left before, stopAligned]
    · rw [highIs, Nat.min_eq_right after, valid.stop_aligned]
  have proper := valid.nonempty
  have bounds : r.base ≤ low ∧ base ≤ low ∧ low < high ∧ high ≤ r.stop ∧ high ≤ stop := by omega
  have before : r.base < low → Region.Valid ⟨r.base, low, .usable⟩ := fun left =>
    ⟨left, valid.base_aligned, lowAligned, Nat.le_trans (by simp only; omega) valid.bounded⟩
  have middle : Region.Valid ⟨low, high, kind⟩ :=
    ⟨bounds.2.2.1, lowAligned, highAligned, Nat.le_trans bounds.2.2.2.1 valid.bounded⟩
  have after : high < r.stop → Region.Valid ⟨high, r.stop, .usable⟩ :=
    fun right => ⟨right, highAligned, valid.stop_aligned, valid.bounded⟩
  have enters : Apart ⟨r.base, low, .usable⟩ ⟨low, high, kind⟩ := ⟨Nat.le_refl _, fun _ no => absurd no taken⟩
  have leaves : Apart ⟨low, high, kind⟩ ⟨high, r.stop, .usable⟩ := ⟨Nat.le_refl _, fun no => absurd no taken⟩
  have around : Apart ⟨r.base, low, .usable⟩ ⟨high, r.stop, .usable⟩ :=
    ⟨Nat.le_of_lt bounds.2.2.1, fun _ _ => bounds.2.2.1⟩
  have inBefore : Within ⟨r.base, low, .usable⟩ r := ⟨Nat.le_refl _, by simp only; omega, fun _ => usable⟩
  have inMiddle : Within ⟨low, high, kind⟩ r := ⟨bounds.1, bounds.2.2.2.1, fun no => absurd no taken⟩
  have inAfter : Within ⟨high, r.stop, .usable⟩ r := ⟨by simp only; omega, Nat.le_refl _, fun _ => usable⟩
  have counted : ∀ (optional : Prop) [Decidable optional] (x : Region),
      candidateFrames (if optional then [x] else []) ≤ (x.stop - x.base) / pageSize := by
    intro optional _ x
    split
    · rw [candidateFrames_cons]
      split <;> simp [candidateFrames, Region.pages]
    · exact Nat.zero_le _
  rw [splitRegion, ← lowIs, ← highIs]
  refine ⟨⟨?_, ?_⟩, ?_, ?_, ?_⟩
  · simp only [mem_append, mem_ite_nil_right, mem_cons, not_mem_nil, or_false]
    rintro x (⟨left, rfl⟩ | rfl | ⟨right, rfl⟩)
    exacts [before left, middle, after right]
  · refine pairwise_append.mpr ⟨by split <;> simp, pairwise_cons.mpr ⟨?_, by split <;> simp⟩, ?_⟩
    · simp only [mem_ite_nil_right, mem_singleton]
      rintro x ⟨-, rfl⟩
      exact leaves
    · simp only [mem_ite_nil_right, mem_cons, not_mem_nil, or_false]
      rintro x ⟨-, rfl⟩ y (rfl | ⟨-, rfl⟩)
      exacts [enters, around]
  · simp only [mem_append, mem_ite_nil_right, mem_cons, not_mem_nil, or_false]
    rintro x (⟨-, rfl⟩ | rfl | ⟨-, rfl⟩)
    exacts [inBefore, inMiddle, inAfter]
  · simp only [mem_append, mem_ite_nil_right, mem_cons, not_mem_nil, or_false]
    rintro x (⟨left, rfl⟩ | rfl | ⟨right, rfl⟩) isUsable
    · exact .inl (by simp only; omega)
    · exact absurd isUsable taken
    · exact .inr (by simp only; omega)
  have first := counted (r.base < low) ⟨r.base, low, .usable⟩
  have last := counted (high < r.stop) ⟨high, r.stop, .usable⟩
  have whole : candidateFrames [r] = (r.stop - r.base) / pageSize := by
    simp [candidateFrames, isUsable, usable, Region.pages]
  rw [candidateFrames_append, candidateFrames_cons, if_neg taken, whole]
  dsimp only at first last
  unfold pageSize at *
  omega

section
variable (wellFormed : WellFormed regions) (taken : kind ≠ .usable) (nonempty : base < stop)
  (baseAligned : base % pageSize = 0) (stopAligned : stop % pageSize = 0)
include wellFormed taken nonempty baseAligned stopAligned

lemma reserveFrom_reserved (ran : reserveFrom base stop kind total regions = some after) :
    Reserved base stop regions after := by
  induction regions generalizing total after with
  | nil =>
    cases ran
    exact ⟨wellFormed, by simp, by simp, Nat.le_refl _⟩
  | cons r rest ih =>
    obtain ⟨apart, restApart⟩ := pairwise_cons.mp wellFormed.apart
    have restWell : WellFormed rest := ⟨fun x member => wellFormed.valid x (mem_cons_of_mem _ member), restApart⟩
    have valid := wellFormed.valid r mem_cons_self
    -- Both branches put pieces of the first region in front of what is left of the others.
    have join : ∀ pieces restAfter, Pieces base stop r pieces → Reserved base stop rest restAfter →
        Reserved base stop (r :: rest) (pieces ++ restAfter) := by
      intro pieces restAfter split reserved
      refine ⟨⟨?_, ?_⟩, ?_, ?_, ?_⟩
      · intro x member
        exact (mem_append.mp member).elim (split.wellFormed.valid x) (reserved.wellFormed.valid x)
      · refine pairwise_append.mpr ⟨split.wellFormed.apart, reserved.wellFormed.apart, fun x inPieces y inRest => ?_⟩
        obtain ⟨whole, member, inside⟩ := reserved.pieces y inRest
        exact (apart whole member).within (split.within x inPieces) inside
      · intro x member
        rcases mem_append.mp member with inPieces | inRest
        · exact ⟨r, mem_cons_self, split.within x inPieces⟩
        · obtain ⟨whole, found, inside⟩ := reserved.pieces x inRest
          exact ⟨whole, mem_cons_of_mem _ found, inside⟩
      · intro x member
        exact (mem_append.mp member).elim (split.clear x) (reserved.clear x)
      · rw [candidateFrames_append, ← singleton_append, candidateFrames_append]
        exact Nat.add_le_add split.fewer reserved.fewer
    rw [reserveFrom] at ran
    split at ran
    next misses =>
      obtain ⟨restAfter, ranRest, rfl⟩ := Option.map_eq_some_iff.mp ran
      refine join [r] restAfter ⟨⟨by simpa using valid, pairwise_singleton ..⟩, by simpa using Within.refl r, ?_,
        Nat.le_refl _⟩ (ih restWell ranRest)
      simp only [mem_singleton, forall_eq]
      intro usable
      rcases misses with other | after | before
      · exact absurd usable other
      · exact .inr after
      · exact .inl before
    rename_i meets
    simp only [not_or, not_not, Nat.not_le, ge_iff_le] at meets
    dsimp only at ran
    split at ran
    · cases ran
    · obtain ⟨restAfter, ranRest, rfl⟩ := Option.map_eq_some_iff.mp ran
      exact join _ restAfter (splitRegion_pieces valid meets.1 taken
        ⟨meets.2.1, meets.2.2⟩ nonempty baseAligned stopAligned) (ih restWell ranRest)

lemma reserve_reserved (ran : reserve base stop kind regions = some after) : Reserved base stop regions after :=
  reserveFrom_reserved wellFormed taken nonempty baseAligned stopAligned ran

end

end Rynor.Pmm
