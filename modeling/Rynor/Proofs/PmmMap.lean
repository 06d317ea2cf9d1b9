import Mathlib.Data.Set.Finite.Lemmas
import Rynor.Proofs.PmmRegions

/-! The normalized map page by page. A page has the strongest of the kinds that entries claim for it, where a usable
entry claims a page it has only a part of as reserved. -/

namespace Rynor.Pmm
open List Checks
variable {limit cursor next bits page : Nat} {found others regions after : List Region} {entries : List MapEntry}
  {entry : MapEntry} {kind : Kind}

/-! Entries over a page. -/

namespace MapEntry

def Present (entry : MapEntry) : Prop := ¬(entry.returnedSize = 24 ∧ entry.attributes % 2 = 0) ∧ entry.length ≠ 0

def Touches (entry : MapEntry) (page : Nat) : Prop :=
  entry.Present ∧ entry.base < page + pageSize ∧ page < entry.base + entry.length

def Covers (entry : MapEntry) (page : Nat) : Prop := entry.base ≤ page ∧ page + pageSize ≤ entry.base + entry.length

instance : Decidable (entry.Covers page) := inferInstanceAs (Decidable (_ ∧ _))

/-- What the sweep takes an entry to claim for a page it touches. -/
def kindAt (entry : MapEntry) (page : Nat) : Kind :=
  if entryKind entry = .usable ∧ ¬entry.Covers page then .reserved else entryKind entry

end MapEntry

/-- A region of this kind has the address. -/
def Marks (regions : List Region) (address : Nat) (kind : Kind) : Prop :=
  ∃ r ∈ regions, (r.base ≤ address ∧ address < r.stop) ∧ r.kind = kind

lemma entryCandidates_marks (read : entryCandidates limit entry = .ok found) (aligned : page % pageSize = 0) :
    Marks found page kind ↔ entry.Touches page ∧ entry.kindAt page = kind := by
  unfold entryCandidates at read
  simp only [Marks, ok_iff, MapEntry.Touches, MapEntry.Present] at read ⊢
  obtain ⟨_, read⟩ := read
  split at read
  next ignored =>
    cases read
    simp [ignored]
  split at read
  next empty =>
    cases read
    simp [empty]
  rename_i present nonzero
  obtain ⟨inRange, read⟩ := ok_iff.mp read
  have touches : entry.base < page + pageSize ∧ page < entry.base + entry.length ↔
      pageDown entry.base ≤ page ∧ page < pageUp (entry.base + entry.length) := by
    unfold pageUp pageDown pageSize at *
    omega
  simp only [present, nonzero, not_false_eq_true, ne_eq, true_and, touches]
  split at read
  next other =>
    cases read
    simp [MapEntry.kindAt, other]
  rename_i usable
  have usable := not_not.mp usable
  have covers : entry.Covers page ↔ pageUp entry.base ≤ page ∧ page < pageDown (entry.base + entry.length) := by
    unfold MapEntry.Covers pageUp pageDown pageSize at *
    omega
  simp only [MapEntry.kindAt, usable, true_and, covers]
  split at read
  · cases read
    rw [if_pos (by omega)]
    simp
  rename_i shrunk
  have order : pageDown entry.base ≤ pageUp entry.base ∧
    pageDown (entry.base + entry.length) ≤ pageUp (entry.base + entry.length) := by
    unfold pageUp pageDown pageSize
    omega
  cases read
  simp only [mem_append, mem_ite_nil_right, mem_singleton]
  constructor
  · rintro ⟨r, (⟨_, rfl⟩ | rfl) | ⟨_, rfl⟩, hits, rfl⟩
    · dsimp only at hits
      exact ⟨by omega, if_pos (by omega)⟩
    · exact ⟨by dsimp only at hits; omega, if_neg (not_not.mpr hits)⟩
    · dsimp only at hits
      exact ⟨by omega, if_pos (by omega)⟩
  rintro ⟨hits, rfl⟩
  by_cases inner : pageUp entry.base ≤ page ∧ page < pageDown (entry.base + entry.length)
  · exact ⟨_, .inl (.inr rfl), inner, (if_neg (not_not.mpr inner)).symm⟩
  rw [if_pos inner]
  rcases lt_or_ge page (pageUp entry.base) with before | after
  · exact ⟨_, .inl (.inl ⟨by omega, rfl⟩), ⟨hits.1, before⟩, rfl⟩
  · exact ⟨_, .inr ⟨by omega, rfl⟩, ⟨by dsimp only; omega, hits.2⟩, rfl⟩

lemma candidates_marks (read : candidates limit entries = .ok found) (aligned : page % pageSize = 0) :
    Marks found page kind ↔ ∃ entry ∈ entries, entry.Touches page ∧ entry.kindAt page = kind := by
  induction entries generalizing found with
  | nil =>
    cases read
    simp [Marks]
  | cons entry entries ih =>
    obtain ⟨first, rest, here, later, rfl⟩ := candidates_cons.mp read
    rw [exists_mem_cons_iff, ← ih later, ← entryCandidates_marks here aligned]
    simp only [Marks, mem_append, or_and_right, exists_or]

lemma candidates_perm {others} (same : entries.Perm others) (read : candidates limit entries = .ok found) :
    ∃ again, candidates limit others = .ok again ∧ found.Perm again := by
  induction same generalizing found with
  | nil => exact ⟨found, read, .refl found⟩
  | cons entry _ ih =>
    obtain ⟨first, rest, here, later, rfl⟩ := candidates_cons.mp read
    obtain ⟨again, ran, same⟩ := ih later
    exact ⟨_, candidates_cons.mpr ⟨first, again, here, ran, rfl⟩, same.append_left first⟩
  | swap one two =>
    obtain ⟨first, _, here, tail, rfl⟩ := candidates_cons.mp read
    obtain ⟨second, rest, there, later, rfl⟩ := candidates_cons.mp tail
    exact ⟨_, candidates_cons.mpr ⟨second, _, there, candidates_cons.mpr ⟨first, rest, here, later, rfl⟩, rfl⟩,
      perm_append_comm_assoc ..⟩
  | trans _ _ first second =>
    obtain ⟨middle, ran, one⟩ := first read
    obtain ⟨again, ran, two⟩ := second ran
    exact ⟨again, ran, one.trans two⟩

/-! What the sweep computes from the candidates. -/

lemma le_nextBoundary_iff : bound ≤ nextBoundary found cursor limit ↔
    bound ≤ limit ∧ ∀ r ∈ found, (cursor < r.base → bound ≤ r.base) ∧ (cursor < r.stop → bound ≤ r.stop) := by
  unfold nextBoundary
  induction found generalizing limit with
  | nil => simp
  | cons r rest ih =>
    rw [foldl_cons, ih, forall_mem_cons, ← and_assoc]
    refine and_congr_left fun _ => ?_
    dsimp only
    split <;> split <;> omega

lemma le_lowestBase_iff : bound ≤ lowestBase found limit ↔ bound ≤ limit ∧ ∀ r ∈ found, bound ≤ r.base := by
  unfold lowestBase
  induction found generalizing limit with
  | nil => simp
  | cons r rest ih =>
    rw [foldl_cons, ih, forall_mem_cons, ← and_assoc]
    refine and_congr_left fun _ => ?_
    split <;> omega

lemma claim_congr (same : ∀ r ∈ found, (r.base ≤ cursor ∧ cursor < r.stop) ↔ (r.base ≤ address ∧ address < r.stop)) :
    claim found cursor = claim found address := by
  refine foldl_ext _ _ _ fun _ r member => ?_
  exact if_congr (by rw [← and_assoc, same r member, and_assoc]) rfl rfl

lemma claim_spec : (∀ r ∈ found, r.base ≤ cursor ∧ cursor < r.stop → priority r.kind ≤ (claim found cursor).2) ∧
    (claim found cursor = (.hole, 0) ∨ ∃ r ∈ found, (r.base ≤ cursor ∧ cursor < r.stop) ∧
      claim found cursor = (r.kind, priority r.kind)) := by
  induction found using List.reverseRecOn with
  | nil => exact ⟨nofun, .inl rfl⟩
  | append_singleton found r ih =>
    obtain ⟨above, reached⟩ := ih
    have last : claim (found ++ [r]) cursor =
        if r.base ≤ cursor ∧ cursor < r.stop ∧ priority r.kind > (claim found cursor).2 then
          (r.kind, priority r.kind) else claim found cursor := by
      rw [claim, foldl_append]
      rfl
    rw [last]
    simp only [mem_append, mem_singleton]
    split
    next wins =>
      refine ⟨?_, .inr ⟨r, .inr rfl, ⟨wins.1, wins.2.1⟩, rfl⟩⟩
      rintro other (old | rfl) hits
      · exact (above other old hits).trans (le_of_lt wins.2.2)
      · exact le_rfl
    next loses =>
    refine ⟨?_, reached.imp_right fun ⟨r, old, rest⟩ => ⟨r, .inl old, rest⟩⟩
    rintro other (old | rfl) hits
    · exact above other old hits
    · exact not_lt.mp fun more => loses ⟨hits.1, hits.2, more⟩

lemma claim_some (real : (claim found cursor).1 ≠ .hole) : ∃ r ∈ found, r.base ≤ cursor ∧ cursor < r.stop := by
  rcases (@claim_spec cursor found).2 with none | ⟨r, member, hits, _⟩
  · exact absurd (congrArg Prod.fst none) real
  · exact ⟨r, member, hits⟩

/-- The strongest of the kinds that entries claim for the page. -/
def Prevails (entries : List MapEntry) (page : Nat) (kind : Kind) : Prop :=
  (∃ entry ∈ entries, entry.Touches page ∧ entry.kindAt page = kind) ∧
    ∀ entry ∈ entries, entry.Touches page → priority (entry.kindAt page) ≤ priority kind

/-- The kinds an entry can have: no two of them are equally strong. -/
def Kind.Firmware (kind : Kind) : Prop := kind ≠ .hole ∧ kind ≠ .bootReserved ∧ kind ≠ .metadata

lemma entryKind_firmware (entry : MapEntry) : (entryKind entry).Firmware := by
  unfold entryKind Kind.Firmware
  repeat' split
  all_goals decide

lemma kindAt_firmware (entry : MapEntry) (page : Nat) : (entry.kindAt page).Firmware := by
  unfold MapEntry.kindAt
  split
  · exact ⟨nofun, nofun, nofun⟩
  · exact entryKind_firmware entry

lemma Kind.Firmware.unique (first : kind.Firmware) (second : other.Firmware)
    (same : priority kind = priority other) : kind = other := by
  unfold Kind.Firmware at first second
  cases kind <;> cases other <;> simp_all [priority]

lemma claim_iff (read : candidates limit entries = .ok found) (aligned : page % pageSize = 0) (real : kind ≠ .hole) :
    (claim found page).1 = kind ↔ Prevails entries page kind := by
  obtain ⟨above, reached⟩ := @claim_spec page found
  have above : ∀ entry ∈ entries, entry.Touches page → priority (entry.kindAt page) ≤ (claim found page).2 := by
    intro entry inside touches
    obtain ⟨r, member, hits, same⟩ := (candidates_marks read aligned).mpr ⟨entry, inside, touches, rfl⟩
    exact same ▸ above r member hits
  rcases reached with none | ⟨r, member, hits, same⟩
  · rw [none] at above ⊢
    refine ⟨fun same => absurd same.symm real, fun prevails => ?_⟩
    obtain ⟨entry, inside, touches, _⟩ := prevails.1
    have low := above entry inside touches
    generalize entry.kindAt page = claimed at low
    cases claimed <;> cases low
  rw [same] at above ⊢
  have own := (candidates_marks read aligned).mp ⟨r, member, hits, rfl⟩
  constructor
  · rintro rfl
    exact ⟨own, above⟩
  · intro prevails
    obtain ⟨entry, inside, touches, rfl⟩ := prevails.1
    obtain ⟨top, topIn, topTouches, topKind⟩ := own
    have most := prevails.2 top topIn topTouches
    rw [topKind] at most
    exact (topKind ▸ kindAt_firmware top page).unique (kindAt_firmware entry page)
      (le_antisymm most (above entry inside touches))

lemma claim_perm (same : first.Perm second) (one : candidates limit first = .ok others)
    (two : candidates limit second = .ok found) (aligned : page % pageSize = 0) :
    (claim others page).1 = (claim found page).1 := by
  have agree (kind : Kind) (real : kind ≠ .hole) : (claim others page).1 = kind ↔ (claim found page).1 = kind := by
    rw [claim_iff one aligned real, claim_iff two aligned real]
    simp only [Prevails, same.mem_iff]
  by_cases hole : (claim found page).1 = .hole
  · by_contra differs
    exact differs ((agree _ fun same => differs (same.trans hole.symm)).mp rfl).symm
  · exact (agree _ hole).mpr rfl

/-! The sweep. -/

lemma Emitted.marks (emitted : Emitted cursor next kind regions after) (swept : Swept cursor regions)
    (moved : cursor < next) :
    Marks after address other ↔ Marks regions address other ∨ kind ≠ .hole ∧ (cursor ≤ address ∧ address < next) ∧
    kind = other := by
  cases emitted with
  | hole none => simp [none]
  | @grown last earlier real touches same =>
    have held := (swept.valid last mem_cons_self).nonempty
    subst touches same
    have joined : last.base ≤ address ∧ address < next ↔
        (last.base ≤ address ∧ address < last.stop) ∨ (last.stop ≤ address ∧ address < next) := by omega
    simp only [Marks, exists_mem_cons_iff, joined, or_and_right, real, ne_eq, not_false_eq_true, true_and]
    exact or_right_comm
  | added real =>
    simp only [Marks, exists_mem_cons_iff, real, ne_eq, not_false_eq_true, true_and]
    exact or_comm

/-- Neighbours of one kind do not touch. -/
def Merged (earlier later : Region) : Prop := earlier.stop = later.base → earlier.kind ≠ later.kind

lemma Emitted.merged (emitted : Emitted cursor next kind regions after)
    (merged : regions.IsChain fun later earlier => Merged earlier later) :
    after.IsChain fun later earlier => Merged earlier later := by
  cases emitted with
  | hole => exact merged
  | grown => exact isChain_cons.mpr (isChain_cons.mp merged)
  | added _ fresh => exact isChain_cons.mpr ⟨fun last here touches same => fresh last here ⟨touches, same⟩, merged⟩

/-- What the sweep has emitted up to the cursor marks what the candidates claim there. -/
structure Painted (found : List Region) (cursor : Nat) (regions : List Region) : Prop extends Swept cursor regions where
  marks : ∀ address kind, kind ≠ .hole → (Marks regions address kind ↔ address < cursor ∧
    (claim found address).1 = kind)
  merged : regions.IsChain fun later earlier => Merged earlier later

lemma Painted.emit (painted : Painted found cursor regions) (valid : ∀ r ∈ found, Candidate limit r)
    (limitAligned : limit % pageSize = 0) (aligned : cursor % pageSize = 0) (inside : cursor < limit)
    (emitted : Emitted cursor (nextBoundary found cursor limit) (claim found cursor).1 regions after) :
    Painted found (nextBoundary found cursor limit) after := by
  obtain ⟨moved, _, nextAligned⟩ := nextBoundary_spec valid limitAligned inside
  have bounds := (le_nextBoundary_iff.mp (le_refl (nextBoundary found cursor limit))).2
  generalize nextBoundary found cursor limit = next at *
  refine ⟨emitted.swept painted.toSwept moved aligned nextAligned, fun address kind real => ?_,
    emitted.merged painted.merged⟩
  -- No candidate begins or ends between the cursor and the boundary.
  have constant : cursor ≤ address → address < next → claim found cursor = claim found address := fun low high =>
    claim_congr fun r member => by
      have bound := bounds r member
      omega
  rw [emitted.marks painted.toSwept moved, painted.marks address kind real]
  constructor
  · rintro (⟨before, same⟩ | ⟨_, ⟨low, high⟩, same⟩)
    · exact ⟨lt_trans before moved, same⟩
    · exact ⟨high, constant low high ▸ same⟩
  · rintro ⟨high, same⟩
    rcases lt_or_ge address cursor with before | low
    · exact .inl ⟨before, same⟩
    · rw [constant low high, same]
      exact .inr ⟨real, ⟨low, high⟩, rfl⟩

lemma sweep_congr (valid : ∀ r ∈ found, Candidate limit r) (limitAligned : limit % pageSize = 0)
    (boundary : ∀ cursor, nextBoundary others cursor limit = nextBoundary found cursor limit)
    (claims : ∀ cursor, cursor % pageSize = 0 → (claim others cursor).1 = (claim found cursor).1)
    (aligned : cursor % pageSize = 0) :
    sweep others limit turns cursor regions = sweep found limit turns cursor regions := by
  induction turns generalizing cursor regions with
  | zero => rfl
  | succ turns ih =>
    unfold sweep
    rw [boundary, claims cursor aligned]
    split
    next inside =>
      obtain ⟨_, _, nextAligned⟩ := nextBoundary_spec valid limitAligned inside
      exact congrArg _ (funext fun regions => ih nextAligned)
    · rfl

/-! The law of a page. -/

/-- Every byte of the page is usable memory, and no entry says otherwise. -/
structure AllUsable (entries : List MapEntry) (page : Nat) : Prop where
  covered : ∀ address, page ≤ address → address < page + pageSize →
    ∃ entry ∈ entries, entry.Present ∧ entryKind entry = .usable ∧ entry.base ≤ address ∧
      address < entry.base + entry.length
  only : ∀ entry ∈ entries, entry.Touches page → entryKind entry = .usable

structure PageLaw (entries : List MapEntry) (regions : List Region) (page : Nat) : Prop where
  usable : Marks regions page .usable ↔ AllUsable entries page
  strongest : ∀ entry ∈ entries, entry.Touches page → entryKind entry ≠ .usable → ∃ top ∈ entries, top.Touches page ∧
    (∀ other ∈ entries, other.Touches page → priority (entryKind other) ≤ priority (entryKind top)) ∧
      Marks regions page (entryKind top)

/-- Where a usable entry has only a part of the page: other usable entries do not have the rest, and a claim of
another kind comes with one as strong as a reservation. -/
def Settled (entries : List MapEntry) (page : Nat) : Prop :=
  ∀ entry ∈ entries, entry.Touches page → entryKind entry = .usable → ¬entry.Covers page → ¬AllUsable entries page ∧
    ∀ other ∈ entries, other.Touches page → entryKind other ≠ .usable →
      ∃ strong ∈ entries, strong.Touches page ∧ priority .reserved ≤ priority (entryKind strong)

lemma kindAt_usable : entry.kindAt page = .usable ↔ entryKind entry = .usable ∧ entry.Covers page := by
  unfold MapEntry.kindAt
  split <;> simp_all

lemma priority_kindAt (entry : MapEntry) (page : Nat) : priority (entryKind entry) ≤ priority (entry.kindAt page) := by
  unfold MapEntry.kindAt
  split
  next partly =>
    rw [partly.1]
    decide
  · exact le_rfl

lemma priority_pos (kind : Kind) : 1 ≤ priority kind := by
  cases kind <;> decide

lemma pageLaw_iff (marks : ∀ kind, kind ≠ .hole → (Marks regions page kind ↔ Prevails entries page kind)) :
    PageLaw entries regions page ↔ Settled entries page := by
  constructor
  · intro law entry inside touches usable partly
    have raised : entry.kindAt page = .reserved := if_pos ⟨usable, partly⟩
    refine ⟨fun all => ?_, fun other otherIn otherTouches differs => ?_⟩
    · have most := ((marks .usable nofun).mp (law.usable.mpr all)).2 entry inside touches
      rw [raised] at most
      exact absurd most (by decide)
    · obtain ⟨top, topIn, topTouches, _, here⟩ := law.strongest other otherIn otherTouches differs
      have most := ((marks _ (entryKind_firmware top).1).mp here).2 entry inside touches
      exact ⟨top, topIn, topTouches, raised ▸ most⟩
  intro settled
  refine ⟨(marks .usable nofun).trans ⟨fun prevails => ?_, fun all => ?_⟩, fun entry inside touches differs => ?_⟩
  · have whole : ∀ entry ∈ entries, entry.Touches page → entryKind entry = .usable ∧ entry.Covers page :=
      fun entry inside touches => by
      have least := le_antisymm (prevails.2 entry inside touches) (priority_pos _)
      exact kindAt_usable.mp ((kindAt_firmware entry page).unique ⟨nofun, nofun, nofun⟩ least)
    obtain ⟨top, inside, touches, _⟩ := prevails.1
    obtain ⟨usable, low, high⟩ := whole top inside touches
    exact ⟨fun address above below => ⟨top, inside, touches.1, usable, by omega, by omega⟩,
      fun entry inside touches => (whole entry inside touches).1⟩
  · have whole : ∀ entry ∈ entries, entry.Touches page → entry.kindAt page = .usable := fun entry inside touches => by
      have usable := all.only entry inside touches
      exact kindAt_usable.mpr ⟨usable, not_not.mp fun partly => (settled entry inside touches usable partly).1 all⟩
    have positive : 0 < pageSize := by decide
    obtain ⟨entry, inside, present, _, low, high⟩ := all.covered page le_rfl (by omega)
    have touches : entry.Touches page := ⟨present, by omega, high⟩
    exact ⟨⟨entry, inside, touches, whole entry inside touches⟩, fun other otherIn otherTouches => by
      rw [whole other otherIn otherTouches]⟩
  · obtain ⟨top, ⟨topIn, topTouches⟩, most⟩ := Set.exists_max_image {entry | entry ∈ entries ∧ entry.Touches page}
      (fun entry => priority (entry.kindAt page)) ((finite_toSet entries).subset fun _ member => member.1) ⟨entry,
        inside, touches⟩
    have prevails : Prevails entries page (top.kindAt page) :=
      ⟨⟨top, topIn, topTouches, rfl⟩, fun other otherIn otherTouches => most other ⟨otherIn, otherTouches⟩⟩
    obtain ⟨strong, strongIn, strongTouches, same⟩ : ∃ strong ∈ entries, strong.Touches page ∧
      entryKind strong = top.kindAt page := by
      by_cases partly : entryKind top = .usable ∧ ¬top.Covers page
      · obtain ⟨strong, strongIn, strongTouches, least⟩ :=
          (settled top topIn topTouches partly.1 partly.2).2 entry inside touches differs
        have below := (priority_kindAt strong page).trans (prevails.2 strong strongIn strongTouches)
        rw [MapEntry.kindAt, if_pos partly] at below ⊢
        exact ⟨strong, strongIn, strongTouches,
          (entryKind_firmware strong).unique ⟨nofun, nofun, nofun⟩ (le_antisymm below least)⟩
      · exact ⟨top, topIn, topTouches, (if_neg partly).symm⟩
    refine ⟨strong, strongIn, strongTouches, fun other otherIn otherTouches => ?_, ?_⟩
    · rw [same]
      exact (priority_kindAt other page).trans (prevails.2 other otherIn otherTouches)
    · rw [same]
      exact (marks _ (kindAt_firmware top page).1).mpr prevails

def firmwareMap (entries : List MapEntry) : BootMemoryMap :=
  ⟨⟨bootMapMagic, 1, entries.length, bootMapCapacity, 32, 1, 4096, 0⟩,
    fun index => entries.getD index ⟨0, 0, 0, 0, 0, 0⟩⟩

end Rynor.Pmm
