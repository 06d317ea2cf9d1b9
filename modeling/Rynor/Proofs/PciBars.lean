import Mathlib.Data.List.Pairwise
import Rynor.Drivers.Pci

/-! The BARs of one function lie in slots of their own. -/

namespace Rynor.Pci
open List
variable {σ : Type} {space : Space σ} {slot nslots left count low : Nat} {s next : σ} {bar : Bar} {visit : Visit σ}
  {visits : List (Visit σ)}

/-- The slots that the scan moves on by. -/
def Visit.used (visit : Visit σ) : Nat := (visit.bar.map Bar.slots).getD 1

/-- The dword that a look finds. -/
def Visit.raw (space : Space σ) (visit : Visit σ) : BitVec 32 := space.read visit.before (barOffset visit.slot)

/-- A recorded BAR is that of the slot, and as wide as its dword declares. -/
def Visit.Decoded (space : Space σ) (visit : Visit σ) : Prop :=
  ∀ bar ∈ visit.bar, bar.index = visit.slot ∧ declares64 (visit.raw space) = bar.is64

lemma barDecode_some (decoded : barDecode space slot nslots s = (some bar, next)) :
    bar.index = slot ∧ declares64 (space.read s (barOffset slot)) = bar.is64 := by
  simp only [barDecode] at decoded
  split at decoded
  · cases decoded
  split at decoded
  next io =>
    iterate 2
      split at decoded
      · cases decoded
    cases decoded
    exact ⟨rfl, by rw [declares64, io]; rfl⟩
  split at decoded
  next wide =>
    iterate 3
      split at decoded
      · cases decoded
    cases decoded
    exact ⟨rfl, wide⟩
  next narrow =>
  iterate 2
    split at decoded
    · cases decoded
  cases decoded
  exact ⟨rfl, by simpa using narrow⟩

lemma accepted_decoded (decoded : barDecode space slot nslots s = (some bar, next)) :
    Visit.Decoded space ⟨slot, s, some bar⟩ := by
  rintro _ ⟨rfl⟩
  exact barDecode_some decoded

/-- Visits in order from a slot on, each behind the slots of those before it. -/
structure Ordered (space : Space σ) (low : Nat) (visits : List (Visit σ)) : Prop where
  order : visits.Pairwise fun a b => a.slot + a.used ≤ b.slot
  each : ∀ visit ∈ visits, low ≤ visit.slot ∧ visit.Decoded space

lemma Ordered.cons (rest : Ordered space low visits) (decoded : visit.Decoded space)
    (behind : visit.slot + visit.used ≤ low) :
    Ordered space visit.slot (visit :: visits) where
  order := pairwise_cons.mpr ⟨fun other member => Nat.le_trans behind (rest.each other member).1, rest.order⟩
  each other member := by
    rcases mem_cons.mp member with rfl | later
    · exact ⟨Nat.le_refl _, decoded⟩
    · exact ⟨by have := (rest.each other later).1; omega, (rest.each other later).2⟩

lemma scanBars_ordered (left count : Nat) (s : σ) (bound : left ≤ nslots) :
    Ordered space (nslots - left) (scanBars space nslots left count s) := by
  -- Along the recursion of the scan: a step leaves one slot behind, an accepted 64-bit BAR two.
  fun_induction scanBars space nslots left count s with
  | case1 | case2 => exact ⟨.nil, nofun⟩
  | case3 left count s room slot next empty visit ih =>
    have decoded : visit.Decoded space := nofun
    exact (ih (by omega)).cons decoded (by simp [Visit.used, visit, slot]; omega)
  | case4 count s room next bar wide slot decoded visit =>
    have last : Ordered space (nslots + 2) [] := ⟨.nil, nofun⟩
    exact last.cons (accepted_decoded decoded) (by simp [Visit.used, Bar.slots, slot, wide])
  | case5 count s room next bar wide rest slot decoded visit ih | case6 _ _ _ _ slot _ _ wide decoded _ ih =>
    exact (ih (by omega)).cons (accepted_decoded decoded) (by simp [Visit.used, Bar.slots, slot, wide]; omega)

/-- A look at a slot in some state of the space. -/
def look (space : Space σ) (nslots slot : Nat) (s : σ) : Visit σ := ⟨slot, s, (barDecode space slot nslots s).1⟩

lemma look_mem_scanBars (some : 0 < left) (room : ¬ count ≥ maxBarEntries) :
    look space nslots (nslots - left) s ∈ scanBars space nslots left count s := by
  obtain ⟨left, rfl⟩ := Nat.exists_eq_succ_of_ne_zero (Nat.pos_iff_ne_zero.mp some)
  rw [scanBars, if_neg room, look]
  dsimp only
  repeat' split
  all_goals exact mem_cons_self

/-- The scan looks at the slot right behind one that it rejected, in the state the rejection left. -/
lemma scanBars_after_rejected (member : visit ∈ scanBars space nslots left count s) (rejected : visit.bar = none)
    (bound : left ≤ nslots) (more : visit.slot + 1 < nslots) :
    look space nslots (visit.slot + 1) (barDecode space visit.slot nslots visit.before).2 ∈
      scanBars space nslots left count s := by
  fun_induction scanBars space nslots left count s with
  | case1 | case2 => cases member
  | case3 left count s room slot next empty head ih =>
    rcases mem_cons.mp member with rfl | later
    · have behind : head.slot + 1 = nslots - left := by simp only [head, slot]; omega
      simp only [head, slot] at more
      rw [behind, show (barDecode space head.slot nslots head.before).2 = next by rw [empty]]
      exact mem_cons_of_mem _ (look_mem_scanBars (by omega) room)
    · exact mem_cons_of_mem _ (ih later (by omega))
  | case4 =>
    rw [mem_singleton.mp member] at rejected
    cases rejected
  | case5 _ _ _ _ _ _ _ _ _ _ ih | case6 _ _ _ _ _ _ _ _ _ _ ih =>
    rcases mem_cons.mp member with rfl | later
    · cases rejected
    · exact mem_cons_of_mem _ (ih later (by omega))

lemma Ordered.apart (ordered : Ordered space low visits) {other : Visit σ} (first : visit ∈ visits)
    (second : other ∈ visits) (differ : visit ≠ other) :
    visit.slot + visit.used ≤ other.slot ∨ other.slot + other.used ≤ visit.slot := by
  let Separate (a b : Visit σ) : Prop := a.slot + a.used ≤ b.slot ∨ b.slot + b.used ≤ a.slot
  have symmetric : Std.Symm Separate := ⟨fun _ _ => Or.symm⟩
  have pairs : visits.Pairwise Separate := ordered.order.imp .inl
  exact pairs.forall first second differ

lemma Visit.used_pos (visit : Visit σ) : 0 < visit.used := by
  unfold Visit.used
  cases visit.bar with
  | none => exact Nat.one_pos
  | some bar => simp only [Option.map_some, Option.getD_some, Bar.slots]; split <;> omega

lemma Ordered.unique (ordered : Ordered space low visits) {other : Visit σ} (first : visit ∈ visits)
    (second : other ∈ visits) (same : visit.slot = other.slot) : visit = other := by
  by_contra differ
  have positive := visit.used_pos
  have also := other.used_pos
  rcases ordered.apart first second differ with before | after <;> omega

lemma Ordered.disjoint (ordered : Ordered space low visits) :
    (visits.filterMap Visit.bar).Pairwise fun a b => a.index + a.slots ≤ b.index := by
  rw [pairwise_filterMap]
  refine ordered.order.imp_of_mem fun {a b} inA inB behind first held second heldToo => ?_
  rw [((ordered.each a inA).2 first held).1, ((ordered.each b inB).2 second heldToo).1]
  simpa only [Visit.used, held, Option.map_some, Option.getD_some] using behind

/-- What the device shows at a slot: a 64-bit BAR that is rejected, with a dword behind it that is then a BAR of its
own. -/
def Exposes (space : Space σ) (nslots slot : Nat) (s : σ) : Prop :=
  declares64 (space.read s (barOffset slot)) = true ∧ (barDecode space slot nslots s).1 = none ∧ slot + 1 < nslots ∧
    (barDecode space (slot + 1) nslots (barDecode space slot nslots s).2).1.isSome = true

lemma scanBars_each (member : visit ∈ scanBars space nslots left count s) (bound : left ≤ nslots) :
    visit.slot < nslots ∧ visit.bar = (barDecode space visit.slot nslots visit.before).1 := by
  fun_induction scanBars space nslots left count s with
  | case1 | case2 => cases member
  | case3 _ _ _ _ _ _ found _ ih | case5 _ _ _ _ _ _ _ _ found _ ih | case6 _ _ _ _ _ _ _ _ found _ ih =>
    rcases mem_cons.mp member with rfl | later
    · exact ⟨Nat.sub_lt (by omega) (Nat.succ_pos _), by rw [found]⟩
    · exact ih later (by omega)
  | case4 _ _ _ _ _ _ _ found =>
    rw [mem_singleton.mp member]
    exact ⟨Nat.sub_lt (by omega) (Nat.succ_pos _), by rw [found]⟩

/-- A function with plain registers, of which a mask can be written. -/
def function (mask : Nat → BitVec 32) : Space (Nat → BitVec 32) where
  read s off := s off
  write s off value := Function.update s off (value &&& mask off ||| s off &&& ~~~mask off)

/-- Words at the command register and from the first BAR on. -/
def words (command first second third : BitVec 32) (off : Nat) : BitVec 32 :=
  if off = 4 then command else if off = 16 then first else if off = 20 then second else if off = 24 then third else 0

end Rynor.Pci
