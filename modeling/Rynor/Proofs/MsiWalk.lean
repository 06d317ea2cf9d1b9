import Mathlib.Data.List.Perm.Subperm
import Rynor.Interrupts.Msi

/-! The capability walk against the chain of links: it ends, and it reports the first capability of
each kind before the first link that is malformed or repeated. -/

namespace Rynor.Msi
open ByteMemory List
variable {cfg : ByteMemory} {off stop left : Nat} {done visited : List Nat} {seen : Seen}

/-- A capability may stand at the offset. -/
def Valid (off : Nat) : Prop := 0x40 ≤ off ∧ off ≤ 0xfc ∧ off % 4 = 0

/-- The links of the chain from `off` on, and the link behind the last of them. -/
inductive Chain (cfg : ByteMemory) : (off : Nat) → (visited : List Nat) → (stop : Nat) → Prop
  | stop {off : Nat} : Chain cfg off [] off
  | next {off stop : Nat} {visited : List Nat} : Chain cfg (cfg (off + 1)).toNat visited stop →
    Chain cfg off (off :: visited) stop

/-- The visited links are well formed and none is repeated; the next one ends the list, is malformed or repeats one. -/
structure Longest (visited : List Nat) (stop : Nat) : Prop where
  valid : ∀ off ∈ visited, Valid off
  nodup : visited.Nodup
  ends : stop = 0 ∨ ¬Valid stop ∨ stop ∈ visited

/-- The first visited capability with an id. -/
def firstWith (cfg : ByteMemory) (visited : List Nat) (id : Nat) : Option Nat :=
  visited.find? fun off => (cfg off).toNat == id

/-- How the walk reports the link that stops it. -/
def fault (stop : Nat) : Nat :=
  if stop = 0 then 0 else if stop < 0x40 then 2 else if stop > 0xfc then 3 else if stop % 4 ≠ 0 then 4 else 5

def report (cfg : ByteMemory) (visited : List Nat) (malformed : Nat) : Walk where
  hasMsi := (firstWith cfg visited capIdMsi).isSome
  hasMsix := (firstWith cfg visited capIdMsix).isSome
  msiOff := (firstWith cfg visited capIdMsi).getD 0
  msixOff := (firstWith cfg visited capIdMsix).getD 0
  malformed

lemma report_note (cfg : ByteMemory) (done : List Nat) (off : Nat) :
    (report cfg done 0).note (cfg off).toNat off = report cfg (done ++ [off]) 0 := by
  have snoc : ∀ id, firstWith cfg (done ++ [off]) id = (firstWith cfg done id).or (if (cfg off).toNat = id then
    some off else none) := fun id => by
    simp [firstWith, find?_append]
  cases msi : firstWith cfg done capIdMsi <;> cases msix : firstWith cfg done capIdMsix <;>
    simp only [Walk.note, report, snoc, msi, msix]
  all_goals generalize (cfg off).toNat = id
  all_goals by_cases id = capIdMsi <;> by_cases id = capIdMsix <;> simp_all [capIdMsi, capIdMsix]

lemma has_mark (seen : Seen) (bit other : Nat) :
    (seen.mark bit).has other = (seen.has other || decide (other = bit)) := by
  unfold Seen.mark Seen.has
  split_ifs with low lowToo lowToo
  · rw [Nat.testBit_or, Nat.one_shiftLeft, Nat.testBit_two_pow]
    simp [eq_comm]
  · simp; omega
  · simp; omega
  · rw [Nat.testBit_or, Nat.one_shiftLeft, Nat.testBit_two_pow]
    congr 2
    simp; omega

lemma walkFrom_reports (count : done.length + left = 64) (valid : ∀ off ∈ done, Valid off) (nodup : done.Nodup)
    (tracks : ∀ other, Valid other → (seen.has ((other - 0x40) / 4) = true ↔ other ∈ done)) :
    ∃ visited stop, Chain cfg off visited stop ∧ Longest (done ++ visited) stop ∧
      walkFrom cfg left off seen (report cfg done 0) = report cfg (done ++ visited) (fault stop) := by
  induction left generalizing off done seen with
  | zero =>
    -- There are 48 offsets, so the rounds do not run out.
    have inside : done ⊆ (range 48).map (0x40 + 4 * ·) := by
      intro off member
      obtain ⟨low, high, aligned⟩ := valid off member
      exact mem_map.mpr ⟨(off - 0x40) / 4, mem_range.mpr (by omega), by omega⟩
    have few : done.length ≤ 48 := by simpa using (subperm_of_subset nodup inside).length_le
    omega
  | succ left ih =>
    unfold walkFrom
    dsimp only
    have stays (code : Nat) (ends : off = 0 ∨ ¬Valid off ∨ off ∈ done) (same : fault off = code) :
        ∃ visited stop, Chain cfg off visited stop ∧ Longest (done ++ visited) stop ∧
          { report cfg done 0 with malformed := code } = report cfg (done ++ visited) (fault stop) := by
      refine ⟨[], off, .stop, ?_, ?_⟩
      · rw [append_nil]
        exact ⟨valid, nodup, ends⟩
      · rw [append_nil, same]
        rfl
    split_ifs with zero low high skew repeated
    · exact stays 0 (.inl zero) (by simp [fault, zero])
    · exact stays 2 (.inr (.inl fun here => by have := here.1; omega)) (by simp [fault, zero, low])
    · exact stays 3 (.inr (.inl fun here => by have := here.2.1; omega)) (by simp [fault, zero, low, high])
    · exact stays 4 (.inr (.inl fun here => skew here.2.2)) (by simp [fault, zero, low, high, skew])
    all_goals have here : Valid off := ⟨by omega, by omega, by omega⟩
    · exact stays 5 (.inr (.inr ((tracks off here).mp repeated))) (by simp [fault, zero, low, high, skew])
    · have fresh : off ∉ done := fun member => repeated ((tracks off here).mpr member)
      obtain ⟨visited, stop, chain, longest, walk⟩ :=
        @ih (cfg (off + 1)).toNat (done ++ [off]) (seen.mark ((off - 0x40) / 4))
        (by simp; omega) (by simpa [or_imp, forall_and, here] using valid)
          (perm_append_comm.nodup_iff.mp (nodup_cons.mpr ⟨fresh, nodup⟩)) fun other validToo => by
          rw [has_mark, Bool.or_eq_true, decide_eq_true_iff, tracks other validToo, mem_append, mem_singleton]
          obtain ⟨low, _, aligned⟩ := validToo
          exact or_congr_right ⟨fun same => by omega, fun same => by rw [same]⟩
      rw [append_assoc] at longest walk
      exact ⟨off :: visited, stop, .next chain, longest, by rw [report_note]; exact walk⟩

/-- On every configuration space the walk ends; it reports the first capability of each kind among the longest
well-formed part of the chain, and how the link behind that part is malformed. -/
theorem msiWalkCaps_reports (space : Nat → Nat → Nat → ByteMemory) (bus dev fn : Nat) :
    let cfg := space bus dev fn
    ∃ visited stop, Chain cfg (cfg 0x34).toNat visited stop ∧ Longest visited stop ∧ msiWalkCaps space bus dev fn =
        if !bdfOk bus dev fn then (.invalid, report cfg [] 0)
        else if littleEndian cfg 2 = 0xffff then (.ok, report cfg [] 0)
        else if littleEndian (cfg.shift 6) 2 &&& 0x10 = 0 then (.ok, report cfg [] 1)
        else (.ok, report cfg visited (fault stop)) := by
  intro cfg
  obtain ⟨visited, stop, chain, longest, walk⟩ :=
    @walkFrom_reports cfg (cfg 0x34).toNat 64 [] ⟨0, 0⟩ rfl nofun nodup_nil fun other _ => by
    simp [Seen.has]
  refine ⟨visited, stop, chain, longest, ?_⟩
  unfold msiWalkCaps
  rw [← nil_append visited, ← walk]
  rfl

end Rynor.Msi
