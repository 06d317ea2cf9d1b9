import Rynor.Proofs.ProcResults

/-! Who frees a slot: the chain of owners ends at the kernel, which either received the
handle itself or adopted the process when its owner was freed. -/

namespace Rynor.Proc
open Outcome List
open Function (update update_self update_of_ne)

/-- An owner is older than what it owns, and a slot of the kernel was spawned for it or
adopted by it. -/
structure Lineage (slots : Nat → Slot) (admitted : List Admission) (orphaned claimed reaped : List (Nat × Nat)) :
    Prop where
  older : ∀ i o : Nat, i < maxProcs → (slots i).state ≠ .free → (slots i).owner = o →
    (slots o).worker < (slots i).worker
  known : ∀ i, i < maxProcs → (slots i).state ≠ .free → (slots i).owner = ownerKernel →
    (i, (slots i).gen) ∈ orphaned ∨ ∃ a ∈ admitted, a.slot = i ∧ a.gen = (slots i).gen ∧ a.owner = ownerKernel
  orphan : ∀ i gen, (i, gen) ∈ orphaned → i < maxProcs ∧
    ((i, gen) ∈ claimed ∨ ((slots i).state ≠ .free ∧ (slots i).gen = gen ∧ (slots i).owner = ownerKernel))
  gone : claimed ⊆ reaped

structure SameLine (before after : Slot) : Prop where
  free : after.state = .free ↔ before.state = .free
  gen : after.gen = before.gen
  owner : after.owner = before.owner
  worker : after.worker = before.worker

section
variable {slots next : Nat → Slot} {admitted : List Admission} {orphaned claimed reaped after : List (Nat × Nat)}
  {i : Nat}

section
variable (lineage : Lineage slots admitted orphaned claimed reaped)
include lineage

lemma Lineage.same (same : ∀ j, SameLine (slots j) (next j)) : Lineage next admitted orphaned claimed reaped := by
  refine ⟨fun i o inside held owner => ?_, fun i inside held owner => ?_, fun i gen member => ?_, lineage.gone⟩
  · rw [(same i).worker, (same o).worker]
    exact lineage.older i o inside (fun isFree => held ((same i).free.mpr isFree)) ((same i).owner ▸ owner)
  · rw [(same i).gen]
    exact lineage.known i inside (fun isFree => held ((same i).free.mpr isFree)) ((same i).owner ▸ owner)
  · obtain ⟨inside, told | ⟨held, current, kernel⟩⟩ := lineage.orphan i gen member
    · exact ⟨inside, .inl told⟩
    · exact ⟨inside, .inr ⟨fun isFree => held ((same i).free.mp isFree), (same i).gen.trans current,
        (same i).owner.trans kernel⟩⟩

lemma Lineage.set (same : SameLine (slots i) slot) :
    Lineage (update slots i slot) admitted orphaned claimed reaped := by
  refine lineage.same fun j => ?_
  by_cases here : j = i
  · subst here
    rw [update_self]
    exact same
  · rw [update_of_ne here]
    exact ⟨Iff.rfl, rfl, rfl, rfl⟩

lemma Lineage.reparent (inside : i < maxProcs) (held : (slots i).state ≠ .free) :
    Lineage (update slots i { slots i with owner := ownerKernel, killRequested := true }) admitted
      (orphaned ++ [(i, (slots i).gen)])
      claimed reaped := by
  refine ⟨fun j o within inUse owner => ?_, fun j within inUse owner => ?_, fun j gen member => ?_, lineage.gone⟩
  · have worker : (update slots i { slots i with owner := ownerKernel, killRequested := true } o).worker =
      (slots o).worker := by
      by_cases here : o = i
      · subst here
        rw [update_self]
      · rw [update_of_ne here]
    rw [worker]
    by_cases here : j = i
    · subst here
      rw [update_self] at owner
      simp only [ownerKernel] at owner
      omega
    · rw [update_of_ne here] at inUse owner ⊢
      exact lineage.older j o within inUse owner
  · by_cases here : j = i
    · subst here
      rw [update_self]
      exact .inl (mem_append_right _ (mem_singleton.mpr rfl))
    · rw [update_of_ne here] at inUse owner ⊢
      exact (lineage.known j within inUse owner).imp (mem_append_left _) id
  rcases mem_append.mp member with earlier | last
  · obtain ⟨within, told | ⟨inUse, current, kernel⟩⟩ := lineage.orphan j gen earlier
    · exact ⟨within, .inl told⟩
    refine ⟨within, .inr ?_⟩
    by_cases here : j = i
    · subst here
      rw [update_self]
      exact ⟨inUse, current, rfl⟩
    · rw [update_of_ne here]
      exact ⟨inUse, current, kernel⟩
  cases mem_singleton.mp last
  refine ⟨inside, .inr ?_⟩
  rw [update_self]
  exact ⟨held, rfl, rfl⟩

lemma Lineage.admission (isFree : (slots i).state = .free)
    (unowned : ∀ j, j < maxProcs → (slots j).owner ≠ (i : Int)) (fresh : slot.worker = worker)
    (issued : ∀ o, o < maxProcs → (slots o).state ≠ .free → (slots o).worker < worker)
    (owned : Owned slots slot.owner) :
    Lineage (update slots i slot) (admitted ++ [⟨i, slot.gen, slot.owner, handle⟩]) orphaned claimed reaped := by
  refine ⟨fun j o inside inUse owner => ?_, fun j inside inUse owner => ?_, fun j gen member => ?_, lineage.gone⟩
  · by_cases here : j = i
    · subst here
      rw [update_self] at owner ⊢
      rcases owned with kernel | ⟨p, within, same, held⟩
      · rw [kernel, ownerKernel] at owner
        omega
      have target : o = p := Int.ofNat_inj.mp (owner.symm.trans same)
      have other : o ≠ j := by
        rw [target]
        rintro rfl
        exact held isFree
      rw [update_of_ne other, fresh, target]
      exact issued p within held
    rw [update_of_ne here] at inUse owner ⊢
    have other : o ≠ i := by
      rintro rfl
      exact unowned j inside owner
    rw [update_of_ne other]
    exact lineage.older j o inside inUse owner
  · by_cases here : j = i
    · subst here
      rw [update_self] at owner ⊢
      exact .inr ⟨_, mem_append_right _ (mem_singleton.mpr rfl), rfl, rfl, owner⟩
    rw [update_of_ne here] at inUse owner ⊢
    rcases lineage.known j inside inUse owner with adopted | ⟨a, member, same⟩
    · exact .inl adopted
    · exact .inr ⟨a, mem_append_left _ member, same⟩
  obtain ⟨within, told | ⟨inUse, current⟩⟩ := lineage.orphan j gen member
  · exact ⟨within, .inl told⟩
  · refine ⟨within, .inr ?_⟩
    have other : j ≠ i := by
      rintro rfl
      exact inUse isFree
    rw [update_of_ne other]
    exact ⟨inUse, current⟩

/-- A slot is freed, and one of the kernel is then told. -/
lemma Lineage.recycle (childless : ∀ j, j < maxProcs → (slots j).state ≠ .free → (slots j).owner ≠ (i : Int))
    (grown : claimed ⊆ after)
    (own : (slots i).owner = ownerKernel → (i, (slots i).gen) ∈ after) (gone : after ⊆ reaped ++ [(i, (slots i).gen)]) :
    Lineage (update slots i (slots i).recycled) admitted orphaned after (reaped ++ [(i, (slots i).gen)]) := by
  refine ⟨fun j o inside inUse owner => ?_, fun j inside inUse owner => ?_, fun j gen member => ?_, gone⟩
  · by_cases here : j = i
    · subst here
      rw [update_self] at inUse
      exact absurd rfl inUse
    rw [update_of_ne here] at inUse owner ⊢
    have other : o ≠ i := by
      rintro rfl
      exact childless j inside inUse owner
    rw [update_of_ne other]
    exact lineage.older j o inside inUse owner
  · by_cases here : j = i
    · subst here
      rw [update_self] at inUse
      exact absurd rfl inUse
    · rw [update_of_ne here] at inUse owner ⊢
      exact lineage.known j inside inUse owner
  obtain ⟨within, told | ⟨inUse, current, kernel⟩⟩ := lineage.orphan j gen member
  · exact ⟨within, .inl (grown told)⟩
  refine ⟨within, ?_⟩
  by_cases here : j = i
  · left
    subst here
    rw [← current]
    exact own kernel
  right
  rw [update_of_ne here]
  exact ⟨inUse, current, kernel⟩

end

end

/-- The lineage of a state, by its histories. -/
abbrev State.Lineage (state : State) : Prop :=
  Proc.Lineage state.slots state.admitted state.orphaned state.claimed state.reaped

lemma Change.lineage {next} (change : Change state next) (sound : Sound state) (lineage : state.Lineage) :
    next.Lineage := by
  cases change with
  | phase => exact lineage
  | terminal i c id before after slot context env pipe inside active ctx running live recorded =>
    refine lineage.set ?_
    have held : slot.state ≠ .free := recorded.ended.ne_free
    rw [recorded.same]
    exact ⟨⟨fun isFree => absurd isFree held, fun isFree => by rw [active] at isFree; cases isFree⟩, rfl, rfl, rfl⟩
  | edit edit =>
    cases edit with
    | contexts | attach | ring => exact lineage
    | kill i | reselect _ | join _ => exact lineage.set ⟨Iff.rfl, rfl, rfl, rfl⟩
    | reparent i inside active => exact lineage.reparent inside (by rw [active]; decide)
    | admission i c slot context inside isFree unused room admitted owned =>
      exact lineage.admission isFree (fun j within => sound.tables.free_owns isFree within) admitted.worker
        sound.workers.issued owned
    | recycle i c child joined ctx childless =>
      exact lineage.recycle childless (Subset.refl _) (fun own => absurd own child)
        (subset_append_of_subset_left _ lineage.gone)
    | deliver i c handle owner status asked joined ctx childless decoded =>
      obtain ⟨-, -, -, gen⟩ := decode_some decoded
      refine lineage.recycle childless (subset_append_left _ _) (fun own => ?_)
        (append_subset.mpr ⟨subset_append_of_subset_left _ lineage.gone, ?_⟩)
      · rw [← asked, if_pos own, gen]
        exact mem_append_right _ (mem_singleton.mpr rfl)
      · rw [gen]
        split
        · exact subset_append_right _ _
        · exact nil_subset _

lemma Changes.lineage {next} (changes : Changes state next) (sound : Sound state) (lineage : state.Lineage) :
    next.Lineage := by
  induction changes with
  | refl => exact lineage
  | tail before change ih => exact change.lineage (Changes.sound before sound) ih

/-- Without a slot of the kernel nobody is left: the oldest process has no owner. -/
lemma Lineage.empty (lineage : state.Lineage) (sound : Sound state)
    (nobody : ∀ i, i < maxProcs → (state.slots i).state ≠ .free → (state.slots i).owner ≠ ownerKernel)
    (inside : i < maxProcs) :
    (state.slots i).state = .free := by
  by_contra held
  -- along the owners the worker identifiers decrease
  induction worker : (state.slots i).worker using Nat.strongRecOn generalizing i with
  | ind worker ih =>
    rcases sound.tables.owner i inside with kernel | ⟨o, within, owner, live⟩
    · exact nobody i inside held kernel
    · exact ih _ (worker ▸ lineage.older i o inside held owner) within live rfl

/-- Once the kernel has consumed everything that was spawned for it, the table is empty exactly when it has also
consumed every process that was live when its owner was freed. -/
theorem empty_iff_orphans_claimed {contexts : Nat → Context} {created : Nat} {cpu : Cpu} {state : State} {ops : List Op}
    {replies : List Reply} (front : cpu.foreground = true)
    (ran : Transition.run step (State.boot contexts created) (.init cpu :: ops) = some (replies, state))
    (consumed : ∀ a ∈ state.admitted, a.owner = ownerKernel → (a.slot, a.gen) ∈ state.claimed) :
    (∀ i, i < maxProcs → (state.slots i).state = .free) ↔ ∀ i gen, (i, gen) ∈ state.orphaned →
    (i, gen) ∈ state.claimed := by
  obtain ⟨moved, -⟩ := booted_moves front ran
  have start := State.initial_sound contexts created
  have sound := moved.sound start
  have history := moved.history start (initial_history contexts created)
  have vacant : ∀ i, i < maxProcs → ((State.initial contexts created).slots i).state = .free := fun i inside => by
    rw [State.initial_slots inside]
    rfl
  have lineage := moved.lineage start
    ⟨fun i _ inside held => absurd (vacant i inside) held, fun i inside held => absurd (vacant i inside) held,
      nofun, nil_subset _⟩
  constructor
  · intro isFree i gen member
    obtain ⟨inside, told | ⟨held, -⟩⟩ := lineage.orphan i gen member
    · exact told
    · exact absurd (isFree i inside) held
  intro told i inside
  refine lineage.empty sound (fun j within held owner => ?_) inside
  -- a process that was consumed is of an earlier generation
  have current : (j, (state.slots j).gen) ∉ state.claimed := fun member =>
    lt_irrefl _ (history.past _ _ (lineage.gone member))
  rcases lineage.known j within held owner with adopted | ⟨a, member, slot, gen, kernel⟩
  · exact current (told _ _ adopted)
  have own := consumed a member kernel
  rw [slot, gen] at own
  exact current own

/-- A process spawned for the kernel spawns a child and exits; the kernel waits for it, and
the child observes the request to stop. -/
def orphanOps : List Op :=
  [.init onDuty, spawnForKernel, .event (.workerEnter onDuty 2 true),
    .event (.programSpawn 2 ⟨true, 100, true, 0, stdinClosed, ownerKernel, true⟩ ⟨onDuty, smallImage,
      true, true, true, true⟩),
    .event (.workerTurn onDuty true 2 true true), .event (.gate onDuty true 2 .exited 0 0),
      .event (.workerTurn onDuty true 2 true true),
    .wait false ⟨packHandle 0 1, true, ownerKernel, -1⟩ true freeing [],
    .event (.workerEnter onDuty 3 true), .event (.programPause 3), .event (.workerTurn onDuty true 3 true true)]

/-- The kernel waits for the child as well, by the handle that only its parent received: nothing is left. -/
theorem empty_once_orphan_claimed : ∃ replies state,
    Transition.run step (State.boot (fun _ => Context.empty) 0)
        (orphanOps ++ [.wait false ⟨packHandle 1 1, true, ownerKernel, -1⟩ true freeing []]) = some (replies, state) ∧
      state.orphaned = [(1, 1)] ∧ ∀ i, i < maxProcs → (state.slots i).state = .free := by
  have returned : ((Transition.run step (State.boot (fun _ => Context.empty) 0)
      (orphanOps ++ [.wait false ⟨packHandle 1 1, true, ownerKernel, -1⟩ true freeing []])).map fun ran =>
      (ran.2.admitted.map fun a => (a.slot, a.gen), ran.2.claimed, ran.2.orphaned)) = some ([(0, 1), (1, 1)],
        [(0, 1), (1, 1)], [(1, 1)]) := by
    decide +kernel
  obtain ⟨⟨replies, state⟩, ran, same⟩ := Option.map_eq_some_iff.mp returned
  simp only [Prod.mk.injEq] at same
  obtain ⟨admitted, claimed, orphaned⟩ := same
  refine ⟨replies, state, ran, orphaned, (empty_iff_orphans_claimed rfl ran fun a member _ => ?_).mpr
    fun i gen member => ?_⟩
  · rw [claimed, ← admitted]
    exact mem_map.mpr ⟨a, member, rfl⟩
  · rw [orphaned] at member
    rw [claimed]
    exact mem_cons_of_mem _ member

/-- Every worker has finished and everything spawned for the kernel was consumed, and the
slot of the child is still taken. -/
theorem orphan_keeps_slot :
    ∃ replies state, Transition.run step (State.boot (fun _ => Context.empty) 0) orphanOps = some (replies, state) ∧
    (∀ a ∈ state.admitted, a.owner = ownerKernel → (a.slot, a.gen) ∈ state.claimed) ∧
    (∀ id thread, state.threads id = some thread → thread.phase = .exited) ∧ (state.slots 1).state = .aborted := by
  have returned : ((Transition.run step (State.boot (fun _ => Context.empty) 0) orphanOps).map fun ran =>
      (ran.2.admitted.all fun a => a.owner ≠ ownerKernel || (a.slot, a.gen) ∈ ran.2.claimed,
        (List.range 4).all fun id => (ran.2.threads id).all fun thread => thread.phase = .exited,
        ran.2.nextThread, (ran.2.slots 1).state)) = some (true, true, 4, .aborted) := by
    decide +kernel
  obtain ⟨⟨replies, state⟩, ran, same⟩ := Option.map_eq_some_iff.mp returned
  simp only [Prod.mk.injEq] at same
  obtain ⟨consumed, finished, issued, aborted⟩ := same
  have sound := (booted_moves rfl ran).1.sound (State.initial_sound _ _)
  refine ⟨replies, state, ran, fun a member kernel => ?_, fun id thread here => ?_, aborted⟩
  · have reaped := all_eq_true.mp consumed a member
    simpa [kernel] using reaped
  · have inside : id < 4 := by
      by_contra outside
      rw [sound.workers.unissued id (by omega)] at here
      cases here
    have spent := all_eq_true.mp finished id (mem_range.mpr inside)
    simpa [here] using spent

end Rynor.Proc
