import Rynor.Lib.Checks
import Rynor.Proofs.SchedCalls

/-! Whole runs of the scheduler: unless a gate yields to another thread, its check never fails, identifiers are never
reused, and no ready thread is overtaken by a thread that has just had the processor. -/

namespace Rynor.Sched
open Outcome List

variable {layout : Layout} {s s' : State}

def performAll (layout : Layout) : List Op → M (List Event)
  | [] => pure []
  | op :: ops => do
    let event ← op.perform layout
    return event :: (← performAll layout ops)

def createdIds (events : List Event) : List Nat :=
  events.filterMap fun
    | .created id => some id
    | _ => none

/-- The threads that were selected, in order. -/
def selections (events : List Event) : List Nat :=
  events.filterMap fun
    | .selected id => some id
    | _ => none

/-- In no state of the run is a gate about to yield to another thread. -/
def offGates (layout : Layout) : State → List Op → Bool
  | _, [] => true
  | s, op :: ops =>
    op.offGate s &&
      match op.perform layout s with
      | .ok (_, next) => offGates layout next ops
      | .error _ => true

lemma offGates_cons {op ops} (off : offGates layout s (op :: ops) = true) :
    op.offGate s = true ∧ Ends (fun _ => True) (op.perform layout) s fun _ next => offGates layout next ops = true := by
  obtain ⟨here, later⟩ := (Bool.and_eq_true ..).mp off
  refine ⟨here, ?_⟩
  unfold Ends
  split
  next ran => simpa only [ran] using later
  · trivial

lemma offGates_append {early late} (off : offGates layout s (early ++ late) = true) :
    offGates layout s early = true ∧ Ends (fun _ => True) (performAll layout early) s fun _ middle =>
    offGates layout middle late = true := by
  induction early generalizing s with
  | nil => exact ⟨rfl, off⟩
  | cons op early ih =>
    obtain ⟨here, later⟩ := offGates_cons off
    constructor
    · rw [offGates, here, Bool.true_and]
      split
      next ran => exact (ih (later.ok ran)).1
      · rfl
    · simp only [performAll, ends_bind, ends_pure]
      exact later.mono fun _ _ rest => (ih rest).2

/-- A property of the table that operations keep holds at the end of every run. -/
lemma performAll_ends (sound : Sound layout s) {ops : List Op} (off : offGates layout s ops = true)
    (holds : State → List Event → State → Prop) (nothing : ∀ s, Sound layout s → holds s [] s)
    (step : ∀ s event middle events last, Sound layout s → Moved s event middle → Sound layout middle →
      holds middle events last → holds s (event :: events) last) :
    Ends Allowed (performAll layout ops) s fun events last => Sound layout last ∧ holds s events last := by
  induction ops generalizing s with
  | nil => exact ⟨sound, nothing s sound⟩
  | cons op ops ih =>
    simp only [performAll, ends_bind, ends_pure]
    obtain ⟨here, later⟩ := offGates_cons off
    refine ((op.moves sound here).and later).mono fun event middle both => ?_
    obtain ⟨moved, onwards⟩ := both
    exact (ih moved.1 onwards).mono fun events last rest =>
      ⟨rest.1, step s event middle events last sound moved.2 moved.1 rest.2⟩

/-! Identifiers. -/

lemma createdIds_fresh (sound : Sound layout s) {ops : List Op} (off : offGates layout s ops = true) :
    Ends Allowed (performAll layout ops) s fun events last =>
      Sound layout last ∧ (createdIds events).Pairwise (· < ·) ∧ ∀ id ∈ createdIds events, s.nextId ≤ id := by
  refine performAll_ends sound off (fun s events _ => (createdIds events).Pairwise (· < ·) ∧
    ∀ id ∈ createdIds events, s.nextId ≤ id)
    (fun _ _ => by simp [createdIds]) ?_
  intro s event middle events last _ moved _ rest
  have later : ∀ id ∈ createdIds events, s.nextId ≤ id := fun id member => le_trans moved.grows (rest.2 id member)
  cases event with
  | returned ok | selected _ => exact ⟨rest.1, later⟩
  | created id =>
    obtain ⟨rfl, grown, -⟩ := moved.told
    refine ⟨pairwise_cons.mpr ⟨fun id member => ?_, rest.1⟩, ?_⟩
    · have fresh := rest.2 id member
      omega
    · rintro id (_ | ⟨_, member⟩)
      exacts [le_rfl, later id member]

/-! No overtaking. -/

/-- Since thread `chosen` was current in slot `start`, the cursor has not come to the thread
`patient` that waits in slot `waiting`. -/
structure Pending (start chosen waiting patient : Nat) (s : State) : Prop where
  ahead : RoundRobin.Ahead schedThreads start s.current waiting
  ready : (s.threads waiting).state = .ready
  named : (s.threads waiting).id = patient
  unique : ∀ i < schedThreads, (s.threads i).state ≠ .free → (s.threads i).id = chosen → i = start
  old : chosen < s.nextId

section
variable {start chosen waiting patient : Nat}

section
variable (pending : Pending start chosen waiting patient s)
include pending

lemma Pending.kept (moved : Moved s event s') (apart : waiting ≠ s'.current)
    (ahead : RoundRobin.Ahead schedThreads start s'.current waiting) :
    Pending start chosen waiting patient s' := by
  have stays := moved.waiting waiting pending.ready apart
  refine ⟨ahead, stays.1, stays.2.trans pending.named, ?_, lt_of_lt_of_le pending.old moved.grows⟩
  intro i inside live same
  rcases moved.ids i live with ⟨before, id⟩ | fresh
  · exact pending.unique i inside before (id ▸ same)
  · have old := pending.old
    omega

/-- One operation neither selects `chosen` nor passes over `patient`. -/
lemma Pending.step (sound : Sound layout s) (moved : Moved s event s') (known : start < schedThreads)
    (inside : waiting < schedThreads) :
    (selections [event] = [] ∧ Pending start chosen waiting patient s') ∨ selections [event] = [patient] ∨
      ∃ id, selections [event] = [id] ∧ id ≠ chosen ∧ Pending start chosen waiting patient s' := by
  have apart : waiting ≠ s.current := sound.not_current (by rw [pending.ready]; decide)
  cases event with
  | returned ok =>
    have same : s'.current = s.current := moved.told
    exact .inl ⟨rfl, pending.kept moved (by rwa [same]) (by rw [same]; exact pending.ahead)⟩
  | created id =>
    have same : s'.current = s.current := moved.told.2.2
    exact .inl ⟨rfl, pending.kept moved (by rwa [same]) (by rw [same]; exact pending.ahead)⟩
  | selected id =>
    obtain ⟨picked, rfl⟩ := moved.told
    obtain ⟨below, ready, -⟩ := sound.picked picked
    obtain ⟨notBack, reached | ahead⟩ := pending.ahead.pick known sound.inside inside (by simp [pending.ready]) picked
    · exact .inr (.inl (by simp [selections, reached, pending.named]))
    · refine .inr (.inr ⟨_, rfl, fun same => notBack (pending.unique _ below (by rw [ready]; decide) same),
        pending.kept moved ?_ ahead⟩)
      rintro rfl
      exact lt_irrefl _ ahead

lemma Pending.run (sound : Sound layout s) {ops : List Op} (off : offGates layout s ops = true)
    (known : start < schedThreads) (inside : waiting < schedThreads) (other : patient ≠ chosen) :
    Ends Allowed (performAll layout ops) s fun events _ =>
      ∀ before after, selections events = before ++ chosen :: after → patient ∈ before := by
  refine (performAll_ends sound off (fun s events _ => Pending start chosen waiting patient s →
    ∀ before after, selections events = before ++ chosen :: after → patient ∈ before) ?_ ?_).mono fun _ _ holds =>
      holds.2 pending
  · intro s _ _ before after none
    simp [selections] at none
  intro s event middle events last sound moved _ rest pending before after split
  have cut : selections (event :: events) = selections [event] ++ selections events := by
    simp only [selections, ← filterMap_append, singleton_append]
  rw [cut] at split
  rcases pending.step sound moved known inside with ⟨silent, kept⟩ | served | ⟨id, passed, differs, kept⟩
  · rw [silent, nil_append] at split
    exact rest kept before after split
  · rw [served] at split
    cases before with
    | nil => exact absurd (List.cons.inj split).1 other
    | cons first before =>
      rw [(List.cons.inj split).1]
      exact mem_cons_self
  · rw [passed] at split
    cases before with
    | nil => exact absurd (List.cons.inj split).1 differs
    | cons first before => exact mem_cons_of_mem _ (rest kept before after (List.cons.inj split).2)

end

end

/-! From initialisation. -/

/-- The bootstrap thread alone, running in slot zero. -/
def State.initial : State :=
  { State.boot with
    threads := Function.update State.boot.threads 0 { State.boot.threads 0 with id := 1, state := .running }
    nextId := 2
    initialized := true }

lemma initial_sound (layout : Layout) : Sound layout .initial := by
  have live : ∀ i, (State.initial.threads i).state ≠ .free → i = 0 := by
    intro i used
    by_contra other
    simp [State.initial, State.boot, Thread.zero, other] at used
  have user : ∀ i link, (State.initial.threads i).user ≠ some link := by
    intro i link
    by_cases zero : i = 0 <;> simp [State.initial, State.boot, Thread.zero, zero]
  refine ⟨rfl, by decide, by decide, by decide, by decide, by decide, ?_, by decide, ?_, ?_, ?_, by
    simp [State.initial, State.boot]⟩
  · exact fun i _ other used => absurd (live i used) other
  · intro i _ ready
    cases live i (by rw [ready]; decide)
    cases ready
  · exact fun i _ link used => absurd used (user i link)
  · exact fun i _ j _ link used => absurd used (user i link)

/-- No thread is overtaken: from any point of the run on, before the thread that is then
current is selected again, every thread that is then ready has been selected. -/
def NoOvertaking (layout : Layout) (start : State) (ops : List Op) : Prop :=
  ∀ early late first middle, ops = early ++ late → performAll layout early start = .ok (first, middle) →
    ∀ events last, performAll layout late middle = .ok (events, last) →
    ∀ waiting < schedThreads, (middle.threads waiting).state = .ready →
    ∀ before after, selections events = before ++ (middle.threads middle.current).id :: after →
      (middle.threads waiting).id ∈ before

lemma noOvertaking_of_sound (sound : Sound layout s) {ops : List Op} (off : offGates layout s ops = true) :
    NoOvertaking layout s ops := by
  rintro early late first middle rfl reached events last ran waiting inside ready
  obtain ⟨before, after⟩ := offGates_append off
  have middleSound : Sound layout middle := ((createdIds_fresh sound before).ok reached).1
  have apart : waiting ≠ middle.current := middleSound.not_current (by rw [ready]; decide)
  have pending : Pending middle.current (middle.threads middle.current).id waiting (middle.threads waiting).id middle :=
    { ahead := RoundRobin.ahead_start middleSound.inside inside apart
      ready, named := rfl
      unique := fun i below live same => middleSound.distinct i below _ middleSound.inside live
        middleSound.live_current same
      old := (middleSound.known _ middleSound.inside middleSound.live_current).2 }
  have other : (middle.threads waiting).id ≠ (middle.threads middle.current).id := fun same =>
    apart (middleSound.distinct waiting inside _ middleSound.inside
      (by rw [ready]; decide) middleSound.live_current same)
  exact (pending.run middleSound (after.ok reached) middleSound.inside inside other).ok ran

/-- From initialisation on, whatever is created, joined, interrupted, yielded or rescheduled,
from threads and from gates, as long as no gate yields to another thread: no scheduler check
stops the machine, the check holds in every state reached, exactly one thread runs,
identifiers are never reused and nobody is overtaken. -/
theorem scheduler_keeps_its_check {cpu : Cpu} {kernelSpace : Bool} {start : State}
    (started : schedulerInitialize layout cpu kernelSpace .boot = .ok (true, start)) {ops : List Op}
    (off : offGates layout start ops = true) :
    (∀ why, performAll layout ops start = .error why →
      why ∉ ["state_or_context", "invalid_resume", "new_stack_bounds", "handoff_frame"]) ∧
    (∀ events last, performAll layout ops start = .ok (events, last) →
      schedulerCheck layout last true = true ∧ (∃! i, i < schedThreads ∧ (last.threads i).state = .running) ∧
      (1 :: createdIds events).Nodup) ∧
    NoOvertaking layout start ops := by
  have ends : Ends (fun _ => False) (schedulerInitialize layout cpu kernelSpace) .boot
      fun ok next => ok = true → next = .initial := by
    simp only [schedulerInitialize, ends_bind, ends_get, ends_ite, ends_pure, setThread, ends_modify]
    exact ⟨by simp, fun _ _ => rfl⟩
  obtain rfl := ends.ok started rfl
  have sound := initial_sound layout
  refine ⟨fun why stopped => (createdIds_fresh sound off).error stopped, fun events last ran => ?_,
    noOvertaking_of_sound sound off⟩
  obtain ⟨lastSound, increasing, fresh⟩ := (createdIds_fresh sound off).ok ran
  refine ⟨lastSound.check, ?_, ?_⟩
  · exact ⟨last.current, ⟨lastSound.inside, lastSound.running_current⟩,
      fun i found => (lastSound.running i found.1).mp found.2⟩
  · have ordered : (1 :: createdIds events).Pairwise (· < ·) :=
      pairwise_cons.mpr ⟨fun id member => fresh id member, increasing⟩
    exact ordered.imp ne_of_lt

/-! A run with two workers: one enters user code, a gate of which creates a third and finds that the second has not
ended; the second exits and is reaped. -/

def sampleLayout : Layout :=
  ⟨0x800000, 0x900000, 0x800010, 0x800020, 0x800030, 0xa00000, by decide, by decide, by decide⟩

def kernelEnv : Env := ⟨⟨true, false⟩, 0⟩

def sampleRegisters : Registers := ⟨64, 2, by decide, by decide⟩

/-- The boot thread starts two workers, and the first of them enters user code. -/
def enteredOps : List Op :=
  [.create kernelEnv true 0x800040 0x202 true, .create kernelEnv true 0x800050 0x202 true,
    .yield kernelEnv sampleRegisters,
    .enter kernelEnv 0 true true sampleRegisters]

def sampleOps : List Op :=
  enteredOps ++ [.create kernelEnv true 0x800040 0x202 true, .join kernelEnv 3 true, .userNext kernelEnv 0 1,
    .exit kernelEnv,
    .yield kernelEnv sampleRegisters, .join kernelEnv 3 true, .create kernelEnv true 0x800040 0x202 true,
      .yield kernelEnv sampleRegisters]

def sampleEvents : List Event :=
  [.created 2, .created 3, .selected 2, .returned true, .created 4, .returned false, .selected 3, .selected 4,
    .selected 1,
    .returned true, .created 5, .selected 2]

lemma sample_started : schedulerInitialize sampleLayout ⟨true, false⟩ true .boot = .ok (true, .initial) := by
  have checked : schedulerCheck sampleLayout .initial true = true := (initial_sound sampleLayout).check
  exact congrArg (fun ok => Except.ok (ok, State.initial)) checked

theorem scheduler_keeps_its_check_with_a_gate :
    ∃ start events last, schedulerInitialize sampleLayout ⟨true, false⟩ true .boot = .ok (true, start) ∧
      performAll sampleLayout sampleOps start = .ok (events, last) ∧ events = sampleEvents ∧
      (schedulerCheck sampleLayout last true = true ∧ (∃! i, i < schedThreads ∧ (last.threads i).state = .running) ∧
        (1 :: createdIds events).Nodup) ∧
      NoOvertaking sampleLayout start sampleOps := by
  obtain ⟨⟨events, last⟩, ran, shown⟩ : ∃ result, performAll sampleLayout sampleOps .initial = .ok result ∧
    result.1 = sampleEvents :=
    Checks.exists_ok (by decide +kernel)
  have off : offGates sampleLayout .initial sampleOps = true := by decide +kernel
  obtain ⟨-, kept, fair⟩ := scheduler_keeps_its_check sample_started off
  exact ⟨.initial, events, last, sample_started, ran, shown, kept events last ran, fair⟩

/-- The gate of the first worker finds that the second has not ended and yields, as the reaping of a child does: the
frame it leaves is on the exit stack, and the first check of the next thread refuses it. -/
theorem gate_yield_stops :
    performAll sampleLayout (enteredOps ++ [.join kernelEnv 3 true, .yield kernelEnv sampleRegisters]) .initial =
    .error "state_or_context" :=
  Checks.eq_error (by decide +kernel)

/-- From initialisation on, as long as no gate yields to another thread: a ready thread is among the next selections,
one for each other slot, unless fewer are made. -/
theorem ready_thread_selected {ops later : List Op} {first events : List Event} {middle last : State}
    (off : offGates layout .initial (ops ++ later) = true)
    (reached : performAll layout ops .initial = .ok (first, middle))
    (ran : performAll layout later middle = .ok (events, last)) {waiting : Nat} (inside : waiting < schedThreads)
    (ready : (middle.threads waiting).state = .ready) :
    (middle.threads waiting).id ∈ (selections events).take (schedThreads - 1) ∨
    (selections events).length < schedThreads - 1 := by
  obtain ⟨before, after⟩ := offGates_append off
  have middleSound := ((createdIds_fresh (initial_sound layout) before).ok reached).1
  -- each selection takes the thread or brings the cursor nearer to its slot
  refine ((performAll_ends middleSound (after.ok reached) (fun s events _ => ∀ bound, (s.threads waiting).state =
    .ready →
    RoundRobin.distance schedThreads s.current waiting ≤ bound →
      (s.threads waiting).id ∈ (selections events).take bound ∨ (selections events).length < bound) ?_ ?_).ok ran).2
        _ ready
        (Nat.le_sub_one_of_lt (Nat.mod_lt _ (by decide)))
  · intro s sound bound ready near
    have ahead := RoundRobin.ahead_start sound.inside inside (sound.not_current (by rw [ready]; decide))
    exact .inr (lt_of_lt_of_le (Nat.zero_lt_of_lt ahead) near)
  intro s event next events last sound moved _ rest bound ready near
  have other : waiting ≠ s.current := sound.not_current (by rw [ready]; decide)
  have stays : next.current = s.current → (s.threads waiting).id ∈ (selections events).take bound ∨
    (selections events).length < bound := by
    intro same
    obtain ⟨still, named⟩ := moved.waiting waiting ready (by rwa [same])
    exact named ▸ rest bound still (same ▸ near)
  cases event with
  | returned ok => exact stays moved.told
  | created id => exact stays moved.told.2.2
  | selected id =>
    obtain ⟨picked, rfl⟩ := moved.told
    have nearer := RoundRobin.pick_nearer sound.inside inside other (by simp [ready]) picked
    obtain ⟨left, rfl⟩ := Nat.exists_eq_add_one_of_ne_zero (Nat.ne_zero_of_lt (lt_of_lt_of_le nearer near))
    by_cases here : waiting = next.current
    · exact .inl (by simp [selections, here])
    obtain ⟨still, named⟩ := moved.waiting waiting ready here
    rcases rest left still (by omega) with found | few
    · exact .inl (mem_cons_of_mem _ (named ▸ found))
    · exact .inr (Nat.succ_lt_succ few)

/-- Three workers and the boot thread take turns while the third worker waits for the first of them. -/
theorem ready_thread_selected_in_turn :
    let ops : List Op := [.create kernelEnv true 0x800040 0x202 true, .create kernelEnv true 0x800050 0x202 true,
      .create kernelEnv true 0x800060 0x202 true]
    let later : List Op := List.replicate 8 (.yield kernelEnv sampleRegisters)
    ∃ first middle events last, performAll sampleLayout ops .initial = .ok (first, middle) ∧
      performAll sampleLayout later middle = .ok (events, last) ∧ selections events = [2, 3, 4, 1, 2, 3, 4, 1] ∧
      4 ∈ (selections events).take (schedThreads - 1) := by
  intro ops later
  obtain ⟨⟨first, middle⟩, reached, state, id, onwards⟩ : ∃ result, performAll sampleLayout ops .initial = .ok result ∧
      (result.2.threads 3).state = .ready ∧ (result.2.threads 3).id = 4 ∧
      ((performAll sampleLayout later result.2).toOption.any fun ran =>
        selections ran.1 = [2, 3, 4, 1, 2, 3, 4, 1]) = true :=
    Checks.exists_ok (by decide +kernel)
  obtain ⟨⟨events, last⟩, ran, chosen⟩ := @Checks.exists_ok _ _ _ (fun ran : List Event × State => selections ran.1 =
    [2, 3, 4, 1, 2, 3, 4, 1]) _ onwards
  have off : offGates sampleLayout .initial (ops ++ later) = true := by decide +kernel
  have served := ready_thread_selected off reached ran (by decide : 3 < schedThreads) state
  rw [id] at served
  exact ⟨first, middle, events, last, reached, ran, chosen, served.resolve_right (by rw [chosen]; decide)⟩

end Rynor.Sched
