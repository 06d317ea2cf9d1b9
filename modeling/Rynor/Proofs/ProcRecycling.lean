import Rynor.Proofs.ProcResults

/-! A slot recycled without end: one process after another is spawned, exits and is waited
for, until the generation no longer fits the handle. -/

namespace Rynor.Proc
open Outcome List
open Function (update_self update_of_ne update)
open Pipe (Detached)

/-- A stop that a structural check asked for. -/
def Guarded (halt : Halt) : Prop := ∃ why, halt = .procCheck why ∨ halt = .pipeCheck why

lemma step_returns (sound : Sound state) (steady : Steady state) (ends : Ends Guarded op.perform state post) :
    ∃ reply next, step state op = some (reply, next) ∧ Sound next ∧ Steady next ∧ post reply next := by
  obtain ⟨reply, next, ran, ⟨moved, settled⟩, posted⟩ := (op.ends sound steady).returns ends (by
    rintro stop ⟨_, rfl, _⟩ ⟨_, other | other⟩
    · cases other
    · cases other)
  exact ⟨reply, next, by rw [step, ran]; rfl, moved.sound sound, settled, posted⟩

lemma guarded_procCheck (holds : post ⟨⟩ state) : Ends Guarded (requireProcCheck cpu why) state post := by
  simp only [requireProcCheck, ends_bind, ends_get, ends_ite, ends_pure, ends_throw]
  exact ⟨fun _ => holds, fun _ => ⟨why, .inl rfl⟩⟩

/-- Every slot is free and slot 0 has been used `n` times, once per thread. -/
structure Idle (n : Nat) (state : State) : Prop where
  isFree : ∀ i, i < maxProcs → (state.slots i).state = .free
  gen : (state.slots 0).gen = n + 1
  context : (state.contexts 0).state = .free
  issued : state.nextThread = n + 2
  detached : Detached state.pipe

/-- The process of slot 0 runs on the thread created for it. -/
structure Stage (n : Nat) (life : ProcLife) (phase : Phase) (user : UserState) (bound : Bool) (state : State) :
    Prop where
  others : ∀ i, i < maxProcs → i ≠ 0 → (state.slots i).state = .free
  life : (state.slots 0).state = life
  gen : (state.slots 0).gen = n + 1
  owner : (state.slots 0).owner = ownerKernel
  ctx : (state.slots 0).ctx = some 0
  worker : (state.slots 0).worker = n + 2
  valid : (state.slots 0).workerValid = true
  user : (state.contexts 0).state = user
  bound : (state.contexts 0).bound = bound
  pristine : phase = .fresh → (state.contexts 0).entries = 0 ∧ (state.contexts 0).resumes = 0
  thread : state.threads (n + 2) = some ⟨0, phase⟩
  issued : state.nextThread = n + 3
  detached : Detached state.pipe

section
variable {n : Nat} {state : State}

lemma Idle.spawn (idle : Idle n state) (sound : Sound state) (room : n + 2 < 2 ^ 63) :
    Ends Guarded spawnForKernel.perform state fun _ next =>
      Stage n .active .fresh .active false next ∧ next.admitted = state.admitted ++
      [⟨0, n + 1, ownerKernel, packHandle 0 (n + 1)⟩] := by
  have first : ((List.range maxProcs).find? fun i => (state.slots i).state = .free) = some 0 := by
    have isFree := idle.isFree 0 (by decide)
    simp [maxProcs, range_succ, isFree]
  have context : ((List.range maxContexts).find? fun c => (state.contexts c).state = .free) = some 0 := by
    simp [maxContexts, range_succ, idle.context]
  have issuable : ¬9223372036854775808 ≤ state.nextThread := by
    rw [idle.issued]
    omega
  have alone : ∀ j, j < maxProcs → j ≠ 0 → (state.slots j).state = .free := fun j inside _ => idle.isFree j inside
  simp [spawnForKernel, Op.perform, procSpawnImage, onDuty, Cpu.foreground, sound.ready, smallImage, ownerInvalid,
    first, userCreateLoaded,
    context, threadCreate, ends_setSlot, ends_setContext, require, admitImage]
  refine guarded_procCheck ?_
  simp [issuable]
  intro _
  refine guarded_procCheck ?_
  refine ⟨fun _ => ?_, fun j inside other held => ?_⟩
  · rw [ends_publish]
    simp only [update_self, idle.gen]
    refine ⟨⟨fun j inside other => ?_, ?_, ?_, ?_, ?_, ?_, ?_, ?_, ?_, fun _ => ?_, ?_, ?_, idle.detached⟩, trivial⟩ <;>
      simp only [update_self, idle.issued]
    · rw [update_of_ne other]
      exact alone j inside other
    · rfl
    · exact ⟨rfl, rfl⟩
  · simp [update_of_ne other] at held
    exact absurd (alone j inside other) held

lemma Stage.move {life phase user next bound still context}
    (stage : Stage n life phase user bound state) (after : Phase) (later : after ≠ .fresh)
    (moved : context.state = next) (kept : context.bound = still) : Stage n life after next still { state with
      contexts := update state.contexts 0 context,
      threads := update state.threads (n + 2) (some ⟨0, after⟩) } :=
  ⟨stage.others, stage.life, stage.gen, stage.owner, stage.ctx, stage.worker, stage.valid, by
    simpa only [update_self] using moved,
    by simpa only [update_self] using kept, fun fresh => absurd fresh later, update_self .., stage.issued,
      stage.detached⟩

lemma Stage.enter (stage : Stage n .active .fresh .active false state) :
    Ends Guarded (Op.perform (.event (.workerEnter onDuty (n + 2) true))) state fun _ next =>
      Stage n .active (.inUser 0) .active true next := by
  obtain ⟨entries, resumes⟩ := stage.pristine rfl
  simp [Op.perform, Event.perform, workerEnter, stage.thread, require, maxProcs, onDuty, Cpu.foreground, stage.life,
    stage.valid, stage.ctx, stage.user,
    stage.bound, entries, resumes, ends_setContext, ends_setThread]
  exact stage.move (.inUser 0) (by simp) rfl rfl

/-- Without a pipe a terminal process has no endpoint to close. -/
lemma ends_noNote (front : cpu.foreground = true) (detached : Detached state.pipe) (holds : post true state) :
    Ends allowed (pipeNoteTerminal cpu heapFree i gen) state post := by
  have called : state.pipe.pipeNoteTerminal (pipeEnv state cpu heapFree) i gen = .ok (true, state.pipe) := by
    simp [Pipe.pipeNoteTerminal, pipeEnv, front, detached.live]
  simp only [pipeNoteTerminal, ends_bind, ends_get]
  simp only [Ends, onPipe, called]
  exact holds

lemma Stage.exit (stage : Stage n .active (.inUser 0) .active true state) (sound : Sound state) :
    Ends Guarded (Op.perform (.event (.gate onDuty true (n + 2) .exited 7 0))) state fun _ next =>
      Stage n .exited (.returned 0 .exited) .exited true next := by
  have owner : ∀ contexts, procOwnerOf { state with ready := true, contexts } 0 = 0 := fun contexts =>
    procOwnerOf_eq rfl (fun j inside ctx => sound.tables.apart j 0 0 inside (by decide) ctx stage.ctx) (by decide)
      (by rw [stage.life]; decide) stage.ctx
  simp [Op.perform, Event.perform, gateTerminal, stage.thread, require, onDuty, Cpu.foreground, stage.user,
    ends_setContext, ends_setThread, noteGateTerminal, ensureInit, sound.ready, owner, ownerKernel, maxProcs,
      stage.ctx, stage.life, ends_setSlot]
  refine ends_noNote rfl stage.detached ?_
  simp
  refine ⟨fun j inside other => ?_, ?_, ?_, ?_, ?_, ?_, ?_, ?_, ?_, (by simp), ?_, stage.issued, stage.detached⟩ <;>
    simp only [update_self, Slot.record, Context.ended]
  · rw [update_of_ne other]
    exact stage.others j inside other
  · exact stage.gen
  · exact stage.owner
  · exact stage.ctx
  · exact stage.worker
  · exact stage.valid
  · exact stage.bound

lemma Stage.leave (stage : Stage n .exited (.returned 0 .exited) .exited true state) :
    Ends Guarded (Op.perform (.event (.workerTurn onDuty true (n + 2) true true))) state fun _ next =>
      Stage n .exited .exited .exited false next := by
  simp [Op.perform, Event.perform, workerTurn, stage.thread, require, onDuty, Cpu.foreground, workerRecord,
    stage.life, workerFinish, stage.bound,
    ends_setContext, ends_setThread]
  exact stage.move .exited (by simp) stage.user rfl

section
variable {ι : Type} {perform : Option ι → ProcM Bool} {env : FreeEnv} {i slot : Nat} {rest : List ι}
  {post : Bool × List ι → State → Prop}

lemma guarded_joinLoop (turns : Nat) (front : env.cpu.foreground = true)
    (exited : state.threads (state.slots i).worker = some ⟨slot, .exited⟩) (synced : env.sync i = true)
    (holds : post (true, rest) (joinedAt state i)) :
    Ends Guarded (joinLoop perform env i (turns + 1) rest) state post := by
  simp only [joinLoop, threadJoin, ends_bind, ends_get, front, exited, Bool.not_true, Bool.false_eq_true, if_false,
    ends_pure, if_true,
    require, synced]
  exact holds

lemma guarded_joinWorker (front : env.cpu.foreground = true) (valid : (state.slots i).workerValid = true)
    (exited : state.threads (state.slots i).worker = some ⟨slot, .exited⟩) (synced : env.sync i = true)
    (holds : post (true, rest) (joinedAt state i)) : Ends Guarded (joinWorker perform env i rest) state post := by
  simp only [joinWorker, ends_bind, ends_get, valid, Bool.not_true, Bool.false_eq_true, if_false]
  exact guarded_joinLoop 999999 front exited synced holds

lemma guarded_cleanupChildren (pending : List Nat) (inside : ∀ j ∈ pending, j < maxProcs)
    (alone : ∀ j, j < maxProcs → (state.slots j).state ≠ .free → (state.slots j).owner ≠ (i : Int))
    (holds : post (true, rest) state) :
    Ends Guarded (cleanupChildren reap i pending rest) state post := by
  induction pending with
  | nil => exact holds
  | cons j pending ih =>
    have skipped : ((state.slots j).state = .free || (state.slots j).owner ≠ (i : Int)) = true := by
      by_cases isFree : (state.slots j).state = .free
      · simp [isFree]
      · simp [alone j (inside j mem_cons_self) isFree]
    simp only [cleanupChildren, ends_bind, ends_get, skipped, if_true]
    exact ih fun k member => inside k (mem_cons_of_mem j member)

lemma guarded_freeJoined (depth : Nat) (alone : ∀ j, j < maxProcs → (state.slots j).state ≠ .free →
      (state.slots j).owner ≠ (i : Int))
    (ctx : (state.slots i).ctx = some c) (spent : (state.contexts c).state = .exited)
    (unbound : (state.contexts c).bound = false)
    (destroyed : env.destroyed i = true) (holds : post (true, rest) (recycledAt state i c)) :
    Ends Guarded (freeJoined perform env (depth + 1) i rest) state post := by
  have childless : ((List.range maxProcs).any fun j => (state.slots j).state ≠ .free &&
    (state.slots j).owner = (i : Int)) = false := by
    simpa using alone
  simp only [freeJoined, cleanupOwned, ends_bind]
  refine guarded_cleanupChildren _ (fun j member => mem_range.mp member) alone ?_
  simp only [Bool.not_true, Bool.false_eq_true, if_false, ends_bind, ends_get, ends_pure, childless, Bool.not_false,
    ctx, userDestroy, spent,
    unbound, destroyed, decide_true, Bool.true_or, ends_setContext, recycle, ends_set]
  exact holds

end

lemma Stage.waited (stage : Stage n .exited .exited .exited false state) (sound : Sound state) (fits : n + 1 < 2 ^ 32) :
    Ends Guarded (Op.perform (.wait false ⟨packHandle 0 (n + 1), true, ownerKernel, -1⟩ true ⟨onDuty,
      fun _ => true, fun _ => true⟩ [])) state
      fun _ next => Idle (n + 1) next := by
  have decoded : decode state (packHandle 0 (n + 1)) = some 0 := by
    have held : (state.slots 0).state ≠ .free := by rw [stage.life]; decide
    have decodes := decode_packHandle sound (by decide) held
    rw [stage.gen] at decodes
    exact decodes.mpr fits
  have held : (joinedAt state 0).slots 0 = { state.slots 0 with workerValid := false } := by
    simp only [joinedAt, update_self]
  have others : ∀ j, j < maxProcs → j ≠ 0 → ((joinedAt state 0).slots j).state = .free := fun j inside other => by
    rw [joinedAt_slots other]
    exact stage.others j inside other
  simp only [Op.perform, procWait, ends_bind, ends_get, decoded]
  simp [onDuty, Cpu.foreground, sound.ready, stage.owner, stage.life, stage.worker, stage.thread, Slot.status, consume]
  refine guarded_joinWorker rfl stage.valid (by rw [stage.worker]; exact stage.thread) rfl ?_
  simp only [require, if_true, ends_pure]
  refine guarded_freeJoined 2 (fun j inside inUse => ?_) (by rw [held]; exact stage.ctx) stage.user stage.bound rfl ?_
  · by_cases here : j = 0
    · subst here
      rw [held]
      exact by simp [stage.owner, ownerKernel]
    · exact absurd (others j inside here) inUse
  simp only [if_true, ends_pure]
  have recycled : ((recycledAt (joinedAt state 0) 0 0).slots 0).gen = n + 2 := by
    simp only [recycledAt, update_self, held, Slot.recycled, stage.gen]
    exact bump_le (Nat.lt_succ_self _) (by omega)
  refine guarded_procCheck ⟨fun j inside => ?_, recycled, ?_, stage.issued, stage.detached⟩
  · by_cases here : j = 0
    · simp only [here, recycledAt, update_self, Slot.recycled]
    · simp only [recycledAt_slots here]
      exact others j inside here
  · simp only [recycledAt, update_self, Context.empty]

/-- A whole life brings the next generation of slot 0. -/
lemma Idle.life (idle : Idle n state) (sound : Sound state) (steady : Steady state) (fits : n + 1 < 2 ^ 32) :
    ∃ replies next, Transition.run step state (lifeOps (n + 2) (packHandle 0 (n + 1))) = some (replies, next) ∧ Idle
    (n + 1) next ∧
      Sound next ∧ Steady next := by
  obtain ⟨_, _, spawned, sound, steady, started, -⟩ := step_returns sound steady (idle.spawn sound (by omega))
  obtain ⟨_, _, entered, sound, steady, running⟩ := step_returns sound steady started.enter
  obtain ⟨_, _, exited, sound, steady, ended⟩ := step_returns sound steady (running.exit sound)
  obtain ⟨_, _, left, sound, steady, gone⟩ := step_returns sound steady ended.leave
  obtain ⟨_, last, waited, sound, steady, idle⟩ := step_returns sound steady (gone.waited sound fits)
  exact ⟨_, last, Transition.run_cons_of spawned (Transition.run_cons_of entered (Transition.run_cons_of exited
    (Transition.run_cons_of left (Transition.run_cons_of waited (Transition.run_nil last))))), idle, sound, steady⟩

end

lemma initial_idle : Idle 0 (State.initial (fun _ => Context.empty) 0) :=
  ⟨fun i inside => by rw [State.initial_slots inside]; rfl, rfl, rfl, rfl, rfl, rfl, rfl, rfl, rfl, rfl, rfl, rfl, rfl⟩

/-- Any number of lives below the width of the handle. -/
lemma recycled_idle (n : Nat) (fits : n < 2 ^ 32) :
    ∃ ops replies state, Transition.run step (State.initial (fun _ => Context.empty) 0) ops = some (replies, state) ∧
    Idle n state ∧ Sound state ∧
      Steady state := by
  induction n with
  | zero => exact ⟨[], [], _, rfl, initial_idle, State.initial_sound _ _, State.initial_steady _ _⟩
  | succ n ih =>
    obtain ⟨ops, replies, state, ran, idle, sound, steady⟩ := ih (by omega)
    obtain ⟨more, next, lived, idle, sound, steady⟩ := idle.life sound steady fits
    exact ⟨_, _, next, Transition.run_append_of ran lived, idle, sound, steady⟩

/-- After 2^32 - 1 lives of slot 0 the next process gets the handle 0, which decodes to nothing. -/
theorem handle_lost_after_recycling : ∃ ops replies state a,
    Transition.run step (State.boot (fun _ => Context.empty) 0) (.init onDuty :: ops) = some (replies, state) ∧
    a ∈ state.admitted ∧
      (a.slot, a.gen) ∉ state.reaped ∧ (state.slots a.slot).state = .active ∧ decode state a.handle = none := by
  obtain ⟨ops, replies, before, ran, idle, sound, steady⟩ := recycled_idle (2 ^ 32 - 1) (by decide)
  obtain ⟨reply, state, spawned, sound', -, started, admitted⟩ :=
    step_returns sound steady (idle.spawn sound (by decide))
  have ends : Ends (fun _ => False) (Op.perform (.init onDuty)) (State.boot (fun _ => Context.empty) 0) _ :=
    ends_init rfl
  obtain ⟨ready, _, booted, rfl, -⟩ := ends.returns ends fun _ never => never.elim
  have whole := Transition.run_cons_of (show step _ (.init onDuty) = _ by
    rw [step, booted]; rfl) (Transition.run_append_of ran (Transition.run_cons_of spawned (Transition.run_nil state)))
  have history := (booted_moves rfl whole).1.history (State.initial_sound _ _) (initial_history _ _)
  refine ⟨_, _, state, ⟨0, 2 ^ 32, ownerKernel, packHandle 0 (2 ^ 32)⟩, whole, ?_, fun gone => ?_, started.life, ?_⟩
  · rw [admitted]
    exact mem_append_right _ (mem_singleton.mpr rfl)
  · have below := history.past 0 (2 ^ 32) gone
    rw [started.gen] at below
    exact lt_irrefl _ below
  · have zero : packHandle 0 (2 ^ 32) = 0 := rfl
    rw [zero]
    simp [decode, sound'.ready]

end Rynor.Proc
