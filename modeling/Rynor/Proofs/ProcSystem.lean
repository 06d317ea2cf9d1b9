import Rynor.Proofs.ProcWaits

/-! The system of direct calls, programs, gates and workers: in every run the process table
and the pipe pass their structural checks between any two actions. -/

namespace Rynor.Proc
open Outcome
variable {state next : State} {x y created : Nat} {contexts : Nat → Context} {op : Op} {reply : Reply} {cpu : Cpu}
  {ops : List Op}
  {replies : List Reply}

/-! A program acts only from a live slot; while a wait is suspended that is the third one. -/

section
variable {state : State} {x y s : Nat}

section
variable (suspended : Suspended state x y) (sound : Sound state) (inside : s < maxProcs)
  (active : (state.slots s).state = .active)
include suspended sound inside active

lemma Suspended.third (within : j < maxProcs) : j = x ∨ j = y ∨ j = s := by
  have first : s ≠ x := by
    rintro rfl
    exact (suspended.joined.ended sound).ne_active active
  have second : s ≠ y := by
    rintro rfl
    exact suspended.ended.ne_active active
  have apart := suspended.apart
  have one := suspended.joined.1
  have two := suspended.inside
  simp only [maxProcs] at *
  omega

lemma Suspended.full (j : Nat) (within : j < maxProcs) : (state.slots j).state ≠ .free := by
  rcases suspended.third sound inside active within with rfl | rfl | rfl
  · exact suspended.joined.2.1
  · exact suspended.ended.ne_free
  · rw [active]
    decide

/-- The slot whose worker was joined has no thread, and the awaited one belongs to it. -/
lemma procWait_suspended {ι : Type} {perform : Option ι → ProcM Bool} (userCheck : Bool) (handle : Nat)
    (schedule : List ι) :
    Ends Allowed (procWait perform env userCheck ⟨handle, true, s, s⟩ schedule) state fun _ next => next = state := by
  simp only [procWait, ends_bind, ends_get, ends_ite, ends_pure]
  refine ⟨fun _ => trivial, fun _ => ?_⟩
  split
  · exact rfl
  next i decoded =>
  obtain ⟨within, held, -, -⟩ := decode_some decoded
  simp only [ends_ite, ends_pure]
  refine ⟨fun _ => ⟨fun _ => trivial, fun _ => trivial⟩,
    fun other => ⟨fun _ => trivial, fun mine => ⟨fun _ => trivial, fun spent => ?_⟩⟩⟩
  have owner : (state.slots i).owner = (s : Int) := not_not.mp mine
  rcases suspended.third sound inside active within with rfl | rfl | rfl
  · rw [sound.workers.joined i within held suspended.joined.2.2]
    exact allowed_other (by decide)
  · rw [suspended.owner] at owner
    have same : x = s := Int.ofNat_inj.mp owner
    rw [← same] at active
    exact absurd active (suspended.joined.ended sound).ne_active
  · simp [active] at spent

end

end

/-- A program's call edits the tables; its own thread is where it was and then moves on. -/
lemma ends_asProgram {id} {call : Int → ProcM PUnit} {stays : State → Prop} (sound : Sound state) (start : stays state)
    (frame : ∀ (next : State) id thread, stays next →
        stays { next with threads := Function.update next.threads id thread })
    (called : ∀ slot : Nat, slot < maxProcs → (state.slots slot).state = .active →
      Ends Allowed (call slot) state fun _ next => Edits state next ∧ stays next) :
    Ends Allowed (asProgram id call) state fun _ next => Changes state next ∧ stays next := by
  simp only [asProgram, ends_bind, ends_get]
  split
  next slot c running =>
    have run := sound.workers.thread id ⟨slot, .inUser c⟩ running (by simp)
    have inside : slot < maxProcs := run.inside
    have ctx : (state.slots slot).ctx = some c := run.ctx c rfl
    have active := run.active rfl
    have owner : procOwnerOf state c = slot := procOwnerOf_eq sound.ready
      (fun j within other => sound.tables.apart j slot c within inside other ctx) inside (by rw [active]; decide) ctx
    simp only [ends_bind, owner, ends_setThread]
    refine ends_require (by decide) fun _ => (called slot inside active).mono fun _ next moved => ?_
    obtain ⟨edits, settled⟩ := moved
    obtain ⟨here, same⟩ := edits.quiet sound id slot (.inUser c) running (by simp)
    refine ⟨edits.changes.tail (.phase id slot (.inUser c) _ here (by simp) (.inl rfl) (by simp) ?_),
      frame next id _ settled⟩
    intro d still
    cases still
    rw [same, ctx]
  · exact ⟨.refl, start⟩

lemma yieldOnGate_yields {ι : Type} : Yields (ι := ι) yieldOnGate Edits where
  refl _ := .refl
  trans := .trans
  edit := .one
  sound := Edits.sound
  yield _ _ _ := allowed_other (by decide)

lemma Event.ends_suspended (event : Event) (sound : Sound state) (suspended : Suspended state x y) :
    Ends Allowed event.perform state fun _ next => Changes state next ∧ Calm state next := by
  have still : ∀ next, next = state → Edits state next ∧ Calm state next := by
    rintro next rfl
    exact ⟨.refl, .of_slots rfl⟩
  have frame : ∀ (next : State) (id : Nat) (thread : Option Thread), Calm state next →
      Calm state { next with threads := Function.update next.threads id thread } := fun _ _ _ calm =>
        ⟨calm.settled, calm.live⟩
  cases event with
  | programSpawn id args env =>
    rw [Event.perform]
    refine ends_asProgram sound (.of_slots rfl) frame fun slot inside active => ?_
    rw [ends_bind]
    exact (procSpawnImage_full (suspended.full sound inside active) _ env).mono fun _ => still
  | programSpawnPipe id args env =>
    rw [Event.perform]
    refine ends_asProgram sound (.of_slots rfl) frame fun slot inside active => ?_
    rw [ends_bind]
    exact (procSpawnPipe_full (suspended.full sound inside active) _ env).mono fun _ => still
  | programWait id handle userCheck env =>
    rw [Event.perform]
    refine ends_asProgram sound (.of_slots rfl) frame fun slot inside active => ?_
    rw [ends_bind]
    exact (procWait_suspended suspended sound inside active userCheck handle []).mono fun _ => still
  | programTerminate id cpu handle =>
    rw [Event.perform]
    refine ends_asProgram sound (.of_slots rfl) frame fun slot inside active => ?_
    rw [ends_bind]
    refine (procTerminate_moves sound cpu handle slot slot (.inr fun i within other _ => ?_)).mono fun _ _ moved =>
      moved
    rcases suspended.third sound inside active within with rfl | rfl | rfl
    · exact (suspended.joined.ended sound).ne_active
    · exact suspended.ended.ne_active
    · exact absurd rfl other
  | programPause id =>
    rw [Event.perform]
    exact ends_asProgram sound (.of_slots rfl) frame fun _ _ _ => still state rfl
  | gate cpu heapFree id terminal code detail => exact gateTerminal_moves sound cpu heapFree id terminal code detail
  | workerEnter cpu id entered => exact workerEnter_moves cpu id entered
  | workerTurn cpu heapFree id marked resumed => exact workerTurn_moves sound cpu heapFree id marked resumed

lemma Event.ends_steady (event : Event) (sound : Sound state) (steady : Steady state) :
    Ends Allowed event.perform state fun _ next => Changes state next ∧ Steady next := by
  have calmed : ∀ next, Changes state next ∧ Calm state next → Changes state next ∧ Steady next :=
    fun _ moved => ⟨moved.1, moved.2.steady steady⟩
  have frame : ∀ (next : State) (id : Nat) (thread : Option Thread), Steady next →
      Steady { next with threads := Function.update next.threads id thread } := fun _ _ _ steady => steady
  cases event with
  | programSpawn id args env =>
    rw [Event.perform]
    refine ends_asProgram sound steady frame fun slot _ _ => ?_
    rw [ends_bind]
    exact procSpawnImage_moves sound steady _ env
  | programSpawnPipe id args env =>
    rw [Event.perform]
    refine ends_asProgram sound steady frame fun slot _ _ => ?_
    rw [ends_bind]
    exact procSpawnPipe_moves sound steady _ env
  | programWait id handle userCheck env =>
    rw [Event.perform]
    refine ends_asProgram sound steady frame fun slot _ _ => ?_
    rw [ends_bind]
    exact procWait_moves yieldOnGate_yields userCheck _ [] sound steady
  | programTerminate id cpu handle =>
    rw [Event.perform]
    refine ends_asProgram sound steady frame fun slot _ _ => ?_
    rw [ends_bind]
    exact (procTerminate_moves sound cpu handle slot slot (.inl steady)).mono fun _ _ moved =>
      ⟨moved.1, moved.2.steady steady⟩
  | programPause id =>
    rw [Event.perform]
    exact ends_asProgram sound steady frame fun _ _ _ => ⟨.refl, steady⟩
  | gate cpu heapFree id terminal code detail =>
    exact (gateTerminal_moves sound cpu heapFree id terminal code detail).mono fun _ => calmed
  | workerEnter cpu id entered => exact (workerEnter_moves cpu id entered).mono fun _ => calmed
  | workerTurn cpu heapFree id marked resumed =>
    exact (workerTurn_moves sound cpu heapFree id marked resumed).mono fun _ => calmed

lemma performAll_suspended (events : List Event) (sound : Sound state) (suspended : Suspended state x y) :
    Ends Allowed (performAll events) state fun _ next => Changes state next ∧ Calm state next := by
  induction events generalizing state with
  | nil => exact ⟨.refl, .of_slots rfl⟩
  | cons event events ih =>
    simp only [performAll, ends_bind]
    refine (event.ends_suspended sound suspended).mono fun _ mid first => ?_
    refine (ih (first.1.sound sound) (suspended.calm first.2)).mono fun _ next rest => ?_
    exact ⟨first.1.trans rest.1, first.2.trans rest.2⟩

lemma yieldInKernel_yields : Yields yieldInKernel Changes where
  refl _ := .refl
  trans := .trans
  edit edited := .one (.edit edited)
  sound := Changes.sound
  yield {state _ _} sound suspended turn := by
    cases turn with
    | none => exact ⟨.refl, .of_slots rfl⟩
    | some turn =>
      simp only [yieldInKernel, ends_ite, ends_bind, ends_pure]
      exact ⟨fun _ => ⟨.refl, .of_slots rfl⟩, fun _ => performAll_suspended turn.events sound suspended⟩

/-- Every operation on sound tables with no wait under way leaves such tables, and no structural check stops it. -/
lemma Op.ends (op : Op) (sound : Sound state) (steady : Steady state) :
    Ends Allowed op.perform state fun _ next => Changes state next ∧ Steady next := by
  cases op with
  | init cpu =>
    simp only [Op.perform, procInitialize, ends_bind, ends_get, sound.ready, Bool.or_true, if_true, ends_pure]
    exact ⟨.refl, steady⟩
  | spawnImage args env =>
    simp only [Op.perform, ends_bind, ends_pure]
    exact (procSpawnImage_moves sound steady args env).mono fun _ _ moved => ⟨moved.1.changes, moved.2⟩
  | spawnPipe args env =>
    simp only [Op.perform, ends_bind, ends_pure]
    exact (procSpawnPipe_moves sound steady args env).mono fun _ _ moved => ⟨moved.1.changes, moved.2⟩
  | wait onGate args userCheck env schedule =>
    simp only [Op.perform, ends_bind, ends_pure]
    cases onGate with
    | true => exact (procWait_moves yieldOnGate_yields userCheck args schedule sound steady).mono fun _ _ moved =>
      ⟨moved.1.changes, moved.2⟩
    | false => exact procWait_moves yieldInKernel_yields userCheck args schedule sound steady
  | terminate cpu handle owner selfSlot =>
    simp only [Op.perform, ends_bind, ends_pure]
    exact (procTerminate_moves sound cpu handle owner selfSlot (.inl steady)).mono fun _ _ moved =>
      ⟨moved.1.changes, moved.2.steady steady⟩
  | event event =>
    simp only [Op.perform, ends_bind, ends_pure]
    exact event.ends_steady sound steady

/-! Runs from initialisation. -/

/-- The tables right after `proc_initialize`. -/
def State.initial (contexts : Nat → Context) (created : Nat) : State :=
  { State.boot contexts created with
    ready := true
    slots := fun i => if i < maxProcs then { Slot.boot with gen := 1, owner := ownerKernel } else Slot.boot }

lemma State.initial_slots (inside : i < maxProcs) :
    (State.initial contexts created).slots i = { Slot.boot with gen := 1, owner := ownerKernel } := if_pos inside

lemma State.initial_sound (contexts : Nat → Context) (created : Nat) : Sound (State.initial contexts created) := by
  have isFree : ∀ i, i < maxProcs → ((State.initial contexts created).slots i).state = .free := fun i inside => by
    rw [State.initial_slots inside]
    rfl
  refine ⟨rfl, ⟨fun i inside => ?_, fun i inside => ?_, fun i j c inside _ ctx _ => ?_⟩,
    ⟨nofun, fun i inside valid => ?_, fun i inside held => ?_,
    fun i inside held => ?_, fun _ _ => rfl, fun i inside => ?_, fun i inside held => ?_, min_le_right _ _⟩, .inr ?_,
    nofun, nofun⟩
  · rw [State.initial_slots inside]
    exact ⟨Nat.one_pos, Nat.zero_le _, Nat.zero_le _, fun _ => ⟨rfl, rfl, rfl, rfl⟩, fun held => absurd rfl held, nofun⟩
  · rw [State.initial_slots inside]
    exact .inl rfl
  · rw [State.initial_slots inside] at ctx
    cases ctx
  · rw [State.initial_slots inside] at valid
    cases valid
  · exact absurd (isFree i inside) held
  · exact absurd (isFree i inside) held
  · rw [State.initial_slots inside]
    show 1 ≤ min (created + 2) (2 ^ 63)
    omega
  · exact absurd (isFree i inside) held
  · exact ⟨rfl, rfl, rfl, rfl, rfl, rfl, rfl, rfl, rfl⟩

lemma State.initial_steady (contexts : Nat → Context) (created : Nat) : Steady (State.initial contexts created) := by
  rintro i ⟨inside, held, -⟩
  rw [State.initial_slots inside] at held
  exact held rfl

lemma step_ok (stepped : step state op = some (reply, next)) : op.perform state = .ok (reply, next) := by
  unfold step at stepped
  cases ran : op.perform state with
  | error halt =>
    rw [ran] at stepped
    cases stepped
  | ok result =>
    rw [ran] at stepped
    cases stepped
    rfl

lemma ends_init (front : cpu.foreground = true) :
    Ends allowed (Op.perform (.init cpu)) (State.boot contexts created) fun _ next =>
    next = State.initial contexts created := by
  simp only [Op.perform, procInitialize, ensureInit, ends_bind, ends_get, front, State.boot, Bool.not_true,
    Bool.or_self, Bool.false_eq_true,
    if_false, ends_set, ends_pure]
  rfl

lemma step_moves (sound : Sound state) (steady : Steady state) (stepped : step state op = some (reply, next)) :
    Changes state next ∧ Steady next :=
  (op.ends sound steady).ok (step_ok stepped)

/-- A run from initialised tables is a sequence of primitive changes that ends with no wait under way. -/
lemma run_moves (sound : Sound state) (steady : Steady state)
    (ran : Transition.run step state ops = some (replies, last)) : Changes state last ∧ Steady last :=
  Transition.run_invariant (fun current => Changes state current ∧ Steady current)
    (fun current op reply next kept stepped => by
      obtain ⟨moved, settled⟩ := step_moves (kept.1.sound sound) kept.2 stepped
      exact ⟨kept.1.trans moved, settled⟩)
    ran ⟨.refl, steady⟩

lemma booted_moves
    (front : cpu.foreground = true) (ran : Transition.run step (State.boot contexts created) (.init cpu :: ops) =
      some (replies, state)) :
    Changes (State.initial contexts created) state ∧ Steady state := by
  obtain ⟨reply, first, rest, stepped, later, -⟩ := Transition.run_cons ran
  have ends : Ends Allowed (Op.perform (.init cpu)) (State.boot contexts created) _ := ends_init front
  obtain rfl := ends.ok (step_ok stepped)
  exact run_moves (State.initial_sound contexts created) (State.initial_steady contexts created) later

/-- In every run from `proc_initialize` the process table and the pipe pass their checks,
and no operation stops the machine on one of them. -/
theorem checks_hold_in_every_run {contexts : Nat → Context} {created : Nat} {cpu : Cpu} {state : State} {ops : List Op}
    {replies : List Reply} (front : cpu.foreground = true)
    (ran : Transition.run step (State.boot contexts created) (.init cpu :: ops) = some (replies, state)) :
    (∀ probe : Cpu, probe.interruptsDisabled = true →
      procCheck state probe = true ∧ state.pipe.pipeCheck (pipeEnv state probe true) = true) ∧
    ∀ (op : Op) (why : String), op.perform state ≠ .error (.procCheck why) ∧ op.perform state ≠ .error
    (.pipeCheck why) := by
  obtain ⟨moved, steady⟩ := booted_moves front ran
  have sound := moved.sound (State.initial_sound contexts created)
  refine ⟨fun probe off => ⟨sound.procCheck steady off, sound.pipeCheck off⟩,
    fun op why => ⟨fun stopped => ?_, fun stopped => ?_⟩⟩
  · obtain ⟨_, other, _⟩ := (op.ends sound steady).error stopped
    cases other
  · obtain ⟨_, other, _⟩ := (op.ends sound steady).error stopped
    cases other

def onDuty : Cpu := ⟨true, false⟩

def smallImage : Loading := ⟨some ⟨100, 10⟩, true, true, true⟩

def spawnForKernel : Op :=
  .spawnImage ⟨true, 100, true, 0, stdinClosed, ownerKernel, true⟩ ⟨onDuty, smallImage, true, true, true, true⟩

def freeing : FreeEnv := ⟨onDuty, fun _ => true, fun _ => true⟩

/-- One process from its spawn to its wait: it exits with code 7. -/
def lifeOps (thread handle : Nat) : List Op :=
  [spawnForKernel, .event (.workerEnter onDuty thread true), .event (.gate onDuty true thread .exited 7 0),
    .event (.workerTurn onDuty true thread true true), .wait false ⟨handle, true, ownerKernel, -1⟩ true freeing []]

/-- A pipeline of two processes is spawned; the writer exits with code 7 and the reader faults. -/
def pipelineOps : List Op :=
  [.spawnPipe ⟨true, true, true, 0, true, 0, stdinClosed, ownerKernel⟩
      ⟨onDuty, 8, some 64, true, ⟨.ok, smallImage, true⟩, ⟨.ok, smallImage, true⟩, true, true, true,
        true, true, true, true⟩,
    .event (.workerEnter onDuty 2 true), .event (.workerEnter onDuty 3 true), .event (.gate onDuty true 2 .exited 7 0),
    .event (.workerTurn onDuty true 2 true true), .event (.gate onDuty true 3 .faulted 14 4),
      .event (.workerTurn onDuty true 3 true true)]

/-- With the pipe between two running processes attached, and when both have ended. -/
theorem checks_hold_over_a_pipeline : ∃ replies state later last,
    Transition.run step (State.boot (fun _ => Context.empty) 0)
    (.init onDuty :: pipelineOps.take 3) = some (replies, state) ∧
      state.pipe.live = true ∧ procCheck state onDuty = true ∧ state.pipe.pipeCheck (pipeEnv state onDuty true) = true ∧
      Transition.run step (State.boot (fun _ => Context.empty) 0) (.init onDuty :: pipelineOps) = some (later, last) ∧
      (last.slots 0).state = .exited ∧ (last.slots 1).state = .faulted ∧ procCheck last onDuty = true := by
  have running : ((Transition.run step (State.boot (fun _ => Context.empty) 0)
    (.init onDuty :: pipelineOps.take 3)).map fun ran =>
      ran.2.pipe.live) = some true := by decide +kernel
  have ended : ((Transition.run step (State.boot (fun _ => Context.empty) 0) (.init onDuty :: pipelineOps)).map
    fun ran =>
      ((ran.2.slots 0).state, (ran.2.slots 1).state)) = some (.exited, .faulted) := by decide +kernel
  obtain ⟨⟨replies, state⟩, ran, live⟩ := Option.map_eq_some_iff.mp running
  obtain ⟨⟨later, last⟩, on, same⟩ := Option.map_eq_some_iff.mp ended
  obtain ⟨first, second⟩ := Prod.mk.inj same
  obtain ⟨table, pipe⟩ := (checks_hold_in_every_run rfl ran).1 onDuty rfl
  exact ⟨replies, state, later, last, ran, live, table, pipe, on, first, second,
    ((checks_hold_in_every_run rfl on).1 onDuty rfl).1⟩

end Rynor.Proc
