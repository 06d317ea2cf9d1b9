import Rynor.Proofs.ProcTables

/-! The primitive changes that every call, gate event and worker turn is made of, each
with the condition under which the code makes it, and what they keep. -/

namespace Rynor.Proc
open Function (update update_self update_of_ne update_eq_self update_apply)
open Pipe (Attached Detached)
variable {life : ProcLife} {slot slot : Slot} {state next : State} {slots : Nat → Slot}

def ProcLife.Ended (life : ProcLife) : Prop := life = .exited ∨ life = .faulted ∨ life = .aborted

lemma ProcLife.Ended.ne_free (ended : life.Ended) : life ≠ .free := by
  rcases ended with rfl | rfl | rfl <;> decide

lemma ProcLife.Ended.ne_active (ended : life.Ended) : life ≠ .active := by
  rcases ended with rfl | rfl | rfl <;> decide

lemma SlotSound.ended (sound : SlotSound contexts slot) (held : slot.state ≠ .free)
    (inactive : slot.state ≠ .active) : slot.state.Ended := by
  have settled := sound.not_loading
  cases life : slot.state with
  | free => exact absurd life held
  | loading => exact absurd life settled
  | active => exact absurd life inactive
  | exited => exact .inl rfl
  | faulted => exact .inr (.inl rfl)
  | aborted => exact .inr (.inr rfl)

/-- The slot that `free_joined` leaves. -/
def Slot.recycled (slot : Slot) : Slot :=
  { slot with
    ctx := none, state := .free, workerValid := false, killRequested := false, owner := ownerKernel, exitCode := 0,
    faultVector := 0, faultError := 0, gen := bump slot.gen }

/-- A slot admitted with its worker about to start. -/
structure Admitted (before after : Slot) (c worker : Nat) : Prop where
  active : after.state = .active
  gen : after.gen = before.gen
  ctx : after.ctx = some c
  worker : after.worker = worker
  valid : after.workerValid = true
  stdin : after.stdinSel ≤ stdinPipe
  stdout : after.stdoutSel ≤ stdoutPipe

/-- Terminal record of an active slot: only its state and its codes move. -/
structure Recorded (before after : Slot) : Prop where
  ended : after.state.Ended
  same : after = { before with
    state := after.state, exitCode := after.exitCode, faultVector := after.faultVector, faultError := after.faultError }

structure SamePages (before after : Context) : Prop where
  code : after.codePages = before.codePages
  data : after.dataPages = before.dataPages

lemma SamePages.clear (pages : SamePages before after) : reservedClear after = reservedClear before := by
  simp only [reservedClear, Context.maps, pages.code, pages.data]

/-- What the process calls write. -/
inductive Edit (state : State) : State → Prop
  | contexts (others : Nat → Context) (same : ∀ c, (others c).state = (state.contexts c).state)
      (pages : ∀ c, (state.contexts c).state = .free ∨ SamePages (state.contexts c) (others c)) :
      Edit state { state with contexts := others }
  | kill (i : Nat) (inside : i < maxProcs) (active : (state.slots i).state = .active) :
      Edit state { state with slots := update state.slots i { state.slots i with killRequested := true } }
  | reparent (i : Nat) (inside : i < maxProcs) (active : (state.slots i).state = .active) :
      Edit state { state with
        slots := update state.slots i { state.slots i with owner := ownerKernel, killRequested := true },
        orphaned := state.orphaned ++ [(i, (state.slots i).gen)] }
  | admission (i c : Nat) (slot : Slot) (context : Context) (inside : i < maxProcs)
    (isFree : (state.slots i).state = .free)
      (unused : (state.contexts c).state = .free) (room : state.nextThread < 2 ^ 63)
      (admitted : Admitted (state.slots i) slot c state.nextThread) (owned : Owned state.slots slot.owner)
      (running : context.state = .active) (clear : reservedClear context = true) :
      Edit state { state with
        slots := update state.slots i slot, contexts := update state.contexts c context,
        threads := update state.threads state.nextThread (some ⟨i, .fresh⟩), nextThread := state.nextThread + 1,
        admitted := state.admitted ++ [⟨i, slot.gen, slot.owner, packHandle i slot.gen⟩] }
  | attach (pipe : Pipe) (detached : Detached state.pipe) (attached : Attached pipe)
      (reader : Endpoint state.slots pipe.rslot pipe.rgen fun slot => slot.stdinSel = stdinPipe)
      (writer : Endpoint state.slots pipe.wslot pipe.wgen fun slot => slot.stdoutSel = stdoutPipe) :
      Edit state { state with pipe }
  | reselect (i stdin stdout : Nat) (inside : i < maxProcs) (isFree : (state.slots i).state = .free)
      (small : stdin ≤ stdinPipe) (tiny : stdout ≤ stdoutPipe) :
      Edit state { state with
        slots := update state.slots i { state.slots i with
          stdinSel := stdin, stdoutSel := stdout, exitCode := 0, faultVector := 0, faultError := 0 } }
  | ring (bytes : ByteMemory) (freed : List Nat) (detached : Detached state.pipe) :
      Edit state { state with pipe := { state.pipe with bytes, freed } }
  | join (i : Nat) (inside : i < maxProcs) (ended : (state.slots i).state.Ended)
    (valid : (state.slots i).workerValid = true)
      (exited : state.threads (state.slots i).worker = some ⟨i, .exited⟩) :
      Edit state { state with
        threads := update state.threads (state.slots i).worker none,
        slots := update state.slots i { state.slots i with workerValid := false } }
  | recycle (i c : Nat) (child : (state.slots i).owner ≠ ownerKernel) (joined : Joined state i)
    (ctx : (state.slots i).ctx = some c)
      (childless : ∀ j, j < maxProcs → (state.slots j).state ≠ .free → (state.slots j).owner ≠ (i : Int)) :
      Edit state { state with
        contexts := update state.contexts c Context.empty,
        slots := update state.slots i (state.slots i).recycled,
        reaped := state.reaped ++ [(i, (state.slots i).gen)] }
  | deliver (i c handle : Nat) (owner : Int) (status : ProcStatus) (asked : (state.slots i).owner = owner)
    (joined : Joined state i) (ctx : (state.slots i).ctx = some c)
      (childless : ∀ j, j < maxProcs → (state.slots j).state ≠ .free → (state.slots j).owner ≠ (i : Int))
      (decoded : decode state handle = some i) (published : (state.slots i).status = some status) :
      Edit state { state with
        contexts := update state.contexts c Context.empty,
        slots := update state.slots i (state.slots i).recycled,
        reaped := state.reaped ++ [(i, (state.slots i).gen)],
        delivered := state.delivered ++ [(handle, status)],
        claimed := state.claimed ++ if owner = ownerKernel then [(i, handle / 2 ^ 32)] else [] }

/-- What a thread does on its own: it moves on, or its process ends. -/
inductive Change (state : State) : State → Prop
  | edit {next : State} (edit : Edit state next) : Change state next
  | phase (id slot : Nat) (before after : Phase) (running : state.threads id = some ⟨slot, before⟩)
    (live : before ≠ .exited)
      (same : after.userState = before.userState ∨ after = .exited) (done : after = .exited →
        before.userState ≠ .active)
      (known : ∀ c, after.ctx = some c → (state.slots slot).ctx = some c) :
      Change state { state with threads := update state.threads id (some ⟨slot, after⟩) }
  | terminal (i c id : Nat) (before after : Phase) (slot : Slot) (context : Context) (env : PipeEnv) (pipe : Pipe)
      (inside : i < maxProcs) (active : (state.slots i).state = .active) (ctx : (state.slots i).ctx = some c)
      (running : state.threads id = some ⟨i, before⟩) (live : before ≠ .exited)
        (recorded : Recorded (state.slots i) slot)
      (agrees : slot.state.userState = some context.state) (pages : SamePages (state.contexts c) context)
      (moved : after = .exited ∨ (after.userState = context.state ∧ after.ctx = some c))
      (noted : state.pipe.pipeNoteTerminal env i (state.slots i).gen = .ok (true, pipe)) :
      Change state { state with
        slots := update state.slots i slot, contexts := update state.contexts c context,
        threads := update state.threads id (some ⟨i, after⟩), pipe }

def Edits : State → State → Prop := Relation.ReflTransGen Edit

def Changes : State → State → Prop := Relation.ReflTransGen Change

lemma Edits.changes (edits : Edits state next) : Changes state next := by
  induction edits with
  | refl => exact .refl
  | tail _ edit ih => exact .tail ih (.edit edit)

lemma Edit.context (c : Nat) (new : Context) (same : new.state = (state.contexts c).state)
    (pages : (state.contexts c).state = .free ∨ SamePages (state.contexts c) new) :
    Edit state { state with contexts := update state.contexts c new } := by
  refine .contexts _ (fun d => ?_) (fun d => ?_)
  all_goals by_cases here : d = c
  · rw [here, update_self, same]
  · rw [update_of_ne here]
  · rw [here, update_self]
    exact pages
  · rw [update_of_ne here]
    exact .inr ⟨rfl, rfl⟩

/-! Soundness of the tables after a change to one slot. -/

lemma SlotSound.contexts {contexts others : Nat → Context} (sound : SlotSound contexts slot)
    (same : ∀ c, slot.ctx = some c →
      (others c).state = (contexts c).state ∧ reservedClear (others c) = reservedClear (contexts c)) :
      SlotSound others slot := by
  refine ⟨sound.gen, sound.stdin, sound.stdout, sound.free, fun held => ?_, sound.active⟩
  obtain ⟨c, ctx, agrees, clear⟩ := sound.held held
  obtain ⟨state, pages⟩ := same c ctx
  exact ⟨c, ctx, by rw [state]; exact agrees, by rw [pages]; exact clear⟩

lemma Owned.mono (owned : Owned slots owner)
    (kept : ∀ o : Nat, o < maxProcs → owner = o → (slots o).state ≠ .free → (others o).state ≠ .free) :
    Owned others owner := by
  rcases owned with kernel | ⟨o, inside, same, held⟩
  · exact .inl kernel
  · exact .inr ⟨o, inside, same, kept o inside same held⟩

section
variable {slots next : Nat → Slot} {contexts others : Nat → Context} {i : Nat}
variable {j c : Nat} {slot : Slot}

section
variable (tables : Tables slots contexts)
include tables

lemma Tables.set (rest : ∀ j, j ≠ i → next j = slots j) (same : ∀ j c, j < maxProcs → j ≠ i → (slots j).ctx = some c →
      (others c).state = (contexts c).state ∧ reservedClear (others c) = reservedClear (contexts c))
    (slot : SlotSound others (next i)) (owned : Owned next (next i).owner)
    (kept : (next i).state = .free → ∀ j, j < maxProcs → j ≠ i → (slots j).owner ≠ (i : Int))
    (alone : ∀ j c, j < maxProcs → j ≠ i → (next i).ctx = some c → (slots j).ctx ≠ some c) : Tables next others := by
  refine ⟨fun j inside => ?_, fun j inside => ?_, fun j k c first second mine other => ?_⟩
  · by_cases here : j = i
    · subst here
      exact slot
    · rw [rest j here]
      exact (tables.slot j inside).contexts fun c ctx => same j c inside here ctx
  · by_cases here : j = i
    · subst here
      exact owned
    rw [rest j here]
    refine (tables.owner j inside).mono fun o _ belongs held => ?_
    by_cases target : o = i
    · subst target
      exact fun isFree => kept isFree j inside here belongs
    · rw [rest o target]
      exact held
  by_cases here : j = i <;> by_cases there : k = i
  · rw [here, there]
  · subst here
    rw [rest k there] at other
    exact absurd other (alone k c second there mine)
  · subst there
    rw [rest j here] at mine
    exact absurd mine (alone j c first here other)
  · rw [rest j here] at mine
    rw [rest k there] at other
    exact tables.apart j k c first second mine other

lemma Tables.free_owns (isFree : (slots i).state = .free) (inside : j < maxProcs) : (slots j).owner ≠ (i : Int) := by
  intro same
  rcases tables.owner j inside with kernel | ⟨o, -, other, held⟩
  · rw [kernel] at same
    exact absurd same (by simp only [ownerKernel]; omega)
  · rw [other] at same
    exact held (by rw [Int.ofNat_inj.mp same]; exact isFree)

lemma Tables.unused (isFree : (contexts c).state = .free) (inside : j < maxProcs) : (slots j).ctx ≠ some c := by
  intro ctx
  have sound := tables.slot j inside
  have held : (slots j).state ≠ .free := by
    intro empty
    rw [(sound.free empty).1] at ctx
    cases ctx
  obtain ⟨d, same, agrees, -⟩ := sound.held held
  rw [ctx] at same
  cases same
  rw [isFree] at agrees
  cases life : (slots j).state <;> rw [life] at agrees <;> cases agrees

end

lemma Owned.set (owned : Owned slots owner) (held : slot.state ≠ .free) : Owned (update slots i slot) owner := by
  refine owned.mono fun o _ _ live => ?_
  by_cases here : o = i
  · subst here
    rw [update_self]
    exact held
  · rw [update_of_ne here]
    exact live

section
variable (tables : Tables slots contexts) {context : Context}
include tables

/-- A slot that stays in use with its own context, whose state it follows. -/
lemma Tables.replace {c} (mine : slot.ctx = some c) (alone : ∀ j, j < maxProcs → j ≠ i → (slots j).ctx ≠ some c)
    (held : slot.state ≠ .free) (sound : SlotSound (update contexts c context) slot)
    (owned : Owned slots slot.owner) : Tables (update slots i slot) (update contexts c context) := by
  refine tables.set (i := i) (fun j other => update_of_ne other _ _) (fun j d within other taken => ?_) ?_ ?_ ?_ ?_
  · have differ : d ≠ c := by
      rintro rfl
      exact alone j within other taken
    rw [update_of_ne differ]
    exact ⟨rfl, rfl⟩
  · rw [update_self]
    exact sound
  · rw [update_self]
    exact owned.set held
  · rw [update_self]
    exact fun isFree => absurd isFree held
  · intro j d within other taken
    rw [update_self, mine] at taken
    cases taken
    exact alone j within other

lemma Tables.terminal (inside : i < maxProcs) (active : (slots i).state = .active) (ctx : (slots i).ctx = some c)
    (recorded : Recorded (slots i) slot)
    (agrees : slot.state.userState = some context.state) (pages : SamePages (contexts c) context) :
    Tables (update slots i slot) (update contexts c context) := by
  have before := tables.slot i inside
  have mine : slot.ctx = some c := by rw [recorded.same]; exact ctx
  have owner : slot.owner = (slots i).owner := by rw [recorded.same]
  refine tables.replace mine (fun j within other taken => other (tables.apart j i c within inside taken ctx))
    recorded.ended.ne_free ⟨?_, ?_, ?_, fun isFree => absurd isFree recorded.ended.ne_free, fun _ => ?_, fun _ => ?_⟩ ?_
  · rw [recorded.same]; exact before.gen
  · rw [recorded.same]; exact before.stdin
  · rw [recorded.same]; exact before.stdout
  · obtain ⟨d, same, -, clear⟩ := before.held (by rw [active]; decide)
    rw [ctx] at same
    cases same
    refine ⟨c, mine, ?_, ?_⟩
    · rw [update_self]
      exact agrees
    · rw [update_self, pages.clear]
      exact clear
  · rw [recorded.same]; exact before.active active
  · rw [owner]
    exact tables.owner i inside

/-- Changes to the kill flag, the owner or the worker of a slot in use. -/
lemma Tables.adjust (inside : i < maxProcs) (held : (slots i).state ≠ .free)
    (same : slot.state = (slots i).state ∧ slot.gen = (slots i).gen ∧ slot.ctx = (slots i).ctx ∧
      slot.stdinSel = (slots i).stdinSel ∧ slot.stdoutSel = (slots i).stdoutSel)
    (valid : slot.state = .active → slot.workerValid = true) (owned : Owned slots slot.owner) :
    Tables (update slots i slot) contexts := by
  obtain ⟨state, gen, ctx, stdin, stdout⟩ := same
  have before := tables.slot i inside
  obtain ⟨c, mine, agrees, clear⟩ := before.held held
  have unchanged : update contexts c (contexts c) = contexts := update_eq_self c contexts
  have live : slot.state ≠ .free := by rw [state]; exact held
  rw [← unchanged]
  refine tables.replace (ctx.trans mine) (fun j within other taken =>
    other (tables.apart j i c within inside taken mine)) live
    ⟨by rw [gen]; exact before.gen, by rw [stdin]; exact before.stdin, by rw [stdout]; exact before.stdout,
      fun isFree => absurd isFree live, fun _ => ⟨c, ctx.trans mine, ?_, ?_⟩, valid⟩ owned
  · rw [unchanged, state]
    exact agrees
  · rw [unchanged]
    exact clear

lemma Tables.admission (inside : i < maxProcs) (unused : (contexts c).state = .free)
    (admitted : Admitted (slots i) slot c worker)
    (owned : Owned slots slot.owner) (running : context.state = .active) (clear : reservedClear context = true) :
    Tables (update slots i slot) (update contexts c context) := by
  have live : slot.state ≠ .free := by rw [admitted.active]; decide
  refine tables.replace admitted.ctx (fun j within _ => tables.unused unused within) live
    ⟨by rw [admitted.gen]; exact (tables.slot i inside).gen, admitted.stdin, admitted.stdout,
      fun isFree => absurd isFree live,
      fun _ => ⟨c, admitted.ctx, ?_, ?_⟩, fun _ => admitted.valid⟩ owned
  · rw [update_self, admitted.active, running]
    rfl
  · rw [update_self]
    exact clear

/-- A slot that ends up free and empty, with nobody left to own. -/
lemma Tables.vacate (same : ∀ j c, j < maxProcs → j ≠ i → (slots j).ctx = some c →
      (others c).state = (contexts c).state ∧ reservedClear (others c) = reservedClear (contexts c))
    (sound : SlotSound others slot) (isFree : slot.state = .free)
    (childless : ∀ j, j < maxProcs → j ≠ i → (slots j).owner ≠ (i : Int)) : Tables (update slots i slot) others := by
  obtain ⟨ctx, -, -, owner⟩ := sound.free isFree
  refine tables.set (i := i) (fun j other => update_of_ne other _ _) same ?_ ?_ ?_ ?_
  · rw [update_self]
    exact sound
  · rw [update_self, owner]
    exact .inl rfl
  · exact fun _ => childless
  · intro j c _ _ mine
    rw [update_self, ctx] at mine
    cases mine

end

lemma bump_pos (gen : Nat) : 0 < bump gen := by
  unfold bump
  split <;> omega

lemma Tables.recycle (tables : Tables slots contexts) (inside : i < maxProcs) (ctx : (slots i).ctx = some c)
    (childless : ∀ j, j < maxProcs → (slots j).state ≠ .free → (slots j).owner ≠ (i : Int)) :
    Tables (update slots i (slots i).recycled) (update contexts c Context.empty) := by
  have before := tables.slot i inside
  refine tables.vacate (fun j d within other taken => ?_)
    ⟨bump_pos _, before.stdin, before.stdout, fun _ => ⟨rfl, rfl, rfl, rfl⟩, fun held => absurd rfl held, nofun⟩ rfl
    (fun j within _ => ?_)
  · have differ : d ≠ c := by
      rintro rfl
      exact other (tables.apart j i d within inside taken ctx)
    rw [update_of_ne differ]
    exact ⟨rfl, rfl⟩
  by_cases isFree : (slots j).state = .free
  · rw [((tables.slot j within).free isFree).2.2.2]
    simp only [ownerKernel]
    omega
  · exact childless j within isFree

lemma Tables.reselect (tables : Tables slots contexts)
    (inside : i < maxProcs) (isFree : (slots i).state = .free) (small : stdin ≤ stdinPipe)
    (tiny : stdout ≤ stdoutPipe) :
    Tables (update slots i { slots i with stdinSel := stdin, stdoutSel := stdout, exitCode, faultVector, faultError })
      contexts := by
  have before := tables.slot i inside
  exact tables.vacate (fun _ _ _ _ _ => ⟨rfl, rfl⟩) ⟨before.gen, small, tiny, before.free,
    before.held, before.active⟩ isFree
    fun j within _ => tables.free_owns isFree within

end

/-! Threads and slots keep naming each other. -/

section
variable {slots next : Nat → Slot} {threads : Nat → Option Thread} {nextThread i id : Nat}
variable {slot : Slot} {later : Nat}

/-- The fields of a slot that its worker depends on. -/
structure SameWorker (before after : Slot) : Prop where
  state : after.state = before.state
  gen : after.gen = before.gen
  ctx : after.ctx = before.ctx
  worker : after.worker = before.worker
  valid : after.workerValid = before.workerValid

/-- What the threads owe one slot. -/
structure Worked (threads : Nat → Option Thread) (nextThread i : Nat) (slot : Slot) : Prop where
  worker : slot.workerValid = true → ∃ thread, threads slot.worker = some thread ∧ thread.slot = i ∧
    (slot.state = .active → thread.phase ≠ .exited)
  joined : slot.state ≠ .free → slot.workerValid = false → threads slot.worker = none
  issued : slot.state ≠ .free → slot.worker < nextThread
  gen : slot.gen ≤ nextThread
  genHeld : slot.state ≠ .free → slot.gen < nextThread

lemma Workers.worked (workers : Workers slots threads nextThread) (inside : i < maxProcs) :
    Worked threads nextThread i (slots i) :=
  ⟨workers.worker i inside, workers.joined i inside, workers.issued i inside, workers.gen i inside,
    workers.genHeld i inside⟩

lemma Workers.worker_lt (workers : Workers slots threads nextThread) (inside : i < maxProcs)
    (busy : (slots i).workerValid = true ∨ (slots i).state ≠ .free) : (slots i).worker < nextThread := by
  rcases busy with valid | held
  · obtain ⟨thread, found, -, -⟩ := workers.worker i inside valid
    by_contra beyond
    rw [workers.unissued _ (not_lt.mp beyond)] at found
    cases found
  · exact workers.issued i inside held

lemma Workers.of_worked (thread : ∀ id thread, threads id = some thread → thread.phase ≠ .exited →
      Running slots id thread)
    (worked : ∀ i, i < maxProcs → Worked threads nextThread i (slots i))
    (unissued : ∀ id, nextThread ≤ id → threads id = none)
    (bound : nextThread ≤ 2 ^ 63) : Workers slots threads nextThread :=
  ⟨thread, fun i inside => (worked i inside).worker, fun i inside => (worked i inside).joined,
    fun i inside => (worked i inside).issued,
    unissued, fun i inside => (worked i inside).gen, fun i inside => (worked i inside).genHeld, bound⟩

lemma Worked.congr (worked : Worked threads nextThread i slot)
    (same : slot.workerValid = true ∨ slot.state ≠ .free → others slot.worker = threads slot.worker)
    (grows : nextThread ≤ later) :
    Worked others later i slot := by
  refine ⟨fun valid => ?_, fun held idle => ?_, fun held => lt_of_lt_of_le (worked.issued held) grows,
    le_trans worked.gen grows, fun held => lt_of_lt_of_le (worked.genHeld held) grows⟩
  · rw [same (.inl valid)]
    exact worked.worker valid
  · rw [same (.inr held)]
    exact worked.joined held idle

lemma Running.set (running : Running slots id thread) (apart : thread.slot ≠ i) :
    Running (update slots i slot) id thread := by
  refine ⟨running.inside, ?_, ?_, ?_, ?_⟩ <;> rw [update_of_ne apart]
  · exact running.worker
  · exact running.valid
  · exact running.agrees
  · exact running.ctx

lemma Workers.set (workers : Workers slots threads nextThread)
    (own : ∀ thread, new = some thread → thread.phase ≠ .exited → Running (update slots i slot) id thread)
    (elsewhere : ∀ other thread, other ≠ id → threads other = some thread → thread.phase ≠ .exited → thread.slot ≠ i)
    (mine : i < maxProcs → Worked (update threads id new) later i slot)
    (same : ∀ j, j < maxProcs → j ≠ i → (slots j).workerValid = true ∨ (slots j).state ≠ .free →
      update threads id new (slots j).worker = threads (slots j).worker)
    (grows : nextThread ≤ later) (unissued : ∀ other, later ≤ other → update threads id new other = none)
    (bound : later ≤ 2 ^ 63) :
    Workers (update slots i slot) (update threads id new) later := by
  refine .of_worked (fun other thread found live => ?_) (fun j within => ?_) unissued bound
  · by_cases here : other = id
    · subst here
      rw [update_self] at found
      exact own thread found live
    · rw [update_of_ne here] at found
      exact (workers.thread other thread found live).set (elsewhere other thread here found live)
  by_cases here : j = i
  · subst here
    rw [update_self]
    exact mine within
  · rw [update_of_ne here]
    exact (workers.worked within).congr (same j within here) grows

lemma Workers.same_slots (workers : Workers slots threads nextThread) (same : ∀ j, SameWorker (slots j) (next j)) :
    Workers next threads nextThread := by
  refine .of_worked (fun id thread found live => ?_) (fun j inside => ?_) workers.unissued workers.bound
  · obtain ⟨inside, worker, valid, agrees, ctx⟩ := workers.thread id thread found live
    have kept := same thread.slot
    exact ⟨inside, kept.worker.trans worker, kept.valid.trans valid, by rw [kept.state]; exact agrees,
      fun c mine => kept.ctx.trans (ctx c mine)⟩
  · obtain ⟨state, gen, -, worker, valid⟩ := same j
    obtain ⟨found, joined, issued, small, held⟩ := workers.worked inside
    exact ⟨by rwa [valid, worker, state], by rwa [state, valid, worker], by rwa [state, worker], by rwa [gen], by
      rwa [state, gen]⟩

lemma sameWorker_update (same : SameWorker (slots i) slot) (j : Nat) :
    SameWorker (slots j) (update slots i slot j) := by
  by_cases here : j = i
  · subst here
    rw [update_self]
    exact same
  · rw [update_of_ne here]
    exact ⟨rfl, rfl, rfl, rfl, rfl⟩

section
variable (workers : Workers slots threads nextThread)
include workers

lemma Workers.distinct (inside : i < maxProcs) (within : j < maxProcs)
    (mine : (slots i).workerValid = true) (other : (slots j).workerValid = true)
    (same : (slots i).worker = (slots j).worker) : i = j := by
  obtain ⟨first, found, here, -⟩ := workers.worker i inside mine
  obtain ⟨second, located, there, -⟩ := workers.worker j within other
  rw [same, located] at found
  cases found
  exact here.symm.trans there

lemma Workers.move (running : threads id = some ⟨i, before⟩) (live : before ≠ .exited)
    (kept : slot.gen = (slots i).gen ∧ slot.ctx = (slots i).ctx ∧ slot.worker = (slots i).worker ∧
      slot.workerValid = (slots i).workerValid)
    (agrees : after = .exited ∨ (slot.state.userState = some after.userState ∧ ∀ c, after.ctx = some c →
      slot.ctx = some c))
    (still : slot.state = .active → after ≠ .exited) (inUse : (slots i).state ≠ .free) :
    Workers (update slots i slot) (update threads id (some ⟨i, after⟩)) nextThread := by
  have run := workers.thread id ⟨i, before⟩ running live
  have inside : i < maxProcs := run.inside
  have mine : (slots i).worker = id := run.worker
  have busy : (slots i).workerValid = true := run.valid
  obtain ⟨gen, ctx, worker, sameValid⟩ := kept
  refine workers.set (fun thread same moving => ?_) (fun other thread differ found moving here => ?_)
    (fun _ => ⟨fun _ => ?_, fun _ idle => ?_, fun _ => ?_, ?_, fun _ => ?_⟩) (fun j within other busy' => ?_) le_rfl
    (fun other beyond => ?_) workers.bound
  · cases same
    obtain ⟨follows, holds⟩ := agrees.resolve_left moving
    refine ⟨inside, ?_, ?_, ?_, ?_⟩ <;> rw [update_self]
    · exact worker.trans mine
    · exact sameValid.trans busy
    · exact follows
    · exact holds
  · have theirs := (workers.thread other thread found moving).worker
    rw [here, mine] at theirs
    exact differ theirs.symm
  · rw [worker, mine, update_self]
    exact ⟨_, rfl, rfl, still⟩
  · rw [sameValid, busy] at idle
    cases idle
  · rw [worker]
    exact workers.issued i inside inUse
  · rw [gen]
    exact workers.gen i inside
  · rw [gen]
    exact workers.genHeld i inside inUse
  · refine update_of_ne (fun same => ?_) _ _
    cases valid : (slots j).workerValid with
    | true => exact other (workers.distinct within inside valid busy (same.trans mine.symm))
    | false =>
      have gone := workers.joined j within (busy'.resolve_left (by rw [valid]; nofun)) valid
      rw [same, running] at gone
      cases gone
  · refine (update_of_ne (fun same => ?_) _ _).trans (workers.unissued other beyond)
    rw [← same, workers.unissued other beyond] at running
    cases running

lemma Workers.admission (inside : i < maxProcs) (idle : (slots i).workerValid = false) (room : nextThread < 2 ^ 63)
    (admitted : Admitted (slots i) slot c nextThread) :
    Workers (update slots i slot) (update threads nextThread (some ⟨i, .fresh⟩)) (nextThread + 1) := by
  have bound := workers.gen i inside
  refine workers.set (fun thread same _ => ?_) (fun other thread _ found live here => ?_)
    (fun _ => ⟨fun _ => ?_, fun _ unset => ?_, fun _ => ?_, ?_, fun _ => ?_⟩) (fun j within other busy => ?_)
      (Nat.le_succ _)
    (fun other beyond => ?_) room
  · cases same
    refine ⟨inside, ?_, ?_, ?_, nofun⟩ <;> rw [update_self]
    · exact admitted.worker
    · exact admitted.valid
    · rw [admitted.active]
      rfl
  · have busy := (workers.thread other thread found live).valid
    rw [here, idle] at busy
    cases busy
  · rw [admitted.worker, update_self]
    exact ⟨_, rfl, rfl, fun _ => nofun⟩
  · rw [admitted.valid] at unset
    cases unset
  · rw [admitted.worker]
    exact Nat.lt_succ_self _
  · rw [admitted.gen]
    exact Nat.le_succ_of_le bound
  · rw [admitted.gen]
    exact Nat.lt_succ_of_le bound
  · exact update_of_ne (ne_of_lt (workers.worker_lt within busy)) _ _
  · rw [update_of_ne (by omega)]
    exact workers.unissued other (by omega)

/-- A slot gives up its worker, which has no live thread any more. -/
lemma Workers.release (others : ∀ j, j < maxProcs → j ≠ i → (slots j).workerValid = true → (slots j).worker ≠ id)
    (dead : ∀ other thread, other ≠ id → threads other = some thread → thread.phase ≠ .exited → thread.slot ≠ i)
    (idle : slot.workerValid = false) (gone : slot.state ≠ .free → slot.worker = id ∧ slot.worker < nextThread ∧
      slot.gen < nextThread)
    (small : slot.gen ≤ nextThread) : Workers (update slots i slot) (update threads id none) nextThread := by
  refine workers.set nofun dead (fun _ => ⟨fun valid => ?_, fun held _ => ?_, fun held => (gone held).2.1, small,
    fun held => (gone held).2.2⟩)
    (fun j within other busy => ?_) le_rfl (fun other beyond => ?_) workers.bound
  · rw [idle] at valid
    cases valid
  · rw [(gone held).1, update_self]
  · by_cases same : (slots j).worker = id
    · have unset : (slots j).workerValid = false := by
        rw [← Bool.not_eq_true]
        exact fun valid => others j within other valid same
      rw [workers.joined j within (busy.resolve_left (by rw [unset]; nofun)) unset, same, update_self]
    · exact update_of_ne same _ _
  · rw [update_apply]
    split
    · rfl
    · exact workers.unissued other beyond

lemma Workers.join (inside : i < maxProcs) (inUse : (slots i).state ≠ .free) (valid : (slots i).workerValid = true) :
    Workers (update slots i { slots i with workerValid := false }) (update threads (slots i).worker none)
      nextThread := by
  refine workers.release (fun j within other busy same => other (workers.distinct within inside busy valid same))
    (fun other thread differ found live here => ?_) rfl (fun _ => ⟨rfl, workers.issued i inside inUse,
      workers.genHeld i inside inUse⟩)
    (workers.gen i inside)
  have theirs := (workers.thread other thread found live).worker
  rw [here] at theirs
  exact differ theirs.symm

end

lemma bump_le (below : gen < limit) (bound : limit ≤ 2 ^ 63) : bump gen = gen + 1 := by
  have small : gen + 1 < u64 := by
    simp only [u64]
    omega
  simp only [bump, Nat.mod_eq_of_lt small]
  exact if_neg (Nat.succ_ne_zero gen)

lemma Workers.recycle (workers : Workers slots threads nextThread) (inside : i < maxProcs)
    (inUse : (slots i).state ≠ .free)
    (idle : (slots i).workerValid = false) : Workers (update slots i (slots i).recycled) threads nextThread := by
  have absent := workers.joined i inside inUse idle
  have unchanged : update threads (slots i).worker none = threads := by
    rw [← absent]
    exact update_eq_self _ threads
  have below := workers.genHeld i inside inUse
  rw [← unchanged]
  refine workers.release (fun j within _ busy same => ?_) (fun other thread _ found live here => ?_) rfl (fun held =>
    absurd rfl held) ?_
  · obtain ⟨thread, found, -, -⟩ := workers.worker j within busy
    rw [same, absent] at found
    cases found
  · have busy := (workers.thread other thread found live).valid
    rw [here, idle] at busy
    cases busy
  · simp only [Slot.recycled, bump_le below workers.bound]
    exact below

end

/-! Open endpoints stay on live processes. -/

section
variable {slots next : Nat → Slot} {pipe after : Pipe} {i : Nat}

/-- The fields of a live slot that an endpoint depends on. -/
structure SameRole (before after : Slot) : Prop where
  active : after.state = .active
  gen : after.gen = before.gen
  stdin : after.stdinSel = before.stdinSel
  stdout : after.stdoutSel = before.stdoutSel

lemma Piped.same_slots (piped : Piped slots pipe)
    (same : ∀ j, (slots j).state = .active → SameRole (slots j) (next j)) : Piped next pipe := by
  refine ⟨piped.phase, fun opened => ?_, fun opened => ?_⟩
  · obtain ⟨active, gen, role⟩ := piped.reader opened
    have kept := same pipe.rslot active
    exact ⟨kept.active, kept.gen.trans gen, kept.stdin.trans role⟩
  · obtain ⟨active, gen, role⟩ := piped.writer opened
    have kept := same pipe.wslot active
    exact ⟨kept.active, kept.gen.trans gen, kept.stdout.trans role⟩

lemma Piped.set (piped : Piped slots pipe) (same : (slots i).state = .active → SameRole (slots i) slot) :
    Piped (update slots i slot) pipe := by
  refine piped.same_slots fun j active => ?_
  by_cases here : j = i
  · subst here
    rw [update_self]
    exact same active
  · rw [update_of_ne here]
    exact ⟨active, rfl, rfl, rfl⟩

lemma Endpoint.set {gen j} {role : Slot → Prop} (held : Endpoint slots j gen role) (other : j ≠ i) :
    Endpoint (update slots i slot) j gen role := by
  obtain ⟨active, same, fits⟩ := held
  exact ⟨by rw [update_of_ne other]; exact active, by rw [update_of_ne other]; exact same,
    by rw [update_of_ne other]; exact fits⟩

/-- The endpoint of a process that ends is closed by the note. -/
lemma Piped.terminal {env} (piped : Piped slots pipe)
    (noted : pipe.pipeNoteTerminal env i (slots i).gen = .ok (true, after)) : Piped (update slots i slot) after := by
  rcases Pipe.pipeNoteTerminal_notes pipe env i (slots i).gen with ⟨_, unrelated, same⟩ | ⟨reader, writer, inside,
    live, fewer, same⟩
  · rw [noted] at same
    cases same
    refine ⟨piped.phase, fun opened => (piped.reader opened).set ?_, fun opened => (piped.writer opened).set ?_⟩
    · intro here
      have attached := Pipe.attached_of_open piped.phase (.inl opened)
      have apart := (unrelated rfl).resolve_left (by rw [attached.live]; nofun)
      have gen := (piped.reader opened).gen
      rw [here] at gen
      exact apart.2 (by rw [← here]; exact attached.distinct) here.symm gen
    · intro here
      have attached := Pipe.attached_of_open piped.phase (.inr opened)
      have apart := (unrelated rfl).resolve_left (by rw [attached.live]; nofun)
      have gen := (piped.writer opened).gen
      rw [here] at gen
      exact apart.1 here.symm gen
  have attached := Pipe.attached_of_live piped.phase live
  obtain ⟨ring, held⟩ := Option.isSome_iff_exists.mp attached.ring
  rcases Pipe.closeOut_cases inside held (same.symm.trans noted) with ⟨someone, rfl⟩ | rfl
  · refine ⟨.inl (attached.reopened someone pipe.fullStalls pipe.emptyStalls), fun opened => ?_, fun opened => ?_⟩
    · obtain ⟨before, here⟩ := fewer.1 opened
      exact (piped.reader before).set (by rw [here]; exact attached.distinct)
    · obtain ⟨before, here⟩ := fewer.2 opened
      exact (piped.writer before).set (by rw [here]; exact attached.distinct.symm)
  · exact ⟨.inr (Pipe.cleared_detached pipe ring), nofun, nofun⟩

end

lemma Edit.sound (edit : Edit state next) (sound : Sound state) : Sound next := by
  obtain ⟨ready, tables, workers, piped⟩ := sound
  cases edit with
  | contexts others same pages =>
    refine ⟨ready, ⟨fun i inside => (tables.slot i inside).contexts fun c ctx => ?_,
      tables.owner, tables.apart⟩, workers, piped⟩
    rcases pages c with isFree | pages
    · exact absurd ctx (tables.unused isFree inside)
    · exact ⟨same c, pages.clear⟩
  | kill i inside active =>
    have valid := (tables.slot i inside).active active
    refine ⟨ready, tables.adjust inside (by rw [active]; decide) ⟨rfl, rfl, rfl, rfl, rfl⟩ (fun _ => valid)
      (tables.owner i inside),
      workers.same_slots (sameWorker_update ⟨rfl, rfl, rfl, rfl, rfl⟩), piped.set fun _ => ⟨active, rfl, rfl, rfl⟩⟩
  | reparent i inside active =>
    have valid := (tables.slot i inside).active active
    refine ⟨ready, tables.adjust inside (by rw [active]; decide) ⟨rfl, rfl, rfl, rfl, rfl⟩ (fun _ => valid) (.inl rfl),
      workers.same_slots (sameWorker_update ⟨rfl, rfl, rfl, rfl, rfl⟩), piped.set fun _ => ⟨active, rfl, rfl, rfl⟩⟩
  | admission i c slot context inside isFree unused room admitted owned running clear =>
    have idle := ((tables.slot i inside).free isFree).2.1
    refine ⟨ready, tables.admission inside unused admitted owned running clear,
      workers.admission inside idle room admitted,
      piped.set fun active => ?_⟩
    rw [isFree] at active
    cases active
  | attach pipe detached attached reader writer => exact ⟨ready, tables, workers, .inl attached, fun _ => reader,
    fun _ => writer⟩
  | reselect i stdin stdout inside isFree small tiny =>
    refine ⟨ready, tables.reselect inside isFree small tiny,
      workers.same_slots (sameWorker_update ⟨rfl, rfl, rfl, rfl, rfl⟩),
      piped.set fun active => ?_⟩
    rw [isFree] at active
    cases active
  | ring bytes freed detached =>
    exact ⟨ready, tables, workers, .inr ⟨detached.live, detached.ring, detached.rpos, detached.wpos, detached.count,
      detached.rgen, detached.wgen, detached.reader, detached.writer⟩, piped.reader, piped.writer⟩
  | join i inside ended valid exited =>
    refine ⟨ready, tables.adjust inside ended.ne_free ⟨rfl, rfl, rfl, rfl, rfl⟩
      (fun active => absurd active ended.ne_active)
      (tables.owner i inside), workers.join inside ended.ne_free valid, piped.set fun active =>
        absurd active ended.ne_active⟩
  | recycle i c _ joined ctx childless | deliver i _ _ _ _ _ joined ctx childless _ _ =>
    obtain ⟨inside, inUse, idle⟩ := joined
    refine ⟨ready, tables.recycle inside ctx childless, workers.recycle inside inUse idle, piped.set fun active => ?_⟩
    rw [(tables.slot i inside).active active] at idle
    cases idle

/-- Every primitive change keeps the tables, the workers and the pipe sound. -/
lemma Change.sound (change : Change state next) (sound : Sound state) : Sound next := by
  cases change with
  | edit edit => exact edit.sound sound
  | phase id slot before after running live same done known =>
    obtain ⟨ready, tables, workers, piped⟩ := sound
    refine ⟨ready, tables, ?_, piped⟩
    have run := workers.thread id ⟨slot, before⟩ running live
    have inUse : (state.slots slot).state ≠ .free := by
      intro isFree
      have agrees := run.agrees
      rw [show (state.slots (Thread.mk slot before).slot).state = .free from isFree] at agrees
      cases agrees
    have agrees : (state.slots slot).state.userState = some before.userState := run.agrees
    rw [← update_eq_self slot state.slots]
    refine workers.move running live ⟨rfl, rfl, rfl, rfl⟩ ?_ ?_ inUse
    · rcases same with same | exited
      · exact .inr ⟨by rw [same]; exact agrees, known⟩
      · exact .inl exited
    · intro active exited
      rw [active] at agrees
      exact done exited (Option.some.inj agrees).symm
  | terminal i c id before after slot context env pipe inside active ctx running live recorded agrees pages moved
    noted =>
    obtain ⟨ready, tables, workers, piped⟩ := sound
    refine ⟨ready, tables.terminal inside active ctx recorded agrees pages, ?_, piped.terminal noted⟩
    have mine : slot.ctx = some c := by rw [recorded.same]; exact ctx
    refine workers.move running live ?_ ?_ (fun still => absurd still recorded.ended.ne_active) (by rw [active]; decide)
    · rw [recorded.same]
      exact ⟨rfl, rfl, rfl, rfl⟩
    · rcases moved with exited | ⟨follows, holds⟩
      · exact .inl exited
      refine .inr ⟨by rw [follows]; exact agrees, fun d same => ?_⟩
      rw [holds] at same
      cases same
      exact mine

lemma Changes.sound (changes : Changes state next) (sound : Sound state) : Sound next := by
  induction changes with
  | refl => exact sound
  | tail _ change ih => exact change.sound ih

lemma Edits.sound (edits : Edits state next) (sound : Sound state) : Sound next := edits.changes.sound sound

/-- Live threads stay where they are, with the context of their slot. -/
def Quiet (state next : State) : Prop :=
  ∀ id slot phase, state.threads id = some ⟨slot, phase⟩ → phase ≠ .exited →
    next.threads id = some ⟨slot, phase⟩ ∧ (next.slots slot).ctx = (state.slots slot).ctx

lemma Running.held {id thread} (running : Running slots id thread) : (slots thread.slot).state ≠ .free := by
  intro isFree
  have agrees := running.agrees
  rw [isFree] at agrees
  cases agrees

lemma Edit.quiet (edit : Edit state next) (sound : Sound state) : Quiet state next := by
  intro id slot phase here live
  have running := sound.workers.thread id ⟨slot, phase⟩ here live
  have replaced : ∀ (i : Nat) (new : Slot), new.ctx = (state.slots i).ctx ∨ slot ≠ i →
      (update state.slots i new slot).ctx = (state.slots slot).ctx := by
    intro i new same
    by_cases mine : slot = i
    · subst mine
      rw [update_self]
      exact same.resolve_right (not_not.mpr rfl)
    · rw [update_of_ne mine]
  have vacated : ∀ i, Joined state i → slot ≠ i := by
    rintro i ⟨-, -, idle⟩ rfl
    have valid : (state.slots slot).workerValid = true := running.valid
    rw [idle] at valid
    cases valid
  cases edit with
  | contexts | attach | ring => exact ⟨here, rfl⟩
  | kill i | reparent i | reselect i => exact ⟨here, replaced i _ (.inl rfl)⟩
  | admission i c new context inside isFree =>
    have issued : id ≠ state.nextThread := by
      rintro rfl
      rw [sound.workers.unissued _ le_rfl] at here
      cases here
    refine ⟨(update_of_ne issued _ _).trans here, replaced i _ (.inr ?_)⟩
    rintro rfl
    exact running.held isFree
  | join i inside ended valid exited =>
    have differ : id ≠ (state.slots i).worker := by
      rintro rfl
      rw [here] at exited
      cases exited
      exact live rfl
    exact ⟨(update_of_ne differ _ _).trans here, replaced i _ (.inl rfl)⟩
  | recycle i c _ joined | deliver i _ _ _ _ _ joined => exact ⟨here, replaced i _ (.inr (vacated i joined))⟩

lemma Edits.quiet (edits : Edits state next) (sound : Sound state) : Quiet state next := by
  induction edits with
  | refl => exact fun id slot phase here _ => ⟨here, rfl⟩
  | tail before edit ih =>
    intro id slot phase here live
    obtain ⟨kept, ctx⟩ := ih id slot phase here live
    obtain ⟨later, same⟩ := edit.quiet (Edits.sound before sound) id slot phase kept live
    exact ⟨later, same.trans ctx⟩

end Rynor.Proc
