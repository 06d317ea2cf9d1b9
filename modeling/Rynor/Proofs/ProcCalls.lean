import Rynor.Lib.Outcome
import Rynor.Proofs.ProcChange

/-! Gate events, worker turns and termination requests as sequences of primitive changes;
none of them stops the machine on a structural check. -/

namespace Rynor.Proc
open Outcome List
open Function (update update_self update_of_ne update_idem)
open Pipe (Attached Detached)
variable {state next : State} {why : String} {post : PUnit → State → Prop} {cpu : Cpu} {allowed : Halt → Prop}
  {i c id handle : Nat} {slot : Slot}
  {heapFree : Bool} {slots : Nat → Slot} {terminal : Terminal}

/-- A stop that no structural check asked for and that is not an exhausted stack. -/
def Allowed (halt : Halt) : Prop := ∃ why, halt = .other why ∧ why ≠ "recursion"

/-- Live processes may end; nobody else is touched and nobody is freed. -/
structure Calm (state next : State) : Prop where
  settled : ∀ j, (state.slots j).state ≠ .active → next.slots j = state.slots j
  live : ∀ j, (state.slots j).state = .active → (next.slots j).state ≠ .free ∧
    (next.slots j).owner = (state.slots j).owner ∧ (next.slots j).workerValid = (state.slots j).workerValid

lemma Calm.of_slots (same : next.slots = state.slots) : Calm state next :=
  ⟨fun j _ => by rw [same], fun j active => by rw [same, active]; exact ⟨by decide, rfl, rfl⟩⟩

lemma allowed_other (named : why ≠ "recursion") : Allowed (.other why) := ⟨why, rfl, named⟩

lemma ends_require (named : why ≠ "recursion") (holds : ok = true → post ⟨⟩ state) :
    Ends Allowed (require ok why) state post := by
  unfold require
  split
  next passed => exact holds passed
  next => exact allowed_other named

lemma ends_requireProcCheck (passes : procCheck state cpu = true) (holds : post ⟨⟩ state) :
    Ends Allowed (requireProcCheck cpu why) state post := by
  simp only [requireProcCheck, ends_bind, ends_get, passes, if_true]
  exact holds

lemma ends_requirePipeCheck (passes : state.pipe.pipeCheck (pipeEnv state cpu true) = true) (holds : post ⟨⟩ state) :
    Ends Allowed (requirePipeCheck cpu why) state post := by
  simp only [requirePipeCheck, ends_bind, ends_get, passes, if_true]
  exact holds

lemma ends_setSlot :
    Ends allowed (setSlot i slot) state post ↔ post ⟨⟩ { state with slots := update state.slots i slot } := Iff.rfl

lemma ends_setContext :
    Ends allowed (setContext c context) state post ↔ post ⟨⟩
      { state with contexts := update state.contexts c context } := Iff.rfl

lemma ends_setThread : Ends allowed (setThread id thread) state post ↔ post ⟨⟩
    { state with threads := update state.threads id thread } := Iff.rfl

lemma ends_onPipe_ok {ρ : Type} {reply} {call : Pipe → Except Halt (ρ × Pipe)} {post : ρ → State → Prop} {pipe}
    (called : call state.pipe = .ok (reply, pipe)) (holds : post reply { state with pipe }) :
      Ends Allowed (onPipe call) state post := by
  simp only [Ends, onPipe, called]
  exact holds

lemma ends_onPipe {ρ : Type} {call : Pipe → Except Halt (ρ × Pipe)} {post : ρ → State → Prop}
    (returns : ∀ reply pipe, call state.pipe = .ok (reply, pipe) → post reply { state with pipe })
    (stops : ∀ halt, call state.pipe = .error halt → Allowed halt) : Ends Allowed (onPipe call) state post := by
  cases called : call state.pipe with
  | error halt =>
    simp only [Ends, onPipe, called]
    exact stops halt called
  | ok result => exact ends_onPipe_ok called (returns result.1 result.2 called)

lemma ends_note {post : Bool → State → Prop} (ready : state.ready = true)
    (phase : Attached state.pipe ∨ Detached state.pipe)
    (reader : state.pipe.readerOpen = true → (state.slots state.pipe.rslot).state ≠ .free ∧
      (state.slots state.pipe.rslot).gen = state.pipe.rgen ∧ (state.slots state.pipe.rslot).stdinSel = stdinPipe)
    (writer : state.pipe.writerOpen = true → (state.slots state.pipe.wslot).state ≠ .free ∧
      (state.slots state.pipe.wslot).gen = state.pipe.wgen ∧ (state.slots state.pipe.wslot).stdoutSel = stdoutPipe)
    (holds : ∀ reply pipe, state.pipe.pipeNoteTerminal (pipeEnv state cpu heapFree) i gen = .ok (reply, pipe) →
      post reply { state with pipe }) : Ends Allowed (pipeNoteTerminal cpu heapFree i gen) state post := by
  simp only [pipeNoteTerminal, ends_bind, ends_get]
  refine ends_onPipe holds fun halt called => ?_
  rw [Pipe.pipeNoteTerminal_error (fun attached => honoured_of attached ready reader writer cpu) phase called]
  exact allowed_other (by decide)

/-- Recording a terminal state leaves the endpoints answered for. -/
lemma Piped.recorded (piped : Piped slots pipe) (recorded : Recorded (slots i) slot) :
    (pipe.readerOpen = true → (update slots i slot pipe.rslot).state ≠ .free ∧
      (update slots i slot pipe.rslot).gen = pipe.rgen ∧ (update slots i slot pipe.rslot).stdinSel = stdinPipe) ∧
    (pipe.writerOpen = true → (update slots i slot pipe.wslot).state ≠ .free ∧
      (update slots i slot pipe.wslot).gen = pipe.wgen ∧ (update slots i slot pipe.wslot).stdoutSel = stdoutPipe) := by
  have answers : ∀ j, (slots j).state = .active → (update slots i slot j).state ≠ .free ∧
      (update slots i slot j).gen = (slots j).gen ∧ (update slots i slot j).stdinSel = (slots j).stdinSel ∧
      (update slots i slot j).stdoutSel = (slots j).stdoutSel := by
    intro j active
    by_cases here : j = i
    · subst here
      rw [update_self]
      exact ⟨recorded.ended.ne_free, by rw [recorded.same], by rw [recorded.same], by rw [recorded.same]⟩
    · rw [update_of_ne here]
      exact ⟨by rw [active]; decide, rfl, rfl, rfl⟩
  refine ⟨fun opened => ?_, fun opened => ?_⟩
  · obtain ⟨active, gen, role⟩ := piped.reader opened
    obtain ⟨held, sameGen, stdin, -⟩ := answers _ active
    exact ⟨held, sameGen.trans gen, stdin.trans role⟩
  · obtain ⟨active, gen, role⟩ := piped.writer opened
    obtain ⟨held, sameGen, -, stdout⟩ := answers _ active
    exact ⟨held, sameGen.trans gen, stdout.trans role⟩

lemma procOwnerOf_eq (ready : state.ready = true) (apart : ∀ j, j < maxProcs → (state.slots j).ctx = some c → j = i)
    (inside : i < maxProcs) (held : (state.slots i).state ≠ .free) (ctx : (state.slots i).ctx = some c) :
    procOwnerOf state c = i := by
  simp only [procOwnerOf, ready, Bool.not_true, Bool.false_eq_true, if_false]
  cases found : (List.range maxProcs).find? fun j => (state.slots j).state ≠ .free && (state.slots j).ctx = some c with
  | none =>
    have missing := find?_eq_none.mp found i (mem_range.mpr inside)
    simp [held, ctx] at missing
  | some j =>
    have fits := find?_some found
    simp only [Bool.and_eq_true, decide_eq_true_eq] at fits
    have within := mem_range.mp (mem_of_find?_eq_some found)
    rw [apart j within fits.2]

lemma slot_recorded (slot : Slot) (terminal : Terminal) (context : Context) :
    Recorded slot (slot.record terminal context) := by
  cases terminal with
  | exited => exact ⟨.inl rfl, rfl⟩
  | faulted => exact ⟨.inr (.inl rfl), rfl⟩

lemma Calm.set (active : (state.slots i).state = .active)
    (recorded : Recorded (state.slots i) slot) (changed : next.slots = update state.slots i slot) :
    Calm state next := by
  refine ⟨fun j inactive => ?_, fun j live => ?_⟩
  · have other : j ≠ i := by
      rintro rfl
      exact inactive active
    rw [changed, update_of_ne other]
  rw [changed]
  by_cases here : j = i
  · subst here
    rw [update_self]
    exact ⟨recorded.ended.ne_free, by rw [recorded.same], by rw [recorded.same]⟩
  · rw [update_of_ne here, live]
    exact ⟨by decide, rfl, rfl⟩

/-! Gate events and worker turns. -/

lemma Edits.one (edit : Edit state next) : Edits state next := Relation.ReflTransGen.single edit

lemma Changes.one (change : Change state next) : Changes state next := Relation.ReflTransGen.single change

lemma Changes.move {slot new before after} (same : new.state = (state.contexts c).state)
    (pages : SamePages (state.contexts c) new)
    (running : state.threads id = some ⟨slot, before⟩) (live : before ≠ .exited)
    (follows : after.userState = before.userState ∨ after = .exited)
    (done : after = .exited → before.userState ≠ .active)
    (known : ∀ d, after.ctx = some d → (state.slots slot).ctx = some d) : Changes state { state with
      contexts := update state.contexts c new, threads := update state.threads id (some ⟨slot, after⟩) } := by
  have marked : Edit state { state with contexts := update state.contexts c new } := .context c new same (.inr pages)
  exact .tail (.single (.edit marked)) (.phase id slot before after running live follows done known)

lemma Terminal.agrees (terminal : Terminal) (slot : Slot) (context : Context) (code detail : Nat) :
    (slot.record terminal (context.ended terminal code detail)).state.userState =
    some (context.ended terminal code detail).state := by
  cases terminal <;> rfl

/-- The process record of the gate, in a state whose tables still name the slot. -/
lemma ends_noteGateTerminal (ready : state.ready = true) (owner : procOwnerOf state c = i)
    (piped : Piped state.slots state.pipe)
    (holds : ∀ env pipe, state.pipe.pipeNoteTerminal env i (state.slots i).gen = .ok (true, pipe) →
      post ⟨⟩ { state with slots := update state.slots i ((state.slots i).record terminal (state.contexts c)), pipe }) :
    Ends Allowed (noteGateTerminal cpu heapFree c terminal) state post := by
  have named : ¬(i : Int) = ownerKernel := by simp only [ownerKernel]; omega
  have answered := piped.recorded (slot_recorded (state.slots i) terminal (state.contexts c))
  simp only [noteGateTerminal, ensureInit, ends_bind, ends_get, ready, if_true, ends_pure]
  refine ends_require (by decide) fun _ => ?_
  simp only [owner, named, if_false, Int.toNat_natCast, ends_bind, ends_setSlot]
  refine ends_require (by decide) fun _ => ends_require (by decide) fun _ => ?_
  refine ends_note ready piped.phase answered.1 answered.2 fun reply pipe noted =>
    ends_require (by decide) fun accepted => ?_
  subst accepted
  exact holds _ pipe noted

lemma Running.active (run : Running slots id ⟨i, phase⟩) (user : phase.userState = .active) :
    (slots i).state = .active := by
  have agrees : (slots i).state.userState = some phase.userState := run.agrees
  rw [user] at agrees
  cases life : (slots i).state <;> rw [life] at agrees <;> first | rfl | cases agrees

lemma gateTerminal_moves (sound : Sound state) (cpu : Cpu) (heapFree : Bool) (id : Nat) (terminal : Terminal)
    (code detail : Nat) :
    Ends Allowed (gateTerminal cpu heapFree id terminal code detail) state fun _ next => Changes state next ∧
    Calm state next := by
  simp only [gateTerminal, ends_bind, ends_get]
  split
  next i c running =>
    simp only [ends_bind, ends_setContext, ends_setThread]
    refine ends_require (by decide) fun _ => ends_require (by decide) fun _ => ?_
    have run := sound.workers.thread id ⟨i, .inUser c⟩ running (by simp)
    have inside : i < maxProcs := run.inside
    have ctx : (state.slots i).ctx = some c := run.ctx c rfl
    have active := run.active rfl
    have owner : procOwnerOf { state with contexts := update state.contexts c ((state.contexts c).ended terminal code detail) }
        c = i := procOwnerOf_eq sound.ready (fun j within other => sound.tables.apart j i c within inside other ctx)
          inside (by rw [active]; decide) ctx
    refine ends_noteGateTerminal sound.ready owner sound.piped fun env pipe noted => ?_
    simp only [update_self]
    have recorded := slot_recorded (state.slots i) terminal ((state.contexts c).ended terminal code detail)
    refine ⟨.one (.terminal i c id (.inUser c) _ _ _ _ pipe inside active ctx running (by simp) recorded
      (terminal.agrees _ _ _ _) ?_ (.inr ?_) noted), .set active recorded rfl⟩
    · cases terminal <;> exact ⟨rfl, rfl⟩
    · cases terminal <;> exact ⟨rfl, rfl⟩
  · exact ⟨Relation.ReflTransGen.refl, Calm.of_slots rfl⟩

lemma workerEnter_moves (cpu : Cpu) (id : Nat) (entered : Bool) :
    Ends Allowed (workerEnter cpu id entered) state fun _ next => Changes state next ∧ Calm state next := by
  simp only [workerEnter, ends_bind, ends_get]
  split
  next i running =>
    simp only [ends_bind]
    refine ends_require (by decide) fun _ => ends_require (by decide) fun _ => ends_require (by decide) fun _ => ?_
    split
    · exact allowed_other (by decide)
    next c ctx =>
    simp only [ends_bind, ends_ite, ends_setContext, ends_setThread]
    refine ends_require (by decide) fun _ => ⟨fun _ => ⟨?_, .of_slots rfl⟩, fun _ => ⟨.one ?_, .of_slots rfl⟩⟩
    · refine .move rfl ⟨rfl, rfl⟩ running (by simp) (.inl rfl) (by simp) ?_
      intro d same
      cases same
      exact ctx
    · refine .phase id i .fresh _ running (by simp) (.inl rfl) (by simp) ?_
      intro d same
      cases same
      exact ctx
  · exact ⟨.refl, .of_slots rfl⟩

/-- The backstop of the worker finds the gate's record already there. -/
lemma ends_workerRecord (ended : (state.slots i).state ≠ .active) (holds : post ⟨⟩ state) :
    Ends Allowed (workerRecord cpu heapFree i c terminal) state post := by
  simp only [workerRecord, ends_bind, ends_get, ended, if_false, ends_pure]
  exact holds

lemma workerTurn_moves (sound : Sound state) (cpu : Cpu) (heapFree : Bool) (id : Nat) (marked resumed : Bool) :
    Ends Allowed (workerTurn cpu heapFree id marked resumed) state fun _ next => Changes state next ∧
    Calm state next := by
  simp only [workerTurn, ends_bind, ends_get]
  split
  next i c rc running =>
    have run := sound.workers.thread id ⟨i, .returned c rc⟩ running (by simp)
    have inside : i < maxProcs := run.inside
    have ctx : (state.slots i).ctx = some c := run.ctx c rfl
    have finished : rc = .exited ∨ rc = .faulted → (state.slots i).state ≠ .active ∧
        Ends Allowed (workerFinish cpu id i c) state fun _ next => Changes state next ∧ Calm state next := by
      intro terminal
      have settled : (Phase.returned c rc).userState ≠ .active := by
        rcases terminal with rfl | rfl <;> simp [Phase.userState]
      refine ⟨fun active => ?_, ?_⟩
      · have agrees : (state.slots i).state.userState = some (Phase.returned c rc).userState := run.agrees
        rw [active] at agrees
        exact settled (Option.some.inj agrees).symm
      · simp only [workerFinish, ends_bind, ends_get, ends_setContext, ends_setThread]
        refine ends_require (by decide) fun _ => ⟨?_, .of_slots rfl⟩
        exact .move rfl ⟨rfl, rfl⟩ running (by simp) (.inr rfl) (fun _ => settled) (by simp [Phase.ctx])
    split
    · simp only [ends_bind]
      obtain ⟨ended, finish⟩ := finished (.inl rfl)
      exact ends_workerRecord ended finish
    · simp only [ends_bind]
      obtain ⟨ended, finish⟩ := finished (.inr rfl)
      exact ends_workerRecord ended finish
    next notExited notFaulted =>
    have user : (Phase.returned c rc).userState = .active := by
      cases rc with
      | exited => exact absurd rfl notExited
      | faulted => exact absurd rfl notFaulted
      | resumable => rfl
      | invalid => rfl
    have active := run.active user
    simp only [ends_ite, ends_bind, ends_throw, ends_setContext, ends_setThread]
    refine ⟨fun _ => ?_, fun _ => ⟨fun _ => allowed_other (by decide), fun _ => ⟨fun _ => ⟨?_, .of_slots rfl⟩, fun _ =>
      ⟨.one ?_, .of_slots rfl⟩⟩⟩⟩
    · simp only [userMarkAborted, ends_bind, ends_get, ends_ite, ends_pure]
      refine ⟨fun _ => ends_require (by decide) (by simp),
        fun _ => ⟨fun _ => ends_require (by decide) (by simp), fun _ => ?_⟩⟩
      simp only [ends_setContext, ends_setSlot]
      refine ends_require (by decide) fun _ => ?_
      have recorded : Recorded (state.slots i) { state.slots i with state := .aborted } := ⟨.inr (.inr rfl), rfl⟩
      have answered := sound.piped.recorded recorded
      refine ends_note sound.ready sound.piped.phase answered.1 answered.2 fun reply pipe noted =>
        ends_require (by decide) fun accepted => ?_
      subst accepted
      simp only [workerFinish, ends_bind, ends_get, ends_setContext, ends_setThread]
      refine ends_require (by decide) fun _ => ⟨.one ?_, .set active recorded rfl⟩
      simp only [update_self, update_idem]
      exact .terminal i c id (.returned c rc) .exited _ _ _ pipe inside active ctx running (by simp) recorded rfl
        ⟨rfl, rfl⟩
        (.inl rfl) noted
    · refine .move rfl ⟨rfl, rfl⟩ running (by simp) (.inl user.symm) (by simp) ?_
      intro d same
      cases same
      exact ctx
    · refine .phase id i (.returned c rc) (.returned c .invalid) running (by simp) (.inl user.symm) (by simp) ?_
      intro d same
      cases same
      exact ctx
  · exact ⟨.refl, .of_slots rfl⟩

/-! Termination requests. -/

lemma decode_some (decoded : decode state handle = some i) :
    i < maxProcs ∧ (state.slots i).state ≠ .free ∧ i = handle % 2 ^ 32 ∧ (state.slots i).gen = handle / 2 ^ 32 := by
  simp only [decode] at decoded
  split at decoded
  · cases decoded
  split at decoded
  · cases decoded
  next range =>
  split at decoded
  · cases decoded
  next held =>
  split at decoded
  · cases decoded
  next same =>
  cases decoded
  simp only [Bool.or_eq_true, decide_eq_true_eq, not_or, not_le] at range
  exact ⟨range.1, held, rfl, not_not.mp same⟩

lemma decode_of (ready : state.ready = true) (inside : handle % 2 ^ 32 < maxProcs)
    (held : (state.slots (handle % 2 ^ 32)).state ≠ .free) (gen : (state.slots (handle % 2 ^ 32)).gen = handle / 2 ^ 32)
    (positive : 0 < handle / 2 ^ 32) : decode state handle = some (handle % 2 ^ 32) := by
  have range : ((handle % 2 ^ 32 ≥ maxProcs) || (handle / 2 ^ 32 = 0)) = false := by
    simp only [Bool.or_eq_false_iff, decide_eq_false_iff_not]
    omega
  simp only [decode, ready, range, held, gen, ne_eq, not_true_eq_false, if_false, Bool.not_true, Bool.false_eq_true]

lemma Calm.joined (calm : Calm state next) (j : Nat) : Joined next j ↔ Joined state j := by
  by_cases active : (state.slots j).state = .active
  · obtain ⟨held, -, valid⟩ := calm.live j active
    simp only [Joined, held, valid, active, ne_eq, not_false_eq_true, true_and, reduceCtorEq]
  · simp only [Joined, calm.settled j active]

lemma Calm.steady (calm : Calm state next) (steady : Steady state) : Steady next :=
  fun j joined => steady j ((calm.joined j).mp joined)

lemma Calm.trans (first : Calm state mid) (second : Calm mid next) : Calm state next := by
  refine ⟨fun j inactive => ?_, fun j active => ?_⟩
  · have same := first.settled j inactive
    rw [second.settled j (by rw [same]; exact inactive), same]
  · obtain ⟨held, owner, valid⟩ := first.live j active
    by_cases still : (mid.slots j).state = .active
    · obtain ⟨later, owned, kept⟩ := second.live j still
      exact ⟨later, owned.trans owner, kept.trans valid⟩
    · rw [second.settled j still]
      exact ⟨held, owner, valid⟩

/-- A request reaches a live process only when no wait is under way. -/
lemma procTerminate_moves (sound : Sound state) (cpu : Cpu) (handle : Nat) (owner selfSlot : Int)
    (apart : Steady state ∨ ∀ i, i < maxProcs → (i : Int) ≠ selfSlot → (state.slots i).owner = owner →
      (state.slots i).state ≠ .active) :
    Ends Allowed (procTerminate cpu handle owner selfSlot) state fun _ next => Edits state next ∧ Calm state next := by
  have unchanged : Edits state state ∧ Calm state state := ⟨.refl, .of_slots rfl⟩
  simp only [procTerminate, ends_bind, ends_get, ends_ite, ends_pure]
  refine ⟨fun _ => unchanged, fun inside => ?_⟩
  have front : cpu.foreground = true := by
    simp only [Bool.or_eq_true, Bool.not_eq_true', not_or, Bool.not_eq_false] at inside
    exact inside.1
  split
  · exact unchanged
  next i decoded =>
  obtain ⟨within, held, -, -⟩ := decode_some decoded
  simp only [ends_bind, ends_ite, ends_pure, ends_setSlot]
  refine ⟨fun _ => unchanged, fun other => ⟨fun _ => unchanged, fun mine => ⟨fun _ => unchanged, fun live => ?_⟩⟩⟩
  have active : (state.slots i).state = .active := by
    have settled := (sound.tables.slot i within).not_loading
    simpa [settled] using live
  rcases apart with steady | inactive
  · have change : Edit state _ := .kill i within active
    have calm : Calm state { state with slots := update state.slots i { state.slots i with killRequested := true } } := by
      refine ⟨fun j inactive => ?_, fun j live => ?_⟩
      · have differ : j ≠ i := by
          rintro rfl
          exact inactive active
        exact update_of_ne differ _ _
      by_cases here : j = i
      · subst here
        simp only [update_self]
        exact ⟨held, trivial, trivial⟩
      · simp only [update_of_ne here]
        exact ⟨by rw [live]; decide, trivial, trivial⟩
    exact ends_requireProcCheck ((change.sound sound).procCheck (calm.steady steady)
      (Cpu.foreground_interrupts front)) ⟨.one change, calm⟩
  refine absurd active (inactive i within ?_ (not_not.mp mine))
  intro same
  simp [← same] at other

end Rynor.Proc
