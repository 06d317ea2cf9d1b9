import Rynor.Proofs.ProcCalls

/-! Spawns as sequences of primitive changes: a failed spawn gives everything back, and
the structural checks pass while slots are being loaded. -/

namespace Rynor.Proc
open Outcome List
open Function (update update_self update_idem update_comm update_eq_self update_of_ne)
open Pipe (Attached Detached)
variable {context : Context} {state : State} {created destroyed : Bool} {post : Option Nat → State → Prop}
  {c i a b : Nat} {slot loading : Slot}
  {owner : Int}

lemma reservedClear_of (code : context.codePages ≤ 16) (data : context.dataPages ≤ 8) :
    reservedClear context = true := by
  simp only [reservedClear, all_eq_true, mem_range, Context.maps, Bool.not_eq_true', Bool.or_eq_false_iff,
    Bool.and_eq_false_iff, decide_eq_false_iff_not]
  intro page inside
  omega

lemma ends_userCreateLoaded (refused : post none state)
    (loaded : ∀ c context, (state.contexts c).state = .free → context.state = .active → reservedClear context = true →
      post (some c) { state with contexts := update state.contexts c context }) :
    Ends Allowed (userCreateLoaded layout created) state post := by
  simp only [userCreateLoaded, ends_bind, ends_get, ends_ite, ends_pure]
  refine ⟨fun _ => refused, fun sizes => ?_⟩
  split
  · exact refused
  next c found =>
  simp only [Bool.or_eq_true, decide_eq_true_eq, not_or] at sizes
  have isFree := find?_some found
  simp only [decide_eq_true_eq] at isFree
  refine loaded c _ isFree rfl (reservedClear_of ?_ ?_)
  · simp only [pagesOf]
    omega
  · simp only [pagesOf]
    omega

lemma ends_userDestroy {post : Bool → State → Prop} (refused : post false state)
    (done : post true { state with contexts := update state.contexts c Context.empty }) :
    Ends Allowed (userDestroy c destroyed) state post := by
  simp only [userDestroy, ends_bind, ends_get, ends_ite, ends_pure]
  exact ⟨fun _ => refused, fun _ => ⟨fun _ => refused, fun _ => ⟨fun _ => refused, fun _ => done⟩⟩⟩

lemma ends_threadCreate {slot} (refused : post none state)
    (done : state.nextThread < 2 ^ 63 → post (some state.nextThread) { state with
      threads := update state.threads state.nextThread (some ⟨slot, .fresh⟩), nextThread := state.nextThread + 1 }) :
    Ends Allowed (threadCreate slot created) state post := by
  simp only [threadCreate, ends_bind, ends_get, ends_ite, ends_pure, ends_set]
  refine ⟨fun _ => refused, fun room => done ?_⟩
  simp only [Bool.or_eq_true, decide_eq_true_eq, not_or] at room
  omega

lemma owned_of_valid (valid : ¬ownerInvalid state owner = true) : Owned state.slots owner := by
  simp only [ownerInvalid, Bool.and_eq_true, Bool.or_eq_true, decide_eq_true_eq, not_and, not_or, ge_iff_le] at valid
  by_cases kernel : owner = ownerKernel
  · exact .inl kernel
  · obtain ⟨⟨low, high⟩, held⟩ := valid kernel
    exact .inr ⟨owner.toNat, by omega, by omega, held⟩

lemma Steady.set {next} (steady : Steady state)
    (changed : next.slots = update state.slots i slot) (fine : slot.state = .free ∨ slot.workerValid = true) :
    Steady next := by
  rintro j ⟨inside, held, joined⟩
  rw [changed] at held joined
  by_cases here : j = i
  · subst here
    rw [update_self] at held joined
    rcases fine with isFree | valid
    · exact held isFree
    · cases joined.symm.trans valid
  · rw [update_of_ne here] at held joined
    exact steady j ⟨inside, held, joined⟩

lemma ends_publish {allowed : Halt → Prop} {post : Nat → State → Prop} :
    Ends allowed (publish i) state post ↔ post (packHandle i (state.slots i).gen) { state with
      admitted :=
        state.admitted ++ [⟨i, (state.slots i).gen, (state.slots i).owner,
          packHandle i (state.slots i).gen⟩] } := Iff.rfl

/-! Slots in reserve. -/

/-- What `proc_spawn_pipe` writes into a slot it reserves. -/
def Slot.reserved (slot : Slot) (owner : Int) (stdinSel stdoutSel : Nat) : Slot :=
  { slot with state := .loading, ctx := none, owner, workerValid := false, killRequested := false, stdinSel, stdoutSel }

/-- A slot of the pipeline once its worker exists and it is published. -/
def Slot.started (slot : Slot) (worker : Nat) : Slot :=
  { slot with worker, workerValid := true, exitCode := 0, faultVector := 0, faultError := 0, state := .active }

def admissionOf (i : Nat) (slot : Slot) : Admission := ⟨i, slot.gen, slot.owner, packHandle i slot.gen⟩

section
variable {state : State} {slots : Nat → Slot} {contexts : Nat → Context} {pipe : Pipe} {chosen : Nat → Prop}
  {owner : Int} {stdin stdout : Nat → Nat}
variable {c i : Nat} {post : SysResult → State → Prop}

/-- The tables while the `chosen` slots are reserved, each with a fresh context or none yet. -/
structure Reserving (state : State) (slots : Nat → Slot) (contexts : Nat → Context) (chosen : Nat → Prop) (owner : Int)
    (stdin stdout : Nat → Nat) : Prop where
  inside : ∀ i, chosen i → i < maxProcs
  isFree : ∀ i, chosen i → (state.slots i).state = .free
  rest : ∀ j, ¬chosen j → slots j = state.slots j
  slot : ∀ i, chosen i → slots i = { (state.slots i).reserved owner (stdin i) (stdout i) with ctx := (slots i).ctx }
  fresh : ∀ i c, chosen i → (slots i).ctx = some c →
    (state.contexts c).state = .free ∧ (contexts c).state = .active ∧ reservedClear (contexts c) = true
  idle : ∀ c, (∀ i, chosen i → (slots i).ctx ≠ some c) →
    (contexts c).state = (state.contexts c).state ∧ ((state.contexts c).state = .free ∨ contexts c = state.contexts c)
  apart : ∀ i j c, chosen i → chosen j → (slots i).ctx = some c → (slots j).ctx = some c → i = j

lemma Reserving.start (inside : ∀ i, chosen i → i < maxProcs) (isFree : ∀ i, chosen i → (state.slots i).state = .free)
    (rest : ∀ j, ¬chosen j → slots j = state.slots j)
    (slot : ∀ i, chosen i → slots i = (state.slots i).reserved owner (stdin i) (stdout i)) :
    Reserving state slots state.contexts chosen owner stdin stdout := by
  have empty : ∀ i c, chosen i → (slots i).ctx ≠ some c := by
    intro i c picked
    rw [slot i picked]
    exact nofun
  exact ⟨inside, isFree, rest, fun i picked => by rw [slot i picked],
    fun i c picked ctx => absurd ctx (empty i c picked),
    fun _ _ => ⟨rfl, .inr rfl⟩, fun i _ c picked _ ctx => absurd ctx (empty i c picked)⟩

section
variable (reserving : Reserving state slots contexts chosen owner stdin stdout)
include reserving

/-- A context that is free while slots are reserved was free before, and no reserved slot has it. -/
lemma Reserving.unused (isFree : (contexts c).state = .free) :
    (state.contexts c).state = .free ∧ ∀ i, chosen i → (slots i).ctx ≠ some c := by
  have unheld : ∀ i, chosen i → (slots i).ctx ≠ some c := by
    intro i picked ctx
    have active := (reserving.fresh i c picked ctx).2.1
    rw [isFree] at active
    cases active
  exact ⟨by rw [← (reserving.idle c unheld).1]; exact isFree, unheld⟩

lemma Reserving.load (picked : chosen i) (empty : (slots i).ctx = none) (isFree : (contexts c).state = .free)
    (running : context.state = .active) (clear : reservedClear context = true) :
      Reserving state (update slots i { slots i with ctx := some c }) (update contexts c context) chosen owner
      stdin stdout := by
  obtain ⟨unused, unheld⟩ := reserving.unused isFree
  have split : ∀ {j d}, chosen j → (update slots i { slots i with ctx := some c } j).ctx = some d →
      j = i ∧ d = c ∨ d ≠ c ∧ (slots j).ctx = some d := by
    intro j d member ctx
    by_cases here : j = i
    · subst here
      rw [update_self] at ctx
      exact .inl ⟨rfl, (Option.some.inj ctx).symm⟩
    · rw [update_of_ne here] at ctx
      exact .inr ⟨fun same => unheld j member (same ▸ ctx), ctx⟩
  refine ⟨reserving.inside, reserving.isFree, fun j spared => ?_, fun j member => ?_, fun j d member ctx => ?_,
    fun d unowned => ?_,
    fun j k d first second one two => ?_⟩
  · rw [update_of_ne (by rintro rfl; exact spared picked)]
    exact reserving.rest j spared
  · by_cases here : j = i
    · subst here
      rw [update_self, reserving.slot j picked]
    · rw [update_of_ne here]
      exact reserving.slot j member
  · rcases split member ctx with ⟨rfl, rfl⟩ | ⟨differ, ctx⟩
    · rw [update_self]
      exact ⟨unused, running, clear⟩
    · rw [update_of_ne differ]
      exact reserving.fresh j d member ctx
  · have differ : d ≠ c := by
      rintro rfl
      exact unowned i picked (by rw [update_self])
    rw [update_of_ne differ]
    refine reserving.idle d fun j member ctx => ?_
    by_cases here : j = i
    · rw [here, empty] at ctx
      cases ctx
    · exact unowned j member (by rw [update_of_ne here]; exact ctx)
  · rcases split first one with ⟨rfl, rfl⟩ | ⟨differ, one⟩ <;> rcases split second two with ⟨rfl, same⟩ | ⟨other, two⟩
    · rfl
    · exact absurd rfl other
    · exact absurd same differ
    · exact reserving.apart j k d first second one two

/-- A context that was created and dropped again leaves no trace. -/
lemma Reserving.drop (isFree : (contexts c).state = .free) :
    Reserving state slots (update contexts c Context.empty) chosen owner stdin stdout := by
  obtain ⟨unused, unheld⟩ := reserving.unused isFree
  refine ⟨reserving.inside, reserving.isFree, reserving.rest, reserving.slot, fun i d picked ctx => ?_,
    fun d unowned => ?_, reserving.apart⟩
  · have differ : d ≠ c := by
      rintro rfl
      exact unheld i picked ctx
    rw [update_of_ne differ]
    exact reserving.fresh i d picked ctx
  by_cases here : d = c
  · subst here
    rw [update_self, unused]
    exact ⟨rfl, .inl rfl⟩
  · rw [update_of_ne here]
    exact reserving.idle d unowned

variable (picked : chosen i) (empty : (slots i).ctx = none)
  (failed : ∀ rc others, rc ≠ .ok → Reserving state slots others chosen owner stdin stdout →
    post rc { state with slots, contexts := others, pipe })
  (loaded : ∀ c others, Reserving state (update slots i { slots i with ctx := some c }) others chosen owner stdin
    stdout →
    post .ok { state with slots := update slots i { slots i with ctx := some c }, contexts := others, pipe })
include picked empty failed loaded

lemma ends_prepareSide : Ends Allowed (prepareSide i load) { state with slots, contexts, pipe } post := by
  simp only [prepareSide]
  split
  · exact failed _ _ (by simp) reserving
  next layout accepted =>
  simp only [ends_bind]
  refine ends_userCreateLoaded (failed _ _ (by simp) reserving) fun c context isFree running clear => ?_
  simp only [ends_bind, ends_get, ends_setSlot, ends_ite, ends_pure]
  refine ⟨fun _ => loaded c _ (reserving.load picked empty isFree running clear), fun _ => ?_⟩
  refine ends_userDestroy (ends_require (by decide) (by simp)) (ends_require (by decide) fun _ => ?_)
  simp only [update_idem]
  have back : update slots i { slots i with ctx := none } = slots := by
    rw [← empty]
    exact update_eq_self i slots
  rw [back]
  exact failed _ _ (by simp) (reserving.drop isFree)

lemma ends_loadSide : Ends Allowed (loadSide i side) { state with slots, contexts, pipe } post := by
  simp only [loadSide, ends_ite, ends_bind, ends_pure]
  refine ⟨fun refused => failed _ _ refused reserving, fun _ => ?_⟩
  refine ends_prepareSide reserving picked empty (fun rc others wrong kept => ?_) fun c others kept => ?_
  · exact ends_require (by decide) fun _ => failed rc others wrong kept
  · exact ends_require (by decide) fun _ => loaded c others kept

end

/-- The state that a rollback of slot `i` ends with: only its selectors and old codes are lost. -/
def reselected (state : State) (i stdin stdout : Nat) : State :=
  { state with
    slots := update state.slots i { state.slots i with
      stdinSel := stdin, stdoutSel := stdout, exitCode := 0, faultVector := 0, faultError := 0 } }

section
variable {next : State} {others : Nat → Context} {slot : Slot}
  (reserving : Reserving state slots contexts chosen owner stdin stdout)
  (picked : chosen i)
include reserving picked

/-- With slot `i` written into the state before the call, one slot fewer is reserved. -/
lemma Reserving.settle (settled : next.slots = update state.slots i slot) (own : ∀ c, (slots i).ctx = some c →
      (others c).state = (next.contexts c).state ∧ ((next.contexts c).state = .free ∨ others c = next.contexts c))
    (rest : ∀ c, (slots i).ctx ≠ some c → others c = contexts c ∧ next.contexts c = state.contexts c) :
    Reserving next (update slots i slot) others (fun j => chosen j ∧ j ≠ i) owner stdin stdout := by
  have elsewhere : ∀ j, j ≠ i → next.slots j = state.slots j := fun j other => by rw [settled, update_of_ne other]
  have later : ∀ j, j ≠ i → update slots i slot j = slots j := fun j other => update_of_ne other _ _
  refine ⟨fun j member => reserving.inside j member.1, fun j member => ?_, fun j spared => ?_, fun j member => ?_,
    fun j c member ctx => ?_, fun c unowned => ?_, fun j k c first second one two => ?_⟩
  · rw [elsewhere j member.2]
    exact reserving.isFree j member.1
  · by_cases here : j = i
    · rw [settled, here, update_self, update_self]
    · rw [later j here, elsewhere j here]
      exact reserving.rest j fun member => spared ⟨member, here⟩
  · rw [later j member.2, elsewhere j member.2]
    exact reserving.slot j member.1
  · rw [later j member.2] at ctx
    obtain ⟨same, kept⟩ := rest c fun held => member.2 (reserving.apart j i c member.1 picked ctx held)
    rw [same, kept]
    exact reserving.fresh j c member.1 ctx
  · by_cases held : (slots i).ctx = some c
    · exact own c held
    obtain ⟨same, kept⟩ := rest c held
    rw [same, kept]
    refine reserving.idle c fun j member ctx => ?_
    by_cases here : j = i
    · exact held (here ▸ ctx)
    · exact unowned j ⟨member, here⟩ (by rw [later j here]; exact ctx)
  · rw [later j first.2] at one
    rw [later k second.2] at two
    exact reserving.apart j k c first.1 second.1 one two

lemma Reserving.rollback (sound : Sound state) (cleared : slot = { slots i with
      ctx := none, state := .free, workerValid := false, killRequested := false, owner := ownerKernel, exitCode := 0,
      faultVector := 0, faultError := 0 })
    (dropped : ∀ c, others c = if (slots i).ctx = some c then Context.empty else contexts c) :
    Reserving (reselected state i (stdin i) (stdout i)) (update slots i slot) others
      (fun j => chosen j ∧ j ≠ i) owner stdin stdout := by
  have isFree := reserving.isFree i picked
  obtain ⟨ctx, invalid, spared, kernel⟩ := (sound.tables.slot i (reserving.inside i picked)).free isFree
  refine reserving.settle picked ?_ (fun c held => ?_) fun c unheld => ⟨by rw [dropped c, if_neg unheld], rfl⟩
  · rw [cleared, reserving.slot i picked]
    simp only [reselected, Slot.reserved, ctx, invalid, spared, kernel, isFree]
  · rw [dropped c, if_pos held]
    exact ⟨(reserving.fresh i c picked held).1.symm, .inl (reserving.fresh i c picked held).1⟩

/-- An admission is a change of the state before the call as well. -/
lemma Reserving.admit (ctx : (slots i).ctx = some c) (owned : Owned state.slots owner) (small : stdin i ≤ stdinPipe)
    (tiny : stdout i ≤ stdoutPipe) (room : state.nextThread < 2 ^ 63) :
    ∃ next, Edit state next ∧ Reserving next (update slots i ((slots i).started state.nextThread)) contexts
      (fun j => chosen j ∧ j ≠ i) owner stdin stdout ∧ next = { state with
        slots := update state.slots i ((slots i).started state.nextThread),
        contexts := update state.contexts c (contexts c),
        threads := update state.threads state.nextThread (some ⟨i, .fresh⟩), nextThread := state.nextThread + 1,
        admitted := state.admitted ++ [admissionOf i ((slots i).started state.nextThread)] } := by
  obtain ⟨unused, running, clear⟩ := reserving.fresh i c picked ctx
  have planned := reserving.slot i picked
  have admitted : Admitted (state.slots i) ((slots i).started state.nextThread) c state.nextThread := by
    rw [planned]
    exact ⟨rfl, rfl, ctx, rfl, rfl, small, tiny⟩
  refine ⟨_, .admission i c _ _ (reserving.inside i picked) (reserving.isFree i picked) unused room admitted
    (by rw [planned]; exact owned) running clear, reserving.settle picked rfl (fun d held => ?_) fun d unheld =>
      ⟨rfl, ?_⟩, rfl⟩
  · cases held.symm.trans ctx
    simp only [update_self]
    exact ⟨trivial, .inr trivial⟩
  · refine update_of_ne ?_ _ _
    rintro rfl
    exact unheld ctx

end

/-- A rollback is a change of the state before the call, in which one slot fewer is reserved. -/
lemma ends_rollbackSlot {post : PUnit → State → Prop} (sound : Sound state) (steady : Steady state)
    (reserving : Reserving state slots contexts chosen owner stdin stdout) (picked : chosen i)
    (small : stdin i ≤ stdinPipe)
    (tiny : stdout i ≤ stdoutPipe) (holds : ∀ before others created, Edit state before → Steady before →
      before.pipe = state.pipe →
      Reserving before others created (fun j => chosen j ∧ j ≠ i) owner stdin stdout →
      post ⟨⟩ { before with slots := others, contexts := created, pipe }) :
    Ends Allowed (rollbackSlot i destroyed) { state with slots, contexts, pipe } post := by
  have isFree := reserving.isFree i picked
  have change : Edit state (reselected state i (stdin i) (stdout i)) :=
    .reselect i _ _ (reserving.inside i picked) isFree small tiny
  have settled : Steady (reselected state i (stdin i) (stdout i)) := steady.set rfl (.inl isFree)
  simp only [rollbackSlot, ends_bind, ends_get]
  split
  next empty =>
    refine holds (reselected state i (stdin i) (stdout i)) _ contexts change settled rfl
      (reserving.rollback picked sound rfl fun c => ?_)
    rw [if_neg (by rw [empty]; simp)]
  rename_i c ctx
  simp only [ends_bind]
  refine ends_userDestroy (ends_require (by decide) (by simp)) (ends_require (by decide) fun _ => ?_)
  refine holds (reselected state i (stdin i) (stdout i)) _ (update contexts c Context.empty) change settled rfl
    (reserving.rollback picked sound rfl fun d => ?_)
  by_cases here : d = c
  · rw [here, update_self, if_pos ctx]
  rw [update_of_ne here, if_neg]
  intro same
  exact here (Option.some.inj (same.symm.trans ctx))

section
variable (reserving : Reserving state slots contexts chosen owner stdin stdout)
include reserving

lemma Reserving.nobody (none : ∀ i, ¬chosen i) : slots = state.slots ∧ Edit state { state with contexts } := by
  have idle := fun c => reserving.idle c fun i picked => absurd picked (none i)
  refine ⟨funext fun j => reserving.rest j (none j), .contexts contexts (fun c => (idle c).1) fun c => ?_⟩
  rcases (idle c).2 with isFree | same
  · exact .inl isFree
  · exact .inr (by rw [same]; exact ⟨rfl, rfl⟩)

/-- The structural check passes while the reserved slots are loaded. -/
lemma Reserving.procCheck (sound : Sound state) (steady : Steady state) (off : cpu.interruptsDisabled = true)
    (owned : Owned state.slots owner)
    (small : ∀ i, chosen i → stdin i ≤ stdinPipe) (tiny : ∀ i, chosen i → stdout i ≤ stdoutPipe)
    (loaded : ∀ i, chosen i → ∃ c, (slots i).ctx = some c) :
      procCheck { state with slots, contexts, pipe } cpu = true := by
  have held : ∀ o, (state.slots o).state ≠ .free → (slots o).state ≠ .free := by
    intro o inUse
    rw [reserving.rest o fun picked => inUse (reserving.isFree o picked)]
    exact inUse
  have belongs : ∀ owner, Owned state.slots owner → Owned slots owner := fun owner owned => owned.mono fun o _ _ =>
    held o
  refine procCheck_of off sound.ready fun i inside => ?_
  have before := sound.tables.checked steady inside
  by_cases picked : chosen i
  · obtain ⟨c, ctx⟩ := loaded i picked
    obtain ⟨kept, planned⟩ : ∃ kept, slots i =
      { (state.slots i).reserved owner (stdin i) (stdout i) with ctx := kept } :=
      ⟨_, reserving.slot i picked⟩
    have alone : ∀ j, j < i → ∀ d, (slots i).ctx = some d → (slots j).ctx ≠ some d := by
      intro j earlier d mine other
      cases ctx.symm.trans mine
      by_cases also : chosen j
      · have same := reserving.apart i j c picked also ctx other
        omega
      · rw [reserving.rest j also] at other
        exact sound.tables.unused (reserving.fresh i c picked ctx).1 (lt_trans earlier inside) other
    refine ⟨?_, ?_, ?_, ?_, ?_, alone, fun _ => ⟨c, ctx, .inl ?_⟩⟩ <;> simp only [planned, Slot.reserved]
    · exact before.gen
    · exact small i picked
    · exact tiny i picked
    · exact belongs owner owned
    · exact nofun
    · exact ⟨trivial, trivial, trivial⟩
  have same := reserving.rest i picked
  refine ⟨?_, ?_, ?_, ?_, ?_, fun j earlier d mine other => ?_, fun inUse => ?_⟩ <;> dsimp only at * <;>
    simp only [same] at *
  · exact before.gen
  · exact before.stdin
  · exact before.stdout
  · exact belongs _ before.owner
  · exact before.free
  · by_cases also : chosen j
    · exact sound.tables.unused (reserving.fresh j d also other).1 inside mine
    · rw [reserving.rest j also] at other
      exact before.alone j earlier d mine other
  · obtain ⟨c, ctx, shape⟩ := before.held inUse
    have inUse : (state.contexts c).state ≠ .free := fun isFree => sound.tables.unused isFree inside ctx
    have idle := reserving.idle c fun j picked ctx => inUse (reserving.fresh j c picked ctx).1
    rw [← idle.2.resolve_left inUse] at shape
    exact ⟨c, ctx, shape⟩

end

end

/-! Admission of one image. -/

lemma ends_spawnFailed {post : SpawnReply → State → Prop} (named : why ≠ "recursion")
    (back : { loading with ctx := none, state := .free } = state.slots i)
    (holds : post (.refused .noMem) { state with contexts := update state.contexts c Context.empty }) :
    Ends Allowed (spawnFailed i c destroyed why)
      { state with slots := update state.slots i loading, contexts := update state.contexts c context } post := by
  simp only [spawnFailed, ends_bind]
  refine ends_userDestroy (ends_require named (by simp)) (ends_require named fun _ => ?_)
  simp only [ends_get, ends_setSlot, ends_pure, update_self, update_idem, back, update_eq_self]
  exact holds

/-- From a worker thread on, a spawn is one admission. -/
lemma ends_admitImage (sound : Sound state) (steady : Steady state) (off : env.cpu.interruptsDisabled = true)
    (inside : i < maxProcs) (isFree : (state.slots i).state = .free) (unused : (state.contexts c).state = .free)
    (room : state.nextThread < 2 ^ 63)
    (gen : loading.gen = (state.slots i).gen) (small : stdinSel ≤ stdinPipe) (owned : Owned state.slots owner)
    (running : context.state = .active) (clear : reservedClear context = true) :
    Ends Allowed (admitImage env i c state.nextThread stdinSel owner)
      { state with
        slots := update state.slots i loading, contexts := update state.contexts c context,
        threads := update state.threads state.nextThread (some ⟨i, .fresh⟩), nextThread := state.nextThread + 1 }
      fun _ next => Edits state next ∧ Steady next := by
  have change : Edit state _ := .admission i c { loading with
      ctx := some c, worker := state.nextThread, workerValid := true, owner, killRequested := false, stdinSel,
      stdoutSel := stdoutSerial, exitCode := 0, faultVector := 0, faultError := 0, state := .active }
    context inside isFree unused room ⟨rfl, gen, rfl, rfl, rfl, small, Nat.zero_le _⟩ owned running clear
  simp only [admitImage, ends_bind, ends_get, ends_setSlot]
  refine ends_require (by decide) fun _ => ends_require (by decide) fun _ => ?_
  simp only [update_self, update_idem]
  refine ends_requireProcCheck ((change.sound sound).procCheck (steady.set rfl (.inr rfl)) off) ?_
  refine ends_require (by decide) fun _ => ?_
  simp only [ends_publish, ends_pure, update_self]
  exact ⟨.one change, steady.set rfl (.inr rfl)⟩

lemma reserving_one (sound : SlotSound state.contexts (state.slots i)) (inside : i < maxProcs)
    (isFree : (state.slots i).state = .free) :
    Reserving state (update state.slots i { state.slots i with state := .loading }) state.contexts (· = i) ownerKernel
      (fun j => (state.slots j).stdinSel) (fun j => (state.slots j).stdoutSel) := by
  obtain ⟨ctx, invalid, spared, kernel⟩ := sound.free isFree
  refine .start ?_ ?_ (fun j other => update_of_ne other _ _) ?_
  · rintro _ rfl
    exact inside
  · rintro _ rfl
    exact isFree
  · rintro _ rfl
    simp only [update_self, Slot.reserved, ctx, invalid, spared, kernel]

lemma procSpawnImage_moves (sound : Sound state) (steady : Steady state) (args : SpawnArgs) (env : SpawnEnv) :
    Ends Allowed (procSpawnImage args env) state fun _ next => Edits state next ∧ Steady next := by
  have unchanged : Edits state state ∧ Steady state := ⟨.refl, steady⟩
  simp only [procSpawnImage, ends_bind, ends_get, ends_ite, ends_pure]
  refine ⟨fun _ => unchanged, fun entered => ⟨fun _ => unchanged, fun _ => ⟨fun _ => unchanged, fun _ =>
    ⟨fun _ => unchanged, fun selector => ⟨fun _ => unchanged, fun valid => ?_⟩⟩⟩⟩⟩
  have front : env.cpu.foreground = true := by
    simp only [Bool.or_eq_true, Bool.not_eq_true', not_or, Bool.not_eq_false] at entered
    exact entered.1.1.1.1
  have off := Cpu.foreground_interrupts front
  have small : args.stdinSel ≤ stdinPipe := by
    simp only [Bool.and_eq_true, decide_eq_true_eq, not_and, not_not] at selector
    simp only [stdinClosed, stdinKbd] at selector
    simp only [stdinPipe]
    omega
  split
  · exact unchanged
  next layout accepted =>
  split
  · exact unchanged
  next i found =>
  have inside := mem_range.mp (mem_of_find?_eq_some found)
  have isFree := find?_some found
  simp only [decide_eq_true_eq] at isFree
  have loadable := sound.tables.slot i inside
  simp only [ends_bind, ends_setSlot]
  refine ends_userCreateLoaded ?_ fun c context unused running clear => ?_
  · simp only [ends_get, ends_setSlot, ends_bind, ends_pure, update_self, update_idem]
    have back : { state.slots i with state := .free } = state.slots i := by rw [← isFree]
    rw [back, update_eq_self]
    exact unchanged
  have back : { state.slots i with ctx := none, state := .free } = state.slots i := by
    rw [← (loadable.free isFree).1, ← isFree]
  have dropped : Edit state _ := .context c Context.empty unused.symm (.inl unused)
  simp only [ends_bind, ends_get, ends_setSlot, ends_ite, update_self, update_idem]
  refine ⟨fun _ => ?_, fun _ => ends_require (by decide) fun _ => ?_⟩
  · exact ends_spawnFailed (by decide) back ⟨.one dropped, steady⟩
  have loading := (reserving_one loadable inside isFree).load rfl
    (by rw [update_self]; exact (loadable.free isFree).1) unused running clear
  simp only [update_self, update_idem] at loading
  refine ends_requireProcCheck (loading.procCheck sound steady off (.inl rfl) ?_ ?_ ?_) ?_
  · rintro _ rfl
    exact loadable.stdin
  · rintro _ rfl
    exact loadable.stdout
  · rintro _ rfl
    exact ⟨c, by rw [update_self]⟩
  refine ends_threadCreate ?_ fun room => ?_
  · exact ends_spawnFailed (by decide) back ⟨.one dropped, steady⟩
  exact ends_admitImage sound steady off inside isFree unused room rfl small (owned_of_valid valid) running clear

/-! Admission of a pipeline. -/

section
variable {state : State} {slots : Nat → Slot} {contexts : Nat → Context} {owner : Int} {stdin stdout : Nat → Nat}
  {env : PipeSpawnEnv} {ring : Option Nat} {a b : Nat} {bytes : ByteMemory} {freed : List Nat}
variable {pipe : Pipe} {mid : State} {post : Bool → State → Prop} {c : Nat}

/-- What a pipeline spawn starts from once it has its slots. -/
structure Joining (state : State) (a b : Nat) (owner : Int) (stdin stdout : Nat → Nat) : Prop where
  sound : Sound state
  steady : Steady state
  detached : Detached state.pipe
  owned : Owned state.slots owner
  apart : a ≠ b
  small : ∀ i, stdin i ≤ stdinPipe
  tiny : ∀ i, stdout i ≤ stdoutPipe
  reads : stdin b = stdinPipe
  writes : stdout a = stdoutPipe

lemma ends_ringFree {pipeEnv} (here : mid.pipe = { pipe with bytes, freed })
    (holds : ∀ given freed, post given { mid with pipe := { pipe with bytes, freed } }) :
    Ends Allowed (onPipe fun pipe => pipe.pipeRingFree pipeEnv ring) mid post := by
  rcases Pipe.pipeRingFree_cases mid.pipe pipeEnv ring with ⟨given, freed, done⟩ | stopped
  · rw [here] at done
    exact ends_onPipe_ok (by rw [here]; exact done) (holds _ _)
  refine ends_onPipe (fun _ _ called => ?_) fun halt called => ?_
  · cases stopped.symm.trans called
  · cases stopped.symm.trans called
    exact allowed_other (by decide)

/-- The state in which both sides are admitted and the ring is attached. -/
def joinedByPipe (state : State) (a b : Nat) (slotA slotB : Slot) (contexts : Nat → Context) (pipe : Pipe) : State :=
  { state with
    slots := update (update state.slots a slotA) b slotB, contexts,
    threads := update (update state.threads state.nextThread (some ⟨a, .fresh⟩)) (state.nextThread + 1)
      (some ⟨b, .fresh⟩),
    nextThread := state.nextThread + 2, pipe,
    admitted := state.admitted ++ [admissionOf a slotA] ++ [admissionOf b slotB] }

/-- Attaching to slots that are held, of their generations and in their roles, passes the check inside. -/
lemma ends_pipeAttach (ready : mid.ready = true)
    (heldA : (mid.slots a).state ≠ .free) (heldB : (mid.slots b).state ≠ .free)
    (reads : (mid.slots b).stdinSel = stdinPipe)
    (writes : (mid.slots a).stdoutSel = stdoutPipe) (refused : ∀ pipe, post false { mid with pipe })
    (holds : ∀ pipe, Attached pipe → pipe.rslot = b → pipe.wslot = a → pipe.rgen = (mid.slots b).gen →
      pipe.wgen = (mid.slots a).gen →
      post true { mid with pipe }) :
    Ends Allowed (onPipe fun pipe => pipe.pipeAttach (pipeEnv mid cpu heapFree) ring a (mid.slots a).gen b
      (mid.slots b).gen) mid post := by
  rcases Pipe.pipeAttach_cases mid.pipe (pipeEnv mid cpu heapFree) ring a (mid.slots a).gen b (mid.slots b).gen with
    same | ⟨address, next, -, rfl, attached, front, checked⟩
  · exact ends_onPipe_ok same (refused _)
  have honoured := honoured_of attached ready (fun _ => ⟨heldB, rfl, reads⟩) (fun _ => ⟨heldA, rfl, writes⟩) cpu
  have passes := (Pipe.pipeCheck_attached attached (Cpu.foreground_interrupts front)).mpr ⟨honoured.reader,
    honoured.writer⟩
  exact ends_onPipe_ok (checked.trans (if_pos passes)) (holds _ attached rfl rfl rfl rfl)

section
variable (joining : Joining state a b owner stdin stdout)
  (reserving : Reserving state slots contexts (fun j => j = a ∨ j = b) owner stdin stdout)
include joining reserving

lemma ends_rollbackBoth (freed : List Nat) (bytes : ByteMemory) :
    Ends Allowed (do rollbackSlot a destroyedA; rollbackSlot b destroyedB; return reply)
      { state with slots, contexts, pipe := { state.pipe with bytes, freed } } fun _ next => Edits state next ∧
        Steady next := by
  obtain ⟨sound, steady, detached, -, apart, small, tiny, -, -⟩ := joining
  simp only [ends_bind, ends_pure]
  refine ends_rollbackSlot sound steady reserving (.inl rfl) (small a) (tiny a) fun first _ _ one settled samePipe
    reservingA => ?_
  refine ends_rollbackSlot (one.sound sound) settled reservingA ⟨.inr rfl, apart.symm⟩ (small b) (tiny b)
    fun second _ _ two settled kept reservingB => ?_
  rw [← samePipe, ← kept] at detached ⊢
  obtain ⟨rfl, swapped⟩ := reservingB.nobody (by tauto)
  exact ⟨.tail (.tail (.tail (.single one) two) swapped) (.ring bytes freed detached), settled⟩

lemma ends_pipeFailed :
    Ends Allowed (pipeFailed env ring a b rc) { state with slots, contexts, pipe := { state.pipe with bytes, freed } }
      fun _ next => Edits state next ∧ Steady next := by
  simp only [pipeFailed]
  rw [ends_bind, ends_get, ends_bind]
  exact ends_ringFree rfl fun _ _ => ends_rollbackBoth joining reserving _ _

/-- Both admissions, then the contexts that a failed load left behind, then the pipe. -/
lemma Joining.admit (loaded : ∀ i, i = a ∨ i = b → ∃ c, (slots i).ctx = some c)
    (room : state.nextThread + 1 < 2 ^ 63) (attached : Attached pipe) (rslot : pipe.rslot = b) (wslot : pipe.wslot = a)
    (rgen : pipe.rgen = (slots b).gen) (wgen : pipe.wgen = (slots a).gen) :
      let slotA := (slots a).started state.nextThread
    let slotB := (slots b).started (state.nextThread + 1)
    update (update slots a slotA) b slotB = update (update state.slots a slotA) b slotB ∧
      Edits state (joinedByPipe state a b slotA slotB contexts pipe) := by
  obtain ⟨-, -, detached, owned, apart, small, tiny, reads, writes⟩ := joining
  obtain ⟨c, ctxA⟩ := loaded a (.inl rfl)
  obtain ⟨d, ctxB⟩ := loaded b (.inr rfl)
  have slotA := reserving.slot a (.inl rfl)
  have slotB := reserving.slot b (.inr rfl)
  obtain ⟨_, one, reservingA, rfl⟩ := reserving.admit (.inl rfl) ctxA owned (small a) (tiny a) (by omega)
  have later : update slots a ((slots a).started state.nextThread) b = slots b := update_of_ne apart.symm _ _
  obtain ⟨_, two, reservingB, rfl⟩ := reservingA.admit ⟨.inr rfl, apart.symm⟩ (later ▸ ctxB) (owned.set nofun)
    (small b) (tiny b) room
  simp only [later] at two reservingB
  obtain ⟨same, swapped⟩ := reservingB.nobody (by tauto)
  refine ⟨same, .tail (.tail (.tail (.single one) two) swapped) (.attach pipe detached attached ?_ ?_)⟩
  · rw [rslot, rgen]
    refine ⟨?_, ?_, ?_⟩ <;> simp only [update_self, Slot.started]
    rw [slotB]
    exact reads
  · rw [wslot, wgen]
    refine ⟨?_, ?_, ?_⟩ <;> simp only [update_of_ne apart, update_self, Slot.started]
    rw [slotA]
    exact writes

section
variable (off : env.cpu.interruptsDisabled = true) (loaded : ∀ i, i = a ∨ i = b → ∃ c, (slots i).ctx = some c)
include off loaded

/-- Both workers exist: the rest is one pipeline admission. -/
lemma ends_admitPipe (room : state.nextThread + 1 < 2 ^ 63) :
    Ends Allowed (admitPipe env ring a b state.nextThread (state.nextThread + 1))
      { state with
        slots, contexts, pipe := { state.pipe with bytes, freed },
        threads := update (update state.threads state.nextThread (some ⟨a, .fresh⟩)) (state.nextThread + 1)
          (some ⟨b, .fresh⟩),
        nextThread := state.nextThread + 2 }
      fun _ next => Edits state next ∧ Steady next := by
  simp only [admitPipe, startSlot, activate, ends_bind, ends_get, ends_setSlot]
  refine ends_require (by decide) fun _ => ?_
  have apart := joining.apart
  have slotA := reserving.slot a (.inl rfl)
  have slotB := reserving.slot b (.inr rfl)
  refine ends_pipeAttach joining.sound.ready ?_ ?_ ?_ ?_ (fun _ => ?_) ?_
  · simp only [update_self, update_of_ne apart, update_of_ne apart.symm]
    rw [slotA]
    simp [Slot.reserved]
  · simp only [update_self, update_of_ne apart.symm]
    rw [slotB]
    simp [Slot.reserved]
  · simp only [update_self, update_of_ne apart.symm]
    rw [slotB]
    exact joining.reads
  · simp only [update_self, update_of_ne apart, update_of_ne apart.symm]
    rw [slotA]
    exact joining.writes
  · exact ends_require (by decide) (by simp)
  intro pipe attached rslot wslot rgen wgen
  refine ends_require (by decide) fun _ => ends_require (by decide) fun _ => ?_
  simp only [update_self, update_of_ne apart, update_of_ne apart.symm] at rgen wgen ⊢
  obtain ⟨same, changes⟩ := joining.admit reserving loaded room attached rslot wslot rgen wgen
  simp only [Slot.started] at same
  rw [update_comm apart _ _ slots, update_idem, update_comm apart.symm _ _ slots, update_idem, same]
  have halfway : Steady { state with slots := update state.slots a ((slots a).started state.nextThread) } :=
    joining.steady.set rfl (.inr rfl)
  have settled : Steady (joinedByPipe state a b ((slots a).started state.nextThread)
    ((slots b).started (state.nextThread + 1)) contexts pipe) :=
    halfway.set rfl (.inr rfl)
  have sound' := changes.sound joining.sound
  refine ends_requireProcCheck (sound'.procCheck settled off) (ends_requirePipeCheck (sound'.pipeCheck off) ?_)
  refine ends_require (by decide) fun _ => ?_
  simp only [ends_publish, update_self, update_of_ne apart]
  exact ⟨changes, settled⟩

lemma ends_startPipe :
    Ends Allowed (startPipe env ring a b) { state with slots, contexts, pipe := { state.pipe with bytes, freed } }
      fun _ next => Edits state next ∧ Steady next := by
  simp only [startPipe, ends_bind]
  refine ends_require (by decide) fun _ => ends_requireProcCheck
    (reserving.procCheck joining.sound joining.steady off joining.owned (fun i _ => joining.small i)
      (fun i _ => joining.tiny i) loaded) ?_
  refine ends_threadCreate (ends_pipeFailed joining reserving) fun _ => ?_
  simp only [ends_bind]
  refine ends_threadCreate ?_ fun room => ?_
  · simp only [ends_bind, ends_get, ends_throw]
    exact ends_ringFree rfl fun _ _ => allowed_other (by decide)
  · exact ends_admitPipe joining reserving off loaded room

end

lemma ends_loadPipe (freed : List Nat) (bytes : ByteMemory) (off : env.cpu.interruptsDisabled = true)
    (emptyA : (slots a).ctx = none) (emptyB : (slots b).ctx = none) :
    Ends Allowed (loadPipe env ring a b) { state with slots, contexts, pipe := { state.pipe with bytes, freed } }
      fun _ next => Edits state next ∧ Steady next := by
  simp only [loadPipe, ends_bind]
  refine ends_loadSide reserving (.inl rfl) emptyA (fun rc others wrong kept => ?_) fun c others reservingA => ?_
  · simp only [wrong, ne_eq, not_false_eq_true, if_true]
    exact ends_pipeFailed joining kept
  simp only [ne_eq, not_true_eq_false, if_false, ends_bind]
  refine ends_loadSide reservingA (.inr rfl) (by
    rw [update_of_ne joining.apart.symm]; exact emptyB) (fun rc others wrong kept => ?_)
    fun d others reservingB => ?_
  · simp only [wrong, not_false_eq_true, if_true]
    exact ends_pipeFailed joining kept
  simp only [not_true_eq_false, if_false]
  refine ends_startPipe joining reservingB off ?_
  rintro i (rfl | rfl)
  · exact ⟨c, by rw [update_of_ne joining.apart, update_self]⟩
  · exact ⟨d, by rw [update_self]⟩

end

end

lemma free_pair (found : ((List.range maxProcs).filter fun i => (state.slots i).state = .free) = a :: b :: more) :
    a ≠ b ∧ (a < maxProcs ∧ (state.slots a).state = .free) ∧ b < maxProcs ∧ (state.slots b).state = .free := by
  have member : ∀ i, i ∈ a :: b :: more → i < maxProcs ∧ (state.slots i).state = .free := by
    intro i here
    rw [← found, mem_filter, mem_range, decide_eq_true_eq] at here
    exact here
  have distinct : (a :: b :: more).Nodup := by
    rw [← found]
    exact nodup_range.filter _
  refine ⟨?_, member a (by simp), member b (by simp)⟩
  rintro rfl
  simp at distinct

lemma reserving_both (owner : Int) (stdin stdout : Nat → Nat) (apart : a ≠ b) (insideA : a < maxProcs)
    (insideB : b < maxProcs) (freeA : (state.slots a).state = .free) (freeB : (state.slots b).state = .free) :
    Reserving state (update (update state.slots a ((state.slots a).reserved owner (stdin a) (stdout a))) b
      ((state.slots b).reserved owner (stdin b) (stdout b))) state.contexts (fun j =>
      j = a ∨ j = b) owner stdin stdout := by
  refine .start ?_ ?_ (fun j spared => ?_) ?_
  · rintro i (rfl | rfl) <;> assumption
  · rintro i (rfl | rfl) <;> assumption
  · rw [not_or] at spared
    rw [update_of_ne spared.2, update_of_ne spared.1]
  · rintro i (rfl | rfl)
    · rw [update_of_ne apart, update_self]
    · rw [update_self]

lemma procSpawnPipe_moves (sound : Sound state) (steady : Steady state) (args : PipeArgs) (env : PipeSpawnEnv) :
    Ends Allowed (procSpawnPipe args env) state fun _ next => Edits state next ∧ Steady next := by
  have unchanged : Edits state state ∧ Steady state := ⟨.refl, steady⟩
  simp only [procSpawnPipe, ends_bind, ends_get, ends_ite, ends_pure]
  refine ⟨fun _ => unchanged, fun entered => ⟨fun _ => unchanged,
    fun _ => ⟨fun _ => unchanged, fun _ => ⟨fun _ => unchanged, fun _ =>
    ⟨fun _ => unchanged, fun _ => ⟨fun _ => unchanged, fun selector => ⟨fun _ => unchanged, fun valid => ?_⟩⟩⟩⟩⟩⟩⟩
  have front : env.cpu.foreground = true := by
    simp only [Bool.or_eq_true, Bool.not_eq_true', not_or, Bool.not_eq_false] at entered
    exact entered.1
  split
  next a b more found =>
    simp only [ends_ite, ends_pure, ends_bind]
    refine ⟨fun _ => unchanged, fun _ => ⟨fun _ => unchanged, fun idle => ?_⟩⟩
    have detached : Detached state.pipe := by
      rcases sound.piped.phase with attached | detached
      · exact absurd attached.live idle
      · exact detached
    obtain ⟨apart, ⟨insideA, freeA⟩, insideB, freeB⟩ := free_pair found
    have reserving := reserving_both args.owner (fun j => if j = a then args.stdinA else stdinPipe)
      (fun j => if j = a then stdoutPipe else stdoutSerial) apart insideA insideB freeA freeB
    have small : ∀ i, (if i = a then args.stdinA else stdinPipe) ≤ stdinPipe := by
      simp only [Bool.and_eq_true, decide_eq_true_eq, not_and, not_not] at selector
      intro i
      split
      · simp only [stdinClosed, stdinKbd] at selector
        simp only [stdinPipe]
        omega
      · exact le_rfl
    have tiny : ∀ i, (if i = a then stdoutPipe else stdoutSerial) ≤ stdoutPipe := by
      intro i
      split <;> decide
    have second : ¬b = a := apart.symm
    simp only [if_true, second, if_false] at reserving
    simp only [reserve, ends_bind, ends_get, ends_setSlot, update_of_ne apart.symm, Pipe.pipeRingAlloc, pipeEnv, front,
      Bool.not_true, Bool.false_eq_true, if_false, ends_set]
    have joining : Joining state a b args.owner _ _ :=
      ⟨sound, steady, detached, owned_of_valid valid, apart, small, tiny, if_neg second, if_pos rfl⟩
    cases env.block with
    | none => exact ends_rollbackBoth joining reserving state.pipe.freed state.pipe.bytes
    | some address =>
      refine ends_loadPipe joining reserving state.pipe.freed (fun _ => 0) (Cpu.foreground_interrupts front) ?_ ?_
      · rw [update_of_ne apart, update_self, Slot.reserved]
      · rw [update_self, Slot.reserved]
  · exact unchanged

/-! With every slot in use nothing is admitted. -/

section
variable (full : ∀ i, i < maxProcs → (state.slots i).state ≠ .free)
include full

lemma procSpawnImage_full (args : SpawnArgs) (env : SpawnEnv) :
    Ends Allowed (procSpawnImage args env) state fun _ next => next = state := by
  have nobody : ((List.range maxProcs).find? fun i => (state.slots i).state = .free) = none := by
    simpa [find?_eq_none] using full
  simp only [procSpawnImage, ends_bind, ends_get, ends_ite, ends_pure, nobody]
  refine ⟨fun _ => trivial, fun _ => ⟨fun _ => trivial, fun _ => ⟨fun _ => trivial, fun _ => ⟨fun _ => trivial, fun _ =>
    ⟨fun _ => trivial, fun _ => ?_⟩⟩⟩⟩⟩
  split <;> exact rfl

lemma procSpawnPipe_full (args : PipeArgs) (env : PipeSpawnEnv) :
    Ends Allowed (procSpawnPipe args env) state fun _ next => next = state := by
  have nobody : ((List.range maxProcs).filter fun i => (state.slots i).state = .free) = [] := by
    simpa [filter_eq_nil_iff] using full
  simp only [procSpawnPipe, ends_bind, ends_get, ends_ite, ends_pure, nobody]
  simp

end

end Rynor.Proc
