import Mathlib.Data.List.Perm.Subperm
import Rynor.Proofs.ProcSpawns

/-! Waiting and recycling as sequences of primitive changes. While a wait is suspended the
structural check would fail, and no thread that runs meanwhile reaches it; the chain of
owners is shorter than the table, so the recursion never exhausts the stack. -/

namespace Rynor.Proc
open Outcome List
open Function (update update_self update_of_ne)
variable {state next : State} {i x y j c depth : Nat}

lemma Joined.ended (joined : Joined state i) (sound : Sound state) : (state.slots i).state.Ended := by
  obtain ⟨inside, held, idle⟩ := joined
  refine (sound.tables.slot i inside).ended held fun active => ?_
  rw [(sound.tables.slot i inside).active active] at idle
  cases idle

/-- The slots whose workers are joined, and their records, are as before. -/
structure Kept (state next : State) : Prop where
  joined : ∀ j, Joined next j ↔ Joined state j
  slot : ∀ j, Joined state j → next.slots j = state.slots j

lemma Kept.refl (state : State) : Kept state state := ⟨fun _ => Iff.rfl, fun _ _ => rfl⟩

lemma Kept.trans (first : Kept state mid) (second : Kept mid next) : Kept state next :=
  ⟨fun j => (second.joined j).trans (first.joined j), fun j joined =>
    (second.slot j ((first.joined j).mpr joined)).trans (first.slot j joined)⟩

lemma Calm.kept (calm : Calm state next) (sound : Sound state) : Kept state next :=
  ⟨calm.joined, fun j joined => calm.settled j (joined.ended sound).ne_active⟩

/-- A slot whose worker is not joined may change, as long as that stays so. -/
lemma Kept.set {slot} (changed : next.slots = update state.slots i slot)
    (before : (state.slots i).workerValid = true) (after : slot.workerValid = true) : Kept state next := by
  refine ⟨fun j => ?_, fun j joined => ?_⟩
  · by_cases here : j = i
    · simp only [Joined, changed, here, update_self, before, after, Bool.true_eq_false, and_false]
    · simp only [Joined, changed, update_of_ne here]
  · have other : j ≠ i := by
      rintro rfl
      rw [joined.2.2] at before
      cases before
    rw [changed, update_of_ne other]

/-- A wait is suspended: the worker of `x` is joined and that of its child `y` is awaited. -/
structure Suspended (state : State) (x y : Nat) : Prop where
  joined : Joined state x
  inside : y < maxProcs
  ended : (state.slots y).state.Ended
  owner : (state.slots y).owner = (x : Int)
  valid : (state.slots y).workerValid = true

lemma Suspended.apart (suspended : Suspended state x y) : x ≠ y := by
  rintro rfl
  have idle := suspended.joined.2.2
  rw [suspended.valid] at idle
  cases idle

lemma Suspended.calm (suspended : Suspended state x y) (calm : Calm state next) : Suspended next x y := by
  have same := calm.settled y suspended.ended.ne_active
  exact ⟨(calm.joined x).mpr suspended.joined, suspended.inside, by rw [same]; exact suspended.ended, by
    rw [same]; exact suspended.owner,
    by rw [same]; exact suspended.valid⟩

/-- The slot `i` with its worker joined. -/
def joinedAt (state : State) (i : Nat) : State :=
  { state with
    threads := update state.threads (state.slots i).worker none,
    slots := update state.slots i { state.slots i with workerValid := false } }

/-- The slot `i` freed, with its context `c`. -/
def recycledAt (state : State) (i c : Nat) : State :=
  { state with
    contexts := update state.contexts c Context.empty,
    slots := update state.slots i (state.slots i).recycled,
    reaped := state.reaped ++ [(i, (state.slots i).gen)] }

lemma joinedAt_slots (other : j ≠ i) : (joinedAt state i).slots j = state.slots j :=
  update_of_ne other _ _

lemma recycledAt_slots (other : j ≠ i) : (recycledAt state i c).slots j = state.slots j :=
  update_of_ne other _ _

lemma joinedAt_joined (inside : i < maxProcs) (held : (state.slots i).state ≠ .free) (j : Nat) :
    Joined (joinedAt state i) j ↔ Joined state j ∨ j = i := by
  by_cases here : j = i
  · subst here
    simp only [Joined, joinedAt, update_self, or_true, iff_true]
    exact ⟨inside, held, trivial⟩
  · simp only [Joined, joinedAt_slots here, here, or_false]

lemma recycledAt_joined (j : Nat) : Joined (recycledAt state i c) j ↔ Joined state j ∧ j ≠ i := by
  by_cases here : j = i
  · subst here
    simp only [Joined, recycledAt, update_self, Slot.recycled, ne_eq, not_true_eq_false, false_and, and_false]
  · simp only [Joined, recycledAt_slots here, ne_eq, here, not_false_eq_true, and_true]

/-- Room for the recursion: the slots already joined are distinct and count against the depth. -/
def Deep (depth : Nat) (state : State) : Prop :=
  ∃ callers : List Nat, callers.Nodup ∧ (∀ j ∈ callers, Joined state j) ∧ maxProcs < depth + callers.length

lemma Deep.positive : ¬Deep 0 state := by
  rintro ⟨callers, distinct, joined, room⟩
  have within : callers ⊆ List.range maxProcs := fun j member => mem_range.mpr (joined j member).1
  have short := (subperm_of_subset distinct within).length_le
  rw [length_range] at short
  omega

lemma Deep.kept (deep : Deep depth state) (kept : Kept state next) : Deep depth next := by
  obtain ⟨callers, distinct, joined, room⟩ := deep
  exact ⟨callers, distinct, fun j member => (kept.joined j).mpr (joined j member), room⟩

lemma Deep.enter (deep : Deep (depth + 1) state) (fresh : ¬Joined state i)
    (joined : ∀ j, Joined next j ↔ Joined state j ∨ j = i) : Deep depth next := by
  obtain ⟨callers, distinct, already, room⟩ := deep
  refine ⟨i :: callers, nodup_cons.mpr ⟨fun member => fresh (already i member), distinct⟩, fun j member => ?_, ?_⟩
  · rcases mem_cons.mp member with rfl | member
    · exact (joined j).mpr (.inr rfl)
    · exact (joined j).mpr (.inl (already j member))
  · simp only [length_cons]
    omega

section
variable {ι : Type} {perform : Option ι → ProcM Bool} {env : FreeEnv} {grows : State → State → Prop}
variable {state : State} {i slot x y : Nat}

/-- What a yield may do, over a relation between states that contains every edit. -/
structure Yields (perform : Option ι → ProcM Bool) (grows : State → State → Prop) : Prop where
  refl : ∀ state, grows state state
  trans : ∀ {state mid next}, grows state mid → grows mid next → grows state next
  edit : ∀ {state next}, Edit state next → grows state next
  sound : ∀ {state next}, grows state next → Sound state → Sound next
  yield : ∀ {state x y}, Sound state → Suspended state x y → ∀ turn,
    Ends Allowed (perform turn) state fun _ next => grows state next ∧ Calm state next

/-- The worker of `y`, a child of `x`, is joined, and the slots joined before keep their records. -/
structure Joins (grows : State → State → Prop) (state : State) (x y : Nat) (next : State) : Prop where
  owner : (next.slots y).owner = (x : Int)
  grown : grows state next
  fresh : ¬Joined state y
  joined : ∀ j, Joined next j ↔ Joined state j ∨ j = y
  slot : ∀ j, Joined state j → next.slots j = state.slots j

lemma ends_threadJoin {cpu id} {post : Bool → State → Prop} (refused : post false state)
    (done : ∀ slot, state.threads id = some ⟨slot, .exited⟩ →
        post true { state with threads := update state.threads id none }) :
    Ends Allowed (threadJoin cpu id) state post := by
  simp only [threadJoin, ends_bind, ends_get, ends_ite, ends_pure]
  refine ⟨fun _ => refused, fun _ => ?_⟩
  split
  next slot exited => exact done slot exited
  · exact refused

lemma edit_join (sound : Sound state) (inside : i < maxProcs) (ended : (state.slots i).state.Ended)
    (valid : (state.slots i).workerValid = true)
    (exited : state.threads (state.slots i).worker = some ⟨slot, .exited⟩) :
    Edit state (joinedAt state i) := by
  obtain ⟨thread, here, mine, -⟩ := sound.workers.worker i inside valid
  rw [exited] at here
  cases here
  exact .join i inside ended valid (mine ▸ exited)

lemma Suspended.fresh (suspended : Suspended state x y) : ¬Joined state y := by
  rintro ⟨-, -, idle⟩
  rw [suspended.valid] at idle
  cases idle

section
variable (yields : Yields perform grows)
include yields

lemma ends_joinLoop (turns : Nat) (rest : List ι) (sound : Sound state) (suspended : Suspended state x y) :
    Ends Allowed (joinLoop perform env y turns rest) state fun reply next => reply.1 = true →
    Joins grows state x y next := by
  induction turns generalizing state rest with
  | zero => intro no; cases no
  | succ turns ih =>
    simp only [joinLoop, ends_bind, ends_get]
    refine ends_threadJoin ?_ fun slot exited => ?_
    · simp only [Bool.false_eq_true, if_false, ends_bind]
      refine (yields.yield sound suspended _).mono fun more next moved => ?_
      obtain ⟨grown, calm⟩ := moved
      simp only [ends_ite, ends_pure]
      refine ⟨fun _ => (by simp), fun _ => ?_⟩
      refine (ih rest.tail (yields.sound grown sound) (suspended.calm calm)).mono fun reply last posted done => ?_
      obtain ⟨owner, later, -, joined, same⟩ := posted done
      have kept := calm.kept sound
      refine ⟨owner, yields.trans grown later, suspended.fresh, fun j => by rw [joined, kept.joined], fun j held => ?_⟩
      exact (same j ((kept.joined j).mpr held)).trans (kept.slot j held)
    · simp only [if_true, ends_bind, ends_setSlot, ends_pure]
      refine ends_require (by decide) fun _ _ => ?_
      refine ⟨by simp only [update_self, suspended.owner],
        yields.edit (edit_join sound suspended.inside suspended.ended suspended.valid exited), suspended.fresh,
        joinedAt_joined suspended.inside suspended.ended.ne_free, fun j held => joinedAt_slots ?_⟩
      rintro rfl
      exact suspended.fresh held

lemma ends_joinWorker (rest : List ι) (sound : Sound state)
    (joined : Joined state x) (inside : y < maxProcs) (ended : (state.slots y).state.Ended)
    (owner : (state.slots y).owner = (x : Int)) :
    Ends Allowed (joinWorker perform env y rest) state fun reply next => reply.1 = true →
    Joins grows state x y next := by
  simp only [joinWorker, ends_bind, ends_get, ends_ite, ends_pure]
  refine ⟨fun _ => (by simp), fun valid => ends_joinLoop yields _ _ sound ⟨joined, inside, ended, owner, ?_⟩⟩
  simpa using valid

/-- The live children go to the kernel, the others are reaped. -/
lemma ends_cleanupChildren
    (reaps : ∀ {state : State} {y : Nat} (rest : List ι), Sound state → Joined state x → Deep (depth + 1) state →
      y < maxProcs →
      (state.slots y).state.Ended → (state.slots y).owner = (x : Int) →
      Ends Allowed (reap y rest) state fun reply next => reply.1 = true → grows state next ∧ Kept state next)
    (pending : List Nat) (rest : List ι) (sound : Sound state) (joined : Joined state x) (deep : Deep (depth + 1) state)
    (inside : ∀ j ∈ pending, j < maxProcs) :
    Ends Allowed (cleanupChildren reap x pending rest) state fun reply next => reply.1 = true → grows state next ∧
    Kept state next := by
  induction pending generalizing state rest with
  | nil => exact fun _ => ⟨yields.refl state, .refl state⟩
  | cons y pending ih =>
    have within := inside y mem_cons_self
    have later := fun j (member : j ∈ pending) => inside j (mem_cons_of_mem y member)
    -- what the rest of the loop adds to a step that keeps the joined slots
    have onwards : ∀ {mid : State} (rest : List ι), grows state mid → Kept state mid →
        Ends Allowed (cleanupChildren reap x pending rest) mid fun reply next => reply.1 = true → grows state next ∧
          Kept state next := by
      intro mid rest grown kept
      refine (ih rest (yields.sound grown sound) ((kept.joined x).mpr joined) (deep.kept kept) later).mono fun reply
        next posted done => ?_
      obtain ⟨further, same⟩ := posted done
      exact ⟨yields.trans grown further, kept.trans same⟩
    simp only [cleanupChildren, ends_bind, ends_get, ends_ite]
    refine ⟨fun _ => onwards rest (yields.refl state) (.refl state), fun child => ⟨fun live => ?_, fun terminal => ?_⟩⟩
    · have active : (state.slots y).state = .active := by
        simpa [(sound.tables.slot y within).not_loading] using live
      have valid := (sound.tables.slot y within).active active
      simp only [reparent, ends_bind, ends_get, ends_set]
      exact onwards rest (yields.edit (.reparent y within active)) (.set rfl valid valid)
    · simp only [Bool.or_eq_true, decide_eq_true_eq, not_or, not_not] at child terminal
      have ended := (sound.tables.slot y within).ended child.1 terminal.1
      refine (reaps rest sound joined deep within ended child.2).mono fun reply next posted => ?_
      refine ⟨fun _ => (by simp), fun reaped => ?_⟩
      obtain ⟨grown, kept⟩ := posted (by simpa using reaped)
      exact onwards _ grown kept

end

/-- A slot is freed by a last step from a state in which it has no children. -/
structure Frees (grows : State → State → Prop) (state : State) (i : Nat) (next : State) : Prop where
  freed : ∃ mid c, grows state mid ∧ Kept state mid ∧ (mid.slots i).ctx = some c ∧
    (∀ j, j < maxProcs → (mid.slots j).state ≠ .free → (mid.slots j).owner ≠ (i : Int)) ∧ next = recycledAt mid i c

lemma ends_freeJoined (yields : Yields perform grows) (depth : Nat) (rest : List ι) (sound : Sound state)
    (joined : Joined state i) (deep : Deep depth state) :
    Ends Allowed (freeJoined perform env depth i rest) state fun reply next => reply.1 = true →
    Frees grows state i next := by
  induction depth generalizing state i rest with
  | zero => exact absurd deep Deep.positive
  | succ depth ih =>
    simp only [freeJoined, cleanupOwned, ends_bind]
    refine (ends_cleanupChildren yields (fun {state y} rest sound joined deep inside ended owner => ?_) _ _ sound
      joined deep
      fun j member => mem_range.mp member).mono fun reply mid posted => ?_
    · simp only [ends_bind]
      refine (ends_joinWorker yields rest sound joined inside ended owner).mono fun reply mid joins => ?_
      simp only [ends_ite, ends_pure]
      refine ⟨fun _ => (by simp), fun success => ?_⟩
      obtain ⟨owner, grown, fresh, more, same⟩ := joins (by simpa using success)
      have sound' := yields.sound grown sound
      have mine : Joined mid y := (more y).mpr (.inr rfl)
      refine (ih reply.2 sound' mine (deep.enter fresh more)).mono fun reply next frees done => ?_
      obtain ⟨last, c, further, kept, ctx, childless, rfl⟩ := (frees done).freed
      have joined' := (kept.joined y).mpr mine
      have child : (last.slots y).owner ≠ ownerKernel := by
        rw [kept.slot y mine, owner, ownerKernel]
        omega
      refine ⟨yields.trans grown (yields.trans further (yields.edit (.recycle y c child joined' ctx childless))),
        fun j => ?_, fun j held => ?_⟩
      · rw [recycledAt_joined, kept.joined, more]
        constructor
        · rintro ⟨held | rfl, other⟩
          · exact held
          · exact absurd rfl other
        · intro held
          refine ⟨.inl held, ?_⟩
          rintro rfl
          exact fresh held
      · have other : j ≠ y := by
          rintro rfl
          exact fresh held
        rw [recycledAt_slots other, kept.slot j ((more j).mpr (.inl held)), same j held]
    split
    · simp
    next cleaned =>
    obtain ⟨grown, kept⟩ := posted (by simpa using cleaned)
    simp only [ends_bind, ends_get, ends_pure, ends_ite]
    refine ⟨fun _ => (by simp), fun alone => ?_⟩
    have childless : ∀ j, j < maxProcs → (mid.slots j).state ≠ .free → (mid.slots j).owner ≠ (i : Int) := by
      simpa using alone
    split
    · simp
    next c ctx =>
    simp only [ends_bind, ends_ite, ends_pure]
    refine ends_userDestroy ⟨fun _ => (by simp), (by simp)⟩ ⟨(by simp), fun _ _ => ?_⟩
    exact ⟨mid, c, grown, kept, ctx, childless, rfl⟩

lemma ends_joinExited (front : env.cpu.foreground = true)
    (exited : state.threads (state.slots i).worker = some ⟨slot, .exited⟩)
    (holds : post (true, rest) (joinedAt state i)) :
    Ends Allowed (joinLoop perform env i (turns + 1) rest) state post := by
  simp only [joinLoop, threadJoin, ends_bind, ends_get, front, exited, Bool.not_true, Bool.false_eq_true, if_false,
    ends_pure, if_true]
  exact ends_require (by decide) fun _ => holds

/-- A wait that finds a terminal process frees its slot and publishes it, or the machine stops. -/
lemma ends_consume (yields : Yields perform grows)
    (schedule : List ι) (sound : Sound state) (steady : Steady state) (front : env.cpu.foreground = true)
    (asked : (state.slots i).owner = owner)
    (decoded : decode state handle = some i) (ended : (state.slots i).state.Ended)
    (exited : state.threads (state.slots i).worker = some ⟨slot, .exited⟩)
    (published : (state.slots i).status = some status) :
    Ends Allowed (consume perform env userCheck i handle owner status schedule) state fun _ next =>
    grows state next ∧ Steady next := by
  obtain ⟨inside, held, index, gen⟩ := decode_some decoded
  have valid : (state.slots i).workerValid = true := by
    cases valid : (state.slots i).workerValid with
    | true => rfl
    | false => exact absurd ⟨inside, held, valid⟩ (steady i)
  have edit := edit_join sound inside ended valid exited
  have sound' := edit.sound sound
  have alone : ∀ j, Joined (joinedAt state i) j ↔ j = i := by
    intro j
    rw [joinedAt_joined inside held]
    exact or_iff_right (steady j)
  simp only [consume, joinWorker, ends_bind, ends_get, valid, Bool.not_true, Bool.false_eq_true, if_false]
  refine ends_joinExited front exited (ends_require (by decide) fun _ => ?_)
  have deep : Deep maxProcs (joinedAt state i) := by
    refine ⟨[i], by simp, fun j member => ?_, Nat.lt_succ_self _⟩
    rw [alone]
    exact mem_singleton.mp member
  refine (ends_freeJoined yields maxProcs schedule sound' ((alone i).mpr rfl) deep).mono fun reply next frees => ?_
  refine ends_require (by decide) fun freed => ends_require (by decide) fun _ => ?_
  obtain ⟨mid, c, grown, kept, ctx, childless, rfl⟩ := (frees freed).freed
  have joined : Joined mid i := (kept.joined i).mpr ((alone i).mpr rfl)
  have settled : Steady (recycledAt mid i c) := by
    intro j still
    rw [recycledAt_joined, kept.joined, alone] at still
    exact still.2 still.1
  have midSound := yields.sound grown sound'
  have same : mid.slots i = { state.slots i with workerValid := false } := by
    rw [kept.slot i ((alone i).mpr rfl)]
    exact update_self ..
  have still : decode mid handle = some i := by
    subst index
    exact decode_of midSound.ready inside (by rw [same]; exact held) (by rw [same]; exact gen)
      (by rw [← gen]; exact (sound.tables.slot _ inside).gen)
  have shown : (mid.slots i).status = some status := by
    rw [same]
    exact published
  have delivered : Edit mid _ := .deliver i c handle owner status (by rw [same]; exact asked) joined ctx childless
    still shown
  refine ends_requireProcCheck ((delivered.sound midSound).procCheck settled (Cpu.foreground_interrupts front)) ?_
  exact ⟨yields.trans (yields.edit edit) (yields.trans grown (yields.edit delivered)), settled⟩

lemma procWait_moves (yields : Yields perform grows) (userCheck : Bool) (args : WaitArgs) (schedule : List ι)
    (sound : Sound state) (steady : Steady state) :
    Ends Allowed (procWait perform env userCheck args schedule) state fun _ next => grows state next ∧ Steady next := by
  have unchanged : grows state state ∧ Steady state := ⟨yields.refl state, steady⟩
  simp only [procWait, ends_bind, ends_get, ends_ite, ends_pure]
  refine ⟨fun _ => unchanged, fun entered => ?_⟩
  have front : env.cpu.foreground = true := by
    simp only [Bool.or_eq_true, Bool.not_eq_true', not_or, Bool.not_eq_false] at entered
    exact entered.1.1
  split
  · exact unchanged
  next i decoded =>
  obtain ⟨inside, held, -, -⟩ := decode_some decoded
  simp only [ends_ite, ends_pure]
  refine ⟨fun _ => ⟨fun _ => unchanged, fun _ => unchanged⟩,
    fun _ => ⟨fun _ => unchanged, fun mine => ⟨fun _ => unchanged, fun spent => ?_⟩⟩⟩
  split
  · exact allowed_other (by decide)
  next thread found =>
  simp only [ends_ite, ends_pure]
  refine ⟨fun _ => unchanged, fun exited => ?_⟩
  split
  · exact unchanged
  next status published =>
  simp only [Bool.or_eq_true, decide_eq_true_eq, not_or] at spent
  obtain ⟨slot, phase⟩ := thread
  obtain rfl : phase = .exited := not_not.mp exited
  exact ends_consume yields schedule sound steady front (not_not.mp mine) decoded
    ((sound.tables.slot i inside).ended held spent.1) found published

end

end Rynor.Proc
