import Mathlib.Data.List.Nodup
import Rynor.Core.Thread
import Rynor.Lib.Outcome

/-! The thread table stays well-formed: what the structural check of the scheduler looks at,
as an invariant, and what each primitive change of the table keeps. -/

namespace Rynor.Sched
open Outcome List
open Function (update update_of_ne update_self)
variable {i next link : Nat} {h : Kstack} {frame : Frame}

variable {layout : Layout} {s s' : State}

/-- What the scheduler check asks for, and what its next run depends on. -/
structure Sound (layout : Layout) (s : State) : Prop where
  initialized : s.initialized = true
  inside : s.current < schedThreads
  running : ∀ i < schedThreads, (s.threads i).state = .running ↔ i = s.current
  root : (s.threads 0).state ≠ .free ∧ (s.threads 0).state ≠ .exited
  vacant : ∀ i < schedThreads, (s.threads i).state = .free → (s.threads i).id = 0 ∧ (s.threads i).stack = ⟨0, 0⟩
  known : ∀ i < schedThreads, (s.threads i).state ≠ .free → (s.threads i).id ≠ 0 ∧ (s.threads i).id < s.nextId
  backed : ∀ i < schedThreads, i ≠ 0 → (s.threads i).state ≠ .free →
    kstackValid s i (s.threads i).stack = true ∧ executable layout (s.threads i).entry = true
  distinct : ∀ i < schedThreads, ∀ j < schedThreads, (s.threads i).state ≠ .free → (s.threads j).state ≠ .free →
    (s.threads i).id = (s.threads j).id → i = j
  saved : ∀ i < schedThreads, (s.threads i).state = .ready → frameValid layout s i (s.threads i).saved = true
  linked : ∀ i < schedThreads, ∀ link, (s.threads i).user = some link → (s.links link).bound = true ∧
    (s.links link).context = true
  owners : ∀ i < schedThreads, ∀ j < schedThreads, ∀ link, (s.threads i).user = some link →
    (s.threads j).user = some link → i = j
  entered : ∀ link, s.mode = .user link → frameValid layout s s.current (s.links link).kernSave = true

section
variable (sound : Sound layout s)
include sound

lemma Sound.running_current : (s.threads s.current).state = .running :=
  (sound.running _ sound.inside).mpr rfl

lemma Sound.not_current (idle : (s.threads i).state ≠ .running) : i ≠ s.current := by
  rintro rfl
  exact idle sound.running_current

lemma Sound.slotOk (inside : i < schedThreads) : slotOk layout s i = true := by
  unfold Sched.slotOk
  simp only [Bool.and_eq_true]
  refine ⟨?_, ?_⟩
  · split
    · rfl
    rename_i link user
    have linked := sound.linked i inside link user
    rw [linked.1, linked.2]
    rfl
  split
  next free =>
    have vacant := sound.vacant i inside free
    simp [vacant.1, vacant.2]
  rename_i live
  have known := sound.known i inside live
  simp only [Bool.and_eq_true, bne_iff_ne, ne_eq, decide_eq_true_eq, Bool.or_eq_true, beq_iff_eq, all_eq_true,
    mem_range]
  refine ⟨⟨⟨⟨known, ?_⟩, ?_⟩, ?_⟩, ?_⟩
  · exact or_iff_not_imp_left.mpr fun other => sound.backed i inside other live
  · intro j before
    refine or_iff_not_imp_left.mpr fun used same => ?_
    exact absurd (sound.distinct i inside j (by omega) live used same) (by omega)
  · exact or_iff_not_imp_left.mpr fun running => (sound.running i inside).mp (not_not.mp running)
  · exact or_iff_not_imp_left.mpr fun ready => sound.saved i inside (not_not.mp ready)

lemma Sound.running_count : (List.range schedThreads).countP (fun i => (s.threads i).state = .running) = 1 := by
  rw [countP_congr (p := fun i => decide ((s.threads i).state = .running)) (q := fun i => i == s.current)]
  · exact count_eq_one_of_mem nodup_range (mem_range.mpr sound.inside)
  · intro i member
    simpa using sound.running i (mem_range.mp member)

lemma Sound.check : schedulerCheck layout s true = true := by
  have slots : (List.range schedThreads).all (Sched.slotOk layout s) = true :=
    all_eq_true.mpr fun i member => sound.slotOk (mem_range.mp member)
  simp only [schedulerCheck, sound.initialized, slots, sound.running_count, sound.running_current, sound.inside,
    Bool.true_and,
    decide_true, beq_self_eq_true, Bool.and_eq_true, bne_iff_ne]
  exact sound.root

end

/-! Stacks and frames. -/

lemma kstackValid_congr (records : s'.records = s.records) : kstackValid s' i h = kstackValid s i h := by
  rw [kstackValid, records]
  rfl

lemma bounds_congr (stack : (s'.threads i).stack = (s.threads i).stack)
    (valid : i ≠ 0 → kstackValid s' i (s.threads i).stack = kstackValid s i (s.threads i).stack) :
    bounds s' i = bounds s i := by
  unfold bounds
  split
  · rfl
  next other => rw [stack, valid other]

lemma frameValid_congr (same : bounds s' i = bounds s i) : frameValid layout s' i f = frameValid layout s i f := by
  unfold frameValid
  rw [same]

/-- A change of one record leaves the handles of the other owners valid. -/
lemma kstackValid_update (records : s'.records = update s.records slot record)
    (foreign : (s.records slot).owner ≠ some i) (valid : kstackValid s i h = true) : kstackValid s' i h = true := by
  simp only [kstackValid, Bool.and_eq_true, decide_eq_true_eq] at valid ⊢
  have apart : h.slot ≠ slot := by
    rintro rfl
    exact foreign valid.1.2
  rw [records, update_of_ne apart]
  exact valid

section
variable (valid : i ≠ 0 → kstackValid s i (s.threads i).stack = true)
include valid

lemma bounds_isSome : ∃ lo, bounds s i = some (lo, lo + kstackPayloadBytes) := by
  unfold bounds
  split
  · exact ⟨kernelStackStart, rfl⟩
  rename_i other
  rw [if_pos (valid other)]
  exact ⟨_, rfl⟩

lemma frameValid_saved (text : executable layout rip = true) (allowed : flags &&& 2 ≠ 0 ∧ flags &&& ~~~savedFlags = 0) :
    frameValid layout s i ⟨rip, cpuCodeSelector, flags, stackPointer s i regs, cpuDataSelector, 0, 0⟩ = true := by
  obtain ⟨lo, limits⟩ := bounds_isSome valid
  have room := regs.room
  simp only [frameValid, stackPointer, limits, Option.map_some, Option.getD_some, text, allowed.2, beq_self_eq_true,
    Bool.true_or,
    Bool.and_true, Bool.and_eq_true, decide_eq_true_eq, bne_iff_ne]
  refine ⟨⟨?_, ?_⟩, allowed.1⟩ <;> unfold frameBytes kstackPayloadBytes at * <;> omega

end

section
variable (sound : Sound layout s)
include sound

lemma Sound.stackValid (i : Nat) (inside : i < schedThreads) (live : (s.threads i).state ≠ .free) :
    i ≠ 0 → kstackValid s i (s.threads i).stack = true := fun other => (sound.backed i inside other live).1

lemma Sound.live_current : (s.threads s.current).state ≠ .free := by
  rw [sound.running_current]
  decide

lemma frameValid_switch (kernel : s.mode = .kernel) (regs : Registers) :
    frameValid layout s s.current (switchFrame layout s regs) = true := by
  rw [switchFrame, currentPointer, kernel]
  exact frameValid_saved (sound.stackValid _ sound.inside sound.live_current)
    (by simp [executable, layout.switchResume_in_text]) regs.flags_ok

lemma frameValid_enter (regs : Registers) : frameValid layout s s.current (enterFrame layout s regs) = true := by
  refine frameValid_saved (sound.stackValid _ sound.inside sound.live_current)
    (by simp [executable, layout.userKernResume_in_text]) ⟨?_, ?_⟩
  · rw [BitVec.and_assoc, show savedFlags &&& 2 = 2 by decide]
    exact regs.flags_ok.1
  · rw [BitVec.and_assoc, show savedFlags &&& ~~~savedFlags = 0 by decide]
    exact BitVec.and_zero

end

/-! Selections. -/

/-- The current thread gives the processor to `next`. -/
structure Selects (s : State) (next : Nat) (exiting : Bool) (frame : Frame) (s' : State) : Prop where
  picked : pickNext s = some next
  others : ∀ i, i ≠ s.current → i ≠ next → s'.threads i = s.threads i
  old : s'.threads s.current = { s.threads s.current with state := if exiting then .exited else .ready, saved := frame }
  new : s'.threads next = { s.threads next with state := .running }
  current : s'.current = next
  rest : s' = { s with threads := s'.threads, current := s'.current, mode := s'.mode }

lemma Sound.picked (sound : Sound layout s) (picked : pickNext s = some next) :
    next < schedThreads ∧ (s.threads next).state = .ready ∧ next ≠ s.current := by
  obtain ⟨inside, ready, other, -⟩ := RoundRobin.pick_some sound.inside picked
  exact ⟨inside, by simpa using ready, other⟩

namespace Selects
variable {next : Nat} {exiting : Bool} {frame : Frame}

section
variable (selects : Selects s next exiting frame s')
include selects

lemma cases (i : Nat) : (i = next ∧ s'.threads i = { s.threads i with state := .running }) ∨
    (i = s.current ∧ s'.threads i = { s.threads i with state := if exiting then .exited else .ready, saved := frame }) ∨
      s'.threads i = s.threads i := by
  by_cases new : i = next
  · exact .inl ⟨new, new ▸ selects.new⟩
  by_cases old : i = s.current
  · exact .inr (.inl ⟨old, old ▸ selects.old⟩)
  · exact .inr (.inr (selects.others i old new))

lemma fields (i : Nat) : (s'.threads i).id = (s.threads i).id ∧ (s'.threads i).stack = (s.threads i).stack ∧
      (s'.threads i).entry = (s.threads i).entry ∧ (s'.threads i).user = (s.threads i).user := by
  rcases selects.cases i with ⟨_, same⟩ | ⟨_, same⟩ | same <;> rw [same] <;> exact ⟨rfl, rfl, rfl, rfl⟩

lemma bounds_eq (i : Nat) : bounds s' i = bounds s i := by
  have stack := (selects.fields i).2.1
  exact bounds_congr stack fun _ => by rw [selects.rest]; rfl

lemma state_of_ne (old : i ≠ s.current) (new : i ≠ next) : (s'.threads i).state = (s.threads i).state := by
  rw [selects.others i old new]

lemma live (sound : Sound layout s) (used : (s'.threads i).state ≠ .free) : (s.threads i).state ≠ .free := by
  rcases selects.cases i with ⟨rfl, _⟩ | ⟨rfl, _⟩ | same
  · rw [(sound.picked selects.picked).2.1]
    decide
  · exact sound.live_current
  · exact same ▸ used

/-- Free slots stay free: only the two threads of the switch change their states. -/
lemma still_free (free : (s'.threads i).state = .free) : s'.threads i = s.threads i := by
  rcases selects.cases i with ⟨_, same⟩ | ⟨_, same⟩ | same
  · rw [same] at free
    cases free
  · rw [same] at free
    cases exiting <;> cases free
  · exact same

end

end Selects

lemma Sound.select (sound : Sound layout s)
    (selects : Selects s next exiting frame s') (stays : exiting = false → frameValid layout s s.current frame = true)
    (leaves : exiting = true → s.current ≠ 0) (kernel : s'.mode = .kernel) : Sound layout s' := by
  obtain ⟨inside, ready, other⟩ := sound.picked selects.picked
  have rest := selects.rest
  have records : s'.records = s.records := by rw [rest]
  have links : s'.links = s.links := by rw [rest]
  have nextId : s'.nextId = s.nextId := by rw [rest]
  have fields := selects.fields
  have oldState : (s'.threads s.current).state = if exiting then .exited else .ready := by rw [selects.old]
  have newState : (s'.threads next).state = .running := by rw [selects.new]
  have live : ∀ i, (s'.threads i).state ≠ .free → (s.threads i).state ≠ .free := fun _ => selects.live sound
  refine ⟨?_, ?_, ?_, ?_, ?_, ?_, ?_, ?_, ?_, ?_, ?_, ?_⟩
  · rw [rest]
    exact sound.initialized
  · rw [selects.current]
    exact inside
  · intro i below
    rw [selects.current]
    by_cases new : i = next
    · simp only [new, newState]
    by_cases old : i = s.current
    · subst old
      rw [oldState]
      cases exiting <;> simp [new]
    · rw [selects.state_of_ne old new, sound.running i below]
      simp [old, new]
  · by_cases new : 0 = next
    · rw [new, newState]
      exact ⟨by decide, by decide⟩
    by_cases old : 0 = s.current
    · cases exiting with
      | true => exact absurd old.symm (leaves rfl)
      | false =>
        rw [old, oldState]
        exact ⟨by decide, by decide⟩
    · rw [selects.state_of_ne old new]
      exact sound.root
  · intro i below free
    have same := selects.still_free free
    rw [same] at free ⊢
    exact sound.vacant i below free
  · intro i below used
    rw [(fields i).1, nextId]
    exact sound.known i below (live i used)
  · intro i below nonzero used
    rw [(fields i).2.1, (fields i).2.2.1, kstackValid_congr records]
    exact sound.backed i below nonzero (live i used)
  · intro i below j within usedI usedJ same
    rw [(fields i).1, (fields j).1] at same
    exact sound.distinct i below j within (live i usedI) (live j usedJ) same
  · intro i below waiting
    rw [frameValid_congr (selects.bounds_eq i)]
    by_cases new : i = next
    · rw [new, newState] at waiting
      cases waiting
    by_cases old : i = s.current
    · subst old
      rw [selects.old]
      cases exiting with
      | true =>
        rw [oldState] at waiting
        cases waiting
      | false => exact stays rfl
    · rw [selects.others i old new] at waiting ⊢
      exact sound.saved i below waiting
  · intro i below link user
    rw [(fields i).2.2.2] at user
    rw [links]
    exact sound.linked i below link user
  · intro i below j within link usedI usedJ
    rw [(fields i).2.2.2] at usedI
    rw [(fields j).2.2.2] at usedJ
    exact sound.owners i below j within link usedI usedJ
  · intro link user
    rw [kernel] at user
    cases user

/-! Changes of the current thread and of the links. -/

/-- Nothing changes but links, users and what the running thread has saved. -/
structure Adjusts (s s' : State) : Prop where
  fields : ∀ i, (s'.threads i).id = (s.threads i).id ∧ (s'.threads i).state = (s.threads i).state ∧
    (s'.threads i).stack = (s.threads i).stack ∧ (s'.threads i).entry = (s.threads i).entry
  saved : ∀ i, i ≠ s.current → (s'.threads i).saved = (s.threads i).saved
  current : s'.current = s.current
  nextId : s'.nextId = s.nextId
  initialized : s'.initialized = s.initialized
  records : s'.records = s.records

lemma Adjusts.frameValid_eq (adjusts : Adjusts s s') (i : Nat) (frame : Frame) :
    frameValid layout s' i frame = frameValid layout s i frame :=
  frameValid_congr (bounds_congr (adjusts.fields i).2.2.1 fun _ => kstackValid_congr adjusts.records)

lemma Sound.adjust (sound : Sound layout s) (adjusts : Adjusts s s')
    (linked : ∀ i < schedThreads, ∀ link, (s'.threads i).user = some link → (s'.links link).bound = true ∧
      (s'.links link).context = true)
    (owners : ∀ i < schedThreads, ∀ j < schedThreads, ∀ link, (s'.threads i).user = some link →
      (s'.threads j).user = some link → i = j)
    (entered : ∀ link, s'.mode = .user link → frameValid layout s s.current (s'.links link).kernSave = true) :
    Sound layout s' := by
  have fields := adjusts.fields
  refine ⟨adjusts.initialized.trans sound.initialized, adjusts.current ▸ sound.inside, ?_, ?_, ?_, ?_, ?_, ?_, ?_,
    linked, owners, ?_⟩
  · simpa only [fields, adjusts.current] using sound.running
  · simpa only [fields] using sound.root
  · simpa only [fields] using sound.vacant
  · simpa only [fields, adjusts.nextId] using sound.known
  · simpa only [fields, kstackValid_congr adjusts.records] using sound.backed
  · simpa only [fields] using sound.distinct
  · intro i inside ready
    rw [(fields i).2.1] at ready
    rw [adjusts.frameValid_eq, adjusts.saved i (sound.not_current (by rw [ready]; decide))]
    exact sound.saved i inside ready
  · intro link user
    rw [adjusts.frameValid_eq, adjusts.current]
    exact entered link user

lemma adjusts_current (frame : Frame) (user : Option Nat) (links : Nat → UserLink) (mode : Mode) :
    Adjusts s { s with threads := update s.threads s.current { s.threads s.current with saved := frame, user }, links, mode } where
  fields i := by by_cases here : i = s.current <;> simp [here]
  saved i other := by simp [other]
  current := rfl
  nextId := rfl
  initialized := rfl
  records := rfl

lemma user_update (i : Nat) : (update s.threads s.current { s.threads s.current with saved := frame, user } i).user =
      if i = s.current then user else (s.threads i).user := by
  by_cases here : i = s.current <;> simp [here]

section
variable (sound : Sound layout s)
include sound

/-- Its saved frame says nothing while a thread runs. -/
lemma Sound.park (frame : Frame) :
    Sound layout { s with threads := update s.threads s.current { s.threads s.current with saved := frame } } := by
  have users : ∀ i, (update s.threads s.current { s.threads s.current with saved := frame } i).user =
    (s.threads i).user := by
    intro i
    by_cases here : i = s.current <;> simp [here]
  refine sound.adjust (adjusts_current frame (s.threads s.current).user s.links s.mode) ?_ ?_ sound.entered
  · intro i inside link user
    exact sound.linked i inside link ((users i).symm.trans user)
  · intro i inside j within link usedI usedJ
    exact sound.owners i inside j within link ((users i).symm.trans usedI) ((users j).symm.trans usedJ)

lemma Sound.toKernel : Sound layout { s with mode := .kernel } :=
  sound.adjust ⟨fun _ => ⟨rfl, rfl, rfl, rfl⟩, fun _ _ => rfl, rfl, rfl, rfl, rfl⟩ sound.linked sound.owners
    fun _ user => nomatch user

lemma Sound.attach (loose : (s.links link).bound = false) (context : (s.links link).context = true) :
    Sound layout { s with
      threads := update s.threads s.current { s.threads s.current with user := some link }
      links := update s.links link { s.links link with bound := true } } := by
  have free : ∀ i < schedThreads, (s.threads i).user ≠ some link := by
    intro i inside user
    rw [(sound.linked i inside link user).1] at loose
    cases loose
  refine sound.adjust (adjusts_current (s.threads s.current).saved (some link) _ s.mode) ?_ ?_ ?_
  · intro i inside other user
    rw [user_update] at user
    by_cases same : other = link
    · subst same
      simp [context]
    simp only [update_of_ne same]
    split at user
    · exact absurd (Option.some.inj user).symm same
    · exact sound.linked i inside other user
  · intro i inside j within other usedI usedJ
    rw [user_update] at usedI usedJ
    split at usedI <;> split at usedJ
    next first second => rw [first, second]
    next => exact absurd (usedJ.trans usedI.symm) (free j within)
    next => exact absurd (usedI.trans usedJ.symm) (free i inside)
    next => exact sound.owners i inside j within other usedI usedJ
  · intro other user
    have entered := sound.entered other user
    by_cases same : other = link <;> simp_all

lemma Sound.detach (user : (s.threads s.current).user = some link) : Sound layout { s with
      threads := update s.threads s.current { s.threads s.current with user := none }
      links := update s.links link { s.links link with bound := false } } := by
  refine sound.adjust (adjusts_current (s.threads s.current).saved none _ s.mode) ?_ ?_ ?_
  · intro i inside other used
    rw [user_update] at used
    split at used
    · cases used
    rename_i elsewhere
    have apart : other ≠ link := by
      rintro rfl
      exact elsewhere (sound.owners i inside _ sound.inside other used user)
    simp only [update_of_ne apart]
    exact sound.linked i inside other used
  · intro i inside j within other usedI usedJ
    rw [user_update] at usedI usedJ
    split at usedI
    · cases usedI
    split at usedJ
    · cases usedJ
    exact sound.owners i inside j within other usedI usedJ
  · intro other user
    have entered := sound.entered other user
    by_cases same : other = link <;> simp_all

lemma Sound.enter (link : Nat) (regs : Registers) : Sound layout { s with
      links := update s.links link { s.links link with kernSave := enterFrame layout s regs }
      mode := .user link } := by
  have kept : ∀ other, (update s.links link { s.links link with kernSave := enterFrame layout s regs } other).bound =
      (s.links other).bound ∧ (update s.links link
        { s.links link with kernSave := enterFrame layout s regs } other).context =
      (s.links other).context := by
    intro other
    by_cases same : other = link <;> simp [same]
  refine sound.adjust ⟨fun _ => ⟨rfl, rfl, rfl, rfl⟩, fun _ _ => rfl, rfl, rfl, rfl, rfl⟩ ?_ sound.owners ?_
  · intro i inside other user
    rw [(kept other).1, (kept other).2]
    exact sound.linked i inside other user
  · intro other entered
    cases entered
    simp only [update_self]
    exact frameValid_enter sound regs

/-! New and reaped threads. -/

/-- One slot other than the current one gets another thread. -/
lemma Sound.replace {t nextId generation thread} {records : Nat → StackRecord}
    (replaced : s' = { s with threads := update s.threads t thread, records, nextId, generation })
    (other : t ≠ s.current) (root : t ≠ 0) (idle : thread.state ≠ .running) (later : s.nextId ≤ nextId)
    (foreign : ∀ i h, i ≠ t → kstackValid s i h = true → kstackValid s' i h = true)
    (vacant : thread.state = .free → thread.id = 0 ∧ thread.stack = ⟨0, 0⟩)
    (known : thread.state ≠ .free → thread.id ≠ 0 ∧ thread.id < nextId ∧ s.nextId ≤ thread.id)
    (backed : thread.state ≠ .free → kstackValid s' t thread.stack = true ∧ executable layout thread.entry = true)
    (saved : thread.state = .ready → frameValid layout s' t thread.saved = true) (user : thread.user = none ∨
      thread.user = (s.threads t).user) : Sound layout s' := by
  have here : s'.threads t = thread := by simp only [replaced, update_self]
  have elsewhere : ∀ i, i ≠ t → s'.threads i = s.threads i := fun i apart => by simp only [replaced, update_of_ne apart]
  have current : s'.current = s.current := by rw [replaced]
  have nextIds : s'.nextId = nextId := by rw [replaced]
  have users : ∀ i link, (s'.threads i).user = some link → (s.threads i).user = some link := by
    intro i link used
    by_cases apart : i = t
    · subst apart
      rw [here] at used
      rcases user with none | same
      · rw [none] at used
        cases used
      · rwa [same] at used
    · rwa [elsewhere i apart] at used
  have limits : ∀ i, i ≠ t → i < schedThreads → (s.threads i).state ≠ .free → bounds s' i = bounds s i := by
    intro i apart inside live
    refine bounds_congr (by rw [elsewhere i apart]) fun zero => ?_
    have valid := (sound.backed i inside zero live).1
    rw [valid, foreign i _ apart valid]
  refine ⟨?_, ?_, ?_, ?_, ?_, ?_, ?_, ?_, ?_, ?_, ?_, ?_⟩
  · rw [replaced]
    exact sound.initialized
  · rw [current]
    exact sound.inside
  · intro i inside
    rw [current]
    by_cases apart : i = t
    · subst apart
      simp [here, idle, other]
    · rw [elsewhere i apart]
      exact sound.running i inside
  · rw [elsewhere 0 root.symm]
    exact sound.root
  · intro i inside
    by_cases apart : i = t
    · subst apart
      rw [here]
      exact vacant
    · rw [elsewhere i apart]
      exact sound.vacant i inside
  · intro i inside live
    rw [nextIds]
    by_cases apart : i = t
    · subst apart
      rw [here] at live ⊢
      exact ⟨(known live).1, (known live).2.1⟩
    · rw [elsewhere i apart] at live ⊢
      exact ⟨(sound.known i inside live).1, lt_of_lt_of_le (sound.known i inside live).2 later⟩
  · intro i inside zero live
    by_cases apart : i = t
    · subst apart
      rw [here] at live ⊢
      exact backed live
    rw [elsewhere i apart] at live ⊢
    have held := sound.backed i inside zero live
    exact ⟨foreign i _ apart held.1, held.2⟩
  · intro i inside j within liveI liveJ same
    by_cases apartI : i = t <;> by_cases apartJ : j = t
    · rw [apartI, apartJ]
    · subst apartI
      rw [here] at liveI same
      rw [elsewhere j apartJ] at liveJ same
      have old := (sound.known j within liveJ).2
      have new := (known liveI).2.2
      omega
    · subst apartJ
      rw [here] at liveJ same
      rw [elsewhere i apartI] at liveI same
      have old := (sound.known i inside liveI).2
      have new := (known liveJ).2.2
      omega
    · rw [elsewhere i apartI] at liveI same
      rw [elsewhere j apartJ] at liveJ same
      exact sound.distinct i inside j within liveI liveJ same
  · intro i inside ready
    by_cases apart : i = t
    · subst apart
      rw [here] at ready ⊢
      exact saved ready
    rw [elsewhere i apart] at ready ⊢
    rw [frameValid_congr (limits i apart inside (by rw [ready]; decide))]
    exact sound.saved i inside ready
  · intro i inside link used
    have links : s'.links = s.links := by rw [replaced]
    rw [links]
    exact sound.linked i inside link (users i link used)
  · intro i inside j within link usedI usedJ
    exact sound.owners i inside j within link (users i link usedI) (users j link usedJ)
  · intro link entered
    have links : s'.links = s.links := by rw [replaced]
    have mode : s'.mode = s.mode := by rw [replaced]
    rw [links, current, frameValid_congr (limits _ other.symm sound.inside sound.live_current)]
    exact sound.entered link (mode ▸ entered)

end

end Rynor.Sched
