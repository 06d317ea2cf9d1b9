import Rynor.Proofs.SchedInvariant

/-! The scheduler's calls and interrupts: each keeps the invariant, none stops on a structural
check, and what each does to the threads that wait. -/

namespace Rynor.Sched
open Outcome List
open Function (update update_of_ne update_self update_idem)
variable {next i t : Nat} {exiting : Bool} {frame : Frame} {post : PUnit → State → Prop}

variable {layout : Layout} {s s' : State}

/-- A stop that is no verdict of the scheduler on its own table. -/
def Allowed (why : String) : Prop :=
  why ∉ ["state_or_context", "invalid_resume", "new_stack_bounds", "handoff_frame"]

instance : DecidablePred Allowed := fun _ => inferInstanceAs (Decidable (_ ∉ _))

/-- What an operation does to identifiers, to the cursor and to the threads that wait. -/
structure Moved (s : State) (event : Event) (s' : State) : Prop where
  grows : s.nextId ≤ s'.nextId
  ids : ∀ i, (s'.threads i).state ≠ .free → (s.threads i).state ≠ .free ∧ (s'.threads i).id = (s.threads i).id ∨
    s.nextId ≤ (s'.threads i).id
  waiting : ∀ i, (s.threads i).state = .ready → i ≠ s'.current → (s'.threads i).state = .ready ∧
    (s'.threads i).id = (s.threads i).id
  told : match event with
    | .returned _ => s'.current = s.current
    | .created id => id = s.nextId ∧ s'.nextId = s.nextId + 1 ∧ s'.current = s.current
    | .selected id => pickNext s = some s'.current ∧ id = (s.threads s'.current).id

structure Steps (layout : Layout) (s : State) (event : Event) (next : State) : Prop where
  sound : Sound layout next
  moved : Moved s event next

lemma Adjusts.moved (adjusts : Adjusts s s') (ok : Bool) : Moved s (.returned ok) s' where
  grows := le_of_eq adjusts.nextId.symm
  ids i live := .inl ⟨(adjusts.fields i).2.1 ▸ live, (adjusts.fields i).1⟩
  waiting i ready _ := ⟨(adjusts.fields i).2.1.trans ready, (adjusts.fields i).1⟩
  told := adjusts.current

lemma Adjusts.refl (s : State) : Adjusts s s := ⟨fun _ => ⟨rfl, rfl, rfl, rfl⟩, fun _ _ => rfl, rfl, rfl, rfl, rfl⟩

lemma Adjusts.trans (first : Adjusts s s') (second : Adjusts s' s'') : Adjusts s s'' where
  fields i := by
    obtain ⟨a, b, c, d⟩ := first.fields i
    obtain ⟨a', b', c', d'⟩ := second.fields i
    exact ⟨a'.trans a, b'.trans b, c'.trans c, d'.trans d⟩
  saved i other := (second.saved i (by rwa [first.current])).trans (first.saved i other)
  current := second.current.trans first.current
  nextId := second.nextId.trans first.nextId
  initialized := second.initialized.trans first.initialized
  records := second.records.trans first.records

lemma Selects.moved (selects : Selects s next exiting frame s') (sound : Sound layout s) :
    Moved s (.selected (s.threads next).id) s' := by
  obtain ⟨-, -, other⟩ := sound.picked selects.picked
  refine ⟨?_, ?_, ?_, ?_⟩
  · rw [selects.rest]
  · exact fun i used => .inl ⟨selects.live sound used, (selects.fields i).1⟩
  · intro i ready apart
    rw [selects.current] at apart
    rw [selects.others i (sound.not_current (by rw [ready]; decide)) apart]
    exact ⟨ready, rfl⟩
  · rw [selects.current]
    exact ⟨selects.picked, rfl⟩

/-! The pieces that calls are made of. -/

section
variable {post : PUnit → State → Prop}

lemma ends_require (allowed : Allowed why) (holds : ok = true → post ⟨⟩ s) : Ends Allowed (require ok why) s post := by
  unfold require
  split
  next passed => exact holds passed
  next => exact allowed

lemma ends_check (sound : Sound layout s) (masked : disabled = true) (holds : post ⟨⟩ s) :
    Ends Allowed (check layout disabled) s post := by
  simp only [check, ends_bind, ends_get, masked, sound.check, require, if_true]
  exact holds

lemma ends_setThread :
    Ends Allowed (setThread i thread) s post ↔ post ⟨⟩ { s with threads := update s.threads i thread } := Iff.rfl

lemma ends_resume (sound : Sound layout s) (holds : post ⟨⟩ s) : Ends Allowed (resume layout) s post := by
  simp only [resume, ends_bind, ends_get, ends_ite]
  exact ⟨fun _ => ends_check sound rfl holds, fun _ => holds⟩

/-- The table after `select_thread`. -/
def selected (s : State) (next : Nat) (exiting : Bool) : State :=
  { s with
    threads := update (update s.threads s.current
      { s.threads s.current with state := if exiting then .exited else .ready })
      next { s.threads next with state := .running }
    current := next }

lemma ends_selectThread (sound : Sound layout s) (picked : pickNext s = some next)
    (holds : post ⟨⟩ (selected s next exiting)) : Ends Allowed (selectThread layout next exiting) s post := by
  obtain ⟨inside, ready, other⟩ := sound.picked picked
  simp only [selectThread, ends_bind, ends_get, require, sound.saved next inside ready, if_true, ends_pure,
    ends_setThread,
    ends_modify, update_of_ne other]
  exact holds

end

lemma selected_selects (exiting : Bool) (picked : pickNext s = some next) (other : next ≠ s.current) :
    Selects s next exiting (s.threads s.current).saved (selected s next exiting) where
  picked := picked
  others i old new := by simp only [selected, update_of_ne new, update_of_ne old]
  old := by simp only [selected, update_of_ne other.symm, update_self]
  new := by simp only [selected, update_self]
  current := rfl
  rest := rfl

/-- `thread_switch` saves the context after the selection. -/
lemma Selects.resave (selects : Selects s next exiting frame s') (other : next ≠ s.current) (saved : Frame) :
    Selects s next exiting saved
      { s' with threads := update s'.threads s.current { s'.threads s.current with saved }, mode := .kernel } where
  picked := selects.picked
  others i old new := by simp only [update_of_ne old, selects.others i old new]
  old := by simp only [update_self, selects.old]
  new := by simp only [update_of_ne other, selects.new]
  current := selects.current
  rest := by rw [selects.rest]

/-! Calls of the running thread. -/

lemma threadYield_moves (sound : Sound layout s) (off : s.mode = .kernel ∨ pickNext s = none) (env : Env)
    (regs : Registers) :
    Ends Allowed (threadYield layout env regs) s (Steps layout s) := by
  have idle : ∀ ok, Ends Allowed (do irqRestore env; return Event.returned ok) s (Steps layout s) := by
    intro ok
    simp only [irqRestore, ends_bind, ends_pure]
    exact ends_require (by decide) fun _ => ends_require (by decide) fun _ => ⟨sound, (Adjusts.refl s).moved ok⟩
  simp only [threadYield, ends_bind, ends_get, ends_ite]
  refine ⟨fun _ => ?_, fun _ => ends_check sound rfl ?_⟩
  · simpa only [ends_bind] using idle false
  split
  · simpa only [ends_bind] using idle true
  rename_i next picked
  obtain ⟨-, -, other⟩ := sound.picked picked
  simp only [ends_bind, ends_get]
  refine ends_selectThread sound picked ?_
  have selects := (selected_selects false picked other).resave other (switchFrame layout s regs)
  have kernel : s.mode = .kernel := off.resolve_right (by simp [picked])
  have after := sound.select selects (fun _ => frameValid_switch sound kernel regs) (by simp) rfl
  rw [ends_setThread, ends_modify]
  exact ends_resume after ⟨after, selects.moved sound⟩

lemma threadExit_moves (sound : Sound layout s) (kernel : s.mode = .kernel) (env : Env) :
    Ends Allowed (threadExit layout env) s (Steps layout s) := by
  simp only [threadExit, ends_bind, ends_get]
  refine ends_require (by decide) fun _ => ends_check sound rfl (ends_require (by decide) fun worker => ?_)
  split
  · exact (by decide : Allowed "exit_no_next")
  rename_i next picked
  obtain ⟨-, -, other⟩ := sound.picked picked
  rw [ends_bind]
  refine ends_selectThread sound picked ?_
  have selects := selected_selects true picked other
  have after := sound.select selects (by simp) (fun _ => by simpa using worker) kernel
  simp only [ends_bind]
  exact ends_resume after ⟨after, selects.moved sound⟩

/-! Interrupts. -/

lemma ends_trappedLink {post : Nat → State → Prop} (allowed : Allowed why)
    (holds : ∀ link, (s.threads s.current).user = some link → s.mode = .user link → post link s) :
    Ends Allowed (trappedLink why accepted) s post := by
  simp only [trappedLink, ends_bind, ends_get]
  split
  · exact allowed
  rename_i link user
  simp only [ends_bind, ends_pure]
  refine ends_require allowed fun _ => ends_require (by decide) fun entered => holds link user ?_
  simp only [Bool.and_eq_true, decide_eq_true_eq] at entered
  exact entered.1

/-- The state with another frame saved for the current thread. -/
def saving (s : State) (frame : Frame) : State :=
  { s with threads := update s.threads s.current { s.threads s.current with saved := frame }, mode := .kernel }

lemma saving_state (frame : Frame) (i : Nat) : ((saving s frame).threads i).state = (s.threads i).state := by
  by_cases here : i = s.current
  · subst here
    simp [saving]
  · simp [saving, here]

lemma saving_of_ne (frame : Frame) (other : i ≠ s.current) : (saving s frame).threads i = s.threads i := by
  simp [saving, other]

lemma pickNext_saving (frame : Frame) : pickNext (saving s frame) = pickNext s := by
  simp only [pickNext, saving_state]
  rfl

lemma Sound.saving (sound : Sound layout s) (frame : Frame) : Sound layout (saving s frame) :=
  (sound.park frame).toKernel

lemma saving_adjusts (frame : Frame) : Adjusts s (saving s frame) :=
  adjusts_current frame (s.threads s.current).user s.links .kernel

lemma selects_saving (selects : Selects (saving s frame) next false frame s') (other : next ≠ s.current) :
    Selects s next false frame s' where
  picked := by rw [← pickNext_saving frame]; exact selects.picked
  others i old new := by rw [selects.others i old new, saving_of_ne frame old]
  old := by
    rw [show s.current = (saving s frame).current from rfl, selects.old]
    simp [saving]
  new := by rw [selects.new, saving_of_ne frame other]
  current := selects.current
  rest := by rw [selects.rest]; rfl

/-- The current thread saves a valid frame and the next one, if any, takes over. -/
lemma switchTo_moves (sound : Sound layout s) (valid : frameValid layout s s.current frame = true) :
    Ends Allowed (switchTo layout (pickNext s)) (saving s frame) fun event next =>
      Sound layout next ∧ Moved s event next ∧ frameValid layout next next.current
      (next.threads next.current).saved = true := by
  have parked := sound.saving frame
  simp only [switchTo, ends_bind, ends_get]
  split
  · refine ⟨parked, (saving_adjusts frame).moved true, ?_⟩
    rw [(saving_adjusts frame).frameValid_eq]
    simpa [saving] using valid
  rename_i next picked
  obtain ⟨inside, ready, other⟩ := sound.picked picked
  simp only [ends_bind, ends_pure]
  refine ends_selectThread parked (by rw [pickNext_saving, picked]) ?_
  have selects := selected_selects false ((pickNext_saving frame).trans picked) other
  have same : ((saving s frame).threads (saving s frame).current).saved = frame := by simp [saving]
  rw [same] at selects
  have switched := selects_saving selects other
  have after := sound.select switched (fun _ => valid) (by simp) rfl
  rw [saving_of_ne frame other]
  refine ⟨after, switched.moved sound, ?_⟩
  rw [frameValid_congr (switched.bounds_eq _), switched.current, switched.new]
  exact sound.saved next inside ready

lemma ends_continueWith (sound : Sound layout s)
    (valid : frameValid layout s s.current (original.getD (s.threads s.current).saved) = true) (holds : post ⟨⟩ s) :
    Ends Allowed (continueWith layout original) s post := by
  simp only [continueWith, schedHandoff, ends_bind, ends_get]
  refine ends_check sound rfl ?_
  simp only [require, valid, if_true]
  exact holds

lemma ends_parkCurrent (holds : post ⟨⟩ (saving s (s.links link).kernSave)) :
    Ends Allowed (parkCurrent link) s post := by
  simp only [parkCurrent, ends_bind, ends_get, ends_setThread, ends_modify]
  exact holds

section
variable (sound : Sound layout s)
include sound

lemma schedTick_moves (env : Env) (frame : Frame) (address : Nat) (accepted : Bool) :
    Ends Allowed (schedTick layout env frame address accepted) s (Steps layout s) := by
  simp only [schedTick, ends_bind, ends_get, ends_ite, sound.initialized, Bool.not_true, Bool.false_eq_true,
    false_implies, true_and,
    not_false_eq_true, forall_const]
  refine ⟨fun _ => ?_, fun _ => ?_⟩
  · simp only [schedTickUser, ends_bind, ends_pure]
    refine ends_require (by decide) fun context => ?_
    simp only [Bool.and_eq_true] at context
    refine ends_check sound context.1.1 (ends_trappedLink (by decide) fun link user entered => ?_)
    rw [ends_get]
    refine ends_parkCurrent ((switchTo_moves sound (sound.entered link entered)).mono fun event next moved => ?_)
    exact ends_continueWith moved.1 moved.2.2 ⟨moved.1, moved.2.1⟩
  refine ends_require (by decide) fun kernel => ?_
  simp only [schedTickKernel, ends_bind, ends_get]
  refine ends_require (by decide) fun context => ?_
  simp only [Bool.and_eq_true] at context
  refine ends_check sound context.1.1 (ends_require (by decide) fun _ => ends_require (by decide) fun framed => ?_)
  simp only [Bool.and_eq_true] at framed
  split
  · exact ends_continueWith sound framed.1 ⟨sound, (Adjusts.refl s).moved true⟩
  rename_i next picked
  have same : { s with threads := update s.threads s.current { s.threads s.current with saved := frame } } =
      saving s frame := by
    rw [saving, ← of_decide_eq_true kernel]
  simp only [ends_bind, ends_setThread, ends_pure, same]
  rw [← picked]
  refine (switchTo_moves sound framed.1).mono fun event after moved => ?_
  exact ends_continueWith moved.1 moved.2.2 ⟨moved.1, moved.2.1⟩

lemma schedParkCpl3_moves (env : Env) (accepted : Bool) :
    Ends Allowed (schedParkCpl3 layout env accepted) s (Steps layout s) := by
  simp only [schedParkCpl3, ends_bind, ends_pure]
  refine ends_require (by decide) fun context => ?_
  simp only [Bool.and_eq_true] at context
  refine ends_check sound context.1.1 (ends_trappedLink (by decide) fun link user entered => ends_parkCurrent ?_)
  refine ends_continueWith (sound.saving _) ?_ ⟨sound.saving _, (saving_adjusts _).moved true⟩
  rw [(saving_adjusts _).frameValid_eq]
  simpa [saving] using sound.entered link entered

lemma userScheduleNext_moves (env : Env) (link retcode : Nat) :
    Ends Allowed (userScheduleNext layout env link retcode) s (Steps layout s) := by
  simp only [userScheduleNext, ends_bind, ends_get]
  refine ends_require (by decide) fun context => ends_require (by decide) fun _ => ?_
  simp only [Bool.and_eq_true] at context
  refine ends_check sound context.1 (ends_require (by decide) fun _ => ends_require (by decide) fun _ =>
    ends_require (by decide) fun entered => ends_parkCurrent ?_)
  rw [pickNext_saving]
  refine (switchTo_moves sound (sound.entered link (by simpa using entered))).mono fun event next moved => ?_
  exact ends_resume moved.1 ⟨moved.1, moved.2.1⟩

/-! User entries. -/

lemma threadAttachUser_adjusts (env : Env) (link : Nat) (active : Bool) :
    Ends Allowed (threadAttachUser layout env link active) s fun _ next =>
      Sound layout next ∧ Adjusts s next := by
  have still : Sound layout s ∧ Adjusts s s := ⟨sound, .refl s⟩
  simp only [threadAttachUser, ends_bind, ends_get, ends_ite, ends_pure]
  refine ⟨fun _ => still, fun callable => ⟨fun _ => still, fun usable => ?_⟩⟩
  simp only [Bool.or_eq_true, Bool.not_eq_true', not_or, Bool.not_eq_false] at callable usable
  refine ends_check sound (Cpu.foreground_interrupts callable.1.1) ⟨fun _ => still, fun _ => ?_⟩
  have after := sound.attach (by simpa using callable.2) usable.1
  simp only [ends_modify, ends_setThread]
  exact ends_check after (Cpu.foreground_interrupts callable.1.1) ⟨after,
    adjusts_current (s.threads s.current).saved (some link) _ s.mode⟩

lemma threadDetachUser_adjusts (env : Env) :
    Ends Allowed (threadDetachUser layout env) s fun _ next => Sound layout next ∧ Adjusts s next := by
  have still : Sound layout s ∧ Adjusts s s := ⟨sound, .refl s⟩
  simp only [threadDetachUser, ends_bind, ends_get]
  split
  · exact still
  rename_i link user
  simp only [ends_bind, ends_ite, ends_pure]
  refine ⟨fun _ => still, fun callable => ?_⟩
  simp only [Bool.or_eq_true, Bool.not_eq_true', not_or, Bool.not_eq_false] at callable
  have masked := Cpu.foreground_interrupts callable.1
  have after := sound.detach user
  refine ends_check sound masked ?_
  simp only [ends_modify, ends_setThread]
  exact ends_check after masked ⟨after, adjusts_current (s.threads s.current).saved none _ s.mode⟩

lemma userEnterAsm_adjusts (link : Nat) (regs : Registers) :
    Ends Allowed (userEnterAsm layout link regs) s fun _ next => Sound layout next ∧ Adjusts s next :=
  ⟨sound.enter link regs, fun _ => ⟨rfl, rfl, rfl, rfl⟩, fun _ _ => rfl, rfl, rfl, rfl, rfl⟩

lemma userEnter_moves (env : Env) (link : Nat) (active synced : Bool) (regs : Registers) :
    Ends Allowed (userEnter layout env link active synced regs) s (Steps layout s) := by
  rw [userEnter, ends_bind]
  refine (threadAttachUser_adjusts sound env link active).mono fun attached middle first => ?_
  simp only [ends_ite, ends_bind, ends_pure]
  refine ⟨fun _ => ⟨first.1, first.2.moved false⟩, fun _ => ⟨fun _ => ?_, fun _ => ?_⟩⟩
  · refine (threadDetachUser_adjusts first.1 env).mono fun _ last second => ?_
    exact ends_require (by decide) fun _ => ⟨second.1, (first.2.trans second.2).moved false⟩
  · exact (userEnterAsm_adjusts first.1 link regs).mono fun _ last second =>
      ⟨second.1, (first.2.trans second.2).moved true⟩

lemma userResume_moves (env : Env) (link : Nat) (active : Bool) (regs : Registers) :
    Ends Allowed (userResume layout env link active regs) s (Steps layout s) := by
  simp only [userResume, ends_bind, ends_get, ends_ite, ends_pure]
  refine ⟨fun _ => ⟨sound, (Adjusts.refl s).moved false⟩, fun _ => ?_⟩
  exact (userEnterAsm_adjusts sound link regs).mono fun _ next entered => ⟨entered.1, entered.2.moved true⟩

end

/-! Creation and reaping. -/

lemma firstFree_some (found : firstFree s = some i) : i < schedThreads ∧ i ≠ 0 ∧ (s.threads i).state = .free := by
  have free := find?_some found
  have bounds := mem_range'_1.mp (mem_of_find?_eq_some found)
  unfold schedThreads at *
  exact ⟨by omega, by omega, by simpa using free⟩

lemma find_some {id} (found : find s id = some t) : t < schedThreads := by
  unfold find at found
  split at found
  · cases found
  · exact mem_range.mp (mem_of_find?_eq_some found)

/-- What a stack allocation does: nothing, or one record for the owner. -/
lemma ends_kstackAlloc {post : Option Kstack → State → Prop} (fails : post none s)
    (succeeds : ∀ slot < kstackMaxThreads, (s.records slot).owner = none → post (some ⟨slot, s.generation + 1⟩)
        { s with generation := s.generation + 1, records := update s.records slot ⟨some owner, s.generation + 1⟩ }) :
    Ends Allowed (kstackAlloc cpu backing owner h) s post := by
  simp only [kstackAlloc, ends_bind, ends_get, ends_ite, ends_pure]
  refine ⟨fun _ => fails, fun _ => ⟨fun _ => fails, fun _ => ⟨fun _ => fails, fun _ => ?_⟩⟩⟩
  split
  · exact fails
  rename_i slot found
  simp only [ends_ite, ends_pure, ends_bind, ends_set]
  refine ⟨fun _ => fails, fun _ => succeeds slot (mem_range.mp (mem_of_find?_eq_some found)) ?_⟩
  simpa using find?_some found

/-- The table with a thread put into slot `i` and a record for its stack. -/
def placed (s : State) (i slot nextId : Nat) (thread : Thread) : State :=
  { s with
    threads := update s.threads i thread
    nextId
    generation := s.generation + 1
    records := update s.records slot ⟨some i, s.generation + 1⟩ }

section
variable {i slot nextId : Nat} {thread : Thread} (below : slot < kstackMaxThreads)
  (stack : thread.stack = ⟨slot, s.generation + 1⟩)
include below stack

lemma placed_valid : kstackValid (placed s i slot nextId thread) i thread.stack = true := by
  simp [kstackValid, placed, stack, below]

lemma placed_bounds (worker : i ≠ 0) : bounds (placed s i slot nextId thread) i =
    some (baseOf slot + kstackGuardBytes, baseOf slot + kstackGuardBytes + kstackPayloadBytes) := by
  have here : (placed s i slot nextId thread).threads i = thread := update_self ..
  rw [bounds, if_neg worker, here, if_pos (placed_valid below stack), stack]

lemma placed_frameValid (worker : i ≠ 0) (allowed : rflags &&& 2 = 2 ∧ rflags &&& ~~~savedFlags = 0) :
    frameValid layout (placed s i slot nextId thread) i
      { rip := layout.trampoline, cs := cpuCodeSelector, rflags
        rsp := baseOf slot + kstackGuardBytes + kstackPayloadBytes - 8, ss := cpuDataSelector, vector := 0,
        error := 0 } = true := by
  have text := layout.trampoline_in_text
  simp only [frameValid, placed_bounds below stack worker, executable, text, allowed, decide_true, beq_self_eq_true,
    Bool.and_true, Bool.true_or, Bool.and_eq_true, decide_eq_true_eq]
  refine ⟨⟨?_, ?_⟩, by decide⟩ <;> unfold kstackPayloadBytes
  · unfold frameBytes
    omega
  · omega

end

section
variable (sound : Sound layout s)
include sound

lemma Sound.place {slot entry saved} (worker : i ≠ 0) (free : (s.threads i).state = .free)
    (inside : i < schedThreads) (below : slot < kstackMaxThreads) (unowned : (s.records slot).owner = none)
    (text : executable layout entry = true) (valid : ∀ thread : Thread, thread.stack = ⟨slot, s.generation + 1⟩ →
      frameValid layout (placed s i slot (s.nextId + 1) thread) i saved = true) :
    let after := placed s i slot (s.nextId + 1)
      { s.threads i with id := s.nextId, state := .ready, saved, stack := ⟨slot, s.generation + 1⟩, entry }
    Steps layout s (.created s.nextId) after := by
  intro after
  have other : i ≠ s.current := sound.not_current (by rw [free]; decide)
  have elsewhere : ∀ j, j ≠ i → after.threads j = s.threads j := fun j apart => update_of_ne apart ..
  have here : (after.threads i).id = s.nextId := by simp [after, placed]
  have fresh := (sound.known _ sound.inside sound.live_current).2
  refine ⟨?_, Nat.le_succ _, ?_, ?_, rfl, rfl, rfl⟩
  · refine sound.replace rfl other worker nofun (Nat.le_succ _) ?_ nofun ?_ ?_ ?_ (.inr rfl)
    · exact fun j h apart held => kstackValid_update rfl (by rw [unowned]; nofun) held
    · exact fun _ => ⟨by simp only; omega, Nat.lt_succ_self _, le_rfl⟩
    · exact fun _ => ⟨placed_valid below rfl, text⟩
    · exact fun _ => valid _ rfl
  · intro j live
    by_cases apart : j = i
    · exact .inr (by rw [apart, here])
    · rw [elsewhere j apart] at live ⊢
      exact .inl ⟨live, rfl⟩
  intro j ready _
  have apart : j ≠ i := by
    rintro rfl
    rw [free] at ready
    cases ready
  rw [elsewhere j apart]
  exact ⟨ready, rfl⟩

lemma threadCreate_moves (env : Env) (out : Bool) (entry : Nat) (rflags : BitVec 64) (backing : Bool) :
    Ends Allowed (threadCreateWithFlags layout env out entry rflags backing) s (Steps layout s) := by
  have still : Steps layout s (.returned false) s := ⟨sound, (Adjusts.refl s).moved false⟩
  simp only [threadCreateWithFlags, ends_bind, ends_get, ends_ite, ends_pure]
  refine ⟨fun _ => still, fun callable => ⟨fun _ => still, fun flags => ⟨fun _ => still, fun _ => ?_⟩⟩⟩
  simp only [Bool.or_eq_true, Bool.not_eq_true', not_or, Bool.not_eq_false, bne_iff_ne, ne_eq,
    not_not] at callable flags
  have masked := Cpu.foreground_interrupts callable.1.1.1.1
  refine ends_check sound masked ?_
  split
  · exact still
  rename_i i found
  obtain ⟨inside, root, free⟩ := firstFree_some found
  rw [ends_bind]
  refine ends_kstackAlloc ?_ fun slot below unowned => ?_
  · exact still
  have limits : bounds (placed s i slot s.nextId { s.threads i with stack := ⟨slot, s.generation + 1⟩ }) i = _ :=
    placed_bounds below rfl root
  have after := sound.place root free inside below unowned callable.1.2 fun thread stack =>
    placed_frameValid below stack root flags
  simp only [placed] at limits after
  simp only [ends_bind, ends_setThread, ends_get, limits, ends_modify, ends_pure, update_idem]
  exact ends_check after.1 masked after

lemma Sound.reap (other : t ≠ s.current) (root : t ≠ 0) (exited : (s.threads t).state = .exited)
    (valid : kstackValid s t (s.threads t).stack = true) : let after := { s with
      threads := update s.threads t .zero
      records := update s.records (s.threads t).stack.slot ⟨none, 0⟩ }
    Steps layout s (.returned true) after := by
  intro after
  have elsewhere : ∀ j, j ≠ t → after.threads j = s.threads j := fun j apart => update_of_ne apart ..
  have here : (after.threads t).state = .free := by simp [after, Thread.zero]
  refine ⟨?_, le_rfl, ?_, ?_, rfl⟩
  · refine sound.replace rfl other root nofun le_rfl ?_ (fun _ => ⟨rfl, rfl⟩) (absurd rfl) (absurd rfl) nofun (.inl rfl)
    intro j h apart held
    simp only [kstackValid, Bool.and_eq_true, decide_eq_true_eq] at valid
    exact kstackValid_update rfl (by rw [valid.1.2]; exact fun same => apart (Option.some.inj same).symm) held
  · intro j live
    have apart : j ≠ t := by
      rintro rfl
      exact live here
    rw [elsewhere j apart] at live ⊢
    exact .inl ⟨live, rfl⟩
  intro j ready _
  have apart : j ≠ t := by
    rintro rfl
    rw [exited] at ready
    cases ready
  rw [elsewhere j apart]
  exact ⟨ready, rfl⟩

lemma threadJoin_moves (env : Env) (id : Nat) (intact : Bool) :
    Ends Allowed (threadJoin layout env id intact) s (Steps layout s) := by
  have still : Steps layout s (.returned false) s := ⟨sound, (Adjusts.refl s).moved false⟩
  simp only [threadJoin, ends_bind, ends_get, ends_ite, ends_pure]
  refine ⟨fun _ => still, fun callable => ?_⟩
  simp only [Bool.or_eq_true, Bool.not_eq_true', not_or, Bool.not_eq_false] at callable
  have masked := Cpu.foreground_interrupts callable.1
  refine ends_check sound masked ?_
  split
  · exact still
  rename_i t found
  simp only [ends_ite, ends_pure, ends_bind]
  refine ⟨fun _ => still, fun reapable => ?_⟩
  simp only [not_or, not_not] at reapable
  obtain ⟨other, root, exited⟩ := reapable
  have inside := find_some found
  have held := sound.backed t inside root (by rw [exited]; decide)
  simp only [kstackFree, ends_bind, ends_get, ends_ite, ends_pure, ends_set]
  refine ⟨fun _ => ends_require (by decide) (by simp), fun _ => ends_require (by decide) fun _ => ?_⟩
  have after := sound.reap other root exited held.1
  rw [ends_setThread]
  exact ends_check after.1 masked after

end

/-! Every operation. -/

lemma ends_fromKernel {call : M Event} {post : Event → State → Prop}
    (ends : s.mode = .kernel → Ends Allowed call s post) :
    Ends Allowed (fromKernel call) s post := by
  simp only [fromKernel, ends_bind, ends_get]
  exact ends_require (by decide) fun kernel => ends (of_decide_eq_true kernel)

/-- No yield in a gate while another thread is ready. -/
def Op.offGate (s : State) : Op → Bool
  | .yield .. => s.mode = .kernel || (pickNext s).isNone
  | _ => true

lemma Op.moves (sound : Sound layout s) (op : Op) (off : op.offGate s = true) :
    Ends Allowed (op.perform layout) s (Steps layout s) := by
  cases op with
  | create env out entry rflags backing => exact threadCreate_moves sound env out entry rflags backing
  | join env id intact => exact threadJoin_moves sound env id intact
  | yield env regs => exact threadYield_moves sound (by simpa [Op.offGate] using off) env regs
  | exit env => exact ends_fromKernel fun kernel => threadExit_moves sound kernel env
  | detach env =>
    refine ends_fromKernel fun _ => ?_
    rw [ends_map]
    exact (threadDetachUser_adjusts sound env).mono fun detached next adjusted =>
      ⟨adjusted.1, adjusted.2.moved detached⟩
  | enter env link active synced regs =>
    exact ends_fromKernel fun _ => userEnter_moves sound env link active synced regs
  | resumeUser env link active regs => exact ends_fromKernel fun _ => userResume_moves sound env link active regs
  | tick env frame address accepted => exact schedTick_moves sound env frame address accepted
  | park env accepted => exact schedParkCpl3_moves sound env accepted
  | userNext env link retcode => exact userScheduleNext_moves sound env link retcode

end Rynor.Sched
