import Rynor.Proofs.ApicIsolation

/-! Activation wires the registered routes, and the calls after it keep them wired. -/

namespace Rynor.Apic
open List
variable {line : Line} {op : Op} {ops : List Op}

variable {s base next : State} {cpu : Cpu} {irq : Nat}

/-! Controllers. -/

/-- Only the registers and the sizes of the IOAPICs differ. -/
structure Prepared (s next : State) : Prop where
  routes : next.route = s.route
  active : next.active = s.active
  platform : next.platform = s.platform
  lapicReady : next.lapicReady = s.lapicReady
  bspId : next.bspId = s.bspId

lemma Prepared.refl (s : State) : Prepared s s := ⟨rfl, rfl, rfl, rfl, rfl⟩

lemma Prepared.trans (first : Prepared s middle) (second : Prepared middle next) : Prepared s next :=
  ⟨second.routes.trans first.routes, second.active.trans first.active, second.platform.trans first.platform,
    second.lapicReady.trans first.lapicReady, second.bspId.trans first.bspId⟩

lemma quiesce_prepared (s : State) (ioapic pins : Nat) : Prepared s (s.quiesce ioapic pins) := by
  induction pins with
  | zero => exact .refl s
  | succ pin ih => exact ih.trans ⟨rfl, rfl, rfl, rfl, rfl⟩

lemma initialiseIoapics_prepared (left index : Nat) (s : State) : Prepared s (initialiseIoapics left index s).2 := by
  induction left generalizing index s with
  | zero => exact .refl s
  | succ left ih =>
    rw [initialiseIoapics]
    split
    · exact .refl s
    have sized := fun max => quiesce_prepared { s with ioapicMax := Function.update s.ioapicMax index max } index
      (max + 1)
    refine .trans ?_ (ih (index + 1) _)
    exact ⟨(sized _).routes, (sized _).active, (sized _).platform, (sized _).lapicReady, (sized _).bspId⟩

/-- What the initialisation of the controllers leaves. -/
structure Initialised (s : State) (outcome : Bool × State) : Prop where
  routes : outcome.2.route = s.route
  active : outcome.2.active = s.active
  platform : outcome.2.platform = s.platform
  bsp : outcome.2.bspId < 256
  ready : outcome.1 = true → outcome.2.lapicReady = true ∧ outcome.2.ioapicReady = true

lemma apicIoapicInit_initialised (bsp : s.bspId < 256) (ready : s.lapicReady = true) :
    Initialised s (apicIoapicInit s) := by
  unfold apicIoapicInit
  split
  · exact ⟨rfl, rfl, rfl, bsp, nofun⟩
  have prepared := initialiseIoapics_prepared s.topology.gsiBases.length 0 s
  generalize initialiseIoapics s.topology.gsiBases.length 0 s = outcome at prepared ⊢
  obtain ⟨mapped, mid⟩ := outcome
  have small : mid.bspId < 256 := prepared.bspId ▸ bsp
  dsimp only
  split
  · exact ⟨prepared.routes, prepared.active, prepared.platform, small, nofun⟩
  split
  · exact ⟨prepared.routes, prepared.active, prepared.platform, small, nofun⟩
  · exact ⟨prepared.routes, prepared.active, prepared.platform, small, fun _ => ⟨prepared.lapicReady.trans ready, rfl⟩⟩

lemma initialiseControllers_initialised (bsp : s.bspId < 256) : Initialised s (initialiseControllers s) := by
  have byte : s.platform.apicId % 256 < 256 := Nat.mod_lt _ (by decide)
  unfold initialiseControllers apicLapicInit
  split
  rename_i absent mid failed
  split at failed
  all_goals cases failed
  · exact ⟨rfl, rfl, rfl, bsp, nofun⟩
  · have ioapics := @apicIoapicInit_initialised { s with lapicReady := true, bspId := s.platform.apicId % 256 } byte rfl
    exact ⟨ioapics.routes, ioapics.active, ioapics.platform, ioapics.bsp, ioapics.ready⟩

/-! Programming the registered lines. -/

/-- The used lines resolve to entries of their own. -/
def State.Distinct (s : State) : Prop :=
  ∀ a ∈ List.range irqCount, ∀ b ∈ List.range irqCount, a ≠ b → (s.legacyRoutes a).used = true →
    (s.legacyRoutes b).used = true →
    ∀ x ∈ s.resolve a, ∀ y ∈ s.resolve b, (x.1, lowRegister x.2) ≠ (y.1, lowRegister y.2)

instance (s : State) : Decidable s.Distinct := inferInstanceAs (Decidable (∀ a ∈ List.range irqCount, _))

/-- What programming does not change. -/
structure Kept (base s : State) : Prop where
  fixed : s.fixed = base.fixed
  dyns : s.dynRoutes = base.dynRoutes
  used : ∀ irq, (s.legacyRoutes irq).used = (base.legacyRoutes irq).used
  kinds : ∀ irq, (s.legacyRoutes irq).msi = (base.legacyRoutes irq).msi

/-- A programmed line, still masked, with the entry it resolves to. -/
structure Laid (base s : State) (irq : Nat) : Prop where
  programmed : (s.legacyRoutes irq).programmed = true
  masked : (s.legacyRoutes irq).masked = true
  entry : base.resolve irq = some ((s.legacyRoutes irq).ioapic, (s.legacyRoutes irq).pin)
  found : Matches s (s.legacyRoutes irq)

lemma Kept.program (kept : Kept base s) (programs : Programs s irq outcome) : Kept base outcome.2 := by
  have step : ∀ next : State, next.fixed = s.fixed → (next.legacyRoutes irq).used = (s.legacyRoutes irq).used →
      (next.legacyRoutes irq).msi = (s.legacyRoutes irq).msi →
        (∀ other, other ≠ .legacy irq → next.route other = s.route other) →
      Kept base next := by
    intro next fixed used kind others
    refine ⟨fixed.trans kept.fixed, (funext fun slot => others (.dyn slot) (by simp)).trans kept.dyns,
      fun line => ?_, fun line => ?_⟩
    all_goals by_cases own : line = irq
    · rw [own]
      exact used.trans (kept.used irq)
    · exact (congrArg Route.used (others (.legacy line) (by simpa using own))).trans (kept.used line)
    · rw [own]
      exact kind.trans (kept.kinds irq)
    · exact (congrArg Route.msi (others (.legacy line) (by simpa using own))).trans (kept.kinds line)
  cases programs with
  | refused result failed next fixed registers used kind others => exact step next fixed used kind others
  | done next ioapic pin resolved level low found fixed others registers =>
    obtain ⟨gsi, found⟩ := found
    exact step next fixed (by rw [found]) (by rw [found]) others

/-- A programmed line stays laid when another line is programmed, and the other line is laid then too. -/
lemma Laid.program (kept : Kept base s) (distinct : base.Distinct) (programs : Programs s irq (.ok, next))
    (bound : irq < irqCount) (used : (s.legacyRoutes irq).used = true) {line} (boundToo : line < irqCount)
    (usedToo : (s.legacyRoutes line).used = true) (laid : line ≠ irq → Laid base s line) : Laid base next line := by
  cases programs with
  | refused result failed => exact absurd rfl failed
  | done _ ioapic pin resolved level low found fixed others registers =>
    obtain ⟨gsi, found⟩ := found
    have entry : base.resolve irq = some (ioapic, pin) := by rw [← resolve_of_fixed kept.fixed, resolved]
    by_cases own : line = irq
    · subst own
      refine ⟨by rw [found], by rw [found], by rw [found, entry], ?_⟩
      rw [found]
      refine matches_setEntry s ((entryValid_of_fixed fixed _ _).trans (resolve_valid resolved)) ?_ rfl ?_
      · unfold irqBase irqCount at *
        dsimp only
        omega
      · rw [bspId_of_fixed fixed]
        exact registers
    have old := laid own
    have same : next.legacyRoutes line = s.legacyRoutes line := others (.legacy line) (by simpa using own)
    have apart := distinct line (mem_range.mpr boundToo) irq (mem_range.mpr bound) own
      ((kept.used line).symm.trans usedToo) ((kept.used irq).symm.trans used) _ old.entry _ entry
    have untouched : Untouched s next (s.legacyRoutes line) := untouched_setEntry apart registers
    rw [← same] at untouched
    have found : Matches s (next.legacyRoutes line) := by rw [same]; exact old.found
    exact ⟨by rw [same]; exact old.programmed, by rw [same]; exact old.masked, by rw [same]; exact old.entry,
      found.keep fixed untouched⟩

lemma programAll_laid (distinct : base.Distinct) (bsp : base.bspId < 256) (left irq : Nat) (s : State)
    (bound : irq + left ≤ irqCount)
    (kept : Kept base s) (laid : ∀ line < irq, (s.legacyRoutes line).used = true → Laid base s line) :
    Kept base (programAll cpu left irq s).2 ∧ ((programAll cpu left irq s).1 = .ok → ∀ line < irq + left,
      ((programAll cpu left irq s).2.legacyRoutes line).used = true → Laid base
      (programAll cpu left irq s).2 line) := by
  induction left generalizing irq s with
  | zero => exact ⟨kept, fun _ => laid⟩
  | succ left ih =>
    rw [programAll, show irq + (left + 1) = irq + 1 + left by omega]
    split
    next used =>
      have programs : Programs s irq (programLegacy cpu irq s) :=
        programLegacy_programs (bspId_of_fixed kept.fixed ▸ bsp) cpu irq
      generalize programLegacy cpu irq s = outcome at programs ⊢
      obtain ⟨result, next⟩ := outcome
      have keptToo : Kept base next := kept.program programs
      dsimp only
      split
      next failed => exact ⟨keptToo, nofun⟩
      rename_i done
      obtain rfl := Decidable.not_not.mp done
      refine ih (irq + 1) next (by omega) keptToo fun line before usedToo => ?_
      have usedBefore := (kept.used line).trans ((keptToo.used line).symm.trans usedToo)
      exact Laid.program kept distinct programs (by omega) used (by omega) usedBefore fun other =>
        laid line (by omega) usedBefore
    rename_i unused
    refine ih (irq + 1) s (by omega) kept fun line before used => ?_
    refine laid line (Nat.lt_of_le_of_ne (Nat.le_of_lt_succ before) fun same => unused ?_) used
    rw [← same]
    exact used

/-! Masks. -/

lemma setLegacy_same (s : State) (irq : Nat) : s.setLegacy irq (s.legacyRoutes irq) = s := by
  rw [State.setLegacy, Function.update_eq_self]

lemma ioapicWrite_same (s : State) (ioapic register : Nat) :
    s.ioapicWrite ioapic register (s.registers ioapic register) = s := by
  rw [State.ioapicWrite, Function.update_eq_self, Function.update_eq_self]

/-- Lines that are masked already are left as they are. -/
lemma unmaskAll_same (inside : cpu.foreground = true) {wasOn : Nat → Bool}
    (off : ∀ irq, (s.legacyRoutes irq).used = true → wasOn irq = false)
    (laid : ∀ irq, (s.legacyRoutes irq).used = true → (s.legacyRoutes irq).masked = true ∧
      Matches s (s.legacyRoutes irq)) (left irq : Nat) :
    unmaskAll cpu wasOn left irq s = (.ok, s) := by
  induction left generalizing irq with
  | zero => rfl
  | succ left ih =>
    rw [unmaskAll]
    split
    next used =>
      obtain ⟨masked, found⟩ := laid irq used
      have same : { s.legacyRoutes irq with masked := !wasOn irq } = s.legacyRoutes irq := by
        rw [off irq used, Bool.not_false, ← masked]
      have value := redirLow_set ⟨(s.legacyRoutes irq).vector, found.vector⟩ (s.legacyRoutes irq).level
        (s.legacyRoutes irq).low true true
      dsimp only at value
      rw [← masked, ← found.low, masked, if_pos rfl] at value
      rw [same, setLegacy_same]
      dsimp only
      rw [apicSetRouteMask_foreground found.valid inside, off irq used, Bool.not_false, if_pos rfl, value,
        ioapicWrite_same]
      exact ih (irq + 1)
    next => exact ih (irq + 1)

/-! Wiring. -/

lemma legacy_of_quiet (quiet : ∀ slot, (s.dynRoutes slot).used = false) (used : (s.route line).used = true) :
    ∃ irq, line = .legacy irq := by
  cases line with
  | legacy irq => exact ⟨irq, rfl⟩
  | dyn slot => exact absurd (used.symm.trans (quiet slot)) nofun

lemma inside_of_quiet (kinds : ∀ irq, (s.legacyRoutes irq).used = true → .legacy irq ∈ lines ∧
      (s.legacyRoutes irq).msi = .none)
    (quiet : ∀ slot, (s.dynRoutes slot).used = false) (line : Line) (used : (s.route line).used = true) :
    line ∈ lines := by
  obtain ⟨irq, rfl⟩ := legacy_of_quiet quiet used
  exact (kinds irq used).1

lemma wired_of_inactive (off : s.active = false) (bsp : s.bspId < 256)
    (kinds : ∀ irq, (s.legacyRoutes irq).used = true → .legacy irq ∈ lines ∧ (s.legacyRoutes irq).msi = .none)
    (quiet : ∀ slot, (s.dynRoutes slot).used = false) : Wired s where
  bsp := bsp
  ready on := by rw [off] at on; cases on
  inside := inside_of_quiet kinds quiet
  kinds irq used := (kinds irq used).2
  quiet _ := quiet
  programmed on := by rw [off] at on; cases on
  matches_ on := by rw [off] at on; cases on
  apart on := by rw [off] at on; cases on

lemma Dormant.wired (dormant : Dormant s next) (wired : Wired s) : Wired next := by
  refine wired_of_inactive ?_ (bspId_of_fixed dormant.fixed ▸ wired.bsp) dormant.kinds fun slot => ?_
  · rw [active_of_fixed dormant.fixed]
    exact dormant.off
  · rw [dormant.dyns]
    exact wired.quiet dormant.off slot

lemma Step.wired (step : Step s next line) (wired : Wired s) : Wired next := by
  rcases step with ⟨active, change⟩ | dormant
  · exact wired.change active change
  · exact dormant.wired wired

lemma Step.untouched (step : Step s next line) (wired : Wired s) (distinct : other ≠ line) (live : s.Live other) :
    Untouched s next (s.route other) := by
  rcases step with ⟨active, change⟩ | dormant
  · exact wired.untouched active change distinct live
  · exact ⟨by rw [dormant.registers], by rw [dormant.registers]⟩

/-- Lines with an entry each, and nothing else, are wired. -/
lemma wired_of_laid (bsp : s.bspId < 256) (ready : s.lapicReady = true ∧ s.ioapicReady = true ∧
      s.platform.picQuiet = true)
    (active : s.active = true) (kinds : ∀ irq, (s.legacyRoutes irq).used = true → .legacy irq ∈ lines ∧
      (s.legacyRoutes irq).msi = .none)
    (dyns : ∀ slot, (s.dynRoutes slot).used = false) (distinct : base.Distinct)
    (usedBase : ∀ irq, (s.legacyRoutes irq).used = true → (base.legacyRoutes irq).used = true)
    (laid : ∀ irq, (s.legacyRoutes irq).used = true → Laid base s irq) : Wired s where
  bsp := bsp
  ready _ := ready
  inside := inside_of_quiet kinds dyns
  kinds irq used := (kinds irq used).2
  quiet off := by rw [active] at off; cases off
  programmed _ line used _ := by
    obtain ⟨irq, rfl⟩ := legacy_of_quiet dyns used
    exact (laid irq used).programmed
  matches_ _ line live := by
    obtain ⟨irq, rfl⟩ := legacy_of_quiet dyns live.1
    exact (laid irq live.1).found
  apart _ a b different first second := by
    obtain ⟨x, rfl⟩ := legacy_of_quiet dyns first.1
    obtain ⟨y, rfl⟩ := legacy_of_quiet dyns second.1
    have firstRow := mem_range.mpr (legacy_inside.mp (kinds x first.1).1)
    have secondRow := mem_range.mpr (legacy_inside.mp (kinds y second.1).1)
    exact distinct x firstRow y secondRow (by simpa using different) (usedBase x first.1) (usedBase y second.1)
      _ (laid x first.1).entry _ (laid y second.1).entry

lemma Laid.on (laid : Laid base s irq) : Laid base { s with active := true } irq :=
  ⟨laid.programmed, laid.masked, laid.entry, ⟨laid.found.valid, laid.found.vector, laid.found.low, laid.found.high⟩⟩

lemma apicActivate_wired (wired : Wired s) (distinct : (initialiseControllers s).2.Distinct) :
    Wired (apicActivate cpu s).2 := by
  unfold apicActivate
  split
  · exact wired
  next inside =>
  replace inside : cpu.foreground = true := by simpa using inside
  split
  · exact wired
  next asleep =>
  replace asleep : s.active = false := by simpa using asleep
  split
  · exact wired
  split
  · exact wired
  have initialised := initialiseControllers_initialised wired.bsp
  generalize initialiseControllers s = outcome at distinct initialised ⊢
  obtain ⟨ready, base⟩ := outcome
  have off : base.active = false := initialised.active.trans asleep
  have legacy : base.legacyRoutes = s.legacyRoutes := funext fun irq => congrFun initialised.routes (.legacy irq)
  have dyns : base.dynRoutes = s.dynRoutes := funext fun slot => congrFun initialised.routes (.dyn slot)
  have kinds := wired.legacy
  have quiet := wired.quiet asleep
  rw [← legacy] at kinds
  rw [← dyns] at quiet
  dsimp only
  split
  · exact wired_of_inactive off initialised.bsp kinds quiet
  next initialisedToo =>
  obtain ⟨lapic, ioapic⟩ := initialised.ready (by simpa using initialisedToo)
  obtain ⟨kept, laid⟩ := @programAll_laid base cpu distinct initialised.bsp irqCount 0 base (by omega) ⟨rfl, rfl,
    fun _ => rfl, fun _ => rfl⟩
    fun line before => absurd before (Nat.not_lt_zero line)
  generalize programAll cpu irqCount 0 base = outcome at kept laid ⊢
  obtain ⟨programmed, mid⟩ := outcome
  dsimp only at kept laid ⊢
  have bsp : mid.bspId < 256 := bspId_of_fixed kept.fixed ▸ initialised.bsp
  have offToo : mid.active = false := (active_of_fixed kept.fixed).trans off
  have kindsToo : ∀ irq, (mid.legacyRoutes irq).used = true → .legacy irq ∈ lines ∧ (mid.legacyRoutes irq).msi =
    .none := by
    intro irq used
    rw [kept.used irq] at used
    rw [kept.kinds irq]
    exact kinds irq used
  have quietToo : ∀ slot, (mid.dynRoutes slot).used = false := by rw [kept.dyns]; exact quiet
  split
  · exact wired_of_inactive offToo bsp kindsToo quietToo
  next done =>
  have laidAll : ∀ irq, (mid.legacyRoutes irq).used = true → Laid base mid irq := fun irq used =>
    laid (Decidable.not_not.mp done) irq (by rw [zero_add]; exact legacy_inside.mp (kindsToo irq used).1) used
  split
  · exact wired_of_inactive offToo bsp kindsToo quietToo
  next calm =>
  have masks := @unmaskAll_same { mid with active := true } cpu inside (fun irq => (mid.legacyRoutes irq).used &&
    !(mid.legacyRoutes irq).masked)
    (fun irq used => by rw [(laidAll irq used).masked, Bool.not_true, Bool.and_false])
    (fun irq used => ⟨(laidAll irq used).masked, (laidAll irq used).on.found⟩) irqCount 0
  rw [masks]
  have fixed := kept.fixed
  simp only [State.fixed, Fixed.mk.injEq] at fixed
  refine wired_of_laid bsp ⟨fixed.2.2.1.trans lapic, fixed.2.2.2.1.trans ioapic, by
    simpa using calm⟩ rfl kindsToo quietToo distinct
    (fun irq used => (kept.used irq).symm.trans used) fun irq used => (laidAll irq used).on

/-! Runs. -/

/-- The calls on routes, and activation. -/
inductive Op
  | register (cpu : Cpu) (irq : Nat) (handler : Option Nat) (opaqueArg : Nat)
  | setMasked (cpu : Cpu) (irq masked : Nat)
  | gsiRegister (cpu : Cpu) (gsi level low : Nat) (handler : Option Nat) (opaqueArg : Nat) (vector : Bool)
  | gsiUnregister (cpu : Cpu) (vector : Nat)
  | activate (cpu : Cpu)

def perform (s : State) : Op → Result × State
  | .register cpu irq handler opaqueArg => apicRouteRegister cpu irq handler opaqueArg s
  | .setMasked cpu irq masked => apicRouteSetMasked cpu irq masked s
  | .gsiRegister cpu gsi level low handler opaqueArg vector =>
    let (result, _, s) := apicRouteGsiRegister cpu gsi level low handler opaqueArg vector s
    (result, s)
  | .gsiUnregister cpu vector => apicRouteGsiUnregister cpu vector s
  | .activate cpu => apicActivate cpu s

def performAll : List Op → State → State
  | [], s => s
  | op :: ops, s => performAll ops (perform s op).2

/-- The line that a call is about. -/
def State.lineOf (s : State) : Op → Option Line
  | .register _ irq _ _ => some (.legacy irq)
  | .setMasked _ irq _ => some (.legacy irq)
  | .gsiRegister .. => some (.dyn (s.freeSlot.getD dynamicRoutes))
  | .gsiUnregister _ vector => some (.dyn ((s.slotOf vector).getD dynamicRoutes))
  | .activate _ => none

/-- A registration resolves to an entry that no live route uses, activation resolves the registered lines to entries of
their own, and a mask changes outside interrupt handlers only. -/
def State.Fit (s : State) : Op → Prop
  | .register _ irq _ _ => s.active = true → (s.legacyRoutes irq).used = false → ∀ entry ∈ s.resolve irq, s.Spare entry
  | .setMasked cpu irq masked =>
    s.active = true → (s.legacyRoutes irq).used = true → cpu.foreground = true ∨ (s.legacyRoutes irq).masked =
      (masked == 1)
  | .gsiRegister _ gsi _ _ _ _ _ => s.active = true → ∀ entry ∈ s.gsiOwner gsi, s.Spare entry
  | .gsiUnregister .. => True
  | .activate _ => (initialiseControllers s).2.Distinct

instance (s : State) (op : Op) : Decidable (s.Fit op) := by
  cases op <;> unfold State.Fit <;> infer_instance

def AllFit : State → List Op → Prop
  | _, [] => True
  | s, op :: ops => s.Fit op ∧ AllFit (perform s op).2 ops

def AllFit.decide : (s : State) → (ops : List Op) → Decidable (AllFit s ops)
  | _, [] => isTrue trivial
  | s, op :: ops => @instDecidableAnd _ _ (inferInstanceAs (Decidable (s.Fit op))) (AllFit.decide (perform s op).2 ops)

instance (s : State) (ops : List Op) : Decidable (AllFit s ops) := AllFit.decide s ops

lemma perform_step (wired : Wired s) (fit : s.Fit op) (about : s.lineOf op = some line) :
    Step s (perform s op).2 line := by
  cases op with
  | register cpu irq handler opaqueArg =>
    cases about
    exact apicRouteRegister_step wired handler opaqueArg fit
  | setMasked cpu irq masked =>
    cases about
    exact apicRouteSetMasked_step wired masked fit
  | gsiRegister cpu gsi level low handler opaqueArg vector =>
    cases vacant : s.freeSlot with
    | some slot =>
      rw [State.lineOf, vacant] at about
      cases about
      exact apicRouteGsiRegister_step wired vacant gsi level low handler opaqueArg vector fit
    | none =>
      have full : (perform s (.gsiRegister cpu gsi level low handler opaqueArg vector)).2 = s := by
        simp only [perform, apicRouteGsiRegister, vacant]
        split_ifs <;> rfl
      rw [full]
      exact wired.same line
  | gsiUnregister cpu vector =>
    cases found : s.slotOf vector with
    | some slot =>
      rw [State.lineOf, found] at about
      cases about
      exact apicRouteGsiUnregister_step wired found
    | none =>
      have absent : (perform s (.gsiUnregister cpu vector)).2 = s := by
        simp only [perform, apicRouteGsiUnregister, found]
        split_ifs <;> rfl
      rw [absent]
      exact wired.same line
  | activate cpu => cases about

lemma perform_wired (wired : Wired s) (fit : s.Fit op) : Wired (perform s op).2 := by
  cases about : s.lineOf op with
  | some line => exact (perform_step wired fit about).wired wired
  | none =>
    cases op with
    | activate cpu => exact apicActivate_wired wired fit
    | register | setMasked | gsiRegister | gsiUnregister => cases about

lemma boot_wired (topology : Topology) (platform : Platform) : Wired (.boot topology platform) :=
  wired_of_inactive rfl (Nat.zero_lt_succ 255) (fun _ used => by cases used) fun _ => rfl

lemma performAll_wired (wired : Wired s) (fit : AllFit s ops) : Wired (performAll ops s) := by
  induction ops generalizing s with
  | nil => exact wired
  | cons op ops ih => exact ih (perform_wired wired fit.1) fit.2

lemma AllFit.last (fit : AllFit s (ops ++ [op])) : AllFit s ops ∧ (performAll ops s).Fit op := by
  induction ops generalizing s with
  | nil => exact ⟨trivial, fit.1⟩
  | cons first ops ih => exact ⟨⟨fit.1, (ih fit.2).1⟩, (ih fit.2).2⟩

/-- In a run of fitting calls, no call touches the entry of a live route it is not about, and the check holds whenever
the core is active. -/
theorem routes_stay_isolated (topology : Topology) (platform : Platform) (ops : List Op) (op : Op)
    (fit : AllFit (.boot topology platform) (ops ++ [op])) (s : State)
    (reached : performAll ops (.boot topology platform) = s) :
    (∀ line other, s.lineOf op = some line → other ≠ line → s.Live other →
      Untouched s (perform s op).2 (s.route other)) ∧
      ((perform s op).2.active = true → apicCheck (perform s op).2 = true) := by
  obtain ⟨before, fitLast⟩ := fit.last
  have wired : Wired s := reached ▸ performAll_wired (boot_wired topology platform) before
  rw [reached] at fitLast
  exact ⟨fun line other about distinct live => (perform_step wired fitLast about).untouched wired distinct live,
    fun active => (perform_wired wired fitLast).check active⟩

/-- One IOAPIC of 24 pins, with the timer overridden to pin 2. -/
def board : State :=
  .boot ⟨true, [0], [⟨0, 0, 2, 0⟩]⟩ { lapic := true, apicId := 0, maps := fun _ => true, maxRedir := fun _ => 23, picIdle := true, picQuiet := true }

def inKernel : Cpu := ⟨true, false⟩
def inHandler : Cpu := ⟨true, true⟩

def timerRouted : State := performAll [.register inKernel 0 (some 1) 0, .activate inKernel] board

def timerRunning : State :=
  performAll [.register inKernel 0 (some 1) 0, .activate inKernel, .setMasked inKernel 0 0] board

/-- The timer has masked itself from its own handler. -/
def timerHeld : State := (perform timerRunning (.setMasked inHandler 0 1)).2

def deviceLine (gsi : Nat) : Op := .gsiRegister inKernel gsi 0 0 (some 7) 0 true

/-- A dynamic route takes over the entry of the timer; a mask set by a handler reaches the route and not its entry. -/
theorem routes_interfere :
    (apicCheck timerRouted = true ∧ timerRouted.Live (.legacy 0) ∧ timerRouted.lineOf (deviceLine 2) = some (.dyn 0) ∧
        (perform timerRouted (deviceLine 2)).1 = .ok ∧ ¬Untouched timerRouted (perform timerRouted (deviceLine 2)).2
        (timerRouted.legacyRoutes 0) ∧
        apicCheck (perform timerRouted (deviceLine 2)).2 = false) ∧
      apicCheck timerRunning = true ∧ (perform timerRunning (.setMasked inHandler 0 1)).1 = .context ∧
        (perform timerHeld (deviceLine 9)).1 = .ok ∧ apicCheck (perform timerHeld (deviceLine 9)).2 = false := by
  decide +kernel

theorem routes_stay_isolated_on_board :
    AllFit board ([.register inKernel 0 (some 1) 0, .activate inKernel, .setMasked inKernel 0 0] ++ [deviceLine 9]) ∧
      timerRunning.Live (.legacy 0) ∧ Untouched timerRunning (perform timerRunning (deviceLine 9)).2
      (timerRunning.route (.legacy 0)) ∧
      (perform timerRunning (deviceLine 9)).2.active = true ∧ apicCheck (perform timerRunning (deviceLine 9)).2 =
      true := by
  have fit : AllFit board
      ([.register inKernel 0 (some 1) 0, .activate inKernel, .setMasked inKernel 0 0] ++ [deviceLine 9]) := by
    decide +kernel
  have live : timerRunning.Live (.legacy 0) := by decide +kernel
  have active : (perform timerRunning (deviceLine 9)).2.active = true := by decide +kernel
  obtain ⟨apart, check⟩ := routes_stay_isolated _ _ _ (deviceLine 9) fit timerRunning rfl
  exact ⟨fit, live, apart (.dyn 0) (.legacy 0) (by decide +kernel) (by decide) live, active, check active⟩

/-! Masking a route. -/

/-- The mask bit of the redirection entry of a route. -/
def State.entryMasked (s : State) (route : Route) : Bool :=
  s.registers route.ioapic (lowRegister route.pin) >>> 16 &&& 1 == 1

/-- A call that fails leaves the flag and the bit as they were; one that succeeds sets the flag and, once the route is
programmed, the bit. -/
def MaskAtomic (cpu : Cpu) (irq masked : Nat) (s : State) : Prop :=
  let route := s.legacyRoutes irq
  let call := apicRouteSetMasked cpu irq masked s
  (call.1 ≠ .ok → (call.2.legacyRoutes irq).masked = route.masked ∧ call.2.entryMasked route = s.entryMasked route) ∧
    (call.1 = .ok → (call.2.legacyRoutes irq).masked = (masked == 1) ∧
      (route.programmed = true → call.2.entryMasked route = (masked == 1)))

/-- A call on a registered route reaches its entry or asks for what is there. -/
def MaskFits (cpu : Cpu) (irq masked : Nat) (s : State) : Prop :=
  let route := s.legacyRoutes irq
  irq < irqCount → masked ≤ 1 → cpu.interruptsDisabled = true → route.used = true →
    if s.active then
      (masked == 1) = route.masked ∨ route.programmed = true ∧ s.entryValid route.ioapic route.pin = true ∧
        cpu.foreground = true
    else route.programmed = true → s.entryMasked route = (masked == 1)

lemma maskBit_set (lo : Nat) (mask : Bool) :
    ((if mask then lo ||| 1 <<< 16 else lo &&& 0xfffeffff) >>> 16 &&& 1 == 1) = mask := by
  have bit : ∀ x : Nat, (x >>> 16 &&& 1 == 1) = x.testBit 16 := fun x => by
    simp only [Nat.testBit, Nat.and_one_is_mod, Nat.one_and_eq_mod_two]
    rcases Nat.mod_two_eq_zero_or_one (x >>> 16) with even | odd <;> simp [*]
  rw [bit]
  cases mask with
  | true => exact (Nat.testBit_or ..).trans (Bool.or_eq_true_iff.mpr (.inr rfl))
  | false => exact (Nat.testBit_and ..).trans (Bool.and_eq_false_imp.mpr fun _ => rfl)

/-- A call on a registered route stores the flag before it looks at the entry. -/
lemma apicRouteSetMasked_called (own : s.legacyRoutes irq = route) (known : irq < irqCount)
    (flag : masked ≤ 1) (disabled : cpu.interruptsDisabled = true) (used : route.used = true) :
    ∃ next : State, (next.legacyRoutes irq).masked = (masked == 1) ∧ next.registers = s.registers ∧
      next.entryValid route.ioapic route.pin = s.entryValid route.ioapic route.pin ∧
      apicRouteSetMasked cpu irq masked s =
        if !s.active then (.ok, next) else if !route.programmed then (.state, next)
        else apicSetRouteMask cpu route.ioapic route.pin (masked == 1) next := by
  subst own
  refine ⟨s.setLegacy irq { s.legacyRoutes irq with masked := masked == 1 }, by rw [setLegacy_self], rfl, rfl, ?_⟩
  have accepted : ¬(irq ≥ irqCount ∨ masked > 1) := by omega
  simp only [apicRouteSetMasked, if_neg accepted, disabled, used, setLegacy_self, Bool.not_true, Bool.false_eq_true,
    if_false]
  rfl

/-- Masking is atomic exactly when it reaches the entry or asks for what is there. -/
theorem apicRouteSetMasked_atomic_iff (cpu : Cpu) (irq masked : Nat) (s : State) :
    MaskAtomic cpu irq masked s ↔ MaskFits cpu irq masked s := by
  unfold MaskAtomic MaskFits
  generalize own : s.legacyRoutes irq = route
  dsimp only
  by_cases called : irq < irqCount ∧ masked ≤ 1 ∧ cpu.interruptsDisabled = true ∧ route.used = true
  · obtain ⟨known, flag, disabled, used⟩ := called
    obtain ⟨next, set, registers, valid, step⟩ := apicRouteSetMasked_called own known flag disabled used
    have bit : next.entryMasked route = s.entryMasked route := by rw [State.entryMasked, registers]; rfl
    simp only [step, apicSetRouteMask, valid, known, flag, disabled, used, forall_const]
    rcases s.active with _ | _
    · simp [set, bit]
    rcases route.programmed with _ | _
    · simp [set, bit]
    cases s.entryValid route.ioapic route.pin with
    | false => simp [set, bit]
    | true =>
      cases cpu.foreground with
      | false => simp [set, bit]
      | true =>
        simpa [set, State.entryMasked, State.ioapicWrite] using
          maskBit_set (next.registers route.ioapic (lowRegister route.pin)) (masked == 1)
  have refused : (apicRouteSetMasked cpu irq masked s).1 ≠ .ok ∧ (apicRouteSetMasked cpu irq masked s).2 = s := by
    unfold apicRouteSetMasked
    rw [own]
    split_ifs with bad enabled unused
    iterate 3 exact ⟨(by simp), rfl⟩
    all_goals exact absurd ⟨by omega, by omega, by simpa using enabled, by simpa using unused⟩ called
  obtain ⟨failed, same⟩ := refused
  rw [same, own]
  exact iff_of_true ⟨fun _ => ⟨rfl, rfl⟩, fun done => absurd done failed⟩ fun known flag disabled used =>
    absurd ⟨known, flag, disabled, used⟩ called

instance (cpu : Cpu) (irq masked : Nat) (s : State) : Decidable (MaskAtomic cpu irq masked s) :=
  inferInstanceAs (Decidable ((_ → _ ∧ _) ∧ (_ → _ ∧ (_ → _))))

/-- The timer masks itself from its own handler: the call fails and the flag is set. -/
theorem handler_mask_recorded :
    (timerRunning.legacyRoutes 0).used = true ∧ (apicRouteSetMasked inHandler 0 1 timerRunning).1 = .context ∧
      ((apicRouteSetMasked inHandler 0 1 timerRunning).2.legacyRoutes 0).masked ≠ (timerRunning.legacyRoutes 0).masked ∧
      ¬MaskAtomic inHandler 0 1 timerRunning := by
  decide +kernel

end Rynor.Apic
