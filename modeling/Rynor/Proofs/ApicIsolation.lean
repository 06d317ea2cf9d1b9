import Rynor.Proofs.ApicEntries

/-! Routes keep out of each other's redirection entries, as long as no registration resolves to
an entry that is in use and no mask is set from inside an interrupt. -/

namespace Rynor.Apic
open List
variable {gsi ioapic pin slot vector : Nat} {other : Line} {route : Route}

variable {s next : State} {cpu : Cpu} {irq : Nat}

/-! Programming an entry. -/

lemma gsiOwnerAt_bounds {index} {maxes : Nat → Nat} {bases}
    (found : gsiOwnerAt gsi maxes index bases = some (ioapic, pin)) :
    ioapic < index + bases.length ∧ pin ≤ maxes ioapic := by
  induction bases generalizing index with
  | nil => cases found
  | cons base bases ih =>
    rw [gsiOwnerAt] at found
    rw [length_cons]
    split at found
    next inside =>
      cases found
      exact ⟨by omega, by omega⟩
    obtain ⟨short, fits⟩ := ih found
    exact ⟨by omega, fits⟩

lemma gsiOwner_valid (found : s.gsiOwner gsi = some (ioapic, pin)) : s.entryValid ioapic pin = true := by
  unfold State.gsiOwner at found
  split at found
  · cases found
  rename_i ready
  obtain ⟨short, fits⟩ := gsiOwnerAt_bounds found
  simp only [Bool.or_eq_true, Bool.not_eq_true', not_or, Bool.not_eq_false] at ready
  rw [length_take] at short
  simp only [State.entryValid, ready.2, Bool.true_and, Bool.and_eq_true, decide_eq_true_eq]
  exact ⟨by omega, fits⟩

lemma apicProgramRoute_masked {ioapic pin vector} (valid : s.entryValid ioapic pin = true) (small : vector < 256)
    (bsp : s.bspId < 256) (level low : Bool) : apicProgramRoute cpu ioapic pin vector s.bspId level low true s =
      if cpu.foreground then (.ok, s.setEntry ioapic pin (redirLow vector level low true) (redirHigh s.bspId)) else
      (.context, s) := by
  have whole : redirLow vector level low true ||| 1 <<< 16 = redirLow vector level low true :=
    redirLow_masked ⟨vector, small⟩ level low
  unfold apicProgramRoute
  rw [if_neg (by simp [valid]; omega)]
  cases cpu.foreground
  · rfl
  · simp only [Bool.not_true, Bool.false_eq_true, if_false, if_true, whole, State.setEntry]

/-- The entry that a legacy line resolves to. -/
def State.resolve (s : State) (irq : Nat) : Option (Nat × Nat) := (s.irqGsi irq).bind fun found => s.gsiOwner found.1

/-- What programming a legacy route can come to. -/
inductive Programs (s : State) (irq : Nat) : Result × State → Prop
  | refused (result : Result) (failed : result ≠ .ok) (next : State) (fixed : next.fixed = s.fixed)
  (registers : next.registers = s.registers)
      (used : (next.legacyRoutes irq).used = (s.legacyRoutes irq).used) (kind : (next.legacyRoutes irq).msi =
        (s.legacyRoutes irq).msi)
      (others : ∀ other, other ≠ .legacy irq → next.route other = s.route other) : Programs s irq (result, next)
  | done (next : State) (ioapic pin : Nat) (resolved : s.resolve irq = some (ioapic, pin)) (level low : Bool)
    (route : ∃ gsi, next.legacyRoutes irq =
        { s.legacyRoutes irq with gsi, ioapic, pin, level, low, vector := irqBase + irq, programmed := true, masked := true })
      (fixed : next.fixed = s.fixed) (others : ∀ other, other ≠ .legacy irq → next.route other = s.route other)
      (registers : next.registers = (s.setEntry ioapic pin (redirLow (irqBase + irq) level low true)
        (redirHigh s.bspId)).registers) :
      Programs s irq (.ok, next)

lemma setLegacy_others (s : State) (irq : Nat) (route : Route) (distinct : other ≠ .legacy irq) :
    (s.setLegacy irq route).route other = s.route other := by
  cases other with
  | legacy line => exact Function.update_of_ne (fun same => distinct (by rw [same])) _ _
  | dyn slot => rfl

lemma setLegacy_self (s : State) (irq : Nat) (route : Route) : (s.setLegacy irq route).legacyRoutes irq = route :=
  Function.update_self ..

lemma setDyn_others (s : State) (slot : Nat) (route : Route) (distinct : other ≠ .dyn slot) :
    (s.setDyn slot route).route other = s.route other := by
  cases other with
  | legacy line => rfl
  | dyn line => exact Function.update_of_ne (fun same => distinct (by rw [same])) _ _

lemma setDyn_self (s : State) (slot : Nat) (route : Route) : (s.setDyn slot route).dynRoutes slot = route :=
  Function.update_self ..

lemma programResolved_programs (bsp : s.bspId < 256) (valid : s.entryValid route.ioapic route.pin = true)
    (small : route.vector < 256) (cpu : Cpu) (irq : Nat) :
    (programResolved cpu irq route s = (.hw, s.setLegacy irq route)) ∨
      programResolved cpu irq route s = (.ok, (((s.setLegacy irq route).setEntry route.ioapic route.pin
        (redirLow route.vector route.level route.low true)
          (redirHigh s.bspId)).setLegacy irq { route with programmed := true, masked := true })) := by
  have programs := @apicProgramRoute_masked (s.setLegacy irq route) cpu route.ioapic route.pin route.vector valid
    small bsp route.level route.low
  unfold programResolved
  dsimp only
  rw [programs]
  cases cpu.foreground
  · exact .inl rfl
  refine .inr ?_
  generalize writtenIs : (s.setLegacy irq route).setEntry route.ioapic route.pin
    (redirLow route.vector route.level route.low true) (redirHigh (s.setLegacy irq route).bspId) = written
  have found : Matches written { route with masked := true } := by
    subst writtenIs
    exact matches_setEntry _ valid small rfl rfl
  have same : written.bspId = s.bspId := by
    subst writtenIs
    rfl
  have read : apicReadRoute route.ioapic route.pin written = some ⟨route.vector, written.bspId, route.level,
    route.low, true⟩ :=
    found.read (same ▸ bsp)
  simp only [if_true, ne_eq, not_true_eq_false, if_false, read]
  rw [← writtenIs]
  rfl

lemma programLegacy_programs (bsp : s.bspId < 256) (cpu : Cpu) (irq : Nat) :
    Programs s irq (programLegacy cpu irq s) := by
  unfold programLegacy
  split
  next => exact .refused _ (by decide) s rfl rfl rfl rfl fun _ _ => rfl
  next gsi level low line =>
  split
  next => exact .refused _ (by decide) s rfl rfl rfl rfl fun _ _ => rfl
  next ioapic pin owner =>
  have small : irqBase + irq < 256 := by
    have bound : irq < irqCount := by
      by_contra high
      rw [State.irqGsi, if_pos (.inl (Nat.not_lt.mp high))] at line
      cases line
    unfold irqBase irqCount at *
    omega
  have resolved : s.resolve irq = some (ioapic, pin) := by rw [State.resolve, line, Option.bind_some, owner]
  generalize routeIs : { s.legacyRoutes irq with gsi, ioapic, pin, level, low, vector := irqBase + irq } = route
  have valid : s.entryValid route.ioapic route.pin = true := by rw [← routeIs]; exact gsiOwner_valid owner
  rcases programResolved_programs bsp valid (by rw [← routeIs]; exact small) cpu irq with failed | done
  · rw [failed]
    exact .refused _ (by decide) _ rfl rfl (by rw [setLegacy_self, ← routeIs])
      (by rw [setLegacy_self, ← routeIs]) fun other distinct => setLegacy_others s irq route distinct
  rw [done]
  subst routeIs
  refine .done _ ioapic pin resolved level low ⟨gsi, setLegacy_self ..⟩ rfl (fun other distinct => ?_) rfl
  rw [setLegacy_others _ irq _ distinct]
  exact setLegacy_others s irq _ distinct

/-! Calls on one line. -/

/-- No live route uses the entry. -/
def State.Spare (s : State) (entry : Nat × Nat) : Prop :=
  ∀ line ∈ lines, s.Live line → (s.route line).entry ≠ (entry.1, lowRegister entry.2)

instance (s : State) (entry : Nat × Nat) : Decidable (s.Spare entry) := inferInstanceAs (Decidable (∀ line ∈ lines, _))

/-- What a call does before the core is active. -/
structure Dormant (s next : State) : Prop where
  off : s.active = false
  fixed : next.fixed = s.fixed
  registers : next.registers = s.registers
  dyns : next.dynRoutes = s.dynRoutes
  kinds : ∀ irq, (next.legacyRoutes irq).used = true → .legacy irq ∈ lines ∧ (next.legacyRoutes irq).msi = .none

lemma Wired.legacy (wired : Wired s) (irq : Nat) (used : (s.legacyRoutes irq).used = true) :
    .legacy irq ∈ lines ∧ (s.legacyRoutes irq).msi = .none :=
  ⟨wired.inside _ used, wired.kinds irq used⟩

lemma legacy_inside : .legacy irq ∈ lines ↔ irq < irqCount := by
  simp [lines]

lemma dyn_inside : .dyn slot ∈ lines ↔ slot < dynamicRoutes := by
  simp [lines]

def Step (s next : State) (line : Line) : Prop := (s.active = true ∧ Change s next line) ∨ Dormant s next

lemma Wired.same (wired : Wired s) (line : Line) : Step s s line := by
  cases on : s.active
  · exact .inr ⟨on, rfl, rfl, rfl, wired.legacy⟩
  · exact .inl ⟨on, .idle rfl rfl fun _ => .inl rfl⟩

/-- Before activation a call may change one line, and leaves a legacy route in it. -/
lemma Wired.dormant (wired : Wired s) (off : s.active = false) (fixed : next.fixed = s.fixed)
    (registers : next.registers = s.registers)
    (own : (next.legacyRoutes irq).used = true → .legacy irq ∈ lines ∧ (next.legacyRoutes irq).msi = .none)
    (others : ∀ other, other ≠ .legacy irq → next.route other = s.route other) : Dormant s next := by
  refine ⟨off, fixed, registers, funext fun slot => others (.dyn slot) (by simp), fun other used => ?_⟩
  by_cases here : other = irq
  · subst here
    exact own used
  have same : next.legacyRoutes other = s.legacyRoutes other := others (.legacy other) (by simpa using here)
  rw [same] at used ⊢
  exact wired.legacy other used

/-- A call that leaves the registers alone and changes nothing but an unused line. -/
lemma Wired.unused (wired : Wired s) (line : Line) {irq} (fixed : next.fixed = s.fixed)
    (registers : next.registers = s.registers)
    (before : (s.legacyRoutes irq).used = false) (after : (next.legacyRoutes irq).used = false)
    (others : ∀ other, other ≠ .legacy irq → next.route other = s.route other) : Step s next line := by
  cases on : s.active
  · exact .inr (wired.dormant on fixed registers (fun used => absurd (used.symm.trans after) nofun) others)
  · refine .inl ⟨on, .idle fixed registers fun other => ?_⟩
    by_cases own : other = .legacy irq
    · subst own
      exact .inr ⟨before, after⟩
    · exact .inl (others other own)

lemma resolve_of_fixed (same : next.fixed = s.fixed) : next.resolve irq = s.resolve irq := by
  simp only [State.fixed, Fixed.mk.injEq] at same
  simp only [State.resolve, State.irqGsi, State.gsiOwner, same]

lemma resolve_valid (resolved : s.resolve irq = some (ioapic, pin)) : s.entryValid ioapic pin = true := by
  obtain ⟨gsi, -, owner⟩ := Option.bind_eq_some_iff.mp resolved
  exact gsiOwner_valid owner

lemma setEntry_congr (same : next.registers = s.registers) (ioapic pin lo hi : Nat) :
    (next.setEntry ioapic pin lo hi).registers = (s.setEntry ioapic pin lo hi).registers := by
  funext i r
  rw [setEntry_registers, setEntry_registers, same]

lemma apicRouteRegister_step (wired : Wired s) (handler : Option Nat) (opaqueArg : Nat)
    (spare : s.active = true → (s.legacyRoutes irq).used = false →
      ∀ entry, s.resolve irq = some entry → s.Spare entry) :
    Step s (apicRouteRegister cpu irq handler opaqueArg s).2 (.legacy irq) := by
  unfold apicRouteRegister
  split
  · exact wired.same _
  next accepted =>
  have inside : irq < irqCount := by
    simp only [not_or, Nat.not_le] at accepted
    exact accepted.1
  split
  · exact wired.same _
  split
  · exact wired.same _
  next unused =>
  replace unused : (s.legacyRoutes irq).used = false := by simpa using unused
  generalize routeIs : (s.legacyRoutes irq).registered irq handler opaqueArg = route
  have alike := apicVectorClaim_alike cpu (irqBase + irq) irq (s.setLegacy irq route)
  dsimp only
  generalize apicVectorClaim cpu (irqBase + irq) irq (s.setLegacy irq route) = claim at alike ⊢
  obtain ⟨claimed, mid⟩ := claim
  have fixed : mid.fixed = s.fixed := alike.fixed
  have registers : mid.registers = s.registers := alike.registers
  have own : mid.legacyRoutes irq = route := (congrFun alike.routes (.legacy irq)).trans (setLegacy_self ..)
  have others : ∀ other, other ≠ .legacy irq → mid.route other = s.route other := fun other distinct =>
    (congrFun alike.routes other).trans (setLegacy_others _ _ _ distinct)
  dsimp only
  split
  · refine wired.unused _ fixed registers unused (by rw [setLegacy_self]) fun other distinct => ?_
    rw [setLegacy_others _ _ _ distinct, others other distinct]
  split
  next asleep =>
    refine .inr (wired.dormant (by rw [← active_of_fixed fixed]; simpa using asleep) fixed registers
      (fun _ => ?_) others)
    rw [own, ← routeIs]
    exact ⟨legacy_inside.mpr inside, rfl⟩
  next awake =>
  have active : s.active = true := by rw [← active_of_fixed fixed]; simpa using awake
  have programs : Programs mid irq (programLegacy cpu irq mid) :=
    programLegacy_programs (bspId_of_fixed fixed ▸ wired.bsp) cpu irq
  generalize programLegacy cpu irq mid = outcome at programs ⊢
  cases programs with
  | refused result failed last fixedToo registersToo used kind othersToo =>
    rw [if_pos failed]
    refine wired.unused _ (fixedToo.trans fixed) (registersToo.trans registers) unused
      (congrArg Route.used (setLegacy_self ..))
      fun other distinct => ?_
    exact (setLegacy_others _ _ _ distinct).trans ((othersToo other distinct).trans (others other distinct))
  | done last ioapic pin resolved level low found fixedToo othersToo registersToo =>
    rw [if_neg fun failed => failed rfl]
    obtain ⟨gsi, found⟩ := found
    replace found : last.route (.legacy irq) = _ := found
    rw [own, ← routeIs] at found
    have fresh := spare active unused (ioapic, pin) (by rw [← resolve_of_fixed fixed, resolved])
    have valid : s.entryValid ioapic pin = true := resolve_valid (resolve_of_fixed fixed ▸ resolved)
    refine .inl ⟨active, .program (fixedToo.trans fixed) (legacy_inside.mpr inside) ?_ ?_ ?_ ?_ ?_
      (fun other distinct => ?_) ?_⟩
    · rw [State.Live, found]
      exact ⟨rfl, rfl, rfl⟩
    · rw [found]
    · rw [found]
      unfold irqBase irqCount at *
      dsimp only
      omega
    · rw [found]
      exact valid
    · rw [found]
      exact fun other live => fresh other (wired.inside other live.1) live
    · exact (othersToo other distinct).trans (others other distinct)
    · rw [registersToo, setEntry_congr registers, bspId_of_fixed fixed, found]

lemma apicSetRouteMask_foreground (valid : s.entryValid ioapic pin = true) (inside : cpu.foreground = true)
    (mask : Bool) :
    apicSetRouteMask cpu ioapic pin mask s = (.ok, s.ioapicWrite ioapic (lowRegister pin)
      (if mask then s.registers ioapic (lowRegister pin) ||| 1 <<< 16
        else s.registers ioapic (lowRegister pin) &&& 0xfffeffff)) := by
  rw [apicSetRouteMask, if_neg (by simp [valid]), if_neg (by simp [inside])]

lemma apicRouteSetMasked_step (wired : Wired s) (masked : Nat)
    (outside : s.active = true → (s.legacyRoutes irq).used = true → cpu.foreground = true ∨
      (s.legacyRoutes irq).masked = (masked == 1)) :
    Step s (apicRouteSetMasked cpu irq masked s).2 (.legacy irq) := by
  unfold apicRouteSetMasked
  iterate 3
    split
    · exact wired.same _
  next used =>
  replace used : (s.legacyRoutes irq).used = true := by simpa using used
  generalize routeIs : { s.legacyRoutes irq with masked := masked == 1 } = route
  have own : (s.setLegacy irq route).legacyRoutes irq = route := setLegacy_self ..
  have others : ∀ other, other ≠ .legacy irq → (s.setLegacy irq route).route other = s.route other := fun other =>
    setLegacy_others s irq route
  have activeIs : (s.setLegacy irq route).active = s.active := rfl
  dsimp only
  rw [activeIs, own]
  split
  next asleep =>
    refine .inr (wired.dormant (by simpa using asleep) rfl rfl (fun _ => ?_) others)
    rw [own, ← routeIs]
    exact wired.legacy irq used
  next awake =>
  have active : s.active = true := by simpa using awake
  have live := wired.live active used
  have found := wired.matches_ active _ live
  have programmed : route.programmed = true := by rw [← routeIs]; exact live.2.1
  rw [if_neg (by simp [programmed])]
  refine .inl ⟨active, ?_⟩
  by_cases inside : cpu.foreground = true
  · have valid : (s.setLegacy irq route).entryValid route.ioapic route.pin = true := by
      rw [← routeIs]; exact found.valid
    rw [apicSetRouteMask_foreground valid inside]
    refine .mask rfl live (masked == 1) ?_ others ?_
    · exact own.trans routeIs.symm
    · have value := redirLow_set ⟨(s.legacyRoutes irq).vector, found.vector⟩ (s.legacyRoutes irq).level
        (s.legacyRoutes irq).low
        (s.legacyRoutes irq).masked (masked == 1)
      rw [← routeIs]
      exact congrArg (fun v => (s.ioapicWrite _ _ v).registers) ((congrArg
        (fun lo => if (masked == 1) = true then lo ||| 1 <<< 16 else lo &&& 0xfffeffff) found.low).trans value)
  have unchanged : route = s.legacyRoutes irq := by
    rw [← routeIs, ← (outside active used).resolve_left inside]
  have context : (apicSetRouteMask cpu route.ioapic route.pin (masked == 1) (s.setLegacy irq route)).2 =
    s.setLegacy irq route := by
    unfold apicSetRouteMask
    split
    · rfl
    · rw [if_pos (by simpa using inside)]
  rw [context]
  refine .idle rfl rfl fun other => .inl ?_
  by_cases same : other = .legacy irq
  · rw [same]
    exact own.trans unchanged
  · exact others other same

lemma apicRouteGsiUnregister_step (wired : Wired s) (found : s.slotOf vector = some slot) :
    Step s (apicRouteGsiUnregister cpu vector s).2 (.dyn slot) := by
  unfold apicRouteGsiUnregister
  split
  · exact wired.same _
  split
  · exact wired.same _
  next inside =>
  replace inside : cpu.foreground = true := by simpa using inside
  rw [found]
  dsimp only
  split
  · exact wired.same _
  next kind =>
  obtain ⟨used, -⟩ : (s.dynRoutes slot).used = true ∧ (s.dynRoutes slot).vector = vector := by
    simpa using find?_some found
  cases active : s.active
  · rw [wired.quiet active slot] at used
    cases used
  have programmed := wired.programmed active (.dyn slot) used (Decidable.not_not.mp kind)
  have live : s.Live (.dyn slot) := ⟨used, programmed, Decidable.not_not.mp kind⟩
  have known : (s.dynRoutes slot).programmed = true := programmed
  obtain ⟨value, written⟩ : ∃ value, apicSetRouteMask cpu (s.dynRoutes slot).ioapic (s.dynRoutes slot).pin true s =
      (.ok, s.ioapicWrite (s.dynRoutes slot).ioapic (lowRegister (s.dynRoutes slot).pin) value) :=
    ⟨_, apicSetRouteMask_foreground (wired.matches_ active _ live).valid inside true⟩
  rw [if_pos known, written]
  dsimp only
  rw [if_neg fun failed => failed rfl]
  have alike := apicVectorRelease_alike cpu vector
    ((s.ioapicWrite (s.dynRoutes slot).ioapic (lowRegister (s.dynRoutes slot).pin)
    value).setDyn slot (s.dynRoutes slot).dropped)
  refine .inl ⟨active, .drop alike.fixed live ?_ value (fun other distinct => ?_) alike.registers⟩
  · rw [alike.routes]
    exact congrArg Route.used (setDyn_self ..)
  · rw [alike.routes]
    exact setDyn_others _ _ _ distinct

lemma freeSlot_inside (found : s.freeSlot = some slot) : .dyn slot ∈ lines :=
  dyn_inside.mpr (mem_range.mp (mem_of_find?_eq_some found))

lemma apicVectorAlloc_small {vector} (taken : apicVectorAlloc cpu s = (some vector, next)) : vector < 256 := by
  unfold apicVectorAlloc at taken
  split at taken
  · cases taken
  split at taken
  · cases taken
  rename_i v found
  cases taken
  have member := mem_of_find?_eq_some found
  simp only [pool, mem_map, mem_range, dynamicEnd, dynamicBase] at member
  omega

lemma programDyn_step (bsp : s.bspId < 256) (inside : cpu.foreground = true)
    (valid : s.entryValid route.ioapic route.pin = true) (small : route.vector < 256) :
    programDyn cpu slot route s = (.ok, some route.vector,
      ((((s.setDyn slot route).setOwner route.vector (0x100 + slot)).setEntry route.ioapic
      route.pin (redirLow route.vector route.level route.low true)
        (redirHigh s.bspId)).setDyn slot { route with programmed := true })) := by
  have programs := @apicProgramRoute_masked ((s.setDyn slot route).setOwner route.vector (0x100 + slot)) cpu
    route.ioapic route.pin
    route.vector valid small bsp route.level route.low
  rw [if_pos inside] at programs
  unfold programDyn
  dsimp only
  rw [programs]
  rfl

lemma apicRouteGsiRegister_step (wired : Wired s) (vacant : s.freeSlot = some slot) (gsi level low : Nat)
    (handler : Option Nat) (opaqueArg : Nat) (vector : Bool)
    (spare : s.active = true → ∀ entry, s.gsiOwner gsi = some entry → s.Spare entry) :
    Step s (apicRouteGsiRegister cpu gsi level low handler opaqueArg vector s).2.2 (.dyn slot) := by
  unfold apicRouteGsiRegister
  split
  · exact wired.same _
  split
  · exact wired.same _
  next inside =>
  replace inside : cpu.foreground = true := by simpa using inside
  split
  · exact wired.same _
  next awake =>
  have active : s.active = true := by simpa using awake
  rw [vacant]
  dsimp only
  split
  · exact wired.same _
  next ioapic pin owner =>
  have alike := apicVectorAlloc_alike cpu s
  have pooled := @apicVectorAlloc_small s
  split
  next mid exhausted =>
    rw [exhausted] at alike
    exact .inl ⟨active, .idle alike.fixed alike.registers fun other => .inl (congrFun alike.routes other)⟩
  next allocated mid taken =>
  rw [taken] at alike
  have small := pooled taken
  generalize routeIs : (mid.dynRoutes slot).forGsi gsi allocated ioapic pin (level == 1) (low == 1) handler
    opaqueArg = route
  have bsp : mid.bspId < 256 := bspId_of_fixed alike.fixed ▸ wired.bsp
  have valid : s.entryValid ioapic pin = true := gsiOwner_valid owner
  have entry : mid.entryValid route.ioapic route.pin = true := by
    rw [entryValid_of_fixed alike.fixed, ← routeIs]
    exact valid
  rw [programDyn_step bsp inside entry (by rw [← routeIs]; exact small)]
  dsimp only
  generalize lastIs : ((((mid.setDyn slot route).setOwner route.vector (0x100 + slot)).setEntry route.ioapic
      route.pin (redirLow route.vector route.level route.low true) (redirHigh mid.bspId)).setDyn slot
      { route with programmed := true }) = last
  have found : last.route (.dyn slot) = { route with programmed := true } := by rw [← lastIs]; exact setDyn_self ..
  refine .inl ⟨active, .program ?_ (freeSlot_inside vacant) ?_ ?_ ?_ ?_ ?_ (fun other distinct => ?_) ?_⟩
  · rw [← lastIs]
    exact alike.fixed
  · rw [State.Live, found, ← routeIs]
    exact ⟨rfl, rfl, rfl⟩
  · rw [found, ← routeIs]
    rfl
  · rw [found, ← routeIs]
    exact small
  · rw [found, ← routeIs]
    exact valid
  · rw [found, ← routeIs]
    exact fun other live => spare active _ owner other (wired.inside other live.1) live
  · rw [← lastIs, setDyn_others _ _ _ distinct]
    exact (setDyn_others _ _ _ distinct).trans (congrFun alike.routes other)
  · rw [found, ← lastIs, ← bspId_of_fixed alike.fixed]
    exact setEntry_congr alike.registers ..

end Rynor.Apic
