import Mathlib.Tactic.SplitIfs
import Rynor.Interrupts.Apic

/-! Redirection entries and the routes that use them: what each call of the interrupt core does
to the registers, the routes and the rest of its state. -/

namespace Rynor.Apic
variable {ioapic pin i : Nat} {line other : Line}

variable {s next : State} {cpu : Cpu}

/-! Registers. -/

lemma highRegister_eq (pin : Nat) : highRegister pin = lowRegister pin + 1 := by
  unfold highRegister lowRegister redirBase
  omega

lemma lowRegister_even (pin : Nat) : lowRegister pin % 2 = 0 := by
  unfold lowRegister redirBase
  omega

lemma ioapicWrite_registers (ioapic register value i r : Nat) :
    (s.ioapicWrite ioapic register value).registers i r = if i = ioapic ∧ r = register then value
    else s.registers i r := by
  unfold State.ioapicWrite
  by_cases same : i = ioapic
  · subst same
    by_cases equal : r = register <;> simp [equal]
  · simp [same]

/-- An entry is two registers, and different entries have different registers. -/
lemma entry_registers (apart : (i, lowRegister p) ≠ (ioapic, lowRegister pin)) :
    ¬(i = ioapic ∧ lowRegister p = lowRegister pin) ∧ ¬(i = ioapic ∧ highRegister p = highRegister pin) ∧
      ¬(i = ioapic ∧ lowRegister p = highRegister pin) ∧ ¬(i = ioapic ∧ highRegister p = lowRegister pin) := by
  have even := lowRegister_even p
  have evenToo := lowRegister_even pin
  simp only [ne_eq, Prod.mk.injEq] at apart
  rw [highRegister_eq, highRegister_eq]
  omega

lemma redirLow_masked :
    ∀ vector : Fin 256, ∀ level low : Bool, redirLow vector level low true ||| 1 <<< 16 = redirLow vector level low true := by
  decide +kernel

lemma redirLow_set : ∀ vector : Fin 256, ∀ level low mask other : Bool,
    (if other then redirLow vector level low mask ||| 1 <<< 16 else redirLow vector level low mask &&& 0xfffeffff) =
      redirLow vector level low other := by decide +kernel

lemma decode_redir : ∀ vector : Fin 256, ∀ level low mask : Bool, ∀ hi : Nat,
    decode (redirLow vector level low mask) hi = ⟨vector, hi >>> 24 &&& 0xff, level, low, mask⟩ := by
  have fields : ∀ vector : Fin 256, ∀ level low mask : Bool,
      redirLow vector level low mask &&& 0xff = vector ∧ (redirLow vector level low mask >>> 15 &&& 1 == 1) = level ∧
        (redirLow vector level low mask >>> 13 &&& 1 == 1) = low ∧
          (redirLow vector level low mask >>> 16 &&& 1 == 1) = mask := by
    decide +kernel
  intro vector level low mask hi
  obtain ⟨number, trigger, polarity, masked⟩ := fields vector level low mask
  rw [decode, number, trigger, polarity, masked]

lemma redirHigh_dest : ∀ dest : Fin 256, redirHigh dest >>> 24 &&& 0xff = dest := by decide +kernel

/-! Routes. -/

/-- The slots of the two route tables. -/
inductive Line
  | legacy (irq : Nat)
  | dyn (slot : Nat)
  deriving DecidableEq

def lines : List Line := (List.range irqCount).map .legacy ++ (List.range dynamicRoutes).map .dyn

def State.route (s : State) : Line → Route
  | .legacy irq => s.legacyRoutes irq
  | .dyn slot => s.dynRoutes slot

/-- The entry that a route uses, by the register it is written through. -/
def Route.entry (route : Route) : Nat × Nat := (route.ioapic, lowRegister route.pin)

/-- The route is registered and has an entry of its own. -/
def State.Live (s : State) (line : Line) : Prop :=
  (s.route line).used = true ∧ (s.route line).programmed = true ∧ (s.route line).msi = .none

instance (s : State) (line : Line) : Decidable (s.Live line) := inferInstanceAs (Decidable (_ ∧ _ ∧ _))

/-- The entry of the route says what the route says. -/
structure Matches (s : State) (route : Route) : Prop where
  valid : s.entryValid route.ioapic route.pin = true
  vector : route.vector < 256
  low : s.registers route.ioapic (lowRegister route.pin) = redirLow route.vector route.level route.low route.masked
  high : s.registers route.ioapic (highRegister route.pin) = redirHigh s.bspId

/-- The registers of the route's entry are the same in both states. -/
def Untouched (s next : State) (route : Route) : Prop :=
  next.registers route.ioapic (lowRegister route.pin) = s.registers route.ioapic (lowRegister route.pin) ∧
    next.registers route.ioapic (highRegister route.pin) = s.registers route.ioapic (highRegister route.pin)

instance (s next : State) (route : Route) : Decidable (Untouched s next route) := inferInstanceAs (Decidable (_ ∧ _))

lemma Matches.read (found : Matches s route) (bsp : s.bspId < 256) :
    apicReadRoute route.ioapic route.pin s = some ⟨route.vector, s.bspId, route.level, route.low, route.masked⟩ := by
  have fields := decode_redir ⟨route.vector, found.vector⟩ route.level route.low route.masked (redirHigh s.bspId)
  rw [redirHigh_dest ⟨s.bspId, bsp⟩] at fields
  simp only [apicReadRoute, found.valid, Bool.not_true, Bool.false_eq_true, if_false, found.low, found.high]
  exact congrArg some fields

/-! What stays. -/

/-- What no call changes after activation. -/
structure Fixed where
  topology : Topology
  platform : Platform
  lapicReady : Bool
  ioapicReady : Bool
  active : Bool
  bspId : Nat
  ioapicCount : Nat
  ioapicMax : Nat → Nat

def State.fixed (s : State) : Fixed :=
  ⟨s.topology, s.platform, s.lapicReady, s.ioapicReady, s.active, s.bspId, s.ioapicCount, s.ioapicMax⟩

lemma entryValid_of_fixed (same : next.fixed = s.fixed) (ioapic pin : Nat) :
    next.entryValid ioapic pin = s.entryValid ioapic pin := by
  simp only [State.fixed, Fixed.mk.injEq] at same
  simp only [State.entryValid, same]

lemma active_of_fixed (same : next.fixed = s.fixed) : next.active = s.active := congrArg Fixed.active same

lemma bspId_of_fixed (same : next.fixed = s.fixed) : next.bspId = s.bspId := congrArg Fixed.bspId same

/-- Only the vector pool differs. -/
structure Alike (s next : State) : Prop where
  fixed : next.fixed = s.fixed
  registers : next.registers = s.registers
  routes : next.route = s.route

lemma Alike.refl (s : State) : Alike s s := ⟨rfl, rfl, rfl⟩

lemma apicVectorAlloc_alike (cpu : Cpu) (s : State) : Alike s (apicVectorAlloc cpu s).2 := by
  unfold apicVectorAlloc
  split
  · exact .refl s
  split <;> exact ⟨rfl, rfl, rfl⟩

lemma apicVectorClaim_alike (cpu : Cpu) (vector owner : Nat) (s : State) :
    Alike s (apicVectorClaim cpu vector owner s).2 := by
  unfold apicVectorClaim
  split_ifs <;> exact ⟨rfl, rfl, rfl⟩

lemma apicVectorRelease_alike (cpu : Cpu) (vector : Nat) (s : State) : Alike s (apicVectorRelease cpu vector s).2 := by
  unfold apicVectorRelease
  split_ifs <;> exact ⟨rfl, rfl, rfl⟩

/-! What a call can do. -/

/-- The two registers of an entry are written. -/
def State.setEntry (s : State) (ioapic pin lo hi : Nat) : State :=
  (s.ioapicWrite ioapic (highRegister pin) hi).ioapicWrite ioapic (lowRegister pin) lo

/-- What a call does to the line it is about. -/
inductive Change (s next : State) (line : Line) : Prop
  | idle (fixed : next.fixed = s.fixed) (registers : next.registers = s.registers)
      (routes : ∀ other, next.route other = s.route other ∨
        ((s.route other).used = false ∧ (next.route other).used = false))
  | program (fixed : next.fixed = s.fixed) (inside : line ∈ lines) (live : next.Live line)
      (masked : (next.route line).masked = true) (vector : (next.route line).vector < 256)
      (valid : s.entryValid (next.route line).ioapic (next.route line).pin = true)
      (fresh : ∀ other, s.Live other → (s.route other).entry ≠ (next.route line).entry)
      (others : ∀ other, other ≠ line → next.route other = s.route other)
      (registers : next.registers = (s.setEntry (next.route line).ioapic (next.route line).pin
        (redirLow (next.route line).vector (next.route line).level (next.route line).low true)
          (redirHigh s.bspId)).registers)
  | mask (fixed : next.fixed = s.fixed) (live : s.Live line) (masked : Bool) (route : next.route line =
    { s.route line with masked })
      (others : ∀ other, other ≠ line → next.route other = s.route other)
      (registers : next.registers = (s.ioapicWrite (s.route line).ioapic (lowRegister (s.route line).pin)
        (redirLow (s.route line).vector (s.route line).level (s.route line).low masked)).registers)
  | drop (fixed : next.fixed = s.fixed) (live : s.Live line) (gone : (next.route line).used = false) (value : Nat)
      (others : ∀ other, other ≠ line → next.route other = s.route other)
      (registers : next.registers = (s.ioapicWrite (s.route line).ioapic (lowRegister (s.route line).pin)
        value).registers)

lemma setEntry_registers : (s.setEntry ioapic pin lo hi).registers i r =
      if i = ioapic ∧ r = lowRegister pin then lo else if i = ioapic ∧ r = highRegister pin then hi
      else s.registers i r := by
  rw [State.setEntry, ioapicWrite_registers, ioapicWrite_registers]

/-- An entry that was just written, masked, says what its route says. -/
lemma matches_setEntry (s : State) (valid : next.entryValid route.ioapic route.pin = true) (small : route.vector < 256)
    (masked : route.masked = true) (registers : next.registers =
      (s.setEntry route.ioapic route.pin (redirLow route.vector route.level route.low true)
      (redirHigh next.bspId)).registers) : Matches next route := by
  refine ⟨valid, small, ?_, ?_⟩
  · rw [registers, setEntry_registers, if_pos ⟨rfl, rfl⟩, masked]
  · rw [registers, setEntry_registers, if_neg, if_pos ⟨rfl, rfl⟩]
    rw [highRegister_eq]
    omega

lemma untouched_setEntry (apart : route.entry ≠ (ioapic, lowRegister pin))
    (registers : next.registers = (s.setEntry ioapic pin lo hi).registers) : Untouched s next route := by
  obtain ⟨lowLow, highHigh, lowHigh, highLow⟩ := entry_registers apart
  rw [Untouched, registers, setEntry_registers, setEntry_registers, if_neg lowLow, if_neg lowHigh, if_neg highLow,
    if_neg highHigh]
  exact ⟨rfl, rfl⟩

/-! The wiring of an active core. -/

/-- Every registered route has a valid entry that says what the route says, and no two share one. -/
structure Wired (s : State) : Prop where
  bsp : s.bspId < 256
  ready : s.active = true → s.lapicReady = true ∧ s.ioapicReady = true ∧ s.platform.picQuiet = true
  inside : ∀ line, (s.route line).used = true → line ∈ lines
  kinds : ∀ irq, (s.legacyRoutes irq).used = true → (s.legacyRoutes irq).msi = .none
  quiet : s.active = false → ∀ slot, (s.dynRoutes slot).used = false
  programmed : s.active = true → ∀ line, (s.route line).used = true → (s.route line).msi = .none →
    (s.route line).programmed = true
  matches_ : s.active = true → ∀ line, s.Live line → Matches s (s.route line)
  apart : s.active = true → ∀ a b, a ≠ b → s.Live a → s.Live b → (s.route a).entry ≠ (s.route b).entry

section
variable (wired : Wired s) (active : s.active = true)
include wired active

lemma Wired.live (used : (s.legacyRoutes irq).used = true) : s.Live (.legacy irq) :=
  ⟨used, wired.programmed active (.legacy irq) used (wired.kinds irq used), wired.kinds irq used⟩

lemma Wired.check : apicCheck s = true := by
  obtain ⟨lapic, ioapic, quiet⟩ := wired.ready active
  have routes : (List.range irqCount).all (fun irq => routeMatches s (s.legacyRoutes irq)) = true := by
    refine List.all_eq_true.mpr fun irq _ => ?_
    by_cases used : (s.legacyRoutes irq).used = true
    · have read := (wired.matches_ active _ (wired.live active used)).read wired.bsp
      exact Bool.or_eq_true_iff.mpr (.inr (beq_iff_eq.mpr read))
    · simp [routeMatches, used]
  simp only [apicCheck, active, lapic, ioapic, quiet, routes, Bool.and_self]

/-- A call on one line leaves the entries of the other live lines alone. -/
lemma Wired.untouched (change : Change s next line) (distinct : other ≠ line) (live : s.Live other) :
    Untouched s next (s.route other) := by
  cases change with
  | idle fixed registers routes => exact ⟨by rw [registers], by rw [registers]⟩
  | program fixed inside now masked vector valid fresh others registers =>
    exact untouched_setEntry (fresh other live) registers
  | mask fixed here masked route others registers | drop fixed here gone value others registers =>
    obtain ⟨lowLow, -, -, highLow⟩ := entry_registers (wired.apart active other line distinct live here)
    rw [Untouched, registers, ioapicWrite_registers, ioapicWrite_registers, if_neg lowLow, if_neg highLow]
    exact ⟨rfl, rfl⟩

end

lemma Matches.keep (found : Matches s route) (fixed : next.fixed = s.fixed) (same : Untouched s next route) :
    Matches next route where
  valid := (entryValid_of_fixed fixed _ _).trans found.valid
  vector := found.vector
  low := same.1.trans found.low
  high := by rw [same.2, found.high, bspId_of_fixed fixed]

lemma live_congr (same : next.route line = s.route line) : next.Live line ↔ s.Live line := by
  rw [State.Live, State.Live, same]

lemma kept_route (routes : ∀ other, next.route other = s.route other ∨
      ((s.route other).used = false ∧ (next.route other).used = false))
    (used : (next.route line).used = true) : next.route line = s.route line :=
  (routes line).resolve_right fun dead => nomatch used.symm.trans dead.2

section
variable (change : Change s next line)
include change

lemma Change.elsewhere (distinct : other ≠ line) (used : (next.route other).used = true) :
    next.route other = s.route other := by
  cases change with
  | idle fixed registers routes => exact kept_route routes used
  | program _ _ _ _ _ _ _ others | mask _ _ _ _ others | drop _ _ _ _ others => exact others other distinct

/-- The live lines after a call are those before it and the line it is about. -/
lemma Change.live_before (distinct : other ≠ line) (live : next.Live other) :
    s.Live other ∧ next.route other = s.route other := by
  have same := change.elsewhere distinct live.1
  exact ⟨(live_congr same).mp live, same⟩

lemma Change.fixed : next.fixed = s.fixed := by
  cases change <;> assumption

lemma Change.self (wired : Wired s) (active : s.active = true) (live : next.Live line) :
    Matches next (next.route line) ∧ ∀ other, other ≠ line → s.Live other → (s.route other).entry ≠
    (next.route line).entry := by
  have bsp := bspId_of_fixed change.fixed
  have valid := entryValid_of_fixed change.fixed
  cases change with
  | idle fixed registers routes =>
    have same := kept_route routes live.1
    have before := (live_congr same).mp live
    rw [same]
    exact ⟨(wired.matches_ active line before).keep fixed ⟨by rw [registers], by rw [registers]⟩,
      fun other distinct other_live => wired.apart active other line distinct other_live before⟩
  | program fixed inside now masked vector entry fresh others registers =>
    refine ⟨matches_setEntry s ((valid _ _).trans entry) vector masked ?_, fun other _ => fresh other⟩
    rw [bsp]
    exact registers
  | mask fixed here masked route others registers =>
    have before := wired.matches_ active line here
    rw [route]
    refine ⟨⟨(valid _ _).trans before.valid, before.vector, ?_, ?_⟩,
      fun other distinct other_live => wired.apart active other line distinct other_live here⟩
    · rw [registers, ioapicWrite_registers, if_pos ⟨rfl, rfl⟩]
    · rw [registers, ioapicWrite_registers, if_neg, before.high, bsp]
      dsimp only
      rw [highRegister_eq]
      omega
  | drop fixed here gone value others registers =>
    rw [live.1] at gone
    cases gone

end

/-- A line that is used after a call is as it was, or is the line the call is about. -/
lemma Change.settled {line other} (change : Change s next line) (used : (next.route other).used = true) :
    next.route other = s.route other ∨ (other = line ∧ next.Live line ∧
      ((s.route line).used = true ∨ line ∈ lines)) := by
  by_cases own : other = line
  · subst own
    cases change with
    | idle fixed registers routes => exact .inl (kept_route routes used)
    | program fixed inside now masked vector valid fresh others registers => exact .inr ⟨rfl, now, .inr inside⟩
    | mask fixed here masked route others registers =>
      refine .inr ⟨rfl, ?_, .inl here.1⟩
      rw [State.Live, route]
      exact here
    | drop fixed here gone value others registers =>
      rw [used] at gone
      cases gone
  exact .inl (change.elsewhere own used)

lemma Wired.change (wired : Wired s) (active : s.active = true) (change : Change s next line) : Wired next where
  bsp := bspId_of_fixed change.fixed ▸ wired.bsp
  ready := by
    have fixed := change.fixed
    simp only [State.fixed, Fixed.mk.injEq] at fixed
    simpa only [fixed] using wired.ready
  inside other used := by
    rcases change.settled used with same | ⟨rfl, -, already | inside⟩
    · exact wired.inside other (same ▸ used)
    · exact wired.inside other already
    · exact inside
  kinds irq used := by
    rcases @Change.settled s next line (.legacy irq) change used with same | ⟨own, live, -⟩
    · exact (congrArg Route.msi same).trans (wired.kinds irq ((congrArg Route.used same).symm.trans used))
    · subst own
      exact live.2.2
  quiet off := by
    rw [active_of_fixed change.fixed, active] at off
    cases off
  programmed _ other used kind := by
    rcases change.settled used with same | ⟨own, live, -⟩
    · rw [same] at used kind ⊢
      exact wired.programmed active other used kind
    · exact (own ▸ live).2.1
  matches_ _ other live := by
    by_cases own : other = line
    · subst own
      exact (change.self wired active live).1
    obtain ⟨before, same⟩ := change.live_before own live
    rw [same]
    exact (wired.matches_ active other before).keep change.fixed (wired.untouched active change own before)
  apart _ a b distinct first second := by
    by_cases ownFirst : a = line
    · subst ownFirst
      obtain ⟨before, same⟩ := change.live_before (Ne.symm distinct) second
      rw [same]
      exact Ne.symm ((change.self wired active first).2 b (Ne.symm distinct) before)
    obtain ⟨before, same⟩ := change.live_before ownFirst first
    rw [same]
    by_cases ownSecond : b = line
    · subst ownSecond
      exact (change.self wired active second).2 a distinct before
    obtain ⟨beforeToo, sameToo⟩ := change.live_before ownSecond second
    rw [sameToo]
    exact wired.apart active a b distinct before beforeToo

end Rynor.Apic
