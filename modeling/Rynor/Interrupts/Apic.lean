import Mathlib.Logic.Function.Basic
import Rynor.Core.Machine

/-! The interrupt core of kernel/interrupts/apic.c: redirection entries of the IOAPICs, the
vector pool and the route table. -/

namespace Rynor.Apic
open Function (update)

inductive Result
  | ok | notReady | invalid | notFound | map | hw | context | busy | exhausted | state
  deriving DecidableEq, Repr

def irqCount : Nat := 16
def irqBase : Nat := 32
def irqEnd : Nat := 47
def dynamicBase : Nat := 48
def dynamicEnd : Nat := 127
def dynamicRoutes : Nat := 32
def redirBase : Nat := 0x10

inductive VectorState
  | free | reserved | irq
  deriving DecidableEq, Repr

inductive RouteKind
  | none | msi | msix
  deriving DecidableEq, Repr

/-- `struct apic_route`; handlers are named by numbers. -/
structure Route where
  used : Bool
  legacy : Bool
  irq : Nat
  gsi : Nat
  vector : Nat
  ioapic : Nat
  pin : Nat
  level : Bool
  low : Bool
  masked : Bool
  programmed : Bool
  handler : Option Nat
  opaqueArg : Nat
  msi : RouteKind
  msiBdf : Nat
  msiIndex : Nat
  deriving DecidableEq

/-- An interrupt source override of the firmware. -/
structure Iso where
  bus : Nat
  source : Nat
  gsi : Nat
  flags : Nat
  deriving DecidableEq

structure Topology where
  present : Bool
  gsiBases : List Nat
  isos : List Iso
  deriving DecidableEq

/-- What the processor, the IOAPICs and the legacy controllers answer during activation. -/
structure Platform where
  lapic : Bool
  apicId : Nat
  maps : Nat → Bool
  maxRedir : Nat → Nat
  picIdle : Bool
  picQuiet : Bool

structure State where
  topology : Topology
  platform : Platform
  /-- The indexed registers of each IOAPIC. -/
  registers : Nat → Nat → Nat
  lapicReady : Bool
  ioapicReady : Bool
  active : Bool
  bspId : Nat
  ioapicCount : Nat
  ioapicMax : Nat → Nat
  vectorState : Nat → VectorState
  vectorOwner : Nat → Nat
  legacyRoutes : Nat → Route
  dynRoutes : Nat → Route

def Route.zero : Route :=
  ⟨false, false, 0, 0, 0, 0, 0, false, false, false, false, none, 0, .none, 0, 0⟩

/-- The state after `apic_vector_init`. -/
def State.boot (topology : Topology) (platform : Platform) : State where
  topology
  platform
  registers _ _ := 0
  lapicReady := false
  ioapicReady := false
  active := false
  bspId := 0
  ioapicCount := 0
  ioapicMax _ := 0
  vectorState v := if v < 48 ∨ (128 ≤ v ∧ v < 256) then .reserved else .free
  vectorOwner _ := 0
  legacyRoutes _ := .zero
  dynRoutes _ := .zero

/-! Redirection entries. -/

/-- A register index is a byte. -/
def lowRegister (pin : Nat) : Nat := (redirBase + 2 * pin) % 256
def highRegister (pin : Nat) : Nat := (redirBase + 2 * pin + 1) % 256

def bit (flag : Bool) (place : Nat) : Nat := flag.toNat <<< place

def redirLow (vector : Nat) (level low mask : Bool) : Nat :=
  vector &&& 0xff ||| bit low 13 ||| bit level 15 ||| bit mask 16
def redirHigh (dest : Nat) : Nat := (dest &&& 0xff) <<< 24

def State.ioapicWrite (s : State) (ioapic register value : Nat) : State :=
  { s with registers := update s.registers ioapic (update (s.registers ioapic) register value) }

def State.entryValid (s : State) (ioapic pin : Nat) : Bool :=
  s.ioapicReady && decide (ioapic < s.ioapicCount) && decide (pin ≤ s.ioapicMax ioapic)

def apicProgramRoute (cpu : Cpu) (ioapic pin vector dest : Nat) (level low mask : Bool) (s : State) : Result × State :=
  if !s.entryValid ioapic pin || decide (vector > 255) || decide (dest > 255) then (.invalid, s)
  else if !cpu.foreground then (.context, s)
  else
    -- The high half first, while the entry is masked.
    let s := s.ioapicWrite ioapic (highRegister pin) (redirHigh dest)
    let s := s.ioapicWrite ioapic (lowRegister pin) (redirLow vector level low mask ||| 1 <<< 16)
    (.ok, if mask then s else s.ioapicWrite ioapic (lowRegister pin) (redirLow vector level low mask))

/-- What a redirection entry says. -/
structure Entry where
  vector : Nat
  dest : Nat
  level : Bool
  low : Bool
  mask : Bool
  deriving DecidableEq

def decode (lo hi : Nat) : Entry :=
  ⟨lo &&& 0xff, hi >>> 24 &&& 0xff, lo >>> 15 &&& 1 == 1, lo >>> 13 &&& 1 == 1, lo >>> 16 &&& 1 == 1⟩

def apicReadRoute (ioapic pin : Nat) (s : State) : Option Entry :=
  if !s.entryValid ioapic pin then none
  else some (decode (s.registers ioapic (lowRegister pin)) (s.registers ioapic (highRegister pin)))

def apicSetRouteMask (cpu : Cpu) (ioapic pin : Nat) (mask : Bool) (s : State) : Result × State :=
  if !s.entryValid ioapic pin then (.invalid, s)
  else if !cpu.foreground then (.context, s)
  else
    let lo := s.registers ioapic (lowRegister pin)
    (.ok, s.ioapicWrite ioapic (lowRegister pin) (if mask then lo ||| 1 <<< 16 else lo &&& 0xfffeffff))

/-- The IOAPIC and the pin of an interrupt number, among IOAPICs from `index` on. -/
def gsiOwnerAt (gsi : Nat) (maxes : Nat → Nat) : (index : Nat) → (bases : List Nat) → Option (Nat × Nat)
  | _, [] => none
  | index, base :: bases => if base ≤ gsi ∧ gsi ≤ base + maxes index then some (index, gsi - base)
    else gsiOwnerAt gsi maxes (index + 1) bases

def State.gsiOwner (s : State) (gsi : Nat) : Option (Nat × Nat) :=
  if !s.topology.present || !s.ioapicReady then none
    else gsiOwnerAt gsi s.ioapicMax 0 (s.topology.gsiBases.take s.ioapicCount)

/-! The vector pool. -/

def State.setVector (s : State) (vector : Nat) (state : VectorState) : State :=
  { s with vectorState := update s.vectorState vector state }

def State.setOwner (s : State) (vector owner : Nat) : State :=
    { s with vectorOwner := update s.vectorOwner vector owner }

/-- The numbers of the pool from `base` up. -/
def pool : List Nat := (List.range (dynamicEnd + 1 - dynamicBase)).map (dynamicBase + ·)

def apicVectorAlloc (cpu : Cpu) (s : State) : Option Nat × State :=
  if !cpu.foreground then (none, s)
  else
    match pool.find? fun v => s.vectorState v == .free with
    | none => (none, s)
    | some v => (some v, s.setVector v .irq)

def apicVectorClaim (cpu : Cpu) (vector owner : Nat) (s : State) : Result × State :=
  if !cpu.interruptsDisabled then (.context, s)
  else if vector < irqBase ∨ vector > irqEnd then (.invalid, s)
  else if s.vectorState vector ≠ .reserved then (.state, s)
  else (.ok, (s.setVector vector .irq).setOwner vector owner)

def apicVectorRelease (cpu : Cpu) (vector : Nat) (s : State) : Result × State :=
  if !cpu.foreground then (.context, s)
  else if vector < dynamicBase ∨ vector > dynamicEnd then (.invalid, s)
  else if s.vectorState vector ≠ .irq then (.state, s)
  else (.ok, (s.setVector vector .free).setOwner vector 0)

/-! Legacy interrupts. -/

/-- The interrupt number of a legacy line, its trigger and its polarity. -/
def apicIrqGsiAt (irq : Nat) : List Iso → Option (Nat × Bool × Bool)
  | [] => some (irq, false, false)
  | iso :: isos =>
    if iso.bus ≠ 0 ∨ iso.source ≠ irq then apicIrqGsiAt irq isos
    else
      let pol := iso.flags &&& 3
      let trg := iso.flags >>> 2 &&& 3
      if pol = 2 ∨ trg = 2 then none else some (iso.gsi, trg == 3, pol == 3)

def State.irqGsi (s : State) (irq : Nat) : Option (Nat × Bool × Bool) :=
  if irq ≥ irqCount ∨ !s.topology.present then none else apicIrqGsiAt irq s.topology.isos

def State.setLegacy (s : State) (irq : Nat) (route : Route) : State :=
    { s with legacyRoutes := update s.legacyRoutes irq route }

def State.setDyn (s : State) (slot : Nat) (route : Route) : State :=
    { s with dynRoutes := update s.dynRoutes slot route }

/-- Programs the entry of a resolved legacy route, masked, and reads it back. -/
def programResolved (cpu : Cpu) (irq : Nat) (route : Route) (s : State) : Result × State :=
  let s := s.setLegacy irq route
  let (programmed, s) := apicProgramRoute cpu route.ioapic route.pin route.vector s.bspId route.level route.low true s
  if programmed ≠ .ok then (.hw, s)
  else if apicReadRoute route.ioapic route.pin s ≠ some ⟨route.vector, s.bspId, route.level, route.low, true⟩ then
    (.hw, s)
  else (.ok, s.setLegacy irq { route with programmed := true, masked := true })

def programLegacy (cpu : Cpu) (irq : Nat) (s : State) : Result × State :=
  match s.irqGsi irq with
  | none => (.invalid, s)
  | some (gsi, level, low) =>
    match s.gsiOwner gsi with
    | none => (.notFound, s)
    | some (ioapic, pin) =>
      programResolved cpu irq { s.legacyRoutes irq with gsi, ioapic, pin, level, low, vector := irqBase + irq } s

def Route.registered (route : Route) (irq : Nat) (handler : Option Nat) (opaqueArg : Nat) : Route :=
  { route with
    used := true, legacy := true, irq, vector := irqBase + irq, masked := true,
    programmed := false, handler, opaqueArg, msi := .none
    msiBdf := 0, msiIndex := 0 }

/-- Gives up a route whose entry could not be programmed. -/
def State.retract (s : State) (irq : Nat) : State :=
  ((s.setLegacy irq { s.legacyRoutes irq with used := false }).setVector (irqBase + irq) .reserved).setOwner
    (irqBase + irq) 0

def apicRouteRegister (cpu : Cpu) (irq : Nat) (handler : Option Nat) (opaqueArg : Nat) (s : State) : Result × State :=
  if irq ≥ irqCount ∨ irq = 2 ∨ handler = none then (.invalid, s)
  else if !cpu.interruptsDisabled then (.context, s)
  else if (s.legacyRoutes irq).used then (.state, s)
  else
    let s := s.setLegacy irq ((s.legacyRoutes irq).registered irq handler opaqueArg)
    let (claimed, s) := apicVectorClaim cpu (irqBase + irq) irq s
    if claimed ≠ .ok then (.state, s.setLegacy irq { s.legacyRoutes irq with used := false })
    else if !s.active then (.ok, s)
    else
      let (programmed, s) := programLegacy cpu irq s
      if programmed ≠ .ok then (.hw, s.retract irq) else (.ok, s)

def apicRouteSetMasked (cpu : Cpu) (irq masked : Nat) (s : State) : Result × State :=
  if irq ≥ irqCount ∨ masked > 1 then (.invalid, s)
  else if !cpu.interruptsDisabled then (.context, s)
  else if !(s.legacyRoutes irq).used then (.state, s)
  else
    let s := s.setLegacy irq { s.legacyRoutes irq with masked := masked == 1 }
    if !s.active then (.ok, s)
    else if !(s.legacyRoutes irq).programmed then (.state, s)
    else apicSetRouteMask cpu (s.legacyRoutes irq).ioapic (s.legacyRoutes irq).pin (masked == 1) s

/-! Dynamic routes. -/

def State.freeSlot (s : State) : Option Nat := (List.range dynamicRoutes).find? fun i => !(s.dynRoutes i).used

/-- The slot of the live route with a vector. -/
def State.slotOf (s : State) (vector : Nat) : Option Nat :=
  (List.range dynamicRoutes).find? fun i => (s.dynRoutes i).used && (s.dynRoutes i).vector == vector

def Route.forGsi (route : Route) (gsi vector ioapic pin : Nat) (level low : Bool) (handler : Option Nat)
    (opaqueArg : Nat) : Route :=
  { route with
    used := true, legacy := false, irq := 0, gsi, vector, ioapic, pin, level, low,
    masked := true, handler, opaqueArg, msi := .none
    msiBdf := 0, msiIndex := 0 }

/-- Programs the entry of a route in its slot; without success the route and its vector are given up. -/
def programDyn (cpu : Cpu) (slot : Nat) (route : Route) (s : State) : Result × Option Nat × State :=
  let s := (s.setDyn slot route).setOwner route.vector (0x100 + slot)
  let (programmed, s) := apicProgramRoute cpu route.ioapic route.pin route.vector s.bspId route.level route.low true s
  if programmed ≠ .ok then (.hw, none, (apicVectorRelease cpu route.vector
    (s.setDyn slot { route with used := false })).2)
  else (.ok, some route.vector, s.setDyn slot { route with programmed := true })

def apicRouteGsiRegister (cpu : Cpu) (gsi level low : Nat) (handler : Option Nat) (opaqueArg : Nat) (vector : Bool)
    (s : State) :
    Result × Option Nat × State :=
  if handler = none ∨ !vector ∨ level > 1 ∨ low > 1 then (.invalid, none, s)
  else if !cpu.foreground then (.context, none, s)
  else if !s.active then (.notReady, none, s)
  else
    match s.freeSlot with
    | none => (.exhausted, none, s)
    | some slot =>
      match s.gsiOwner gsi with
      | none => (.notFound, none, s)
      | some (ioapic, pin) =>
        match apicVectorAlloc cpu s with
        | (none, s) => (.exhausted, none, s)
        | (some allocated, s) =>
          programDyn cpu slot ((s.dynRoutes slot).forGsi gsi allocated ioapic pin (level == 1)
            (low == 1) handler opaqueArg) s

/-- The fields that a route loses with its registration. -/
def Route.dropped (route : Route) : Route :=
  { route with programmed := false, used := false, handler := none, opaqueArg := 0, msi := .none, msiBdf := 0, msiIndex := 0 }

def apicRouteGsiUnregister (cpu : Cpu) (vector : Nat) (s : State) : Result × State :=
  if vector < dynamicBase ∨ vector > dynamicEnd then (.invalid, s)
  else if !cpu.foreground then (.context, s)
  else
    match s.slotOf vector with
    | none => (.notFound, s)
    | some slot =>
      let route := s.dynRoutes slot
      if route.msi ≠ .none then (.invalid, s)
      else
        let (masked, s) := if route.programmed then apicSetRouteMask cpu route.ioapic route.pin true s else (.ok, s)
        if masked ≠ .ok then (.hw, s) else apicVectorRelease cpu vector (s.setDyn slot route.dropped)

/-! Activation. -/

/-- Masks the entries of the pins up to `pins`. -/
def State.quiesce (s : State) (ioapic : Nat) : (pins : Nat) → State
  | 0 => s
  | pin + 1 =>
    (((s.quiesce ioapic pin).ioapicWrite ioapic (lowRegister pin) 0).ioapicWrite ioapic
      (highRegister pin) 0).ioapicWrite ioapic
      (lowRegister pin) (1 <<< 16)

/-- Maps the IOAPICs from `index` on, reads their sizes and masks their entries. -/
def initialiseIoapics : (left index : Nat) → State → Bool × State
  | 0, _, s => (true, s)
  | left + 1, index, s =>
    if !s.platform.maps index then (false, s)
    else
      let max := s.platform.maxRedir index % 256
      initialiseIoapics left (index + 1) ({ s with ioapicMax := update s.ioapicMax index max }.quiesce index (max + 1))

def apicRangesOverlap (maxes : Nat → Nat) (bases : List Nat) : Bool :=
  (List.range bases.length).any fun i => (List.range bases.length).any fun j =>
    decide (i < j) && decide (bases.getD i 0 ≤ bases.getD j 0 + maxes j) &&
      decide (bases.getD j 0 ≤ bases.getD i 0 + maxes i)

def apicLapicInit (s : State) : Bool × State :=
  if s.lapicReady || !s.platform.lapic then (false, s)
    else (true, { s with lapicReady := true, bspId := s.platform.apicId % 256 })

def apicIoapicInit (s : State) : Bool × State :=
  if s.ioapicReady || s.topology.gsiBases.isEmpty then (false, s)
  else
    let (mapped, s) := initialiseIoapics s.topology.gsiBases.length 0 s
    if !mapped then (false, s)
    else
      let s := { s with ioapicCount := s.topology.gsiBases.length }
      if apicRangesOverlap s.ioapicMax s.topology.gsiBases then (false, s) else (true, { s with ioapicReady := true })

def initialiseControllers (s : State) : Bool × State :=
  let (ready, s) := apicLapicInit s
  if !ready then (false, s) else apicIoapicInit s

/-- Programs the used legacy routes from `irq` on. -/
def programAll (cpu : Cpu) : (left irq : Nat) → State → Result × State
  | 0, _, s => (.ok, s)
  | left + 1, irq, s =>
    if (s.legacyRoutes irq).used then
      let (programmed, s) := programLegacy cpu irq s
      if programmed ≠ .ok then (.hw, s) else programAll cpu left (irq + 1) s
    else programAll cpu left (irq + 1) s

/-- Sets the masks of the used legacy routes from `irq` on. -/
def unmaskAll (cpu : Cpu) (wasOn : Nat → Bool) : (left irq : Nat) → State → Result × State
  | 0, _, s => (.ok, s)
  | left + 1, irq, s =>
    if (s.legacyRoutes irq).used then
      let s := s.setLegacy irq { s.legacyRoutes irq with masked := !wasOn irq }
      let (set, s) := apicSetRouteMask cpu (s.legacyRoutes irq).ioapic (s.legacyRoutes irq).pin (!wasOn irq) s
      if set ≠ .ok then (.hw, s) else unmaskAll cpu wasOn left (irq + 1) s
    else unmaskAll cpu wasOn left (irq + 1) s

def apicActivate (cpu : Cpu) (s : State) : Result × State :=
  if !cpu.foreground then (.context, s)
  else if s.active then (.busy, s)
  else if !s.topology.present then (.notReady, s)
  else if !s.platform.picIdle then (.state, s)
  else
    let (initialised, s) := initialiseControllers s
    if !initialised then (.hw, s)
    else
      let (programmed, s) := programAll cpu irqCount 0 s
      if programmed ≠ .ok then (.hw, s)
      else
        let wasOn irq := (s.legacyRoutes irq).used && !(s.legacyRoutes irq).masked
        if !s.platform.picQuiet then (.hw, s) else unmaskAll cpu wasOn irqCount 0 { s with active := true }

def routeMatches (s : State) (route : Route) : Bool :=
  !route.used || !route.programmed || apicReadRoute route.ioapic route.pin s == some ⟨route.vector, s.bspId,
    route.level, route.low, route.masked⟩

def apicCheck (s : State) : Bool :=
  s.active && s.lapicReady && s.ioapicReady && s.platform.picQuiet && (List.range irqCount).all fun irq =>
    routeMatches s (s.legacyRoutes irq)

end Rynor.Apic
