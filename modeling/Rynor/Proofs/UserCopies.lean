import Rynor.Core.UserCopy
import Rynor.Lib.Checks

/-! A copy to or from a caller's pages happens exactly when every page of the range grants
it, and then moves exactly those bytes. -/

namespace Rynor
open Vm ByteMemory List Option
variable {ram src : ByteMemory} {table va level addr p off : Nat} {mapping : Mapping} {wants : Mapping → Bool}
  {after : Machine}

/-- The top of the half of the address space that holds user pages. -/
def userTop : Nat := 2 ^ 47

/-- The tables a walk reads. -/
def Vm.visited (m : Machine) (va : Nat) : Nat → Nat → List Nat
  | 0, table => [table]
  | level + 1, table =>
    table :: match child m (readEntry m table (pageIndex va (level + 1))) with
      | .ok next => visited m va level next
      | .error _ => []

/-- A user's address space: its pages lie in the lower half, on frames of their own that
the kernel owns and that hold none of the tables. -/
structure UserSpace (m : Machine) (s : Space) : Prop where
  window : ∀ {addr mapping}, granted m s readable addr = some mapping → addr < userTop
  owned : ∀ {addr mapping}, granted m s readable addr = some mapping → m.allocated (pageOf mapping.physical) = true
  apart : ∀ {addr mapping} va, granted m s readable addr = some mapping → ∀ table ∈ visited m va 3 s.root,
    pageOf mapping.physical + pageSize ≤ table ∨ table + pageSize ≤ pageOf mapping.physical
  single : ∀ {addr other mapping second}, granted m s readable addr = some mapping → granted m s readable other =
    some second →
    pageOf mapping.physical = pageOf second.physical → pageOf addr = pageOf other

/-- Where a user's byte is. -/
def place (m : Machine) (s : Space) (addr : Nat) : Option Nat :=
  (granted m s readable addr).map fun mapping => pageOf mapping.physical + addr % pageSize

/-- What a user reads at an address. -/
def userByte (m : Machine) (s : Space) (addr : Nat) : Option UInt8 := (place m s addr).map m.ram

/-- The range stays in the user's half and every page of it grants the access. -/
def Allowed (m : Machine) (s : Space) (wants : Mapping → Bool) (uaddr len : Nat) : Prop :=
  ∀ i, i < len → uaddr + i < userTop ∧ (granted m s wants (uaddr + i)).isSome

instance (m : Machine) (s : Space) (wants : Mapping → Bool) (uaddr len : Nat) :
    Decidable (Allowed m s wants uaddr len) :=
  inferInstanceAs (Decidable (∀ i, i < len → _))

variable {m : Machine} {s : Space} {uaddr len : Nat}

/-! A walk reads its tables and nothing else. -/

lemma readEntry_congr (inside : index < 512) (same : ∀ i, i < pageSize → ram (table + i) = m.ram (table + i)) :
    readEntry { m with ram := ram } table index = readEntry m table index := by
  apply littleEndian_congr
  intro i low
  simp only [shift_apply, add_assoc]
  exact same _ (by unfold pageSize; omega)

lemma pageIndex_lt (va level : Nat) : pageIndex va level < 512 := Nat.mod_lt _ (by decide)

lemma walk_congr (same : ∀ other ∈ visited m va level table, ∀ i, i < pageSize → ram (other + i) = m.ram (other + i)) :
    walk { m with ram := ram } va level table = walk m va level table ∧ visited
      { m with ram := ram } va level table = visited m va level table := by
  induction level generalizing table with
  | zero => exact ⟨rfl, rfl⟩
  | succ level ih =>
    have here : readEntry { m with ram := ram } table (pageIndex va (level + 1)) =
      readEntry m table (pageIndex va (level + 1)) :=
      readEntry_congr (pageIndex_lt _ _) (same table (by simp [visited]))
    have below : child { m with ram := ram } = child m := rfl
    cases found : child m (readEntry m table (pageIndex va (level + 1))) with
    | error code => simp [walk, visited, here, below, found, bind, Except.bind]
    | ok next =>
      obtain ⟨walks, visits⟩ := @ih next fun other member => same other (by simp [visited, found, member])
      simp [walk, visited, here, below, found, walks, visits, bind, Except.bind]

lemma walk_visited (found : walk m va level table = .ok last) : last ∈ visited m va level table := by
  induction level generalizing table with
  | zero =>
    cases found
    simp [visited]
  | succ level ih =>
    obtain ⟨next, below, rest⟩ := Checks.bind_ok_iff.mp found
    simp [visited, below, ih rest]

lemma vmQuery_congr (same : ∀ table ∈ visited m va 3 s.root, ∀ i, i < pageSize → ram (table + i) = m.ram (table + i)) :
    vmQuery { m with ram := ram } s va = vmQuery m s va := by
  simp only [vmQuery, (walk_congr same).1]
  cases found : walk m va 3 s.root with
  | error code => rfl
  | ok last =>
    simp only [bind, Except.bind, readEntry_congr (pageIndex_lt va 0) (same last (walk_visited found))]
    rfl

lemma place_eq_some :
    place m s addr = some p ↔ ∃ mapping, granted m s readable addr = some mapping ∧
    pageOf mapping.physical + addr % pageSize = p := by
  simp [place, map_eq_some_iff]

section Unmoved
variable {ram : ByteMemory} (space : UserSpace m s) (same : ∀ p, (∀ addr, place m s addr ≠ some p) → ram p = m.ram p)
include space same

/-- Bytes of the user's own pages are none of the tables'. -/
lemma UserSpace.tables_kept :
    ∀ table ∈ visited m va 3 s.root, ∀ i, i < pageSize → ram (table + i) = m.ram (table + i) := by
  intro table member i low
  apply same
  intro other placed
  obtain ⟨mapping, found, position⟩ := place_eq_some.mp placed
  have clear := space.apart _ found table member
  have offset : other % pageSize < pageSize := Nat.mod_lt _ (by decide)
  omega

lemma UserSpace.granted_congr : granted { m with ram := ram } s = granted m s := by
  funext wants addr
  unfold granted
  rw [vmQuery_congr (space.tables_kept same)]

lemma UserSpace.kept : UserSpace { m with ram := ram } s := by
  have grants := space.granted_congr same
  constructor
  · exact fun found => space.window (grants ▸ found)
  · exact fun found => space.owned (grants ▸ found)
  · intro addr mapping va found
    rw [(walk_congr (space.tables_kept same)).2]
    exact space.apart va (grants ▸ found)
  · exact fun first second => space.single (grants ▸ first) (grants ▸ second)

lemma UserSpace.place_congr : place { m with ram := ram } s = place m s := by
  funext addr
  rw [place, place, space.granted_congr same]

end Unmoved

lemma granted_readable (found : granted m s writable addr = some mapping) :
    granted m s readable addr = some mapping := by
  unfold granted at found ⊢
  split at found
  · simp only [writable, ite_none_right_eq_some, Bool.and_eq_true] at found
    simp [readable, found.1.1, found.2]
  · cases found

lemma granted_foreground (found : granted m s wants addr = some mapping) :
    m.active = true ∧ m.cpu.foreground = true := by
  unfold granted vmQuery context at found
  cases active : m.active <;> cases front : m.cpu.foreground <;> simp_all [bind, Except.bind]

/-- A granted page of a user space is on a frame the kernel may touch. -/
lemma UserSpace.userFrame_eq (space : UserSpace m s)
    (stronger : granted m s wants addr = some mapping → granted m s readable addr = some mapping)
    (found : granted m s wants addr = some mapping) : userFrame m s wants addr = some (pageOf mapping.physical) := by
  obtain ⟨active, front⟩ := granted_foreground found
  have aligned : pageOf mapping.physical % pageSize = 0 := by simp only [pageOf, pageSize]; omega
  simp [userFrame, found, vmFrameAccess, active, front, aligned, space.owned (stronger found)]

/-! The walk over the pages of a range. -/

lemma pieceSize_spec {off} (more : off < len) : 0 < pieceSize uaddr len off ∧ off + pieceSize uaddr len off ≤ len ∧
      ∀ i, off ≤ i → i < off + pieceSize uaddr len off → (uaddr + i) % u64 = (uaddr + off) % u64 + (i - off) ∧
        pageOf ((uaddr + i) % u64) = pageOf ((uaddr + off) % u64) ∧ (uaddr + i) % u64 % pageSize =
        (uaddr + off) % u64 % pageSize + (i - off) := by
  simp only [pieceSize, pageOf, pageSize, u64]
  refine ⟨by omega, by omega, fun i from' upto => ?_⟩
  have whole : (uaddr + i) % 2 ^ 64 = (uaddr + off) % 2 ^ 64 + (i - off) := by omega
  rw [whole]
  omega

variable {σ : Type} {body : σ → Nat → Nat → Nat → Bool × σ}

/-- What every piece carries from its start to its end holds of the whole range. -/
lemma eachPage_rule {I : Nat → σ → Prop} (step : ∀ off state, off < len → I off state → ∃ next,
      body state ((uaddr + off) % u64) off (pieceSize uaddr len off) = (true, next) ∧ I
      (off + pieceSize uaddr len off) next)
    (fuel : Nat) (enough : len - off ≤ fuel) (within : off ≤ len) (start : I off state) :
    ∃ final, eachPage body uaddr len fuel off state = (true, final) ∧ I len final := by
  induction fuel generalizing off state with
  | zero => exact ⟨state, rfl, (show off = len by omega) ▸ start⟩
  | succ fuel ih =>
    by_cases more : off < len
    · obtain ⟨next, ran, carried⟩ := step off state more start
      obtain ⟨advance, bound, -⟩ := @pieceSize_spec uaddr len off more
      obtain ⟨final, rest, holds⟩ := ih (by omega) bound carried
      exact ⟨final, by simp [eachPage, more, ran, rest], holds⟩
    · exact ⟨state, by simp [eachPage, more], (show off = len by omega) ▸ start⟩

/-- A pass that only checks pages checks every byte's page. -/
lemma eachPage_check {ok : Nat → Bool} (paged : ∀ {a b}, pageOf a = pageOf b → ok a = ok b) (fuel : Nat)
    (enough : len - off ≤ fuel) :
    (eachPage (fun _ addr _ _ => (ok addr, ())) uaddr len fuel off ()).1 = true ↔ ∀ i, off ≤ i → i < len → ok
    ((uaddr + i) % u64) = true := by
  induction fuel generalizing off with
  | zero =>
    simp only [eachPage, true_iff]
    intro i from' upto
    omega
  | succ fuel ih =>
    by_cases more : off < len
    · obtain ⟨advance, -, pieces⟩ := @pieceSize_spec uaddr len off more
      simp only [eachPage, more, if_true]
      cases first : ok ((uaddr + off) % u64) with
      | false =>
        simp only [Bool.false_eq_true, false_iff]
        intro every
        rw [every off le_rfl more] at first
        cases first
      | true =>
        rw [ih (by omega)]
        refine ⟨fun later i from' upto => ?_, fun every i from' upto => every i (by omega) upto⟩
        by_cases inside : i < off + pieceSize uaddr len off
        · rw [paged (pieces i from' inside).2.1, first]
        · exact later i (by omega) upto
    simp only [eachPage, more, if_false, true_iff]
    intro i from' upto
    omega

lemma checkPages_iff (wants : Mapping → Bool) :
    checkPages m s wants uaddr len = true ↔ ∀ i, i < len → (granted m s wants ((uaddr + i) % u64)).isSome = true := by
  rw [checkPages, eachPage_check (fun same => by simp only [granted, same]) len (le_of_eq (Nat.sub_zero len))]
  simp

/-- The pages pass their check exactly when the access is allowed. -/
lemma UserSpace.allowed_iff (space : UserSpace m s)
    (stronger : ∀ {addr mapping}, granted m s wants addr = some mapping → granted m s readable addr = some mapping)
    (word : uaddr < u64) : Allowed m s wants uaddr len ↔ checkPages m s wants uaddr len = true := by
  rw [checkPages_iff]
  constructor
  · intro allowed i inside
    obtain ⟨low, grants⟩ := allowed i inside
    rwa [Nat.mod_eq_of_lt (by unfold userTop u64 at *; omega)]
  intro every i inside
  have low : ∀ i, i < len → (uaddr + i) % u64 < userTop := by
    intro i inside
    obtain ⟨mapping, found⟩ := isSome_iff_exists.mp (every i inside)
    exact space.window (stronger found)
  -- An address past the end of the address space would come after its very last page.
  have straight : uaddr + i < u64 := by
    by_contra wrapped
    have last := low (u64 - 1 - uaddr) (by omega)
    rw [show uaddr + (u64 - 1 - uaddr) = u64 - 1 by omega] at last
    exact absurd last (by decide)
  have plain := Nat.mod_eq_of_lt straight
  exact ⟨plain ▸ low i inside, plain ▸ every i inside⟩

/-! The two copies. -/

section Range
variable {off i : Nat} {mapping : Mapping}

lemma Allowed.straight {wants : Mapping → Bool} (allowed : Allowed m s wants uaddr len) (inside : i < len) :
    (uaddr + i) % u64 = uaddr + i := by
  apply Nat.mod_eq_of_lt
  have low := (allowed i inside).1
  unfold userTop u64 at *
  omega

/-- The bytes of one piece lie behind one another on one frame. -/
lemma Allowed.piece {wants : Mapping → Bool} (allowed : Allowed m s wants uaddr len) (more : off < len)
    (found : granted m s readable (uaddr + off) = some mapping) (first : off ≤ i)
    (last : i < off + pieceSize uaddr len off) :
    place m s (uaddr + i) = some (pageOf mapping.physical + (uaddr + off) % pageSize + (i - off)) := by
  obtain ⟨-, bound, pieces⟩ := @pieceSize_spec uaddr len off more
  obtain ⟨-, samePage, offset⟩ := pieces i first last
  rw [allowed.straight (by omega), allowed.straight more] at samePage offset
  apply place_eq_some.mpr
  refine ⟨mapping, ?_, by rw [offset, add_assoc]⟩
  unfold granted at found ⊢
  rwa [samePage]

end Range

/-- The first bytes of a range are in the buffer, the rest of the buffer is as it was. -/
def Filled (m : Machine) (s : Space) (uaddr : Nat) (dst : ByteMemory) (off : Nat) (filled : ByteMemory) : Prop :=
  (∀ i, i < off → userByte m s (uaddr + i) = some (filled i)) ∧ ∀ i, off ≤ i → filled i = dst i

lemma UserSpace.takePiece_filled (space : UserSpace m s) (allowed : Allowed m s readable uaddr len)
    (off : Nat) (filled : ByteMemory) (more : off < len) (before : Filled m s uaddr dst off filled) :
    ∃ next, takePiece m s filled ((uaddr + off) % u64) off (pieceSize uaddr len off) = (true, next) ∧
      Filled m s uaddr dst (off + pieceSize uaddr len off) next := by
  obtain ⟨moved, rest⟩ := before
  obtain ⟨mapping, found⟩ := isSome_iff_exists.mp (allowed off more).2
  rw [allowed.straight more]
  refine ⟨_, by rw [takePiece, space.userFrame_eq id found], fun i upto => ?_, fun i beyond => ?_⟩
  · by_cases earlier : i < off
    · rw [moved i earlier, overlay_outside (.inl earlier)]
    · rw [overlay_inside (by omega) upto, userByte, allowed.piece more found (by omega) upto]
      rfl
  · rw [overlay_outside (.inr beyond), rest i (by omega)]

lemma UserSpace.copyFromUser_eq (space : UserSpace m s) (dst : ByteMemory) (word : uaddr < u64)
    (allowed : Allowed m s readable uaddr len) :
    ∃ filled, copyFromUser m s dst uaddr len = (some len, filled) ∧ Filled m s uaddr dst len filled := by
  have checked := (space.allowed_iff id word).mp allowed
  obtain ⟨filled, ran, done⟩ := eachPage_rule (space.takePiece_filled allowed) len (Nat.le_of_eq (Nat.sub_zero len))
    (Nat.zero_le len) (show Filled m s uaddr dst 0 dst from ⟨fun i none => by omega, fun i _ => rfl⟩)
  exact ⟨filled, by simp [copyFromUser, checked, ran], done⟩

/-- The first bytes of a range stand behind their addresses, and nothing else has changed. -/
structure Moved (m : Machine) (s : Space) (uaddr : Nat) (src : ByteMemory) (off : Nat) (after : Machine) : Prop where
  only : after = { m with ram := after.ram }
  stands : ∀ {i p}, i < off → place m s (uaddr + i) = some p → after.ram p = src i
  rest : ∀ {p}, (∀ i, i < off → place m s (uaddr + i) ≠ some p) → after.ram p = m.ram p

lemma Moved.refl (m : Machine) (s : Space) (uaddr : Nat) (src : ByteMemory) : Moved m s uaddr src 0 m :=
  ⟨rfl, fun none => by omega, fun _ => rfl⟩

lemma Moved.space (moved : Moved m s uaddr src off after) (space : UserSpace m s) :
    UserSpace after s ∧ granted after s = granted m s ∧ place after s = place m s := by
  have same : ∀ p, (∀ addr, place m s addr ≠ some p) → after.ram p = m.ram p := fun p elsewhere =>
    moved.rest fun i _ => elsewhere _
  rw [moved.only]
  exact ⟨space.kept same, space.granted_congr same, space.place_congr same⟩

section
variable (space : UserSpace m s)
include space

/-- Different addresses have their bytes in different places. -/
lemma UserSpace.place_injective (first : place m s addr = some p) (second : place m s other = some p) :
    addr = other := by
  obtain ⟨mapping, found, rfl⟩ := place_eq_some.mp first
  obtain ⟨mapped, found', same⟩ := place_eq_some.mp second
  have frames : pageOf mapping.physical = pageOf mapped.physical ∧ addr % pageSize = other % pageSize := by
    simp only [pageOf, pageSize] at same ⊢
    omega
  have pages := space.single found found' frames.1
  simp only [pageOf, pageSize] at pages frames
  omega

lemma UserSpace.putPiece_moved (allowed : Allowed m s writable uaddr len)
    (off : Nat) (current : Machine) (more : off < len) (before : Moved m s uaddr src off current) :
    ∃ next, putPiece s src current ((uaddr + off) % u64) off (pieceSize uaddr len off) = (true, next) ∧
      Moved m s uaddr src (off + pieceSize uaddr len off) next := by
  obtain ⟨mapping, found⟩ := isSome_iff_exists.mp (allowed off more).2
  have placed := fun i => @Allowed.piece m s uaddr len off i mapping writable allowed more (granted_readable found)
  obtain ⟨kept, grants, -⟩ := before.space space
  have frame : userFrame current s writable (uaddr + off) = some (pageOf mapping.physical) :=
    kept.userFrame_eq granted_readable (grants ▸ found)
  rw [allowed.straight more]
  generalize base_eq : pageOf mapping.physical + (uaddr + off) % pageSize = base at placed
  have covered : ∀ p, base ≤ p → p < base + pieceSize uaddr len off → place m s (uaddr + (off + (p - base))) =
    some p := by
    intro p low high
    rw [placed _ (by omega) (by omega)]
    congr 1
    omega
  refine ⟨{ current with ram := current.ram.overlay base (pieceSize uaddr len off) (src.shift off) },
    by rw [putPiece, frame, ← base_eq], by rw [before.only], fun {i p} upto stands => ?_, fun {p} elsewhere => ?_⟩
  · show current.ram.overlay _ _ _ p = _
    by_cases earlier : i < off
    · rw [overlay_outside ?_, before.stands earlier stands]
      by_contra inside
      have same := space.place_injective stands (covered p (by omega) (by omega))
      omega
    obtain rfl : p = _ := Option.some.inj (stands.symm.trans (placed i (by omega) upto))
    rw [overlay_inside (by omega) (by omega), shift_apply]
    congr 1
    omega
  · show current.ram.overlay _ _ _ p = _
    rw [overlay_outside ?_, before.rest fun i inside => elsewhere i (by omega)]
    by_contra inside
    exact elsewhere _ (by omega) (covered p (by omega) (by omega))

lemma UserSpace.copyDestOk_iff (word : uaddr < u64) (count : len < u64) :
    copyDestOk m s uaddr len = some len ↔ Allowed m s writable uaddr len := by
  rw [space.allowed_iff granted_readable word, copyDestOk]
  by_cases none : len = 0
  · simp [none, checkPages, eachPage]
  simp only [none, if_false]
  split
  next wraps =>
    simp only [reduceCtorEq, false_iff]
    intro checked
    -- The page at the very top of the address space is nobody's.
    have allowed := (space.allowed_iff granted_readable word).mpr checked
    have top := (allowed (len - 1) (by omega)).1
    unfold u64 userTop at *
    omega
  next => simp

lemma UserSpace.copyToUser_eq (src : ByteMemory) (word : uaddr < u64) (count : len < u64)
    (allowed : Allowed m s writable uaddr len) :
    ∃ after, copyToUser m s uaddr src len = (some len, after) ∧ Moved m s uaddr src len after := by
  have checked := (space.copyDestOk_iff word count).mpr allowed
  obtain ⟨after, ran, done⟩ := eachPage_rule (space.putPiece_moved allowed) len (Nat.le_of_eq (Nat.sub_zero len))
    (Nat.zero_le len) (Moved.refl m s uaddr src)
  by_cases none : len = 0
  · subst none
    exact ⟨m, rfl, .refl ..⟩
  · exact ⟨after, by simp [copyToUser, none, checked, ran], done⟩

lemma UserSpace.copyToUser_refused (src : ByteMemory) (word : uaddr < u64) (count : len < u64)
    (refused : ¬ Allowed m s writable uaddr len) : copyToUser m s uaddr src len = (none, m) := by
  have unchecked := mt (space.copyDestOk_iff word count).mp refused
  have some : len ≠ 0 := by
    rintro rfl
    exact refused fun i none => by omega
  simp [copyToUser, some, unchecked]

lemma UserSpace.copyFromUser_refused (dst : ByteMemory) (word : uaddr < u64)
    (refused : ¬ Allowed m s readable uaddr len) : copyFromUser m s dst uaddr len = (none, dst) := by
  have unchecked := mt (space.allowed_iff id word).mpr refused
  simp [copyFromUser, unchecked]

lemma Moved.shows (moved : Moved m s uaddr src len after)
    (allowed : Allowed m s writable uaddr len) : ∀ i, i < len → userByte after s (uaddr + i) = some (src i) := by
  intro i inside
  obtain ⟨mapping, found⟩ := isSome_iff_exists.mp (allowed i inside).2
  obtain ⟨p, placed⟩ : ∃ p, place m s (uaddr + i) = some p :=
    ⟨_, place_eq_some.mpr ⟨mapping, granted_readable found, rfl⟩⟩
  rw [userByte, (moved.space space).2.2, placed]
  exact congrArg some (moved.stands inside placed)

end

/-! A user space to look at. -/

/-- Physical memory with the given words in it. -/
def wordRam (words : Nat → Nat) : ByteMemory := fun p => ofNat (words (p / 8)) (p % 8)

lemma readEntry_wordRam {words : Nat → Nat} (ram : m.ram = wordRam words) (page index : Nat)
    (fits : words (page + index) < u64) :
    readEntry m (8 * page) index = words (page + index) := by
  have small : words (page + index) < 256 ^ 8 := fits
  rw [readEntry, ← littleEndian_ofNat_of_lt small, ram]
  apply littleEndian_congr
  intro i low
  simp only [shift_apply, wordRam, show (8 * page + 8 * index + i) / 8 = page + index by omega,
    show (8 * page + 8 * index + i) % 8 = i by omega]

/-- Four tables, the two pages behind them, a pathname near the end of the second, and in its
middle a descriptor that points there. -/
def twoPageWords (word : Nat) : Nat :=
  if word = 0x200 then 0x2007 else if word = 0x400 then 0x3007 else if word = 0x602 then 0x4007
  else if word = 0x800 then 0x8000000000005007 else if word = 0x801 then 0x8000000000006007
  else if word = 0xdfe then 0x662f else if word = 0xd00 then 0x401ff0 else if word = 0xd01 then 2 else 0

/-- A user with two pages, at the base of the code window. -/
def twoPage : Machine := ⟨⟨true, false⟩, true, wordRam twoPageWords, fun _ => true, 0x10000⟩

def twoPageSpace : Space := ⟨0x1000, true, false⟩

lemma twoPage_entry (page index : Nat) : readEntry twoPage (8 * page) index = twoPageWords (page + index) := by
  apply readEntry_wordRam rfl
  unfold twoPageWords u64
  split_ifs <;> decide

lemma twoPage_child {page slot next index} (table : (page, slot, next) ∈ [(0x200, 0, 0x2000), (0x400, 0, 0x3000),
      (0x600, 2, 0x4000)])
    (inside : index < 512) :
    child twoPage (readEntry twoPage (8 * page) index) = if index = slot then .ok next else .error .notMapped := by
  rw [twoPage_entry]
  by_cases same : index = slot
  · subst same
    simp only [mem_cons, not_mem_nil, or_false, Prod.mk.injEq] at table
    rcases table with ⟨rfl, rfl, rfl⟩ | ⟨rfl, rfl, rfl⟩ | ⟨rfl, rfl, rfl⟩ <;> rfl
  have clear : twoPageWords (page + index) = 0 := by
    simp only [mem_cons, not_mem_nil, or_false, Prod.mk.injEq] at table
    unfold twoPageWords
    split_ifs <;> omega
  rw [clear, if_neg same]
  rfl

/-- Every walk of the two-page machine ends at its last table or at an empty entry. -/
lemma twoPage_walk (va : Nat) : (∀ table ∈ visited twoPage va 3 0x1000, table ≤ 0x4000) ∧ walk twoPage va 3 0x1000 =
    if pageIndex va 3 = 0 ∧ pageIndex va 2 = 0 ∧ pageIndex va 1 = 2 then .ok 0x4000 else .error .notMapped := by
  have level3 : child twoPage (readEntry twoPage 0x1000 (pageIndex va 3)) = if pageIndex va 3 = 0 then .ok 0x2000
    else _ :=
    @twoPage_child 0x200 0 0x2000 _ (by simp) (pageIndex_lt va 3)
  have level2 : child twoPage (readEntry twoPage 0x2000 (pageIndex va 2)) = if pageIndex va 2 = 0 then .ok 0x3000
    else _ :=
    @twoPage_child 0x400 0 0x3000 _ (by simp) (pageIndex_lt va 2)
  have level1 : child twoPage (readEntry twoPage 0x3000 (pageIndex va 1)) = if pageIndex va 1 = 2 then .ok 0x4000
    else _ :=
    @twoPage_child 0x600 2 0x4000 _ (by simp) (pageIndex_lt va 1)
  by_cases first : pageIndex va 3 = 0 <;> by_cases second : pageIndex va 2 = 0 <;> by_cases third :
    pageIndex va 1 = 2 <;>
    simp_all [walk, visited, bind, Except.bind]

lemma twoPage_leaf (found : leafMapping twoPage twoPageSpace va (twoPageWords (0x800 + pageIndex va 0)) = .ok mapping) :
    pageIndex va 0 < 2 ∧ mapping.physical = 0x5000 + 0x1000 * pageIndex va 0 + va % pageSize := by
  have inside := pageIndex_lt va 0
  generalize pageIndex va 0 = index at *
  match index with
  | 0 | 1 =>
    cases found
    exact ⟨by decide, rfl⟩
  | index + 2 =>
    have clear : twoPageWords (0x800 + (index + 2)) = 0 := by
      unfold twoPageWords
      split_ifs <;> omega
    rw [clear] at found
    cases found

lemma twoPage_query (found : vmQuery twoPage twoPageSpace va = .ok mapping) :
    0x400000 ≤ va ∧ va < 0x402000 ∧ mapping.physical + 0x3fb000 = va := by
  have ready : context twoPage twoPageSpace = .ok () := rfl
  simp only [vmQuery, ready, bind, Except.bind, throw, throwThe, MonadExceptOf.throw] at found
  obtain ⟨low, found⟩ := Checks.ok_iff.mp found
  rw [if_neg (by simp [twoPageSpace]), show twoPageSpace.root = 0x1000 from rfl, (twoPage_walk va).2] at found
  split_ifs at found with indices
  obtain ⟨few, frame⟩ := twoPage_leaf ((congrArg (leafMapping _ _ va)
    (twoPage_entry 0x800 (pageIndex va 0))).symm.trans found)
  simp only [canonical, Nat.testBit_eq_decide_div_mod_eq, pageIndex, pageSize, Bool.not_eq_true, Bool.not_eq_false',
    beq_iff_eq,
    decide_eq_true_eq] at low indices few frame
  split at low <;> omega

lemma twoPage_granted (found : granted twoPage twoPageSpace wants addr = some mapping) :
    0x400000 ≤ addr ∧ addr < 0x402000 ∧ pageOf mapping.physical + 0x3fb000 = pageOf addr := by
  unfold granted at found
  split at found
  next leaf queried =>
    obtain ⟨low, high, frame⟩ := twoPage_query queried
    obtain rfl : leaf = mapping := Option.some.inj (ite_none_right_eq_some.mp found).2
    unfold pageOf pageSize at *
    omega
  next => cases found

lemma twoPage_userSpace : UserSpace twoPage twoPageSpace := by
  constructor
  · intro addr mapping found
    have low := (twoPage_granted found).2.1
    unfold userTop
    omega
  · intros
    rfl
  · intro addr mapping va found table member
    have low := (twoPage_walk va).1 table member
    obtain ⟨first, -, frame⟩ := twoPage_granted found
    right
    unfold pageOf pageSize at *
    omega
  · intro addr other mapping second found found' same
    rw [← (twoPage_granted found).2.2, ← (twoPage_granted found').2.2, same]

/-- A copy out succeeds exactly on a range of user-writable pages, a copy in exactly on a range of user pages. A copy
that succeeds moves the bytes of the range and no others, a copy that fails moves none. -/
theorem user_copies_respect_permissions (space : UserSpace m s) (word : uaddr < u64) (count : len < u64)
    (src dst : ByteMemory) :
    ((copyToUser m s uaddr src len).1 = some len ↔ Allowed m s writable uaddr len) ∧
    (Allowed m s writable uaddr len → (∀ i, i < len → userByte (copyToUser m s uaddr src len).2 s (uaddr + i) =
      some (src i)) ∧
      (copyToUser m s uaddr src len).2 = { m with ram := (copyToUser m s uaddr src len).2.ram } ∧
      ∀ p, (∀ i, i < len → place m s (uaddr + i) ≠ some p) → (copyToUser m s uaddr src len).2.ram p = m.ram p) ∧
    (¬ Allowed m s writable uaddr len → copyToUser m s uaddr src len = (none, m)) ∧
    ((copyFromUser m s dst uaddr len).1 = some len ↔ Allowed m s readable uaddr len) ∧
    (Allowed m s readable uaddr len → (∀ i, i < len →
      userByte m s (uaddr + i) = some ((copyFromUser m s dst uaddr len).2 i)) ∧
      ∀ i, len ≤ i → (copyFromUser m s dst uaddr len).2 i = dst i) ∧
    (¬ Allowed m s readable uaddr len → copyFromUser m s dst uaddr len = (none, dst)) := by
  have refusedOut := space.copyToUser_refused src word count
  have refusedIn : ¬ Allowed m s readable uaddr len → _ := space.copyFromUser_refused dst word
  refine ⟨⟨fun copied => ?_, fun allowed => ?_⟩, fun allowed => ?_, refusedOut,
    ⟨fun copied => ?_, fun allowed => ?_⟩, fun allowed => ?_, refusedIn⟩
  · by_contra refused
    simp [refusedOut refused] at copied
  · obtain ⟨after, ran, -⟩ := space.copyToUser_eq src word count allowed
    rw [ran]
  · obtain ⟨after, ran, moved⟩ := space.copyToUser_eq src word count allowed
    rw [ran]
    exact ⟨moved.shows space allowed, moved.only, fun p => moved.rest⟩
  · by_contra refused
    simp [refusedIn refused] at copied
  · obtain ⟨filled, ran, -⟩ := space.copyFromUser_eq dst word allowed
    rw [ran]
  · obtain ⟨filled, ran, moved, rest⟩ := space.copyFromUser_eq dst word allowed
    rw [ran]
    exact ⟨moved, rest⟩

theorem user_copies_respect_permissions_twoPage :
    (copyToUser twoPage twoPageSpace 0x401ffc (ofNat 7) 4).1 = some 4 ∧ copyToUser twoPage twoPageSpace 0x401ffd
    (ofNat 7) 4 = (none, twoPage) :=
  ⟨(user_copies_respect_permissions twoPage_userSpace (by decide) (by decide) (ofNat 7) (ofNat 7)).1.mpr
    (by decide +kernel),
    (user_copies_respect_permissions twoPage_userSpace (by decide) (by decide) (ofNat 7) (ofNat 7)).2.2.1
      (by decide +kernel)⟩

end Rynor
