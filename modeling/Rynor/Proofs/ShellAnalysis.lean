import Rynor.Proofs.ShellTree
import Rynor.Shell.Sem

/-! The iterative analysis computes what a recursive check of the tree does: the types of the children are found
before their parent looks at them, whatever the type array held before. -/

namespace Rynor.Shell
open Checks List
variable {slots : Nat → Nat → Option Nat → Prop}

variable {context : AnContext} {pool after : List Node} {index : Nat} {tree : Tree}

/-! The recursive check. -/

def settled : Option Ty → Except Diag Ty
  | none => .error .semType
  | some ty => .ok ty

def resolveType (context : AnContext) (off len : Nat) : Except Diag Ty :=
  let name := slice context.text off len
  if reserved name then .error .semUndeclared
  else
    match lookup context.tab context.src name with
    | none => .error .semUndeclared
    | some row =>
      match context.tab[row]? with
      | none => .error .internal
      | some sym => .ok sym.type

lemma resolveType_ok (found : resolveType context off len = .ok ty) :
    ∃ row sym, lookup context.tab context.src (slice context.text off len) = some row ∧
    context.tab[row]? = some sym ∧ sym.type = ty := by
  obtain ⟨_, found⟩ := ok_iff.mp found
  split at found
  next => cases found
  rename_i row looked
  split at found
  next => cases found
  rename_i sym known
  cases found
  exact ⟨row, sym, looked, known, rfl⟩

lemma resolve_eq (state : AnState) (off len : Nat) : state.resolve context index off len =
    resolveType context off len >>= fun ty => .ok (AnState.setType
      { state with pool := state.pool.set index (.var off len (lookup context.tab context.src (slice context.text off len))) } index ty) := by
  unfold AnState.resolve resolveType
  dsimp only
  split
  · rfl
  cases lookup context.tab context.src (slice context.text off len) with
  | none => rfl
  | some row =>
    dsimp only
    cases context.tab[row]? <;> rfl

/-- The check of a tree; `callees` gives the names of the nodes that are called. -/
def Tree.check (context : AnContext) (callees : Nat → Option (List UInt8)) : Tree → Except Diag Ty
  | .int _ => .ok .int
  | .bool _ => .ok .bool
  | .str bytes => if bytes.length > 4096 then .error .semLimit else .ok .str
  | .var off width => resolveType context off width
  | .unop op a => do settled (unopType op (← a.check context callees))
  | .binop op a b => do settled (binopType op (← a.check context callees) (← b.check context callees))
  | .call a callee argc => do
    let ty ← a.check context callees
    match callees callee with
    | none => .error .semUnknownFn
    | some name =>
      if !isPrint name then .error .semUnknownFn
      else if argc ≠ 1 then .error .semArity
      else settled (if ty = .unit then none else some .unit)
  | .len a argc => do
    let ty ← a.check context callees
    if argc ≠ 1 then .error .semArity else settled (if ty = .str then some .int else none)

/-- The turns the walk takes over a tree. -/
def Tree.turns : Tree → Nat
  | .int _ | .bool _ | .str _ | .var .. => 1
  | .unop _ a | .call a .. | .len a _ => 2 + a.turns
  | .binop _ a b => 2 + (a.turns + b.turns)

lemma Tree.turns_lt (tree : Tree) : tree.turns + 1 ≤ 2 * tree.size := by
  induction tree with
  | int | bool | str | var => exact Nat.le_refl _
  | unop _ a ih | call a _ _ ih | len a _ ih | binop _ _ _ _ _ => simp only [Tree.turns, Tree.size]; omega

/-- Trees that fit the pool are walked within the turns and the room of a walk. -/
lemma Tree.walked (fits : tree.size ≤ poolMax) :
    (∃ spare, walkFuel = spare + 1 + tree.turns) ∧ ([] : List (Nat × Bool)).length + tree.size ≤ subWalk := by
  have turns := tree.turns_lt
  have cap : poolMax = 256 ∧ walkFuel = 513 ∧ subWalk = 512 := ⟨rfl, rfl, rfl⟩
  exact ⟨⟨walkFuel - tree.turns - 1, by omega⟩, by simp only [length_nil]; omega⟩

/-! Pools along the walk. -/

/-- The row of a variable is the one the lookup finds. -/
def Bound (context : AnContext) (off len : Nat) (slot : Option Nat) : Prop :=
  ∃ row, slot = some row ∧ lookup context.tab context.src (slice context.text off len) = some row

/-- The analysis changes nothing but rows of variables, and those to the ones the lookup finds. -/
def Advances (context : AnContext) (pool after : List Node) : Prop :=
  ∀ index : Nat, after[index]? = pool[index]? ∨
    ∃ off len slot other, pool[index]? = some (.var off len slot) ∧ after[index]? = some (.var off len other) ∧
      Bound context off len other

lemma Advances.refl : Advances context pool pool := fun _ => .inl rfl

lemma Advances.trans (first : Advances context pool after) (second : Advances context after last) :
    Advances context pool last := by
  intro index
  rcases second index with same | ⟨off, len, slot, other, here, there, bound⟩
  · rw [same]
    exact first index
  rcases first index with same | ⟨off', len', slot', other', here', there', _⟩
  · exact .inr ⟨off, len, slot, other, same ▸ here, there, bound⟩
  rw [there'] at here
  cases here
  exact .inr ⟨off, len, slot', other, here', there, bound⟩

section
variable (advances : Advances context pool after)
include advances

lemma Advances.node {node} (here : pool[index]? = some node) (plain : ∀ off len slot, node ≠ .var off len slot) :
    after[index]? = some node := by
  rcases advances index with same | ⟨off, len, slot, other, known, _⟩
  · rw [same, here]
  · rw [here] at known
    exact absurd (Option.some.inj known) (plain off len slot)

lemma Advances.bounded (bounded : pool.length ≤ poolMax) : after.length ≤ poolMax := by
  by_contra spent
  have beyond : pool[pool.length]? = none := getElem?_eq_none (Nat.le_refl _)
  rcases advances pool.length with same | ⟨_, _, _, _, here, _⟩
  · rw [beyond, getElem?_eq_none_iff] at same
    omega
  · rw [beyond] at here
    cases here

lemma Advances.reads (allowed : ∀ off len slot, Bound context off len slot → slots off len slot)
    (reads : Reads slots pool index tree) :
    Reads slots after index tree := by
  induction reads with
  | int here => exact .int (advances.node here nofun)
  | bool here => exact .bool (advances.node here nofun)
  | str here => exact .str (advances.node here nofun)
  | @var index off len slot here known =>
    rcases advances index with same | ⟨off', len', slot', other, here', there, bound⟩
    · exact .var (same.trans here) known
    rw [here] at here'
    cases here'
    exact .var there (allowed _ _ _ bound)
  | unop here _ ih => exact .unop (advances.node here nofun) ih
  | binop here _ _ first second => exact .binop (advances.node here nofun) first second
  | call here _ ih => exact .call (advances.node here nofun) ih
  | len here _ ih => exact .len (advances.node here nofun) ih

lemma Advances.calleeName (callee : Nat) : calleeName context after callee = calleeName context pool callee := by
  unfold Shell.calleeName
  rcases advances callee with same | ⟨off, len, slot, other, here, there, _⟩
  · rw [same]
  · rw [here, there]

end

lemma Reads.unique (left : Reads slots pool index first) (right : Reads others pool index second) : first = second := by
  induction left generalizing second with
  | int here | bool here | str here | var here _ => cases right <;> simp_all
  | unop here _ ih | call here _ ih | len here _ ih =>
    cases right <;> simp_all
    exact ih ‹_›
  | binop here _ _ one two =>
    cases right <;> simp_all
    exact ⟨one ‹_›, two ‹_›⟩

lemma Reads.relax (reads : Reads slots pool index tree) : Reads anySlot pool index tree := by
  induction reads with
  | int here => exact .int here
  | bool here => exact .bool here
  | str here => exact .str here
  | var here _ => exact .var here trivial
  | unop here _ ih => exact .unop here ih
  | binop here _ _ first second => exact .binop here first second
  | call here _ ih => exact .call here ih
  | len here _ ih => exact .len here ih

/-! The walk. -/

/-- The types found so far stay: whatever is written at an index is the type of the tree there. -/
def Frames (context : AnContext) (pool : List Node) (types later : Nat → Option Ty) : Prop :=
  ∀ other tree ty, Reads anySlot pool other tree → tree.check context (calleeName context pool) = .ok ty →
    types other = some ty → later other = some ty

/-- What the walk over a tree of type `ty` leaves. -/
structure Analysed (context : AnContext) (pool after : List Node) (types later : Nat → Option Ty) (index : Nat)
    (tree : Tree) (ty : Ty) :
    Prop where
  advances : Advances context pool after
  reads : Reads (Bound context) after index tree
  typed : later index = some ty
  frames : Frames context pool types later

/-- The walk over a tree ends with the error of its check, or with its type. -/
def Walks (context : AnContext) (pool : List Node) (index : Nat) (tree : Tree) (types : Nat → Option Ty)
    (walk : List (Nat × Bool)) (fuel : Nat) : Prop :=
  (∃ diag, tree.check context (calleeName context pool) = .error diag ∧
    anLoop context (fuel + tree.turns) ⟨pool, types, (index, false) :: walk⟩ = .error diag) ∨
  ∃ ty after later, tree.check context (calleeName context pool) = .ok ty ∧
    anLoop context (fuel + tree.turns) ⟨pool, types, (index, false) :: walk⟩ =
      anLoop context fuel ⟨after, later, walk⟩ ∧
      Analysed context pool after types later index tree ty

variable {types later : Nat → Option Ty} {walk : List (Nat × Bool)} {fuel : Nat} {node : Node} {ty : Ty}

section
variable (here : pool[index]? = some node) (bounded : pool.length ≤ poolMax)
include here bounded

lemma index_small : ¬ index ≥ poolMax := by
  have inside := (List.getElem?_eq_some_iff.mp here).1
  omega

lemma anLoop_first :
    anLoop context (fuel + 1) ⟨pool, types, (index, false) :: walk⟩ =
    (anFirst context index ⟨pool, types, walk⟩ node >>= anLoop context fuel) := by
  show (anStep context (index, false) ⟨pool, types, walk⟩ >>= anLoop context fuel) = _
  unfold anStep
  rw [if_neg (index_small here bounded)]
  simp only [here, Bool.false_eq_true, if_false]

lemma anLoop_second :
    anLoop context (fuel + 1) ⟨pool, types, (index, true) :: walk⟩ =
    (anSecond context index ⟨pool, types, walk⟩ node >>= anLoop context fuel) := by
  show (anStep context (index, true) ⟨pool, types, walk⟩ >>= anLoop context fuel) = _
  unfold anStep
  rw [if_neg (index_small here bounded)]
  simp only [here, if_true]

end

lemma frames_set (reads : Reads anySlot pool index tree)
    (checked : tree.check context (calleeName context pool) = .ok ty) (frames : Frames context pool types later) :
    Frames context pool types fun other => if other = index then some ty else later other := by
  intro other found own known same typed
  by_cases here : other = index
  · subst here
    rw [known.unique reads, checked] at same
    cases same
    exact if_pos rfl
  dsimp only
  rw [if_neg here]
  exact frames other found own known same typed

lemma walks_leaf (reads : Reads (Bound context) pool index tree) (bounded : pool.length ≤ poolMax)
    (here : pool[index]? = some node)
    (turns : tree.turns = 1) (checked : tree.check context (calleeName context pool) = .ok ty)
    (first : anFirst context index ⟨pool, types, walk⟩ node = .ok ((⟨pool, types, walk⟩ : AnState).setType index ty)) :
    Walks context pool index tree types walk fuel := by
  have plain : Reads anySlot pool index tree := Reads.relax reads
  refine .inr ⟨ty, pool, _, checked, ?_, .refl, reads, if_pos rfl,
    frames_set plain checked fun _ _ _ _ _ known => known⟩
  rw [turns, anLoop_first here bounded, first]
  rfl

lemma walks_var (bounded : pool.length ≤ poolMax) (here : pool[index]? = some (.var off len slot)) :
    Walks context pool index (.var off len) types walk fuel := by
  have plain : Reads anySlot pool index (.var off len) := .var here trivial
  have loop : anLoop context (fuel + 1) ⟨pool, types, (index, false) :: walk⟩ =
      ((⟨pool, types, walk⟩ : AnState).resolve context index off len >>= anLoop context fuel) :=
        anLoop_first here bounded
  rw [resolve_eq] at loop
  cases found : resolveType context off len with
  | error diag =>
    rw [found] at loop
    exact .inl ⟨diag, found, loop⟩
  | ok ty =>
    obtain ⟨row, _, looked, _⟩ := resolveType_ok found
    rw [found, looked] at loop
    have bound : Bound context off len (some row) := ⟨row, rfl, looked⟩
    have written : (pool.set index (.var off len (some row)))[index]? = some (.var off len (some row)) :=
      getElem?_set_self (List.getElem?_eq_some_iff.mp here).1
    refine .inr ⟨ty, _, _, found, loop, fun other => ?_, .var written bound, if_pos rfl,
      frames_set plain found fun _ _ _ _ _ typed => typed⟩
    by_cases same : other = index
    · subst same
      exact .inr ⟨off, len, slot, some row, here, written, bound⟩
    · exact .inl (getElem?_set_ne (Ne.symm same))

lemma settle_eq (state : AnState) (index : Nat) (found : Option Ty) :
    state.settle index found = settled found >>= fun ty => .ok (state.setType index ty) := by
  cases found <;> rfl

lemma visit_ok {state : AnState} {children : List Nat} (room : state.walk.length + (children.length + 1) ≤ subWalk) :
    state.visit index children = .ok { state with walk := children.map (·, false) ++ (index, true) :: state.walk } :=
  if_neg (Nat.not_lt.mpr room)

/-- A node over one child: the child is walked, then the node is visited again. -/
lemma walks_unary {k1 : Nat} {a : Tree} {finish : Ty → Except Diag Ty} (here : pool[index]? = some node)
    (plain : ∀ off len slot, node ≠ .var off len slot) (bounded : pool.length ≤ poolMax)
    (room : walk.length + (1 + a.size) ≤ subWalk)
    (reads : Reads anySlot pool index tree) (turns : tree.turns = 2 + a.turns)
    (first : anFirst context index ⟨pool, types, walk⟩ node = (⟨pool, types, walk⟩ : AnState).visit index [k1])
    (child : ((index, true) :: walk).length + a.size ≤ subWalk →
      Walks context pool k1 a types ((index, true) :: walk) (fuel + 1))
    (whole : tree.check context (calleeName context pool) = a.check context (calleeName context pool) >>= finish)
    (second : ∀ ty after later, Advances context pool after → later k1 = some ty →
      anSecond context index ⟨after, later, walk⟩ node =
      finish ty >>= fun own => .ok ((⟨after, later, walk⟩ : AnState).setType index own))
    (parent : ∀ after, after[index]? = some node → Reads (Bound context) after k1 a →
      Reads (Bound context) after index tree) :
    Walks context pool index tree types walk fuel := by
  have positive := a.size_pos
  have loop : anLoop context (fuel + tree.turns) ⟨pool, types, (index, false) :: walk⟩ =
      anLoop context (fuel + 1 + a.turns) ⟨pool, types, (k1, false) :: (index, true) :: walk⟩ := by
    have count : fuel + tree.turns = fuel + 1 + a.turns + 1 := by omega
    rw [count, anLoop_first here bounded, first, visit_ok (by simp only [length_cons, length_nil]; omega)]
    rfl
  rcases child (by simp only [length_cons]; omega) with ⟨diag, checked, stopped⟩ | ⟨ty, after, later, checked,
    walked, analysed⟩
  · exact .inl ⟨diag, by rw [whole, checked]; rfl, loop.trans stopped⟩
  have there := analysed.advances.node here plain
  have again := loop.trans (walked.trans (anLoop_second there (analysed.advances.bounded bounded)))
  rw [second ty after later analysed.advances analysed.typed] at again
  rw [checked] at whole
  change _ = finish ty at whole
  cases settles : finish ty with
  | error diag =>
    rw [settles] at again whole
    exact .inl ⟨diag, whole, again⟩
  | ok own =>
    rw [settles] at again whole
    exact .inr ⟨own, after, _, whole, again, analysed.advances, parent after there analysed.reads, if_pos rfl,
      frames_set reads whole analysed.frames⟩

lemma Reads.small (reads : Reads slots pool index tree) (bounded : pool.length ≤ poolMax) : ¬ index ≥ poolMax := by
  cases reads with
  | int here | bool here | str here | var here _ | unop here _ | binop here _ _ | call here _ | len here _ =>
    exact index_small here bounded

lemma anLoop_walks (reads : Reads anySlot pool index tree) (bounded : pool.length ≤ poolMax)
    (room : walk.length + tree.size ≤ subWalk) :
    Walks context pool index tree types walk fuel := by
  induction tree generalizing pool index types walk fuel with
  | int bits =>
    cases reads with
    | int here => exact walks_leaf (.int here) bounded here rfl rfl rfl
  | bool value =>
    cases reads with
    | bool here => exact walks_leaf (.bool here) bounded here rfl rfl rfl
  | str bytes =>
    cases reads with
    | str here =>
      by_cases long : bytes.length > 4096
      · refine .inl ⟨.semLimit, if_pos long, ?_⟩
        exact (anLoop_first here bounded).trans (by simp only [anFirst, if_pos long]; rfl)
      · exact walks_leaf (.str here) bounded here rfl (if_neg long) (if_neg long)
  | var off len =>
    cases reads with
    | var here _ => exact walks_var bounded here
  | unop op a ih =>
    cases reads with
    | unop here first =>
      refine walks_unary here (by simp) bounded room (.unop here first) rfl (if_neg (first.small bounded))
        (ih first bounded) rfl ?_ fun _ => .unop
      intro ty after later _ typed
      simp only [anSecond, typed, settle_eq]
  | call a callee argc ih =>
    have space : ¬ walk.length + 2 > subWalk := by
      have positive := a.size_pos
      simp only [Tree.size] at room
      omega
    cases reads with
    | call here first =>
      refine walks_unary here (by simp) bounded room (.call here first) rfl
        ((if_neg space).trans (if_neg (first.small bounded)))
        (ih first bounded) rfl ?_ fun _ => .call
      intro ty after later advances typed
      simp only [anSecond, advances.calleeName, Option.bind_some, typed, settle_eq]
      cases calleeName context pool callee with
      | none => rfl
      | some name =>
        dsimp only
        split_ifs <;> rfl
  | len a argc ih =>
    have space : ¬ walk.length + 2 > subWalk := by
      have positive := a.size_pos
      simp only [Tree.size] at room
      omega
    cases reads with
    | len here first =>
      refine walks_unary here (by simp) bounded room (.len here first) rfl
        ((if_neg space).trans (if_neg (first.small bounded)))
        (ih first bounded) rfl ?_ fun _ => .len
      intro ty after later _ typed
      simp only [anSecond, Option.bind_some, typed, settle_eq]
      split_ifs <;> rfl
  | binop op a b first second =>
    have leftPositive := a.size_pos
    have rightPositive := b.size_pos
    simp only [Tree.size] at room
    cases reads with
    | @binop _ _ k1 k2 _ _ here left right =>
      have visited : anFirst context index ⟨pool, types, walk⟩ (.binop op k1 k2) =
          .ok ⟨pool, types, (k1, false) :: (k2, false) :: (index, true) :: walk⟩ := by
        simp only [anFirst, if_neg (not_or.mpr ⟨left.small bounded, right.small bounded⟩)]
        exact visit_ok (by simp only [length_cons, length_nil]; omega)
      have loop : anLoop context (fuel + Tree.turns (.binop op a b)) ⟨pool, types, (index, false) :: walk⟩ =
          anLoop context (fuel + 1 + b.turns + a.turns) ⟨pool, types,
            (k1, false) :: (k2, false) :: (index, true) :: walk⟩ := by
        have count : fuel + Tree.turns (.binop op a b) = fuel + 1 + b.turns + a.turns + 1 := by
          simp only [Tree.turns]; omega
        rw [count, anLoop_first here bounded, visited]
        rfl
      have roomLeft : ((k2, false) :: (index, true) :: walk).length + a.size ≤ subWalk := by
        simp only [length_cons]; omega
      have roomRight : ((index, true) :: walk).length + b.size ≤ subWalk := by simp only [length_cons]; omega
      rcases first left bounded roomLeft with ⟨diag, checked, stopped⟩ | ⟨lt, middle, found, leftChecked, walked, one⟩
      · refine .inl ⟨diag, ?_, loop.trans stopped⟩
        simp only [Tree.check, checked]
        rfl
      have names : calleeName context middle = calleeName context pool := funext one.advances.calleeName
      have later : Reads anySlot middle k2 b := one.advances.reads (fun _ _ _ _ => trivial) right
      rcases second later (one.advances.bounded bounded) roomRight with ⟨diag, checked, stopped⟩ | ⟨rt, after, last,
        rightChecked, again, two⟩
      · rw [names] at checked
        refine .inl ⟨diag, ?_, loop.trans (walked.trans stopped)⟩
        simp only [Tree.check, leftChecked, checked]
        rfl
      rw [names] at rightChecked
      have advances := one.advances.trans two.advances
      have leftTyped : last k1 = some lt := two.frames k1 a lt (one.reads.relax) (by rw [names, leftChecked]) one.typed
      have frames : Frames context pool types last := fun other tree ty known same typed => by
        have typed := one.frames other tree ty known same typed
        exact two.frames other tree ty (one.advances.reads (fun _ _ _ _ => trivial) known) (by rw [names, same]) typed
      have bound : Reads (Bound context) after index (.binop op a b) :=
        .binop (advances.node here (by simp)) (two.advances.reads (fun _ _ _ own => own) one.reads) two.reads
      have whole : Tree.check context (calleeName context pool) (.binop op a b) = settled (binopType op lt rt) := by
        simp only [Tree.check, leftChecked, rightChecked]
        rfl
      have visits := loop.trans (walked.trans
        (again.trans (anLoop_second (advances.node here (by simp)) (advances.bounded bounded))))
      simp only [anSecond, leftTyped, two.typed, settle_eq] at visits
      cases settles : settled (binopType op lt rt) with
      | error diag =>
        rw [settles] at visits whole
        exact .inl ⟨diag, whole, visits⟩
      | ok own =>
        rw [settles] at visits whole
        exact .inr ⟨own, after, _, whole, visits, advances, bound, if_pos rfl,
          frames_set (.binop here left right) whole frames⟩

/-- The analysis of a whole tree: its check, and rows for its variables. -/
lemma anSub_tree (whole : Reads anySlot pool index tree) (fits : tree.size ≤ pool.length)
    (bounded : pool.length ≤ poolMax) :
    (∃ diag, tree.check context (calleeName context pool) = .error diag ∧
      anSub context stale pool index = .error diag) ∨
    ∃ ty after, tree.check context (calleeName context pool) = .ok ty ∧ anSub context stale pool index = .ok
    (ty, after) ∧
      Advances context pool after ∧ Reads (Bound context) after index tree := by
  obtain ⟨⟨spare, count⟩, room⟩ := Tree.walked (Nat.le_trans fits bounded)
  unfold anSub
  rw [if_neg (whole.small bounded), count]
  rcases anLoop_walks whole bounded room with ⟨diag, checked, stopped⟩ | ⟨ty, after, later, checked, walked, analysed⟩
  · exact .inl ⟨diag, checked, by rw [stopped]; rfl⟩
  refine .inr ⟨ty, after, checked, ?_, analysed.advances, analysed.reads⟩
  rw [walked]
  show (match later index with | none => Except.error Diag.internal | some ty => .ok (ty, after)) = _
  rw [analysed.typed]

end Rynor.Shell
