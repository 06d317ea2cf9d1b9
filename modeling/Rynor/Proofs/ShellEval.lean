import Rynor.Proofs.ShellAnalysis
import Rynor.Proofs.ShellOperators

/-! The evaluator with its bounded value stack against the host oracle. A typed expression is evaluated as the oracle
does exactly as long as its values fit the stack; a right-nested expression needs a value for every operator that
still waits for its right side, which the nesting limit of the parser does not bound by the size of the stack. -/

namespace Rynor.Shell
open Checks Host List Option

/-- What the variables stand for. -/
abbrev Env := Nat → Nat → Option Value

def lengthOf : Value → Evaluated Value
  | .str bytes => .ok (.int (BitVec.ofNat 64 bytes.length))
  | _ => .error .internal

/-- The recursive evaluation with `height` values below. -/
def Tree.run (env : Env) : Tree → Nat → Evaluated Value
  | .int bits, height => if height ≥ subVcap then .error .internal else .ok (.int bits)
  | .bool value, height => if height ≥ subVcap then .error .internal else .ok (.bool value)
  | .str bytes, height => if height ≥ subVcap then .error .internal else .ok (.str bytes)
  | .var off width, height =>
    match env off width with
    | none => .error .internal
    | some value => if height ≥ subVcap then .error .internal else .ok value
  | .unop op a, height => do evalUnop op (← a.run env height)
  | .binop op a b, height => do
    let left ← a.run env height
    evalBinop op left (← b.run env (height + 1))
  | .call .., _ => .error .internal
  | .len a _, height => do lengthOf (← a.run env height)

/-- The value the host oracle gives; `none` is the trap. -/
def Tree.oracle (env : Env) : Tree → Option Oracle.Value
  | .int bits => some (.num bits.toNat)
  | .bool value => some (Oracle.truth value)
  | .str bytes => some (.text bytes)
  | .var off width => (env off width).map Value.host
  | .unop op a => (a.oracle env).map (Oracle.execUnop op.host)
  | .binop op a b => do
    let left ← a.oracle env
    Oracle.execBinop op.host left (← b.oracle env)
  | .call a .. => a.oracle env
  | .len a _ => (a.oracle env).map Oracle.strLen

/-- The values on the stack at once up to the first trap. -/
def Tree.peak (env : Env) : Tree → Nat
  | .int _ | .bool _ | .str _ | .var .. => 1
  | .unop _ a | .call a .. | .len a _ => a.peak env
  | .binop _ a b => if (a.oracle env).isNone then a.peak env else max (a.peak env) (b.peak env + 1)

/-- An expression without a call. -/
def Tree.Pure : Tree → Prop
  | .int _ | .bool _ | .str _ | .var .. => True
  | .unop _ a | .len a _ => a.Pure
  | .binop _ a b => a.Pure ∧ b.Pure
  | .call .. => False

variable {context : AnContext} {callees : Nat → Option (List UInt8)} {env : Env} {tree : Tree} {ty : Ty}
  {height off len : Nat} {value : Value}

lemma settled_ok : settled found = .ok ty ↔ found = some ty := by
  cases found with
  | none => exact ⟨nofun, nofun⟩
  | some own => exact ⟨fun same => by cases same; rfl, fun same => by cases same; rfl⟩

lemma unop_valued (typed : unopType op own = some ty) : own ≠ .unit ∧ ty ≠ .str := by
  cases op <;> cases own <;> cases typed <;> exact ⟨nofun, nofun⟩

lemma binop_valued (typed : binopType op lt rt = some ty) : lt ≠ .unit ∧ rt ≠ .unit ∧ ty ≠ .str := by
  refine ⟨?_, ?_, ?_⟩ <;> rintro rfl <;> cases op <;> simp [binopType] at typed

/-- A call gives no value, so no typed expression holds one. -/
lemma check_pure (checked : tree.check context callees = .ok ty) (valued : ty ≠ .unit) : tree.Pure := by
  induction tree generalizing ty with
  | int | bool | str | var => trivial
  | unop op a ih =>
    obtain ⟨own, child, settles⟩ := bind_ok_iff.mp checked
    exact ih child (unop_valued (settled_ok.mp settles)).1
  | binop op a b first second =>
    obtain ⟨lt, left, checked⟩ := bind_ok_iff.mp checked
    obtain ⟨rt, right, settles⟩ := bind_ok_iff.mp checked
    obtain ⟨leftValued, rightValued, _⟩ := binop_valued (settled_ok.mp settles)
    exact ⟨first left leftValued, second right rightValued⟩
  | call a callee argc ih =>
    obtain ⟨own, child, checked⟩ := bind_ok_iff.mp checked
    iterate 3
      split at checked
      next => cases checked
    have typed := settled_ok.mp checked
    split at typed
    next => cases typed
    cases typed
    exact absurd rfl valued
  | len a argc ih =>
    obtain ⟨own, child, checked⟩ := bind_ok_iff.mp checked
    split at checked
    next => cases checked
    have typed := settled_ok.mp checked
    split at typed
    next text => exact ih child (by rw [text]; exact nofun)
    next => cases typed

/-! The walk. -/

lemma run_binop (op : BinOp) (a b : Tree) :
    Tree.run env (.binop op a b) height = (a.run env height >>= fun left => b.run env (height + 1) >>=
      evalBinop op left) := rfl

lemma run_room (tree : Tree) (ran : tree.run env height = .ok value) : height < subVcap := by
  induction tree generalizing height value with
  | int | bool | str =>
    unfold Tree.run at ran
    exact Nat.not_le.mp (ok_iff.mp ran).1
  | var off width =>
    unfold Tree.run at ran
    split at ran
    next => cases ran
    next => exact Nat.not_le.mp (ok_iff.mp ran).1
  | unop _ _ ih | binop _ _ _ ih _ | len _ _ ih =>
    unfold Tree.run at ran
    obtain ⟨_, child, _⟩ := bind_ok_iff.mp ran
    exact ih child
  | call => cases ran

/-- The environment a symbol table gives. -/
def envOf (context : AnContext) (arena : List UInt8) : Env := fun off len =>
  ((lookup context.tab context.src (slice context.text off len)).bind (context.tab[·]?)).bind (Sym.value arena)

section
variable {pool : List Node} {arena : List UInt8} {index : Nat} {node : Node} {walk : List (Nat × Bool)}
  {vals : List Value}
  {emitted : List (List UInt8)} {fuel : Nat}

/-- The evaluation of the tree in front, then the rest of the walk. -/
def continues (context : EvalContext) (fuel : Nat) (walk : List (Nat × Bool)) (vals : List Value)
    (emitted : List (List UInt8)) :
    Evaluated Value → Evaluated EvalState
  | .error fault => .error fault
  | .ok value => evalLoop context fuel ⟨walk, value :: vals, emitted⟩

section
variable (here : pool[index]? = some node) (bounded : pool.length ≤ poolMax)
include here bounded

lemma evalLoop_first : evalLoop ⟨pool, syms, arena⟩ (fuel + 1) ⟨(index, false) :: walk, vals, emitted⟩ =
      (evalFirst ⟨pool, syms, arena⟩ index ⟨walk, vals, emitted⟩ node >>= evalLoop ⟨pool, syms, arena⟩ fuel) := by
  show (evalStep _ (index, false) ⟨walk, vals, emitted⟩ >>= evalLoop _ fuel) = _
  unfold evalStep
  rw [if_neg (index_small here bounded)]
  simp only [here, Bool.false_eq_true, if_false]

lemma evalLoop_second : evalLoop ⟨pool, syms, arena⟩ (fuel + 1) ⟨(index, true) :: walk, vals, emitted⟩ =
      (evalSecond ⟨walk, vals, emitted⟩ node >>= evalLoop ⟨pool, syms, arena⟩ fuel) := by
  show (evalStep _ (index, true) ⟨walk, vals, emitted⟩ >>= evalLoop _ fuel) = _
  unfold evalStep
  rw [if_neg (index_small here bounded)]
  simp only [here, if_true]

end

lemma push_run {eval} : ((⟨walk, vals, emitted⟩ : EvalState).push value >>= evalLoop eval fuel) =
      continues eval fuel walk vals emitted (if vals.length ≥ subVcap then .error .internal else .ok value) := by
  unfold EvalState.push
  dsimp only
  split <;> rfl

lemma push_ok (room : vals.length < subVcap) :
    (⟨walk, vals, emitted⟩ : EvalState).push value = .ok ⟨walk, value :: vals, emitted⟩ :=
  if_neg (Nat.not_le.mpr room)

lemma visit_eval (room : walk.length + (children.length + 1) ≤ subWalk) :
    (⟨walk, vals, emitted⟩ : EvalState).visit index children =
    .ok ⟨children.map (·, false) ++ (index, true) :: walk, vals, emitted⟩ :=
  if_neg (Nat.not_lt.mpr room)

lemma settle_run {eval} (room : vals.length < subVcap) (outcome : Evaluated Value) :
    ((outcome >>= (⟨walk, vals, emitted⟩ : EvalState).push) >>= evalLoop eval fuel) =
    continues eval fuel walk vals emitted outcome := by
  cases outcome with
  | error fault => rfl
  | ok result =>
    show ((⟨walk, vals, emitted⟩ : EvalState).push result >>= _) = _
    rw [push_ok room]
    rfl

lemma evalLoop_runs (pure : tree.Pure) (bounded : pool.length ≤ poolMax) (reads : Reads (Bound context) pool index tree)
    (room : walk.length + tree.size ≤ subWalk) :
    evalLoop ⟨pool, context.tab, arena⟩ (fuel + tree.turns) ⟨(index, false) :: walk, vals, emitted⟩ =
      continues ⟨pool, context.tab, arena⟩ fuel walk vals emitted (tree.run (envOf context arena) vals.length) := by
  induction tree generalizing index walk vals fuel with
  | int | bool | str =>
    cases reads with
    | _ here => exact (evalLoop_first here bounded).trans push_run
  | var off width =>
    cases reads with
    | var here bound =>
      obtain ⟨row, rfl, found⟩ := bound
      have same : envOf context arena off width = (context.tab[row]?).bind (Sym.value arena) := by
        unfold envOf
        rw [found]
        rfl
      refine (evalLoop_first here bounded).trans ?_
      unfold Tree.run
      rw [same]
      simp only [evalFirst, bind_some]
      cases context.tab[row]? with
      | none => rfl
      | some sym =>
        simp only [bind_some]
        cases sym.value arena with
        | none => rfl
        | some value => exact push_run
  | unop _ a ih | len a _ ih =>
    have positive := a.size_pos
    have count : fuel + (2 + a.turns) = fuel + 1 + a.turns + 1 := by omega
    simp only [Tree.size] at room
    cases reads
    have here := ‹pool[index]? = some _›
    rw [Tree.turns, count, evalLoop_first here bounded, evalFirst,
      visit_eval (by simp only [length_cons, length_nil]; omega)]
    change evalLoop _ (fuel + 1 + a.turns) ⟨(_, false) :: (index, true) :: walk, vals, emitted⟩ =
      continues _ _ _ _ _ (a.run _ _ >>= _)
    rw [ih pure ‹_› (by simp only [length_cons]; omega)]
    cases ran : a.run (envOf context arena) vals.length with
    | error fault => rfl
    | ok value =>
      refine (evalLoop_second here bounded).trans (Eq.trans ?_ (settle_run (run_room a ran) _))
      cases value <;> rfl
  | call => exact absurd pure id
  | binop op a b first second =>
    have leftPositive := a.size_pos
    have rightPositive := b.size_pos
    simp only [Tree.size] at room
    cases reads with
    | @binop _ _ k1 k2 _ _ here left right =>
      have count : fuel + Tree.turns (.binop op a b) = fuel + 1 + b.turns + a.turns + 1 := by
        simp only [Tree.turns]; omega
      rw [count, evalLoop_first here bounded, evalFirst, visit_eval (by simp only [length_cons, length_nil]; omega)]
      show evalLoop _ (fuel + 1 + b.turns + a.turns)
        ⟨(k1, false) :: (k2, false) :: (index, true) :: walk, vals, emitted⟩ = _
      rw [first pure.1 left (by simp only [length_cons]; omega), run_binop]
      rcases ranLeft : a.run (envOf context arena) vals.length with fault | x
      · rfl
      have space := run_room a ranLeft
      refine (second pure.2 right (by simp only [length_cons]; omega)).trans ?_
      show continues _ _ _ _ _ (b.run (envOf context arena) (vals.length + 1)) =
        continues _ _ _ _ _ (b.run (envOf context arena) (vals.length + 1) >>= evalBinop op x)
      cases ranRight : b.run (envOf context arena) (vals.length + 1) with
      | error fault => rfl
      | ok y =>
        exact (evalLoop_second here bounded).trans (settle_run space (evalBinop op x y))

lemma eval_runs (pure : tree.Pure) (reads : Reads (Bound context) pool index tree) (fits : tree.size ≤ poolMax)
    (bounded : pool.length ≤ poolMax) :
    eval ⟨pool, context.tab, arena⟩ index = (tree.run (envOf context arena) 0).map fun value => (value, []) := by
  obtain ⟨⟨spare, count⟩, room⟩ := Tree.walked fits
  unfold eval
  rw [if_neg (reads.small bounded), count, evalLoop_runs pure bounded reads room]
  show (continues _ _ _ _ _ (tree.run (envOf context arena) 0) >>= _) = _
  cases tree.run (envOf context arena) 0 with
  | error fault => rfl
  | ok value => rfl

end

/-! The oracle. -/

/-- A string whose length the machine can hold. -/
def Value.Small : Value → Prop
  | .str bytes => bytes.length < 2 ^ 64
  | _ => True

lemma small_of_ty (plain : value.ty ≠ .str) : value.Small := by
  cases value with
  | str => exact absurd rfl plain
  | int | bool | unit => trivial

/-- How the evaluation of a typed expression ends: the stack overflows, it traps, or it gives the oracle's value. -/
inductive Ends (env : Env) (tree : Tree) (ty : Ty) (height : Nat) : Prop
  | overflow (deep : height + tree.peak env > subVcap) (ran : tree.run env height = .error .internal)
  | trap (fits : height + tree.peak env ≤ subVcap) (expected : tree.oracle env = none)
    (ran : tree.run env height = .error .trap)
  | value (value : Value) (fits : height + tree.peak env ≤ subVcap) (small : value.Small) (typed : value.ty = ty)
    (expected : tree.oracle env = some value.host) (ran : tree.run env height = .ok value)

lemma ends_leaf (value : Value) (peak : tree.peak env = 1) (small : value.Small) (typed : value.ty = ty)
    (expected : tree.oracle env = some value.host)
    (ran : tree.run env height = if height ≥ subVcap then .error .internal else .ok value) :
    Ends env tree ty height := by
  by_cases full : height ≥ subVcap
  · exact .overflow (by omega) (by rw [ran, if_pos full])
  · exact .value value (by omega) small typed expected (by rw [ran, if_neg full])

lemma ends_var (memory : arena.length ≤ sessArena) (checked : Tree.check context callees (.var off len) = .ok ty)
    (valued : ty ≠ .unit) :
    Ends (envOf context arena) (.var off len) ty height := by
  obtain ⟨row, sym, found, known, rfl⟩ := resolveType_ok checked
  have bound : envOf context arena off len = sym.value arena := by
    unfold envOf
    rw [found, bind_some, known]
    rfl
  obtain ⟨value, here, typed, small⟩ : ∃ value, sym.value arena = some value ∧ value.ty = sym.type ∧ value.Small := by
    unfold Sym.value
    cases type : sym.type with
    | int | bool => exact ⟨_, rfl, rfl, trivial⟩
    | str =>
      refine ⟨_, rfl, rfl, ?_⟩
      have cut : (slice arena sym.pay.toNat sym.strLen).length ≤ arena.length := by
        unfold slice
        rw [length_take, length_drop]
        omega
      have cap : sessArena = 4608 := rfl
      show (slice arena sym.pay.toNat sym.strLen).length < 2 ^ 64
      omega
    | unit => exact absurd type valued
  refine ends_leaf value rfl small typed ?_ ?_
  · show (envOf context arena off len).map Value.host = _
    rw [bound, here]
    rfl
  · show (match envOf context arena off len with | none => _ | some value => _) = _
    rw [bound, here]

/-- An operator over one operand that is never a trap of its own. -/
lemma ends_unary {finish : Value → Evaluated Value} {host : Oracle.Value → Oracle.Value}
    (ends : Ends env a own height) (peak : tree.peak env = a.peak env)
    (whole : tree.run env height = (a.run env height >>= finish)) (oracle : tree.oracle env = (a.oracle env).map host)
    (step : ∀ x : Value, x.Small → x.ty = own → ∃ result, finish x = .ok result ∧ result.Small ∧ result.ty = ty ∧
      host x.host = result.host) :
    Ends env tree ty height := by
  cases ends with
  | overflow deep ran => exact .overflow (by rwa [peak]) (by rw [whole, ran]; rfl)
  | trap fits expected ran => exact .trap (by rwa [peak]) (by rw [oracle, expected]; rfl) (by rw [whole, ran]; rfl)
  | value x fits small same expected ran =>
    obtain ⟨result, given, resultSmall, typed, agrees⟩ := step x small same
    exact .value result (by rwa [peak]) resultSmall typed (by rw [oracle, expected, map_some, agrees])
      (by rw [whole, ran]; exact given)

lemma run_oracle (memory : arena.length ≤ sessArena) (checked : tree.check context callees = .ok ty)
    (valued : ty ≠ .unit) : Ends (envOf context arena) tree ty height := by
  induction tree generalizing ty height with
  | int bits =>
    cases checked
    exact ends_leaf (.int bits) rfl trivial rfl rfl rfl
  | bool value =>
    cases checked
    exact ends_leaf (.bool value) rfl trivial rfl rfl rfl
  | str bytes =>
    obtain ⟨short, same⟩ := ok_iff.mp checked
    cases same
    exact ends_leaf (.str bytes) rfl (by show bytes.length < 2 ^ 64; omega) rfl rfl rfl
  | var off width => exact ends_var memory checked valued
  | call a callee argc _ => exact absurd (check_pure checked valued) id
  | unop op a ih =>
    obtain ⟨own, child, settles⟩ := bind_ok_iff.mp checked
    have typed := settled_ok.mp settles
    obtain ⟨operand, plain⟩ := unop_valued typed
    refine ends_unary (ih child operand) rfl rfl rfl fun x _ same => ?_
    obtain ⟨result, given, resultTy, agrees⟩ := evalUnop_matches (same ▸ typed : unopType op x.ty = some ty)
    exact ⟨result, given, small_of_ty (resultTy ▸ plain), resultTy, agrees.symm⟩
  | len a argc ih =>
    obtain ⟨own, child, checked⟩ := bind_ok_iff.mp checked
    obtain ⟨_, settles⟩ := ok_iff.mp checked
    obtain ⟨text, typed⟩ := ite_none_right_eq_some.mp (settled_ok.mp settles)
    cases typed
    refine ends_unary (ih child (by rw [text]; exact nofun)) rfl rfl rfl fun x small same => ?_
    cases x with
    | str bytes =>
      have exact : (BitVec.ofNat 64 bytes.length).toNat = bytes.length := Nat.mod_eq_of_lt small
      exact ⟨.int (BitVec.ofNat 64 bytes.length), rfl, trivial, rfl, by rw [Value.host, Value.host, exact]; rfl⟩
    | int | bool | unit => cases same.trans text
  | binop op a b first second =>
    obtain ⟨lt, left, checked⟩ := bind_ok_iff.mp checked
    obtain ⟨rt, right, settles⟩ := bind_ok_iff.mp checked
    have typed := settled_ok.mp settles
    obtain ⟨leftValued, rightValued, resultPlain⟩ := binop_valued typed
    have ends : Ends (envOf context arena) a lt height := first left leftValued
    cases ends with
    | overflow deep ran =>
      refine .overflow ?_ (by rw [run_binop, ran]; rfl)
      simp only [Tree.peak]
      split <;> omega
    | trap fits expected ran =>
      refine .trap ?_ (by simp only [Tree.oracle, expected]; rfl) (by rw [run_binop, ran]; rfl)
      simp only [Tree.peak, expected, isNone_none, if_true]
      exact fits
    | value x leftFits _ leftTy leftExpected leftRan =>
      have peak : Tree.peak (envOf context arena) (.binop op a b) =
        max (a.peak (envOf context arena)) (b.peak (envOf context arena) + 1) := by
        simp only [Tree.peak, leftExpected, isNone_some, Bool.false_eq_true, if_false]
      have oracle : Tree.oracle (envOf context arena) (.binop op a b) =
        (b.oracle (envOf context arena)).bind (Oracle.execBinop op.host x.host) := by
        simp only [Tree.oracle, leftExpected]
        rfl
      have ran : Tree.run (envOf context arena) (.binop op a b) height =
        (b.run (envOf context arena) (height + 1) >>= evalBinop op x) := by
        rw [run_binop, leftRan]
        rfl
      have ends : Ends (envOf context arena) b rt (height + 1) := second right rightValued
      cases ends with
      | overflow deep rightRan => exact .overflow (by rw [peak]; omega) (by rw [ran, rightRan]; rfl)
      | trap fits expected rightRan =>
        exact .trap (by rw [peak]; omega) (by rw [oracle, expected]; rfl) (by rw [ran, rightRan]; rfl)
      | value y fits _ rightTy expected rightRan =>
        rw [rightRan] at ran
        rw [expected] at oracle
        rcases (evalBinop_matches (by rw [leftTy, rightTy]; exact typed : binopType op x.ty y.ty = some ty)).cases with
          ⟨given, wanted⟩ | ⟨result, given, resultTy, wanted⟩
        · exact .trap (by rw [peak]; omega) (oracle.trans wanted) (ran.trans given)
        · exact .value result (by rw [peak]; omega) (small_of_ty (resultTy ▸ resultPlain)) resultTy
            (oracle.trans wanted) (ran.trans given)

/-! The session's expressions. -/

/-- The expression of an accepted part: the initialiser of a let, or the part itself. -/
def expressionOf (pool : List Node) (root : Nat) : Nat :=
  match pool[root]? with
  | some (.let _ _ _ init) => init
  | _ => root

/-- The evaluator agrees with the oracle: it gives the oracle's value and prints nothing, or traps with it. -/
def Agrees (ty : Ty) : Evaluated (Value × List (List UInt8)) → Option Oracle.Value → Prop
  | .ok (value, emitted), some expected => value.ty = ty ∧ value.host = expected ∧ emitted = []
  | .error .trap, none => True
  | _, _ => False

lemma agrees_iff (ends : Ends env tree ty 0) :
    Agrees ty ((tree.run env 0).map fun value => (value, [])) (tree.oracle env) ↔ tree.peak env ≤ subVcap := by
  cases ends with
  | overflow deep ran =>
    rw [ran]
    exact ⟨fun agrees => absurd agrees id, fun fits => by omega⟩
  | trap fits expected ran =>
    rw [ran, expected]
    exact ⟨fun _ => by omega, fun _ => trivial⟩
  | value value fits _ typed expected ran =>
    rw [ran, expected]
    exact ⟨fun _ => by omega, fun _ => ⟨typed, rfl, rfl⟩⟩

section
variable {pool after : List Node} {root : Nat} {stale : Nat → Option Ty}

section
variable (bounded : pool.length ≤ poolMax) (analysed : anSub context stale pool root = .ok (ty, after))
include bounded analysed

lemma anSub_first (here : pool[root]? = some node) :
    ∃ first, anFirst context root ⟨pool, stale, []⟩ node = .ok first ∧
    (first.walk = [] → first.types root = some ty ∧ first.pool = after) := by
  have inside := (List.getElem?_eq_some_iff.mp here).1
  unfold anSub at analysed
  rw [if_neg (by omega : ¬ root ≥ poolMax)] at analysed
  obtain ⟨state, looped, analysed⟩ := bind_ok_iff.mp analysed
  change anLoop context (511 + 1 + 1) ⟨pool, stale, (root, false) :: []⟩ = _ at looped
  rw [anLoop_first here bounded] at looped
  obtain ⟨first, visited, looped⟩ := bind_ok_iff.mp looped
  refine ⟨first, visited, fun done => ?_⟩
  unfold anLoop at looped
  rw [done] at looped
  cases looped
  split at analysed
  next => cases analysed
  rename_i found
  cases analysed
  exact ⟨found, rfl⟩

lemma anSub_args (here : pool[root]? = some (.cmd off len base nargs)) (given : nargs ≠ 0) : ty = .unit := by
  obtain ⟨first, visited, done⟩ := anSub_first bounded analysed here
  simp only [anFirst, if_neg given] at visited
  obtain ⟨_, _, visited⟩ := bind_ok_iff.mp visited
  cases visited
  obtain ⟨typed, _⟩ := done rfl
  simp only [AnState.setType, if_true] at typed
  cases typed
  rfl

lemma anSub_word (here : pool[root]? = some (.cmd off len base nargs)) (valued : ty ≠ .unit) :
    Reads (Bound context) after root (.var off len) ∧ Tree.check context callees (.var off len) = .ok ty ∧
    after.length ≤ poolMax := by
  have inside := (List.getElem?_eq_some_iff.mp here).1
  obtain ⟨first, visited, done⟩ := anSub_first bounded analysed here
  simp only [anFirst] at visited
  split at visited
  next =>
    rw [resolve_eq] at visited
    obtain ⟨own, checked, visited⟩ := bind_ok_iff.mp visited
    cases visited
    obtain ⟨typed, rfl⟩ := done rfl
    simp only [AnState.setType, if_true] at typed
    cases typed
    obtain ⟨row, _, found, _⟩ := resolveType_ok checked
    refine ⟨.var (getElem?_set_self inside) ⟨row, found, found⟩, checked, ?_⟩
    simp only [AnState.setType, length_set]
    exact bounded
  next given => exact absurd (anSub_args bounded analysed here given) valued

lemma anSub_pipe (here : pool[root]? = some (.pipe k1 k2)) : ty = .unit := by
  obtain ⟨first, visited, done⟩ := anSub_first bounded analysed here
  simp only [anFirst] at visited
  obtain ⟨_, visited⟩ := ok_iff.mp visited
  split at visited
  next =>
    cases visited
    obtain ⟨typed, _⟩ := done rfl
    simp only [AnState.setType, if_true] at typed
    cases typed
    rfl
  next => cases visited

/-- An accepted expression with a value is a tree whose rows are bound. -/
lemma Root.valued (body : Root pool root) (valued : ty ≠ .unit) :
    ∃ tree, Reads (Bound context) after root tree ∧ tree.size ≤ poolMax ∧ after.length ≤ poolMax ∧
      tree.check context (calleeName context pool) = .ok ty := by
  cases body with
  | tree whole =>
    obtain ⟨tree, reads, fits⟩ := whole
    rcases anSub_tree reads fits bounded with ⟨diag, _, stopped⟩ | ⟨own, later, checked, found, advances, bound⟩
    · cases stopped.symm.trans analysed
    · cases found.symm.trans analysed
      exact ⟨tree, bound, Nat.le_trans fits bounded, advances.bounded bounded, checked⟩
  | cmd here =>
    obtain ⟨reads, checked, small⟩ := anSub_word bounded analysed here valued
    exact ⟨_, reads, (by decide : 1 ≤ poolMax), small, checked⟩
  | pipe here => exact absurd (anSub_pipe bounded analysed here) valued

end

lemma Root.bare (body : Root pool root) (off len : Nat) (ty : Ty) (init : Nat) :
    pool[root]? ≠ some (.let off len ty init) := by
  intro found
  cases body with
  | tree whole =>
    obtain ⟨tree, reads, _⟩ := whole
    cases reads with
    | int here | bool here | str here | var here _ | unop here _ | binop here _ _ | call here _ | len here _ =>
      cases found.symm.trans here
  | cmd here | pipe here => cases found.symm.trans here

lemma Root.expression (body : Root pool root) : expressionOf pool root = root := by
  unfold expressionOf
  split
  next found => exact absurd found (body.bare _ _ _ _)
  next => rfl

end

/-- For every expression the parser accepts and the analysis gives a value type, over any symbols, the resident
evaluator does what the host oracle does exactly when the values fit its stack. -/
theorem resident_matches_oracle {source src arena : List UInt8} {tab : List Sym} {stale : Nat → Option Ty}
    {root : Nat} {parser : Parser} {after : List Node} (parsed : parsePart source = .ok (root, parser))
    (analysed : anSub ⟨source, tab, src, parser.args⟩ stale parser.pool (expressionOf parser.pool root) =
      .ok (ty, after))
    (valued : ty ≠ .unit) (memory : arena.length ≤ sessArena) :
    ∃ tree, Reads (Bound ⟨source, tab, src, parser.args⟩) after (expressionOf parser.pool root) tree ∧
      (Agrees ty (eval ⟨after, tab, arena⟩ (expressionOf parser.pool root))
        (tree.oracle (envOf ⟨source, tab, src, parser.args⟩ arena)) ↔
        tree.peak (envOf ⟨source, tab, src, parser.args⟩ arena) ≤ subVcap) := by
  obtain ⟨bounded, accepted⟩ := parsePart_accepted _ parsed
  have body : Root parser.pool (expressionOf parser.pool root) := by
    cases accepted with
    | binding here body =>
      unfold expressionOf
      rw [here]
      exact body
    | bare body =>
      rw [body.expression]
      exact body
  obtain ⟨tree, reads, fits, small, checked⟩ := body.valued bounded analysed valued
  refine ⟨tree, reads, ?_⟩
  rw [eval_runs (check_pure checked valued) reads fits small]
  exact agrees_iff (run_oracle memory checked valued)

/-- A part over an empty session: the type and the outcome of its expression. -/
def evaluates (source : List UInt8) : Option (Ty × Evaluated (Value × List (List UInt8))) :=
  match parsePart source with
  | .error _ => none
  | .ok (root, parser) =>
    match anSub ⟨source, [], [], parser.args⟩ (fun _ => none) parser.pool (expressionOf parser.pool root) with
    | .error _ => none
    | .ok (ty, after) => some (ty, eval ⟨after, [], []⟩ (expressionOf parser.pool root))

lemma evaluates_some (found : evaluates source = some (ty, result)) :
    ∃ root parser after, parsePart source = .ok (root, parser) ∧
      anSub ⟨source, [], [], parser.args⟩ (fun _ => none) parser.pool (expressionOf parser.pool root) = .ok
      (ty, after) ∧
        eval ⟨after, [], []⟩ (expressionOf parser.pool root) = result := by
  unfold evaluates at found
  split at found
  next => cases found
  rename_i root parser parsed
  split at found
  next => cases found
  rename_i analysed
  cases found
  exact ⟨root, parser, _, parsed, analysed, rfl⟩

theorem resident_matches_oracle_sum : ∃ root parser after, ∃ tree : Tree,
    parsePart (ascii "1+2*3") = .ok (root, parser) ∧
    anSub ⟨ascii "1+2*3", [], [], parser.args⟩ (fun _ => none) parser.pool (expressionOf parser.pool root) = .ok
    (.int, after) ∧
      (Agrees .int (eval ⟨after, [], []⟩ (expressionOf parser.pool root))
        (tree.oracle (envOf ⟨ascii "1+2*3", [], [], parser.args⟩ [])) ↔
        tree.peak (envOf ⟨ascii "1+2*3", [], [], parser.args⟩ []) ≤ subVcap) := by
  have computed : evaluates (ascii "1+2*3") = some (.int, .ok (.int 7, [])) := by decide +kernel
  obtain ⟨root, parser, after, parsed, analysed, _⟩ := evaluates_some computed
  have empty : ([] : List UInt8).length ≤ sessArena := Nat.zero_le _
  obtain ⟨tree, _, agrees⟩ := resident_matches_oracle parsed analysed nofun empty
  exact ⟨root, parser, after, tree, parsed, analysed, agrees⟩

/-- Right-nested sums of products: every level keeps two values waiting and charges the nesting once. -/
def deepSource : List UInt8 := (List.replicate 33 (ascii "1+1*(")).flatten ++ ascii "1" ++ List.replicate 33 (ch ')')

/-- An accepted integer expression without a division that is an internal error. -/
theorem resident_overflows : deepSource.length ≤ 256 ∧ ∃ root parser after, parsePart deepSource = .ok (root, parser) ∧
    anSub ⟨deepSource, [], [], parser.args⟩ (fun _ => none) parser.pool (expressionOf parser.pool root) = .ok
    (.int, after) ∧
      eval ⟨after, [], []⟩ (expressionOf parser.pool root) = .error .internal := by
  have computed : evaluates deepSource = some (.int, .error .internal) := by decide +kernel
  exact ⟨by decide +kernel, evaluates_some computed⟩

end Rynor.Shell
