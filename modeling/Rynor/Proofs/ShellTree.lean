import Rynor.Lib.Checks
import Rynor.Shell.Parse

/-! The pool a part is parsed into holds a tree at every index the parser returns: no node is a child twice, so
the trees on the value stack are together no larger than the pool. -/

namespace Rynor.Shell
open Checks List
variable {node : Node} {token : Token} {yard : Yard} {argc : Nat}

/-- An expression of the pool. A variable keeps its place in the text, not the row the analysis finds. -/
inductive Tree where
  | int (bits : BitVec 64)
  | bool (value : Bool)
  | str (bytes : List UInt8)
  | var (off len : Nat)
  | unop (op : UnOp) (a : Tree)
  | binop (op : BinOp) (a b : Tree)
  | call (a : Tree) (callee argc : Nat)
  | len (a : Tree) (argc : Nat)

def Tree.size : Tree → Nat
  | .int _ | .bool _ | .str _ | .var .. => 1
  | .unop _ a | .call a .. | .len a _ => 1 + a.size
  | .binop _ a b => 1 + (a.size + b.size)

lemma Tree.size_pos (tree : Tree) : 1 ≤ tree.size := by
  cases tree <;> unfold Tree.size <;> omega

/-- The tree at an index; `slots` says what the rows of its variables may be. -/
inductive Reads (slots : Nat → Nat → Option Nat → Prop) (pool : List Node) : Nat → Tree → Prop
  | int {index bits} (here : pool[index]? = some (.int bits)) : Reads slots pool index (.int bits)
  | bool {index value} (here : pool[index]? = some (.bool value)) : Reads slots pool index (.bool value)
  | str {index bytes} (here : pool[index]? = some (.str bytes)) : Reads slots pool index (.str bytes)
  | var {index off len slot} (here : pool[index]? = some (.var off len slot)) (known : slots off len slot) :
    Reads slots pool index (.var off len)
  | unop {index op k1 a} (here : pool[index]? = some (.unop op k1)) (first : Reads slots pool k1 a) :
    Reads slots pool index (.unop op a)
  | binop {index op k1 k2 a b} (here : pool[index]? = some (.binop op k1 k2)) (first : Reads slots pool k1 a)
    (second : Reads slots pool k2 b) : Reads slots pool index (.binop op a b)
  | call {index k1 callee argc a} (here : pool[index]? = some (.call (some k1) callee argc))
    (first : Reads slots pool k1 a) :
    Reads slots pool index (.call a callee argc)
  | len {index k1 argc a} (here : pool[index]? = some (.len (some k1) argc)) (first : Reads slots pool k1 a) :
    Reads slots pool index (.len a argc)

abbrev anySlot (_ _ : Nat) (_ : Option Nat) : Prop := True

variable {slots : Nat → Nat → Option Nat → Prop} {pool : List Node} {vals rest : List Nat} {index : Nat}
  {tree : Tree} {source : List UInt8}

lemma Reads.grow (reads : Reads slots pool index tree) (more : List Node) : Reads slots (pool ++ more) index tree := by
  have kept : ∀ {index : Nat} {node : Node}, pool[index]? = some node → (pool ++ more)[index]? = some node :=
    fun here => by
    rw [getElem?_append_left (List.getElem?_eq_some_iff.mp here).1, here]
  induction reads with
  | int here => exact .int (kept here)
  | bool here => exact .bool (kept here)
  | str here => exact .str (kept here)
  | var here known => exact .var (kept here) known
  | unop here _ ih => exact .unop (kept here) ih
  | binop here _ _ first second => exact .binop (kept here) first second
  | call here _ ih => exact .call (kept here) ih
  | len here _ ih => exact .len (kept here) ih

/-! The value stack. -/

/-- The values on the stack are trees that share no node. -/
def Forest (pool : List Node) (vals : List Nat) : Prop :=
  ∃ trees, List.Forall₂ (Reads anySlot pool) vals trees ∧ (trees.map Tree.size).sum ≤ pool.length

lemma mkNode_gives :
    Gives (mkNode pool node) fun made => pool.length < poolMax ∧ made = (pool.length, pool ++ [node]) := by
  unfold mkNode
  split
  · exact .stop
  · exact .ok ⟨by omega, rfl⟩

lemma pushVal_gives : Gives (pushVal vals index) (· = index :: vals) := by
  unfold pushVal
  split
  · exact .stop
  · exact .ok rfl

lemma here_last (pool : List Node) (node : Node) : (pool ++ [node])[pool.length]? = some node := getElem?_concat_length

lemma Forest.made {node whole trees} (others : List.Forall₂ (Reads anySlot pool) vals trees)
    (reads : Reads anySlot (pool ++ [node]) pool.length whole)
    (fits : whole.size + (trees.map Tree.size).sum ≤ pool.length + 1) :
    Forest (pool ++ [node]) (pool.length :: vals) := by
  refine ⟨whole :: trees, .cons reads (others.imp fun _ _ each => each.grow _), ?_⟩
  rw [map_cons, sum_cons, length_append]
  exact fits

lemma forest_nil (pool : List Node) : Forest pool [] := ⟨[], .nil, Nat.zero_le _⟩

/-- What a step of the yard keeps: the pool stays within its bounds and the values stay trees. -/
structure Kept (pool : List Node) (vals : List Nat) : Prop where
  bounded : pool.length ≤ poolMax
  forest : Forest pool vals

lemma Kept.atom (kept : Kept pool vals) (size : whole.size = 1)
    (reads : Reads anySlot (pool ++ [node]) pool.length whole) (room : pool.length < poolMax) :
    Kept (pool ++ [node]) (pool.length :: vals) := by
  obtain ⟨trees, others, fits⟩ := kept.forest
  refine ⟨by rw [length_append]; exact room, Forest.made others reads ?_⟩
  omega

lemma foldOp_kept (kept : Kept pool vals) : Gives (foldOp pool vals op) fun result => Kept result.1 result.2 := by
  obtain ⟨bounded, trees, each, fits⟩ := kept
  unfold foldOp
  split
  next prec op =>
    split
    next second first vals =>
      refine .bind mkNode_gives fun _ ⟨room, same⟩ => ?_
      subst same
      refine .bind pushVal_gives fun _ same => ?_
      subst same
      obtain _ | ⟨right, _ | ⟨left, others⟩⟩ := each
      refine .ok ⟨by rw [length_append]; exact room,
        Forest.made others (.binop (here_last _ _) (left.grow _) (right.grow _)) ?_⟩
      simp only [map_cons, sum_cons] at fits
      simp only [Tree.size]
      omega
    next => exact .stop
  next op =>
    split
    next first vals =>
      refine .bind mkNode_gives fun _ ⟨room, same⟩ => ?_
      subst same
      refine .bind pushVal_gives fun _ same => ?_
      subst same
      obtain _ | ⟨only, others⟩ := each
      refine .ok ⟨by rw [length_append]; exact room, Forest.made others (.unop (here_last _ _) (only.grow _)) ?_⟩
      simp only [map_cons, sum_cons] at fits
      simp only [Tree.size]
      omega
    next => exact .stop
  next => exact .stop

lemma foldWhile_kept {on : YardOp → Bool} (kept : Kept pool vals) :
    Gives (foldWhile on pool vals unpend ops) fun result => Kept result.1 result.2.1 := by
  induction ops generalizing pool vals unpend with
  | nil => exact .ok kept
  | cons op ops ih =>
    unfold foldWhile
    split
    · exact .bind (foldOp_kept kept) fun folded later => ih later
    · exact .ok kept

lemma atomNode_reads (found : atomNode source token = some node) :
    ∃ whole : Tree, whole.size = 1 ∧ Reads anySlot (pool ++ [node]) pool.length whole := by
  unfold atomNode at found
  split at found <;> cases found
  · exact ⟨_, rfl, .var (here_last _ _) trivial⟩
  · exact ⟨_, rfl, .int (here_last _ _)⟩
  · exact ⟨_, rfl, .str (here_last _ _)⟩
  · exact ⟨_, rfl, .bool (here_last _ _)⟩
  · exact ⟨_, rfl, .bool (here_last _ _)⟩

section
variable (kept : Kept pool yard.vals)
include kept

lemma operand_kept : Gives (yard.operand source token pool) fun result => Kept result.1 result.2.vals := by
  unfold Yard.operand
  split
  · exact .stop
  rename_i node found
  obtain ⟨whole, size, reads⟩ := atomNode_reads found
  refine .bind mkNode_gives fun _ ⟨room, same⟩ => ?_
  subst same
  refine .bind pushVal_gives fun _ same => ?_
  subst same
  refine .bind (foldWhile_kept (kept.atom size reads room)) fun folded later => ?_
  exact .ok later

lemma operator_kept : Gives (yard.operator prec op pool) fun result => Kept result.1 result.2.vals := by
  refine .bind (foldWhile_kept kept) fun ⟨folded, vals, unpend, ops⟩ later => ?_
  dsimp only
  split
  · exact .stop
  · exact .ok later

lemma toMark_kept : Gives (yard.toMark pool) fun result => Kept result.1 result.2.1 := by
  unfold Yard.toMark
  split
  · exact foldWhile_kept kept
  · exact .stop

lemma comma_kept : Gives (yard.comma pool) fun result => Kept result.1 result.2.vals := by
  refine .bind (toMark_kept kept) fun ⟨folded, vals, unpend, ops⟩ later => ?_
  dsimp only
  split
  · exact .ok later
  · exact .stop

end

lemma call_forest {relation : Nat → Tree → Prop} (each : List.Forall₂ relation vals trees)
    (some : argc ≠ 0) (below : vals.drop argc = callee :: rest) :
    ∃ first arg others, vals[argc - 1]? = .some first ∧ relation first arg ∧ List.Forall₂ relation rest others ∧
      1 + arg.size + (others.map Tree.size).sum ≤ (trees.map Tree.size).sum := by
  induction each generalizing argc with
  | nil => cases argc <;> cases below
  | @cons value tree vals trees head each ih =>
    rw [map_cons, sum_cons]
    rcases argc with _ | argc
    · exact absurd rfl some
    cases argc with
    | zero =>
      cases each with
      | nil => cases below
      | @cons own callee vals others _ each =>
        cases below
        have room := callee.size_pos
        refine ⟨value, tree, others, rfl, head, each, ?_⟩
        rw [map_cons, sum_cons]
        omega
    | succ argc =>
      obtain ⟨first, arg, others, found, reads, each, fits⟩ := ih (Nat.succ_ne_zero argc) below
      exact ⟨first, arg, others, found, reads, each, by omega⟩

/-- A call keeps its first argument; the callee and the other arguments are dropped from the stack. -/
lemma callNode_kept (kept : Kept pool vals) (some : argc ≠ 0) :
    Gives (callNode source pool vals argc) fun result => Kept result.1 result.2 := by
  unfold callNode
  split
  · exact .stop
  split
  · exact .stop
  rename_i callee rest below
  obtain ⟨bounded, trees, each, fits⟩ := kept
  obtain ⟨first, arg, others, found, reads, each, small⟩ := call_forest each some below
  refine .bind mkNode_gives fun _ ⟨room, same⟩ => ?_
  subst same
  refine .bind pushVal_gives fun _ same => ?_
  subst same
  refine .ok ⟨by rw [length_append]; exact room, ?_⟩
  dsimp only
  rw [found]
  split
  · exact Forest.made each (.len (here_last _ _) (reads.grow _)) (by simp only [Tree.size]; omega)
  · exact Forest.made each (.call (here_last _ _) (reads.grow _)) (by simp only [Tree.size]; omega)

lemma close_kept (kept : Kept pool yard.vals) (operand : yard.expectOperand = false) :
    Gives (yard.close source pool) fun result => Kept result.1 result.2.vals := by
  refine .bind (toMark_kept kept) fun ⟨folded, vals, unpend, ops⟩ marked => ?_
  dsimp only
  rw [operand]
  split
  · exact .ok marked
  · split
    · exact .stop
    refine .bind (callNode_kept marked (Nat.succ_ne_zero _)) fun made later => ?_
    exact .ok later
  · exact .stop

lemma step_kept (kept : Kept pool yard.vals) :
    Gives (yard.step source token pool) fun next => ∀ result ∈ next, Kept result.1 result.2.vals := by
  have goes {result : List Node × Yard} (later : Kept result.1 result.2.vals) :
    ∀ other ∈ some result, Kept other.1 other.2.vals := by
    intro other same
    cases same
    exact later
  unfold Yard.step
  split
  next =>
    split
    iterate 3
      · refine .skip fun _ => ?_
        exact .ok (goes kept)
    · refine .bind (operand_kept kept) fun result later => ?_
      exact .ok (goes later)
  rename_i operand
  split
  · refine .bind (operator_kept kept) fun result later => ?_
    exact .ok (goes later)
  split
  · split
    · refine .skip fun _ => ?_
      exact .ok (goes kept)
    · exact .ok nofun
  · refine .bind (comma_kept kept) fun result later => ?_
    exact .ok (goes later)
  · refine .bind (close_kept kept (Bool.eq_false_iff.mpr operand)) fun result later => ?_
    exact .ok (goes later)
  · exact .ok nofun

/-! The parser. -/

/-- A tree no larger than the pool it is in. -/
def Whole (pool : List Node) (root : Nat) : Prop := ∃ tree, Reads anySlot pool root tree ∧ tree.size ≤ pool.length

lemma drain_whole (kept : Kept pool yard.vals) :
    Gives (yard.drain pool) fun result => result.2.length ≤ poolMax ∧ Whole result.2 result.1 := by
  refine .bind (foldWhile_kept kept) fun result standing => ?_
  obtain ⟨folded, vals, unpend, ops⟩ := result
  obtain ⟨bounded, trees, each, fits⟩ := standing
  dsimp only at each ⊢
  split
  · split
    · cases each with
      | cons reads each =>
        cases each with
        | nil => exact .ok ⟨bounded, _, reads, by simpa using fits⟩
    · exact .stop
  · exact .stop

lemma exprYd_whole (kept : Kept pool yard.vals) :
    Gives (exprYd source args pool yard toks) fun result => result.2.pool.length ≤ poolMax ∧
    Whole result.2.pool result.1 := by
  induction toks generalizing pool yard with
  | fault => exact .stop
  | eof =>
    unfold exprYd
    split
    · exact .stop
    refine .bind (drain_whole kept) fun drained whole => ?_
    exact .ok whole
  | token token rest ih =>
    unfold exprYd
    refine .bind (step_kept kept) fun next later => ?_
    split
    · exact ih (later _ rfl)
    refine .bind (drain_whole kept) fun drained whole => ?_
    exact .ok whole

/-- What a stage of a pipeline leaves: an expression, a command or a pipeline. -/
inductive Root (pool : List Node) (root : Nat) : Prop
  | tree (whole : Whole pool root)
  | cmd {off len base nargs} (here : pool[root]? = some (.cmd off len base nargs))
  | pipe {k1 k2} (here : pool[root]? = some (.pipe k1 k2))

lemma Root.grow (node : Node) (root : Root pool index) : Root (pool ++ [node]) index := by
  have kept : ∀ {node' : Node}, pool[index]? = some node' → (pool ++ [node])[index]? = some node' := fun here => by
    rw [getElem?_append_left (List.getElem?_eq_some_iff.mp here).1, here]
  cases root with
  | tree whole =>
    obtain ⟨tree, reads, fits⟩ := whole
    exact .tree ⟨tree, reads.grow _, by rw [length_append]; omega⟩
  | cmd here => exact .cmd (kept here)
  | pipe here => exact .pipe (kept here)

variable {parser : Parser}

/-- A parser with its pool within the bounds that has read a root. -/
def Rooted (result : Nat × Parser) : Prop := result.2.pool.length ≤ poolMax ∧ Root result.2.pool result.1

lemma expr_rooted (bounded : parser.pool.length ≤ poolMax) : Gives (expr source parser) Rooted :=
  (exprYd_whole ⟨bounded, forest_nil _⟩).imp fun _ ⟨fits, whole⟩ => ⟨fits, .tree whole⟩

lemma mkNode_rooted :
    Gives (mkNode pool (.cmd off len base nargs)) fun made => made.2.length ≤ poolMax ∧ Root made.2 made.1 := by
  refine mkNode_gives.imp fun _ ⟨room, same⟩ => ?_
  subst same
  exact ⟨by rw [length_append]; exact room, .cmd (here_last _ _)⟩

lemma cmd_rooted {name rest} :
    Gives (cmd source name rest parser) fun made => ∀ result, made = .made result → Rooted result := by
  refine .skip fun starts => ?_
  split
  · refine .skip fun attempt => ?_
    split
    · exact .ok nofun
    split
    · exact .ok nofun
    refine .bind mkNode_rooted fun made rooted => .ok fun result same => ?_
    cases same
    exact rooted
  · exact .ok nofun

section
variable (bounded : parser.pool.length ≤ poolMax)
include bounded

lemma cmdOrExpr_rooted : Gives (cmdOrExpr source parser) Rooted := by
  unfold cmdOrExpr
  split
  · split
    · split
      · exact .stop
      · exact expr_rooted bounded
      · exact expr_rooted bounded
      rename_i made
      exact .ok (cmd_rooted _ made _ rfl)
    · exact expr_rooted bounded
  · exact expr_rooted bounded

lemma stage_rooted : Gives (stage source parser) Rooted := by
  unfold stage
  split
  · split
    · refine .bind mkNode_rooted fun made rooted => ?_
      exact .ok rooted
    · exact cmdOrExpr_rooted bounded
  · exact cmdOrExpr_rooted bounded

lemma pipeline_rooted : Gives (pipeline source parser) Rooted := by
  refine .bind (stage_rooted bounded) fun ⟨left, parser⟩ rooted => ?_
  refine .skip fun kind => ?_
  split
  · refine .skip fun ⟨right, parser⟩ => ?_
    refine .bind mkNode_gives fun _ ⟨room, same⟩ => ?_
    subst same
    refine .skip fun kind => ?_
    split
    · exact .skip fun _ => .stop
    · exact .ok ⟨by rw [length_append]; exact room, .pipe (here_last _ _)⟩
  · exact .ok rooted

end

/-- An accepted part: a let over a root, or a root. -/
inductive Accepted (parser : Parser) (root : Nat) : Prop
  | binding {off len ty init} (here : parser.pool[root]? = some (.let off len ty init)) (body : Root parser.pool init)
  | bare (body : Root parser.pool root)

lemma letItem_accepted {rest} (bounded : parser.pool.length ≤ poolMax) :
    Gives (letItem source parser rest) fun result => result.2.pool.length ≤ poolMax ∧ Accepted result.2 result.1 := by
  unfold letItem
  split
  · split
    · split
      · split
        · refine .bind (pipeline_rooted bounded) fun ⟨init, parser⟩ rooted => ?_
          refine .bind mkNode_gives fun _ ⟨room, same⟩ => ?_
          subst same
          exact .ok ⟨by rw [length_append]; exact room, .binding (here_last _ _) (rooted.2.grow _)⟩
        · exact .stop
      · exact .stop
    · exact .stop
  · exact .stop

lemma parsePart_accepted :
    Gives (parsePart source) fun result => result.2.pool.length ≤ poolMax ∧ Accepted result.2 result.1 := by
  have read : Gives (item source ⟨stream subStrb source, [], []⟩) fun result => result.2.pool.length ≤ poolMax ∧
    Accepted result.2 result.1 := by
    refine .skip fun kind => ?_
    split
    · exact letItem_accepted (Nat.zero_le _)
    · exact (pipeline_rooted (Nat.zero_le _)).imp fun _ ⟨fits, body⟩ => ⟨fits, .bare body⟩
  refine .bind read fun ⟨root, parser⟩ accepted => ?_
  refine .skip fun kind => ?_
  split
  · exact .ok accepted
  · exact .stop

end Rynor.Shell
