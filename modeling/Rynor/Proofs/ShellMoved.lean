import Rynor.Proofs.ShellTrim

/-! The parser makes the same nodes of a part and of its trimmed line, up to the places of names in the text. -/

namespace Rynor.Shell
open Checks List Option

variable {trim index : Nat} {line part : List UInt8} {pool own : List Node} {vals : List Nat} {token : Token}

/-- The node with the place of its name moved. -/
def Node.moved (trim : Nat) : Node → Node
  | .var off width slot => .var (off + trim) width slot
  | .cmd off width base nargs => .cmd (off + trim) width base nargs
  | .let off width ty k1 => .let (off + trim) width ty k1
  | .word off width flag => .word (off + trim) width flag
  | node => node

def Node.Inside (line : List UInt8) : Node → Prop
  | .var off width _ | .cmd off width _ _ | .let off width _ _ | .word off width _ => off + width ≤ line.length
  | _ => True

/-- A pool of the part over the pool of the line. -/
structure NearPool (trim : Nat) (line : List UInt8) (pool own : List Node) : Prop where
  same : pool = own.map (Node.moved trim)
  inside : ∀ node ∈ own, node.Inside line

lemma NearPool.empty : NearPool trim line [] [] := ⟨rfl, nofun⟩

lemma NearPool.get? (near : NearPool trim line pool own) (index : Nat) :
    pool[index]? = own[index]?.map (Node.moved trim) := by
  rw [near.same, getElem?_map]

/-- The line stands in the part. -/
def Stands (trim : Nat) (line part : List UInt8) : Prop :=
  ∀ off len, off + len ≤ line.length → slice part (off + trim) len = slice line off len

lemma slice_middle (inside : off + len ≤ line.length) (front back : List UInt8) :
    slice (front ++ (line ++ back)) (front.length + off) len = slice line off len := by
  unfold slice
  rw [← drop_drop, drop_left, drop_append_of_le_length (by omega),
    take_append_of_le_length (by rw [length_drop]; omega)]

lemma Around.stands (around : Around part line front back) : Stands front.length line part := by
  intro off len inside
  rw [around.whole, add_comm, slice_middle inside]

/-! Results over pools. -/

def NearId (trim : Nat) (line : List UInt8) (moved own : Nat × List Node) : Prop :=
  moved.1 = own.1 ∧ NearPool trim line moved.2 own.2

def NearWith {σ : Type} (trim : Nat) (line : List UInt8) (moved own : List Node × σ) : Prop :=
  NearPool trim line moved.1 own.1 ∧ moved.2 = own.2

section
variable (node : Node) (near : NearPool trim line pool own) (inside : node.Inside line)
include node near inside

lemma mkNode_near : Alike (NearId trim line) (mkNode pool (node.moved trim)) (mkNode own node) := by
  obtain ⟨rfl, others⟩ := near
  unfold mkNode
  rw [length_map]
  refine .ite Iff.rfl (.error _) (.ok ⟨rfl, by rw [map_append]; rfl, ?_⟩)
  rintro other (found : other ∈ own ++ [node])
  rcases mem_append.mp found with old | new
  · exact others other old
  · cases mem_singleton.mp new
    exact inside

lemma mkVal_near (vals : List Nat) :
    Alike (NearWith trim line) (do let (id, pool) ← mkNode pool (node.moved trim); return (pool, ← pushVal vals id))
      (do let (id, own) ← mkNode own node; return (own, ← pushVal vals id)) := by
  refine (mkNode_near node near inside).bind_right fun id pool own near => ?_
  exact Alike.refl.bind fun _ _ same => .ok ⟨near, same⟩

end

lemma foldOp_near (near : NearPool trim line pool own) :
    Alike (NearWith trim line) (foldOp pool vals op) (foldOp own vals op) := by
  unfold foldOp
  split
  · split
    · next r l vals => exact mkVal_near (.binop _ l r) near trivial vals
    · exact .error _
  · split
    · next a vals => exact mkVal_near (.unop _ a) near trivial vals
    · exact .error _
  · exact .error _

lemma foldWhile_near {on : YardOp → Bool} (near : NearPool trim line pool own) :
    Alike (NearWith trim line) (foldWhile on pool vals unpend ops) (foldWhile on own vals unpend ops) := by
  induction ops generalizing pool own vals unpend with
  | nil => exact .ok ⟨near, rfl⟩
  | cons op ops ih =>
    unfold foldWhile
    refine .ite Iff.rfl ((foldOp_near near).bind_left fun vals pool own near => ?_) (.ok ⟨near, rfl⟩)
    exact ih near

lemma atomNode_moved (stands : Stands trim line part) (inside : token.off + token.len ≤ line.length) :
    atomNode part { token with off := token.off + trim } = (atomNode line token).map (Node.moved trim) ∧
      ∀ node, atomNode line token = some node → node.Inside line := by
  unfold atomNode
  cases token.kind <;> simp only [stands _ _ inside, map_some, map_none, Option.some.injEq, forall_eq', reduceCtorEq,
    false_implies,
    implies_true, and_self, Node.moved, Node.Inside, inside]

variable {yard : Yard}

lemma operand_near (stands : Stands trim line part) (inside : token.off + token.len ≤ line.length)
    (near : NearPool trim line pool own) :
    Alike (NearWith trim line) (yard.operand part { token with off := token.off + trim } pool)
      (yard.operand line token own) := by
  obtain ⟨moved, kept⟩ := atomNode_moved stands inside
  unfold Yard.operand
  rw [moved]
  rcases found : atomNode line token with _ | node
  · exact .error _
  refine (mkNode_near node near (kept node found)).bind_right fun id pool own near => ?_
  refine Alike.refl.bind fun vals _ same => ?_
  subst same
  refine (foldWhile_near near).bind_left fun folded pool own near => ?_
  exact .ok ⟨near, rfl⟩

section
variable (near : NearPool trim line pool own)
include near

lemma operator_near : Alike (NearWith trim line) (yard.operator prec op pool) (yard.operator prec op own) := by
  refine (foldWhile_near near).bind_left fun folded pool own near => ?_
  exact .ite Iff.rfl (.error _) (.ok ⟨near, rfl⟩)

lemma toMark_near : Alike (NearWith trim line) (yard.toMark pool) (yard.toMark own) :=
  .ite Iff.rfl (foldWhile_near near) (.error _)

lemma comma_near : Alike (NearWith trim line) (yard.comma pool) (yard.comma own) := by
  refine (toMark_near near).bind_left fun folded pool own near => ?_
  dsimp only
  split
  · exact .ok ⟨near, rfl⟩
  · exact .error _

end

section
variable (stands : Stands trim line part) (near : NearPool trim line pool own)
include stands near

lemma isLenCall_near : isLenCall part pool callee = isLenCall line own callee := by
  unfold isLenCall
  rw [near.get?]
  cases found : own[callee]? with
  | none => rfl
  | some node =>
    have inside := near.inside node (mem_of_getElem? found)
    cases node with
    | var off len slot => simp only [map_some, Node.moved, stands off len inside]
    | int | bool | str | unop | binop | call | len | cmd | pipe | «let» | word | redirect => rfl

lemma callNode_near : Alike (NearWith trim line) (callNode part pool vals argc) (callNode line own vals argc) := by
  unfold callNode
  refine .ite Iff.rfl (.error _) ?_
  split
  · exact .error _
  next _ callee rest _ =>
  rw [isLenCall_near stands near]
  have kept : ∀ first, (if isLenCall line own callee then Node.len first (min argc 255)
    else .call first callee (min argc 255)).Inside line :=
    fun first => by split <;> trivial
  have fixed : ∀ first, (if isLenCall line own callee then Node.len first (min argc 255)
    else .call first callee (min argc 255)) =
      Node.moved trim (if isLenCall line own callee then Node.len first (min argc 255)
        else .call first callee (min argc 255)) :=
    fun first => by split <;> rfl
  dsimp only
  nth_rewrite 1 [fixed]
  exact mkVal_near _ near (kept _) rest

lemma close_near : Alike (NearWith trim line) (yard.close part pool) (yard.close line own) := by
  refine (toMark_near near).bind_left fun folded pool own near => ?_
  dsimp only
  split
  · exact .ite Iff.rfl (.error _) (.ok ⟨near, rfl⟩)
  · refine .ite Iff.rfl (.error _) ((callNode_near stands near).bind_left fun vals pool own near => ?_)
    exact .ok ⟨near, rfl⟩
  · exact .error _

end

lemma drain_near (near : NearPool trim line pool own) :
    Alike (NearId trim line) (yard.drain pool) (yard.drain own) := by
  refine (foldWhile_near near).bind_left fun folded pool own near => ?_
  dsimp only
  split
  · exact .ite Iff.rfl (.ok ⟨rfl, near⟩) (.error _)
  · exact .error _

/-- One step of the yard on both sides: the expression goes on, or the caller does. -/
inductive NearStep (trim : Nat) (line : List UInt8) : Option (List Node × Yard) → Option (List Node × Yard) → Prop
  | none : NearStep trim line none none
  | some {moved own : List Node × Yard} (near : NearWith trim line moved own) :
    NearStep trim line (some moved) (some own)

lemma goes_on {moved own : Parsed (List Node × Yard)} (near : Alike (NearWith trim line) moved own) :
    Alike (NearStep trim line) (do return some (← moved)) (do return some (← own)) :=
  near.bind fun _ _ near => .ok (.some near)

lemma opens {stack : Parsed (List YardOp)} {next : List YardOp → Yard} (near : NearPool trim line pool own) :
    Alike (NearStep trim line) (do return some (pool, next (← stack))) (do return some (own, next (← stack))) :=
  Alike.refl.bind fun _ _ same => .ok (.some ⟨near, congrArg next same⟩)

lemma step_near (stands : Stands trim line part) (inside : token.off + token.len ≤ line.length)
    (near : NearPool trim line pool own) :
    Alike (NearStep trim line) (yard.step part { token with off := token.off + trim } pool)
      (yard.step line token own) := by
  unfold Yard.step
  refine .ite Iff.rfl ?_ ?_
  · dsimp only
    split
    · exact opens near
    · exact opens near
    · exact opens near
    · exact goes_on (operand_near stands inside near)
  dsimp only
  split
  · exact goes_on (operator_near near)
  split
  · exact .ite Iff.rfl (opens near) (.ok .none)
  · exact goes_on (comma_near near)
  · exact goes_on (close_near stands near)
  · exact .ok .none

/-! Parsers. -/

structure NearParser (trim : Nat) (line : List UInt8) (moved own : Parser) : Prop where
  toks : Near trim line moved.toks own.toks
  pool : NearPool trim line moved.pool own.pool
  args : moved.args = own.args

/-- A root with its parser. -/
def NearRoot (trim : Nat) (line : List UInt8) (moved own : Nat × Parser) : Prop :=
  moved.1 = own.1 ∧ NearParser trim line moved.2 own.2

variable {toks left : Stream} {args : List Nat} {moved held : Parser}

lemma Near.kind (near : Near trim line toks left) : toks.kind = left.kind := by
  cases near <;> rfl

lemma exprYd_near (stands : Stands trim line part) (tokens : Near trim line toks left)
    (near : NearPool trim line pool own) :
    Alike (NearRoot trim line) (exprYd part args pool yard toks) (exprYd line args own yard left) := by
  induction tokens generalizing pool own yard with
  | fault => exact .error _
  | eof =>
    unfold exprYd
    refine .ite Iff.rfl (.error _) ((drain_near near).bind fun _ _ ⟨same, near⟩ => ?_)
    exact .ok ⟨same, .eof, near, rfl⟩
  | token inside rest ih =>
    unfold exprYd
    refine (step_near stands inside near).bind fun _ _ step => ?_
    cases step with
    | none =>
      refine (drain_near near).bind fun _ _ ⟨same, near⟩ => ?_
      exact .ok ⟨same, .token inside rest, near, rfl⟩
    | @some moved own both =>
      obtain ⟨pool, yard⟩ := moved
      obtain ⟨own, _⟩ := own
      obtain ⟨near, same⟩ := both
      cases same
      exact ih near

lemma expr_near (stands : Stands trim line part) (near : NearParser trim line moved held) :
    Alike (NearRoot trim line) (expr part moved) (expr line held) := by
  unfold expr
  rw [near.args]
  exact exprYd_near stands near.toks near.pool

lemma pushArg_near (node : Node) (near : NearParser trim line moved held) (inside : node.Inside line) :
    Alike (NearParser trim line) (pushArg moved (node.moved trim)) (pushArg held node) := by
  unfold pushArg
  rw [near.args]
  refine (mkNode_near node near.pool inside).bind_right fun id pool own pools => ?_
  exact Alike.refl.bind fun _ _ same => .ok ⟨near.toks, pools, same⟩

lemma pushNegative_near (literal : BitVec 64) (near : NearParser trim line moved held) :
    Alike (NearParser trim line) (pushNegative moved (.int literal)) (pushNegative held (.int literal)) := by
  have made : Alike (NearId trim line) (mkNode moved.pool (.int literal)) (mkNode held.pool (.int literal)) :=
    mkNode_near (.int literal) near.pool trivial
  refine made.bind_right fun id pool own pools => ?_
  exact pushArg_near (.unop .neg id) ⟨near.toks, pools, near.args⟩ trivial

/-- Both commands are made, or both are given up. -/
inductive NearAttempt {α β : Type} (related : α → β → Prop) : Attempt α → Attempt β → Prop
  | made {left : α} {right : β} (same : related left right) : NearAttempt related (.made left) (.made right)
  | givenUp : NearAttempt related .givenUp .givenUp

lemma adjacent_moved (first second : Token) :
    adjacent { first with off := first.off + trim } { second with off := second.off + trim } =
      adjacent first second := by
  unfold adjacent
  rw [Bool.eq_iff_iff, beq_iff_eq, beq_iff_eq]
  dsimp only
  omega

lemma cmdArgs_near (stands : Stands trim line part) (tokens : Near trim line toks left)
    (near : NearPool trim line pool own) :
    Alike (NearAttempt (NearParser trim line)) (cmdArgs part pool args toks) (cmdArgs line own args left) := by
  -- The loop takes one or two tokens for an argument, so the induction is on the size of what is left.
  induction size : sizeOf left using Nat.strongRecOn generalizing toks left pool own args with
  | ind size ih =>
    subst size
    have loop : ∀ {moved behind : Stream}, Near trim line moved behind → sizeOf behind < sizeOf left →
      ∀ x y : Parser, NearParser trim line x y →
        Alike (NearAttempt (NearParser trim line)) (cmdArgs part x.pool x.args moved)
          (cmdArgs line y.pool y.args behind) := by
      intro moved behind rest fewer x y parsers
      rw [parsers.args]
      exact ih _ fewer rest parsers.pool rfl
    cases tokens with
    | fault => exact .error _
    | eof => exact .ok (.made ⟨.eof, near, rfl⟩)
    | @token token moved left inside rest =>
      have parsers : NearParser trim line ⟨moved, pool, args⟩ ⟨left, own, args⟩ := ⟨rest, near, rfl⟩
      have next := loop rest (by rw [Stream.token.sizeOf_spec]; omega)
      unfold cmdArgs
      dsimp only
      split
      · exact (pushArg_near (.word token.off token.len false) parsers inside).bind next
      -- The four kinds of literal.
      iterate 4
        obtain ⟨atom, kept⟩ := atomNode_moved stands inside
        rw [atom]
        cases found : atomNode line token with
        | none => exact .error _
        | some node => exact (pushArg_near node parsers (kept node found)).bind next
      · cases rest with
        | eof | fault => exact .ok .givenUp
        | @token dashed moved left inside rest =>
          have parsers : NearParser trim line ⟨moved, pool, args⟩ ⟨left, own, args⟩ := ⟨rest, near, rfl⟩
          have next := loop rest (by simp; omega)
          dsimp only
          rw [adjacent_moved, stands _ _ inside]
          exact .ite Iff.rfl ((pushArg_near (.word dashed.off dashed.len true) parsers inside).bind next)
            (.ite Iff.rfl ((pushNegative_near _ parsers).bind next) (.ok .givenUp))
      · cases rest with
        | fault => exact .error _
        | eof => exact .ok .givenUp
        | @token target moved left inside rest =>
          have parsers : NearParser trim line ⟨moved, pool, args⟩ ⟨left, own, args⟩ := ⟨rest, near, rfl⟩
          have next := loop rest (by simp; omega)
          exact .ite Iff.rfl ((pushArg_near (.redirect target.val) parsers trivial).bind next) (.ok .givenUp)
      · exact .ok (.made ⟨.token inside rest, near, rfl⟩)

lemma redirectOk_near (near : Near trim line toks left) : redirectOk toks = redirectOk left := by
  cases near with
  | eof | fault => rfl
  | token _ rest =>
    cases rest with
    | eof | fault => rfl
    | @token after _ _ _ rest =>
      have same : ∀ first second : Nat, (second + trim == first + trim + 1) = (second == first + 1) :=
        fun first second => by
        rw [Bool.eq_iff_iff, beq_iff_eq, beq_iff_eq]
        omega
      cases rest <;> simp only [redirectOk, same]

lemma cmdStarts_near (near : Near trim line toks left) : cmdStarts toks = cmdStarts left := by
  cases near with
  | eof | fault => rfl
  | @token token _ _ _ rest =>
    obtain ⟨kind, off, width, val⟩ := token
    cases kind with
    | greater => exact congrArg Except.ok (redirectOk_near rest)
    | minus =>
      cases rest with
      | eof | fault => rfl
      | @token next =>
        have joined : adjacent ⟨.minus, off + trim, width, val⟩ { next with off := next.off + trim } =
          adjacent ⟨.minus, off, width, val⟩ next :=
          adjacent_moved ⟨.minus, off, width, val⟩ next
        exact congrArg (fun joins : Bool => Except.ok
          (decide ((next.kind = .ident ∨ next.kind = .int) ∧ joins = true))) joined
    | _ => rfl

lemma cmd_near (stands : Stands trim line part) (inside : name.off + name.len ≤ line.length)
    (rest : Near trim line toks left) (near : NearParser trim line moved held) :
    Alike (NearAttempt (NearRoot trim line)) (cmd part { name with off := name.off + trim } toks moved)
      (cmd line name left held) := by
  unfold cmd
  rw [cmdStarts_near rest, near.args]
  refine Alike.refl.bind fun starts _ same => ?_
  subst same
  refine .ite Iff.rfl ((cmdArgs_near stands rest near.pool).bind fun _ _ attempt => ?_) (.ok .givenUp)
  cases attempt with
  | givenUp => exact .ok .givenUp
  | @made first second after =>
    dsimp only
    rw [after.args]
    refine .ite Iff.rfl (.ok .givenUp) ?_
    refine (mkNode_near (.cmd name.off name.len _ _) after.pool inside).bind fun _ _ ⟨same, pools⟩ => ?_
    exact .ok (.made ⟨same, after.toks, pools, rfl⟩)

lemma cmdOrExpr_near (stands : Stands trim line part) (near : NearParser trim line moved held) :
    Alike (NearRoot trim line) (cmdOrExpr part moved) (cmdOrExpr line held) := by
  have other := expr_near stands near
  obtain ⟨tokens, pools, same⟩ := near
  obtain ⟨toks, pool, args⟩ := moved
  obtain ⟨left, own, others⟩ := held
  unfold cmdOrExpr
  cases tokens with
  | eof | fault => exact other
  | token inside rest =>
    have command := cmd_near stands inside rest ⟨.token inside rest, pools, same⟩
    refine .ite Iff.rfl ?_ other
    generalize cmd part _ _ _ = first at command ⊢
    generalize cmd line _ _ _ = second at command ⊢
    cases command with
    | error fault =>
      cases fault with
      | noMem => exact .error _
      | syntaxError | tooDeep => exact other
    | ok attempt =>
      cases attempt with
      | givenUp => exact other
      | made roots => exact .ok roots

lemma Near.peek (near : Near trim line toks left) : toks.peek.map Prod.fst = left.peek.map Prod.fst := by
  cases near with
  | eof | fault => rfl
  | token _ rest => cases rest <;> rfl

lemma stage_near (stands : Stands trim line part) (near : NearParser trim line moved held) :
    Alike (NearRoot trim line) (stage part moved) (stage line held) := by
  have other := cmdOrExpr_near stands near
  obtain ⟨tokens, pools, same⟩ := near
  obtain ⟨toks, pool, args⟩ := moved
  obtain ⟨left, own, others⟩ := held
  have peeked : (toks.peek.any fun next => loneFollow next.1) = left.peek.any fun next => loneFollow next.1 := by
    have peek : (toks.peek.map Prod.fst).any loneFollow = (left.peek.map Prod.fst).any loneFollow := by rw [tokens.peek]
    simpa only [Option.any_map] using peek
  unfold stage
  dsimp only
  rw [peeked]
  cases tokens with
  | eof | fault => exact other
  | @token name _ _ inside rest =>
    refine .ite Iff.rfl ((mkNode_near (.cmd name.off name.len 0 0) pools inside).bind fun _ _ ⟨root, pools⟩ => ?_) other
    exact .ok ⟨root, rest, pools, same⟩

lemma nextStage_near (stands : Stands trim line part) (rest : Near trim line toks left)
    (near : NearParser trim line moved held) :
    Alike (NearRoot trim line) (nextStage part moved toks) (nextStage line held left) := by
  unfold nextStage
  rw [rest.kind]
  refine Alike.refl.bind fun kind _ same => ?_
  subst same
  exact .ite Iff.rfl (.error _) (stage_near stands ⟨rest, near.pool, near.args⟩)

lemma Near.front {α β : Type} {related : α → β → Prop} {next : Kind → Parsed α} {other : Kind → Parsed β}
    (near : Near trim line toks left) (goes : ∀ kind, Alike related (next kind) (other kind)) :
    Alike related (toks.kind >>= next) (left.kind >>= other) := by
  rw [near.kind]
  refine Alike.refl.bind fun kind _ same => ?_
  subst same
  exact goes kind

section
variable (stands : Stands trim line part)
include stands

lemma pipeline_near (near : NearParser trim line moved held) :
    Alike (NearRoot trim line) (pipeline part moved) (pipeline line held) := by
  refine (stage_near stands near).bind_right fun root moved held near => ?_
  dsimp only at near ⊢
  have ends : Alike (NearRoot trim line) (pure (root, moved) : Parsed _) (pure (root, held)) := .ok ⟨rfl, near⟩
  refine near.toks.front fun kind => ?_
  obtain ⟨toks, pool, args⟩ := moved
  obtain ⟨left, own, others⟩ := held
  have tokens : Near trim line toks left := near.toks
  cases kind with
  | pipeGt =>
    cases tokens with
    | eof | fault => exact ends
    | token inside rest =>
      refine (nextStage_near stands rest near).bind_right fun right moved held near => ?_
      refine (mkNode_near (.pipe root right) near.pool trivial).bind_right fun id pool own pools => ?_
      have parsers : NearParser trim line { moved with pool } { held with pool := own } := ⟨near.toks, pools, near.args⟩
      have ends : Alike (NearRoot trim line) (pure (id, { moved with pool }) : Parsed _) (pure (id,
        { held with pool := own })) := .ok ⟨rfl, parsers⟩
      refine near.toks.front fun kind => ?_
      obtain ⟨toks, _, args⟩ := moved
      obtain ⟨left, _, others⟩ := held
      have tokens : Near trim line toks left := near.toks
      cases kind with
      | pipeGt =>
        cases tokens with
        | eof | fault => exact ends
        | token inside rest => exact (nextStage_near stands rest parsers).bind fun _ _ _ => .error _
      | _ => exact ends
  | _ => exact ends

lemma letItem_near (rest : Near trim line toks left) (near : NearParser trim line moved held) :
    Alike (NearRoot trim line) (letItem part moved toks) (letItem line held left) := by
  cases rest with
  | eof | fault => exact .error _
  | @token name _ _ inside rest =>
    cases rest with
    | eof | fault => exact .error _
    | token _ rest =>
      cases rest with
      | eof | fault => exact .error _
      | token _ rest =>
        cases rest with
        | eof | fault => exact .error _
        | token _ rest =>
          unfold letItem
          dsimp only
          refine .ite Iff.rfl ?_ (.error _)
          split
          · next ty _ =>
            refine .ite Iff.rfl ?_ (.error _)
            have parsers : NearParser trim line { moved with toks := _ } { held with toks := _ } :=
              ⟨rest, near.pool, near.args⟩
            refine (pipeline_near stands parsers).bind_right fun init moved held near => ?_
            refine (mkNode_near (.let name.off name.len ty init) near.pool inside).bind_right fun id pool own
              pools => ?_
            exact .ok ⟨rfl, near.toks, pools, near.args⟩
          · exact .error _

lemma item_near (near : NearParser trim line moved held) :
    Alike (NearRoot trim line) (item part moved) (item line held) := by
  refine near.toks.front fun kind => ?_
  have other := pipeline_near stands near
  obtain ⟨toks, pool, args⟩ := moved
  obtain ⟨left, own, others⟩ := held
  have tokens : Near trim line toks left := near.toks
  cases kind with
  | «let» =>
    cases tokens with
    | eof | fault => exact other
    | token _ rest => exact letItem_near stands rest near
  | _ => exact other

end

lemma parsePart_near (around : Around part line front back) :
    Alike (NearRoot front.length line) (parsePart part) (parsePart line) := by
  have start : NearParser front.length line ⟨stream subStrb part, [], []⟩ ⟨stream subStrb line, [], []⟩ :=
    ⟨stream_moved around, .empty, rfl⟩
  refine (item_near around.stands start).bind_right fun root moved held near => ?_
  exact near.toks.front fun kind => .ite Iff.rfl (.ok ⟨rfl, near⟩) (.error _)

end Rynor.Shell
