import Rynor.Shell.Lex

/-! The item parser of the resident evaluator, `rl_parse.c`. The nodes made so far stand for the pool, the tokens
still to be pulled for the lexer position; a fault of the lexer is a syntax error where it is pulled. The depth
that a command charges is given back at once, so only the charges of the yard are kept. -/

namespace Rynor.Shell

inductive Ty where
  | int | bool | str | unit
  deriving DecidableEq, Repr

inductive UnOp where
  | neg | not
  deriving DecidableEq, Repr

inductive BinOp where
  | add | sub | mul | div | mod | eq | ne | lt | gt | le | ge | and | or
  deriving DecidableEq, Repr

/-- A node of the pool; children are indices into it. `slot` is the symbol the analysis finds for a variable. -/
inductive Node where
  | int (bits : BitVec 64)
  | bool (value : Bool)
  | str (bytes : List UInt8)
  | var (off len : Nat) (slot : Option Nat)
  | unop (op : UnOp) (k1 : Nat)
  | binop (op : BinOp) (k1 k2 : Nat)
  | call (k1 : Option Nat) (k2 argc : Nat)
  | len (k1 : Option Nat) (argc : Nat)
  | cmd (off len base nargs : Nat)
  | pipe (k1 k2 : Nat)
  | let (off len : Nat) (ty : Ty) (k1 : Nat)
  | word (off len : Nat) (flag : Bool)
  | redirect (bytes : List UInt8)
  deriving DecidableEq, Repr

def poolMax : Nat := 256
def depthMax : Nat := 64
def subStrb : Nat := 256
def subArgs : Nat := 128
def subOps : Nat := 256
def subVals : Nat := 256

/-- The outcomes of the parser other than `RLP_OK`. -/
inductive ParseFault where
  | syntaxError | tooDeep | noMem
  deriving DecidableEq, Repr

abbrev Parsed (α : Type) := Except ParseFault α

structure Parser where
  toks : Stream
  pool : List Node
  args : List Nat
  deriving DecidableEq, Repr

/-! Tokens. -/

/-- `p_cur`: the kind of the token in front; pulling a fault is a syntax error. -/
def Stream.kind : Stream → Parsed Kind
  | .eof => .ok .eof
  | .fault _ => .error .syntaxError
  | .token front _ => .ok front.kind

/-- `p_peek`: the token behind the one in front. -/
def Stream.peek : Stream → Option (Kind × Option Token)
  | .token _ (.token next _) => some (next.kind, some next)
  | .token _ .eof => some (.eof, none)
  | .eof => some (.eof, none)
  | _ => none

def adjacent (a b : Token) : Bool := a.off + a.len == b.off

/-! Nodes. -/

def mkNode (pool : List Node) (node : Node) : Parsed (Nat × List Node) :=
  if pool.length ≥ poolMax then .error .noMem else .ok (pool.length, pool ++ [node])

def binopOf : Kind → Option (Nat × BinOp)
  | .orOr => some (1, .or)
  | .andAnd => some (2, .and)
  | .eqEq => some (3, .eq)
  | .bangEq => some (3, .ne)
  | .less => some (4, .lt)
  | .greater => some (4, .gt)
  | .lessEq => some (4, .le)
  | .greaterEq => some (4, .ge)
  | .plus => some (5, .add)
  | .minus => some (5, .sub)
  | .star => some (6, .mul)
  | .slash => some (6, .div)
  | .percent => some (6, .mod)
  | _ => none

def toU64 (digits : List UInt8) : BitVec 64 :=
  digits.foldl (fun value digit => value * 10 + BitVec.ofNat 64 (digit - ch '0').toNat) 0

/-- `p_atom` on the token in front. -/
def atomNode (source : List UInt8) (token : Token) : Option Node :=
  match token.kind with
  | .ident => some (.var token.off token.len none)
  | .int => some (.int (toU64 (slice source token.off token.len)))
  | .str => some (.str token.val)
  | .true => some (.bool true)
  | .false => some (.bool false)
  | _ => none

/-! The shunting yard. -/

inductive YardOp where
  | binop (prec : Nat) (op : BinOp)
  | unop (op : UnOp)
  | lparen
  | call (commas : Nat)
  deriving DecidableEq, Repr

/-- The stacks of `p_expr_yd`, the top in front, and its counters. -/
structure Yard where
  ops : List YardOp
  vals : List Nat
  parens : Nat
  unpend : Nat
  expectOperand : Bool
  haveValue : Bool
  deriving DecidableEq, Repr

def Yard.empty : Yard := ⟨[], [], 0, 0, true, false⟩

/-- Pushing an operator that charges depth. -/
def Yard.open (yard : Yard) (op : YardOp) : Parsed (List YardOp) :=
  if yard.parens + yard.unpend + 1 > depthMax then .error .tooDeep
  else if yard.ops.length ≥ subOps then .error .noMem
  else .ok (op :: yard.ops)

def pushVal (vals : List Nat) (id : Nat) : Parsed (List Nat) :=
  if vals.length ≥ subVals then .error .noMem else .ok (id :: vals)

/-- The node of one operator over the values on top. -/
def foldOp (pool : List Node) (vals : List Nat) : YardOp → Parsed (List Node × List Nat)
  | .binop _ op =>
    match vals with
    | r :: l :: vals => do
      let (id, pool) ← mkNode pool (.binop op l r)
      return (pool, ← pushVal vals id)
    | _ => .error .syntaxError
  | .unop op =>
    match vals with
    | a :: vals => do
      let (id, pool) ← mkNode pool (.unop op a)
      return (pool, ← pushVal vals id)
    | _ => .error .syntaxError
  | _ => .error .syntaxError

def YardOp.charge : YardOp → Nat
  | .unop _ => 1
  | _ => 0

/-- Folding the operators on top as long as `on` holds of them. -/
def foldWhile (on : YardOp → Bool) (pool : List Node) (vals : List Nat) (unpend : Nat) :
    List YardOp → Parsed (List Node × List Nat × Nat × List YardOp)
  | [] => .ok (pool, vals, unpend, [])
  | op :: ops =>
    if on op then do
      let (pool, vals) ← foldOp pool vals op
      foldWhile on pool vals (unpend - op.charge) ops
    else .ok (pool, vals, unpend, op :: ops)

def YardOp.isUnop : YardOp → Bool
  | .unop _ => true
  | _ => false

/-- The operators a binary operator of precedence `prec` folds. -/
def YardOp.binds (prec : Nat) : YardOp → Bool
  | .binop own _ => prec ≤ own
  | .unop _ => true
  | _ => false

def YardOp.isMark : YardOp → Bool
  | .lparen | .call _ => true
  | _ => false

/-- An operand in front: the atom and the prefix operators pending on it. -/
def Yard.operand (source : List UInt8) (token : Token) (pool : List Node) (yard : Yard) : Parsed (List Node × Yard) :=
  match atomNode source token with
  | none => .error .syntaxError
  | some node => do
    let (id, pool) ← mkNode pool node
    let vals ← pushVal yard.vals id
    let (pool, vals, unpend, ops) ← foldWhile YardOp.isUnop pool vals yard.unpend yard.ops
    return (pool, { yard with ops, vals, unpend, expectOperand := false, haveValue := true })

/-- A binary operator in front. -/
def Yard.operator (prec : Nat) (op : BinOp) (pool : List Node) (yard : Yard) : Parsed (List Node × Yard) := do
  let (pool, vals, unpend, ops) ← foldWhile (YardOp.binds prec) pool yard.vals yard.unpend yard.ops
  if ops.length ≥ subOps then .error .noMem
  else return (pool, { yard with ops := .binop prec op :: ops, vals, unpend, expectOperand := true, haveValue := false })

def isLenCall (source : List UInt8) (pool : List Node) (callee : Nat) : Bool :=
  match pool[callee]? with
  | some (.var off len _) => slice source off len == ascii "len"
  | _ => false

/-- The node of a call over its arguments and callee, the last argument on top. -/
def callNode (source : List UInt8) (pool : List Node) (vals : List Nat) (argc : Nat) : Parsed (List Node × List Nat) :=
  if vals.length < argc + 1 then .error .syntaxError
  else
    match vals.drop argc with
    | [] => .error .syntaxError
    | callee :: rest => do
      let first := if argc = 0 then none else vals[argc - 1]?
      let node := if isLenCall source pool callee then Node.len first (min argc 255)
        else .call first callee (min argc 255)
      let (id, pool) ← mkNode pool node
      return (pool, ← pushVal rest id)

/-- Folding back to the mark a comma or a closing parenthesis belongs to. -/
def Yard.toMark (pool : List Node) (yard : Yard) : Parsed (List Node × List Nat × Nat × List YardOp) :=
  if yard.ops.any YardOp.isMark then foldWhile (fun op => !op.isMark) pool yard.vals yard.unpend yard.ops
  else .error .syntaxError

/-- A comma in front. -/
def Yard.comma (pool : List Node) (yard : Yard) : Parsed (List Node × Yard) := do
  let (pool, vals, unpend, ops) ← yard.toMark pool
  match ops with
  | .call commas :: ops => return (pool, { yard with ops := .call (commas + 1) :: ops, vals, unpend, expectOperand := true, haveValue := false })
  | _ => .error .syntaxError

/-- A closing parenthesis in front. -/
def Yard.close (source : List UInt8) (pool : List Node) (yard : Yard) : Parsed (List Node × Yard) := do
  let (pool, vals, unpend, ops) ← yard.toMark pool
  match ops with
  | .lparen :: ops =>
    if yard.expectOperand then .error .syntaxError
    else return (pool, { yard with ops, vals, unpend, parens := yard.parens - 1, expectOperand := false, haveValue := true })
  | .call commas :: ops =>
    if yard.expectOperand ∧ commas > 0 then .error .syntaxError
    else
      let (pool, vals) ← callNode source pool vals (if yard.expectOperand then 0 else commas + 1)
      return (pool, { yard with ops, vals, unpend, parens := yard.parens - 1, expectOperand := false, haveValue := true })
  | _ => .error .syntaxError

/-- What is left on the stacks at the end of an expression. -/
def Yard.drain (pool : List Node) (yard : Yard) : Parsed (Nat × List Node) := do
  let (pool, vals, unpend, ops) ← foldWhile (fun op => !op.isMark) pool yard.vals yard.unpend yard.ops
  match ops, vals with
  | [], [id] => if unpend = 0 then return (id, pool) else .error .syntaxError
  | _, _ => .error .syntaxError

/-- One token of an expression; `none` where the caller goes on. -/
def Yard.step (source : List UInt8) (token : Token) (pool : List Node) (yard : Yard) :
    Parsed (Option (List Node × Yard)) :=
  if yard.expectOperand then
    match token.kind with
    | .minus => do return some (pool, { yard with ops := ← yard.open (.unop .neg), unpend := yard.unpend + 1 })
    | .bang => do return some (pool, { yard with ops := ← yard.open (.unop .not), unpend := yard.unpend + 1 })
    | .lparen => do
      let op := if yard.haveValue then YardOp.call 0 else .lparen
      return some (pool, { yard with ops := ← yard.open op, parens := yard.parens + 1, haveValue := false })
    | _ => do return some (← yard.operand source token pool)
  else
    match binopOf token.kind with
    | some (prec, op) => do return some (← yard.operator prec op pool)
    | none =>
      match token.kind with
      | .lparen => do
        if yard.haveValue then
          return some (pool, { yard with ops := ← yard.open (.call 0), parens := yard.parens + 1, expectOperand := true, haveValue := false })
        else return none
      | .comma => do return some (← yard.comma pool)
      | .rparen => do return some (← yard.close source pool)
      | _ => return none

/-- `p_expr_yd`. -/
def exprYd (source : List UInt8) (args : List Nat) (pool : List Node) (yard : Yard) : Stream → Parsed (Nat × Parser)
  | .fault _ => .error .syntaxError
  | .eof =>
    if yard.expectOperand then .error .syntaxError
    else do
      let (id, pool) ← yard.drain pool
      return (id, ⟨.eof, pool, args⟩)
  | .token token rest => do
    match ← yard.step source token pool with
    | some (pool, yard) => exprYd source args pool yard rest
    | none =>
      let (id, pool) ← yard.drain pool
      return (id, ⟨.token token rest, pool, args⟩)

def expr (source : List UInt8) (parser : Parser) : Parsed (Nat × Parser) :=
  exprYd source parser.args parser.pool .empty parser.toks

/-! Commands. -/

def argStarter : Kind → Bool
  | .ident | .minus | .int | .str | .true | .false | .greater => true
  | _ => false

def loneFollow : Kind → Bool
  | .pipeGt | .semi | .eof | .rbrace | .rparen | .comma => true
  | _ => false

/-- `p_redirect_ok` on the tokens behind the `>`: it wants another one before the target. -/
def redirectOk : Stream → Bool
  | .token first (.token after rest) =>
    first.kind == .greater && (after.kind == .str || (after.kind == .greater && after.off == first.off + 1 &&
          match rest with
          | .token last _ => last.kind == .str
          | _ => false))
  | _ => false

/-- A command is given up, for the expression parser to try, when its text does not continue as one. -/
inductive Attempt (α : Type) where
  | made (value : α)
  | givenUp

def argPush (args : List Nat) (id : Nat) : Parsed (List Nat) :=
  if args.length ≥ subArgs then .error .noMem else .ok (args ++ [id])

/-- An argument with the node it makes. -/
def pushArg (parser : Parser) (node : Node) : Parsed Parser := do
  let (id, pool) ← mkNode parser.pool node
  return { parser with pool, args := ← argPush parser.args id }

/-- A negative integer argument: the literal and the sign over it. -/
def pushNegative (parser : Parser) (literal : Node) : Parsed Parser := do
  let (lit, pool) ← mkNode parser.pool literal
  pushArg { parser with pool } (.unop .neg lit)

/-- The argument loop of `p_cmd`. -/
def cmdArgs (source : List UInt8) (pool : List Node) (args : List Nat) : Stream → Parsed (Attempt Parser)
  | .fault _ => .error .syntaxError
  | .eof => .ok (.made ⟨.eof, pool, args⟩)
  | .token token rest =>
    match token.kind with
    | .ident => do
      let parser ← pushArg ⟨rest, pool, args⟩ (.word token.off token.len false)
      cmdArgs source parser.pool parser.args rest
    | .int | .str | .true | .false =>
      match atomNode source token with
      | none => .error .syntaxError
      | some node => do
        let parser ← pushArg ⟨rest, pool, args⟩ node
        cmdArgs source parser.pool parser.args rest
    | .minus =>
      match rest with
      | .token next after =>
        if next.kind = .ident ∧ adjacent token next then do
          let parser ← pushArg ⟨after, pool, args⟩ (.word next.off next.len true)
          cmdArgs source parser.pool parser.args after
        else if next.kind = .int ∧ adjacent token next then do
          let parser ← pushNegative ⟨after, pool, args⟩ (.int (toU64 (slice source next.off next.len)))
          cmdArgs source parser.pool parser.args after
        else .ok .givenUp
      | _ => .ok .givenUp
    | .greater =>
      match rest with
      | .fault _ => .error .syntaxError
      | .eof => .ok .givenUp
      -- A second `>` is compared with itself, through the cell both were pulled into, so it never joins the first.
      | .token target after =>
        if target.kind = .str then do
          let parser ← pushArg ⟨after, pool, args⟩ (.redirect target.val)
          cmdArgs source parser.pool parser.args after
        else .ok .givenUp
    | _ => .ok (.made ⟨.token token rest, pool, args⟩)

/-- The token behind the name lets a command begin. -/
def cmdStarts (toks : Stream) : Parsed Bool := do
  let kind ← toks.kind
  match kind, toks with
  | .minus, .token dash (.token after _) => return (after.kind = .ident ∨ after.kind = .int) ∧ adjacent dash after
  | .minus, _ => return false
  | .greater, .token _ rest => return redirectOk rest
  | kind, _ => return argStarter kind

/-- `p_cmd` with the name in front. -/
def cmd (source : List UInt8) (name : Token) (rest : Stream) (parser : Parser) : Parsed (Attempt (Nat × Parser)) := do
  if ← cmdStarts rest then
    match ← cmdArgs source parser.pool parser.args rest with
    | .givenUp => return .givenUp
    | .made after =>
      if after.args.length = parser.args.length then return .givenUp
      else
        let (id, pool) ← mkNode after.pool (.cmd name.off name.len parser.args.length
          (after.args.length - parser.args.length))
        return .made (id, { after with pool })
  else return .givenUp

/-- `p_cmd_or_expr`: a command that fails or is given up is read again as an expression. -/
def cmdOrExpr (source : List UInt8) (parser : Parser) : Parsed (Nat × Parser) :=
  match parser.toks with
  | .token name rest =>
    if name.kind = .ident then
      match cmd source name rest parser with
      | .error .noMem => .error .noMem
      | .error _ => expr source parser
      | .ok .givenUp => expr source parser
      | .ok (.made result) => .ok result
    else expr source parser
  | _ => expr source parser

/-- `p_stage`: a lone word is a command without arguments. -/
def stage (source : List UInt8) (parser : Parser) : Parsed (Nat × Parser) :=
  match parser.toks with
  | .token name rest =>
    if name.kind = .ident ∧ (parser.toks.peek.any fun next => loneFollow next.1) then do
      let (id, pool) ← mkNode parser.pool (.cmd name.off name.len 0 0)
      return (id, { parser with toks := rest, pool })
    else cmdOrExpr source parser
  | _ => cmdOrExpr source parser

/-- The stage behind a `|>`. -/
def nextStage (source : List UInt8) (parser : Parser) (rest : Stream) : Parsed (Nat × Parser) := do
  if (← rest.kind) = .eof then .error .syntaxError else stage source { parser with toks := rest }

/-- `p_pipeline`: at most two stages; a third one is read and refused. -/
def pipeline (source : List UInt8) (parser : Parser) : Parsed (Nat × Parser) := do
  let (left, parser) ← stage source parser
  match ← parser.toks.kind, parser.toks with
  | .pipeGt, .token _ rest =>
    let (right, parser) ← nextStage source parser rest
    let (id, pool) ← mkNode parser.pool (.pipe left right)
    let parser := { parser with pool }
    match ← parser.toks.kind, parser.toks with
    | .pipeGt, .token _ rest =>
      let _ ← nextStage source parser rest
      .error .syntaxError
    | _, _ => return (id, parser)
  | _, _ => return (left, parser)

def tyOf : Kind → Option Ty
  | .intT => some .int
  | .boolT => some .bool
  | .strT => some .str
  | _ => none

/-- `p_let` behind the keyword. -/
def letItem (source : List UInt8) (parser : Parser) (rest : Stream) : Parsed (Nat × Parser) :=
  match rest with
  | .token name (.token colon (.token typed (.token equal rest))) =>
    if name.kind = .ident ∧ colon.kind = .colon then
      match tyOf typed.kind with
      | some ty =>
        if equal.kind = .equal then do
          let (init, parser) ← pipeline source { parser with toks := rest }
          let (id, pool) ← mkNode parser.pool (.let name.off name.len ty init)
          return (id, { parser with pool })
        else .error .syntaxError
      | none => .error .syntaxError
    else .error .syntaxError
  | _ => .error .syntaxError

def item (source : List UInt8) (parser : Parser) : Parsed (Nat × Parser) := do
  match ← parser.toks.kind, parser.toks with
  | .let, .token _ rest => letItem source parser rest
  | _, _ => pipeline source parser

/-- `rl_parse_part`: the whole part is one item. -/
def parsePart (source : List UInt8) : Parsed (Nat × Parser) := do
  let (root, parser) ← item source ⟨stream subStrb source, [], []⟩
  if (← parser.toks.kind) = .eof then return (root, parser) else .error .syntaxError

end Rynor.Shell
