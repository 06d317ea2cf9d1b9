import Rynor.Shell.Eval

/-! The session of the resident evaluator, `rl_sem.c`. Only accepted source text, the symbol table and the string
arena survive a submission; every submission analyses the whole accepted text again before its own part. -/

namespace Rynor.Shell

def sessMax : Nat := 8192
def symMax : Nat := 128
def sessArena : Nat := 4608
def subArena : Nat := 6688
def subAux : Nat := 2080
def partMax : Nat := 512
def canonCap : Nat := 514

/-- The diagnostic classes of a submission. -/
inductive Diag where
  | parLex | semUndeclared | semDuplicate | semType | semArity | semUnknownFn | semLimit | shRedirect | internal | ownFail
  | sessionLimit | symbolLimit | pipelineStage | evalTrap | arenaFull
  deriving DecidableEq, Repr

inductive SubKind where
  | ok | syntaxError | reject | notImpl | trap | arenaFull | ownFail | internal
  deriving DecidableEq, Repr

/-! Names. -/

def reserved (name : List UInt8) : Bool := name == ascii "print" || name == ascii "status"

def isPrint (name : List UInt8) : Bool := name == ascii "print"

/-- `rl_lookup`: the first row whose name has these bytes. -/
def lookup (tab : List Sym) (src name : List UInt8) : Option Nat :=
  tab.findIdx? fun sym => sym.nameLen == name.length && slice src sym.nameOff sym.nameLen == name

/-! The analysis. -/

/-- The pool, the types found so far and the entries still to be visited. -/
structure AnState where
  pool : List Node
  types : Nat → Option Ty
  walk : List (Nat × Bool)

/-- What the analysis reads: the text the names slice, the table and the source its names slice, the arguments of
commands. -/
structure AnContext where
  text : List UInt8
  tab : List Sym
  src : List UInt8
  args : List Nat

def AnState.setType (state : AnState) (index : Nat) (ty : Ty) : AnState :=
  { state with types := fun other => if other = index then some ty else state.types other }

def AnState.visit (state : AnState) (index : Nat) (children : List Nat) : Except Diag AnState :=
  if state.walk.length + (children.length + 1) > subWalk then .error .arenaFull
  else .ok { state with walk := children.map (·, false) ++ (index, true) :: state.walk }

/-- A variable, or a lone word that names one: the node becomes the variable with its row. -/
def AnState.resolve (context : AnContext) (state : AnState) (index off len : Nat) : Except Diag AnState :=
  let name := slice context.text off len
  if reserved name then .error .semUndeclared
  else
    match lookup context.tab context.src name with
    | none => .error .semUndeclared
    | some row =>
      match context.tab[row]? with
      | none => .error .internal
      | some sym => .ok ({ state with pool := state.pool.set index (.var off len (some row)) }.setType index sym.type)

/-- The arguments of a command in value position may hold no redirect. -/
def checkArgs (context : AnContext) (pool : List Node) (base : Nat) : Nat → Except Diag Unit
  | 0 => .ok ()
  | count + 1 =>
    if base ≥ subArgs then .error .internal
    else
      match context.args[base]?.bind (pool[·]?) with
      | none => .error .internal
      | some (.redirect _) => .error .shRedirect
      | some _ => checkArgs context pool (base + 1) count

def isCmd (pool : List Node) (index : Nat) : Bool :=
  match pool[index]? with
  | some (.cmd ..) => true
  | _ => false

def anFirst (context : AnContext) (index : Nat) (state : AnState) : Node → Except Diag AnState
  | .int _ => .ok (state.setType index .int)
  | .bool _ => .ok (state.setType index .bool)
  | .str bytes => if bytes.length > 4096 then .error .semLimit else .ok (state.setType index .str)
  | .var off len _ => state.resolve context index off len
  | .cmd off len base nargs =>
    if nargs = 0 then state.resolve context index off len
    else do
      checkArgs context state.pool base nargs
      return state.setType index .unit
  | .pipe k1 k2 =>
    if k1 ≥ poolMax ∨ k2 ≥ poolMax then .error .internal
    else if isCmd state.pool k1 && isCmd state.pool k2 then .ok (state.setType index .unit)
    else .error .pipelineStage
  | .unop _ k1 => if k1 ≥ poolMax then .error .internal else state.visit index [k1]
  | .binop _ k1 k2 => if k1 ≥ poolMax ∨ k2 ≥ poolMax then .error .internal else state.visit index [k1, k2]
  | .call k1 _ _ | .len k1 _ =>
    match k1 with
    | none => if state.walk.length + 2 > subWalk then .error .arenaFull else state.visit index []
    | some k1 => if state.walk.length + 2 > subWalk then .error .arenaFull
      else if k1 ≥ poolMax then .error .internal else state.visit index [k1]
  | _ => .error .internal

def unopType : UnOp → Ty → Option Ty
  | .neg, .int => some .int
  | .not, .bool => some .bool
  | _, _ => none

def binopType (op : BinOp) (lt rt : Ty) : Option Ty :=
  match op with
  | .add | .sub | .mul | .div | .mod => if lt = .int ∧ rt = .int then some .int else none
  | .eq | .ne => if lt = rt ∧ lt ≠ .unit then some .bool else none
  | .lt | .gt | .le | .ge => if lt = .int ∧ rt = .int then some .bool else none
  | .and | .or => if lt = .bool ∧ rt = .bool then some .bool else none

/-- A type that the children decide. -/
def AnState.settle (state : AnState) (index : Nat) : Option Ty → Except Diag AnState
  | none => .error .semType
  | some ty => .ok (state.setType index ty)

def calleeName (context : AnContext) (pool : List Node) (callee : Nat) : Option (List UInt8) :=
  match pool[callee]? with
  | some (.var off len _) => some (slice context.text off len)
  | _ => none

def anSecond (context : AnContext) (index : Nat) (state : AnState) : Node → Except Diag AnState
  | .unop op k1 =>
    match state.types k1 with
    | none => .error .internal
    | some ty => state.settle index (unopType op ty)
  | .binop op k1 k2 =>
    match state.types k1, state.types k2 with
    | some lt, some rt => state.settle index (binopType op lt rt)
    | _, _ => .error .internal
  | .call k1 callee argc =>
    match calleeName context state.pool callee with
    | none => .error .semUnknownFn
    | some name =>
      if !isPrint name then .error .semUnknownFn
      else if argc ≠ 1 then .error .semArity
      else
        match k1.bind state.types with
        | none => .error .internal
        | some ty => state.settle index (if ty = .unit then none else some .unit)
  | .len k1 argc =>
    if argc ≠ 1 then .error .semArity
    else
      match k1.bind state.types with
      | none => .error .internal
      | some ty => state.settle index (if ty = .str then some .int else none)
  | _ => .error .internal

def anStep (context : AnContext) (entry : Nat × Bool) (state : AnState) : Except Diag AnState :=
  if entry.1 ≥ poolMax then .error .internal
  else
    match state.pool[entry.1]? with
    | none => .error .internal
    | some node => if entry.2 then anSecond context entry.1 state node else anFirst context entry.1 state node

def anLoop (context : AnContext) : Nat → AnState → Except Diag AnState
  | 0, _ => .error .internal
  | fuel + 1, state =>
    match state.walk with
    | [] => .ok state
    | entry :: walk => do anLoop context fuel (← anStep context entry { state with walk })

/-- `rl_an_sub`: the type of a subtree and the pool with the rows of its variables. `stale` is what the types hold
before. -/
def anSub (context : AnContext) (stale : Nat → Option Ty) (pool : List Node) (root : Nat) :
    Except Diag (Ty × List Node) :=
  if root ≥ poolMax then .error .internal
  else do
    let state ← anLoop context walkFuel ⟨pool, stale, [(root, false)]⟩
    match state.types root with
    | none => .error .internal
    | some ty => return (ty, state.pool)

/-! The session. -/

/-- What a submission leaves: `sub` is the fill level of the submission arena. -/
structure Session where
  src : List UInt8
  syms : List Sym
  arena : List UInt8
  sub : Nat
  deriving DecidableEq, Repr

def Session.init : Session := ⟨[], [], [], 0⟩

structure SubOutcome where
  kind : SubKind
  diag : Diag
  deriving DecidableEq, Repr

/-- The result of a submission: the outcome, the session and what was printed. -/
structure Submitted where
  outcome : SubOutcome
  session : Session
  emitted : List (List UInt8)

/-- `rl_fail` behind the reset of the submission arena. -/
def Session.fail (session : Session) (kind : SubKind) (diag : Diag) : Submitted :=
  ⟨⟨kind, diag⟩, { session with sub := 0 }, []⟩

def Session.done (session : Session) (emitted : List (List UInt8)) : Submitted :=
  ⟨⟨.ok, .internal⟩, { session with sub := 0 }, emitted⟩

/-- `rl_arena_bump` on the submission arena; all sizes are multiples of four. -/
def bump (used size : Nat) : Option Nat := if used + size > subArena then none else some (used + size)

def carve (used : Nat) : Option Nat := do
  let used ← bump used (poolMax * 16)
  let used ← bump used subStrb
  let used ← bump used (subArgs * 2)
  bump used subAux

def trimFront (part : List UInt8) : List UInt8 := part.dropWhile isBlank

/-- The part without the blanks around it. -/
def trimmed (part : List UInt8) : List UInt8 := ((trimFront part).reverse.dropWhile isBlank).reverse

/-- `rl_canon`: the trimmed part with a newline, and how much was trimmed in front. -/
def canon (part : List UInt8) : Option (List UInt8 × Nat) :=
  if (trimmed part).length + 1 > canonCap then none
  else some (trimmed part ++ [ch '\n'], part.length - (trimFront part).length)

/-- The cheap test for a part that is a let. -/
def looksLet (part : List UInt8) : Bool :=
  part.take 3 == ascii "let" && (part[3]?.all fun c => !isAlpha c && !isDigit c)

/-- The lines of the accepted text with their offsets. -/
def items (start : Nat) (line : List UInt8) : List UInt8 → List (Nat × List UInt8)
  | [] => if line = [] then [] else [(start, line)]
  | c :: rest =>
    if c = ch '\n' then (start, line) :: items (start + line.length + 1) [] rest
    else items start (line ++ [c]) rest

/-- One accepted item of the rebuild; `count` rows are rebuilt before it. -/
def rebuildItem (session : Session) (stale : Nat → Option Ty) (count : Nat) : Nat × List UInt8 → Option Nat
  | (start, line) =>
    if line = [] then some count
    else
      match parsePart line with
      | .error _ => none
      | .ok (root, parser) =>
        match parser.pool[root]? with
        | some (.let off len ty init) =>
          match anSub ⟨line, session.syms.take count, session.src, parser.args⟩ stale parser.pool init with
          | .error _ => none
          | .ok (found, _) =>
            if found ≠ ty then none
            else if (lookup (session.syms.take count) session.src (slice session.src (start + off) len)).isSome then
              none
            else if count ≥ session.syms.length ∨ count ≥ symMax then none
            else some (count + 1)
        | _ => none

/-- The rebuild over all accepted items; `none` is an internal error. -/
def rebuild (session : Session) (stale : Nat → Option Ty) : Option Unit := do
  let count ← (items 0 [] session.src).foldlM (rebuildItem session stale) 0
  if count = session.syms.length then some () else none

/-- `rl_own_check_tab`. -/
def ownCheck (tab : List Sym) (used : Nat) : Bool :=
  tab.all fun sym => sym.type != .str || (sym.flags &&& 6 == 0 && decide (sym.pay.toNat < used) &&
    decide (sym.strLen ≤ used - sym.pay.toNat))

/-- The text of a canonical part does not fit. -/
def Session.full (session : Session) (canonical : Option (List UInt8 × Nat)) : Bool :=
  match canonical with
  | none => true
  | some (text, _) => decide (text.length > sessMax) || decide (session.src.length > sessMax - text.length)

/-- The staged row of a let; a string is staged by its bytes. -/
def stagedRow (off len : Nat) (ty : Ty) (used : Nat) : Value → Option (Sym × List UInt8)
  | .int bits => if ty = .int then some (⟨off, len, ty, 0, 0, bits⟩, []) else none
  | .bool value => if ty = .bool then some (⟨off, len, ty, 0, 0, if value then 1 else 0⟩, []) else none
  | .str bytes => if ty = .str then some (⟨off, len, ty, 0, bytes.length, BitVec.ofNat 64 used⟩, bytes) else none
  | .unit => none

/-- The atomic commit: the bytes of a string and the canonical text are appended, and the table is swapped when it
passes the ownership check. -/
def Session.commit (session : Session) (canonical : List UInt8) (row : Sym) (bytes : List UInt8) : Submitted :=
  let syms := session.syms ++ [row]
  if ownCheck syms (session.arena.length + bytes.length) then
    ({ session with src := session.src ++ canonical, syms, arena := session.arena ++ bytes } : Session).done []
  else session.fail .ownFail .ownFail

/-- What the failure of an analysis becomes. -/
def analysisKind (diag : Diag) : SubKind :=
  if diag = .internal then .internal else if diag = .arenaFull then .arenaFull else .reject

def Session.evalContext (session : Session) (pool : List Node) : EvalContext := ⟨pool, session.syms, session.arena⟩

/-- The candidate let: analysed, evaluated, staged and committed. -/
def Session.submitLet (session : Session) (stale : Nat → Option Ty) (part : List UInt8) (canonical : List UInt8)
    (trim : Nat) (parser : Parser) (off len : Nat) (ty : Ty) (init : Nat) : Submitted :=
  match anSub ⟨part, session.syms, session.src, parser.args⟩ stale parser.pool init with
  | .error diag => session.fail (analysisKind diag) diag
  | .ok (found, pool) =>
    let name := slice part off len
    if found = .unit ∨ found ≠ ty then session.fail .reject .semType
    else if reserved name then session.fail .reject .semDuplicate
    else if (lookup session.syms session.src name).isSome then session.fail .reject .semDuplicate
    else if session.syms.length ≥ symMax then session.fail .reject .symbolLimit
    else
      match eval (session.evalContext pool) init with
      | .error .trap => session.fail .trap .evalTrap
      | .error .internal => session.fail .internal .internal
      | .ok (value, _) =>
        match stagedRow (session.src.length + (off - trim)) len ty session.arena.length value with
        | none => session.fail .internal .internal
        | some (row, bytes) =>
          if bytes.length > sessArena - session.arena.length then session.fail .arenaFull .arenaFull
          else session.commit canonical row bytes

/-- A bare part: analysed, evaluated and printed, never kept. -/
def Session.submitBare (session : Session) (stale : Nat → Option Ty) (part : List UInt8) (parser : Parser)
    (root : Nat) : Submitted :=
  match anSub ⟨part, session.syms, session.src, parser.args⟩ stale parser.pool root with
  | .error diag => session.fail (analysisKind diag) diag
  | .ok (_, pool) =>
    match eval (session.evalContext pool) root with
    | .error .trap => session.fail .trap .evalTrap
    | .error .internal => session.fail .internal .internal
    | .ok (.unit, emitted) => session.done emitted
    | .ok (.str bytes, emitted) => session.done (emitted ++ [bytes])
    | .ok (value, emitted) =>
      if render value = [] then session.fail .internal .internal else session.done (emitted ++ [render value])

/-- The candidate part behind the rebuild. -/
def Session.candidate (session : Session) (stale : Nat → Option Ty) (part : List UInt8) : Submitted :=
  match parsePart part with
  | .error .noMem => session.fail .arenaFull .arenaFull
  | .error _ => session.fail .syntaxError .parLex
  | .ok (root, parser) =>
    match parser.pool[root]? with
    | some (.let off len ty init) =>
      if session.full (canon part) then session.fail .reject .sessionLimit
      else
        match canon part with
        | none => session.fail .reject .sessionLimit
        | some (canonical, trim) => session.submitLet stale part canonical trim parser off len ty init
    | _ => session.submitBare stale part parser root

/-- `rl_submit`. `stale` is what the submission arena holds from before. -/
def Session.submit (session : Session) (stale : Nat → Option Ty) (part : List UInt8) : Submitted :=
  if part.length = 0 ∨ part.length > partMax then session.fail .syntaxError .parLex
  else
    match carve session.sub with
    | none => session.fail .arenaFull .arenaFull
    | some _ =>
      if looksLet part && session.full (canon part) then session.fail .reject .sessionLimit
      else
        match rebuild session stale with
        | none => session.fail .internal .internal
        | some () => session.candidate stale part

/-- `rl_declared`. -/
def Session.declared (session : Session) (name : List UInt8) : Bool :=
  name ≠ [] && (lookup session.syms session.src name).isSome

end Rynor.Shell
