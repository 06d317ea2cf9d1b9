import Rynor.Shell.Sem
import Rynor.Shell.Stmt

/-! The statement pump of the shell, `sh.c`: scripts feed the span pump statement by statement, a submitted line is
cut into parts first and each part goes where it is classified. A foreground action is taken as finished before the
next call of the pump. -/

namespace Rynor.Shell

/-- What one call of the pump does. -/
inductive Action where
  | run (line : ShLine)
  | syntaxError
  | lang (outcome : SubOutcome)
  | notImpl (keyword : Nat)
  deriving DecidableEq, Repr

/-- An action with its place: how many bytes of the input there are from its first token on. -/
structure Placed where
  left : Nat
  action : Action
  deriving DecidableEq, Repr

/-- The progress guarantee: a rejected statement is skipped through the next separator byte. -/
def recover (text : List UInt8) : List UInt8 := (text.dropWhile fun c => !isStmtEnd c).drop 1

/-- `pump_e_span`: the first statement that is not empty, with the bytes behind it. `behind` bytes of the input
follow the span. -/
def pumpSpan : Nat → Nat → List UInt8 → Option (Placed × List UInt8)
  | 0, _, _ => none
  | fuel + 1, behind, text =>
    if text = [] then none
    else
      let (rc, rest) := parseStmt text
      let rest := if rest.length = text.length then recover text else rest
      let left := (text.dropWhile isSpace).length + behind
      match rc with
      | .empty => pumpSpan fuel behind rest
      | .syntaxError => some (⟨left, .syntaxError⟩, rest)
      | .ok line => some (⟨left, .run line⟩, rest)

/-- The calls of `pump` over a script. -/
def pumpScript : Nat → List UInt8 → List Placed
  | 0, _ => []
  | fuel + 1, text =>
    match pumpSpan (text.length + 1) 0 text with
    | none => []
    | some (placed, rest) => placed :: pumpScript fuel rest

def script (text : List UInt8) : List Placed := pumpScript (text.length + 1) text

def scriptMax : Nat := 4096
def freadMax : Nat := 16384

/-- The loop of `load_script`: reads from `off` on until one comes back short. Each gets as many bytes as it asks for
and the file still has; `none` is a script that is too large. -/
def loadFrom (file : List UInt8) : Nat → Nat → Option (List UInt8)
  | 0, _ => none
  | fuel + 1, off =>
    let want := scriptMax - off
    if want = 0 then none
    else
      let want := min want freadMax
      let n := min want (file.length - off)
      if n < want then some (file.take (off + n)) else loadFrom file fuel (off + n)

def loadScript (file : List UInt8) : Option (List UInt8) := loadFrom file (scriptMax + 1) 0

/-! Interactive lines. -/

/-- Where the scan for the end of a part is. -/
inductive Scan where
  | plain | str | esc | comment
  deriving DecidableEq, Repr

/-- The scan of `split_part`: the part and what begins at its separator. `prev` is the byte before, a blank at the
start of the part. -/
def scanPart : Scan → Nat → UInt8 → List UInt8 → List UInt8 × List UInt8
  | _, _, _, [] => ([], [])
  | mode, depth, prev, c :: rest =>
    let take (mode : Scan) (depth : Nat) : List UInt8 × List UInt8 :=
      let (part, behind) := scanPart mode depth c rest
      (c :: part, behind)
    match mode with
    | .esc => take .str depth
    | .str => take (if c = ch '\\' then .esc else if c = ch '"' then .plain else .str) depth
    | .comment => take (if c = ch '\n' then .plain else .comment) depth
    | .plain =>
      if c = ch '"' then take .str depth
      else if c = ch '/' ∧ rest.head? = some (ch '/') then
        take (if isBlank prev ∨ prev = ch ';' then .comment else .plain) depth
      else if c = ch '{' then take .plain (depth + 1)
      else if c = ch '}' then take .plain (depth - 1)
      else if c = ch ';' ∧ depth = 0 then ([], c :: rest)
      else take .plain depth

def trimBack (text : List UInt8) : List UInt8 := (text.reverse.dropWhile isBlank).reverse

/-- `split_part`: the next part, how many bytes of the line follow it, and the bytes behind its separator. -/
def splitPart (text : List UInt8) : Option (List UInt8 × Nat × List UInt8) :=
  match trimFront text with
  | [] => none
  | c :: rest =>
    let (body, behind) := scanPart .plain 0 (ch ' ') (c :: rest)
    let part := trimBack body
    some (part, (c :: rest).length - part.length, if behind.head? = some (ch ';') then behind.drop 1 else behind)

inductive Class where
  | command | lang | notImpl (keyword : Nat) | empty
  deriving DecidableEq, Repr

/-- The lone words among the stages of an accepted part. -/
def loneWord (part : List UInt8) (pool : List Node) (index : Nat) : Option (List UInt8) :=
  match pool[index]? with
  | some (.cmd off len _ 0) => if off < part.length ∧ len ≤ part.length - off then some (slice part off len) else none
  | _ => none

/-- `rl_classify`. -/
def classify (session : Session) (part : List UInt8) : Class :=
  if part.length = 0 ∨ part.length > partMax then .empty
  else
    match lexNext 0 8 part with
    | .error _ => .command
    | .ok front =>
      match front.map fun (token, _) => token.kind with
      | some .let => .lang
      | some .fn => .notImpl 0
      | some .if => .notImpl 1
      | some .while => .notImpl 2
      | some .return => .notImpl 3
      | some .lbrace => .notImpl 4
      | _ =>
        match carve session.sub with
        | none => .command
        | some _ =>
          match parsePart part with
          | .error _ => .command
          | .ok (root, parser) =>
            let declared (index : Nat) : Bool := (loneWord part parser.pool index).any session.declared
            match parser.pool[root]? with
            | some (.cmd ..) => if declared root then .lang else .command
            | some (.pipe k1 k2) =>
              if isCmd parser.pool k1 && isCmd parser.pool k2 && !declared k1 && !declared k2 then .command else .lang
            | some (.var off len _) =>
              if off ≥ part.length ∨ len > part.length - off then .command
              else if session.declared (slice part off len) then .lang
              else .command
            | _ => .lang

/-- The calls of `pump` over a submitted line. -/
def pumpLine (stale : Nat → Option Ty) : Nat → Session → List UInt8 → List Placed
  | 0, _, _ => []
  | fuel + 1, session, text =>
    match splitPart text with
    | none => []
    | some (part, behind, rest) =>
      if part = [] then pumpLine stale fuel session rest
      else
        match classify session part with
        | .command => ((pumpSpan (part.length + 1) behind part).map Prod.fst).toList ++ pumpLine stale fuel session rest
        | .lang =>
          let given := session.submit stale part
          ⟨part.length + behind, .lang given.outcome⟩ :: pumpLine stale fuel given.session rest
        | .empty => pumpLine stale fuel session rest
        | .notImpl keyword => ⟨part.length + behind, .notImpl keyword⟩ :: pumpLine stale fuel session rest

def interactive (stale : Nat → Option Ty) (session : Session) (line : List UInt8) : List Placed :=
  pumpLine stale (line.length + 1) session line

/-- The parts of a line that are not empty. -/
def parts : Nat → List UInt8 → List (List UInt8)
  | 0, _ => []
  | fuel + 1, text =>
    match splitPart text with
    | none => []
    | some (part, _, rest) => if part = [] then parts fuel rest else part :: parts fuel rest

end Rynor.Shell
