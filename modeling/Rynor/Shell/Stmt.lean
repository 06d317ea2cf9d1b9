import Rynor.Shell.Lex

/-! The statement grammar of the command executor, `sh_parse.c`. The bytes still to be read stand for the position:
`used` is how many of them a call takes, and a rejection inside the loop takes none. -/

namespace Rynor.Shell

def shpMaxCmds : Nat := 2
def shpMaxArgs : Nat := 8
def shpMaxArgbytes : Nat := 256
def shpMaxWord : Nat := 64
def shpMaxLine : Nat := 256

def isSpace (c : UInt8) : Bool := c == ch ' ' || c == ch '\t'

def isStmtEnd (c : UInt8) : Bool := c == ch ';' || c == ch '\n' || c == ch '\r'

def isBare (c : UInt8) : Bool :=
  (ch 'a' ≤ c && c ≤ ch 'z') || (ch 'A' ≤ c && c ≤ ch 'Z') || (ch '0' ≤ c && c ≤ ch '9') || c == ch '_' ||
    c == ch '.' || c == ch '/' ||
    c == ch ',' || c == ch ':' || c == ch '+' || c == ch '=' || c == ch '@' || c == ch '%' || c == ch '-'

/-- A command with the bytes its words take in the store, their terminators counted. -/
structure ShCmd where
  argv : List (List UInt8)
  stored : Nat
  redir : Option (List UInt8)
  deriving DecidableEq, Repr

def ShCmd.empty : ShCmd := ⟨[], 0, none⟩

/-- A parsed statement: one command or a pipeline of two. -/
structure ShLine where
  statusOnly : Bool
  cmds : List ShCmd
  deriving DecidableEq, Repr

inductive StmtRc where
  | ok (line : ShLine)
  | empty
  | syntaxError
  deriving DecidableEq, Repr

def pushWord (cmd : ShCmd) (word : List UInt8) : Option ShCmd :=
  if cmd.argv.length ≥ shpMaxArgs then none
  else if word.length > shpMaxWord then none
  else if cmd.stored > shpMaxArgbytes - (word.length + 1) then none
  else some { cmd with argv := cmd.argv ++ [word], stored := cmd.stored + (word.length + 1) }

def pushRedir (cmd : ShCmd) (word : List UInt8) : Option ShCmd :=
  if cmd.redir.isSome then none
  else if word.length > shpMaxWord then none
  else if cmd.stored > shpMaxArgbytes - (word.length + 1) then none
  else some { cmd with redir := some word, stored := cmd.stored + (word.length + 1) }

/-- What the loop keeps: the committed commands, the one being built and what was seen of it. -/
structure StmtState where
  cmds : List ShCmd
  cur : ShCmd
  haveCmd : Bool
  wantRedir : Bool
  deriving DecidableEq, Repr

def StmtState.init : StmtState := ⟨[], .empty, false, false⟩

/-- A word goes to the redirect that waits for it, or to the arguments. -/
def StmtState.word (state : StmtState) (word : List UInt8) : Option StmtState :=
  if state.wantRedir then (pushRedir state.cur word).map fun cur =>
    { state with cur, wantRedir := false, haveCmd := true }
  else (pushWord state.cur word).map fun cur => { state with cur, haveCmd := true }

/-- The rest of a quoted word; `room` is what the word can still take. -/
def quoted : Nat → List UInt8 → Option (List UInt8 × List UInt8)
  | _, [] => none
  | room, q :: rest =>
    if q = ch '"' then some ([], rest)
    else if q = ch '\\' then
      match rest, room with
      | [], _ => none
      | _, 0 => none
      | e :: rest, room + 1 => if e = ch '"' ∨ e = ch '\\' then (quoted room rest).map fun (word, rest) =>
        (e :: word, rest) else none
    else
      match room with
      | 0 => none
      | room + 1 => (quoted room rest).map fun (word, rest) => (q :: word, rest)

/-- `|>` in front, behind the bar. -/
def StmtState.pipe (state : StmtState) (rest : List UInt8) : Option StmtState :=
  if !state.haveCmd then none
  else if rest.head? ≠ some (ch '>') then none
  else if state.wantRedir ∨ state.cur.redir.isSome then none
  else if state.cmds.length + 1 ≥ shpMaxCmds then none
  else some { state with cmds := state.cmds ++ [state.cur], cur := .empty, haveCmd := false }

/-- `>` in front. -/
def StmtState.redirect (state : StmtState) : Option StmtState :=
  if !state.haveCmd then none
  else if state.cmds.length > 0 then none
  else if state.wantRedir ∨ state.cur.redir.isSome then none
  else some { state with wantRedir := true }

/-- One token with the byte `c` in front. -/
def StmtState.token (state : StmtState) (c : UInt8) (rest : List UInt8) : Option (StmtState × List UInt8) :=
  if c = ch '|' then (state.pipe rest).map (·, rest.drop 1)
  else if c = ch '>' then state.redirect.map (·, rest)
  else if c = ch '"' then do
    let (word, rest) ← quoted shpMaxWord rest
    return (← state.word word, rest)
  else if isBare c then do
    let word := c :: rest.takeWhile isBare
    if word.length > shpMaxWord then none else return (← state.word word, rest.dropWhile isBare)
  else none

/-- The loop of `shp_parse_stmt`: the state at the end of the statement with the bytes behind its separator, or a
rejection. Every turn takes a byte, so as many turns as bytes are enough. -/
def stmtLoop : Nat → StmtState → List UInt8 → Option (StmtState × List UInt8)
  | 0, _, _ => none
  | fuel + 1, state, rest =>
    match rest.dropWhile isSpace with
    | [] => some (state, [])
    | c :: rest =>
      if isStmtEnd c then some (state, rest)
      else if c = ch '/' ∧ rest.head? = some (ch '/') then stmtLoop fuel state (rest.dropWhile (· != ch '\n'))
      else do
        let (state, rest) ← state.token c rest
        stmtLoop fuel state rest

/-- The bytes of a word up to its terminator, as C strings are compared. -/
def cString (word : List UInt8) : List UInt8 := word.takeWhile (· != 0)

def ShCmd.isStatus (cmd : ShCmd) : Bool :=
  match cmd.argv with
  | [only] => cString only == ascii "status"
  | _ => false

/-- What is checked behind the loop. -/
def StmtState.finish (state : StmtState) : StmtRc :=
  if state.wantRedir then .syntaxError
  else if !state.haveCmd then if state.cmds = [] then .empty else .syntaxError
  else
    let cmds := state.cmds ++ [state.cur]
    if cmds.length > 1 then if cmds.any ShCmd.isStatus then .syntaxError else .ok ⟨false, cmds⟩
    else if state.cur.isStatus then if state.cur.redir.isSome then .syntaxError else .ok ⟨true, cmds⟩
    else .ok ⟨false, cmds⟩

/-- `shp_parse_stmt`: the outcome and the bytes behind what was used. -/
def parseStmt (text : List UInt8) : StmtRc × List UInt8 :=
  if text.length > shpMaxLine then (.syntaxError, text)
  else
    match stmtLoop (text.length + 1) .init text with
    | none => (.syntaxError, text)
    | some (state, rest) => (state.finish, rest)

end Rynor.Shell
