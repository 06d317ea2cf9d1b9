import Mathlib.Algebra.GroupWithZero.Nat

/-! The lexer of the resident evaluator, `rl_lex.c`. The bytes still to be read stand for the lexer position; the
decoded bytes of a string stand for its place in the caller's scratch, whose fill level is passed along. -/

namespace Rynor.Shell

def ch (char : Char) : UInt8 := UInt8.ofNat char.toNat

def ascii (text : String) : List UInt8 := text.toList.map ch

/-- The bytes `off .. off + len` of a text. -/
def slice (text : List UInt8) (off len : Nat) : List UInt8 := (text.drop off).take len

inductive Kind where
  | eof | ident | int | str | true | false | let | fn | if | else | while | return | intT | boolT | strT
  | plus | minus | star | slash | percent | bang | equal | eqEq | bangEq | less | greater | lessEq | greaterEq
  | andAnd | orOr | arrow | pipeGt | lparen | rparen | lbrace | rbrace | semi | comma | colon
  deriving DecidableEq, Repr

/-- The outcomes of the lexer other than `RLL_OK`. -/
inductive LexFault where
  | badChar | intOverflow | unterminated | badEscape
  deriving DecidableEq, Repr

structure Token where
  kind : Kind
  off : Nat
  len : Nat
  val : List UInt8
  deriving DecidableEq, Repr

def isAlpha (c : UInt8) : Bool := c == ch '_' || (ch 'A' ≤ c && c ≤ ch 'Z') || (ch 'a' ≤ c && c ≤ ch 'z')

def isDigit (c : UInt8) : Bool := ch '0' ≤ c && c ≤ ch '9'

def isAlnum (c : UInt8) : Bool := isAlpha c || isDigit c

def isBlank (c : UInt8) : Bool := c == ch ' ' || c == ch '\t' || c == ch '\r' || c == ch '\n'

def keyword (text : List UInt8) : Kind :=
  if text = ascii "fn" then .fn
  else if text = ascii "if" then .if
  else if text = ascii "let" then .let
  else if text = ascii "int" then .intT
  else if text = ascii "str" then .strT
  else if text = ascii "true" then .true
  else if text = ascii "else" then .else
  else if text = ascii "bool" then .boolT
  else if text = ascii "while" then .while
  else if text = ascii "false" then .false
  else if text = ascii "return" then .return
  else .ident

def i64MaxText : List UInt8 := ascii "9223372036854775807"

/-- The digits exceed the other ones of the same length. -/
def exceeds : List UInt8 → List UInt8 → Bool
  | a :: rest, b :: others => if a = b then exceeds rest others else a > b
  | _, _ => false

def intOverflow (digits : List UInt8) : Bool :=
  let digits := digits.dropWhile (· == ch '0')
  if digits.length > i64MaxText.length then true
  else if digits.length < i64MaxText.length then false
  else exceeds digits i64MaxText

/-- Blanks and comments before a token. -/
def skip (comment : Bool) (off : Nat) : List UInt8 → Except LexFault (Nat × List UInt8)
  | [] => .ok (off, [])
  | c :: rest =>
    if comment then
      if c = ch '\n' then skip false (off + 1) rest
      else if c > 0x7f then .error .badChar
      else skip true (off + 1) rest
    else if c > 0x7f then .error .badChar
    else if isBlank c then skip false (off + 1) rest
    else if c = ch '/' ∧ rest.head? = some (ch '/') then skip true (off + 1) rest
    else .ok (off, c :: rest)

def escape (c : UInt8) : Option UInt8 :=
  if c = ch '\\' then some (ch '\\')
  else if c = ch '"' then some (ch '"')
  else if c = ch 'n' then some (ch '\n')
  else if c = ch 't' then some (ch '\t')
  else none

/-- The rest of a string literal; `room` is what the scratch can still take. -/
def scanString (room : Nat) : List UInt8 → Except LexFault (List UInt8 × List UInt8)
  | [] => .error .unterminated
  | c :: rest =>
    if c = ch '"' then .ok ([], rest)
    else if c > 0x7f then .error .badChar
    else if c = ch '\r' ∨ c = ch '\n' then .error .unterminated
    else if c = ch '\\' then
      match rest with
      | [] => .error .unterminated
      | e :: rest =>
        match escape e, room with
        | none, _ => .error .badEscape
        | some _, 0 => .error .unterminated
        | some v, room + 1 => (scanString room rest).map fun (bytes, rest) => (v :: bytes, rest)
    else
      match room with
      | 0 => .error .unterminated
      | room + 1 => (scanString room rest).map fun (bytes, rest) => (c :: bytes, rest)

def doubleOp (c d : UInt8) : Option Kind :=
  if c = ch '=' ∧ d = ch '=' then some .eqEq
  else if c = ch '!' ∧ d = ch '=' then some .bangEq
  else if c = ch '<' ∧ d = ch '=' then some .lessEq
  else if c = ch '>' ∧ d = ch '=' then some .greaterEq
  else if c = ch '&' ∧ d = ch '&' then some .andAnd
  else if c = ch '|' ∧ d = ch '|' then some .orOr
  else if c = ch '-' ∧ d = ch '>' then some .arrow
  else if c = ch '|' ∧ d = ch '>' then some .pipeGt
  else none

def singleOp (c : UInt8) : Option Kind :=
  if c = ch '+' then some .plus
  else if c = ch '-' then some .minus
  else if c = ch '*' then some .star
  else if c = ch '/' then some .slash
  else if c = ch '%' then some .percent
  else if c = ch '!' then some .bang
  else if c = ch '=' then some .equal
  else if c = ch '<' then some .less
  else if c = ch '>' then some .greater
  else if c = ch '(' then some .lparen
  else if c = ch ')' then some .rparen
  else if c = ch '{' then some .lbrace
  else if c = ch '}' then some .rbrace
  else if c = ch ';' then some .semi
  else if c = ch ',' then some .comma
  else if c = ch ':' then some .colon
  else none

/-- An operator, the longer one first. -/
def operator (off : Nat) (c : UInt8) (rest : List UInt8) : Except LexFault (Token × List UInt8) :=
  match rest.head?.bind (doubleOp c) with
  | some kind => .ok (⟨kind, off, 2, []⟩, rest.drop 1)
  | none =>
    match singleOp c with
    | some kind => .ok (⟨kind, off, 1, []⟩, rest)
    | none => .error .badChar

/-- One token of the text that starts at `off` with the byte `c`. -/
def lexToken (off room : Nat) (c : UInt8) (rest : List UInt8) : Except LexFault (Token × List UInt8) :=
  if isAlpha c then
    let word := c :: rest.takeWhile isAlnum
    .ok (⟨keyword word, off, word.length, []⟩, rest.dropWhile isAlnum)
  else if isDigit c then
    let digits := c :: rest.takeWhile isDigit
    if intOverflow digits then .error .intOverflow
    else .ok (⟨.int, off, digits.length, []⟩, rest.dropWhile isDigit)
  else if c = ch '"' then
    match scanString room rest with
    | .error fault => .error fault
    | .ok (bytes, after) => .ok (⟨.str, off, rest.length + 1 - after.length, bytes⟩, after)
  else operator off c rest

/-- `rl_lex_next`: the next token, with the offset and the bytes behind it; `none` at the end of the source. -/
def lexNext (off room : Nat) (rest : List UInt8) : Except LexFault (Option (Token × List UInt8)) :=
  match skip false off rest with
  | .error fault => .error fault
  | .ok (_, []) => .ok none
  | .ok (off, c :: rest) => (lexToken off room c rest).map some

/-- What the parser can still pull. -/
inductive Stream where
  | eof
  | fault (fault : LexFault)
  | token (token : Token) (rest : Stream)
  deriving DecidableEq, Repr

/-- Pulling tokens until the end or a fault. Every token takes a byte, so as many pulls as bytes are enough. -/
def pull : Nat → Nat → Nat → List UInt8 → Stream
  | 0, _, _, _ => .eof
  | fuel + 1, off, room, rest =>
    match lexNext off room rest with
    | .error fault => .fault fault
    | .ok none => .eof
    | .ok (some (token, rest)) => .token token (pull fuel (token.off + token.len) (room - token.val.length) rest)

def stream (room : Nat) (source : List UInt8) : Stream := pull (source.length + 1) 0 room source

end Rynor.Shell
