import Mathlib.Data.List.Sort
import Mathlib.Data.String.Basic
import Rynor.Lib.Checks
import Rynor.Lib.Dict

/-! The type algebra of tools/rynorlang/agtypes.py, the trees the parser builds for the v1 edition and
the stable AST of the analyzer. Spans are left out. -/

namespace Rynor.Lang

/-- The tree `parse_type` reads from a type text. Equal texts are equal trees: no record is named by
a scalar type word, and the type "unit" of a call without a result is the text of a record name. -/
inductive Ty where
  | int
  | bool
  | str
  | nominal (name : String)
  | list (elem : Ty) (cap : Nat)
  | map (key value : Ty) (cap : Nat)
  | status (payload : Ty)
  | result (payload error : Ty)
  deriving DecidableEq, Repr

def Ty.unit : Ty := .nominal "unit"

def Ty.canonical : Ty → String
  | .int => "int"
  | .bool => "bool"
  | .str => "str"
  | .nominal name => name
  | .list elem cap => "list<" ++ elem.canonical ++ "," ++ toString cap ++ ">"
  | .map key value cap => "map<" ++ key.canonical ++ "," ++ value.canonical ++ "," ++ toString cap ++ ">"
  | .status payload => "status<" ++ payload.canonical ++ ">"
  | .result payload error => "result<" ++ payload.canonical ++ "," ++ error.canonical ++ ">"

instance : ToString Ty := ⟨Ty.canonical⟩

def Ty.isScalar : Ty → Bool
  | .int | .bool | .str => true
  | _ => false

def Ty.isTagged : Ty → Bool
  | .status _ | .result _ _ => true
  | _ => false

def maxAggBytes : Nat := 8192
def maxTypeNesting : Nat := 8
def maxStrLen : Nat := 4096

/-- `AGG_BUILTINS`. -/
inductive Builtin where
  | len | push | insert | get | isOk | isErr | unwrapOr | byteAt | ok | err | fread | fjoin | argv
  deriving DecidableEq, Repr

def Builtin.text : Builtin → String
  | .len => "len" | .push => "push" | .insert => "insert" | .get => "get" | .isOk => "is_ok" | .isErr => "is_err"
  | .unwrapOr => "unwrap_or" | .byteAt => "byte_at" | .ok => "ok" | .err => "err" | .fread => "fread"
  | .fjoin => "fjoin" | .argv => "argv"

def aggBuiltins : List Builtin :=
  [.len, .push, .insert, .get, .isOk, .isErr, .unwrapOr, .byteAt, .ok, .err, .fread, .fjoin, .argv]

def Builtin.ofName (name : String) : Option Builtin := aggBuiltins.find? (·.text = name)

inductive TypeFault where
  | badCap
  | badKey
  | nestedStatus
  | tooDeep
  deriving DecidableEq, Repr

/-- `validate_type` of one argument position: no status or result inside another type. -/
def validateArg (arg : Ty) (inner : Option TypeFault) : Option TypeFault :=
  if arg.isTagged then some .nestedStatus else inner

def validateType : Ty → Nat → Option TypeFault
  | .int, depth | .bool, depth | .str, depth | .nominal _, depth =>
    if depth > maxTypeNesting then some .tooDeep else none
  | .list elem cap, depth =>
    if depth ≥ maxTypeNesting then some .tooDeep
    else validateArg elem (validateType elem (depth + 1)) <|> if cap < 1 then some .badCap else none
  | .map key value cap, depth =>
    if depth ≥ maxTypeNesting then some .tooDeep
    else validateArg key (validateType key (depth + 1)) <|> validateArg value (validateType value (depth + 1)) <|>
      if cap < 1 then some .badCap else if key.isScalar then none else some .badKey
  | .status payload, depth =>
    if depth ≥ maxTypeNesting then some .tooDeep else validateArg payload (validateType payload (depth + 1))
  | .result payload error, depth =>
    if depth ≥ maxTypeNesting then some .tooDeep
    else validateArg payload (validateType payload (depth + 1)) <|> validateArg error (validateType error (depth + 1))

def sizeOf (sizes : Dict String Nat) : Ty → Option Nat
  | .int | .bool => some 8
  | .str => some 16
  | .nominal name => sizes.get? name
  | .list elem cap => do return 8 + cap * (← sizeOf sizes elem)
  | .map key value cap => do return 8 + cap * (8 + (← sizeOf sizes key) + (← sizeOf sizes value))
  | .status payload => do return 16 + (← sizeOf sizes payload)
  | .result payload error => do return 8 + (← sizeOf sizes error) + (← sizeOf sizes payload)

/-- The components of a path on disk. -/
abbrev Path := List String

inductive Profile where
  | default
  | strict
  | core
  deriving DecidableEq, Repr

inductive Code where
  | modNotFound
  | modCycle
  | modDuplicate
  | modPinMismatch
  | modEditionMismatch
  | modBadManifest
  | parDepthExceeded
  | semUndeclared
  | semDuplicate
  | semTypeMismatch
  | semArityMismatch
  | semUnknownFunction
  | semLimitExceeded
  | semProfileExcluded
  | parser (code : String)
  deriving DecidableEq, Repr

/-- A coded error, or a Python exception that is not turned into one. -/
inductive Fault where
  | coded (code : Code) (message : String)
  | raised (exception : String)
  deriving DecidableEq, Repr

inductive UnOp where
  | neg
  | not
  | complement
  deriving DecidableEq, Repr

def UnOp.text : UnOp → String
  | .neg => "-"
  | .not => "!"
  | .complement => "~"

inductive BinOp where
  | or | and | bitOr | bitXor | bitAnd | eq | ne | lt | gt | le | ge | shl | shr | add | sub | mul | div | rem
  deriving DecidableEq, Repr

def BinOp.text : BinOp → String
  | .or => "||" | .and => "&&" | .bitOr => "|" | .bitXor => "^" | .bitAnd => "&" | .eq => "==" | .ne => "!="
  | .lt => "<" | .gt => ">" | .le => "<=" | .ge => ">=" | .shl => "<<" | .shr => ">>" | .add => "+" | .sub => "-"
  | .mul => "*" | .div => "/" | .rem => "%"

/-- The variant an `ok` or `err` pattern names. -/
inductive Variant where
  | ok
  | err
  deriving DecidableEq, Repr

def Variant.text : Variant → String
  | .ok => "ok"
  | .err => "err"

/-! Parse trees. A type annotation is the tree `_type_shape` reads from its node, with the names as
they are written; an identifier keeps its `::`. -/

namespace Parse

inductive Expr where
  | int (text : String)
  | str (value : String)
  | bool (value : Bool)
  | name (text : String)
  | group (inner : Expr)
  | unary (op : UnOp) (operand : Expr)
  | binary (op : BinOp) (left right : Expr)
  | list (elems : List Expr)
  | map (entries : List (Expr × Expr))
  | index (obj idx : Expr)
  | field (obj : Expr) (name : String)
  | record (callee : String) (inits : List (String × Expr))
  | call (callee : Expr) (args : List Expr)

inductive Lit where
  | int (text : String)
  | bool (value : Bool)
  | str (lexeme value : String)
  deriving DecidableEq, Repr

inductive SubPattern where
  | wild
  | bind (name : String)
  | lit (lit : Lit)
  deriving DecidableEq, Repr

inductive Pattern where
  | wild
  | bind (name : String)
  | lit (lit : Lit)
  | ctor (which : Variant) (sub : SubPattern)
  deriving DecidableEq, Repr

inductive Stmt where
  | letS (name : String) (ty : Ty) (init : Expr)
  | ret (value : Option Expr)
  | ifS (cond : Expr) (thenB : List Stmt) (elseB : Option Stmt)
  | whileS (cond : Expr) (body : List Stmt)
  | breakS
  | continueS
  | matchS (scrut : Expr) (arms : List (Pattern × List Stmt))
  | expr (expr : Expr)
  | use (path : String)
  | block (stmts : List Stmt)

structure FunctionDef where
  name : String
  params : List (String × Ty)
  ret : Option Ty
  body : List Stmt

structure RecordDecl where
  name : String
  fields : List (String × Ty)

inductive Item where
  | function (decl : FunctionDef)
  | record (decl : RecordDecl)
  | use (path : String)

abbrev Program := List Item

def Program.functions (program : Program) : List FunctionDef :=
  program.filterMap fun
    | .function decl => some decl
    | _ => none

def Program.records (program : Program) : List RecordDecl :=
  program.filterMap fun
    | .record decl => some decl
    | _ => none

end Parse

/-! The stable AST. -/

namespace Ast

inductive Expr where
  | intLit (text : String)
  | strLit (value : String)
  | boolLit (value : Bool)
  | var (name : String) (symbol : Int) (ty : Ty)
  | unOp (op : UnOp) (operand : Expr) (ty : Ty)
  | binOp (op : BinOp) (left right : Expr) (ty : Ty)
  | listLit (elems : List Expr) (ty : Ty)
  | mapLit (entries : List (Expr × Expr)) (ty : Ty)
  | index (obj idx : Expr) (ty : Ty)
  | field (obj : Expr) (name : String) (ty : Ty)
  | recLit (record : String) (fields : List (String × Expr))
  | call (callee : String) (args : List Expr) (symbol : Int) (ty : Ty)

inductive SubPattern where
  | wild
  | bind (name : String) (symbol : Int)
  | lit (lit : Parse.Lit)
  deriving DecidableEq, Repr

inductive Pattern where
  | wild
  | bind (name : String) (symbol : Int)
  | lit (lit : Parse.Lit)
  | ctor (which : Variant) (sub : SubPattern)
  deriving DecidableEq, Repr

inductive Stmt where
  | letS (name : String) (ty : Ty) (init : Expr) (symbol : Int)
  | ret (value : Option Expr)
  | ifS (cond : Expr) (thenB : List Stmt) (elseB : Option Stmt)
  | whileS (cond : Expr) (body : List Stmt)
  | breakS
  | continueS
  | matchS (scrut : Expr) (arms : List (Pattern × List Stmt))
  | expr (expr : Expr)
  | block (stmts : List Stmt)

structure Param where
  name : String
  ty : Ty
  symbol : Int
  deriving DecidableEq, Repr

structure Function where
  name : String
  params : List Param
  ret : Option Ty
  body : List Stmt
  symbol : Int

structure Record where
  name : String
  fields : List (String × Ty)
  symbol : Int
  deriving DecidableEq, Repr

structure Program where
  functions : List Function
  records : List Record

end Ast

end Rynor.Lang
