import Rynor.Lang.Syntax

/-! The analyzer of tools/rynorlang/analyze.py for the v1 edition: declarations, type resolution, and the
lowering of functions to the stable AST. `depth` is the nesting budget used so far. An expression does not
change the analyzer's state, so the children of an expression are lowered as functions of the type expected
of them, and the parent decides the order and the expected types. -/

namespace Rynor.Lang.Analyze

abbrev Result := Except Fault

def fail {α : Type} (code : Code) (message : String) : Result α := .error (.coded code message)

def check (failed : Prop) [Decidable failed] (code : Code) (message : String) : Result Unit :=
  if failed then fail code message else .ok ()

/-- A check that is made only under a condition. -/
def onlyIf (condition : Prop) [Decidable condition] (action : Result Unit) : Result Unit :=
  if condition then action else .ok ()

lemma check_ok_iff {failed : Prop} [Decidable failed] {code : Code} {message : String} {α : Type}
    {next : Unit → Result α}
    {result : α} : (check failed code message >>= next) = .ok result ↔ ¬ failed ∧ next () = .ok result := by
  unfold check
  by_cases refused : failed
  · rw [if_pos refused]
    exact ⟨nofun, fun ⟨passed, _⟩ => absurd refused passed⟩
  · rw [if_neg refused]
    exact ⟨fun called => ⟨refused, called⟩, fun ⟨_, called⟩ => called⟩

lemma check_gives {failed : Prop} [Decidable failed] {code : Code} {message : String} {α : Type}
    {next : Unit → Result α} {post : α → Prop} (rest : ¬ failed → Checks.Gives (next ()) post) :
    Checks.Gives (check failed code message >>= next) post := by
  intro result called
  obtain ⟨passed, later⟩ := check_ok_iff.mp called
  exact rest passed result later

def maxDepth : Nat := 256

def reservedTypeNames : List String :=
  ["list", "map", "status", "result", "print", "match", "break", "continue", "use"] ++ aggBuiltins.map Builtin.text

def reservedFnNames : List String :=
  ["print", "match", "break", "continue", "use"] ++ aggBuiltins.map Builtin.text

structure Func where
  params : List (String × Ty)
  ret : Option Ty
  symbol : Int
  deriving DecidableEq, Repr

/-- `resolved` tells the entries with canonical field types (`fields`) from those with types as
written (`fields_raw`). -/
structure Rec where
  fields : List (String × Ty)
  resolved : Bool
  symbol : Int
  deriving DecidableEq, Repr

structure Tables where
  funcs : Dict String Func
  records : Dict String Rec
  sizes : Dict String Nat
  own : Dict String String
  imports : Dict String Path
  selfAlias : Option String
  profile : Profile

/-- Own names keep their text in the entry file and carry the alias elsewhere. -/
def storedName : Option String → String → String
  | none, bare => bare
  | some stem, bare => stem ++ "__" ++ bare

namespace Tables

def stored (tables : Tables) (bare : String) : String := storedName tables.selfAlias bare

def top (tables : Tables) (name : String) : String := (tables.own.get? name).getD name

def qualify (tables : Tables) (stem base : String) : Result String := do
  check (tables.imports.has stem = false) .semUndeclared s!"unknown module '{stem}'"
  return stem ++ "__" ++ base

end Tables

def partitionQualified : List Char → Option (List Char × List Char)
  | [] => none
  | [_] => none
  | first :: second :: rest =>
    if first = ':' ∧ second = ':' then some ([], rest)
    else (partitionQualified (second :: rest)).map fun (stem, base) => (first :: stem, base)

def splitQualified (text : String) : Option (String × String) :=
  match partitionQualified text.toList with
  | none => none
  | some (stem, base) =>
    if stem = [] ∨ base = [] ∨ (partitionQualified base).isSome then none
      else some (String.ofList stem, String.ofList base)

/-- The stored name of a reference: through the import table when it is qualified, through the
file's own names otherwise. -/
def Tables.resolveName (tables : Tables) (text : String) : Result String :=
  match splitQualified text with
  | some (stem, base) => tables.qualify stem base
  | none => .ok (tables.top text)

/-! Declarations. -/

def checkParams : List String → List String → Result Unit
  | _, [] => .ok ()
  | seen, name :: rest => do
    check (name ∈ seen) .semDuplicate s!"duplicate parameter '{name}'"
    check (name = "break" ∨ name = "continue") .semDuplicate s!"'{name}' is a reserved control word"
    checkParams (name :: seen) rest

def checkFields (record : String) : List String → List String → Result Unit
  | _, [] => .ok ()
  | seen, name :: rest => do
    check (name ∈ seen) .semDuplicate s!"duplicate field '{name}' in record '{record}'"
    checkFields record (name :: seen) rest

/-- The symbols are given out after the first pass. -/
def collectFunction (tables : Tables) (decl : Parse.FunctionDef) : Result Tables := do
  let name := decl.name
  let stored := tables.stored name
  check (tables.funcs.has stored ∨ tables.records.has stored) .semDuplicate s!"duplicate function '{name}'"
  check (name ∈ reservedFnNames) .semDuplicate s!"'{name}' is reserved"
  checkParams [] (decl.params.map (·.1))
  return { tables with own := tables.own.set name stored, funcs := tables.funcs.set stored ⟨decl.params, decl.ret, 0⟩ }

def collectRecord (tables : Tables) (decl : Parse.RecordDecl) : Result Tables := do
  let name := decl.name
  let stored := tables.stored name
  check (tables.funcs.has stored ∨ tables.records.has stored) .semDuplicate s!"duplicate declaration '{name}'"
  check (name ∈ reservedTypeNames) .semDuplicate s!"'{name}' is a reserved type name"
  checkFields name [] (decl.fields.map (·.1))
  return { tables with own := tables.own.set name stored, records := tables.records.set stored ⟨decl.fields, false, 0⟩ }

def collect (tables : Tables) : Parse.Item → Result Tables
  | .function decl => collectFunction tables decl
  | .record decl => collectRecord tables decl
  | .use _ => .ok tables

def checkShadowing (tables : Tables) (names : List String) : Result Unit :=
  names.forM fun name =>
    check (tables.funcs.has (tables.top name)) .semDuplicate s!"duplicate declaration '{name}' shadows global function"

def numberFunction (tables : Tables) (counter : Int) (decl : Parse.FunctionDef) : Tables :=
  match tables.funcs.get? (tables.top decl.name) with
  | none => tables
  | some info => { tables with funcs := tables.funcs.set (tables.top decl.name) { info with symbol := counter } }

def numberRecord (tables : Tables) (counter : Int) (decl : Parse.RecordDecl) : Tables :=
  match tables.records.get? (tables.top decl.name) with
  | none => tables
  | some info => { tables with records := tables.records.set (tables.top decl.name) { info with symbol := counter } }

def numberFunctions (tables : Tables) (counter : Int) : List Parse.FunctionDef → Tables × Int
  | [] => (tables, counter)
  | decl :: rest => numberFunctions (numberFunction tables counter decl) (counter + 1) rest

def numberRecords (tables : Tables) (counter : Int) : List Parse.RecordDecl → Tables × Int
  | [] => (tables, counter)
  | decl :: rest => numberRecords (numberRecord tables counter decl) (counter + 1) rest

/-- Functions take the first symbols in source order, records follow. -/
def number (program : Parse.Program) (tables : Tables) : Tables × Int :=
  let (tables, counter) := numberFunctions tables 0 program.functions
  numberRecords tables counter program.records

/-! Types. -/

def mangleShape (tables : Tables) : Ty → Result Ty
  | .int => .ok .int
  | .bool => .ok .bool
  | .str => .ok .str
  | .nominal name => do return .nominal (← tables.resolveName name)
  | .list elem cap => do return .list (← mangleShape tables elem) cap
  | .map key value cap => do return .map (← mangleShape tables key) (← mangleShape tables value) cap
  | .status payload => do return .status (← mangleShape tables payload)
  | .result payload error => do return .result (← mangleShape tables payload) (← mangleShape tables error)

/-- The first map or result that `_check_core_shape` meets. -/
def coreExcluded : Ty → Option String
  | .map .. => some "map"
  | .result .. => some "result"
  | .list elem _ => coreExcluded elem
  | .status payload => coreExcluded payload
  | _ => none

def checkCoreShape (ty : Ty) : Result Unit :=
  match coreExcluded ty with
  | some base => fail .semProfileExcluded s!"{base} excluded by --profile=core"
  | none => .ok ()

def checkCorePrintable : Ty → Result Unit
  | .int | .bool | .str => .ok ()
  | .status payload => checkCorePrintable payload
  | _ => fail .semProfileExcluded "print of aggregate excluded by --profile=core"

def checkTypeBounded (sizes : Dict String Nat) (ty : Ty) : Result Unit :=
  if ty.isScalar then .ok ()
  else match sizeOf sizes ty with
    | none => fail .semUndeclared s!"unknown record in type {ty}"
    | some size => check (size > maxAggBytes) .semLimitExceeded s!"type {ty} exceeds {maxAggBytes} bytes"

def typeFault : TypeFault → Fault
  | .badCap => .coded .semLimitExceeded "capacity must be at least 1"
  | .badKey => .coded .semTypeMismatch "map keys must be int, bool, or str"
  | .nestedStatus => .coded .semTypeMismatch "status cannot nest inside other types"
  | .tooDeep => .coded .semLimitExceeded "type nesting exceeds 8"

/-- A written name: a record, qualified or not. -/
def resolveNominal (tables : Tables) (text : String) : Result Ty :=
  match splitQualified text with
  | some (stem, base) => do
    let stored ← tables.qualify stem base
    check (tables.records.has stored = false) .semUndeclared s!"unknown type '{text}'"
    return .nominal stored
  | none => do
    let name := tables.top text
    check (text ∈ ["list", "map", "status", "result"]) .semArityMismatch s!"type '{text}' needs type arguments"
    check (tables.records.has name = false) .semUndeclared s!"unknown type '{text}'"
    return .nominal name

/-- A written type with arguments. -/
def resolveShape (tables : Tables) (checkSize : Bool) (shape : Ty) : Result Ty := do
  Checks.raise ((validateType shape 0).map typeFault)
  let ty ← mangleShape tables shape
  onlyIf (tables.profile = .core) (checkCoreShape ty)
  onlyIf checkSize (checkTypeBounded tables.sizes ty)
  return ty

def resolveType (tables : Tables) (checkSize : Bool) (shape : Ty) : Result Ty :=
  match shape with
  | .nominal text => resolveNominal tables text
  | shape => resolveShape tables checkSize shape

def nominalRefs : Ty → List String
  | .nominal name => [name]
  | .list elem _ => nominalRefs elem
  | .map key value _ => nominalRefs key ++ nominalRefs value
  | .status payload => nominalRefs payload
  | .result payload error => nominalRefs payload ++ nominalRefs error
  | _ => []

def resolveField (tables : Tables) : String × Ty → Result (String × Ty)
  | (name, shape) => do
    let ty ← resolveType tables false shape
    check ty.isTagged .semTypeMismatch s!"record field '{name}' cannot be a status value"
    return (name, ty)

def resolveFields (tables : Tables) : String × Rec → Result (String × Rec)
  | (name, info) => do
    if info.resolved then return (name, info)
    return (name, { info with fields := ← info.fields.mapM (resolveField tables), resolved := true })

section
variable (records : Dict String Rec)

/-- One field of `rec_size`: the sizes of the records it names, then its own size. -/
def fieldSize (recSize : Dict String Nat → String → Result (Dict String Nat)) (state : Nat × Dict String Nat)
    (field : String × Ty) : Result (Nat × Dict String Nat) := do
  let sizes ← ((nominalRefs field.2).dedup.insertionSort (· ≤ ·)).foldlM recSize state.2
  return (state.1 + (sizeOf sizes field.2).getD 0, sizes)

/-- `rec_size`; `record_decls[name]` raises for a name that is not declared. The busy records are
declared and distinct, so one level for each record and one more are enough. -/
def recSize : Nat → List String → Dict String Nat → String → Result (Dict String Nat)
  | 0, _, _, _ => .error (.raised "RecursionError")
  | fuel + 1, busy, sizes, name => do
    if sizes.has name then return sizes
    check (name ∈ busy) .semTypeMismatch s!"recursive record '{name}'"
    match records.get? name with
    | none => .error (.raised "KeyError")
    | some info =>
      let (total, sizes) ← info.fields.foldlM (fieldSize (recSize fuel (name :: busy))) (0, sizes)
      check (total > maxAggBytes) .semLimitExceeded s!"record '{name}' exceeds {maxAggBytes} bytes"
      return sizes.set name total

end

def resolveRecordFields (tables : Tables) : Result Tables := do
  let records ← tables.records.mapM (resolveFields tables)
  let sizes ← (Dict.keys records).foldlM (recSize records (records.length + 1) []) tables.sizes
  return { tables with records := records, sizes := sizes }

def resolveParam (tables : Tables) : String × Ty → Result (String × Ty)
  | (name, shape) => do return (name, ← resolveType tables true shape)

def resolveSignature (tables : Tables) (decl : Parse.FunctionDef) : Result Tables :=
  match tables.funcs.get? (tables.top decl.name) with
  | none => .error (.raised "KeyError")
  | some info => do
    let params ← info.params.mapM (resolveParam tables)
    let ret ← info.ret.mapM (resolveType tables true)
    return { tables with funcs := tables.funcs.set (tables.top decl.name) { info with params := params, ret := ret } }

/-! Expressions. -/

/-- Scopes from the innermost outwards; a name has its symbol and type. -/
abbrev Scopes := List (Dict String (Int × Ty))

def lookup (scopes : Scopes) (name : String) : Option (Int × Ty) := scopes.findSome? (·.get? name)

def enter (depth : Nat) : Result Nat :=
  if depth + 1 > maxDepth then fail .parDepthExceeded s!"nesting depth exceeds {maxDepth}" else .ok (depth + 1)

/-- How a child is lowered, by the type expected of it. -/
abbrev Lowering := Option Ty → Result (Ast.Expr × Ty)

def isComparable (tables : Tables) : Ty → Bool
  | .nominal name => tables.records.has name
  | ty => ty.isScalar || (validateType ty 0).isNone

def lowerString (value : String) : Result (Ast.Expr × Ty) := do
  check (value.length > maxStrLen) .semLimitExceeded s!"string literal of {value.length} bytes exceeds {maxStrLen}"
  return (.strLit value, .str)

def lowerIdentifier (scopes : Scopes) (name : String) : Result (Ast.Expr × Ty) :=
  match lookup scopes name with
  | none => fail .semUndeclared s!"undeclared variable '{name}'"
  | some (symbol, ty) => .ok (.var name symbol ty, ty)

def UnOp.type : UnOp → Ty
  | .neg => .int
  | .not => .bool
  | .complement => .int

def lowerUnary (op : UnOp) (operand : Lowering) : Result (Ast.Expr × Ty) := do
  let (expr, ty) ← operand none
  check (ty = .unit) .semTypeMismatch s!"unit as operand for '{op.text}'"
  check (ty ≠ UnOp.type op) .semTypeMismatch s!"unary '{op.text}' expects {UnOp.type op} got {ty}"
  return (.unOp op expr (UnOp.type op), UnOp.type op)

def checkBinary (tables : Tables) (op : BinOp) (left right : Ty) : Result Ty :=
  match op with
  | .add | .sub | .mul | .div | .rem | .bitOr | .bitXor | .bitAnd | .shl | .shr => do
    check (left ≠ .int ∨ right ≠ .int) .semTypeMismatch s!"operator '{op.text}' expects int,int got {left},{right}"
    return .int
  | .eq | .ne => do
    check (left ≠ right ∨ isComparable tables left = false) .semTypeMismatch
      s!"equality '{op.text}' expects matching value types got {left},{right}"
    return .bool
  | .lt | .gt | .le | .ge => do
    check (left ≠ .int ∨ right ≠ .int) .semTypeMismatch s!"relational '{op.text}' expects int,int got {left},{right}"
    return .bool
  | .and | .or => do
    check (left ≠ .bool ∨ right ≠ .bool) .semTypeMismatch s!"logical '{op.text}' expects bool,bool got {left},{right}"
    return .bool

def lowerBinary (tables : Tables) (op : BinOp) (left right : Lowering) : Result (Ast.Expr × Ty) := do
  let (leftExpr, leftTy) ← left none
  check (leftTy = .unit) .semTypeMismatch s!"unit as operand for '{op.text}'"
  let (rightExpr, rightTy) ← right none
  check (rightTy = .unit) .semTypeMismatch s!"unit as operand for '{op.text}'"
  let ty ← checkBinary tables op leftTy rightTy
  return (.binOp op leftExpr rightExpr ty, ty)

/-- A child that must have the given type. -/
def lowerTyped (child : Lowering) (hint : Option Ty) (want : Ty) (what : String) : Result Ast.Expr := do
  let (expr, ty) ← child hint
  check (ty ≠ want) .semTypeMismatch s!"{what} expects {want} got {ty}"
  return expr

def lowerListLit (tables : Tables) (kids : List Lowering) (expected : Option Ty) : Result (Ast.Expr × Ty) :=
  match expected, kids with
  | some (.list elem cap), kids => do
    check (kids.length > cap) .semLimitExceeded s!"list literal of {kids.length} exceeds capacity {cap}"
    let elems ← kids.mapM fun kid => lowerTyped kid (some elem) elem "list element"
    return (.listLit elems (.list elem cap), .list elem cap)
  | some _, _ => fail .semTypeMismatch "list literal needs a list type"
  | none, [] => fail .semTypeMismatch "empty list needs an annotated type"
  | none, kid :: kids => do
    let (first, elem) ← kid none
    check (elem = .unit) .semTypeMismatch "unit as list element"
    let rest ← kids.mapM fun kid => lowerTyped kid none elem "list element"
    let computed := Ty.list elem (kids.length + 1)
    checkTypeBounded tables.sizes computed
    return (.listLit (first :: rest) computed, computed)

/-- The identity of a constant key: its kind and its text or decoded value. -/
def constKey : Parse.Expr → Option (Ty × String)
  | .int text => some (.int, text)
  | .bool value => some (.bool, if value then "true" else "false")
  | .str value => some (.str, value)
  | _ => none

def checkDupKeys : List (Ty × String) → List (Parse.Expr × Parse.Expr) → Result Unit
  | _, [] => .ok ()
  | seen, (key, _) :: rest =>
    match constKey key with
    | none => checkDupKeys seen rest
    | some identity => do
      check (identity ∈ seen) .semDuplicate "duplicate map key"
      checkDupKeys (identity :: seen) rest

def lowerEntry (keyHint valueHint : Option Ty) (key value : Ty) (entry : Lowering × Lowering) :
    Result (Ast.Expr × Ast.Expr) := do
  let keyExpr ← lowerTyped entry.1 keyHint key "map key"
  let valueExpr ← lowerTyped entry.2 valueHint value "map value"
  return (keyExpr, valueExpr)

def lowerMapLit (tables : Tables) (kids : List (Lowering × Lowering)) (expected : Option Ty) : Result (Ast.Expr × Ty) :=
  match expected, kids with
  | some (.map key value cap), kids => do
    check (kids.length > cap) .semLimitExceeded s!"map literal of {kids.length} exceeds capacity {cap}"
    let entries ← kids.mapM (lowerEntry (some key) (some value) key value)
    return (.mapLit entries (.map key value cap), .map key value cap)
  | some _, _ => fail .semTypeMismatch "map literal needs a map type"
  | none, [] => fail .semTypeMismatch "empty map needs an annotated type"
  | none, kid :: kids => do
    let (firstKey, key) ← kid.1 none
    check (key.isScalar = false) .semTypeMismatch s!"map keys must be int, bool, or str got {key}"
    let (firstValue, value) ← kid.2 none
    let rest ← kids.mapM (lowerEntry none none key value)
    let computed := Ty.map key value (kids.length + 1)
    checkTypeBounded tables.sizes computed
    return (.mapLit ((firstKey, firstValue) :: rest) computed, computed)

def lowerIndex (obj idx : Lowering) : Result (Ast.Expr × Ty) := do
  let (objExpr, objTy) ← obj none
  match objTy with
  | .list elem _ =>
    let idxExpr ← lowerTyped idx none .int "index"
    return (.index objExpr idxExpr (.status elem), .status elem)
  | other => fail .semTypeMismatch s!"cannot index {other}"

def recordOf (tables : Tables) : Ty → Option Rec
  | .nominal name => tables.records.get? name
  | _ => none

def lowerField (tables : Tables) (obj : Lowering) (want : String) : Result (Ast.Expr × Ty) := do
  let (objExpr, objTy) ← obj none
  match recordOf tables objTy with
  | none => fail .semTypeMismatch s!"cannot select field of {objTy}"
  | some info =>
    match Dict.get? info.fields want with
    | none => fail .semUndeclared s!"record '{objTy}' has no field '{want}'"
    | some ty => return (.field objExpr want ty, ty)

def checkInits (record : String) (want : List String) : List String → List String → Result Unit
  | _, [] => .ok ()
  | seen, name :: rest => do
    check (name ∈ seen) .semDuplicate s!"duplicate field '{name}'"
    check (name ∉ want) .semUndeclared s!"record '{record}' has no field '{name}'"
    checkInits record want (name :: seen) rest

/-- The field values are lowered in the order of the declaration. -/
def lowerInit (inits : List (String × Lowering)) (field : String × Ty) : Result (String × Ast.Expr) :=
  match Dict.get? inits field.1 with
  | none => .error (.raised "KeyError")
  | some init => do return (field.1, ← lowerTyped init (some field.2) field.2 s!"field '{field.1}'")

def missing (want seen : List String) : List String := want.filter fun name => !seen.contains name

def quotedList (names : List String) : String :=
  "[" ++ String.intercalate ", " (names.map fun name => s!"'{name}'") ++ "]"

def constructRecord (tables : Tables) (text : String) (inits : List (String × Lowering)) : Result (Ast.Expr × Ty) := do
  let callee ← tables.resolveName text
  check (tables.funcs.has callee) .semTypeMismatch s!"'{callee}' is a function, not a record"
  match tables.records.get? callee with
  | none => fail .semUndeclared s!"unknown record '{callee}'"
  | some info =>
    checkInits callee (info.fields.map (·.1)) [] (inits.map (·.1))
    check (inits.length ≠ info.fields.length) .semArityMismatch
      s!"record '{callee}' missing fields {quotedList (missing (info.fields.map (·.1)) (inits.map (·.1)))}"
    let fields ← info.fields.mapM (lowerInit inits)
    return (.recLit callee fields, .nominal callee)

def operand (callee : String) (arg : Lowering) (hint : Option Ty) : Result (Ast.Expr × Ty) := do
  let (expr, ty) ← arg hint
  check (ty = .unit) .semTypeMismatch s!"unit as argument for '{callee}'"
  return (expr, ty)

/-- An argument of a builtin that must have the given type. -/
def typedOperand (callee what : String) (arg : Lowering) (hint : Option Ty) (want : Ty) : Result Ast.Expr := do
  let (expr, ty) ← operand callee arg hint
  check (ty ≠ want) .semTypeMismatch s!"'{callee}'{what} expects {want} got {ty}"
  return expr

def Builtin.arity : Builtin → Nat
  | .len | .isOk | .isErr | .argv | .ok | .err => 1
  | .unwrapOr | .push | .get | .byteAt | .fjoin => 2
  | .insert | .fread => 3

def Builtin.hostOnly : Builtin → Bool
  | .insert | .get | .ok | .err => true
  | _ => false

def builtinCall (builtin : Builtin) (args : List Ast.Expr) (ty : Ty) : Ast.Expr × Ty :=
  (.call builtin.text args (-1) ty, ty)

def mistyped {α : Type} (builtin : Builtin) (want : String) (got : Ty) : Result α :=
  fail .semTypeMismatch s!"'{builtin.text}' expects {want} got {got}"

def lowerOfList (builtin : Builtin) (arg : Ast.Expr) (ty : Ty) (value : Lowering) : Result (Ast.Expr × Ty) :=
  match ty with
  | .list elem cap => do
    let value ← typedOperand builtin.text " value" value (some elem) elem
    return builtinCall builtin [arg, value] (.status (.list elem cap))
  | other => mistyped builtin "list" other

def lowerOfStatus (builtin : Builtin) (arg : Ast.Expr) (ty : Ty) (default : Lowering) : Result (Ast.Expr × Ty) :=
  match ty with
  | .status payload => do
    let default ← typedOperand builtin.text " default" default (some payload) payload
    return builtinCall builtin [arg, default] payload
  | other => mistyped builtin "status" other

def lowerInsert (builtin : Builtin) (arg : Ast.Expr) (ty : Ty) (key value : Lowering) : Result (Ast.Expr × Ty) :=
  match ty with
  | .map keyTy valueTy cap => do
    let key ← typedOperand builtin.text " key" key (some keyTy) keyTy
    let value ← typedOperand builtin.text " value" value (some valueTy) valueTy
    return builtinCall builtin [arg, key, value] (.status (.map keyTy valueTy cap))
  | other => mistyped builtin "map" other

def lowerGet (builtin : Builtin) (arg : Ast.Expr) (ty : Ty) (key : Lowering) : Result (Ast.Expr × Ty) :=
  match ty with
  | .map keyTy valueTy _ => do
    let key ← typedOperand builtin.text " key" key (some keyTy) keyTy
    return builtinCall builtin [arg, key] (.status valueTy)
  | other => mistyped builtin "map" other

/-- The constructors `ok` and `err`: the expected result type gives the payload's. -/
def lowerVariant (builtin : Builtin) (which : Variant) (value : Lowering) (expected : Option Ty) :
    Result (Ast.Expr × Ty) :=
  match expected with
  | some (.result payload error) => do
    let want := match which with
      | .ok => payload
      | .err => error
    let value ← typedOperand builtin.text " payload" value (some want) want
    return builtinCall builtin [value] (.result payload error)
  | _ => fail .semTypeMismatch s!"'{builtin.text}' needs an annotated result type"

def lowerBuiltin (tables : Tables) (builtin : Builtin) (args : List Lowering) (expected : Option Ty) :
    Result (Ast.Expr × Ty) := do
  check (tables.profile = .core ∧ Builtin.hostOnly builtin = true) .semProfileExcluded
    s!"'{builtin.text}' excluded by --profile=core"
  match builtin, args with
  | .len, [first] =>
    let (arg, ty) ← operand builtin.text first none
    match ty with
    | .str | .list .. | .map .. => return builtinCall builtin [arg] .int
    | other => fail .semTypeMismatch s!"len expects list, map, or str got {other}"
  | .isOk, [first] | .isErr, [first] =>
    let (arg, ty) ← operand builtin.text first none
    match ty with
    | .status _ => return builtinCall builtin [arg] .bool
    | other => mistyped builtin "status" other
  | .unwrapOr, [first, second] =>
    let (arg, ty) ← operand builtin.text first none
    lowerOfStatus builtin arg ty second
  | .push, [first, second] =>
    let (arg, ty) ← operand builtin.text first none
    lowerOfList builtin arg ty second
  | .insert, [first, second, third] =>
    let (arg, ty) ← operand builtin.text first none
    lowerInsert builtin arg ty second third
  | .get, [first, second] =>
    let (arg, ty) ← operand builtin.text first none
    lowerGet builtin arg ty second
  | .byteAt, [first, second] =>
    let text ← typedOperand builtin.text "" first none .str
    let index ← typedOperand builtin.text " index" second none .int
    return builtinCall builtin [text, index] (.status .int)
  | .fread, [first, second, third] =>
    let path ← typedOperand builtin.text " path" first none .str
    let offset ← typedOperand builtin.text " offset" second none .int
    let length ← typedOperand builtin.text " length" third none .int
    return builtinCall builtin [path, offset, length] (.status .str)
  | .fjoin, [first, second] =>
    let directory ← typedOperand builtin.text " dir" first none .str
    let rel ← typedOperand builtin.text " rel" second none .str
    return builtinCall builtin [directory, rel] (.status .str)
  | .argv, [first] =>
    let index ← typedOperand builtin.text " index" first none .int
    return builtinCall builtin [index] (.status .str)
  | .ok, [first] => lowerVariant builtin .ok first expected
  | .err, [first] => lowerVariant builtin .err first expected
  | _, _ => fail .semArityMismatch s!"arity mismatch for '{builtin.text}' expected {Builtin.arity builtin} got {args.length}"

def lowerPrint (tables : Tables) (args : List Lowering) : Result (Ast.Expr × Ty) :=
  match args with
  | [first] => do
    let (arg, ty) ← operand "print" first none
    check (isComparable tables ty = false) .semTypeMismatch s!"print expects a value type got {ty}"
    onlyIf (tables.profile = .core) (checkCorePrintable ty)
    return (.call "print" [arg] (-1) .unit, .unit)
  | args => fail .semArityMismatch s!"arity mismatch for 'print' expected 1 got {args.length}"

def lowerArgs (callee : String) : List Lowering → List Ty → Result (List (Ast.Expr × Ty))
  | [], _ => .ok []
  | arg :: args, want => do
    let first ← operand callee arg want.head?
    let rest ← lowerArgs callee args want.tail
    return first :: rest

def checkArgs (callee : String) : Nat → List (Ty × Ty) → Result Unit
  | _, [] => .ok ()
  | index, (got, want) :: rest => do
    check (got ≠ want) .semTypeMismatch s!"arg {index} for '{callee}' expects {want} got {got}"
    checkArgs callee (index + 1) rest

def lowerFunctionCall (tables : Tables) (callee : String) (args : List Lowering) : Result (Ast.Expr × Ty) :=
  match tables.funcs.get? callee with
  | none => fail .semUnknownFunction s!"unknown function '{callee}'"
  | some info => do
    let want := info.params.map (·.2)
    let lowered ← lowerArgs callee args want
    check (lowered.length ≠ want.length) .semArityMismatch
      s!"arity mismatch for '{callee}' expected {want.length} got {lowered.length}"
    checkArgs callee 0 ((lowered.map (·.2)).zip want)
    let ty := info.ret.getD .unit
    return (.call callee (lowered.map (·.1)) info.symbol ty, ty)

def lowerCall (tables : Tables) (text : String) (args : List Lowering) (expected : Option Ty) :
    Result (Ast.Expr × Ty) := do
  let callee ← tables.resolveName text
  if callee = "print" then lowerPrint tables args
  else match Builtin.ofName callee with
    | some builtin => lowerBuiltin tables builtin args expected
    | none =>
      if tables.records.has callee then do
        check (args ≠ []) .semTypeMismatch s!"record '{callee}' construction needs named fields"
        constructRecord tables callee []
      else lowerFunctionCall tables callee args

mutual

def lowerExpr (tables : Tables) (scopes : Scopes) (depth : Nat) : Parse.Expr → Lowering
  | .int text => fun _ => .ok (.intLit text, .int)
  | .str value => fun _ => lowerString value
  | .bool value => fun _ => .ok (.boolLit value, .bool)
  | .name text => fun _ => lowerIdentifier scopes text
  | .group inner => fun expected => do
    let depth ← enter depth
    lowerExpr tables scopes depth inner expected
  | .unary op operand => fun _ => do
    let depth ← enter depth
    lowerUnary op (lowerExpr tables scopes depth operand)
  | .binary op left right => fun _ =>
    lowerBinary tables op (lowerExpr tables scopes depth left) (lowerExpr tables scopes depth right)
  | .list elems => fun expected => do
    let depth ← enter depth
    lowerListLit tables (lowerAll tables scopes depth elems) expected
  | .map entries => fun expected => do
    checkDupKeys [] entries
    let depth ← enter depth
    lowerMapLit tables (lowerEntries tables scopes depth entries) expected
  | .index obj idx => fun _ => lowerIndex (lowerExpr tables scopes depth obj) (lowerExpr tables scopes depth idx)
  | .field obj name => fun _ => lowerField tables (lowerExpr tables scopes depth obj) name
  | .record callee inits => fun _ => do
    let depth ← enter depth
    constructRecord tables callee (lowerInits tables scopes depth inits)
  | .call (.name text) args => fun expected => do
    let depth ← enter depth
    lowerCall tables text (lowerAll tables scopes depth args) expected
  | .call _ _ => fun _ => do
    let _ ← enter depth
    fail .semUnknownFunction "called expression is not a function name"

def lowerAll (tables : Tables) (scopes : Scopes) (depth : Nat) : List Parse.Expr → List Lowering
  | [] => []
  | expr :: rest => lowerExpr tables scopes depth expr :: lowerAll tables scopes depth rest

def lowerEntries (tables : Tables) (scopes : Scopes) (depth : Nat) :
    List (Parse.Expr × Parse.Expr) → List (Lowering × Lowering)
  | [] => []
  | (key, value) :: rest =>
    (lowerExpr tables scopes depth key, lowerExpr tables scopes depth value) :: lowerEntries tables scopes depth rest

def lowerInits (tables : Tables) (scopes : Scopes) (depth : Nat) : List (String × Parse.Expr) → List (String × Lowering)
  | [] => []
  | (name, value) :: rest => (name, lowerExpr tables scopes depth value) :: lowerInits tables scopes depth rest

end

/-! Statements. -/

/-- What a statement changes: the scopes and the symbol counter. -/
structure Env where
  scopes : Scopes
  counter : Int

def declare (tables : Tables) (env : Env) (name : String) (ty : Ty) : Result (Int × Env) := do
  check (tables.profile = .core ∧ env.scopes.length > 2) .semProfileExcluded "nested let excluded by --profile=core"
  check (name = "break" ∨ name = "continue") .semDuplicate s!"'{name}' is a reserved control word"
  check (tables.funcs.has name ∨ tables.funcs.has (tables.stored name)) .semDuplicate
    s!"duplicate declaration '{name}' shadows function"
  check (env.scopes.any (·.has name)) .semDuplicate s!"duplicate declaration '{name}'"
  match env.scopes with
  | [] => .error (.raised "IndexError")
  | scope :: outer => return (env.counter, ⟨scope.set name (env.counter, ty) :: outer, env.counter + 1⟩)

/-- A block: one level of nesting and a scope of its own, with the names an arm binds. -/
def lowerBlock {α : Type} (depth : Nat) (bound : Dict String (Int × Ty)) (body : Nat → Env → Result (α × Env))
    (env : Env) :
    Result (α × Env) := do
  let depth ← enter depth
  let (stmts, inner) ← body depth { env with scopes := bound :: env.scopes }
  return (stmts, { inner with scopes := inner.scopes.tail })

def lowerLet (tables : Tables) (name : String) (shape : Ty) (init : Lowering) (env : Env) :
    Result (Option Ast.Stmt × Env) := do
  let ty ← resolveType tables true shape
  let (expr, initTy) ← init (some ty)
  check (initTy = .unit) .semTypeMismatch s!"let initializer for '{name}' is unit"
  check (initTy ≠ ty) .semTypeMismatch s!"let '{name}' expects {ty} got {initTy}"
  let (symbol, env) ← declare tables env name ty
  return (some (.letS name ty expr symbol), env)

def lowerReturn (ret : Option Ty) (value : Option Lowering) : Result Ast.Stmt :=
  match value, ret with
  | none, none => .ok (.ret none)
  | none, some want => fail .semTypeMismatch s!"bare return in function returning {want}"
  | some value, ret => do
    let (expr, ty) ← value ret
    match ret with
    | none => fail .semTypeMismatch "return with value in unit function"
    | some want =>
      check (ty ≠ want) .semTypeMismatch s!"return expects {want} got {ty}"
      check (ty = .unit) .semTypeMismatch "return value is unit"
      return .ret (some expr)

def lowerCond (what : String) (cond : Lowering) : Result Ast.Expr := lowerTyped cond none .bool (what ++ " condition")

def lowerJump (word : String) (loops : Nat) (stmt : Ast.Stmt) (env : Env) : Result (Option Ast.Stmt × Env) := do
  check (loops = 0) .semTypeMismatch s!"'{word}' outside loop"
  return (some stmt, env)

def Lit.type : Parse.Lit → Ty
  | .int _ => .int
  | .bool _ => .bool
  | .str _ _ => .str

def Lit.lexeme : Parse.Lit → String
  | .int text => text
  | .bool value => if value then "true" else "false"
  | .str lexeme _ => lexeme

structure Covered where
  ok : Bool
  err : Bool
  wild : Bool
  lits : List String

/-- The types of a scrutinee's payloads, when it can be matched at all. -/
def payloads (tables : Tables) (ty : Ty) : Result (Ty × Ty) :=
  match ty with
  | .int | .bool | .str => .ok (ty, ty)
  | .status payload => .ok (payload, .int)
  | .result payload error => do
    check (tables.profile = .core) .semProfileExcluded "match on result excluded by --profile=core"
    return (payload, error)
  | other => fail .semTypeMismatch s!"cannot match on {other}"

def lowerSubPattern (which : Variant) (payload : Ty) : Parse.SubPattern → Result (Option (String × Ty))
  | .wild => .ok none
  | .bind name => .ok (some (name, payload))
  | .lit lit => do
    check (Lit.type lit ≠ payload) .semTypeMismatch s!"'{which.text}' payload mistyped"
    return none

/-- The name a pattern binds, with its type. -/
def lowerPattern (scrutinee okTy errTy : Ty) : Parse.Pattern → Result (Option (String × Ty))
  | .wild => .ok none
  | .bind name => .ok (some (name, scrutinee))
  | .lit lit => do
    check (Lit.type lit ≠ scrutinee) .semTypeMismatch "match literal mistyped"
    return none
  | .ctor which sub => do
    check (scrutinee.isTagged = false) .semTypeMismatch s!"'{which.text}' pattern needs a status or result"
    lowerSubPattern which (match which with | .ok => okTy | .err => errTy) sub

def cover (covered : Covered) : Parse.Pattern → Result Covered
  | .wild | .bind _ => .ok { covered with wild := true }
  | .ctor .ok _ => do
    check covered.ok .semDuplicate "duplicate 'ok' arm"
    return { covered with ok := true }
  | .ctor .err _ => do
    check covered.err .semDuplicate "duplicate 'err' arm"
    return { covered with err := true }
  | .lit lit => do
    check (Lit.lexeme lit ∈ covered.lits) .semDuplicate "duplicate match literal"
    return { covered with lits := Lit.lexeme lit :: covered.lits }

def exhaustive (scrutinee : Ty) (covered : Covered) : Bool :=
  match scrutinee with
  | .status _ | .result _ _ => (covered.ok && covered.err) || covered.wild
  | .bool => covered.wild || (covered.lits.contains "true" && covered.lits.contains "false")
  | _ => covered.wild

/-- The pattern of the stable AST; what it binds has the next symbol. -/
def patternJson (symbol : Int) : Parse.Pattern → Ast.Pattern
  | .wild => .wild
  | .bind name => .bind name symbol
  | .lit lit => .lit lit
  | .ctor which .wild => .ctor which .wild
  | .ctor which (.bind name) => .ctor which (.bind name symbol)
  | .ctor which (.lit lit) => .ctor which (.lit lit)

/-- What an arm binds, after the checks of its pattern. -/
def lowerArmPattern (tables : Tables) (scrutinee okTy errTy : Ty) (scopes : Scopes) (covered : Covered)
    (pattern : Parse.Pattern) :
    Result (Option (String × Ty) × Covered) := do
  check covered.wild .semTypeMismatch "unreachable match arm"
  let binding ← lowerPattern scrutinee okTy errTy pattern
  let covered ← cover covered pattern
  match binding with
  | none => return (none, covered)
  | some (name, ty) =>
    check ((lookup scopes name).isSome ∨ tables.funcs.has name ∨
      name ∈ reservedFnNames) .semDuplicate s!"duplicate declaration '{name}'"
    return (some (name, ty), covered)

/-- The scope an arm starts with and the counter after its binding. -/
def bindArm (counter : Int) : Option (String × Ty) → Dict String (Int × Ty) × Int
  | none => ([], counter)
  | some (name, ty) => ([(name, (counter, ty))], counter + 1)

mutual

def lowerStmt (tables : Tables) (ret : Option Ty) (depth loops : Nat) :
    Parse.Stmt → Env → Result (Option Ast.Stmt × Env)
  | .letS name ty init => fun env => lowerLet tables name ty (lowerExpr tables env.scopes depth init) env
  | .ret value => fun env => do
    let stmt ← lowerReturn ret (value.map (lowerExpr tables env.scopes depth))
    return (some stmt, env)
  | .ifS cond thenB none => fun env => do
    let depth ← enter depth
    let cond ← lowerCond "if" (lowerExpr tables env.scopes depth cond)
    let (thenB, env) ← lowerBlock depth [] (fun depth => lowerStmts tables ret depth loops thenB) env
    return (some (.ifS cond thenB none), env)
  | .ifS cond thenB (some elseB) => fun env => do
    let depth ← enter depth
    let cond ← lowerCond "if" (lowerExpr tables env.scopes depth cond)
    let (thenB, env) ← lowerBlock depth [] (fun depth => lowerStmts tables ret depth loops thenB) env
    let (elseB, env) ← lowerStmt tables ret depth loops elseB env
    return (some (.ifS cond thenB elseB), env)
  | .whileS cond body => fun env => do
    let cond ← lowerCond "while" (lowerExpr tables env.scopes depth cond)
    let (body, env) ← lowerBlock depth [] (fun depth => lowerStmts tables ret depth (loops + 1) body) env
    return (some (.whileS cond body), env)
  | .breakS => lowerJump "break" loops .breakS
  | .continueS => lowerJump "continue" loops .continueS
  | .matchS scrut arms => fun env => do
    let (scrut, ty) ← lowerExpr tables env.scopes depth scrut none
    let (okTy, errTy) ← payloads tables ty
    let (arms, covered, env) ← lowerArms tables ret depth loops ty okTy errTy arms ⟨false, false, false, []⟩ env
    check (exhaustive ty covered = false) .semTypeMismatch "non-exhaustive match"
    return (some (.matchS scrut arms), env)
  | .expr expr => fun env => do
    let (expr, _) ← lowerExpr tables env.scopes depth expr none
    return (some (.expr expr), env)
  | .use _ => fun env => .ok (none, env)
  | .block stmts => fun env => do
    let (stmts, env) ← lowerBlock depth [] (fun depth => lowerStmts tables ret depth loops stmts) env
    return (some (.block stmts), env)

def lowerStmts (tables : Tables) (ret : Option Ty) (depth loops : Nat) :
    List Parse.Stmt → Env → Result (List Ast.Stmt × Env)
  | [] => fun env => .ok ([], env)
  | stmt :: rest => fun env => do
    let (first, env) ← lowerStmt tables ret depth loops stmt env
    let (others, env) ← lowerStmts tables ret depth loops rest env
    return (first.toList ++ others, env)

def lowerArms (tables : Tables) (ret : Option Ty) (depth loops : Nat) (scrutinee okTy errTy : Ty) :
    List (Parse.Pattern × List Parse.Stmt) → Covered → Env → Result (List (Ast.Pattern × List Ast.Stmt) × Covered × Env)
  | [] => fun covered env => .ok ([], covered, env)
  | (pattern, body) :: rest => fun covered env => do
    let (binding, covered) ← lowerArmPattern tables scrutinee okTy errTy env.scopes covered pattern
    let (bound, counter) := bindArm env.counter binding
    let (stmts, after) ← lowerBlock depth bound (fun depth => lowerStmts tables ret depth loops body)
      { env with counter := counter }
    let (arms, covered, last) ← lowerArms tables ret depth loops scrutinee okTy errTy rest covered after
    return ((patternJson env.counter pattern, stmts) :: arms, covered, last)

end

/-! Whole files. -/

def bindParams (counter : Int) : List (String × Ty) → List Ast.Param
  | [] => []
  | (name, ty) :: rest => ⟨name, ty, counter⟩ :: bindParams (counter + 1) rest

def paramScope (params : List Ast.Param) : Dict String (Int × Ty) :=
  params.foldl (fun scope param => scope.set param.name (param.symbol, param.ty)) []

def lowerFunction (tables : Tables) (counter : Int) (decl : Parse.FunctionDef) : Result (Ast.Function × Int) :=
  match tables.funcs.get? (tables.top decl.name) with
  | none => .error (.raised "KeyError")
  | some info => do
    let depth ← enter 0
    let params := bindParams counter info.params
    let (body, env) ← lowerBlock depth [] (fun depth => lowerStmts tables info.ret depth 0 decl.body)
      ⟨[paramScope params], counter + info.params.length⟩
    return (⟨tables.top decl.name, params, info.ret, body, info.symbol⟩, env.counter)

def lowerRecord (tables : Tables) (decl : Parse.RecordDecl) : Result Ast.Record :=
  match tables.records.get? (tables.top decl.name) with
  | none => .error (.raised "KeyError")
  | some info => .ok ⟨tables.top decl.name, info.fields, info.symbol⟩

def lowerItem (tables : Tables) (state : Ast.Program × Int) : Parse.Item → Result (Ast.Program × Int)
  | .function decl => do
    let (function, counter) ← lowerFunction tables state.2 decl
    return ({ state.1 with functions := state.1.functions ++ [function] }, counter)
  | .record decl => do
    let record ← lowerRecord tables decl
    return ({ state.1 with records := state.1.records ++ [record] }, state.2)
  | .use _ => .ok state

/-- The globals a file starts with. -/
structure External where
  funcs : Dict String Func
  records : Dict String Rec

def seeded (external : External) (imports : Dict String Path) (stem : Option String) (profile : Profile) : Tables :=
  ⟨external.funcs, external.records, [], [], imports, stem, profile⟩

/-- Everything before the bodies: the tables and the next free symbol. -/
def declarations (program : Parse.Program) (tables : Tables) : Result (Tables × Int) := do
  let tables ← program.foldlM collect tables
  checkShadowing tables (program.functions.flatMap fun decl => decl.params.map (·.1))
  let (tables, counter) := number program tables
  let tables ← resolveRecordFields tables
  let tables ← program.functions.foldlM resolveSignature tables
  return (tables, counter)

def analyze (program : Parse.Program) (external : External) (imports : Dict String Path) (stem : Option String)
    (profile : Profile) : Result Ast.Program := do
  let (tables, counter) ← declarations program (seeded external imports stem profile)
  let (ast, _) ← program.foldlM (lowerItem tables) (⟨[], []⟩, counter)
  return ast

end Rynor.Lang.Analyze
