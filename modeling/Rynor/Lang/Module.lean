import Rynor.Lang.Analyze

/-! The module loader of tools/rynorlang/module.py: the import graph, the order of analysis, the seeding of
a file with the declarations of its imports, and the merge of the analysed files. The disk is a parameter. -/

namespace Rynor.Lang.Module
open Analyze

def maxUsesPerFile : Nat := 64
def maxImportDepth : Nat := 16
def maxModules : Nat := 64
def maxAliasLen : Nat := 64
def stdPrefix : String := "std/"

inductive ParseOutcome where
  | raised (error : String)
  | refused (code message : String)
  | parsed (program : Parse.Program)

/-- A JSON value, as far as the manifest reader looks at it. -/
inductive Json where
  | object (entries : List (String × Json))
  | string (text : String)
  | other

def isNameChar (c : Char) : Bool := c.isAlphanum || c == '_'

/-- An identifier of the lexer. -/
def isName (text : String) : Bool :=
  match text.toList with
  | [] => false
  | first :: rest => (first.isAlpha || first == '_') && rest.all isNameChar

def isAlias (text : String) : Bool := decide (text.length ≤ maxAliasLen) && isName text

/-- Names of the functions and records of a file in source order. -/
def declaredNames (program : Parse.Program) : List String :=
  program.filterMap fun
    | .function decl => some decl.name
    | .record decl => some decl.name
    | .use _ => none

/-- What the loader reads. `manifest` is `none` without an rlmod.json and a fault when it is too large,
cannot be read or is not JSON. The parser declares identifiers only. -/
structure Disk where
  isFile : Path → Bool
  resolve : Path → Path
  parseFile : Path → ParseOutcome
  readText : Path → Except String Unit
  sha256 : Path → Except String String
  manifest : Option (Result Json)
  identifiers : ∀ path program, parseFile path = .parsed program → ∀ name ∈ declaredNames program, isName name = true

/-- `repr` of a text without quotes, backslashes and unprintable characters. -/
def quoted (text : String) : String := s!"'{text}'"

def segments (text : String) : List String := (text.toList.splitOn '/').map String.ofList

inductive UsePath where
  | bad (reason : String)
  | std (rest : String)
  | proj (path : String)
  deriving DecidableEq, Repr

def startsWith (text head : String) : Bool := head.toList.isPrefixOf text.toList

def normalizeUse (text : String) : UsePath :=
  if text = "" then .bad "empty use path"
  else if startsWith text "/" then .bad s!"absolute use path {quoted text}"
  else if (segments text).any fun part => part == "" || part == "." || part == ".." then
    .bad s!"illegal use path {quoted text}"
  else if startsWith text stdPrefix then .std (String.ofList (text.toList.drop stdPrefix.length))
  else .proj text

/-! Manifests. -/

def isDigest (text : String) : Bool :=
  text.length == 64 && text.toList.all fun c => c.isDigit || (decide ('a' ≤ c) && decide (c ≤ 'f'))

def readPin : String × Json → Result (String × String)
  | (key, value) => do
    match normalizeUse key with
    | .proj _ => .ok ()
    | _ => fail .modBadManifest s!"manifest pins project files only: {quoted key}"
    match value with
    | .object [("sha256", digest), ("edition", edition)] | .object [("edition", edition), ("sha256", digest)] =>
      match digest with
      | .string digest =>
        check (isDigest digest = false) .modBadManifest s!"bad sha256 for {quoted key}"
        match edition with
        | .string "v1" => return (key, digest)
        | .string text => fail .modEditionMismatch s!"unknown edition {quoted text} for {quoted key}"
        | _ => fail .modEditionMismatch s!"unknown edition for {quoted key}"
      | _ => fail .modBadManifest s!"bad sha256 for {quoted key}"
    | _ => fail .modBadManifest s!"bad pin entry for {quoted key}"

/-- The pinned digests by project path, or `none` without a manifest. -/
def readManifest (disk : Disk) : Result (Option (Dict String String)) :=
  match disk.manifest with
  | none => .ok none
  | some (.error fault) => .error fault
  | some (.ok (.object [("modules", .object modules)])) => do
    return some (← modules.mapM readPin)
  | some (.ok (.object [("modules", _)])) => fail .modBadManifest "manifest modules must be a table"
  | some (.ok _) => fail .modBadManifest "manifest needs exactly a modules table"

/-! The import graph. -/

/-- Levels of a tree below two siblings, read side by side. -/
def mergeLevels : List (List String) → List (List String) → List (List String)
  | [], right => right
  | left, [] => left
  | first :: left, second :: right => (first ++ second) :: mergeLevels left right

mutual

/-- The use paths below a statement, one list for each level of the tree. -/
def stmtLevels : Parse.Stmt → List (List String)
  | .ifS _ thenB none => [] :: blockLevels thenB
  | .ifS _ thenB (some elseB) => [] :: mergeLevels (blockLevels thenB) (stmtLevels elseB)
  | .whileS _ body => [] :: blockLevels body
  | .matchS _ arms => [] :: armLevels arms
  | .block stmts => blockLevels stmts
  | _ => []

/-- A block: its own `use` statements, then the levels below it. -/
def blockLevels : List Parse.Stmt → List (List String)
  | [] => [[]]
  | .use path :: rest => mergeLevels [[path]] (blockLevels rest)
  | stmt :: rest => mergeLevels ([] :: stmtLevels stmt) (blockLevels rest)

def armLevels : List (Parse.Pattern × List Parse.Stmt) → List (List String)
  | [] => []
  | (_, body) :: rest => mergeLevels ([] :: blockLevels body) (armLevels rest)

end

def programLevels : Parse.Program → List (List String)
  | [] => [[]]
  | .use path :: rest => mergeLevels [[path]] (programLevels rest)
  | .function decl :: rest => mergeLevels ([] :: [] :: blockLevels decl.body) (programLevels rest)
  | .record _ :: rest => programLevels rest

/-- The walk of `_extract_uses` takes the tree level by level. -/
def extractUses (program : Parse.Program) : List String := (programLevels program).flatten

/-- One import of a file: the alias, the file it resolves to, the path as written. -/
structure Dep where
  stem : String
  key : Path
  text : String
  deriving DecidableEq, Repr

structure Info where
  rel : String
  stem : Option String
  depth : Nat
  root : Parse.Program
  deps : List Dep

structure Loader where
  files : Dict Path Info
  aliases : Dict String Path

/-- `Path(name).stem`: without the suffix after the last dot, unless the dot is first or last. -/
def stemOf (name : String) : String :=
  match name.toList.reverse.span (· ≠ '.') with
  | (_ :: _, _ :: before@(_ :: _)) => String.ofList before.reverse
  | _ => name

def baseName (path : Path) : String := path.getLast?.getD ""

/-- The file a use path names, its path for messages, and its alias. -/
def locate (disk : Disk) (root std path : Path) (rel text : String) : Result (Path × String × String) :=
  match normalizeUse text with
  | .bad reason => fail .modNotFound s!"{rel}: {reason}"
  | .std norm => .ok (std ++ segments norm, stdPrefix ++ norm, stemOf (baseName (segments norm)))
  | .proj norm =>
    let child := disk.resolve (path.dropLast ++ segments norm)
    if root.isPrefixOf child then
      .ok (child, String.intercalate "/" (child.drop root.length), stemOf (baseName (segments norm)))
    else fail .modNotFound s!"{rel}: import escapes the project: {quoted text}"

def Loader.addDep (loader : Loader) (path : Path) (dep : Dep) : Loader :=
  match loader.files.get? path with
  | none => loader
  | some info => { loader with files := loader.files.set path { info with deps := info.deps ++ [dep] } }

/-- One turn of the loop over the uses of a file. -/
def visitUse (disk : Disk) (root std path : Path) (rel : String)
    (visitChild : Path → String → Option String → Loader → Result Loader)
    (loader : Loader) (text : String) : Result Loader := do
  let (child, childRel, stem) ← locate disk root std path rel text
  check (isAlias stem = false) .modNotFound s!"{rel}: module alias must be an identifier: {quoted stem}"
  check (disk.isFile child = false) .modNotFound s!"{rel}: no such module {quoted text}"
  visitChild child childRel (some stem) (loader.addDep path ⟨stem, disk.resolve child, text⟩)

def Loader.relOf (loader : Loader) (key : Path) : String := ((loader.files.get? key).map (·.rel)).getD ""

def cycleText (loader : Loader) (stack : List Path) (path : Path) (rel : String) : String :=
  String.intercalate " -> " ((stack.dropWhile (· ≠ path)).map loader.relOf ++ [rel])

/-- The alias of a file must be new; the entry has none. -/
def addAlias (aliases : Dict String Path) (path : Path) : Option String → Result (Dict String Path)
  | none => .ok aliases
  | some stem => do
    check (aliases.has stem) .modDuplicate s!"duplicate module alias '{stem}'"
    return aliases.set stem path

def register (loader : Loader) (path : Path) (info : Info) : Result Loader := do
  let aliases ← addAlias loader.aliases path info.stem
  return ⟨loader.files.set path info, aliases⟩

/-- `visit`; the first argument is how many further levels are allowed, `stack` the files being visited. -/
def visit (disk : Disk) (root std : Path) : Nat → List Path → Path → String → Option String → Loader → Result Loader
  | 0, _, _, _, _, _ => fail .modCycle s!"import depth exceeds {maxImportDepth}"
  | budget + 1, stack, path, rel, stem, loader => do
    check (path ∈ stack) .modCycle s!"import cycle: {cycleText loader stack path rel}"
    if loader.files.has path then return loader
    check (loader.files.length ≥ maxModules) .modNotFound s!"too many modules (max {maxModules})"
    match disk.parseFile path with
    | .raised error => fail .modNotFound s!"cannot parse {rel}: {error}"
    | .refused code message => fail (.parser code) s!"{rel}: {message}"
    | .parsed program =>
      let uses := extractUses program
      check (uses.length > maxUsesPerFile) .modNotFound s!"too many imports in {rel} (max {maxUsesPerFile})"
      let loader ← register loader path ⟨rel, stem, maxImportDepth - budget, program, []⟩
      uses.foldlM (visitUse disk root std path rel (visit disk root std budget (stack ++ [path]))) loader

def resolveGraph (disk : Disk) (std entry : Path) : Result (Dict Path Info) := do
  check (disk.isFile entry = false) .modNotFound ("no such entry " ++ String.intercalate "/" entry)
  let path := disk.resolve entry
  let loader ← visit disk path.dropLast std (maxImportDepth + 1) [] path (baseName entry) none ⟨[], []⟩
  return loader.files

def checkPin (disk : Disk) (pins : Dict String String) : Path × Info → Result Unit
  | (key, info) =>
    if startsWith info.rel stdPrefix ∨ info.stem = none then .ok ()
    else match pins.get? info.rel with
      | none => fail .modPinMismatch s!"unpinned import with manifest present: {quoted info.rel}"
      | some digest =>
        match disk.sha256 key with
        | .error error => fail .modNotFound s!"cannot hash {quoted info.rel}: {error}"
        | .ok actual => check (actual ≠ digest) .modPinMismatch s!"hash mismatch for {quoted info.rel}"

/-! The order of the merge. -/

/-- The depth-first walk; a level of it meets a file it has not seen, so there are at most as many as files. -/
def orderFrom (files : Dict Path Info) : Nat → List Path → Path → Result (List Path)
  | 0, _, _ => .error (.raised "RecursionError")
  | budget + 1, seen, key =>
    if key ∈ seen then .ok seen
    else match files.get? key with
      | none => .error (.raised "KeyError")
      | some info => info.deps.foldlM (fun seen dep => orderFrom files budget seen dep.key) (seen ++ [key])

def mergeOrder (files : Dict Path Info) : Result (List Path) :=
  match files.find? (·.2.stem = none) with
  | none => .error (.raised "StopIteration")
  | some (entry, _) => do
    let ordered ← orderFrom files (files.length + 1) [] entry
    return ordered ++ files.keys.filter (· ∉ ordered)

def fileOf (files : Dict Path Info) (key : Path) : Result Info :=
  match files.get? key with
  | none => .error (.raised "KeyError")
  | some info => .ok info

/-- The first file that declares a name. -/
def declaredIn (infos : List Info) : Dict String String :=
  infos.foldl (fun declared info => (declaredNames info.root).foldl (fun declared name =>
    declared.setDefault name info.rel) declared) []

def checkSquats (declared : Dict String String) (info : Info) : Result Unit :=
  match info.stem with
  | none => .ok ()
  | some stem => (declaredNames info.root).forM fun name =>
    match declared.get? (stem ++ "__" ++ name) with
    | none => .ok ()
    | some rel =>
      fail .modDuplicate s!"mangled name {quoted (storedName (some stem) name)} from {quoted info.rel} collides with a declaration in {quoted rel}"

def checkMangleCollisions (files : Dict Path Info) : Result Unit := do
  let order ← mergeOrder files
  let infos ← order.mapM (fileOf files)
  infos.forM (checkSquats (declaredIn infos))

/-! Analysis. -/

/-- The key of the sort: later files first. -/
def laterThan (left right : Info) : Prop :=
  right.depth < left.depth ∨ (right.depth = left.depth ∧ right.rel ≤ left.rel)

instance : DecidableRel laterThan := fun left right =>
  inferInstanceAs (Decidable (right.depth < left.depth ∨ (right.depth = left.depth ∧ right.rel ≤ left.rel)))

/-- `sorted(files, key=(depth, rel), reverse=True)`; the sort is stable. -/
def analysisOrder (files : Dict Path Info) : List (Path × Info) :=
  files.insertionSort fun left right => laterThan left.2 right.2

def seedFunctions (external : External) (functions : List Ast.Function) : External :=
  { external with funcs := functions.foldl (fun funcs function =>
      funcs.set function.name ⟨function.params.map fun param => (param.name, param.ty), function.ret, -1⟩) external.funcs }

def seedRecords (external : External) (records : List Ast.Record) : External :=
  { external with records := records.foldl (fun known record => known.set record.name ⟨record.fields, true, -1⟩) external.records }

def seedDep (tables : Dict Path Ast.Program) (external : External) (dep : Dep) : External :=
  match tables.get? dep.key with
  | none => external
  | some ast => seedRecords (seedFunctions external ast.functions) ast.records

def externalFor (info : Info) (tables : Dict Path Ast.Program) : External := info.deps.foldl (seedDep tables) ⟨[], []⟩

def importsFor (info : Info) : Dict String Path := info.deps.foldl (fun imports dep => imports.set dep.stem dep.key) []

def inFile {α : Type} (rel : String) : Result α → Result α
  | .error (.coded code message) => fail code s!"{rel}: {message}"
  | other => other

/-- One turn of the loop of `analyze_entry`. -/
def analyzeFile (disk : Disk) (profile : Profile) (tables : Dict Path Ast.Program) :
    Path × Info → Result (Dict Path Ast.Program)
  | (key, info) =>
    match disk.readText key with
    | .error error => fail .modNotFound s!"cannot read {info.rel}: {error}"
    | .ok () => do
      let ast ← inFile info.rel (analyze info.root (externalFor info tables) (importsFor info) info.stem profile)
      return tables.set key ast

/-! The merge. -/

section
variable (calls : String → Int → Int) (fresh : Int → Int)

mutual

def remapExpr : Ast.Expr → Ast.Expr
  | .intLit text => .intLit text
  | .strLit value => .strLit value
  | .boolLit value => .boolLit value
  | .var name symbol ty => .var name (fresh symbol) ty
  | .unOp op operand ty => .unOp op (remapExpr operand) ty
  | .binOp op left right ty => .binOp op (remapExpr left) (remapExpr right) ty
  | .listLit elems ty => .listLit (remapExprs elems) ty
  | .mapLit entries ty => .mapLit (remapEntries entries) ty
  | .index obj idx ty => .index (remapExpr obj) (remapExpr idx) ty
  | .field obj name ty => .field (remapExpr obj) name ty
  | .recLit record fields => .recLit record (remapFields fields)
  | .call callee args symbol ty => .call callee (remapExprs args) (calls callee symbol) ty

def remapExprs : List Ast.Expr → List Ast.Expr
  | [] => []
  | expr :: rest => remapExpr expr :: remapExprs rest

def remapEntries : List (Ast.Expr × Ast.Expr) → List (Ast.Expr × Ast.Expr)
  | [] => []
  | (key, value) :: rest => (remapExpr key, remapExpr value) :: remapEntries rest

def remapFields : List (String × Ast.Expr) → List (String × Ast.Expr)
  | [] => []
  | (name, value) :: rest => (name, remapExpr value) :: remapFields rest

end

def remapPattern : Ast.Pattern → Ast.Pattern
  | .bind name symbol => .bind name (fresh symbol)
  | .ctor which (.bind name symbol) => .ctor which (.bind name (fresh symbol))
  | other => other

mutual

def remapStmt : Ast.Stmt → Ast.Stmt
  | .letS name ty init symbol => .letS name ty (remapExpr calls fresh init) (fresh symbol)
  | .ret value => .ret (value.map (remapExpr calls fresh))
  | .ifS cond thenB none => .ifS (remapExpr calls fresh cond) (remapStmts thenB) none
  | .ifS cond thenB (some elseB) => .ifS (remapExpr calls fresh cond) (remapStmts thenB) (some (remapStmt elseB))
  | .whileS cond body => .whileS (remapExpr calls fresh cond) (remapStmts body)
  | .breakS => .breakS
  | .continueS => .continueS
  | .matchS scrut arms => .matchS (remapExpr calls fresh scrut) (remapArms arms)
  | .expr expr => .expr (remapExpr calls fresh expr)
  | .block stmts => .block (remapStmts stmts)

def remapStmts : List Ast.Stmt → List Ast.Stmt
  | [] => []
  | stmt :: rest => remapStmt stmt :: remapStmts rest

def remapArms : List (Ast.Pattern × List Ast.Stmt) → List (Ast.Pattern × List Ast.Stmt)
  | [] => []
  | (pattern, body) :: rest => (remapPattern fresh pattern, remapStmts body) :: remapArms rest

end

def remapFunction (function : Ast.Function) : Ast.Function :=
  { function with
    params := function.params.map fun param => { param with symbol := fresh param.symbol }
    body := remapStmts calls fresh function.body
    symbol := calls function.name function.symbol }

def remapProgram (program : Ast.Program) : Ast.Program :=
  ⟨program.functions.map (remapFunction calls fresh),
    program.records.map fun record => { record with symbol := fresh record.symbol }⟩

end

mutual

/-- The symbols of variables in an expression. -/
def exprSymbols : Ast.Expr → List Int
  | .intLit _ | .strLit _ | .boolLit _ => []
  | .var _ symbol _ => [symbol]
  | .unOp _ operand _ => exprSymbols operand
  | .binOp _ left right _ => exprSymbols left ++ exprSymbols right
  | .listLit elems _ => exprsSymbols elems
  | .mapLit entries _ => entriesSymbols entries
  | .index obj idx _ => exprSymbols obj ++ exprSymbols idx
  | .field obj _ _ => exprSymbols obj
  | .recLit _ fields => fieldsSymbols fields
  | .call _ args _ _ => exprsSymbols args

def exprsSymbols : List Ast.Expr → List Int
  | [] => []
  | expr :: rest => exprSymbols expr ++ exprsSymbols rest

def entriesSymbols : List (Ast.Expr × Ast.Expr) → List Int
  | [] => []
  | (key, value) :: rest => exprSymbols key ++ exprSymbols value ++ entriesSymbols rest

def fieldsSymbols : List (String × Ast.Expr) → List Int
  | [] => []
  | (_, value) :: rest => exprSymbols value ++ fieldsSymbols rest

end

def patternSymbols : Ast.Pattern → List Int
  | .bind _ symbol | .ctor _ (.bind _ symbol) => [symbol]
  | _ => []

mutual

def stmtSymbols : Ast.Stmt → List Int
  | .letS _ _ init symbol => symbol :: exprSymbols init
  | .ret none => []
  | .ret (some value) => exprSymbols value
  | .ifS cond thenB none => exprSymbols cond ++ stmtsSymbols thenB
  | .ifS cond thenB (some elseB) => exprSymbols cond ++ stmtsSymbols thenB ++ stmtSymbols elseB
  | .whileS cond body => exprSymbols cond ++ stmtsSymbols body
  | .breakS | .continueS => []
  | .matchS scrut arms => exprSymbols scrut ++ armsSymbols arms
  | .expr expr => exprSymbols expr
  | .block stmts => stmtsSymbols stmts

def stmtsSymbols : List Ast.Stmt → List Int
  | [] => []
  | stmt :: rest => stmtSymbols stmt ++ stmtsSymbols rest

def armsSymbols : List (Ast.Pattern × List Ast.Stmt) → List Int
  | [] => []
  | (pattern, body) :: rest => patternSymbols pattern ++ stmtsSymbols body ++ armsSymbols rest

end

def functionSymbols (function : Ast.Function) : List Int := function.params.map (·.symbol) ++ stmtsSymbols function.body

/-- Every symbol that `fresh` is applied to. -/
def programSymbols (program : Ast.Program) : List Int :=
  program.functions.flatMap functionSymbols ++ program.records.map (·.symbol)

def freshSymbol (offset old : Int) : Int := if old < 0 then old else offset + old

def callSymbol (nameToIndex : Dict String Nat) (callee : String) (old : Int) : Int :=
  match nameToIndex.get? callee with
  | none => old
  | some index => index

/-- The largest symbol in use after the walk, and the offset itself when there is none. -/
def peakSymbol (offset : Int) (symbols : List Int) : Int :=
  symbols.foldl (fun peak old => if old < 0 then peak else max peak (offset + old)) offset

def remapTree (nameToIndex : Dict String Nat) (offset : Int) (ast : Ast.Program) : Ast.Program × Int :=
  (remapProgram (callSymbol nameToIndex) (freshSymbol offset) ast, peakSymbol offset (programSymbols ast) + 1)

/-- The files with their symbols rewritten, one after the other. -/
def remapFiles (nameToIndex : Dict String Nat) : Int → List Ast.Program → List Ast.Program
  | _, [] => []
  | offset, ast :: rest =>
    let (remapped, offset) := remapTree nameToIndex offset ast
    remapped :: remapFiles nameToIndex offset rest

/-- `name_to_index`: a later function of the same name takes the entry. -/
def indexNames : Dict String Nat → Nat → List String → Dict String Nat
  | indices, _, [] => indices
  | indices, next, name :: rest => indexNames (indices.set name next) (next + 1) rest

def tableOf (tables : Dict Path Ast.Program) (key : Path) : Result Ast.Program :=
  match tables.get? key with
  | none => .error (.raised "KeyError")
  | some ast => .ok ast

def mergeAsts (asts : List Ast.Program) : List Ast.Program :=
  remapFiles (indexNames [] 0 ((asts.flatMap (·.functions)).map (·.name))) 0 asts

def joinAsts (asts : List Ast.Program) : Ast.Program := ⟨asts.flatMap (·.functions), asts.flatMap (·.records)⟩

/-- The analysed files in merge order, with the symbols of the merged program. -/
def mergeParts (files : Dict Path Info) (tables : Dict Path Ast.Program) : Result (List (Path × Ast.Program)) := do
  let order ← mergeOrder files
  let asts ← order.mapM (tableOf tables)
  return order.zip (mergeAsts asts)

/-- Under the strict profile without a manifest the first project import is refused. -/
def checkStrict (files : Dict Path Info) : Result Unit := do
  let order ← mergeOrder files
  let infos ← order.mapM (fileOf files)
  infos.forM fun info => check (info.stem.isSome ∧ startsWith info.rel stdPrefix = false) .modPinMismatch
    s!"unpinned import under --profile=strict: {quoted info.rel}"

def checkAdmission (disk : Disk) (profile : Profile) (files : Dict Path Info) :
    Option (Dict String String) → Result Unit
  | some pins => files.forM (checkPin disk pins)
  | none => if profile = .strict then checkStrict files else .ok ()

/-- The files after loading: resolved, admitted and free of squats. -/
def loadFiles (disk : Disk) (std entry : Path) (profile : Profile) : Result (Dict Path Info) := do
  let pins ← readManifest disk
  let files ← resolveGraph disk std entry
  checkAdmission disk profile files pins
  checkMangleCollisions files
  return files

/-- The files of an entry and their parts of the merged program. -/
def analyzeParts (disk : Disk) (std entry : Path) (profile : Profile) :
    Result (Dict Path Info × List (Path × Ast.Program)) := do
  let files ← loadFiles disk std entry profile
  let tables ← (analysisOrder files).foldlM (analyzeFile disk profile) []
  let parts ← mergeParts files tables
  return (files, parts)

def analyzeEntry (disk : Disk) (std entry : Path) (profile : Profile) : Result Ast.Program := do
  let (_, parts) ← analyzeParts disk std entry profile
  return joinAsts (parts.map (·.2))

end Rynor.Lang.Module
