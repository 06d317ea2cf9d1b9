import Rynor.Lang.Module

/-! What the analyzer rejects as undeclared. A call, a record or a type is called unknown only when the tables the file
is analysed with lack its name, and a module only when the file does not import it. -/

set_option linter.unusedSectionVars false

namespace Rynor.Lang.Analyze
open Checks Lang.Module List

/-- The names that a fault may call unknown. -/
structure Unknown where
  function : String → Prop
  record : String → Prop
  module : String → Prop

def undeclaredCode : Code → Bool
  | .semUnknownFunction | .semUndeclared => true
  | _ => false

/-- A fault that is none of the undeclared ones, or one of them with the name it is about. A record has no such field
only when it is known, and a variable is not of another file. -/
inductive Blames (unknown : Unknown) : Fault → Prop
  | raised (exception : String) : Blames unknown (.raised exception)
  | other {code : Code} {message : String} (other : undeclaredCode code = false) : Blames unknown (.coded code message)
  | notName : Blames unknown (.coded .semUnknownFunction "called expression is not a function name")
  | function {callee : String} (absent : unknown.function callee) :
    Blames unknown (.coded .semUnknownFunction s!"unknown function '{callee}'")
  | record {callee : String} (absent : unknown.record callee) :
    Blames unknown (.coded .semUndeclared s!"unknown record '{callee}'")
  | type {text : String} (absent : ∀ stem base, splitQualified text = some (stem, base) →
    unknown.record (stem ++ "__" ++ base)) :
    Blames unknown (.coded .semUndeclared s!"unknown type '{text}'")
  | inType {ty : Ty} {name : String} (named : name ∈ nominalRefs ty) (absent : unknown.record name) :
    Blames unknown (.coded .semUndeclared s!"unknown record in type {ty}")
  | module {stem : String} (absent : unknown.module stem) :
    Blames unknown (.coded .semUndeclared s!"unknown module '{stem}'")
  | binding (name : String) : Blames unknown (.coded .semUndeclared s!"undeclared variable '{name}'")
  | field {record : String} (name : String) :
    Blames unknown (.coded .semUndeclared s!"record '{record}' has no field '{name}'")

lemma Blames.imp {unknown weaker : Unknown} {fault : Fault} (blames : Blames unknown fault)
    (functions : ∀ name, unknown.function name → weaker.function name)
    (records : ∀ name, unknown.record name → weaker.record name)
    (modules : ∀ stem, unknown.module stem → weaker.module stem) : Blames weaker fault := by
  cases blames with
  | raised exception => exact .raised exception
  | other other => exact .other other
  | notName => exact .notName
  | function absent => exact .function (functions _ absent)
  | record absent => exact .record (records _ absent)
  | type absent => exact .type fun stem base split => records _ (absent stem base split)
  | inType named absent => exact .inType named (records _ absent)
  | module absent => exact .module (modules _ absent)
  | binding name => exact .binding name
  | field name => exact .field name

/-- The tables have every name that is not unknown. -/
structure Covers (unknown : Unknown) (tables : Tables) : Prop where
  functions : ∀ name, tables.funcs.has name = false → unknown.function name
  records : ∀ name, tables.records.has name = false → unknown.record name
  modules : ∀ stem, tables.imports.has stem = false → unknown.module stem

/-- Every record that is not unknown has its size. -/
def Sized (unknown : Unknown) (sizes : Dict String Nat) : Prop := ∀ name, sizes.has name = false → unknown.record name

section
variable {unknown : Unknown} {tables : Tables} {α : Type} {code : Code} {message text : String} {failed : Prop}
  [Decidable failed]
  {next : Unit → Result α} {names : List String}

lemma check_stops (refused : failed → Blames unknown (.coded code message))
    (rest : ¬ failed → Stops (Blames unknown) (next ())) :
    Stops (Blames unknown) (check failed code message >>= next) := by
  unfold check
  by_cases holds : failed
  · rw [if_pos holds]
    exact .stop (refused holds)
  · rw [if_neg holds]
    exact rest holds

/-- A check with another code. -/
lemma passes (other : undeclaredCode code = false) (rest : Stops (Blames unknown) (next ())) :
    Stops (Blames unknown) (check failed code message >>= next) :=
  check_stops (fun _ => .other other) fun _ => rest

lemma check_other (other : undeclaredCode code = false) : Stops (Blames unknown) (check failed code message) := by
  unfold check
  split
  · exact .stop (.other other)
  · exact .ok

lemma fail_other (other : undeclaredCode code = false) : Stops (Blames unknown) (fail code message : Result α) :=
  .stop (.other other)

lemma onlyIf_stops {action : Result Unit} (stops : failed → Stops (Blames unknown) action) :
    Stops (Blames unknown) (onlyIf failed action) := by
  unfold onlyIf
  split
  next holds => exact stops holds
  · exact .ok

lemma enter_stops (depth : Nat) : Stops (Blames unknown) (enter depth) := by
  unfold enter
  split
  · exact fail_other rfl
  · exact .ok

/-! Declarations. -/

lemma checkParams_stops (seen names : List String) : Stops (Blames unknown) (checkParams seen names) := by
  induction names generalizing seen with
  | nil => exact .ok
  | cons name names ih => exact passes rfl (passes rfl (ih _))

lemma checkFields_stops (record : String) (seen names : List String) :
    Stops (Blames unknown) (checkFields record seen names) := by
  induction names generalizing seen with
  | nil => exact .ok
  | cons name names ih => exact passes rfl (ih _)

lemma collect_stops (item : Parse.Item) : Stops (Blames unknown) (collect tables item) := by
  cases item with
  | function decl => exact passes rfl (passes rfl ((checkParams_stops _ _).bind fun _ => .ok))
  | record decl => exact passes rfl (passes rfl ((checkFields_stops _ _ _).bind fun _ => .ok))
  | use path => exact .ok

/-! Types. -/

section
variable (covers : Covers unknown tables)
include covers

lemma qualify_stops (stem base : String) : Stops (Blames unknown) (tables.qualify stem base) :=
  check_stops (fun absent => .module (covers.modules stem absent)) fun _ => .ok

lemma resolveName_stops (text : String) : Stops (Blames unknown) (tables.resolveName text) := by
  unfold Tables.resolveName
  split
  · exact qualify_stops covers _ _
  · exact .ok

lemma mangleShape_stops (shape : Ty) : Stops (Blames unknown) (mangleShape tables shape) := by
  induction shape with
  | int | bool | str => exact .ok
  | nominal name => exact (resolveName_stops covers name).bind fun _ => .ok
  | list elem cap ih | status elem ih => exact ih.bind fun _ => .ok
  | map key value cap first second | result key value first second => exact first.bind fun _ => second.bind fun _ => .ok

lemma resolveNominal_stops (text : String) : Stops (Blames unknown) (resolveNominal tables text) := by
  unfold resolveNominal
  split
  next stem base split =>
    refine (qualify_stops covers stem base).after fun stored ran => ?_
    cases (check_ok_iff.mp ran).2
    refine check_stops (fun absent => .type fun own bare same => ?_) fun _ => .ok
    rw [split] at same
    cases same
    exact covers.records _ absent
  next plain =>
    refine passes rfl (check_stops (fun _ => .type fun stem base same => ?_) fun _ => .ok)
    rw [plain] at same
    cases same

end

lemma sizeOf_none {sizes : Dict String Nat} {ty : Ty} (unsized : sizeOf sizes ty = none) :
    ∃ name ∈ nominalRefs ty, sizes.has name = false := by
  induction ty with
  | int | bool | str => cases unsized
  | nominal name => exact ⟨name, mem_singleton_self _, by rw [Dict.has, show sizes.get? name = none from unsized]; rfl⟩
  | list elem cap ih | status elem ih =>
    exact ih (Option.eq_none_iff_forall_ne_some.mpr (by simpa [sizeOf] using unsized))
  | map key value cap first second =>
    cases size : sizeOf sizes key with
    | none =>
      obtain ⟨name, inside, absent⟩ := first size
      exact ⟨name, mem_append_left _ inside, absent⟩
    | some _ =>
      obtain ⟨name, inside, absent⟩ := second
        (Option.eq_none_iff_forall_ne_some.mpr (by simpa [sizeOf, size] using unsized))
      exact ⟨name, mem_append_right _ inside, absent⟩
  | result payload error first second =>
    cases size : sizeOf sizes error with
    | none =>
      obtain ⟨name, inside, absent⟩ := second size
      exact ⟨name, mem_append_right _ inside, absent⟩
    | some _ =>
      obtain ⟨name, inside, absent⟩ := first
        (Option.eq_none_iff_forall_ne_some.mpr (by simpa [sizeOf, size] using unsized))
      exact ⟨name, mem_append_left _ inside, absent⟩

lemma checkTypeBounded_stops {sizes : Dict String Nat} (sized : Sized unknown sizes) (ty : Ty) :
    Stops (Blames unknown) (checkTypeBounded sizes ty) := by
  unfold checkTypeBounded
  split
  · exact .ok
  split
  next none =>
    obtain ⟨name, inside, absent⟩ := sizeOf_none none
    exact .stop (.inType inside (sized name absent))
  · exact check_other rfl

lemma checkCoreShape_stops (ty : Ty) : Stops (Blames unknown) (checkCoreShape ty) := by
  unfold checkCoreShape
  split
  · exact fail_other rfl
  · exact .ok

lemma typeFault_blames (fault : TypeFault) : Blames unknown (typeFault fault) := by
  cases fault <;> exact .other rfl

lemma resolveType_stops (covers : Covers unknown tables) {checkSize : Bool}
    (sized : checkSize = true → Sized unknown tables.sizes) (shape : Ty) :
    Stops (Blames unknown) (resolveType tables checkSize shape) := by
  have whole : Stops (Blames unknown) (resolveShape tables checkSize shape) := by
    refine .bind ?_ fun _ => (mangleShape_stops covers shape).bind fun ty => ?_
    · cases validateType shape 0 with
      | none => exact .ok
      | some fault => exact .stop (typeFault_blames fault)
    refine (onlyIf_stops fun _ => checkCoreShape_stops ty).bind fun _ => ?_
    exact (onlyIf_stops fun asked => checkTypeBounded_stops (sized asked) ty).bind fun _ => .ok
  unfold resolveType
  split
  · exact resolveNominal_stops covers _
  · exact whole

/-! The sizes of records. -/

section
variable {records : Dict String Rec} {sizes : Dict String Nat} {fuel : Nat} {busy : List String} {name : String}

lemma recSize_stops : Stops (Blames unknown) (recSize records fuel busy sizes name) := by
  induction fuel generalizing busy sizes name with
  | zero => exact .stop (.raised _)
  | succ fuel ih =>
    unfold recSize
    split
    · exact .ok
    refine passes rfl ?_
    split
    · exact .stop (.raised _)
    exact .bind (.loop fun field state => .bind (.loop fun name sizes => ih) fun _ => .ok) fun _ => passes rfl .ok

lemma recSize_gives :
    Gives (recSize records fuel busy sizes name) fun next => name ∈ next.keys ∧ sizes.keys ⊆ next.keys := by
  induction fuel generalizing busy sizes name with
  | zero => exact .stop
  | succ fuel ih =>
    unfold recSize
    split
    next known => exact .ok ⟨Dict.has_iff_mem_keys.mp known, Subset.refl _⟩
    refine check_gives fun _ => ?_
    split
    · exact .stop
    have fields : ∀ (fields : List (String × Ty)) (start : Nat × Dict String Nat), sizes.keys ⊆ start.2.keys →
        Gives (fields.foldlM (fieldSize (recSize records fuel (name :: busy))) start) fun last =>
          sizes.keys ⊆ last.2.keys := by
      intro fields start before
      refine Gives.loop (fun field _ state before => ?_) before
      have inner : Gives (((nominalRefs field.2).dedup.insertionSort (· ≤ ·)).foldlM
          (recSize records fuel (name :: busy)) state.2) fun known => sizes.keys ⊆ known.keys :=
        Gives.loop (fun name _ known before => ih.imp fun _ both => List.Subset.trans before both.2) before
      exact .bind inner fun known after => .ok after
    refine .bind (fields _ _ (Subset.refl _)) fun last kept => check_gives fun _ => .ok ?_
    exact ⟨Dict.mem_keys_set.mpr (.inl rfl), fun other inside => Dict.mem_keys_set.mpr (.inr (kept inside))⟩

end

/-! Expressions. -/

section
variable {child left right : Lowering} {kids : List Lowering} {expected hint : Option Ty} {what : String}

/-- A child that is lowered to a tree or rejected so, whatever type is expected of it. -/
def Lowers (unknown : Unknown) (child : Lowering) : Prop := ∀ expected, Stops (Blames unknown) (child expected)

lemma lowerTyped_stops (lowers : Lowers unknown child) {want} :
    Stops (Blames unknown) (lowerTyped child hint want what) :=
  (lowers hint).bind fun _ => passes rfl .ok

lemma checkBinary_stops (op : BinOp) (first second : Ty) :
    Stops (Blames unknown) (checkBinary tables op first second) := by
  cases op <;> exact passes rfl .ok

lemma lowerBinary_stops (op : BinOp) (first : Lowers unknown left) (second : Lowers unknown right) :
    Stops (Blames unknown) (lowerBinary tables op left right) :=
  (first none).bind fun _ => passes rfl ((second none).bind fun _ =>
    passes rfl ((checkBinary_stops op _ _).bind fun _ => .ok))

lemma lowerListLit_stops (sized : Sized unknown tables.sizes) (lowers : ∀ kid ∈ kids, Lowers unknown kid) :
    Stops (Blames unknown) (lowerListLit tables kids expected) := by
  unfold lowerListLit
  split
  · exact passes rfl ((Stops.mapM fun kid inside => lowerTyped_stops (lowers kid inside)).bind fun _ => .ok)
  · exact fail_other rfl
  · exact fail_other rfl
  next kid rest =>
    refine (lowers kid mem_cons_self none).bind fun _ => passes rfl ?_
    refine (Stops.mapM fun other inside => lowerTyped_stops (lowers other (mem_cons_of_mem _ inside))).bind fun _ => ?_
    exact (checkTypeBounded_stops sized _).bind fun _ => .ok

lemma checkDupKeys_stops (seen : List (Ty × String)) (entries : List (Parse.Expr × Parse.Expr)) :
    Stops (Blames unknown) (checkDupKeys seen entries) := by
  induction entries generalizing seen with
  | nil => exact .ok
  | cons entry entries ih =>
    unfold checkDupKeys
    split
    · exact ih _
    · exact passes rfl (ih _)

lemma lowerMapLit_stops {kids : List (Lowering × Lowering)} (sized : Sized unknown tables.sizes)
    (lowers : ∀ kid ∈ kids, Lowers unknown kid.1 ∧ Lowers unknown kid.2) :
    Stops (Blames unknown) (lowerMapLit tables kids expected) := by
  have entry : ∀ {keyHint valueHint key value}, ∀ kid ∈ kids,
      Stops (Blames unknown) (lowerEntry keyHint valueHint key value kid) := by
    intro _ _ _ _ kid inside
    obtain ⟨key, value⟩ := lowers kid inside
    exact (lowerTyped_stops key).bind fun _ => (lowerTyped_stops value).bind fun _ => .ok
  unfold lowerMapLit
  split
  · exact passes rfl ((Stops.mapM entry).bind fun _ => .ok)
  · exact fail_other rfl
  · exact fail_other rfl
  next kid rest =>
    obtain ⟨key, value⟩ := lowers kid mem_cons_self
    refine (key none).bind fun _ => passes rfl ((value none).bind fun _ => ?_)
    refine (Stops.mapM fun other inside => entry other (mem_cons_of_mem _ inside)).bind fun _ => ?_
    exact (checkTypeBounded_stops sized _).bind fun _ => .ok

lemma lowerIndex_stops (obj : Lowers unknown left) (idx : Lowers unknown right) :
    Stops (Blames unknown) (lowerIndex left right) := by
  refine (obj none).bind fun result => ?_
  obtain ⟨expr, ty⟩ := result
  dsimp only
  split
  · exact (lowerTyped_stops idx).bind fun _ => .ok
  · exact fail_other rfl

lemma lowerField_stops (obj : Lowers unknown child) (want : String) :
    Stops (Blames unknown) (lowerField tables child want) := by
  refine (obj none).bind fun result => ?_
  obtain ⟨expr, ty⟩ := result
  dsimp only
  split
  · exact fail_other rfl
  split
  · exact .stop (.field want)
  · exact .ok

lemma checkInits_stops (record : String) (want seen names : List String) :
    Stops (Blames unknown) (checkInits record want seen names) := by
  induction names generalizing seen with
  | nil => exact .ok
  | cons name names ih => exact passes rfl (check_stops (fun _ => .field name) fun _ => ih _)

lemma constructRecord_stops (covers : Covers unknown tables) {inits : List (String × Lowering)}
    (lowers : ∀ init ∈ inits, Lowers unknown init.2) :
    Stops (Blames unknown) (constructRecord tables text inits) := by
  refine (resolveName_stops covers text).bind fun callee => passes rfl ?_
  split
  next absent => exact .stop (.record (covers.records callee (by rw [Dict.has, absent]; rfl)))
  refine (checkInits_stops _ _ _ _).bind fun _ => passes rfl ?_
  refine (Stops.mapM fun field _ => ?_).bind fun _ => .ok
  unfold lowerInit
  split
  · exact .stop (.raised _)
  next init found => exact (lowerTyped_stops (lowers _ (Dict.get?_eq_some_mem found))).bind fun _ => .ok

lemma operand_stops (lowers : Lowers unknown child) (callee : String) (hint : Option Ty) :
    Stops (Blames unknown) (operand callee child hint) :=
  (lowers hint).bind fun _ => passes rfl .ok

lemma typedOperand_stops (lowers : Lowers unknown child) {callee what hint want} :
    Stops (Blames unknown) (typedOperand callee what child hint want) :=
  (operand_stops lowers callee hint).bind fun _ => passes rfl .ok

lemma lowerVariant_stops (lowers : Lowers unknown child) {builtin which} :
    Stops (Blames unknown) (lowerVariant builtin which child expected) := by
  unfold lowerVariant
  split
  · exact (typedOperand_stops lowers).bind fun _ => .ok
  · exact fail_other rfl

section
variable {builtin : Builtin} {arg : Ast.Expr} {ty : Ty}

lemma lowerOfStatus_stops (lowers : Lowers unknown child) :
    Stops (Blames unknown) (lowerOfStatus builtin arg ty child) := by
  cases ty with
  | status payload => exact (typedOperand_stops lowers).bind fun _ => .ok
  | int | bool | str | nominal | list | map | result => exact fail_other rfl

lemma lowerOfList_stops (lowers : Lowers unknown child) :
    Stops (Blames unknown) (lowerOfList builtin arg ty child) := by
  cases ty with
  | list elem cap => exact (typedOperand_stops lowers).bind fun _ => .ok
  | int | bool | str | nominal | status | map | result => exact fail_other rfl

lemma lowerInsert_stops (key : Lowers unknown left) (value : Lowers unknown right) :
    Stops (Blames unknown) (lowerInsert builtin arg ty left right) := by
  cases ty with
  | map => exact (typedOperand_stops key).bind fun _ => (typedOperand_stops value).bind fun _ => .ok
  | int | bool | str | nominal | status | list | result => exact fail_other rfl

lemma lowerGet_stops (lowers : Lowers unknown child) : Stops (Blames unknown) (lowerGet builtin arg ty child) := by
  cases ty with
  | map => exact (typedOperand_stops lowers).bind fun _ => .ok
  | int | bool | str | nominal | status | list | result => exact fail_other rfl

end

lemma lowerBuiltin_stops (builtin : Builtin) (lowers : ∀ kid ∈ kids, Lowers unknown kid) :
    Stops (Blames unknown) (lowerBuiltin tables builtin kids expected) := by
  have first : ∀ {own : Builtin} {kid : Lowering} {next : Ast.Expr × Ty → Result (Ast.Expr × Ty)}, kid ∈ kids →
      (∀ arg ty, Stops (Blames unknown) (next (arg, ty))) →
        Stops (Blames unknown) (operand own.text kid none >>= next) :=
    fun inside rest => (operand_stops (lowers _ inside) _ none).bind fun result => rest result.1 result.2
  refine passes rfl ?_
  split
  · refine first (by simp) fun arg ty => ?_
    cases ty <;> first | exact .ok | exact fail_other rfl
  · refine first (by simp) fun arg ty => ?_
    cases ty <;> first | exact .ok | exact fail_other rfl
  · refine first (by simp) fun arg ty => ?_
    cases ty <;> first | exact .ok | exact fail_other rfl
  · exact first (by simp) fun _ _ => lowerOfStatus_stops (lowers _ (by simp))
  · exact first (by simp) fun _ _ => lowerOfList_stops (lowers _ (by simp))
  · exact first (by simp) fun _ _ => lowerInsert_stops (lowers _ (by simp)) (lowers _ (by simp))
  · exact first (by simp) fun _ _ => lowerGet_stops (lowers _ (by simp))
  · refine (typedOperand_stops (lowers _ (by simp))).bind fun _ => ?_
    exact (typedOperand_stops (lowers _ (by simp))).bind fun _ => .ok
  · refine (typedOperand_stops (lowers _ (by simp))).bind fun _ =>
      (typedOperand_stops (lowers _ (by simp))).bind fun _ => ?_
    exact (typedOperand_stops (lowers _ (by simp))).bind fun _ => .ok
  · refine (typedOperand_stops (lowers _ (by simp))).bind fun _ => ?_
    exact (typedOperand_stops (lowers _ (by simp))).bind fun _ => .ok
  · exact (typedOperand_stops (lowers _ (by simp))).bind fun _ => .ok
  · exact lowerVariant_stops (lowers _ (by simp))
  · exact lowerVariant_stops (lowers _ (by simp))
  · exact fail_other rfl

lemma checkCorePrintable_stops (ty : Ty) : Stops (Blames unknown) (checkCorePrintable ty) := by
  induction ty with
  | int | bool | str => exact .ok
  | status payload ih => exact ih
  | nominal | list | map | result => exact fail_other rfl

lemma lowerPrint_stops (lowers : ∀ kid ∈ kids, Lowers unknown kid) :
    Stops (Blames unknown) (lowerPrint tables kids) := by
  unfold lowerPrint
  split
  · refine (operand_stops (lowers _ mem_cons_self) _ none).bind fun _ => passes rfl ?_
    exact (onlyIf_stops fun _ => checkCorePrintable_stops _).bind fun _ => .ok
  · exact fail_other rfl

lemma lowerArgs_stops (callee : String) (lowers : ∀ kid ∈ kids, Lowers unknown kid) (want : List Ty) :
    Stops (Blames unknown) (lowerArgs callee kids want) := by
  induction kids generalizing want with
  | nil => exact .ok
  | cons kid kids ih =>
    refine (operand_stops (lowers kid mem_cons_self) callee _).bind fun _ => ?_
    exact (ih (fun other inside => lowers other (mem_cons_of_mem _ inside)) _).bind fun _ => .ok

lemma checkArgs_stops (callee : String) (index : Nat) (pairs : List (Ty × Ty)) :
    Stops (Blames unknown) (checkArgs callee index pairs) := by
  induction pairs generalizing index with
  | nil => exact .ok
  | cons pair pairs ih => exact passes rfl (ih _)

lemma lowerCall_stops (covers : Covers unknown tables) (lowers : ∀ kid ∈ kids, Lowers unknown kid) :
    Stops (Blames unknown) (lowerCall tables text kids expected) := by
  refine (resolveName_stops covers text).bind fun callee => ?_
  split
  · exact lowerPrint_stops lowers
  split
  · exact lowerBuiltin_stops _ lowers
  split
  · exact passes rfl (constructRecord_stops covers nofun)
  unfold lowerFunctionCall
  split
  next absent => exact .stop (.function (covers.functions callee (by rw [Dict.has, absent]; rfl)))
  refine (lowerArgs_stops _ lowers _).bind fun _ => passes rfl ?_
  exact (checkArgs_stops _ _ _).bind fun _ => .ok

end

section
variable (covers : Covers unknown tables) (sized : Sized unknown tables.sizes) (scopes : Scopes)
include covers sized

mutual

theorem lowerExpr_lowers (depth : Nat) : ∀ expr : Parse.Expr, Lowers unknown (lowerExpr tables scopes depth expr)
  | .int _ | .bool _ => fun _ => .ok
  | .str _ => fun _ => passes rfl .ok
  | .name text => fun _ => by
    show Stops _ (lowerIdentifier scopes text)
    unfold lowerIdentifier
    split
    · exact .stop (.binding text)
    · exact .ok
  | .group inner => fun expected => (enter_stops depth).bind fun depth => lowerExpr_lowers depth inner expected
  | .unary _ operand => fun _ => (enter_stops depth).bind fun depth =>
    (lowerExpr_lowers depth operand none).bind fun _ => passes rfl (passes rfl .ok)
  | .binary op left right => fun _ => lowerBinary_stops op (lowerExpr_lowers depth left) (lowerExpr_lowers depth right)
  | .list elems => fun _ => (enter_stops depth).bind fun depth => lowerListLit_stops sized (lowerAll_lowers depth elems)
  | .map entries => fun _ => (checkDupKeys_stops [] entries).bind fun _ => (enter_stops depth).bind fun depth =>
    lowerMapLit_stops sized (lowerEntries_lowers depth entries)
  | .index obj idx => fun _ => lowerIndex_stops (lowerExpr_lowers depth obj) (lowerExpr_lowers depth idx)
  | .field obj name => fun _ => lowerField_stops (lowerExpr_lowers depth obj) name
  | .record _ inits => fun _ => (enter_stops depth).bind fun depth =>
    constructRecord_stops covers (lowerInits_lowers depth inits)
  | .call (.name _) args => fun _ => (enter_stops depth).bind fun depth =>
    lowerCall_stops covers (lowerAll_lowers depth args)
  | .call (.int _) _ | .call (.str _) _ | .call (.bool _) _ | .call (.group _) _ | .call (.unary ..) _
  | .call (.binary ..) _
  | .call (.list _) _ | .call (.map _) _ | .call (.index ..) _ | .call (.field ..) _ | .call (.record ..) _
  | .call (.call ..) _ =>
    fun _ => (enter_stops depth).bind fun _ => .stop .notName

theorem lowerAll_lowers (depth : Nat) :
    ∀ exprs : List Parse.Expr, ∀ kid ∈ lowerAll tables scopes depth exprs, Lowers unknown kid
  | [] => nofun
  | expr :: rest => forall_mem_cons.mpr ⟨lowerExpr_lowers depth expr, lowerAll_lowers depth rest⟩

theorem lowerEntries_lowers (depth : Nat) : ∀ entries : List (Parse.Expr × Parse.Expr),
    ∀ kid ∈ lowerEntries tables scopes depth entries, Lowers unknown kid.1 ∧ Lowers unknown kid.2
  | [] => nofun
  | (key, value) :: rest =>
    forall_mem_cons.mpr ⟨⟨lowerExpr_lowers depth key, lowerExpr_lowers depth value⟩, lowerEntries_lowers depth rest⟩

theorem lowerInits_lowers (depth : Nat) :
    ∀ inits : List (String × Parse.Expr), ∀ init ∈ lowerInits tables scopes depth inits, Lowers unknown init.2
  | [] => nofun
  | (_, value) :: rest => forall_mem_cons.mpr ⟨lowerExpr_lowers depth value, lowerInits_lowers depth rest⟩

end
end

/-! Statements. -/

section
variable {env : Env} {β : Type}

lemma lowerBlock_stops {body : Nat → Env → Result (β × Env)}
    (each : ∀ depth env, Stops (Blames unknown) (body depth env)) (depth : Nat)
    (bound : Dict String (Int × Ty)) : Stops (Blames unknown) (lowerBlock depth bound body env) :=
  (enter_stops depth).bind fun depth => (each depth _).bind fun _ => .ok

lemma lowerLet_stops (covers : Covers unknown tables) (sized : Sized unknown tables.sizes) {child : Lowering}
    (lowers : Lowers unknown child)
    (name : String) (shape : Ty) : Stops (Blames unknown) (lowerLet tables name shape child env) := by
  refine (resolveType_stops covers (fun _ => sized) shape).bind fun ty => (lowers (some ty)).bind fun _ =>
    passes rfl (passes rfl ?_)
  refine .bind (passes rfl (passes rfl (passes rfl (passes rfl ?_)))) fun _ => .ok
  split
  · exact .stop (.raised _)
  · exact .ok

lemma lowerReturn_stops {value : Option Lowering} (lowers : ∀ child ∈ value, Lowers unknown child) (ret : Option Ty) :
    Stops (Blames unknown) (lowerReturn ret value) := by
  unfold lowerReturn
  split
  · exact .ok
  · exact fail_other rfl
  next child =>
    refine (lowers child rfl _).bind fun result => ?_
    obtain ⟨expr, ty⟩ := result
    dsimp only
    split
    · exact fail_other rfl
    · exact passes rfl (passes rfl .ok)

lemma payloads_stops (ty : Ty) : Stops (Blames unknown) (payloads tables ty) := by
  cases ty with
  | int | bool | str | status => exact .ok
  | result => exact passes rfl .ok
  | nominal | list | map => exact fail_other rfl

lemma lowerPattern_stops (scrutinee okTy errTy : Ty) (pattern : Parse.Pattern) :
    Stops (Blames unknown) (lowerPattern scrutinee okTy errTy pattern) := by
  cases pattern with
  | wild | bind => exact .ok
  | lit => exact passes rfl .ok
  | ctor which sub =>
    refine passes rfl ?_
    cases sub with
    | wild | bind => exact .ok
    | lit => exact passes rfl .ok

lemma cover_stops (covered : Covered) (pattern : Parse.Pattern) : Stops (Blames unknown) (cover covered pattern) := by
  cases pattern with
  | wild | bind => exact .ok
  | lit => exact passes rfl .ok
  | ctor which => cases which <;> exact passes rfl .ok

lemma lowerArmPattern_stops (scrutinee okTy errTy : Ty) (scopes : Scopes) (covered : Covered)
    (pattern : Parse.Pattern) :
    Stops (Blames unknown) (lowerArmPattern tables scrutinee okTy errTy scopes covered pattern) := by
  refine passes rfl ((lowerPattern_stops _ _ _ _).bind fun binding => (cover_stops _ _).bind fun _ => ?_)
  split
  · exact .ok
  · exact passes rfl .ok

end

section
variable (covers : Covers unknown tables) (sized : Sized unknown tables.sizes)
include covers sized

lemma lowerCond_stops (scopes : Scopes) (depth : Nat) (what : String) (cond : Parse.Expr) :
    Stops (Blames unknown) (lowerCond what (lowerExpr tables scopes depth cond)) :=
  lowerTyped_stops (lowerExpr_lowers covers sized scopes depth cond)

mutual

theorem lowerStmt_stops (ret : Option Ty) (depth loops : Nat) : ∀ (stmt : Parse.Stmt) (env : Env),
    Stops (Blames unknown) (lowerStmt tables ret depth loops stmt env)
  | .letS name ty init, env => lowerLet_stops covers sized (lowerExpr_lowers covers sized _ depth init) name ty
  | .ret value, env => (lowerReturn_stops (fun child inside => by
      obtain ⟨expr, _, rfl⟩ := Option.map_eq_some_iff.mp inside
      exact lowerExpr_lowers covers sized _ depth expr) ret).bind fun _ => .ok
  | .ifS cond thenB none, env => (enter_stops depth).bind fun depth =>
    (lowerCond_stops covers sized _ depth _ cond).bind fun _ =>
    (lowerBlock_stops (fun depth env => lowerStmts_stops ret depth loops thenB env) depth []).bind fun _ => .ok
  | .ifS cond thenB (some elseB), env => (enter_stops depth).bind fun depth =>
    (lowerCond_stops covers sized _ depth _ cond).bind fun _ =>
    (lowerBlock_stops (fun depth env => lowerStmts_stops ret depth loops thenB env) depth []).bind fun _ =>
      (lowerStmt_stops ret depth loops elseB _).bind fun _ => .ok
  | .whileS cond body, env => (lowerCond_stops covers sized _ depth _ cond).bind fun _ =>
    (lowerBlock_stops (fun depth env => lowerStmts_stops ret depth (loops + 1) body env) depth []).bind fun _ => .ok
  | .breakS, _ | .continueS, _ => passes rfl .ok
  | .matchS scrut arms, env => (lowerExpr_lowers covers sized _ depth scrut none).bind fun _ =>
    (payloads_stops _).bind fun _ =>
    (lowerArms_stops ret depth loops _ _ _ arms _ env).bind fun _ => passes rfl .ok
  | .expr expr, env => (lowerExpr_lowers covers sized _ depth expr none).bind fun _ => .ok
  | .use _, _ => .ok
  | .block stmts, env => (lowerBlock_stops (fun depth env => lowerStmts_stops ret depth loops stmts env) depth
    []).bind fun _ => .ok

theorem lowerStmts_stops (ret : Option Ty) (depth loops : Nat) : ∀ (stmts : List Parse.Stmt) (env : Env),
    Stops (Blames unknown) (lowerStmts tables ret depth loops stmts env)
  | [], _ => .ok
  | stmt :: rest, env => (lowerStmt_stops ret depth loops stmt env).bind fun _ =>
    (lowerStmts_stops ret depth loops rest _).bind fun _ => .ok

theorem lowerArms_stops (ret : Option Ty) (depth loops : Nat) (scrutinee okTy errTy : Ty) :
    ∀ (arms : List (Parse.Pattern × List Parse.Stmt)) (covered : Covered) (env : Env),
      Stops (Blames unknown) (lowerArms tables ret depth loops scrutinee okTy errTy arms covered env)
  | [], _, _ => .ok
  | (pattern, body) :: rest, covered, _ => (lowerArmPattern_stops _ _ _ _ covered pattern).bind fun _ =>
    (lowerBlock_stops (fun depth env => lowerStmts_stops ret depth loops body env) depth _).bind fun _ =>
      (lowerArms_stops ret depth loops scrutinee okTy errTy rest _ _).bind fun _ => .ok

end

lemma lowerItem_stops (state : Ast.Program × Int) (item : Parse.Item) :
    Stops (Blames unknown) (lowerItem tables state item) := by
  cases item with
  | function decl =>
    refine .bind ?_ fun _ => .ok
    unfold lowerFunction
    split
    · exact .stop (.raised _)
    · exact (enter_stops 0).bind fun depth =>
        (lowerBlock_stops (fun depth env => lowerStmts_stops covers sized _ depth 0 decl.body env) depth []).bind
          fun _ => .ok
  | record decl =>
    refine .bind ?_ fun _ => .ok
    unfold lowerRecord
    split
    · exact .stop (.raised _)
    · exact .ok
  | use path => exact .ok

end
end

end Rynor.Lang.Analyze
