import Rynor.Proofs.AnalyzeFaults

/-! Whole files: the stable AST lists the declarations of a file in source order under their stored names, and a file
is rejected as undeclared only for names that its imports do not have. -/

namespace Rynor.Lang.Analyze
open Checks Lang.Module List

section
variable {program items : Parse.Program} {external : External} {imports : Dict String Path} {stem : Option String}
  {profile : Profile} {tables next old new last : Tables} {name : String} {names : List String} {item : Parse.Item}
  {state : Ast.Program × Int}

/-- The first pass over some items, over the tables it started with. -/
structure Collected (external : External) (imports : Dict String Path) (stem : Option String) (items : Parse.Program)
    (tables : Tables) : Prop where
  selfAlias : tables.selfAlias = stem
  imports : tables.imports = imports
  own : ∀ name, tables.own.get? name = if name ∈ declaredNames items then some (storedName stem name) else none
  funcs : external.funcs.keys ⊆ tables.funcs.keys
  records : external.records.keys ⊆ tables.records.keys

lemma seeded_collected : Collected external imports stem [] (seeded external imports stem profile) where
  selfAlias := rfl
  imports := rfl
  own _ := rfl
  funcs := List.Subset.refl _
  records := List.Subset.refl _

lemma own_snoc {own : Dict String String} (known : ∀ name, own.get? name =
    if name ∈ names then some (storedName stem name) else none) (fresh other : String) :
    (own.set fresh (storedName stem fresh)).get? other = if other ∈ names ++
    [fresh] then some (storedName stem other) else none := by
  rw [Dict.get?_set, known]
  by_cases same : fresh = other
  · subst same
    rw [if_pos rfl, if_pos (mem_append_right _ mem_cons_self)]
  rw [if_neg same]
  refine if_congr ?_ rfl rfl
  rw [mem_append, mem_singleton]
  exact ⟨.inl, fun either => either.resolve_right fun equal => same equal.symm⟩

lemma subset_keys_set {α : Type} {seeds : List String} {dict : Dict String α} (within : seeds ⊆ dict.keys)
    (key : String) (value : α) :
    seeds ⊆ (dict.set key value).keys :=
  fun _ inside => Dict.mem_keys_set.mpr (.inr (within inside))

lemma collect_collected (collected : Collected external imports stem items tables) :
    Gives (collect tables item) (Collected external imports stem (items ++ [item])) := by
  have stored : ∀ name, tables.stored name = storedName stem name := fun name => by
    rw [Tables.stored, collected.selfAlias]
  have names : ∀ {name}, declaredNames [item] = [name] → declaredNames (items ++ [item]) =
    declaredNames items ++ [name] :=
    fun named => filterMap_append.trans (congrArg _ named)
  cases item with
  | function decl =>
    refine .skip fun _ => .skip fun _ => .skip fun _ =>
      .ok ⟨collected.selfAlias, collected.imports, ?_, ?_, collected.records⟩
    · rw [names rfl, stored]
      exact own_snoc collected.own _
    · exact subset_keys_set collected.funcs _ _
  | record decl =>
    refine .skip fun _ => .skip fun _ => .skip fun _ =>
      .ok ⟨collected.selfAlias, collected.imports, ?_, collected.funcs, ?_⟩
    · rw [names rfl, stored]
      exact own_snoc collected.own _
    · exact subset_keys_set collected.records _ _
  | use path =>
    have same : declaredNames (items ++ [.use path]) = declaredNames items := filterMap_append.trans (append_nil _)
    exact .ok ⟨collected.selfAlias, collected.imports, same ▸ collected.own, collected.funcs, collected.records⟩

/-! The passes behind it. -/

/-- Tables with the same own names and imports and with no fewer declarations. -/
structure Grows (old new : Tables) : Prop where
  own : new.own = old.own
  imports : new.imports = old.imports
  funcs : old.funcs.keys ⊆ new.funcs.keys
  records : old.records.keys ⊆ new.records.keys

lemma Grows.refl (tables : Tables) : Grows tables tables := ⟨rfl, rfl, List.Subset.refl _, List.Subset.refl _⟩

lemma Grows.trans (first : Grows old new) (second : Grows new last) : Grows old last where
  own := second.own.trans first.own
  imports := second.imports.trans first.imports
  funcs := List.Subset.trans first.funcs second.funcs
  records := List.Subset.trans first.records second.records

lemma numberFunctions_grows (counter : Int) (decls : List Parse.FunctionDef) :
    Grows tables (numberFunctions tables counter decls).1 := by
  induction decls generalizing tables counter with
  | nil => exact .refl tables
  | cons decl decls ih =>
    refine Grows.trans ?_ (ih _)
    unfold numberFunction
    split
    · exact .refl tables
    · exact ⟨rfl, rfl, subset_keys_set (List.Subset.refl _) _ _, List.Subset.refl _⟩

lemma numberRecords_grows (counter : Int) (decls : List Parse.RecordDecl) :
    Grows tables (numberRecords tables counter decls).1 := by
  induction decls generalizing tables counter with
  | nil => exact .refl tables
  | cons decl decls ih =>
    refine Grows.trans ?_ (ih _)
    unfold numberRecord
    split
    · exact .refl tables
    · exact ⟨rfl, rfl, List.Subset.refl _, subset_keys_set (List.Subset.refl _) _ _⟩

lemma number_grows (program : Parse.Program) : Grows tables (number program tables).1 :=
  (numberFunctions_grows 0 program.functions).trans (numberRecords_grows _ program.records)

lemma resolveFields_gives (entry : String × Rec) :
    Gives (resolveFields tables entry) fun result => entry.1 = result.1 := by
  unfold resolveFields
  dsimp only
  split
  · exact .ok rfl
  · exact .skip fun _ => .ok rfl

/-- Every record has its size from here on. -/
lemma resolveRecordFields_gives :
    Gives (resolveRecordFields tables) fun next => Grows tables next ∧ next.records.keys ⊆ next.sizes.keys := by
  refine .bind (.mapM resolveFields_gives) fun records steps => ?_
  have keys : Dict.keys tables.records = Dict.keys records :=
    forall₂_eq_eq_eq ▸ forall₂_map_left_iff.mpr (forall₂_map_right_iff.mpr steps)
  have sized : Gives ((Dict.keys records).foldlM (recSize records (records.length + 1) []) tables.sizes)
      fun sizes => Dict.keys records ⊆ sizes.keys := by
    have step : ∀ name ∈ Dict.keys records, ∀ done sizes, done ⊆ Dict.keys sizes →
        Gives (recSize records (records.length + 1) [] sizes name) fun next => done ++ [name] ⊆ next.keys :=
      fun name _ done sizes before => recSize_gives.imp fun next both =>
        append_subset.mpr ⟨List.Subset.trans before both.2, cons_subset.mpr ⟨both.1, nil_subset _⟩⟩
    exact .foldlM step (nil_subset _)
  refine .bind sized fun sizes within => .ok ⟨⟨rfl, rfl, List.Subset.refl _, ?_⟩, within⟩
  rw [keys]
  exact List.Subset.refl _

lemma resolveSignature_gives (decl : Parse.FunctionDef) : Gives (resolveSignature tables decl) fun next =>
    Grows tables next ∧ next.records = tables.records ∧ next.sizes = tables.sizes := by
  unfold resolveSignature
  split
  · exact .stop
  · refine .skip fun _ => .skip fun _ => .ok ⟨⟨rfl, rfl, ?_, List.Subset.refl _⟩, rfl, rfl⟩
    exact subset_keys_set (List.Subset.refl _) _ _

/-- The tables the bodies of a file are lowered with. -/
structure Declared (external : External) (imports : Dict String Path) (stem : Option String) (program : Parse.Program)
    (tables : Tables) : Prop where
  own : ∀ name, tables.own.get? name = if name ∈ declaredNames program then some (storedName stem name) else none
  imports : tables.imports = imports
  funcs : external.funcs.keys ⊆ tables.funcs.keys
  records : external.records.keys ⊆ tables.records.keys
  sizes : tables.records.keys ⊆ tables.sizes.keys

lemma Collected.declared (collected : Collected external imports stem program tables) (grows : Grows tables next)
    (sizes : next.records.keys ⊆ next.sizes.keys) : Declared external imports stem program next where
  own := grows.own ▸ collected.own
  imports := grows.imports.trans collected.imports
  funcs := List.Subset.trans collected.funcs grows.funcs
  records := List.Subset.trans collected.records grows.records
  sizes := sizes

lemma Declared.top (declared : Declared external imports stem program tables) (inside : name ∈ declaredNames program) :
    tables.top name = storedName stem name := by
  rw [Tables.top, declared.own, if_pos inside]
  rfl

lemma resolveSignature_declared (declared : Declared external imports stem program tables) (decl : Parse.FunctionDef) :
    Gives (resolveSignature tables decl) (Declared external imports stem program) := by
  refine (resolveSignature_gives decl).imp fun next step => ?_
  obtain ⟨grows, records, sizes⟩ := step
  refine ⟨grows.own ▸ declared.own, grows.imports.trans declared.imports,
    List.Subset.trans declared.funcs grows.funcs, ?_, ?_⟩
  · rw [records]
    exact declared.records
  · rw [records, sizes]
    exact declared.sizes

/-- The tables before the signatures are resolved. -/
lemma resolveRecordFields_declared (collected : Collected external imports stem program tables) :
    Gives (resolveRecordFields (number program tables).1) (Declared external imports stem program) :=
  resolveRecordFields_gives.imp fun _ both => collected.declared ((number_grows program).trans both.1) both.2

lemma collects :
    Gives (program.foldlM collect (seeded external imports stem profile)) (Collected external imports stem program) :=
  .foldlM (fun _ _ _ _ => collect_collected) seeded_collected

lemma declarations_gives : Gives (declarations program (seeded external imports stem profile)) fun result =>
    Declared external imports stem program result.1 := by
  refine .bind collects fun first collected => .skip fun _ => ?_
  refine .bind (resolveRecordFields_declared collected) fun second declared => ?_
  refine .bind (.loop (fun decl _ tables before => resolveSignature_declared before decl) declared) fun third
    signed => ?_
  exact .ok signed

/-! Rejected files. -/

/-- What a file that starts with these globals does not know. -/
def unknownTo (external : External) (imports : Dict String Path) : Unknown where
  function name := external.funcs.has name = false
  record name := external.records.has name = false
  module stem := imports.has stem = false

lemma absent_of_subset {α β : Type} {small : Dict String α} {large : Dict String β} (within : small.keys ⊆ large.keys)
    (absent : large.has name = false) : small.has name = false := by
  rw [← Bool.not_eq_true, Dict.has_iff_mem_keys] at absent ⊢
  exact fun inside => absent (within inside)

lemma covers_of_subset (same : tables.imports = imports) (funcs : external.funcs.keys ⊆ tables.funcs.keys)
    (records : external.records.keys ⊆ tables.records.keys) : Covers (unknownTo external imports) tables where
  functions _ absent := absent_of_subset funcs absent
  records _ absent := absent_of_subset records absent
  modules _ absent := same ▸ absent

lemma Declared.covers (declared : Declared external imports stem program tables) :
    Covers (unknownTo external imports) tables :=
  covers_of_subset declared.imports declared.funcs declared.records

lemma Declared.sized (declared : Declared external imports stem program tables) :
    Sized (unknownTo external imports) tables.sizes :=
  fun _ absent => absent_of_subset (List.Subset.trans declared.records declared.sizes) absent

lemma resolveRecordFields_stops {unknown : Unknown} (covers : Covers unknown tables) :
    Stops (Blames unknown) (resolveRecordFields tables) := by
  refine (Stops.mapM fun entry _ => ?_).bind fun _ => (Stops.loop fun _ _ => recSize_stops).bind fun _ => .ok
  unfold resolveFields
  dsimp only
  split
  · exact .ok
  refine (Stops.mapM fun field _ => ?_).bind fun _ => .ok
  obtain ⟨name, shape⟩ := field
  exact (resolveType_stops covers (fun asked => absurd asked Bool.false_ne_true) shape).bind fun _ => passes rfl .ok

lemma resolveSignature_stops {unknown : Unknown} (covers : Covers unknown tables)
    (sized : Sized unknown tables.sizes) (decl : Parse.FunctionDef) :
    Stops (Blames unknown) (resolveSignature tables decl) := by
  unfold resolveSignature
  split
  · exact .stop (.raised _)
  next info found =>
    refine (Stops.mapM fun param _ => (resolveType_stops covers (fun _ => sized) param.2).bind fun _ => .ok).bind
      fun _ => .bind ?_ fun _ => .ok
    cases info.ret with
    | none => exact .ok
    | some shape => exact (resolveType_stops covers (fun _ => sized) shape).bind fun _ => .ok

lemma declarations_stops :
    Stops (Blames (unknownTo external imports)) (declarations program (seeded external imports stem profile)) := by
  refine (Stops.loop fun item _ => collect_stops item).after fun first ran => ?_
  have collected := collects _ ran
  refine (Stops.forM fun _ _ => check_other rfl).bind fun _ => ?_
  have grows : Grows first (number program first).1 := number_grows program
  have covers : Covers (unknownTo external imports) (number program first).1 :=
    covers_of_subset (grows.imports.trans collected.imports) (List.Subset.trans collected.funcs grows.funcs)
      (List.Subset.trans collected.records grows.records)
  refine (resolveRecordFields_stops covers).after fun second ran => ?_
  refine .bind (.foldlM (resolveRecordFields_declared collected _ ran) (fun decl _ _ before =>
    resolveSignature_declared before decl)
    fun decl _ _ declared => resolveSignature_stops declared.covers declared.sized decl) fun _ => .ok

/-- A file is rejected as undeclared only for names that are not in the globals it starts with. -/
lemma analyze_stops : Stops (Blames (unknownTo external imports)) (analyze program external imports stem profile) := by
  refine declarations_stops.after fun result ran => ?_
  have declared := declarations_gives _ ran
  exact (Stops.loop fun item state => lowerItem_stops declared.covers declared.sized state item).bind fun _ => .ok

/-! Accepted files. -/

/-- What some items of a file have been lowered to. -/
structure LoweredItems (stem : Option String) (items : Parse.Program) (state : Ast.Program × Int) : Prop where
  functions : state.1.functions.map (·.name) = items.functions.map fun decl => storedName stem decl.name
  records : state.1.records.map (·.name) = items.records.map fun decl => storedName stem decl.name

lemma lowerItem_gives (declared : Declared external imports stem program tables) (inside : item ∈ program)
    (before : LoweredItems stem items state) :
    Gives (lowerItem tables state item) (LoweredItems stem (items ++ [item])) := by
  have functions : Parse.Program.functions (items ++ [item]) = items.functions ++ Parse.Program.functions [item] :=
    filterMap_append
  have records : Parse.Program.records (items ++ [item]) = items.records ++ Parse.Program.records [item] :=
    filterMap_append
  have names : ∀ {name}, name ∈ declaredNames [item] → tables.top name = storedName stem name := fun listed =>
    declared.top ((Sublist.filterMap _ (singleton_sublist.mpr inside)).subset listed)
  cases item with
  | function decl =>
    have top : tables.top decl.name = storedName stem decl.name := names mem_cons_self
    have lowered : Gives (lowerFunction tables state.2 decl) fun result =>
      result.1.name = storedName stem decl.name := by
      unfold lowerFunction
      split
      · exact .stop
      · exact .skip fun _ => .skip fun _ => .ok top
    refine .bind lowered fun result named => .ok ⟨?_, ?_⟩
    · rw [functions, map_append, map_append, before.functions, map_singleton, named]
      rfl
    · rw [records, map_append, before.records]
      exact (append_nil _).symm
  | record decl =>
    have top : tables.top decl.name = storedName stem decl.name := names mem_cons_self
    have lowered : Gives (lowerRecord tables decl) fun record => record.name = storedName stem decl.name := by
      unfold lowerRecord
      split
      · exact .stop
      · exact .ok top
    refine .bind lowered fun record named => .ok ⟨?_, ?_⟩
    · rw [functions, map_append, before.functions]
      exact (append_nil _).symm
    · rw [records, map_append, map_append, before.records, map_singleton, named]
      rfl
  | use path =>
    refine .ok ⟨?_, ?_⟩
    · rw [functions, map_append, before.functions]
      exact (append_nil _).symm
    · rw [records, map_append, before.records]
      exact (append_nil _).symm

/-- An accepted file: its declarations in source order under their stored names. -/
lemma analyze_gives : Gives (analyze program external imports stem profile) fun ast =>
    ast.functions.map (·.name) = (program.functions.map fun decl => storedName stem decl.name) ∧
      ast.records.map (·.name) = program.records.map fun decl => storedName stem decl.name := by
  refine .bind declarations_gives fun result declared => ?_
  have lowered : Gives (program.foldlM (lowerItem result.1) (⟨[], []⟩, result.2)) (LoweredItems stem program) :=
    .foldlM (fun _ inside _ _ => lowerItem_gives declared inside) ⟨rfl, rfl⟩
  exact .bind lowered fun last final => .ok ⟨final.functions, final.records⟩

end

end Rynor.Lang.Analyze
