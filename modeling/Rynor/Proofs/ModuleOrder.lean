import Rynor.Lib.StableSort
import Rynor.Proofs.AnalyzeFiles

/-! The order of analysis. A file is seeded with the declarations of those imports that were analysed before it,
and the order is a sort by depth and name, not a topological one. Where the order follows the imports, no file is
rejected as undeclared for a name of an import. -/

namespace Rynor.Lang.Module
open Analyze Checks List

section
variable {disk : Disk} {std entry : Path} {profile : Profile} {files : Dict Path Info} {tables : Dict Path Ast.Program}
variable {external : External} {name text : String} {deps : List Dep} {info : Info} {key : Path} {ast : Ast.Program}
  {done items : List (Path × Info)}
  {last : Dict Path Ast.Program} {file : Path × Info}

/-! Loading. -/

lemma visit_distinct {root path : Path} {rel : String} {budget stack stem} {loader : Loader}
    (distinct : loader.files.keys.Nodup) :
    Gives (visit disk root std budget stack path rel stem loader) fun next => next.files.keys.Nodup := by
  induction budget generalizing stack path rel stem loader with
  | zero => exact .stop
  | succ budget ih =>
    refine .skip fun _ => ?_
    split
    · exact .ok distinct
    refine .skip fun _ => ?_
    split
    · exact .stop
    · exact .stop
    rename_i program parsed
    refine .skip fun _ => ?_
    have start : Gives (register loader path ⟨rel, stem, maxImportDepth - budget, program, []⟩) fun next =>
      next.files.keys.Nodup :=
      .skip fun _ => .ok (Dict.nodup_keys_set distinct _ _)
    refine .bind start fun registered distinct => ?_
    refine .loop (fun text _ before distinct => .skip fun target => .skip fun _ => .skip fun _ => ih ?_) distinct
    unfold Loader.addDep
    split
    · exact distinct
    · exact Dict.nodup_keys_set distinct _ _

lemma resolveGraph_distinct : Gives (resolveGraph disk std entry) fun files => files.keys.Nodup :=
  .skip fun _ => .bind (visit_distinct nodup_nil) fun _ distinct => .ok distinct

/-! Seeding. -/

lemma mem_keys_seedFunctions : name ∈ (seedFunctions external functions).funcs.keys ↔ name ∈ external.funcs.keys ∨
    name ∈ functions.map (·.name) := by
  unfold seedFunctions
  dsimp only
  generalize external.funcs = funcs
  induction functions generalizing funcs with
  | nil => exact (or_iff_left not_mem_nil).symm
  | cons function functions ih =>
    rw [foldl_cons, ih, Dict.mem_keys_set, map_cons, mem_cons, or_assoc, or_left_comm]

lemma mem_keys_seedRecords : name ∈ (seedRecords external records).records.keys ↔ name ∈ external.records.keys ∨
    name ∈ records.map (·.name) := by
  unfold seedRecords
  dsimp only
  generalize external.records = known
  induction records generalizing known with
  | nil => exact (or_iff_left not_mem_nil).symm
  | cons record records ih =>
    rw [foldl_cons, ih, Dict.mem_keys_set, map_cons, mem_cons, or_assoc, or_left_comm]

def functionNames (ast : Ast.Program) : List String := ast.functions.map (·.name)

def recordNames (ast : Ast.Program) : List String := ast.records.map (·.name)

/-- A declaration of one of the imports that are in the tables. -/
def Imported (tables : Dict Path Ast.Program) (deps : List Dep) (names : Ast.Program → List String) (name : String) :
    Prop :=
  ∃ dep ∈ deps, ∃ ast, tables.get? dep.key = some ast ∧ name ∈ names ast

lemma imported_cons {names : Ast.Program → List String} :
    Imported tables (dep :: deps) names name ↔ (∃ ast, tables.get? dep.key = some ast ∧ name ∈ names ast) ∨
    Imported tables deps names name :=
  exists_mem_cons_iff _ _ _

lemma mem_keys_seedDeps :
    (name ∈ (deps.foldl (seedDep tables) external).funcs.keys ↔ name ∈ external.funcs.keys ∨
      Imported tables deps functionNames name) ∧
    (name ∈ (deps.foldl (seedDep tables) external).records.keys ↔ name ∈ external.records.keys ∨
      Imported tables deps recordNames name) := by
  induction deps generalizing external with
  | nil => exact ⟨(or_iff_left fun ⟨_, absent, _⟩ => not_mem_nil absent).symm,
    (or_iff_left fun ⟨_, absent, _⟩ => not_mem_nil absent).symm⟩
  | cons dep deps ih =>
    rw [foldl_cons, ih.1, ih.2, imported_cons, imported_cons, ← or_assoc, ← or_assoc]
    unfold seedDep
    split
    next absent => simp [absent]
    rename_i ast found
    have functions : (seedRecords (seedFunctions external ast.functions) ast.records).funcs =
      (seedFunctions external ast.functions).funcs := rfl
    have records : (seedFunctions external ast.functions).records = external.records := rfl
    rw [functions, mem_keys_seedFunctions, mem_keys_seedRecords, records]
    simp [found, functionNames, recordNames]

lemma mem_keys_externalFor :
    (name ∈ (externalFor info tables).funcs.keys ↔ Imported tables info.deps functionNames name) ∧
    (name ∈ (externalFor info tables).records.keys ↔ Imported tables info.deps recordNames name) :=
  ⟨mem_keys_seedDeps.1.trans (or_iff_right not_mem_nil), mem_keys_seedDeps.2.trans (or_iff_right not_mem_nil)⟩

lemma has_importsFor {dep : Dep} (inside : dep ∈ info.deps) : (importsFor info).has dep.stem = true := by
  have within : ∀ (deps : List Dep) (imports : Dict String Path), (dep ∈ deps ∨ dep.stem ∈ imports.keys) →
      dep.stem ∈ (deps.foldl (fun imports dep => imports.set dep.stem dep.key) imports).keys := by
    intro deps
    induction deps with
    | nil => exact fun imports either => either.resolve_left not_mem_nil
    | cons other deps ih =>
      rintro imports (listed | known)
      · rcases mem_cons.mp listed with rfl | later
        · exact ih _ (.inr (Dict.mem_keys_set.mpr (.inl rfl)))
        · exact ih _ (.inl later)
      · exact ih _ (.inr (Dict.mem_keys_set.mpr (.inr known)))
  exact Dict.has_iff_mem_keys.mpr (within _ _ (.inl inside))

/-! The loop. -/

def storedFunctions (info : Info) : List String := info.root.functions.map fun decl => storedName info.stem decl.name

def storedRecords (info : Info) : List String := info.root.records.map fun decl => storedName info.stem decl.name

/-- The files analysed so far, with their declarations under the stored names. -/
structure Tabled (files : Dict Path Info) (done : List (Path × Info)) (tables : Dict Path Ast.Program) : Prop where
  keys : tables.keys = done.map (·.1)
  each : ∀ key ast, tables.get? key = some ast → ∃ info, files.get? key = some info ∧
    functionNames ast = storedFunctions info ∧ recordNames ast = storedRecords info

lemma inFile_ok {α : Type} {rel : String} {result : Result α} {value : α} (called : inFile rel result = .ok value) :
    result = .ok value := by
  unfold inFile at called
  split at called
  · cases called
  · exact called

lemma analyzeFile_ok (called : analyzeFile disk profile tables (key, info) = .ok last) :
    ∃ ast, analyze info.root (externalFor info tables) (importsFor info) info.stem profile = .ok ast ∧
    last = tables.set key ast := by
  unfold analyzeFile at called
  dsimp only at called
  split at called
  next => cases called
  obtain ⟨ast, analysed, rest⟩ := bind_ok_iff.mp called
  cases rest
  exact ⟨ast, inFile_ok analysed, rfl⟩

lemma analyzeFile_tabled (tabled : Tabled files done tables) (found : files.get? file.1 = some file.2)
    (fresh : file.1 ∉ done.map (·.1))
    (called : analyzeFile disk profile tables file = .ok last) : Tabled files (done ++ [file]) last := by
  obtain ⟨ast, analysed, rfl⟩ := analyzeFile_ok called
  constructor
  · rw [Dict.keys_set, tabled.keys, if_neg fresh, map_append]
    rfl
  intro key other known
  rw [Dict.get?_set] at known
  split at known
  next same =>
    cases known
    subst same
    exact ⟨file.2, found, analyze_gives _ analysed⟩
  next => exact tabled.each key other known

lemma analyzeFiles_tabled (known : ∀ file ∈ done ++ items, files.get? file.1 = some file.2)
    (distinct : ((done ++ items).map (·.1)).Nodup)
    (tabled : Tabled files done tables) (called : items.foldlM (analyzeFile disk profile) tables = .ok last) :
    Tabled files (done ++ items) last := by
  induction items generalizing done tables with
  | nil =>
    cases called
    rw [append_nil]
    exact tabled
  | cons file items ih =>
    obtain ⟨next, first, rest⟩ := bind_ok_iff.mp called
    have fresh : file.1 ∉ done.map (·.1) := fun inside => by
      rw [map_append, nodup_append] at distinct
      exact distinct.2.2 _ inside _ (mem_map_of_mem mem_cons_self) rfl
    have step := analyzeFile_tabled tabled (known file (mem_append_right _ mem_cons_self)) fresh first
    rw [append_cons] at known distinct ⊢
    exact ih known distinct step rest

/-! The order. -/

instance : Std.Total fun left right : Path × Info => laterThan left.2 right.2 := ⟨fun left right => by
  unfold laterThan
  rcases lt_trichotomy left.2.depth right.2.depth with less | same | more
  · exact .inr (.inl less)
  · rcases le_total left.2.rel right.2.rel with below | above
    · exact .inr (.inr ⟨same, below⟩)
    · exact .inl (.inr ⟨same.symm, above⟩)
  · exact .inl (.inl more)⟩

instance : IsTrans (Path × Info) fun left right => laterThan left.2 right.2 := ⟨fun first second third left right => by
  unfold laterThan at *
  rcases left with left | ⟨same, left⟩ <;> rcases right with right | ⟨equal, right⟩
  · exact .inl (right.trans left)
  · exact .inl (equal ▸ left)
  · exact .inl (same ▸ right)
  · exact .inr ⟨equal.trans same, right.trans left⟩⟩

/-- Every file is analysed after every file it imports directly. -/
def Follows (files : Dict Path Info) : Prop :=
  ∀ file ∈ files, ∀ dep ∈ file.2.deps, [dep.key, file.1].Sublist ((analysisOrder files).map (·.1))

/-- Every import was first met deeper than the file that imports it, or as deep and under a later name; on a tie
it was met first. -/
def Ranked (files : Dict Path Info) : Prop :=
  ∀ file ∈ files, ∀ dep ∈ file.2.deps, ∃ target ∈ files, target.1 = dep.key ∧ laterThan target.2 file.2 ∧
    (laterThan file.2 target.2 → [dep.key, file.1].Sublist files.keys)

instance : DecidablePred Follows := fun files =>
  inferInstanceAs (Decidable (∀ file ∈ files, ∀ dep ∈ file.2.deps, [dep.key, file.1].Sublist
    ((analysisOrder files).map (·.1))))

instance : DecidablePred Ranked := fun files =>
  inferInstanceAs (Decidable (∀ file ∈ files, ∀ dep ∈ file.2.deps, ∃ target ∈ files, target.1 = dep.key ∧
    laterThan target.2 file.2 ∧
    (laterThan file.2 target.2 → [dep.key, file.1].Sublist files.keys)))

/-- Whatever was analysed before a file, all its imports were, and every function and record they declare is in
the tables the file is analysed with. -/
def SeedsImports (disk : Disk) (files : Dict Path Info) : Prop :=
  ∀ profile before file after tables, analysisOrder files = before ++ file :: after →
    before.foldlM (analyzeFile disk profile) [] = .ok tables → ∀ dep ∈ file.2.deps, ∃ target, files.get? dep.key =
      some target ∧
      (∀ name ∈ storedFunctions target, (externalFor file.2 tables).funcs.has name = true) ∧
      ∀ name ∈ storedRecords target, (externalFor file.2 tables).records.has name = true

lemma pair_keys_iff (distinct : (items.map (·.1)).Nodup) (left : first ∈ items) (right : second ∈ items) :
    [first.1, second.1].Sublist (items.map (·.1)) ↔ [first, second].Sublist items := by
  have same : ∀ {one other : Path × Info}, one ∈ items → other ∈ items → one.1 = other.1 → one = other :=
    fun one other equal =>
    inj_on_of_nodup_map distinct one other equal
  constructor
  · intro keys
    obtain ⟨pair, inside, mapped⟩ := sublist_map_iff.mp keys
    obtain ⟨one, rest, rfl, oneKey, mapped⟩ := map_eq_cons_iff.mp mapped.symm
    obtain ⟨other, rest, rfl, otherKey, mapped⟩ := map_eq_cons_iff.mp mapped
    rw [map_eq_nil_iff.mp mapped] at inside
    rw [← same (inside.subset mem_cons_self) left oneKey, ←
      same (inside.subset (mem_cons_of_mem _ mem_cons_self)) right otherKey]
    exact inside
  · intro inside
    exact inside.map (·.1)

lemma mem_analysisOrder : file ∈ analysisOrder files ↔ file ∈ files :=
  (perm_insertionSort _ files).mem_iff

lemma analysisOrder_nodup (distinct : files.keys.Nodup) : ((analysisOrder files).map (·.1)).Nodup :=
  ((perm_insertionSort _ files).map _).nodup_iff.mpr distinct

lemma follows_iff_ranked (distinct : files.keys.Nodup) : Follows files ↔ Ranked files := by
  have unique : files.Nodup := List.Nodup.of_map _ distinct
  have order := analysisOrder_nodup distinct
  refine forall₂_congr fun file inside => forall₂_congr fun dep _ => ?_
  constructor
  · intro before
    have listed : dep.key ∈ (analysisOrder files).map (·.1) := before.subset mem_cons_self
    obtain ⟨target, member, same⟩ := mem_map.mp listed
    rw [← same] at before ⊢
    have member := mem_analysisOrder.mp member
    have sorted := (pair_keys_iff order (mem_analysisOrder.mpr member) (mem_analysisOrder.mpr inside)).mp before
    obtain ⟨later, tie⟩ := (StableSort.pair_sort_iff unique member inside).mp sorted
    exact ⟨target, member, rfl, later, fun back => (pair_keys_iff distinct member inside).mpr (tie back)⟩
  · rintro ⟨target, member, same, later, tie⟩
    rw [← same] at tie ⊢
    refine (pair_keys_iff order (mem_analysisOrder.mpr member) (mem_analysisOrder.mpr inside)).mpr ?_
    exact (StableSort.pair_sort_iff unique member inside).mpr ⟨later,
      fun back => (pair_keys_iff distinct member inside).mp (tie back)⟩

lemma analyzeFiles_front {before after tables} (distinct : files.keys.Nodup)
    (order : analysisOrder files = before ++ after)
    (called : before.foldlM (analyzeFile disk profile) [] = .ok tables) : Tabled files before tables := by
  have start : Tabled files [] [] := ⟨rfl, nofun⟩
  refine analyzeFiles_tabled (fun file inside => ?_) ?_ start called
  · exact Dict.get?_of_mem distinct (mem_analysisOrder.mp (order ▸ mem_append_left _ inside))
  · have apart := analysisOrder_nodup distinct
    rw [order, map_append] at apart
    exact (nodup_append.mp apart).1

lemma follows_seeds (distinct : files.keys.Nodup) (follows : Follows files) : SeedsImports disk files := by
  intro profile before file after tables order called dep imported
  have tabled := analyzeFiles_front distinct order called
  have distinct := analysisOrder_nodup distinct
  have member : file ∈ analysisOrder files := order ▸ mem_append_right _ mem_cons_self
  have pair := follows file (mem_analysisOrder.mp member) dep imported
  rw [order] at distinct pair
  have earlier : dep.key ∈ before.map (·.1) := by
    rw [map_append, map_cons] at distinct pair
    exact StableSort.mem_front distinct pair
  rw [← tabled.keys] at earlier
  obtain ⟨ast, analysed⟩ := Dict.get?_of_mem_keys earlier
  obtain ⟨target, found, functions, records⟩ := tabled.each _ _ analysed
  refine ⟨target, found, fun name inside => ?_, fun name inside => ?_⟩
  · rw [← functions] at inside
    exact Dict.has_iff_mem_keys.mpr (mem_keys_externalFor.1.mpr ⟨dep, imported, ast, analysed, inside⟩)
  · rw [← records] at inside
    exact Dict.has_iff_mem_keys.mpr (mem_keys_externalFor.2.mpr ⟨dep, imported, ast, analysed, inside⟩)

/-- What no import of a file has: its stored functions and records, and the aliases. -/
def notImported (files : Dict Path Info) (info : Info) : Unknown where
  function name := ∀ dep ∈ info.deps, ∀ target, files.get? dep.key = some target → name ∉ storedFunctions target
  record name := ∀ dep ∈ info.deps, ∀ target, files.get? dep.key = some target → name ∉ storedRecords target
  module stem := ∀ dep ∈ info.deps, dep.stem ≠ stem

/-- Whatever was analysed before a file, it is rejected as undeclared only for names that no import of it has. -/
def RejectsForeign (disk : Disk) (files : Dict Path Info) : Prop :=
  ∀ profile before file after tables fault, analysisOrder files = before ++ file :: after →
    before.foldlM (analyzeFile disk profile) [] = .ok tables →
    analyze file.2.root (externalFor file.2 tables) (importsFor file.2) file.2.stem profile = .error fault →
      Blames (notImported files file.2) fault

lemma seeds_rejects (seeds : SeedsImports disk files) : RejectsForeign disk files := by
  intro profile before file after tables fault order called rejected
  refine (analyze_stops fault rejected).imp ?_ ?_ ?_
  · intro name absent dep imported target found stored
    obtain ⟨other, same, functions, -⟩ := seeds profile before file after tables order called dep imported
    rw [found] at same
    cases same
    exact absurd (functions name stored) (Bool.not_eq_true _ ▸ absent)
  · intro name absent dep imported target found stored
    obtain ⟨other, same, -, records⟩ := seeds profile before file after tables order called dep imported
    rw [found] at same
    cases same
    exact absurd (records name stored) (Bool.not_eq_true _ ▸ absent)
  · intro stem absent dep imported same
    rw [← same] at absent
    exact absurd (has_importsFor imported) (Bool.not_eq_true _ ▸ absent)

end

/-! Two projects: one whose files are ranked, and one where a file is analysed before its import. -/

/-- A disk with the given sources and no links or manifest. -/
def projectDisk (sources : Dict Path Parse.Program)
    (identifiers : ∀ source ∈ sources, ∀ name ∈ declaredNames source.2, isName name = true) : Disk where
  isFile path := sources.has path
  resolve path := path
  parseFile path := match sources.get? path with
    | none => .refused "PAR_INVALID_INPUT" "no such file"
    | some program => .parsed program
  readText _ := .ok ()
  sha256 _ := .ok ""
  manifest := none
  identifiers path program parsed := by
    split at parsed
    next => cases parsed
    rename_i found
    cases parsed
    exact identifiers _ (Dict.get?_eq_some_mem found)

def leafSource : Parse.Program := [.function ⟨"f", [], some .int, [.ret (some (.int "1"))]⟩]

def callerSource (callee : String) : Parse.Program :=
  [.use "a.rl", .function ⟨"g", [], some .int, [.ret (some (.call (.name callee) []))]⟩]

def mainSource (uses : List String) : Parse.Program := uses.map .use ++ [.function ⟨"main", [], none, []⟩]

/-- main uses c.rl, which uses a.rl and calls a function that a.rl does not have. -/
def chainDisk : Disk :=
  projectDisk [(["p", "main.rl"], mainSource ["c.rl"]), (["p", "a.rl"], leafSource),
    (["p", "c.rl"], callerSource "a::h")] (by decide)

/-- main uses a.rl and b.rl, and b.rl uses a.rl. -/
def diamondDisk : Disk :=
  projectDisk [(["p", "main.rl"], mainSource ["a.rl", "b.rl"]), (["p", "a.rl"], leafSource),
    (["p", "b.rl"], callerSource "a::f")] (by decide)

end Rynor.Lang.Module
