import Rynor.Host.FsImage
import Rynor.Proofs.FsDirectory

/-! The entries of the image builder: what its checks on paths let through, and which files
and directories its loop collects from them. -/

namespace Rynor.FsImage
open ByteMemory Fs List Checks
variable {path name : Text} {parts : List Text} {c : Char} {listing next : Listing}
  {done : List (Text × Option (List UInt8))}
  {content : Option (List UInt8)}

def PrintableChar (c : Char) : Prop := 0x20 ≤ c.toNat ∧ c.toNat ≤ 0x7e

/-- A component `split_path` lets through. -/
structure GoodPart (part : Text) : Prop where
  nonempty : part ≠ []
  notDot : part ≠ ['.']
  notDotDot : part ≠ ['.', '.']
  clear : '/' ∉ part
  printable : ∀ c ∈ part, PrintableChar c

/-- The components of a key. -/
structure GoodParts (parts : List Text) : Prop where
  nonempty : parts ≠ []
  good : ∀ part ∈ parts, GoodPart part
  short : (join parts).length ≤ 31

lemma checkPart_none (clear : '/' ∉ part) (passed : checkPart path part = none) : GoodPart part := by
  simp only [checkPart, none_iff, not_or, and_true] at passed
  obtain ⟨⟨nonempty, _, notDot, notDotDot⟩, printable⟩ := passed
  refine ⟨nonempty, notDot, notDotDot, clear, fun c member => ?_⟩
  have byte := any_eq_false.mp (Bool.not_eq_true _ ▸ printable) c member
  simpa [PrintableChar] using byte

lemma splitPath_ok (called : splitPath path = .ok parts) : path = '/' :: join parts ∧ GoodParts parts := by
  obtain ⟨shape, called⟩ := raise_ok_iff.mp called
  obtain ⟨_, called⟩ := raise_ok_iff.mp called
  obtain ⟨checked, called⟩ := raise_ok_iff.mp called
  cases called
  simp only [none_iff, not_or, ne_eq, Decidable.not_not, and_true] at shape
  obtain ⟨leading, _, short⟩ := shape
  rcases path with _ | ⟨first, rest⟩
  · cases leading
  cases leading
  have whole : join (rest.splitOn '/') = rest := intercalate_splitOn _
  refine ⟨by rw [tail_cons, whole], splitOn_ne_nil _ _, fun part member => ?_, ?_⟩
  · exact checkPart_none (Separated.splitOn_clear _ _ part member) (findSome?_eq_none_iff.mp checked part member)
  · rw [tail_cons, whole]
    simp only [length_cons] at short
    omega

namespace GoodParts
variable {parts : List Text}

section
variable (good : GoodParts parts)
include good

lemma clear : ∀ part ∈ parts, '/' ∉ part := fun part member => (good.good part member).clear

/-- What stands before a slash of a key is the join of its first components. -/
lemma before_slash {name : Text} : (∃ stop, (join parts)[stop]? = some '/' ∧ (join parts).take stop = name) ↔
      ∃ depth, 0 < depth ∧ depth < parts.length ∧ join (parts.take depth) = name :=
  Separated.before_separator_iff good.clear

lemma take (low : 0 < depth) (high : depth < parts.length) : GoodParts (parts.take depth) := by
  refine ⟨?_, fun part member => good.good part (mem_of_mem_take member), ?_⟩
  · intro empty
    have size := congrArg List.length empty
    rw [length_take, length_nil] at size
    omega
  · obtain ⟨stop, _, same⟩ := good.before_slash.mpr ⟨depth, low, high, rfl⟩
    have short := good.short
    rw [← same, length_take]
    omega

lemma printable : ∀ c ∈ join parts, PrintableChar c := by
  have all := good.good
  clear good
  induction parts with
  | nil => exact nofun
  | cons part parts ih =>
    have first := (all part mem_cons_self).printable
    have rest := ih fun other member => all other (mem_cons_of_mem _ member)
    cases parts with
    | nil =>
      rw [join, intercalate_singleton]
      exact first
    | cons next parts =>
      rw [join, intercalate_cons_cons]
      intro c member
      rcases mem_append.mp member with before | after
      · rcases mem_append.mp before with inside | slash
        · exact first c inside
        · rw [mem_singleton.mp slash]
          exact ⟨by decide, by decide⟩
      · exact rest c after

lemma join_ne_nil : join parts ≠ [] := by
  obtain ⟨part, rest, rfl⟩ := exists_cons_of_ne_nil good.nonempty
  have nonempty := (good.good part mem_cons_self).nonempty
  cases rest with
  | nil => rwa [join, intercalate_singleton]
  | cons next rest =>
    rw [join, intercalate_cons_cons]
    simp [nonempty]

end

end GoodParts

/-! Keys as bytes. -/

lemma byte_toNat (printable : PrintableChar c) : (UInt8.ofNat c.toNat).toNat = c.toNat := by
  rw [UInt8.toNat_ofNat']
  exact Nat.mod_eq_of_lt (lt_of_le_of_lt printable.2 (by decide))

lemma byte_inj (one : PrintableChar c) (two : PrintableChar d) (same : UInt8.ofNat c.toNat = UInt8.ofNat d.toNat) :
    c = d := by
  have numbers := congrArg UInt8.toNat same
  rw [byte_toNat one, byte_toNat two] at numbers
  exact Char.toNat_inj.mp numbers

lemma byte_printable (printable : PrintableChar c) : Printable (UInt8.ofNat c.toNat) := by
  simp only [Printable, UInt8.le_iff_toNat_le, byte_toNat printable]
  exact printable

lemma ascii_inj (one : ∀ c ∈ first, PrintableChar c) (two : ∀ c ∈ second, PrintableChar c)
    (same : ascii first = ascii second) : first = second := by
  induction first generalizing second with
  | nil => exact (map_eq_nil_iff.mp same.symm).symm
  | cons c first ih =>
    cases second with
    | nil => cases same
    | cons d second =>
      obtain ⟨head, tail⟩ := List.cons.inj same
      rw [byte_inj (one c mem_cons_self) (two d mem_cons_self) head,
        ih (fun x member => one x (mem_cons_of_mem _ member)) (fun x member => two x (mem_cons_of_mem _ member)) tail]

lemma ascii_join (parts : List Text) : ascii (join parts) = [slash].intercalate (parts.map ascii) := by
  induction parts with
  | nil => rfl
  | cons part parts ih =>
    cases parts with
    | nil => simp only [join, map_cons, map_nil, intercalate_singleton]
    | cons next parts =>
      simp only [join, map_cons, intercalate_cons_cons, ascii, map_append] at ih ⊢
      rw [ih]
      rfl

namespace GoodParts
variable {parts : List Text} (good : GoodParts parts)
include good

lemma splitOn_ascii : (ascii (join parts)).splitOn slash = parts.map ascii := by
  rw [ascii_join]
  refine splitOn_intercalate _ (fun bytes member inside => ?_) (by simpa using good.nonempty)
  obtain ⟨part, held, rfl⟩ := mem_map.mp member
  obtain ⟨c, inPart, same⟩ := mem_map.mp inside
  have whole := good.good part held
  have cut : c = '/' := byte_inj (whole.printable c inPart) ⟨by decide, by decide⟩ same
  exact whole.clear (cut ▸ inPart)

lemma components : GoodComponents (ascii (join parts)) := by
  rw [GoodComponents, good.splitOn_ascii]
  intro bytes member
  obtain ⟨part, held, rfl⟩ := mem_map.mp member
  have whole := good.good part held
  have dots : ∀ c ∈ ['.', '.'], PrintableChar c := by
    simp only [mem_cons, not_mem_nil, or_false, or_self, forall_eq]
    exact ⟨by decide, by decide⟩
  refine ⟨fun empty => whole.nonempty (map_eq_nil_iff.mp empty), fun same => whole.notDot ?_,
    fun same => whole.notDotDot ?_⟩
  · exact ascii_inj whole.printable (fun c one => dots c (mem_cons_of_mem _ one)) same
  · exact ascii_inj whole.printable dots same

lemma ancestors_ascii :
    parent ∈ ancestors (ascii (join parts)) ↔ ∃ depth, 0 < depth ∧ depth < parts.length ∧ ascii
    (join (parts.take depth)) = parent := by
  rw [mem_ancestors_parts, good.splitOn_ascii]
  simp only [length_map, ascii_join, map_take]

lemma ascii_printable (inside : index < (join parts).length) : Printable (ofList (ascii (join parts)) index) := by
  have byte : ofList (ascii (join parts)) index = UInt8.ofNat (join parts)[index].toNat := by
    simp [ofList, ascii, inside]
  rw [byte]
  exact byte_printable (good.printable _ (getElem_mem inside))

end GoodParts

/-! The loop over the entries. -/

/-- A directory on the way to an entry. -/
def Intermediate (entries : List (Text × Option (List UInt8))) (dir : Text) : Prop :=
  ∃ path content stop, (path, content) ∈ entries ∧ 0 < stop ∧ path[stop]? = some '/' ∧ path.take stop = dir

/-- What the loop has collected from the entries. -/
structure Collected (entries : List (Text × Option (List UInt8))) (listing : Listing) : Prop where
  paths : ∀ path content, (path, content) ∈ entries → ∃ parts, GoodParts parts ∧ path = '/' :: join parts
  files : ∀ name bytes, (name, bytes) ∈ listing.files ↔ ('/' :: name, some bytes) ∈ entries
  dirs : ∀ name, name ∈ listing.dirs ↔ ('/' :: name, none) ∈ entries ∨ Intermediate entries ('/' :: name)
  fileNames : (listing.files.map (·.1)).Nodup
  dirNames : listing.dirs.Nodup
  apart : ∀ name ∈ listing.dirs, name ∉ listing.files.map (·.1)

lemma hasFile_iff : listing.hasFile name = true ↔ name ∈ listing.files.map (·.1) := by
  simp [Listing.hasFile]

lemma mem_addDir : other ∈ (listing.addDir name).dirs ↔ other ∈ listing.dirs ∨ other = name := by
  simp only [Listing.addDir]
  split
  next held =>
    constructor
    · exact .inl
    · rintro (member | rfl)
      · exact member
      · exact held
  · simp

lemma addDir_files : (listing.addDir name).files = listing.files := by
  simp only [Listing.addDir]
  split <;> rfl

lemma addDir_nodup (unique : listing.dirs.Nodup) : (listing.addDir name).dirs.Nodup := by
  simp only [Listing.addDir]
  split
  · exact unique
  rename_i fresh
  rw [nodup_append]
  refine ⟨unique, nodup_singleton _, fun other member last single same => fresh ?_⟩
  rwa [← mem_singleton.mp single, ← same]

lemma addParents_gives {parents : List Text} : Gives (parents.foldlM addParent listing) fun next =>
    next.files = listing.files ∧ (∀ name, name ∈ next.dirs ↔ name ∈ listing.dirs ∨ name ∈ parents) ∧
      (listing.dirs.Nodup → next.dirs.Nodup) ∧ ∀ name ∈ parents, name ∉ listing.files.map (·.1) := by
  refine @Gives.foldlM Fault Text Listing (fun done state => state.files = listing.files ∧
    (∀ name, name ∈ state.dirs ↔ name ∈ listing.dirs ∨ name ∈ done) ∧ (listing.dirs.Nodup → state.dirs.Nodup) ∧
    ∀ name ∈ done, name ∉ listing.files.map (·.1)) parents listing addParent ?_ ⟨rfl, by simp, id, nofun⟩
  intro parent _ done state ⟨files, dirs, unique, apart⟩ after added
  obtain ⟨fresh, same⟩ := raise_ok_iff.mp added
  cases same
  simp only [none_iff, Bool.not_eq_true, and_true] at fresh
  refine ⟨addDir_files.trans files, fun name => ?_, fun start => addDir_nodup (unique start), fun name member => ?_⟩
  · rw [mem_addDir, dirs, mem_append, mem_singleton, or_assoc]
  · rcases mem_append.mp member with before | last
    · exact apart name before
    · rw [mem_singleton.mp last, ← files, ← hasFile_iff, fresh]
      exact nofun

lemma intermediate_append (good : GoodParts parts) :
    Intermediate (done ++ [('/' :: join parts, content)]) ('/' :: name) ↔ Intermediate done ('/' :: name) ∨
      name ∈ (range' 1 (parts.length - 1)).map fun depth => join (parts.take depth) := by
  have parents : name ∈ ((range' 1 (parts.length - 1)).map fun depth => join (parts.take depth)) ↔
      ∃ stop, (join parts)[stop]? = some '/' ∧ (join parts).take stop = name := by
    rw [good.before_slash, mem_map]
    constructor
    · intro ⟨depth, member, same⟩
      obtain ⟨low, high⟩ := mem_range'_1.mp member
      exact ⟨depth, low, by omega, same⟩
    · intro ⟨depth, low, high, same⟩
      exact ⟨depth, mem_range'_1.mpr ⟨low, by omega⟩, same⟩
  rw [parents]
  constructor
  · intro ⟨path, other, stop, member, positive, cut, same⟩
    rcases mem_append.mp member with before | last
    · exact .inl ⟨path, other, stop, before, positive, cut, same⟩
    cases mem_singleton.mp last
    obtain ⟨stop, rfl⟩ := Nat.exists_eq_add_of_lt positive
    simp only [zero_add, getElem?_cons_succ, take_succ_cons, List.cons.injEq, true_and] at cut same
    exact .inr ⟨stop, cut, same⟩
  · rintro (⟨path, other, stop, member, positive, cut, same⟩ | ⟨stop, cut, same⟩)
    · exact ⟨path, other, stop, mem_append_left _ member, positive, cut, same⟩
    · exact ⟨_, content, stop + 1, mem_append_right _ mem_cons_self, Nat.succ_pos _, cut, by rw [take_succ_cons, same]⟩

lemma addEntry_ok (collected : Collected done listing) (called : addEntry listing (path, content) = .ok next) :
    Collected (done ++ [(path, content)]) next := by
  obtain ⟨parts, split, called⟩ := bind_ok_iff.mp called
  obtain ⟨middle, parents, called⟩ := bind_ok_iff.mp called
  obtain ⟨fresh, finish⟩ := raise_ok_iff.mp called
  clear called
  obtain ⟨rfl, good⟩ := splitPath_ok split
  obtain ⟨files, dirs, unique, clear⟩ := addParents_gives _ parents
  simp only [none_iff, not_or, hasFile_iff, files, dirs, and_true] at fresh
  obtain ⟨newFile, newDir, newParent⟩ := fresh
  have paths : ∀ other content', (other, content') ∈ done ++ [('/' :: join parts, content)] →
      ∃ parts, GoodParts parts ∧ other = '/' :: join parts := by
    intro other content' member
    rcases mem_append.mp member with before | last
    · exact collected.paths other content' before
    · cases mem_singleton.mp last
      exact ⟨parts, good, rfl⟩
  have apart : ∀ name ∈ middle.dirs, name ∉ listing.files.map (·.1) := by
    intro name member
    rcases (dirs name).mp member with before | parent
    · exact collected.apart name before
    · exact clear name parent
  cases content with
  | none =>
    obtain ⟨_, same⟩ := raise_ok_iff.mp finish
    cases same
    refine ⟨paths, fun name bytes => ?_, fun name => ?_, ?_, addDir_nodup (unique collected.dirNames),
      fun name member => ?_⟩
    · rw [addDir_files, files, collected.files]
      simp
    · rw [mem_addDir, dirs, collected.dirs, intermediate_append good]
      simp only [mem_append, mem_singleton, Prod.mk.injEq, List.cons.injEq, true_and, and_true]
      tauto
    · rw [addDir_files, files]
      exact collected.fileNames
    · rw [addDir_files, files]
      rcases mem_addDir.mp member with before | rfl
      · exact apart name before
      · exact newFile
  | some bytes =>
    cases finish
    refine ⟨paths, fun name bytes' => ?_, fun name => ?_, ?_, unique collected.dirNames, fun name member => ?_⟩
    · simp only [mem_append, files, collected.files, mem_singleton, Prod.mk.injEq, List.cons.injEq, true_and,
        Option.some.injEq]
    · rw [dirs, collected.dirs, intermediate_append good]
      simp only [mem_append, mem_singleton, Prod.mk.injEq, reduceCtorEq, and_false, or_false]
      tauto
    · simp only [files, map_append, map_cons, map_nil, nodup_append]
      refine ⟨collected.fileNames, nodup_singleton _, fun other member last single same => newFile ?_⟩
      rwa [← mem_singleton.mp single, ← same]
    · simp only [files, map_append, map_cons, map_nil, mem_append, mem_singleton, not_or]
      refine ⟨apart name member, fun same => ?_⟩
      subst same
      rcases (dirs _).mp member with before | parent
      · exact newDir before
      · exact newParent parent

lemma collect_gives : Gives (entries.foldlM addEntry ⟨[], []⟩) (Collected entries) := by
  refine .foldlM (fun entry _ done state collected next added => addEntry_ok collected added) ?_
  exact ⟨nofun, by simp, by simp [Intermediate], nodup_nil, nodup_nil, nofun⟩

namespace Collected
variable {entries : List (Text × Option (List UInt8))} {listing : Listing} {name : Text}

section
variable (collected : Collected entries listing) (listed : name ∈ listing.dirs ∨ name ∈ listing.files.map (·.1))
include collected listed

/-- A name in the listing comes from a path of the entries, whole or cut before a slash. -/
lemma source :
    ∃ path content, (path, content) ∈ entries ∧ (path = '/' :: name ∨ ∃ stop, 0 < stop ∧ path[stop]? = some '/' ∧
      path.take stop = '/' :: name) := by
  rcases listed with dir | file
  · rcases (collected.dirs name).mp dir with own | ⟨path, content, stop, member, cut⟩
    · exact ⟨_, none, own, .inl rfl⟩
    · exact ⟨path, content, member, .inr ⟨stop, cut⟩⟩
  · obtain ⟨⟨_, bytes⟩, member, rfl⟩ := mem_map.mp file
    exact ⟨_, some bytes, (collected.files _ bytes).mp member, .inl rfl⟩

lemma good : ∃ parts, GoodParts parts ∧ name = join parts := by
  obtain ⟨path, content, member, whole | ⟨stop, positive, cut, same⟩⟩ := collected.source listed
  · obtain ⟨parts, good, text⟩ := collected.paths path content member
    exact ⟨parts, good, (List.cons.inj (whole.symm.trans text)).2⟩
  · obtain ⟨parts, good, rfl⟩ := collected.paths path content member
    obtain ⟨stop, rfl⟩ := Nat.exists_eq_add_of_lt positive
    simp only [zero_add, getElem?_cons_succ, take_succ_cons, List.cons.injEq, true_and] at cut same
    obtain ⟨depth, low, high, join⟩ := good.before_slash.mp ⟨stop, cut, same⟩
    exact ⟨_, good.take low high, join.symm⟩

/-- What stands before a slash of a listed name is a listed directory. -/
lemma parent (cut : name[stop]? = some '/') : name.take stop ∈ listing.dirs := by
  refine (collected.dirs _).mpr (.inr ?_)
  obtain ⟨path, content, member, rfl | ⟨last, positive, _, same⟩⟩ := collected.source listed
  · exact ⟨_, content, stop + 1, member, Nat.succ_pos _, cut, rfl⟩
  have inside : stop + 1 < last := by
    have size := congrArg List.length same
    have short := (List.getElem?_eq_some_iff.mp cut).1
    simp only [length_take, length_cons] at size
    omega
  refine ⟨path, content, stop + 1, member, Nat.succ_pos _, ?_, ?_⟩
  · rw [← getElem?_take_of_lt inside, same]
    exact cut
  · rw [← min_eq_left (le_of_lt inside), ← take_take, same]
    rfl

end

end Collected

end Rynor.FsImage
