import Rynor.Proofs.FsDirectory

/-! Path resolution on the table: the component walk of `resolve` and `fs_create` visits
the ancestors of the key in order and then looks the key up. -/

namespace Rynor.Fs
open ByteMemory List
variable {table : Table} {slots len start : Nat} {key : List UInt8} {path dir : ByteMemory}

/-- The key of a path: everything after the leading slash. -/
def pathKey (path : ByteMemory) (len : Nat) : List UInt8 := path.slice 1 (len - 1)

def Table.lookup (table : Table) (slots : Nat) (key : List UInt8) : Option Record := (table.find slots key).bind table

/-- The first ancestor that is missing or not a directory decides; `none` if all are directories. -/
def Table.walk (table : Table) (slots : Nat) : List (List UInt8) → Option FsResult
  | [] => none
  | parent :: rest =>
    match table.lookup slots parent with
    | none => some .notFound
    | some holder => if holder.type = typeDir then table.walk slots rest else some .notDir

lemma Table.lookup_some (found : table.lookup slots key = some record) :
    ∃ slot, slot < slots ∧ table.find slots key = some slot ∧ table slot = some record ∧ record.name = key := by
  simp only [Table.lookup, Option.bind_eq_some_iff] at found
  obtain ⟨slot, hit, held⟩ := found
  obtain ⟨inside, _, other, otherHeld, name⟩ := Table.find_some hit
  rw [held] at otherHeld
  cases otherHeld
  exact ⟨slot, inside, hit, held, name⟩

lemma Table.lookup_none : table.lookup slots key = none ↔ table.find slots key = none := by
  simp only [Table.lookup]
  cases hit : table.find slots key with
  | none => simp
  | some slot =>
    obtain ⟨_, _, record, held, _⟩ := Table.find_some hit
    simp [held]

private def ancestorsFrom (path : ByteMemory) (len start : Nat) : List (List UInt8) :=
  ((range' start (len - start)).filter fun stop => path stop == slash).map fun stop => path.slice 1 (stop - 1)

private lemma ancestorsFrom_one (path : ByteMemory) (len : Nat) :
    ancestorsFrom path len 1 = ancestors (pathKey path len) := by
  simp only [ancestorsFrom, ancestors, pathKey, slice_length]
  rw [range'_eq_map_range, filter_map, map_map]
  have same : (List.range (len - 1)).filter ((fun stop => path stop == slash) ∘ fun index => 1 + index) =
      (List.range (len - 1)).filter fun stop => (path.slice 1 (len - 1))[stop]? == some slash := by
    apply filter_congr
    intro index member
    have inside := mem_range.mp member
    simp [getElem?_eq_getElem (show index < (path.slice 1 (len - 1)).length by simpa using inside)]
  rw [same]
  apply map_congr_left
  intro index member
  have inside := mem_range.mp (mem_filter.mp member).1
  simp only [Function.comp_apply, Nat.add_sub_cancel_left]
  exact (slice_take _ _ _ _ (by omega)).symm

private lemma ancestorsFrom_step (low : start ≤ stop) (high : stop < len)
    (clear : ∀ index, start ≤ index → index < stop → path index ≠ slash) (cut : path stop = slash) :
    ancestorsFrom path len start = path.slice 1 (stop - 1) :: ancestorsFrom path len (stop + 1) := by
  have sizes : len - start = (stop - start) + ((len - (stop + 1)) + 1) := by omega
  have before : ((range' start (stop - start)).filter fun index => path index == slash) = [] := by
    apply filter_eq_nil_iff.mpr
    intro index member
    have inside := mem_range'_1.mp member
    simpa using clear index inside.1 (by omega)
  simp only [ancestorsFrom]
  rw [sizes, ← range'_append_1, filter_append, before, nil_append, show start + (stop - start) = stop by omega,
    range'_succ, filter_cons, if_pos (by simpa using cut), map_cons]

private lemma ancestorsFrom_last (clear : ∀ index, start ≤ index → index < len → path index ≠ slash) :
    ancestorsFrom path len start = [] := by
  have none : ((range' start (len - start)).filter fun index => path index == slash) = [] := by
    apply filter_eq_nil_iff.mpr
    intro index member
    have inside := mem_range'_1.mp member
    simpa using clear index inside.1 (by omega)
  rw [ancestorsFrom, none, map_nil]

/-- The two texts a refused walk can leave. -/
def walkError (missing notDir : String) (code : FsResult) : FsError :=
  ⟨code, if code = .notFound then missing else notDir⟩

private lemma walkPath_from (shape : PathShape path len)
    (fuel start : Nat) (key : List UInt8) (low : 1 ≤ start) (high : start < len) (enough : len ≤ start + fuel)
    (built : (if key.isEmpty then [] else key ++ [slash]) = path.slice 1 (start - 1)) :
    walkPath dir slots path len missing notDir fuel start key =
      match (tableOf dir).walk slots (ancestorsFrom path len start) with
      | some code => .refused (walkError missing notDir code)
      | none => .reached (pathKey path len) ((tableOf dir).find slots (pathKey path len)) := by
  induction fuel generalizing start key with
  | zero => omega
  | succ fuel ih =>
    simp only [walkPath]
    obtain ⟨after, within, clear, cut⟩ := componentEnd_spec path (le_of_lt high)
    generalize componentEnd path len start = stop at after within clear cut ⊢
    have grown : (if key.isEmpty then [] else key ++ [slash]) ++ path.slice start (stop - start) =
      path.slice 1 (stop - 1) := by
      rw [built, show stop - 1 = (start - 1) + (stop - start) by omega, slice_add,
        show 1 + (start - 1) = start by omega]
    rw [grown, findKey_eq_find]
    by_cases done : stop = len
    · subst done
      rw [if_pos rfl, ancestorsFrom_last clear]
      rfl
    have inside : stop < len := by omega
    obtain ⟨later, room⟩ := shape.inner_slash (by omega) inside (cut inside)
    rw [if_neg done, ancestorsFrom_step after inside clear (cut inside)]
    simp only [Table.walk]
    rcases found : (tableOf dir).find slots (path.slice 1 (stop - 1)) with _ | above
    · simp [Table.lookup_none.mpr found, walkError]
    obtain ⟨_, _, holder, held, _⟩ := Table.find_some found
    have looked : (tableOf dir).lookup slots (path.slice 1 (stop - 1)) = some holder := by
      simp [Table.lookup, found, held]
    simp only [looked, (decodeEntry_some held).2.2.1]
    by_cases folder : holder.type = typeDir
    · simp only [folder, ne_eq, not_true, if_false, if_true]
      apply ih (stop + 1) (path.slice 1 (stop - 1)) (by omega) room (by omega)
      have nonempty : (path.slice 1 (stop - 1)).isEmpty = false := by
        rw [isEmpty_eq_false_iff, ne_eq, slice_isNil]
        omega
      rw [nonempty, if_neg (by simp), show stop + 1 - 1 = (stop - 1) + 1 by omega, slice_add,
        show 1 + (stop - 1) = stop by omega, slice_succ, slice_zero, cut inside]
    · simp [folder, walkError]

lemma walkPath_eq (missing notDir : String) (shape : PathShape path len) (long : len ≠ 1) :
    walkPath dir slots path len missing notDir len 1 [] =
      match (tableOf dir).walk slots (ancestors (pathKey path len)) with
      | some code => .refused (walkError missing notDir code)
      | none => .reached (pathKey path len) ((tableOf dir).find slots (pathKey path len)) := by
  have positive := shape.positive
  rw [← ancestorsFrom_one]
  exact walkPath_from shape len 1 [] le_rfl (by omega) (by omega) (by simp)

lemma resolve_eq (shape : PathShape path len) : resolve dir slots path len = if len = 1 then .root
      else match (tableOf dir).walk slots (ancestors (pathKey path len)), (tableOf dir).find slots
        (pathKey path len) with
        | some code, _ => .refused (walkError "lookup-missing" "lookup-notdir" code)
        | none, none => .refused ⟨.notFound, "lookup-missing"⟩
        | none, some slot => .slot slot := by
  simp only [resolve]
  by_cases root : len = 1
  · rw [if_pos root, if_pos root]
  rw [if_neg root, if_neg root, walkPath_eq _ _ shape root]
  cases (tableOf dir).walk slots (ancestors (pathKey path len)) with
  | some code => rfl
  | none => cases (tableOf dir).find slots (pathKey path len) <;> rfl

end Rynor.Fs
