import Rynor.Storage.FsLookup

/-! What the byte loops over names and paths compute, in terms of the name as a list
of bytes: its printable prefix, its slash-separated components, its proper prefixes. -/

namespace Rynor.Fs
open ByteMemory List
variable {entry memory path : ByteMemory} {start size stop last len : Nat}

/-- Printable ASCII. -/
def Printable (byte : UInt8) : Prop := 0x20 ≤ byte ∧ byte ≤ 0x7e

/-- A component that path resolution can reach. -/
def GoodComponent (part : List UInt8) : Prop := part ≠ [] ∧ part ≠ [dot] ∧ part ≠ [dot, dot]

def GoodComponents (name : List UInt8) : Prop := ∀ part ∈ name.splitOn slash, GoodComponent part

lemma printable_ne_zero (printable : Printable byte) : byte ≠ 0 := by
  rintro rfl
  exact absurd printable.1 (by decide)

private lemma nameScan_spec (entry : ByteMemory) (fuel start : Nat) :
    (∀ length, nameScan entry fuel start = some length →
      start ≤ length ∧ length ≤ start + fuel ∧ (∀ index, start ≤ index → index < length → Printable (entry index)) ∧
        (length < start + fuel → entry length = 0)) ∧
    (nameScan entry fuel start = none → ∃ index, start ≤ index ∧ index < start + fuel ∧ entry index ≠ 0 ∧
      ¬ Printable (entry index) ∧
        ∀ before, start ≤ before → before < index → Printable (entry before)) := by
  induction fuel generalizing start with
  | zero =>
    refine ⟨fun length found => ?_, fun impossible => by cases impossible⟩
    cases found
    exact ⟨le_rfl, le_rfl, fun index first last => by omega, fun impossible => by omega⟩
  | succ fuel ih =>
    simp only [nameScan]
    by_cases terminated : entry start = 0
    · simp only [terminated, if_true]
      refine ⟨fun length found => ?_, fun impossible => by cases impossible⟩
      cases found
      exact ⟨le_rfl, by omega, fun index first last => by omega, fun _ => terminated⟩
    by_cases bad : entry start < 0x20 ∨ entry start > 0x7e
    · simp only [terminated, bad, if_true, if_false]
      refine ⟨fun length found => (by cases found), fun _ => ⟨start, le_rfl, by omega, terminated, ?_, ?_⟩⟩
      · rintro ⟨low, high⟩
        rcases bad with bad | bad
        · exact absurd low (UInt8.not_le.mpr bad)
        · exact absurd high (UInt8.not_le.mpr bad)
      · intro before first last
        omega
    simp only [terminated, bad, if_false]
    have printable : Printable (entry start) := by
      have := not_or.mp bad
      exact ⟨UInt8.not_lt.mp this.1, UInt8.not_lt.mp this.2⟩
    obtain ⟨found, missing⟩ := ih (start + 1)
    refine ⟨fun length equal => ?_, fun equal => ?_⟩
    · obtain ⟨low, high, bytes, stop⟩ := found length equal
      refine ⟨by omega, by omega, ?_, fun inside => stop (by omega)⟩
      intro index first last
      rcases eq_or_lt_of_le first with rfl | later
      · exact printable
      · exact bytes index later last
    · obtain ⟨index, low, high, nonzero, bad, bytes⟩ := missing equal
      refine ⟨index, by omega, by omega, nonzero, bad, ?_⟩
      intro before first last
      rcases eq_or_lt_of_le first with rfl | later
      · exact printable
      · exact bytes before later last

/-- A name of `length` bytes: printable, terminated and zero-padded to 32. -/
structure Named (entry : ByteMemory) (length : Nat) : Prop where
  positive : 0 < length
  bounded : length ≤ maxName
  printable : ∀ index, index < length → Printable (entry index)
  padded : ∀ index, length ≤ index → index < 32 → entry index = 0

lemma nameLen_named (nonzero : nameLen entry ≠ 0) : Named entry (nameLen entry) := by
  have scan := nameScan_spec entry 32 0
  rcases found : nameScan entry 32 0 with _ | length
  · simp [nameLen, found] at nonzero
  obtain ⟨_, high, bytes, stop⟩ := scan.1 length found
  have unfolded := nonzero
  simp only [nameLen, found] at unfolded
  by_cases range : length = 0 ∨ length > maxName
  · exact absurd (if_pos range) unfolded
  rw [if_neg range] at unfolded
  by_cases padding : (range' (length + 1) (32 - (length + 1))).any fun index => entry index != 0
  · exact absurd (if_pos padding) unfolded
  have value : nameLen entry = length := by
    simp only [nameLen, found]
    rw [if_neg range, if_neg padding]
  rw [value]
  simp only [maxName] at range
  refine ⟨by omega, by simp only [maxName]; omega, fun index inside => bytes index (Nat.zero_le _) inside, ?_⟩
  intro index first last
  rcases eq_or_lt_of_le first with rfl | later
  · exact stop (by omega)
  · simp only [any_eq_true, mem_range'_1, bne_iff_ne, not_exists, not_and, Decidable.not_not] at padding
    exact padding index (by omega)

lemma Named.nameLen {length} (named : Named entry length) : nameLen entry = length := by
  have scan := nameScan_spec entry 32 0
  have bounded := named.bounded
  simp only [maxName] at bounded
  cases found : nameScan entry 32 0 with
  | none =>
    obtain ⟨index, _, inside, nonzero, bad, _⟩ := scan.2 found
    by_cases before : index < length
    · exact absurd (named.printable index before) bad
    · exact absurd (named.padded index (by omega) (by omega)) nonzero
  | some stop =>
    obtain ⟨_, high, bytes, zero⟩ := scan.1 stop found
    have same : stop = length := by
      rcases lt_trichotomy stop length with less | same | more
      · exact absurd (zero (by omega)) (printable_ne_zero (named.printable stop less))
      · exact same
      · exact absurd (named.padded length (Nat.le_refl _) (by omega))
          (printable_ne_zero (bytes length (Nat.zero_le _) more))
    subst stop
    have clear : ((range' (length + 1) (32 - (length + 1))).any fun index => entry index != 0) = false := by
      simp only [any_eq_false, mem_range'_1, bne_iff_ne, Decidable.not_not]
      intro index inside
      exact named.padded index (by omega) (by omega)
    have positive := named.positive
    simp only [Fs.nameLen, found, clear, maxName]
    rw [if_neg (by omega)]
    rfl

lemma nameLen_congr (same : ∀ index, index < 32 → first index = second index) : nameLen first = nameLen second := by
  have transfer : ∀ {a b : ByteMemory} {length : Nat}, (∀ index, index < 32 → a index = b index) → Named a length →
    Named b length := by
    intro a b length same named
    have bounded := named.bounded
    simp only [maxName] at bounded
    exact ⟨named.positive, named.bounded, fun index inside => same index (by omega) ▸ named.printable index inside,
      fun index low high => same index high ▸ named.padded index low high⟩
  by_cases zero : nameLen first = 0
  · by_cases other : nameLen second = 0
    · rw [zero, other]
    · exact (transfer (fun index inside => (same index inside).symm) (nameLen_named other)).nameLen
  · exact (transfer same (nameLen_named zero)).nameLen.symm

/-! Components. -/

lemma slice_isDot : memory.slice start size = [dot] ↔ size = 1 ∧ memory start = dot := by
  rcases size with _ | _ | size <;> simp [slice_succ, slice_zero]

lemma slice_isDotDot :
    memory.slice start size = [dot, dot] ↔ size = 2 ∧ memory start = dot ∧ memory (start + 1) = dot := by
  rcases size with _ | _ | _ | size <;> simp [slice_succ, slice_zero]

lemma slice_isNil : memory.slice start size = [] ↔ size = 0 := by
  rw [eq_nil_iff_length_eq_zero, slice_length]

private lemma slash_not_mem (clear : ∀ index, start ≤ index → index < start + size → memory index ≠ slash) :
    slash ∉ memory.slice start size := by
  intro member
  obtain ⟨index, inside, byte⟩ := mem_slice.mp member
  exact clear (start + index) (by omega) (by omega) byte

private lemma splitOn_at (memory : ByteMemory) (low : start ≤ stop) (high : stop < last)
    (clear : ∀ index, start ≤ index → index < stop → memory index ≠ slash) (cut : memory stop = slash) :
    (memory.slice start (last - start)).splitOn slash =
      memory.slice start (stop - start) :: (memory.slice (stop + 1) (last - (stop + 1))).splitOn slash := by
  have pieces : memory.slice start (last - start) = memory.slice start (stop - start) ++ slash ::
    memory.slice (stop + 1) (last - (stop + 1)) := by
    have sizes : last - start = (stop - start) + ((last - (stop + 1)) + 1) := by omega
    rw [sizes, slice_add, show start + (stop - start) = stop by omega, slice_succ, cut]
  rw [pieces, splitOn_append_cons_self_of_not_mem]
  exact slash_not_mem fun index first last => clear index first (by omega)

private lemma splitOn_last (low : start ≤ last) (clear : ∀ index, start ≤ index → index < last → memory index ≠ slash) :
    (memory.slice start (last - start)).splitOn slash = [memory.slice start (last - start)] :=
  splitOn_eq_singleton (slash_not_mem fun index first inside => clear index first (by omega))

lemma badComponent_iff (entry : ByteMemory) (length fuel start index : Nat)
    (low : start ≤ index) (high : index ≤ length) (enough : fuel = length + 1 - index)
    (clear : ∀ before, start ≤ before → before < index → entry before ≠ slash) :
    badComponent entry length fuel start index = false ↔ GoodComponents (entry.slice start (length - start)) := by
  induction fuel generalizing start index with
  | zero => omega
  | succ fuel ih =>
    have part : (¬ index - start = 0 ∧ ¬ (index - start = 1 ∧ entry start = dot) ∧
        ¬ (index - start = 2 ∧ entry start = dot ∧ entry (start + 1) = dot)) ↔
        GoodComponent (entry.slice start (index - start)) := by
      simp only [GoodComponent, ne_eq, slice_isNil, slice_isDot, slice_isDotDot]
    simp only [badComponent]
    by_cases boundary : index = length ∨ entry index = slash
    · rw [if_pos boundary]
      have rest : badComponent entry length fuel (index + 1) (index + 1) = false ↔
          index = length ∨ GoodComponents (entry.slice (index + 1) (length - (index + 1))) := by
        by_cases done : index = length
        · have exhausted : fuel = 0 := by omega
          subst exhausted
          simp [done, badComponent]
        · rw [ih (index + 1) (index + 1) le_rfl (by omega) (by omega) (fun before first last => by omega)]
          simp [done]
      have whole : GoodComponents (entry.slice start (length - start)) ↔
        GoodComponent (entry.slice start (index - start)) ∧
            (index = length ∨ GoodComponents (entry.slice (index + 1) (length - (index + 1)))) := by
        by_cases done : index = length
        · subst index
          simp [GoodComponents, splitOn_last low clear]
        have cut : entry index = slash := by simpa [done] using boundary
        have before : index < length := by omega
        simp [GoodComponents, splitOn_at _ low before clear cut, done]
      rw [whole, ← part, ← rest]
      simp only [Bool.if_true_left, Bool.or_eq_false_iff, decide_eq_false_iff_not, and_assoc]
    rw [if_neg boundary]
    obtain ⟨inside, other⟩ := not_or.mp boundary
    refine ih start (index + 1) (by omega) (by omega) (by omega) ?_
    intro before first last
    rcases Nat.lt_succ_iff_lt_or_eq.mp last with earlier | rfl
    · exact clear before first earlier
    · exact other

lemma componentEnd_spec (path : ByteMemory) (within : start ≤ len) :
    start ≤ componentEnd path len start ∧ componentEnd path len start ≤ len ∧
      (∀ index, start ≤ index → index < componentEnd path len start → path index ≠ slash) ∧
      (componentEnd path len start < len → path (componentEnd path len start) = slash) := by
  unfold componentEnd
  cases found : (range' start (len - start)).find? fun index => path index == slash with
  | none =>
    refine ⟨within, le_rfl, ?_, fun impossible => absurd impossible (lt_irrefl _)⟩
    intro index first last
    have absent := find?_eq_none.mp found index (mem_range'_1.mpr ⟨first, by simp at last; omega⟩)
    simpa using absent
  | some stop =>
    have member := mem_range'_1.mp (mem_of_find?_eq_some found)
    have byte : path stop = slash := by simpa using find?_some found
    refine ⟨member.1, by simp; omega, ?_, fun _ => byte⟩
    intro index first last
    rw [find?_range'_eq_some] at found
    simpa using found.2.2 index first last

/-! Paths. -/

/-- What `path_ok` accepts. -/
structure PathShape (path : ByteMemory) (len : Nat) : Prop where
  positive : 1 ≤ len
  bounded : len ≤ maxPath
  terminated : path len = 0
  leading : path 0 = slash
  printable : ∀ index, 1 ≤ index → index < len → Printable (path index)
  components : len = 1 ∨ GoodComponents (path.slice 1 (len - 1))

private lemma dotComponent_spec (path : ByteMemory) (len fuel start : Nat) (enough : len ≤ start + fuel) :
    dotComponent path len fuel start = false ↔
      (start < len → ∀ part ∈ (path.slice start (len - start)).splitOn slash, part ≠ [dot] ∧ part ≠ [dot, dot]) := by
  induction fuel generalizing start with
  | zero => simp only [dotComponent, true_iff]; intro inside; omega
  | succ fuel ih =>
    simp only [dotComponent]
    by_cases inside : start < len
    · rw [if_pos inside]
      obtain ⟨low, high, clear, cut⟩ := componentEnd_spec path (le_of_lt inside)
      generalize componentEnd path len start = stop at low high clear cut ⊢
      have here : ¬ ((stop - start = 1 ∧ path start = dot) ∨
        (stop - start = 2 ∧ path start = dot ∧ path (start + 1) = dot)) ↔
          path.slice start (stop - start) ≠ [dot] ∧ path.slice start (stop - start) ≠ [dot, dot] := by
        rw [not_or, ne_eq, ne_eq, slice_isDot, slice_isDotDot]
      have rest := ih (stop + 1) (by omega)
      have whole : (∀ part ∈ (path.slice start (len - start)).splitOn slash, part ≠ [dot] ∧ part ≠ [dot, dot]) ↔
          (path.slice start (stop - start) ≠ [dot] ∧ path.slice start (stop - start) ≠ [dot, dot]) ∧
            (stop + 1 < len → ∀ part ∈ (path.slice (stop + 1) (len - (stop + 1))).splitOn slash, part ≠ [dot] ∧
              part ≠ [dot, dot]) := by
        rcases eq_or_lt_of_le high with done | more
        · subst done
          simp [splitOn_last low clear]
        rw [splitOn_at _ low more clear (cut more)]
        rcases Nat.eq_or_lt_of_le more with ended | later
        · simp [← ended]
        · simp [later]
      simp only [inside, true_implies, whole, ← rest]
      rw [Bool.if_true_left, Bool.or_eq_false_iff, decide_eq_false_iff_not, here]
    rw [if_neg inside]
    simp [inside]

private lemma parts_nonempty (path : ByteMemory) (len start : Nat) (inside : start < len)
    (trailing : path (len - 1) ≠ slash)
    (doubled : ∀ index, start ≤ index → index < len → path index = slash → path (index - 1) ≠ slash)
    (leading : path (start - 1) = slash) :
    ∀ part ∈ (path.slice start (len - start)).splitOn slash, part ≠ [] := by
  obtain ⟨low, high, clear, cut⟩ := componentEnd_spec path (le_of_lt inside)
  generalize componentEnd path len start = stop at low high clear cut ⊢
  have nonempty : start < stop := by
    rcases eq_or_lt_of_le low with same | later
    · subst stop
      exact absurd leading (doubled start le_rfl inside (cut inside))
    · exact later
  have here : path.slice start (stop - start) ≠ [] := by
    rw [ne_eq, slice_isNil]
    omega
  rcases eq_or_lt_of_le high with done | more
  · subst done
    rw [splitOn_last low clear]
    simpa using here
  have later : stop + 1 < len := by
    rcases Nat.eq_or_lt_of_le more with ended | later
    · exact absurd (cut more) (by rwa [show stop = len - 1 by omega])
    · exact later
  rw [splitOn_at _ low more clear (cut more)]
  intro part member
  rcases mem_cons.mp member with rfl | member
  · exact here
  · exact parts_nonempty path len (stop + 1) later trailing
      (fun index first last => doubled index (by omega) last) (by simpa using cut more) part member
termination_by len - start

/-- A slash at the end of a name, or two in a row, make an empty component. -/
private lemma empty_part_mem (stop : Nat) (low : 1 ≤ stop) (high : stop < len)
    (cut : path stop = slash) (next : stop + 1 = len ∨ path (stop + 1) = slash)
    (room : stop + 1 = len ∨ stop + 1 < len) :
    [] ∈ (path.slice 1 (len - 1)).splitOn slash := by
  have pieces : path.slice 1 (len - 1) = path.slice 1 (stop - 1) ++ slash ::
    path.slice (stop + 1) (len - (stop + 1)) := by
    have sizes : len - 1 = (stop - 1) + ((len - (stop + 1)) + 1) := by omega
    rw [sizes, slice_add, show 1 + (stop - 1) = stop by omega, slice_succ, cut]
  rw [pieces, splitOn_append_cons_self]
  apply mem_append_right
  rcases next with ended | again
  · simp [← ended]
  rcases room with ended | later
  · simp [← ended]
  have cutAgain := splitOn_at path (le_refl (stop + 1)) later (fun index first last => by omega) again
  rw [cutAgain]
  simp

/-- Every slash of a path after the leading one stands between two components. -/
lemma PathShape.inner_slash (shape : PathShape path len) (low : 1 ≤ stop)
    (high : stop < len) (cut : path stop = slash) : 1 < stop ∧ stop + 1 < len := by
  rcases shape.components with one | good
  · omega
  constructor
  · by_contra first
    have same : stop = 1 := by omega
    subst same
    have pieces := splitOn_at path (le_refl 1) high (fun index first last => by omega) cut
    exact (good [] (by rw [pieces]; simp)).1 rfl
  · by_contra last
    have same : stop + 1 = len := by omega
    exact (good [] (empty_part_mem stop low high cut (.inl same) (.inl same))).1 rfl

lemma pathLen_some :
    pathLen (some path) = some len ↔ len ≤ maxPath ∧ path len = 0 ∧ ∀ index, index < len → path index ≠ 0 := by
  simp only [pathLen, find?_range_eq_some, beq_iff_eq, mem_range, Bool.not_eq_true', beq_eq_false_iff_ne]
  constructor
  · rintro ⟨zero, bound, before⟩
    exact ⟨by omega, zero, before⟩
  · rintro ⟨bound, zero, before⟩
    exact ⟨zero, by omega, before⟩

lemma pathOk_given {path len} (accepted : pathOk path = some len) : ∃ text, path = some text := by
  cases path with
  | none => simp [pathOk] at accepted
  | some text => exact ⟨text, rfl⟩

lemma pathOk_iff : pathOk (some path) = some len ↔ PathShape path len := by
  constructor
  · intro accepted
    rcases length : pathLen (some path) with _ | found
    · simp [pathOk, length] at accepted
    obtain ⟨bound, zero, _⟩ := pathLen_some.mp length
    simp only [pathOk, length, Option.ite_none_left_eq_some] at accepted
    obtain ⟨size, leading, bytes, trailing, doubled, dots, ⟨⟩⟩ := accepted
    have leading := Decidable.not_not.mp leading
    simp only [any_eq_true, mem_range'_1, not_exists, not_and, Bool.or_eq_true,
      decide_eq_true_eq, Bool.and_eq_true, beq_iff_eq] at bytes doubled
    refine ⟨by omega, bound, zero, leading, ?_, ?_⟩
    · intro index first last
      have := not_or.mp (bytes index (by omega))
      exact ⟨UInt8.not_lt.mp this.1, UInt8.not_lt.mp this.2⟩
    rcases eq_or_lt_of_le (show 1 ≤ len by omega) with one | more
    · exact .inl one.symm
    right
    have nonempty := parts_nonempty path len 1 more (fun slash => trailing ⟨more, slash⟩)
      (fun index first last here => doubled index (by omega) here) leading
    have free := (dotComponent_spec path len len 1 (by omega)).mp (by simpa using dots) more
    exact fun part member => ⟨nonempty part member, free part member⟩
  intro shape
  have bound := shape.bounded
  have length : pathLen (some path) = some len := by
    refine pathLen_some.mpr ⟨shape.bounded, shape.terminated, ?_⟩
    intro index inside
    rcases Nat.eq_zero_or_pos index with rfl | positive
    · rw [shape.leading]; decide
    · exact printable_ne_zero (shape.printable index positive inside)
  have bytes : ((range' 1 (len - 1)).any fun index => path index < 0x20 || path index > 0x7e) = false := by
    simp only [any_eq_false, mem_range'_1, Bool.or_eq_true, decide_eq_true_eq, not_or]
    intro index inside
    have := shape.printable index inside.1 (by omega)
    exact ⟨UInt8.not_lt.mpr this.1, UInt8.not_lt.mpr this.2⟩
  have trailing : ¬ (len > 1 ∧ path (len - 1) = slash) := by
    rintro ⟨more, last⟩
    rcases shape.components with one | good
    · omega
    · exact (good [] (empty_part_mem (len - 1) (by omega) (by omega) last (.inl (by omega)) (.inl (by omega)))).1 rfl
  have doubled : ((range' 1 (len - 1)).any fun index => path index == slash && path (index - 1) == slash) = false := by
    simp only [any_eq_false, mem_range'_1, Bool.and_eq_true, beq_iff_eq, not_and]
    intro index inside here before
    rcases shape.components with one | good
    · omega
    rcases eq_or_lt_of_le inside.1 with first | later
    · have cut := splitOn_at path (le_refl 1) (show 1 < len by omega) (fun index first last => by omega) (first ▸ here)
      exact (good [] (by rw [cut]; simp)).1 rfl
    refine (good [] (empty_part_mem (index - 1) (by omega) (by omega) before (.inr ?_) (.inr (by omega)))).1 rfl
    rw [show index - 1 + 1 = index by omega]
    exact here
  have dots : dotComponent path len len 1 = false := by
    refine (dotComponent_spec path len len 1 (by omega)).mpr fun more part member => ?_
    rcases shape.components with one | good
    · omega
    · exact (good part member).2
  have positive := shape.positive
  simp only [pathOk, length]
  rw [if_neg (by omega), if_neg (by simp [shape.leading]), bytes, if_neg trailing, doubled, dots]
  simp

end Rynor.Fs
