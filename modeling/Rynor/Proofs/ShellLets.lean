import Rynor.Proofs.ShellSession

/-! A let that passes every check in front of its evaluation is committed, and its variable then has the value of the
initialiser, exactly when the initialiser fits the stack of the evaluator and is not the empty string: the place of an
empty string is the end of the arena, which the ownership check of the commit takes to be outside. -/

namespace Rynor.Shell
open Checks Host List Option

variable {session : Session} {stale : Nat → Option Ty} {part bytes : List UInt8} {root off len init : Nat}
  {parser : Parser} {ty : Ty} {after : List Node}
  {row : Sym} {value : Value}

/-- What the analysis of a part reads. -/
def Session.context (session : Session) (part : List UInt8) (parser : Parser) : AnContext :=
  ⟨part, session.syms, session.src, parser.args⟩

/-- A newline-free let that passes every check in front of its evaluation. -/
structure WellFormed (session : Session) (stale : Nat → Option Ty) (part : List UInt8) (root : Nat) (parser : Parser)
    (off len : Nat) (ty : Ty) (init : Nat) (after : List Node) : Prop where
  plain : ch '\n' ∉ part
  short : part.length ≤ partMax
  parsed : parsePart part = .ok (root, parser)
  binding : parser.pool[root]? = some (.let off len ty init)
  typed : anSub (session.context part parser) stale parser.pool init = .ok (ty, after)
  valued : ty ≠ .unit
  free : reserved (slice part off len) = false
  fresh : lookup session.syms session.src (slice part off len) = none
  text : session.full (canon part) = false
  room : session.syms.length < symMax

/-- The submission is accepted, and the variable is then evaluated to the value the oracle expects. -/
def Holds (given : Submitted) (name : List UInt8) (ty : Ty) (expected : Oracle.Value) : Prop :=
  given.outcome.kind = .ok ∧ ∃ value : Value, value.ty = ty ∧ value.host = expected ∧ ∀ off len,
    eval (given.session.evalContext [.var off len (lookup given.session.syms given.session.src name)]) 0 =
      .ok (value, [])

/-- A submission leaves its own arena empty and keeps the strings within theirs. -/
lemma submit_arenas (memory : session.arena.length ≤ sessArena) :
    (session.submit stale part).session.sub = 0 ∧ (session.submit stale part).session.arena.length ≤ sessArena := by
  unfold Session.submit Session.candidate Session.submitLet Session.submitBare Session.commit
  dsimp only
  repeat' split
  all_goals first
    | exact ⟨rfl, memory⟩
    | skip
  refine ⟨rfl, ?_⟩
  simp only [Session.done, length_append]
  omega

lemma Reaches.arenas (reached : Reaches .init session) : session.sub = 0 ∧ session.arena.length ≤ sessArena := by
  induction reached with
  | refl => exact ⟨rfl, Nat.zero_le _⟩
  | submit _ _ _ ih => exact submit_arenas ih.2

lemma let_place (parsed : parsePart part = .ok (root, parser))
    (here : parser.pool[root]? = some (.let off len ty init)) :
    ∃ start, off = start + (part.length - (trimFront part).length) ∧ start + len ≤ (trimmed part).length ∧
      slice (trimmed part) start len = slice part off len := by
  obtain ⟨front, back, around, trim⟩ := around_trimmed part
  obtain ⟨⟨own, held⟩, _, same, near⟩ := (parsePart_near around).ok_left parsed
  cases same
  obtain ⟨node, found, moved, inside⟩ := near.pool.at here
  cases node <;> cases moved
  exact ⟨_, by rw [trim], inside, (around.stands _ _ inside).symm⟩

/-- The name of a committed let is found in its row. -/
lemma lookup_committed (built : Built session.src session.syms)
    (fresh : lookup session.syms session.src (slice part off len) = none)
    (parsed : parsePart part = .ok (root, parser)) (here : parser.pool[root]? = some (.let off len ty init))
    (place : row.nameOff = session.src.length + (off - (part.length - (trimFront part).length)))
    (width : row.nameLen = len) :
    lookup (session.syms ++ [row]) (session.src ++ (trimmed part ++ [ch '\n']))
    (slice part off len) = some session.syms.length := by
  obtain ⟨start, placed, inside, same⟩ := let_place parsed here
  rw [placed, Nat.add_sub_cancel] at place
  have old := (lookup_grown built.inside (trimmed part ++ [ch '\n']) (slice part off len)).trans fresh
  have long : (slice part off len).length = len := by
    rw [← same, slice, length_take, length_drop]
    omega
  unfold lookup at old ⊢
  rw [findIdx?_append, old, findIdx?_singleton, place, width, slice_middle inside, same, long]
  simp

lemma arena_small (memory : used ≤ sessArena) : used % 18446744073709551616 = used := by
  have cap : sessArena = 4608 := rfl
  omega

/-- The ownership check of a commit fails for the empty string only. -/
lemma ownCheck_staged {start} (owned : ownCheck session.syms session.arena.length)
    (memory : session.arena.length + bytes.length ≤ sessArena)
    (staged : stagedRow start len ty session.arena.length value = some (row, bytes)) :
    ownCheck (session.syms ++ [row]) (session.arena.length + bytes.length) = true ↔ value ≠ .str [] := by
  have older : ownCheck session.syms (session.arena.length + bytes.length) = true := by
    unfold ownCheck at owned ⊢
    rw [List.all_eq_true] at owned ⊢
    intro sym found
    have each := owned sym found
    simp only [Bool.or_eq_true, Bool.and_eq_true, decide_eq_true_eq] at each ⊢
    rcases each with other | ⟨⟨clear, inside⟩, fits⟩
    · exact .inl other
    · exact .inr ⟨⟨clear, by omega⟩, by omega⟩
  have split : ownCheck (session.syms ++ [row]) (session.arena.length + bytes.length) =
    ownCheck [row] (session.arena.length + bytes.length) := by
    unfold ownCheck at older ⊢
    rw [all_append, older, Bool.true_and]
  rw [split]
  cases value with
  | unit => cases staged
  | int | bool =>
    simp only [stagedRow, ite_none_right_eq_some] at staged
    obtain ⟨rfl, same⟩ := staged
    cases same
    simp [ownCheck]
  | str text =>
    simp only [stagedRow, ite_none_right_eq_some] at staged
    obtain ⟨rfl, same⟩ := staged
    cases same
    simp [ownCheck, arena_small (Nat.le_of_add_right_le memory), length_pos_iff]

lemma eval_row {pool : List Node} {syms : List Sym} {arena : List UInt8} {index : Nat}
    (here : pool = [.var off len (some index)]) (found : syms[index]? = some row)
    (held : row.value arena = some value) : eval ⟨pool, syms, arena⟩ 0 = .ok (value, []) := by
  subst here
  simp [eval, walkFuel, poolMax, evalLoop, evalStep, evalFirst, EvalState.push, subVcap, found, held, bind,
    Except.bind, pure, Except.pure]

/-- A value is staged with its bytes, and its row denotes it. -/
lemma stagedRow_value {arena : List UInt8} (start len : Nat) (valued : value.ty ≠ .unit)
    (memory : arena.length ≤ sessArena) :
    ∃ row bytes, stagedRow start len value.ty arena.length value = some (row, bytes) ∧ row.value
    (arena ++ bytes) = some value ∧
      (value.host = .text bytes ∨ bytes = []) := by
  cases value with
  | unit => exact absurd rfl valued
  | int bits => exact ⟨_, _, rfl, rfl, .inr rfl⟩
  | bool truth => exact ⟨_, _, rfl, by cases truth <;> rfl, .inr rfl⟩
  | str text =>
    refine ⟨_, _, rfl, ?_, .inl rfl⟩
    simp [Sym.value, Value.ty, arena_small memory, slice]

lemma host_empty : value.host = .text [] ↔ value = .str [] := by
  cases value <;> simp [Value.host, Oracle.truth]

lemma WellFormed.submit (formed : WellFormed session stale part root parser off len ty init after)
    (reset : session.sub = 0) (rebuilt : rebuild session stale = some ()) :
    session.submit stale part = session.submitLet stale part (trimmed part ++ [ch '\n'])
    (part.length - (trimFront part).length) parser off len ty init := by
  have filled : part.length ≠ 0 := mt length_eq_zero_iff.mp (parsePart_filled formed.parsed)
  have carved : carve session.sub = some 6688 := by rw [reset]; rfl
  have text := formed.text
  cases found : canon part with
  | none => simp [found, Session.full] at text
  | some canonical =>
    obtain ⟨canonical, trim⟩ := canonical
    obtain ⟨rfl, rfl⟩ := canon_some found
    simp [Session.submit, filled, Nat.not_lt.mpr formed.short, carved, text, rebuilt, Session.candidate,
      formed.parsed, formed.binding]
    rw [found]

/-- For every reachable session, every newline-free let that passes the checks in front of its evaluation and does not
trap, and whose string the arena can hold. -/
theorem let_commits_iff (reached : Reaches .init session)
    (formed : WellFormed session stale part root parser off len ty init after) :
    ∃ tree, Reads (Bound (session.context part parser)) after init tree ∧
      ∀ expected, tree.oracle (envOf (session.context part parser) session.arena) = some expected →
        (∀ text, expected = .text text → session.arena.length + text.length ≤ sessArena) →
        (Holds (session.submit stale part) (slice part off len) ty expected ↔
          tree.peak (envOf (session.context part parser) session.arena) ≤ subVcap ∧ expected ≠ .text []) := by
  have healthy := healthy_init.reaches reached
  obtain ⟨reset, memory⟩ := reached.arenas
  obtain ⟨bounded, body⟩ := parsePart_let formed.parsed formed.binding
  obtain ⟨tree, reads, fits, small, checked⟩ := body.valued bounded formed.typed formed.valued
  refine ⟨tree, reads, fun expected given held => ?_⟩
  have ran : eval (session.evalContext after) init = _ := eval_runs (check_pure checked formed.valued) reads fits small
  have typed : anSub ⟨part, session.syms, session.src, parser.args⟩ stale parser.pool init = .ok (ty, after) :=
    formed.typed
  have called := formed.submit reset (healthy.built.rebuilds stale)
  simp only [Session.submitLet, typed, formed.valued, ne_eq, not_true, or_false, if_false, formed.free,
    Bool.false_eq_true, formed.fresh, isSome_none,
    Nat.not_le.mpr formed.room, ran] at called
  cases run_oracle memory checked formed.valued with
  | overflow deep ended =>
    rw [ended] at called
    refine ⟨fun holds => ?_, fun fit => absurd fit.1 (by omega)⟩
    rw [called] at holds
    cases holds.1
  | trap _ trapped => cases trapped.symm.trans given
  | value value room _ same agrees ended =>
    rw [ended] at called
    cases agrees.symm.trans given
    subst same
    obtain ⟨row, bytes, staged, denotes, whole⟩ :=
      stagedRow_value (session.src.length + (off - (part.length - (trimFront part).length))) len formed.valued memory
    have inside : session.arena.length + bytes.length ≤ sessArena := by
      rcases whole with text | rfl
      · exact held bytes text
      · exact memory
    obtain ⟨place, width, _⟩ := stagedRow_some staged
    simp only [Except.map, staged, Session.commit, Nat.not_lt.mpr (Nat.le_sub_of_add_le' inside), if_false] at called
    rw [ne_eq, host_empty, ← ne_eq, ← ownCheck_staged healthy.owned inside staged]
    refine ⟨fun holds => ⟨by omega, ?_⟩, fun fit => ?_⟩
    · by_contra stale
      rw [called, if_neg stale] at holds
      cases holds.1
    · rw [if_pos fit.2] at called
      rw [called]
      refine ⟨rfl, value, rfl, rfl, fun off len => ?_⟩
      refine eval_row (congrArg (fun slot => [Node.var _ _ slot]) ?_) (getElem?_concat_length ..) denotes
      exact lookup_committed healthy.built formed.fresh formed.parsed formed.binding place width

def stringLet : List UInt8 := ascii "let s : str = \"hi\""

/-- The session after its first let. -/
def afterString : Session := (Session.init.submit (fun _ => none) stringLet).session

def lengthLet : List UInt8 := ascii "let n : int = len(s) + 3"

/-- The nodes of the second let, where `row` is the row its variable is bound to. -/
def lengthPool (row : Option Nat) : List Node :=
  [.var 14 3 none, .var 18 1 row, .len (some 1) 1, .int 3, .binop .add 2 3, .let 4 1 .int 4]

lemma formed_length : WellFormed afterString (fun _ => none) lengthLet 5 ⟨.eof, lengthPool none, []⟩ 4 1 .int 4
    (lengthPool (some 0)) where
  plain := by decide
  short := by decide
  parsed := by decide +kernel
  binding := rfl
  typed := by decide +kernel
  valued := by decide
  free := by decide +kernel
  fresh := by decide +kernel
  text := by decide +kernel
  room := by decide +kernel

/-- A session that holds `s` takes a let that reads it, and `n` is then 5. -/
theorem let_commits_iff_length : Holds (afterString.submit (fun _ => none) lengthLet) (ascii "n") .int (.num 5) := by
  have reached : Reaches .init afterString := .submit .refl _ (by decide)
  obtain ⟨tree, reads, commits⟩ := let_commits_iff reached formed_length
  have shape : Reads anySlot (lengthPool (some 0)) 4 (.binop .add (.len (.var 18 1) 1) (.int 3)) :=
    .binop rfl (.len rfl (.var rfl trivial)) (.int rfl)
  cases reads.unique shape
  exact (commits (.num 5) (by decide +kernel) (by simp)).mpr ⟨by decide +kernel, by simp⟩

def emptyLet : List UInt8 := ascii "let s : str = \"\""

def emptyPool : List Node := [.str [], .let 4 1 .str 0]

lemma formed_empty : WellFormed .init (fun _ => none) emptyLet 1 ⟨.eof, emptyPool, []⟩ 4 1 .str 0 emptyPool where
  plain := by decide
  short := by decide
  parsed := by decide +kernel
  binding := rfl
  typed := by decide +kernel
  valued := by decide
  free := by decide +kernel
  fresh := rfl
  text := by decide +kernel
  room := by decide

/-- The first let of a session, of the empty string. -/
theorem empty_string_refused : (Session.init.submit (fun _ => none) emptyLet).outcome = ⟨.ownFail, .ownFail⟩ ∧
    ∃ root parser off len init after, WellFormed .init (fun _ => none) emptyLet root parser off len .str init after :=
  ⟨by decide +kernel, _, _, _, _, _, _, formed_empty⟩

end Rynor.Shell
