import Rynor.Proofs.ShellEval
import Rynor.Proofs.ShellMoved

/-! The session over its submissions. What a let was checked against when it was committed is still there when the
accepted text is rebuilt: its trimmed line parses like the part it came from, the rows before it are the same, and
their names still stand where they were. So the rebuild never fails, and a submission that is not a committed let
leaves the session as it was. -/

namespace Rynor.Shell
open Checks List Option

variable {trim off len : Nat} {line part src more arena : List UInt8} {pool own : List Node} {args others : List Nat}
  {tab : List Sym} {root : Nat} {parser : Parser} {stale : Nat → Option Ty}
  {ty : Ty} {tree : Tree}

/-! The analysis of a part and of its line. -/

lemma resolveType_near (stands : Stands trim line part) (inside : off + len ≤ line.length)
    (looks : ∀ name, lookup tab more name = lookup tab src name) :
    resolveType ⟨line, tab, more, others⟩ off len = resolveType ⟨part, tab, src, args⟩ (off + trim) len := by
  unfold resolveType
  simp only [stands off len inside, looks]

lemma calleeName_near (stands : Stands trim line part) (near : NearPool trim line pool own) :
    calleeName ⟨line, tab, more, others⟩ own callee = calleeName ⟨part, tab, src, args⟩ pool callee := by
  unfold calleeName
  rw [near.get?]
  cases found : own[callee]? with
  | none => rfl
  | some node =>
    have inside := near.inside node (mem_of_getElem? found)
    cases node with
    | var off len slot => simp only [map_some, Node.moved, stands off len inside]
    | int | bool | str | unop | binop | call | len | cmd | pipe | «let» | word | redirect => rfl

lemma NearPool.at {node : Node} {index : Nat} (near : NearPool trim line pool own) (here : pool[index]? = some node) :
    ∃ held, own[index]? = some held ∧ held.moved trim = node ∧ held.Inside line := by
  rw [near.get?, map_eq_some_iff] at here
  obtain ⟨held, found, moved⟩ := here
  exact ⟨held, found, moved, near.inside held (mem_of_getElem? found)⟩

/-- The tree of the line has the size and the type of the part's. -/
lemma Reads.near {index : Nat} (others args : List Nat) (reads : Reads anySlot pool index tree)
    (near : NearPool trim line pool own) (stands : Stands trim line part)
    (looks : ∀ name, lookup tab more name = lookup tab src name) :
    ∃ held, Reads anySlot own index held ∧ held.size = tree.size ∧ held.check ⟨line, tab, more, others⟩
    (calleeName ⟨line, tab, more, others⟩ own) =
        tree.check ⟨part, tab, src, args⟩ (calleeName ⟨part, tab, src, args⟩ pool) := by
  have callees : calleeName ⟨line, tab, more, others⟩ own = calleeName ⟨part, tab, src, args⟩ pool :=
    funext fun _ => calleeName_near stands near
  rw [callees]
  induction reads with
  | int here | bool here | str here =>
    obtain ⟨held, found, moved, _⟩ := near.at here
    cases held <;> cases moved
    exact ⟨_, by first | exact .int found | exact .bool found | exact .str found, rfl, rfl⟩
  | var here _ =>
    obtain ⟨held, found, moved, inside⟩ := near.at here
    cases held <;> cases moved
    exact ⟨_, .var found trivial, rfl, resolveType_near stands inside looks⟩
  | unop here _ ih | call here _ ih | len here _ ih =>
    obtain ⟨held, found, moved, _⟩ := near.at here
    obtain ⟨a, reads, size, checked⟩ := ih
    cases held <;> cases moved
    refine ⟨_, by first | exact .unop found reads | exact .call found reads | exact .len found reads,
      congrArg (1 + ·) size, ?_⟩
    simp only [Tree.check, checked]
  | binop here _ _ first second =>
    obtain ⟨held, found, moved, _⟩ := near.at here
    obtain ⟨a, left, leftSize, leftChecked⟩ := first
    obtain ⟨b, right, rightSize, rightChecked⟩ := second
    cases held <;> cases moved
    exact ⟨_, .binop found left right, by simp only [Tree.size, leftSize, rightSize], by
      simp only [Tree.check, leftChecked, rightChecked]⟩

lemma anSub_lone (here : pool[root]? = some (.cmd off len base 0))
    (bounded : pool.length ≤ poolMax) (found : resolveType context off len = .ok ty) :
    ∃ after, anSub context stale pool root = .ok (ty, after) := by
  have inside := (List.getElem?_eq_some_iff.mp here).1
  refine ⟨pool.set root (.var off len (lookup context.tab context.src (slice context.text off len))), ?_⟩
  unfold anSub
  rw [if_neg (by omega : ¬ root ≥ poolMax)]
  change (anLoop context (511 + 1 + 1) ⟨pool, stale, (root, false) :: []⟩ >>= _) = _
  rw [anLoop_first here bounded]
  change ((AnState.resolve context ⟨pool, stale, []⟩ root off len >>= _) >>= _) = _
  rw [resolve_eq, found]
  simp [bind, Except.bind, anLoop, AnState.setType, pure, Except.pure]

/-- The analysis of a line gives the type that was found for the part, whatever the types held before and wherever
the accepted text has grown. -/
lemma Root.again {fresh : Nat → Option Ty} {after : List Node} (body : Root pool root) (bounded : pool.length ≤ poolMax)
    (near : NearPool trim line pool own) (stands : Stands trim line part)
    (looks : ∀ name, lookup tab more name = lookup tab src name)
    (valued : ty ≠ .unit) (analysed : anSub ⟨part, tab, src, args⟩ stale pool root = .ok (ty, after)) :
    ∃ later, anSub ⟨line, tab, more, others⟩ fresh own root = .ok (ty, later) := by
  have small : own.length ≤ poolMax := by
    rw [near.same, length_map] at bounded
    exact bounded
  cases body with
  | tree whole =>
    obtain ⟨tree, reads, fits⟩ := whole
    obtain ⟨held, heldReads, size, same⟩ := reads.near others args near stands looks
    have heldFits : held.size ≤ own.length := by
      rw [near.same, length_map] at fits
      omega
    rcases anSub_tree reads fits bounded with ⟨diag, _, stopped⟩ | ⟨found, _, checked, ran, _, _⟩
    · cases stopped.symm.trans analysed
    cases ran.symm.trans analysed
    rcases anSub_tree heldReads heldFits small with ⟨diag, failed, _⟩ | ⟨again, later, heldChecked, heldRan, _, _⟩
    · cases (same.trans checked).symm.trans failed
    · cases (same.trans checked).symm.trans heldChecked
      exact ⟨later, heldRan⟩
  | @cmd off len base nargs here =>
    obtain ⟨held, found, moved, inside⟩ := near.at here
    have lone : nargs = 0 := by
      by_contra given
      exact valued (anSub_args bounded analysed here given)
    subst lone
    obtain ⟨_, checked, _⟩ : _ ∧ Tree.check ⟨part, tab, src, args⟩ (fun _ => none) (.var off len) = .ok ty ∧ _ :=
      anSub_word bounded analysed here valued
    cases held <;> cases moved
    refine anSub_lone found small ?_
    rw [resolveType_near stands inside looks]
    exact checked
  | pipe here => exact absurd (anSub_pipe bounded analysed here) valued

/-! Accepted items. -/

/-- What a committed let was checked for: its line is an item that declares the row, over any text that goes on from
the one accepted before it. -/
structure Item (src : List UInt8) (tab : List Sym) (line : List UInt8) (row : Sym) : Prop where
  filled : line ≠ []
  plain : ch '\n' ∉ line
  room : tab.length < symMax
  body : ∃ root parser off init, parsePart line = .ok (root, parser) ∧
    parser.pool[root]? = some (.let off row.nameLen row.type init) ∧
    row.nameOff = src.length + off ∧ off + row.nameLen ≤ line.length ∧ lookup tab src (slice line off row.nameLen) =
      none ∧
      ∀ more stale, ∃ pool, anSub ⟨line, tab, src ++ more, parser.args⟩ stale parser.pool init = .ok (row.type, pool)

/-- Accepted text and the rows it declares. -/
inductive Built : List UInt8 → List Sym → Prop
  | empty : Built [] []
  | item {src tab line row} (before : Built src tab) (item : Item src tab line row) :
    Built (src ++ (line ++ [ch '\n'])) (tab ++ [row])

lemma slice_append (inside : off + len ≤ text.length) (more : List UInt8) :
    slice (text ++ more) off len = slice text off len := by
  have front := slice_middle inside [] more
  rwa [nil_append, length_nil, zero_add] at front

lemma Built.inside (built : Built src tab) : ∀ row ∈ tab, row.nameOff + row.nameLen ≤ src.length := by
  induction built with
  | empty => nofun
  | @item src tab line row before item ih =>
    intro other found
    rcases mem_append.mp found with old | new
    · have bound := ih other old
      rw [length_append]
      omega
    cases mem_singleton.mp new
    obtain ⟨_, _, off, _, _, _, place, bound, _⟩ := item.body
    rw [place, length_append, length_append]
    omega

lemma lookup_grown (inside : ∀ row ∈ tab, row.nameOff + row.nameLen ≤ src.length) (more name : List UInt8) :
    lookup tab (src ++ more) name = lookup tab src name := by
  unfold lookup
  induction tab with
  | nil => rfl
  | cons row tab ih =>
    rw [findIdx?_cons, findIdx?_cons, slice_append (inside row (mem_cons_self ..)),
      ih fun other found => inside other (mem_cons_of_mem _ found)]

/-! The rebuild. -/

lemma items_line (plain : ch '\n' ∉ line) (rest : List UInt8) :
    items start early (line ++ ch '\n' :: rest) = (start, early ++ line) :: items
    (start + (early ++ line).length + 1) [] rest := by
  induction line generalizing early with
  | nil =>
    rw [nil_append, append_nil, items, if_pos rfl]
  | cons c line ih =>
    have other : ¬ c = ch '\n' := fun same => plain (same ▸ mem_cons_self ..)
    rw [cons_append, items, if_neg other, ih fun inside => plain (mem_cons_of_mem _ inside), append_assoc,
      singleton_append]

lemma Built.items (built : Built src tab) (rest : List UInt8) :
    items 0 [] (src ++ rest) = items 0 [] src ++ items src.length [] rest := by
  induction built generalizing rest with
  | empty => rfl
  | @item src tab line row before item ih =>
    have line_ : ∀ start rest, Shell.items start [] ((line ++ [ch '\n']) ++ rest) = (start, line) ::
      Shell.items (start + line.length + 1) [] rest :=
      fun start rest => by
        rw [append_assoc, singleton_append, items_line item.plain]
        rfl
    have alone : Shell.items src.length [] (line ++ [ch '\n']) = [(src.length, line)] := by
      have split := line_ src.length []
      rw [append_nil] at split
      exact split
    rw [append_assoc, ih, ih, line_, alone, append_assoc, singleton_append, length_append, length_append]
    rfl

/-- The rebuild of the items up to some accepted text counts the rows they declare. -/
lemma Built.counts (built : Built src tab) (text : session.src = src ++ more) (table : session.syms = tab ++ rows) :
    (Shell.items 0 [] src).foldlM (rebuildItem session stale) 0 = some tab.length := by
  induction built generalizing more rows with
  | empty => rfl
  | @item src tab line row before item ih =>
    have split : Shell.items 0 [] (src ++ (line ++ [ch '\n'])) = Shell.items 0 [] src ++ [(src.length, line)] := by
      rw [before.items, items_line item.plain]
      rfl
    have counted := ih (text.trans (append_assoc ..)) (table.trans (append_assoc ..))
    rw [split, foldlM_append, counted]
    show rebuildItem session stale tab.length (src.length, line) >>= _ = _
    obtain ⟨root, parser, off, init, parsed, here, place, inside, fresh, typed⟩ := item.body
    have rowsBefore : session.syms.take tab.length = tab := by
      rw [table, append_assoc, take_left]
    have grown : session.src = src ++ (line ++ ([ch '\n'] ++ more)) := by rw [text]; simp only [append_assoc]
    have name : slice session.src (src.length + off) row.nameLen = slice line off row.nameLen := by
      rw [grown, slice_middle inside]
    have unknown : lookup tab session.src (slice line off row.nameLen) = none := by
      rw [grown, lookup_grown before.inside, fresh]
    obtain ⟨pool, analysed⟩ : ∃ pool, anSub ⟨line, tab, session.src, parser.args⟩ stale parser.pool init =
      .ok (row.type, pool) := by
      rw [grown]
      exact typed _ stale
    have space : ¬ (tab.length ≥ session.syms.length ∨ tab.length ≥ symMax) := by
      have free := item.room
      rw [table, length_append, length_append, length_singleton]
      omega
    have rebuilt : rebuildItem session stale tab.length (src.length, line) = some (tab.length + 1) := by
      simp only [rebuildItem, if_neg item.filled, parsed, here, rowsBefore, analysed, ne_eq, not_true, if_false,
        name, unknown,
        isSome_none, Bool.false_eq_true, if_neg space]
    rw [rebuilt, length_append]
    rfl

lemma Built.rebuilds (built : Built session.src session.syms) (stale : Nat → Option Ty) :
    rebuild session stale = some () := by
  unfold rebuild
  rw [built.counts (append_nil _).symm (append_nil _).symm]
  exact if_pos rfl

/-! Submissions. -/

/-- What survives a submission is as before. -/
structure Same (session later : Session) : Prop where
  src : later.src = session.src
  syms : later.syms = session.syms
  arena : later.arena = session.arena

lemma same_fail (session : Session) (kind : SubKind) (diag : Diag) : Same session (session.fail kind diag).session :=
  ⟨rfl, rfl, rfl⟩

/-- A committed let: its line and its row behind the ones before. -/
structure Commits (session : Session) (part : List UInt8) (given : Submitted) : Prop where
  accepted : given.outcome.kind = .ok
  binding : ∃ root parser off len ty init, parsePart part = .ok (root, parser) ∧
    parser.pool[root]? = some (.let off len ty init)
  grown : ∃ row bytes, given.session = ⟨session.src ++ (trimmed part ++ [ch '\n']), session.syms ++ [row],
    session.arena ++ bytes, 0⟩ ∧
    (Built session.src session.syms → ch '\n' ∉ part → Item session.src session.syms (trimmed part) row) ∧
      ownCheck (session.syms ++ [row]) (session.arena ++ bytes).length

lemma stagedRow_some (staged : stagedRow off len ty used value = some (row, bytes)) :
    row.nameOff = off ∧ row.nameLen = len ∧ row.type = ty := by
  cases value with
  | unit => cases staged
  | int | bool | str =>
    simp only [stagedRow, ite_none_right_eq_some] at staged
    cases staged.2
    exact ⟨rfl, rfl, rfl⟩

lemma parsePart_filled (parsed : parsePart line = .ok (root, parser)) : line ≠ [] := by
  rintro rfl
  cases (rfl : parsePart [] = .error .syntaxError).symm.trans parsed

lemma trimmed_plain (plain : ch '\n' ∉ part) : ch '\n' ∉ trimmed part := by
  obtain ⟨front, back, around, _⟩ := around_trimmed part
  intro inside
  exact plain (around.whole ▸ mem_append_right _ (mem_append_left _ inside))

lemma parsePart_let (parsed : parsePart part = .ok (root, parser))
    (here : parser.pool[root]? = some (.let off len ty init)) :
    parser.pool.length ≤ poolMax ∧ Root parser.pool init := by
  obtain ⟨bounded, accepted⟩ := parsePart_accepted _ parsed
  cases accepted with
  | binding known body =>
    cases here.symm.trans known
    exact ⟨bounded, body⟩
  | bare body => exact absurd here (body.bare _ _ _ _)

lemma item_of_let {init : Nat} {after : List Node} {row : Sym} (built : Built src tab)
    (plain : ch '\n' ∉ part) (parsed : parsePart part = .ok (root, parser))
    (here : parser.pool[root]? = some (.let off len ty init))
    (analysed : anSub ⟨part, tab, src, parser.args⟩ stale parser.pool init = .ok (ty, after)) (valued : ty ≠ .unit)
    (fresh : lookup tab src (slice part off len) = none) (room : tab.length < symMax)
    (place : row.nameOff = src.length + (off - (part.length - (trimFront part).length))) (width : row.nameLen = len)
    (typed : row.type = ty) :
    Item src tab (trimmed part) row := by
  obtain ⟨front, back, around, trim⟩ := around_trimmed part
  obtain ⟨⟨own, held⟩, lineParsed, same, near⟩ := (parsePart_near around).ok_left parsed
  obtain ⟨bounded, body⟩ := parsePart_let parsed here
  cases same
  obtain ⟨node, found, moved, inside⟩ := near.pool.at here
  cases node <;> cases moved
  next off =>
  refine ⟨parsePart_filled lineParsed, trimmed_plain plain, room, root, held, off, init, lineParsed, ?_, ?_, ?_, ?_, ?_⟩
  · rw [width, typed]
    exact found
  · rw [place, ← trim]
    omega
  · rw [width]
    exact inside
  · rw [width, ← around.stands off len inside]
    exact fresh
  · intro more fresh
    rw [typed]
    exact body.again bounded near.pool around.stands (lookup_grown built.inside more) valued analysed

variable {session later : Session} {stale : Nat → Option Ty} {canonical : List UInt8}

lemma submitLet_effect (parsed : parsePart part = .ok (root, parser))
    (here : parser.pool[root]? = some (.let off len ty init)) :
    Same session (session.submitLet stale part (trimmed part ++ [ch '\n']) (part.length - (trimFront part).length)
      parser off len ty init).session ∨
      Commits session part (session.submitLet stale part (trimmed part ++ [ch '\n'])
        (part.length - (trimFront part).length) parser off len ty init) := by
  unfold Session.submitLet
  split
  next => exact .inl (same_fail ..)
  rename_i found pool analysed
  dsimp only
  split
  next => exact .inl (same_fail ..)
  rename_i typed
  split
  next => exact .inl (same_fail ..)
  split
  next => exact .inl (same_fail ..)
  rename_i fresh
  split
  next => exact .inl (same_fail ..)
  rename_i room
  split
  next => exact .inl (same_fail ..)
  next => exact .inl (same_fail ..)
  split
  next => exact .inl (same_fail ..)
  rename_i row bytes staged
  split
  next => exact .inl (same_fail ..)
  unfold Session.commit
  dsimp only
  split
  case isFalse => exact .inl (same_fail ..)
  rename_i owned
  obtain ⟨place, width, kind⟩ := stagedRow_some staged
  simp only [not_or, Decidable.not_not] at typed
  obtain ⟨valued, rfl⟩ := typed
  refine .inr ⟨rfl, ⟨root, parser, off, len, _, init, parsed, here⟩, row, bytes, rfl, fun built plain => ?_, by
    rw [length_append]; exact owned⟩
  exact item_of_let built plain parsed here analysed valued (not_isSome_iff_eq_none.mp fresh) (Nat.not_le.mp room)
    place width kind

lemma submitBare_same : Same session (session.submitBare stale part parser root).session := by
  unfold Session.submitBare
  split
  next => exact same_fail ..
  split
  next => exact same_fail ..
  next => exact same_fail ..
  next => exact ⟨rfl, rfl, rfl⟩
  next => exact ⟨rfl, rfl, rfl⟩
  split
  next => exact same_fail ..
  next => exact ⟨rfl, rfl, rfl⟩

lemma canon_some (found : canon part = some (canonical, trim)) :
    canonical = trimmed part ++ [ch '\n'] ∧ trim = part.length - (trimFront part).length := by
  unfold canon at found
  split at found
  next => cases found
  cases found
  exact ⟨rfl, rfl⟩

/-- A submission leaves what survives it as it was, or commits a let. -/
lemma submit_effect (session : Session) (stale : Nat → Option Ty) (part : List UInt8) :
    Same session (session.submit stale part).session ∨ Commits session part (session.submit stale part) := by
  unfold Session.submit
  iterate 4
    split
    next => exact .inl (same_fail ..)
  unfold Session.candidate
  split
  next => exact .inl (same_fail ..)
  next => exact .inl (same_fail ..)
  rename_i root parser parsed
  split
  next off len ty init here =>
    split
    next => exact .inl (same_fail ..)
    split
    next => exact .inl (same_fail ..)
    rename_i canonical trim found
    obtain ⟨rfl, rfl⟩ := canon_some found
    exact submitLet_effect parsed here
  next => exact .inl submitBare_same

/-! Runs. -/

/-- Any number of newline-free submissions, whatever the submission arena held before each. -/
inductive Reaches (first : Session) : Session → Prop
  | refl : Reaches first first
  | submit {last} (before : Reaches first last) (stale : Nat → Option Ty) {part} (plain : ch '\n' ∉ part) :
    Reaches first (last.submit stale part).session

/-- What the session keeps: its text rebuilds to its table, and its strings lie in the used part of the arena. -/
structure Healthy (session : Session) : Prop where
  built : Built session.src session.syms
  owned : ownCheck session.syms session.arena.length

lemma Healthy.submit (healthy : Healthy session) (plain : ch '\n' ∉ part) :
    Healthy (session.submit stale part).session := by
  rcases submit_effect session stale part with same | commits
  · exact ⟨by rw [same.src, same.syms]; exact healthy.built, by rw [same.syms, same.arena]; exact healthy.owned⟩
  obtain ⟨row, bytes, grown, item, owned⟩ := commits.grown
  rw [grown]
  exact ⟨.item healthy.built (item healthy.built plain), owned⟩

lemma Healthy.reaches (healthy : Healthy session) (reached : Reaches session later) : Healthy later := by
  induction reached with
  | refl => exact healthy
  | submit _ stale plain ih => exact ih.submit plain

lemma healthy_init : Healthy .init := ⟨.empty, rfl⟩

/-- A row denotes the same bytes in a later session. -/
structure Denotes (session later : Session) (row : Sym) : Prop where
  named : row.nameOff + row.nameLen ≤ session.src.length
  name : slice later.src row.nameOff row.nameLen = slice session.src row.nameOff row.nameLen
  held : row.type = .str → row.pay.toNat + row.strLen ≤ session.arena.length
  text : row.type = .str → slice later.arena row.pay.toNat row.strLen = slice session.arena row.pay.toNat row.strLen

lemma owned_inside (owned : ownCheck tab used) (found : row ∈ tab) (text : row.type = .str) :
    row.pay.toNat + row.strLen ≤ used := by
  have each := all_eq_true.mp owned row found
  rw [text] at each
  simp at each
  omega

/-- Accepted text, rows and strings only grow. -/
lemma Reaches.grows (reached : Reaches session later) :
    (∃ more, later.src = session.src ++ more) ∧ (∃ rows, later.syms = session.syms ++ rows) ∧
    ∃ bytes, later.arena = session.arena ++ bytes := by
  induction reached with
  | refl => exact ⟨⟨[], (append_nil _).symm⟩, ⟨[], (append_nil _).symm⟩, [], (append_nil _).symm⟩
  | @submit last _ stale part plain ih =>
    obtain ⟨⟨more, text⟩, ⟨rows, table⟩, bytes, arena⟩ := ih
    rcases submit_effect last stale part with same | commits
    · rw [same.src, same.syms, same.arena]
      exact ⟨⟨more, text⟩, ⟨rows, table⟩, bytes, arena⟩
    obtain ⟨row, new, grown, _⟩ := commits.grown
    rw [grown]
    dsimp only
    rw [text, table, arena, append_assoc, append_assoc, append_assoc]
    exact ⟨⟨_, rfl⟩, ⟨_, rfl⟩, _, rfl⟩

lemma Healthy.denotes (healthy : Healthy session) (reached : Reaches session later) (found : row ∈ session.syms) :
    Denotes session later row := by
  obtain ⟨⟨more, text⟩, _, bytes, arena⟩ := reached.grows
  have named := healthy.built.inside row found
  have held := owned_inside healthy.owned found
  refine ⟨named, ?_, held, fun string => ?_⟩
  · rw [text, slice_append named]
  · rw [arena, slice_append (held string)]

/-- From the initial session, over any newline-free submissions: the rebuild succeeds, a submission that is not
accepted and a bare one leave what survives as it was, and every row goes on denoting its name and its string. -/
theorem session_transactional (reached : Reaches .init session) :
    (∀ stale, rebuild session stale = some ()) ∧
    (∀ stale part, (session.submit stale part).outcome.kind ≠ .ok → Same session (session.submit stale part).session) ∧
    (∀ stale part root parser, parsePart part = .ok (root, parser) →
      (∀ off len ty init, parser.pool[root]? ≠ some (.let off len ty init)) →
      Same session (session.submit stale part).session) ∧
    ∀ later, Reaches session later → ∀ (index : Nat) row, session.syms[index]? = some row →
      later.syms[index]? = some row ∧ Denotes session later row := by
  have healthy := healthy_init.reaches reached
  refine ⟨healthy.built.rebuilds, fun stale part refused => ?_, fun stale part root parser parsed bare => ?_,
    fun later on index row found => ?_⟩
  · rcases submit_effect session stale part with same | commits
    · exact same
    · exact absurd commits.accepted refused
  · rcases submit_effect session stale part with same | commits
    · exact same
    obtain ⟨_, _, off, len, ty, init, known, here⟩ := commits.binding
    cases parsed.symm.trans known
    exact absurd here (bare off len ty init)
  · obtain ⟨_, ⟨rows, table⟩, _⟩ := on.grows
    refine ⟨?_, healthy.denotes on (mem_of_getElem? found)⟩
    rw [table, getElem?_append_left (List.getElem?_eq_some_iff.mp found).1, found]

/-- The session behind a let of a string with blanks around it, and behind one that is refused. -/
def greeted : Session := (Session.init.submit (fun _ => none) (ascii " let s : str = \"hi\" ")).session

theorem session_transactional_greeted : rebuild greeted (fun _ => none) = some () ∧
    (greeted.submit (fun _ => none) (ascii "let s : int = 1")).outcome.kind = .reject ∧
      Same greeted (greeted.submit (fun _ => none) (ascii "let s : int = 1")).session ∧ greeted.syms.length = 1 := by
  have reached : Reaches .init greeted := .submit .refl _ (by decide)
  have refused : (greeted.submit (fun _ => none) (ascii "let s : int = 1")).outcome.kind = .reject := by decide +kernel
  obtain ⟨rebuilds, kept, _⟩ := session_transactional reached
  exact ⟨rebuilds _, refused, kept _ _ (by rw [refused]; exact nofun), by decide +kernel⟩

end Rynor.Shell
