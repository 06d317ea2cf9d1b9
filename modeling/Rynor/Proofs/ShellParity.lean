import Mathlib.Data.List.DropRight
import Rynor.Proofs.ShellTrim
import Rynor.Shell.Pump

/-! Interactive lines against scripts. The end of a part cuts no token of its statement short, and a script goes on
where the part ends: unless there is a newline in the part, or a comment right behind a quote or an arrow, which only
the statement takes for one, or a separator inside a part that is rejected. -/

namespace Rynor.Shell
open List Option
variable {p : UInt8 → Bool} {full short : Option (StmtState × List UInt8)}

variable {state after : StmtState} {text rest back body behind part word : List UInt8} {c prev : UInt8}
  {fuel room : Nat}

/-! The statement loop. -/

lemma length_dropWhile_le (p : UInt8 → Bool) (text : List UInt8) : (text.dropWhile p).length ≤ text.length :=
  (dropWhile_suffix p).length_le

lemma quoted_byte (quote : c ≠ ch '"') (slash : c ≠ ch '\\') (text : List UInt8) :
    quoted (room + 1) (c :: text) = (quoted room text).map fun (word, rest) => (c :: word, rest) := by
  rw [quoted.eq_def]
  simp only [if_neg quote, if_neg slash]

lemma quoted_escape (known : c = ch '"' ∨ c = ch '\\') (text : List UInt8) :
    quoted (room + 1) (ch '\\' :: c :: text) = (quoted room text).map fun (word, rest) => (c :: word, rest) := by
  rw [quoted.eq_def]
  exact if_pos known

/-- A quoted word is read alike whatever follows its closing quote. -/
lemma quoted_taken (read : quoted room text = some (word, rest)) :
    ∃ own, text = own ++ rest ∧ ∀ back, quoted room (own ++ back) = some (word, back) := by
  fun_induction quoted room text generalizing word with
  | case1 | case3 | case4 | case6 | case7 => cases read
  | case2 room text =>
    cases read
    exact ⟨[ch '"'], rfl, fun back => by rw [singleton_append, quoted.eq_def]; rfl⟩
  | case5 e text room known differs ih =>
    obtain ⟨⟨found, left⟩, read, same⟩ := map_eq_some_iff.mp read
    cases same
    obtain ⟨own, rfl, again⟩ := ih read
    refine ⟨ch '\\' :: e :: own, rfl, fun back => ?_⟩
    rw [cons_append, cons_append, quoted_escape known, again, map_some]
  | case8 q text quote slash room ih =>
    obtain ⟨⟨found, left⟩, read, same⟩ := map_eq_some_iff.mp read
    cases same
    obtain ⟨own, rfl, again⟩ := ih read
    refine ⟨q :: own, rfl, fun back => ?_⟩
    rw [cons_append, quoted_byte quote slash, again, map_some]

lemma pipe_arrow {next} (piped : state.pipe text = some next) : ∃ left, text = ch '>' :: left := by
  unfold StmtState.pipe at piped
  split at piped
  · cases piped
  split at piped
  · cases piped
  next arrow =>
  cases text with
  | nil => exact absurd (not_not.mp arrow) nofun
  | cons c left =>
    cases not_not.mp arrow
    exact ⟨left, rfl⟩

lemma first_dropWhile (skipped : text.dropWhile p = c :: rest) : p c = false := by
  have first := head?_dropWhile_not p text
  rw [skipped] at first
  exact first

/-- A token is a pipe, an arrow, a quoted word or a bare one. -/
lemma token_iff : state.token c text = some (after, rest) ↔
    c = ch '|' ∧ state.pipe text = some after ∧ text.drop 1 = rest ∨ c = ch '>' ∧ state.redirect = some after ∧
    text = rest ∨
      (c = ch '"' ∧ ∃ word, quoted shpMaxWord text = some (word, rest) ∧ state.word word = some after) ∨
      isBare c ∧ (text.takeWhile isBare).length < shpMaxWord ∧ state.word (c :: text.takeWhile isBare) = some after ∧
        text.dropWhile isBare = rest := by
  have other : isBare (ch '|') = false ∧ isBare (ch '>') = false ∧ isBare (ch '"') = false := by decide
  unfold StmtState.token
  split
  · next bar => simp [bar, other, show ch '|' ≠ ch '>' ∧ ch '|' ≠ ch '"' by decide]
  split
  · next arrow => simp [arrow, other, show ch '>' ≠ ch '|' ∧ ch '>' ≠ ch '"' by decide]
  split
  · next quote => simp [quote, other, bind_eq_some_iff, show ch '"' ≠ ch '|' ∧ ch '"' ≠ ch '>' by decide]
  next bar arrow quote =>
  have long : (c :: text.takeWhile isBare).length > shpMaxWord ↔ ¬(text.takeWhile isBare).length < shpMaxWord := by
    rw [length_cons]
    omega
  simp only [long]
  simp [bar, arrow, quote, bind_eq_some_iff]

/-- A token is read alike before whatever begins as the text behind it does. -/
lemma token_taken (taken : state.token c text = some (after, rest)) :
    ∃ own, text = own ++ rest ∧ ∀ back, back.head? = rest.head? → state.token c (own ++ back) = some (after, back) := by
  rcases token_iff.mp taken with ⟨bar, piped, rfl⟩ | ⟨arrow, opened, rfl⟩ | ⟨quote, word, read, stored⟩ | ⟨bare,
    fits, stored, rfl⟩
  · obtain ⟨left, rfl⟩ := pipe_arrow piped
    exact ⟨[ch '>'], rfl, fun back _ => token_iff.mpr (.inl ⟨bar, piped, rfl⟩)⟩
  · exact ⟨[], rfl, fun back _ => token_iff.mpr (.inr (.inl ⟨arrow, opened, rfl⟩))⟩
  · obtain ⟨own, rfl, again⟩ := quoted_taken read
    exact ⟨own, rfl, fun back _ => token_iff.mpr (.inr (.inr (.inl ⟨quote, word, again back, stored⟩)))⟩
  · refine ⟨text.takeWhile isBare, takeWhile_append_dropWhile.symm,
      fun back front => token_iff.mpr (.inr (.inr (.inr ?_)))⟩
    obtain ⟨run, left⟩ : (text.takeWhile isBare ++ back).takeWhile isBare = text.takeWhile isBare ∧
        (text.takeWhile isBare ++ back).dropWhile isBare = back := by
      have all : ∀ d ∈ text.takeWhile isBare, isBare d := fun d => mem_takeWhile_imp
      rw [takeWhile_append_of_pos all, dropWhile_append_of_pos all]
      cases back with
      | nil => simp
      | cons d back =>
        have other : isBare d = false := by
          have first := head?_dropWhile_not isBare text
          rw [← front] at first
          exact first
        simp [other]
    rw [run, left]
    exact ⟨bare, fits, stored, rfl⟩

lemma token_suffix (taken : state.token c text = some (after, rest)) : rest <:+ text := by
  obtain ⟨own, rfl, -⟩ := token_taken taken
  exact suffix_append ..

/-- The loop with as much fuel as it can use. -/
def loops (state : StmtState) (text : List UInt8) : Option (StmtState × List UInt8) :=
  stmtLoop (text.length + 1) state text

lemma stmtLoop_fuel (enough : text.length < fuel) (plenty : text.length < more) :
    stmtLoop fuel state text = stmtLoop more state text := by
  induction fuel generalizing state text more with
  | zero => exact absurd enough (Nat.not_lt_zero _)
  | succ fuel ih =>
    obtain ⟨more, rfl⟩ := Nat.exists_eq_succ_of_ne_zero (Nat.ne_zero_of_lt plenty)
    unfold stmtLoop
    have bound := length_dropWhile_le isSpace text
    split
    · rfl
    next c rest skipped =>
    rw [skipped, length_cons] at bound
    have comment := length_dropWhile_le (· != ch '\n') rest
    refine ite_congr rfl (fun _ => rfl) fun _ => ite_congr rfl (fun _ => ih (by omega) (by omega)) fun _ => ?_
    cases taken : state.token c rest with
    | none => rfl
    | some result =>
      have shorter := (token_suffix taken).length_le
      exact ih (by omega) (by omega)

lemma loops_eq (state : StmtState) (text : List UInt8) : loops state text = match text.dropWhile isSpace with
    | [] => some (state, [])
    | c :: rest =>
      if isStmtEnd c then some (state, rest)
      else if c = ch '/' ∧ rest.head? = some (ch '/') then loops state (rest.dropWhile (· != ch '\n'))
      else (state.token c rest).bind fun (state, rest) => loops state rest := by
  unfold loops
  rw [stmtLoop]
  have bound := length_dropWhile_le isSpace text
  rcases skipped : text.dropWhile isSpace with _ | ⟨c, rest⟩
  · rfl
  rw [skipped, length_cons] at bound
  have comment := length_dropWhile_le (· != ch '\n') rest
  refine ite_congr rfl (fun _ => rfl) fun _ => ite_congr rfl (fun _ => stmtLoop_fuel (by omega) (by omega)) fun _ => ?_
  cases taken : state.token c rest with
  | none => rfl
  | some result =>
    have shorter := (token_suffix taken).length_le
    exact stmtLoop_fuel (by omega) (by omega)

lemma loops_nil (state : StmtState) : loops state [] = some (state, []) := rfl

lemma loops_cons (first : isSpace c = false) : loops state (c :: rest) = if isStmtEnd c then some (state, rest)
    else if c = ch '/' ∧ rest.head? = some (ch '/') then loops state (rest.dropWhile (· != ch '\n'))
    else (state.token c rest).bind fun (state, rest) => loops state rest := by
  rw [loops_eq, dropWhile_cons_of_neg (by rw [first]; exact nofun)]

lemma loops_spaces (state : StmtState) (text : List UInt8) :
    loops state (text.dropWhile isSpace) = loops state text := by
  rw [loops_eq, loops_eq state text, dropWhile_idempotent]

lemma loops_suffix (ended : loops state text = some (after, rest)) :
    rest <:+ text ∧ (text ≠ [] → rest.length < text.length) := by
  induction size : text.length using Nat.strongRecOn generalizing state text with
  | ind size ih =>
    subst size
    have spaces : text.dropWhile isSpace <:+ text := dropWhile_suffix _
    rw [loops_eq] at ended
    split at ended
    · cases ended
      exact ⟨nil_suffix, length_pos_of_ne_nil⟩
    next c behind skipped =>
    rw [skipped] at spaces
    have inside : behind <:+ text := (suffix_cons ..).trans spaces
    have bound : behind.length < text.length := spaces.length_le
    have step : ∀ {state : StmtState} {left : List UInt8}, left <:+ behind → loops state left = some (after, rest) →
        rest <:+ text ∧ (text ≠ [] → rest.length < text.length) := fun {state left} before ended => by
      have kept := (ih _ (lt_of_le_of_lt before.length_le bound) ended rfl).1.trans before
      exact ⟨kept.trans inside, fun _ => lt_of_le_of_lt kept.length_le bound⟩
    split at ended
    · cases ended
      exact ⟨inside, fun _ => bound⟩
    split at ended
    · exact step (dropWhile_suffix _) ended
    · obtain ⟨⟨next, left⟩, taken, ended⟩ := bind_eq_some_iff.mp ended
      exact step (token_suffix taken) ended

/-! Blanks behind a text. -/

lemma quoted_append (read : quoted room text = some (word, rest)) (back : List UInt8) :
    quoted room (text ++ back) = some (word, rest ++ back) := by
  obtain ⟨own, rfl, again⟩ := quoted_taken read
  rw [append_assoc, again]

/-- Bytes that neither close a quote nor escape in one. -/
def Unquoted (back : List UInt8) : Prop := ∀ c ∈ back, c ≠ ch '"' ∧ c ≠ ch '\\'

lemma Blanks.unquoted (blanks : Blanks back) : Unquoted back := by
  intro c inside
  rcases blank_cases (blanks c inside) with rfl | rfl | rfl | rfl <;> decide

lemma quoted_none (unquoted : Unquoted back) : quoted room back = none := by
  induction back generalizing room with
  | nil => cases room <;> rw [quoted]
  | cons c back ih =>
    obtain ⟨quote, slash⟩ := unquoted c (mem_cons_self ..)
    rw [quoted.eq_def]
    simp only [if_neg quote, if_neg slash]
    split
    · rfl
    · rw [ih fun d inside => unquoted d (mem_cons_of_mem _ inside)]
      rfl

lemma quoted_open (stopped : quoted room text = none) (unquoted : Unquoted back) :
    quoted room (text ++ back) = none := by
  fun_induction quoted room text with
  | case1 => exact quoted_none unquoted
  | case2 => cases stopped
  | case3 room differs =>
    rw [cons_append, nil_append, quoted.eq_def]
    simp only [if_neg differs, if_true]
    split
    · rfl
    · rfl
    · next e back room =>
      exact if_neg (not_or.mpr (unquoted e (mem_cons_self ..)))
  | case4 text filled differs =>
    rw [cons_append, quoted.eq_def]
    simp only [if_neg differs, if_true]
    split
    · rfl
    · rfl
    · next full => cases full
  | case5 e text room known differs ih =>
    rw [cons_append, cons_append, quoted_escape known, ih (map_eq_none_iff.mp stopped), map_none]
  | case6 e text room unknown differs =>
    rw [cons_append, cons_append, quoted.eq_def]
    simp only [if_neg differs, if_true, if_neg unknown]
  | case7 q text quote slash =>
    rw [cons_append, quoted.eq_def]
    simp only [if_neg quote, if_neg slash]
  | case8 q text quote slash room ih =>
    rw [cons_append, quoted_byte quote slash, ih (map_eq_none_iff.mp stopped), map_none]

/-- A byte that no token goes on with: a blank or the separator of parts. -/
def stops (c : UInt8) : Prop := isBlank c ∨ c = ch ';'

lemma stops_bare (stop : stops c) : isBare c = false := by
  rcases stop with blank | rfl
  · rcases blank_cases blank with rfl | rfl | rfl | rfl <;> decide
  · decide

lemma head_append (other : ∀ d, back.head? = some d → d ≠ c) : (text ++ back).head? = some c ↔ text.head? = some c := by
  cases text with
  | cons => rfl
  | nil => exact ⟨fun front => absurd rfl (other c front), nofun⟩

section
variable (stop : ∀ d, back.head? = some d → stops d)
include stop

lemma head_stopped (goes : ¬stops c) : (text ++ back).head? = some c ↔ text.head? = some c :=
  head_append fun d front same => goes (same ▸ stop d front)

lemma pipe_append : state.pipe (text ++ back) = state.pipe text := by
  unfold StmtState.pipe
  simp only [ne_eq, head_stopped stop (by unfold stops; decide : ¬stops (ch '>'))]

/-- A token is read alike before a byte that stops it; a quote has to be read alike. -/
lemma token_append (quote : c = ch '"' → quoted shpMaxWord text = none → quoted shpMaxWord (text ++ back) = none) :
    state.token c (text ++ back) = (state.token c text).map fun (after, rest) => (after, rest ++ back) := by
  unfold StmtState.token
  by_cases bar : c = ch '|'
  · rw [if_pos bar, if_pos bar, pipe_append stop]
    cases piped : state.pipe text with
    | none => rfl
    | some next =>
      obtain ⟨left, rfl⟩ := pipe_arrow piped
      rfl
  rw [if_neg bar, if_neg bar]
  by_cases arrow : c = ch '>'
  · rw [if_pos arrow, if_pos arrow, Option.map_map]
    rfl
  rw [if_neg arrow, if_neg arrow]
  by_cases opening : c = ch '"'
  · rw [if_pos opening, if_pos opening]
    cases read : quoted shpMaxWord text with
    | none =>
      rw [quote opening read]
      rfl
    | some result =>
      obtain ⟨word, rest⟩ := result
      rw [quoted_append read]
      show (state.word word).bind _ = ((state.word word).bind _).map _
      cases state.word word <;> rfl
  rw [if_neg opening, if_neg opening]
  obtain ⟨run, left⟩ : (text ++ back).takeWhile isBare = text.takeWhile isBare ∧ (text ++ back).dropWhile isBare =
    text.dropWhile isBare ++ back :=
    span_moved fun d front => stops_bare (stop d front)
  rw [run, left]
  split
  · dsimp only
    split
    · rfl
    · cases state.word (c :: text.takeWhile isBare) <;> rfl
  · rfl

end

/-- The loop over a text with blanks behind it and over the text alone: both reject, both end inside the text, or
both reach its end. -/
inductive Ending (back : List UInt8) : Option (StmtState × List UInt8) → Option (StmtState × List UInt8) → Prop
  | rejected : Ending back none none
  | inside (state : StmtState) (rest : List UInt8) : Ending back (some (state, rest ++ back)) (some (state, rest))
  | reached (state : StmtState) {rest : List UInt8} (blanks : Blanks rest) :
    Ending back (some (state, rest)) (some (state, []))

lemma blank_split (blank : isBlank c) : isSpace c ∨ isStmtEnd c := by
  rcases blank_cases blank with rfl | rfl | rfl | rfl <;> decide

lemma blanks_dropWhile (blanks : Blanks back) (p : UInt8 → Bool) : Blanks (back.dropWhile p) :=
  fun c inside => blanks c ((dropWhile_suffix p).mem inside)

lemma loops_blanks (blanks : Blanks back) : ∃ rest, loops state back = some (state, rest) ∧ Blanks rest := by
  rw [loops_eq]
  have left := blanks_dropWhile blanks isSpace
  split
  · exact ⟨[], rfl, nofun⟩
  next c rest skipped =>
  rw [skipped] at left
  have ends : isStmtEnd c := by
    refine (blank_split (left c (mem_cons_self ..))).resolve_left fun space => ?_
    rw [first_dropWhile skipped] at space
    cases space
  rw [if_pos ends]
  exact ⟨rest, rfl, fun d inside => left d (mem_cons_of_mem _ inside)⟩

lemma loops_trim (blanks : Blanks back) : Ending back (loops state (text ++ back)) (loops state text) := by
  induction size : text.length using Nat.strongRecOn generalizing state text with
  | ind size ih =>
    subst size
    have stop : ∀ d, back.head? = some d → stops d := fun d front => .inl (blanks.head front)
    have bound := length_dropWhile_le isSpace text
    rw [← loops_spaces state text, ← loops_spaces state (text ++ back)]
    cases skipped : text.dropWhile isSpace with
    | nil =>
      have all : (text ++ back).dropWhile isSpace = back.dropWhile isSpace := by
        rw [dropWhile_append, skipped]
        rfl
      obtain ⟨rest, ended, left⟩ : ∃ rest, loops state (back.dropWhile isSpace) = some (state, rest) ∧ Blanks rest :=
        loops_blanks (blanks_dropWhile blanks isSpace)
      rw [all, ended, loops_nil]
      exact .reached state left
    | cons c rest =>
      have first := first_dropWhile skipped
      have all : (text ++ back).dropWhile isSpace = c :: (rest ++ back) := by
        rw [dropWhile_append, skipped]
        rfl
      rw [skipped, length_cons] at bound
      rw [all, loops_cons first, loops_cons first]
      simp only [head_stopped stop (by unfold stops; decide : ¬stops (ch '/'))]
      split
      · exact .inside state rest
      split
      · rw [dropWhile_append]
        cases line : rest.dropWhile (· != ch '\n') with
        | nil =>
          obtain ⟨rest, ended, left⟩ : ∃ rest, loops state (back.dropWhile (· != ch '\n')) = some (state, rest) ∧
            Blanks rest :=
            loops_blanks (blanks_dropWhile blanks _)
          rw [isEmpty_nil, if_pos rfl, ended, loops_nil]
          exact .reached state left
        | cons d more =>
          have shorter := length_dropWhile_le (· != ch '\n') rest
          rw [line] at shorter
          rw [isEmpty_cons, if_neg nofun]
          exact ih _ (by omega) rfl
      rw [token_append stop fun _ opened => quoted_open opened blanks.unquoted]
      cases taken : state.token c rest with
      | none => exact .rejected
      | some result =>
        have shorter := (token_suffix taken).length_le
        exact ih _ (by omega) rfl

/-! The scan for the end of a part. -/

variable {mode : Scan} {depth : Nat}

def keep (c : UInt8) (scanned : List UInt8 × List UInt8) : List UInt8 × List UInt8 := (c :: scanned.1, scanned.2)

lemma scanPart_cons : scanPart mode depth prev (c :: rest) = match mode with
    | .esc => keep c (scanPart .str depth c rest)
    | .str => keep c (scanPart (if c = ch '\\' then .esc else if c = ch '"' then .plain else .str) depth c rest)
    | .comment => keep c (scanPart (if c = ch '\n' then .plain else .comment) depth c rest)
    | .plain =>
      if c = ch '"' then keep c (scanPart .str depth c rest)
      else if c = ch '/' ∧ rest.head? = some (ch '/') then
        keep c (scanPart (if isBlank prev ∨ prev = ch ';' then .comment else .plain) depth c rest)
      else if c = ch '{' then keep c (scanPart .plain (depth + 1) c rest)
      else if c = ch '}' then keep c (scanPart .plain (depth - 1) c rest)
      else if c = ch ';' ∧ depth = 0 then ([], c :: rest)
      else keep c (scanPart .plain depth c rest) := by
  cases mode <;> rfl

lemma scanPart_keeps (mode : Scan) (depth : Nat) (prev c : UInt8) (rest : List UInt8) :
    (∃ mode' depth', scanPart mode depth prev (c :: rest) = keep c (scanPart mode' depth' c rest)) ∨
      c = ch ';' ∧ scanPart mode depth prev (c :: rest) = ([], c :: rest) := by
  rw [scanPart_cons]
  cases mode with
  | esc | str | comment => exact .inl ⟨_, _, rfl⟩
  | plain =>
    dsimp only
    iterate 4
      split
      · exact .inl ⟨_, _, rfl⟩
    split
    · next cut => exact .inr ⟨cut.1, rfl⟩
    · exact .inl ⟨_, _, rfl⟩

lemma scanPart_split (scanned : scanPart mode depth prev text = (body, behind)) :
    text = body ++ behind ∧ ∀ d, behind.head? = some d → d = ch ';' := by
  induction text generalizing mode depth prev body with
  | nil =>
    cases scanned
    exact ⟨rfl, nofun⟩
  | cons c rest ih =>
    rcases scanPart_keeps mode depth prev c rest with ⟨mode', depth', kept⟩ | ⟨separator, cut⟩
    · rw [kept] at scanned
      cases scanned
      obtain ⟨whole, stop⟩ := ih rfl
      exact ⟨congrArg (c :: ·) whole, stop⟩
    rw [cut] at scanned
    cases scanned
    exact ⟨rfl, fun d front => by cases front; exact separator⟩

/-- A byte that is neither structure for the scan nor the start of a comment. -/
lemma scanPart_plain (quote : c ≠ ch '"') (comment : ¬ (c = ch '/' ∧ rest.head? = some (ch '/') ∧
      (isBlank prev ∨ prev = ch ';')))
    (opening : c ≠ ch '{') (closing : c ≠ ch '}') (separator : c ≠ ch ';') :
    scanPart .plain 0 prev (c :: rest) = keep c (scanPart .plain 0 c rest) := by
  rw [scanPart_cons]
  dsimp only
  rw [if_neg quote, if_neg opening, if_neg closing, if_neg fun cut : c = ch ';' ∧ 0 = 0 => separator cut.1]
  split
  · next slashes =>
    rw [if_neg fun glued => comment ⟨slashes.1, slashes.2, glued⟩]
  · rfl

lemma scanPart_inert (inert : c ∉ [ch '"', ch '/', ch '{', ch '}', ch ';']) (prev : UInt8) (rest : List UInt8) :
    scanPart .plain 0 prev (c :: rest) = keep c (scanPart .plain 0 c rest) := by
  simp only [mem_cons, not_mem_nil, or_false, not_or] at inert
  obtain ⟨quote, slash, opening, closing, separator⟩ := inert
  exact scanPart_plain quote (fun comment => slash comment.1) opening closing separator

/-- The scan passes over a run of bytes that mean nothing to it. -/
lemma scanPart_run {good : UInt8 → Prop}
    (passes : ∀ c prev rest, p c → good prev → scanPart .plain 0 prev (c :: rest) = keep c (scanPart .plain 0 c rest))
    (keeps : ∀ c, p c → good c) (start : good prev) (scanned : scanPart .plain 0 prev text = (body, behind)) :
    ∃ last, (last = prev ∧ text.dropWhile p = text ∨ p last) ∧ last :: text.dropWhile p <:+ prev :: text ∧
      scanPart .plain 0 last (text.dropWhile p) = (body.dropWhile p, behind) := by
  induction text generalizing prev body with
  | nil =>
    cases scanned
    exact ⟨prev, .inl ⟨rfl, rfl⟩, suffix_refl _, rfl⟩
  | cons c rest ih =>
    by_cases inside : p c
    · rw [passes c prev rest inside start] at scanned
      cases scanned
      obtain ⟨last, found, tail, scanned⟩ := ih (keeps c inside) rfl
      rw [dropWhile_cons_of_pos inside, dropWhile_cons_of_pos inside]
      refine ⟨last, .inr ?_, tail.trans (suffix_cons ..), scanned⟩
      rcases found with ⟨rfl, -⟩ | found
      · exact inside
      · exact found
    have same : body.dropWhile p = body := by
      rcases scanPart_keeps .plain 0 prev c rest with ⟨mode', depth', kept⟩ | ⟨_, cut⟩
      · rw [kept] at scanned
        cases scanned
        exact dropWhile_cons_of_neg inside
      rw [cut] at scanned
      cases scanned
      rfl
    rw [dropWhile_cons_of_neg inside, same]
    exact ⟨prev, .inl ⟨rfl, rfl⟩, suffix_refl _, scanned⟩

lemma scanPart_spaces (scanned : scanPart .plain 0 prev text = (body, behind)) :
    ∃ last, (last = prev ∧ text.dropWhile isSpace = text ∨ isSpace last) ∧
      last :: text.dropWhile isSpace <:+ prev :: text ∧
      scanPart .plain 0 last (text.dropWhile isSpace) = (body.dropWhile isSpace, behind) := by
  refine scanPart_run (fun c prev rest space _ => ?_) (fun _ _ => trivial) (trivial : (fun _ => True) prev) scanned
  have known : c = ch ' ' ∨ c = ch '\t' := by simpa [isSpace] using space
  rcases known with rfl | rfl <;> exact scanPart_inert (by decide) ..

lemma bare_ne (bare : isBare c) (other : isBare d = false) : c ≠ d := by
  rintro rfl
  rw [bare] at other
  cases other

lemma scanPart_bare (bare : isBare prev) (scanned : scanPart .plain 0 prev text = (body, behind)) :
    ∃ last, last :: text.dropWhile isBare <:+ prev :: text ∧
      scanPart .plain 0 last (text.dropWhile isBare) = (body.dropWhile isBare, behind) := by
  have passes : ∀ c prev rest, isBare c → isBare prev →
      scanPart .plain 0 prev (c :: rest) = keep c (scanPart .plain 0 c rest) := by
    intro c prev rest inside before
    refine scanPart_plain (bare_ne inside (by decide)) (fun comment => ?_) (bare_ne inside (by decide))
      (bare_ne inside (by decide)) (bare_ne inside (by decide))
    rw [stops_bare comment.2.2] at before
    cases before
  obtain ⟨last, _, found⟩ := scanPart_run passes (fun _ inside => inside) bare scanned
  exact ⟨last, found⟩

/-- A quoted word that is closed in the line is closed in the part. -/
lemma quoted_scanned (read : quoted room text = some (word, rest))
    (scanned : scanPart .str 0 prev text = (body, behind)) :
    ∃ left, quoted room body = some (word, left) ∧ ch '"' :: rest <:+ text ∧
      scanPart .plain 0 (ch '"') rest = (left, behind) := by
  fun_induction quoted room text generalizing word prev body with
  | case1 | case3 | case4 | case6 | case7 => cases read
  | case2 room text =>
    cases read
    rw [scanPart_cons] at scanned
    cases scanned
    exact ⟨_, by rw [quoted.eq_def]; rfl, suffix_refl _, rfl⟩
  | case5 e text room known differs ih =>
    obtain ⟨⟨found, left⟩, read, same⟩ := map_eq_some_iff.mp read
    cases same
    rw [scanPart_cons] at scanned
    dsimp only at scanned
    rw [if_pos rfl, scanPart_cons] at scanned
    cases scanned
    obtain ⟨left, read, tail, scanned⟩ := ih read rfl
    refine ⟨left, ?_, (tail.trans (suffix_cons ..)).trans (suffix_cons ..), scanned⟩
    dsimp only [keep]
    rw [quoted_escape known, read, map_some]
  | case8 q text quote slash room ih =>
    obtain ⟨⟨found, left⟩, read, same⟩ := map_eq_some_iff.mp read
    cases same
    rw [scanPart_cons] at scanned
    dsimp only at scanned
    rw [if_neg slash, if_neg quote] at scanned
    cases scanned
    obtain ⟨left, read, tail, scanned⟩ := ih read rfl
    refine ⟨left, ?_, tail.trans (suffix_cons ..), scanned⟩
    rw [quoted_byte quote slash, read, map_some]

/-- A comment goes on to the end of a text without newlines. -/
lemma comment_scanned (lines : ch '\n' ∉ text) : scanPart .comment depth prev text = (text, []) := by
  induction text generalizing prev with
  | nil => rfl
  | cons c rest ih =>
    rw [mem_cons, not_or] at lines
    rw [scanPart_cons]
    dsimp only
    rw [if_neg (Ne.symm lines.1), ih lines.2]
    rfl

lemma scanPart_comment (slash : rest.head? = some (ch '/')) (known : isBlank prev = true ∨ prev = ch ';')
    (lines : ch '\n' ∉ rest) : scanPart .plain 0 prev (ch '/' :: rest) = (ch '/' :: rest, []) := by
  rw [scanPart_cons]
  dsimp only
  rw [if_neg (by decide), if_pos ⟨rfl, slash⟩, if_pos known, comment_scanned lines]
  rfl

/-- A quote that the part leaves open is open in the line. -/
lemma quoted_whole (opened : quoted room body = none) (scanned : scanPart .str 0 prev text = (body, behind)) :
    quoted room text = none := by
  by_contra closed
  obtain ⟨⟨word, rest⟩, read⟩ := ne_none_iff_exists'.mp closed
  obtain ⟨_, again, _⟩ := quoted_scanned read scanned
  rw [opened] at again
  cases again

/-- Only a separator can end the part. -/
lemma scanPart_first (scanned : scanPart .plain 0 prev (c :: rest) = (body, behind)) (separator : c ≠ ch ';') :
    ∃ left, body = c :: left ∧ rest = left ++ behind := by
  rcases scanPart_keeps .plain 0 prev c rest with ⟨mode', depth', kept⟩ | ⟨same, _⟩
  · rw [kept] at scanned
    cases scanned
    exact ⟨_, rfl, (scanPart_split rfl).1⟩
  · exact absurd same separator

/-! Statements of a line and of its part. -/

lemma loops_line (state : StmtState) (text : List UInt8) :
    ∃ rest, loops state (text.dropWhile (· != ch '\n')) = some (state, rest) := by
  cases line : text.dropWhile (· != ch '\n') with
  | nil => exact ⟨[], rfl⟩
  | cons c rest =>
    have newline : c = ch '\n' := by simpa using first_dropWhile line
    subst newline
    exact ⟨rest, by rw [loops_cons (by decide), if_pos (by decide)]⟩

/-- A line of one row in which no comment stands right behind a quote or an arrow. -/
structure PlainLine (line : List UInt8) : Prop where
  newline : ch '\n' ∉ line
  returns : ch '\r' ∉ line
  comment : ∀ c ∈ [ch '"', ch '>'], ¬ [c, ch '/', ch '/'] <:+: line

lemma PlainLine.suffix (plain : PlainLine text) (inside : rest <:+ text) : PlainLine rest where
  newline found := plain.newline (inside.mem found)
  returns found := plain.returns (inside.mem found)
  comment c known found := plain.comment c known (found.trans inside.isInfix)

lemma PlainLine.stmtEnd (plain : PlainLine text) (inside : c ∈ text) (ends : isStmtEnd c = true) : c = ch ';' := by
  simp only [isStmtEnd, Bool.or_eq_true, beq_iff_eq] at ends
  rcases ends with (separator | rfl) | rfl
  · exact separator
  · exact absurd inside plain.newline
  · exact absurd inside plain.returns

/-- The loop over a line and over the part the scan cuts from it: both reject, or both come to the end of the part in
one state. -/
inductive Along (behind : List UInt8) : Option (StmtState × List UInt8) → Option (StmtState × List UInt8) → Prop
  | rejected : Along behind none none
  | ended (state : StmtState) : Along behind (some (state, behind.drop 1)) (some (state, []))

lemma keep_inj (kept : keep c scanned = (c :: body, behind)) : scanned = (body, behind) := by
  cases scanned
  cases kept
  rfl

lemma token_scanned (taken : state.token c body = some (after, rest)) (separator : c ≠ ch ';')
    (comment : ¬ (c = ch '/' ∧ (body ++ behind).head? = some (ch '/')))
    (scanned : scanPart .plain 0 prev (c :: (body ++ behind)) = (c :: body, behind)) :
    ∃ last, scanPart .plain 0 last (rest ++ behind) = (rest, behind) ∧
      last :: (rest ++ behind) <:+ c :: (body ++ behind) ∧
      (last ∈ [ch '"', ch '>'] ∨ (rest ++ behind).head? ≠ some (ch '/')) := by
  have stop := (scanPart_split scanned).2
  have plain : c ≠ ch '"' → c ≠ ch '{' → c ≠ ch '}' → scanPart .plain 0 c (body ++ behind) = (body, behind) := by
    intro quote opening closing
    rw [scanPart_plain quote (fun glued => comment ⟨glued.1, glued.2.1⟩) opening closing separator] at scanned
    exact keep_inj scanned
  rcases token_iff.mp taken with ⟨rfl, piped, rfl⟩ | ⟨rfl, _, rfl⟩ | ⟨rfl, word, read, _⟩ | ⟨bare, _, _, rfl⟩
  · obtain ⟨left, rfl⟩ := pipe_arrow piped
    have scanned : scanPart .plain 0 (ch '|') (ch '>' :: (left ++ behind)) = (ch '>' :: left, behind) :=
      plain (by decide) (by decide) (by decide)
    rw [scanPart_inert (by decide)] at scanned
    exact ⟨_, keep_inj scanned, suffix_cons .., .inl (by decide)⟩
  · exact ⟨_, plain (by decide) (by decide) (by decide), suffix_refl _, .inl (by decide)⟩
  · rw [scanPart_cons] at scanned
    obtain ⟨kept, again, tail, scanned⟩ := quoted_scanned (quoted_append read behind) (keep_inj scanned)
    rw [read] at again
    cases again
    exact ⟨_, scanned, tail.trans (suffix_cons ..), .inl (by decide)⟩
  · obtain ⟨last, tail, scanned⟩ :=
      scanPart_bare bare (plain (bare_ne bare (by decide)) (bare_ne bare (by decide)) (bare_ne bare (by decide)))
    have left : (body ++ behind).dropWhile isBare = body.dropWhile isBare ++ behind :=
      (span_moved fun d front => stops_bare (.inr (stop d front))).2
    rw [left] at tail scanned
    refine ⟨last, scanned, tail, .inr fun slash => ?_⟩
    -- the word would have gone on
    have first := head?_dropWhile_not isBare (body ++ behind)
    rw [left, slash] at first
    exact absurd first (by decide)

/-- A statement of the line and of the part: the end of the part cuts nothing short, and the statement ends with it. -/
lemma loops_along (scanned : scanPart .plain 0 prev text = (body, behind)) (plain : PlainLine (prev :: text))
    (start : [ch '/', ch '/'] <+: text → stops prev) : Along behind (loops state text) (loops state body) := by
  induction size : text.length using Nat.strongRecOn generalizing state prev text body with
  | ind size ih =>
    subst size
    obtain ⟨last, found, tail, scanned⟩ := scanPart_spaces scanned
    replace plain := plain.suffix tail
    replace start : [ch '/', ch '/'] <+: text.dropWhile isSpace → stops last := by
      rcases found with ⟨rfl, same⟩ | space
      · rwa [same]
      intro _
      simp only [isSpace, Bool.or_eq_true] at space
      exact .inl (by simp only [isBlank, Bool.or_eq_true]; tauto)
    have bound := length_dropWhile_le isSpace text
    rw [← loops_spaces state text, ← loops_spaces state body]
    cases skipped : text.dropWhile isSpace with
    | nil =>
      rw [skipped] at scanned
      obtain ⟨ended, rfl⟩ := Prod.mk.inj scanned.symm
      rw [ended, loops_nil]
      exact .ended state
    | cons c rest =>
      have first := first_dropWhile skipped
      rw [skipped] at scanned plain start
      rw [skipped, length_cons] at bound
      have stop := (scanPart_split scanned).2
      rw [loops_cons first]
      generalize body.dropWhile isSpace = body at scanned ⊢
      by_cases separator : c = ch ';'
      · subst separator
        have cut : scanPart .plain 0 last (ch ';' :: rest) = ([], ch ';' :: rest) := rfl
        rw [cut] at scanned
        cases scanned
        rw [if_pos (by decide), loops_nil]
        exact .ended state
      obtain ⟨left, rfl, rfl⟩ := scanPart_first scanned separator
      have slash : (left ++ behind).head? = some (ch '/') ↔ left.head? = some (ch '/') := by
        refine head_append fun d front same => ?_
        rw [stop d front] at same
        exact absurd same (by decide)
      have goes : ¬ isStmtEnd c := fun ends => separator (plain.stmtEnd (mem_cons_of_mem _ mem_cons_self) ends)
      rw [loops_cons first, if_neg goes, if_neg goes]
      by_cases comment : c = ch '/' ∧ (left ++ behind).head? = some (ch '/')
      · -- The scan takes it for a comment too, and both come to the end of the line.
        rw [if_pos comment, if_pos ⟨comment.1, slash.mp comment.2⟩]
        obtain ⟨rfl, front⟩ := comment
        obtain ⟨more, same⟩ := head?_eq_some_iff.mp front
        have known : isBlank last = true ∨ last = ch ';' := start ⟨more, by rw [same]; rfl⟩
        have lines : ch '\n' ∉ left ++ behind := fun inside => plain.newline (by simp [mem_append.mp inside])
        rw [scanPart_comment front known lines] at scanned
        obtain rfl : [] = behind := (Prod.mk.inj scanned).2
        have spent : left.dropWhile (· != ch '\n') = [] :=
          dropWhile_eq_nil_iff.mpr fun d inside => bne_iff_ne.mpr fun newline =>
            lines (by simpa [← newline] using inside)
        rw [append_nil, spent, loops_nil]
        exact .ended state
      rw [if_neg comment, if_neg fun other => comment ⟨other.1, slash.mpr other.2⟩]
      have quote : c = ch '"' → quoted shpMaxWord left = none → quoted shpMaxWord (left ++ behind) = none := by
        rintro rfl opened
        rw [scanPart_cons] at scanned
        exact quoted_whole opened (keep_inj scanned)
      rw [token_append (fun d front => .inr (stop d front)) quote]
      rcases taken : state.token c left with _ | result
      · exact .rejected
      obtain ⟨after, kept⟩ := result
      obtain ⟨last, scanned, tail, ending⟩ := token_scanned taken separator comment scanned
      replace plain := plain.suffix (tail.trans (suffix_cons ..))
      have shorter := (token_suffix taken).length_le
      refine ih _ ?_ scanned plain (fun glued => ?_) rfl
      · simp only [length_append] at bound ⊢
        omega
      · rcases ending with known | other
        · exact absurd ((prefix_cons_inj last).mpr glued).isInfix (plain.comment last known)
        · obtain ⟨more, same⟩ := glued
          exact absurd (by rw [← same]; rfl) other

/-! The pumps. -/

variable {line : List UInt8} {placed : Placed}

def outcome : Option (StmtState × List UInt8) → StmtRc
  | none => .syntaxError
  | some (state, _) => state.finish

lemma parseStmt_short (short : text.length ≤ shpMaxLine) : parseStmt text =
    (outcome (loops .init text), ((loops .init text).map Prod.snd).getD text) := by
  unfold parseStmt
  rw [if_neg (not_lt.mpr short)]
  show (match loops .init text with | none => _ | some (state, rest) => _) = _
  cases loops .init text <;> rfl

lemma Ending.whole (ending : Ending back full short) (ended : full = some (state, [])) : short = some (state, []) := by
  cases ending with
  | rejected => cases ended
  | inside own rest =>
    obtain ⟨rfl, none⟩ := Prod.mk.inj (some_inj.mp ended)
    rw [(append_eq_nil_iff.mp none).1]
  | reached own =>
    obtain ⟨rfl, -⟩ := Prod.mk.inj (some_inj.mp ended)
    rfl

/-- What the statement at the front of a text does; `none` is an empty one. -/
def stmtAt (text : List UInt8) : Option Action :=
  match (parseStmt text).1 with
  | .ok line => some (.run line)
  | .syntaxError => some .syntaxError
  | .empty => none

/-- Where the pump goes on behind the statement at the front. -/
def advance (text : List UInt8) : List UInt8 :=
  if (parseStmt text).2.length = text.length then recover text else (parseStmt text).2

lemma recover_append (plain : ∀ c ∈ text, isStmtEnd c = false) (stop : ∀ c, behind.head? = some c → c = ch ';') :
    recover (text ++ behind) = behind.drop 1 := by
  unfold recover
  rw [dropWhile_append_of_pos fun c inside => by rw [plain c inside]; rfl]
  cases behind with
  | nil => rfl
  | cons c rest =>
    cases stop c rfl
    rfl

lemma PlainLine.blank (plain : PlainLine text) : PlainLine (ch ' ' :: text) where
  newline found := plain.newline ((mem_cons.mp found).resolve_left (by decide))
  returns found := plain.returns ((mem_cons.mp found).resolve_left (by decide))
  comment c known found := by
    rcases infix_cons_iff.mp found with front | inside
    · obtain rfl : c = ch ' ' := (cons_prefix_cons.mp front).1
      exact absurd known (by decide)
    · exact plain.comment c known inside

lemma PlainLine.trimFront (plain : PlainLine text) : trimFront text = text.dropWhile isSpace := by
  induction text with
  | nil => rfl
  | cons c text ih =>
    have same : isBlank c = isSpace c := by
      have other : c ≠ ch '\n' ∧ c ≠ ch '\r' :=
        ⟨fun same => plain.newline (same ▸ mem_cons_self), fun same => plain.returns (same ▸ mem_cons_self)⟩
      rw [isBlank, isSpace, beq_eq_false_iff_ne.mpr other.1, beq_eq_false_iff_ne.mpr other.2, Bool.or_false,
        Bool.or_false]
    rw [Shell.trimFront, dropWhile_cons, dropWhile_cons, same]
    exact ite_congr rfl (fun _ => ih (plain.suffix (suffix_cons ..))) fun _ => rfl

lemma advance_nil (spent : (parseStmt text).2 = []) : advance text = [] := by
  unfold advance
  rw [spent]
  split
  next none => rw [length_eq_zero_iff.mp none.symm]; rfl
  · rfl

/-- A part is what the scan takes behind the blanks in front, without those at its end. -/
lemma splitPart_cut {after} (plain : PlainLine text) (found : splitPart text = some (part, after, rest)) :
    ∃ c left back behind, text.dropWhile isSpace = c :: left ∧
      scanPart .plain 0 (ch ' ') (c :: left) = (part ++ back, behind) ∧ Blanks back ∧ rest = behind.drop 1 := by
  unfold splitPart at found
  split at found
  · cases found
  next c left skipped =>
  rw [plain.trimFront] at skipped
  dsimp only at found
  rcases scanned : scanPart .plain 0 (ch ' ') (c :: left) with ⟨body, behind⟩
  rw [scanned] at found
  cases found
  have split : body = trimBack body ++ (body.reverse.takeWhile isBlank).reverse := by
    unfold trimBack
    rw [← reverse_append, takeWhile_append_dropWhile, reverse_reverse]
  refine ⟨c, left, (body.reverse.takeWhile isBlank).reverse, behind, skipped, by rw [← split, scanned],
    fun d found => ?_, ?_⟩
  · exact all_eq_true.mp all_takeWhile d (mem_reverse.mp found)
  · have stop := (scanPart_split scanned).2
    cases behind with
    | nil => rfl
    | cons d more => rw [stop d rfl]; rfl

/-- The recovery from a rejected part goes on behind it. -/
lemma PlainLine.recover {front : List UInt8} (plain : PlainLine text) (whole : text = front ++ (part ++ back) ++ behind)
    (spaces : ∀ c ∈ front, isSpace c = true) (held : ch ';' ∉ part) (blanks : Blanks back)
    (stop : ∀ c, behind.head? = some c → c = ch ';') : recover text = behind.drop 1 := by
  have goes : ∀ c ∈ front ++ (part ++ back), isStmtEnd c = false := by
    intro c found
    by_contra ends
    have listed : c ∈ text := whole ▸ mem_append_left _ found
    cases plain.stmtEnd listed (Bool.not_eq_false _ ▸ ends)
    rcases mem_append.mp found with space | found
    · exact absurd (spaces _ space) (by decide)
    rcases mem_append.mp found with own | blank
    · exact held own
    · exact absurd (blanks _ blank) (by decide)
  rw [whole]
  exact recover_append goes stop

/-- The part in front of a line is the statement in front of the script, and the rest of the line is what the script
goes on with. -/
lemma splitPart_stmt {after} (short : text.length ≤ shpMaxLine) (plain : PlainLine text)
    (found : splitPart text = some (part, after, rest)) (held : (parseStmt part).1 = .syntaxError → ch ';' ∉ part) :
    stmtAt part = stmtAt text ∧ (stmtAt part = none → advance part = []) ∧ advance text = rest ∧ rest <:+ text ∧
      rest.length < text.length := by
  obtain ⟨c, left, back, behind, skipped, scanned, blanks, rfl⟩ := splitPart_cut plain found
  obtain ⟨whole, stop⟩ := scanPart_split scanned
  have front : c :: left <:+ text := skipped ▸ dropWhile_suffix _
  have inside : behind <:+ text := (whole ▸ suffix_append ..).trans front
  have bound := front.length_le
  have shorter : (behind.drop 1).length < text.length := by
    have below := inside.length_le
    rw [length_drop, length_cons] at *
    omega
  have fits : part.length ≤ shpMaxLine := by
    rw [whole, length_append, length_append] at bound
    omega
  have along : Along behind (loops .init text) (loops .init (part ++ back)) := by
    rw [← loops_spaces, skipped]
    exact loops_along scanned (plain.suffix front).blank fun _ => .inl (by decide)
  have ending : Ending back (loops .init (part ++ back)) (loops .init part) := loops_trim blanks
  have parsed := parseStmt_short short
  have cut := parseStmt_short fits
  generalize loops .init text = full, loops .init (part ++ back) = middle, loops .init part = own
    at along ending parsed cut
  cases along with
  | rejected =>
    cases ending
    replace parsed : parseStmt text = (.syntaxError, text) := parsed
    replace cut : parseStmt part = (.syntaxError, part) := cut
    have halves : text = text.takeWhile isSpace ++ (part ++ back) ++ behind := by
      rw [append_assoc, ← whole, ← skipped, takeWhile_append_dropWhile]
    have recovered := plain.recover halves (fun _ => mem_takeWhile_imp) (held (by rw [cut])) blanks stop
    have stmts : stmtAt part = some .syntaxError ∧ stmtAt text = some .syntaxError := by
      unfold stmtAt
      rw [cut, parsed]
      exact ⟨rfl, rfl⟩
    rw [stmts.1, stmts.2]
    refine ⟨rfl, nofun, ?_, (drop_suffix ..).trans inside, shorter⟩
    rw [advance, parsed, if_pos rfl, recovered]
  | ended state =>
    cases ending.whole rfl
    replace parsed : parseStmt text = (state.finish, behind.drop 1) := parsed
    replace cut : parseStmt part = (state.finish, []) := cut
    have same : stmtAt part = stmtAt text := by
      unfold stmtAt
      rw [cut, parsed]
    refine ⟨same, fun _ => advance_nil (by rw [cut]), ?_, (drop_suffix ..).trans inside, shorter⟩
    rw [advance, parsed, if_neg (ne_of_lt shorter)]

/-- The calls of the pump over a script, with the fuel of the first of them. -/
def scriptFrom (calls fuel : Nat) (text : List UInt8) : List Placed :=
  match pumpSpan fuel 0 text with
  | none => []
  | some (placed, rest) => placed :: pumpScript calls rest

lemma pumpSpan_succ {after} (filled : text ≠ []) : pumpSpan (fuel + 1) after text = match stmtAt text with
    | none => pumpSpan fuel after (advance text)
    | some action => some (⟨(text.dropWhile isSpace).length + after, action⟩, advance text) := by
  rw [pumpSpan, if_neg filled]
  unfold stmtAt advance
  rcases parseStmt text with ⟨rc, rest⟩
  cases rc <;> rfl

lemma pumpSpan_nil {after} : pumpSpan fuel after [] = none := by
  cases fuel <;> rfl

lemma scriptFrom_blank {calls} (short : text.length ≤ shpMaxLine) (plain : PlainLine text)
    (blank : splitPart text = none) : scriptFrom calls (fuel + 1) text = [] := by
  have spaces : text.dropWhile isSpace = [] := by
    rw [← plain.trimFront]
    unfold splitPart at blank
    split at blank
    · assumption
    · cases blank
  have parsed : parseStmt text = (.empty, []) := by
    rw [parseStmt_short short, ← loops_spaces, spaces, loops_nil]
    rfl
  have empty : stmtAt text = none := by rw [stmtAt, parsed]
  unfold scriptFrom
  by_cases filled : text = []
  · rw [filled, pumpSpan_nil]
  · rw [pumpSpan_succ filled, empty, advance_nil (by rw [parsed])]
    dsimp only
    rw [pumpSpan_nil]

/-- Over the same bytes a line and a script do the same, statement by statement. -/
lemma pumpLine_script {stale : Nat → Option Ty} {session : Session} {calls turns : Nat}
    (short : text.length ≤ shpMaxLine) (plain : PlainLine text)
    (commands : ∀ part ∈ parts fuel text, classify session part = .command)
    (held : ∀ part ∈ parts fuel text, (parseStmt part).1 = .syntaxError → ch ';' ∉ part)
    (enough : text.length < fuel ∧ text.length ≤ calls ∧ text.length < turns) :
    (pumpLine stale fuel session text).map Placed.action = (scriptFrom calls turns text).map Placed.action := by
  induction fuel generalizing text calls turns with
  | zero => exact absurd enough.1 (Nat.not_lt_zero _)
  | succ fuel ih =>
    obtain ⟨turns, rfl⟩ := Nat.exists_eq_succ_of_ne_zero (Nat.ne_zero_of_lt enough.2.2)
    unfold pumpLine
    unfold parts at commands held
    rcases found : splitPart text with _ | ⟨part, after, rest⟩
    · rw [scriptFrom_blank short plain found]
    rw [found] at commands held
    dsimp only at commands held ⊢
    have own : (parseStmt part).1 = .syntaxError → ch ';' ∉ part := by
      by_cases empty : part = []
      · rw [empty]
        exact nofun
      · exact held part (by rw [if_neg empty]; exact mem_cons_self)
    obtain ⟨same, spent, next, inside, shorter⟩ := splitPart_stmt short plain found own
    have filled : text ≠ [] := length_pos_iff.mp (Nat.zero_lt_of_lt shorter)
    have listed : ∀ other ∈ parts fuel rest,
        other ∈ if part = [] then parts fuel rest else part :: parts fuel rest := by
      intro other member
      split
      · exact member
      · exact mem_cons_of_mem _ member
    have later : ∀ {calls turns}, rest.length ≤ calls → rest.length < turns →
        (pumpLine stale fuel session rest).map Placed.action = (scriptFrom calls turns rest).map Placed.action := by
      intro calls turns few small
      exact ih (le_trans inside.length_le short) (plain.suffix inside)
        (fun other member => commands other (listed other member))
        (fun other member => held other (listed other member)) ⟨by omega, few, small⟩
    -- what the script does with the statement, and what the line does with the part
    have scripted : (scriptFrom calls (turns + 1) text).map Placed.action =
        (stmtAt text).toList ++ (pumpLine stale fuel session rest).map Placed.action := by
      unfold scriptFrom
      rw [pumpSpan_succ filled, next]
      cases stmtAt text with
      | none => exact (later (by omega) (by omega)).symm
      | some action =>
        obtain ⟨calls, rfl⟩ := Nat.exists_eq_succ_of_ne_zero (show calls ≠ 0 by omega)
        exact congrArg (action :: ·) (@later calls (rest.length + 1) (by omega) (Nat.lt_succ_self _)).symm
    rw [scripted, ← same]
    by_cases empty : part = []
    · rw [if_pos empty, empty]
      rfl
    rw [if_neg empty, commands part (by rw [if_neg empty]; exact mem_cons_self), pumpSpan_succ empty]
    cases done : stmtAt part with
    | none =>
      dsimp only
      rw [spent done, pumpSpan_nil]
      rfl
    | some action => rfl

/-- Every part of the line goes to the command executor. -/
def Commands (session : Session) (line : List UInt8) : Prop :=
  ∀ part ∈ parts (line.length + 1) line, classify session part = .command

instance (session : Session) (line : List UInt8) : Decidable (Commands session line) :=
  inferInstanceAs (Decidable (∀ part ∈ parts (line.length + 1) line, classify session part = .command))

/-- No part that is rejected holds a separator, in a quote, a brace or a comment. -/
def Rejects (line : List UInt8) : Prop :=
  ∀ part ∈ parts (line.length + 1) line, (parseStmt part).1 = .syntaxError → ch ';' ∉ part

/-- Quotes and a comment with a separator inside, a pipeline, an empty statement and one that is rejected. -/
def mixedLine : List UInt8 := ascii "echo \"a;b\" |> cat;; x > ; d//e // f;g"

end Rynor.Shell
