import Mathlib.Logic.Function.Iterate
import Rynor.Proofs.ShellParity

/-! Scripts, statement by statement. A statement is read alike whatever follows it, so a script that the parser takes
does what its statements do alone. But the parser is handed all that is left of the script and refuses more than a line
of it: a longer script begins with a syntax error. -/

namespace Rynor.Shell
open List
variable {state after : StmtState} {text rest pre : List UInt8} {sep : UInt8}

lemma loops_skip (state : StmtState) (text back : List UInt8) :
    loops state (text.takeWhile isSpace ++ back) = loops state back := by
  rw [← loops_spaces state (_ ++ _), dropWhile_append_of_pos fun _ => mem_takeWhile_imp, loops_spaces]

/-- A statement that ends at a separator is read alike whatever follows it. -/
lemma loops_taken (ended : loops state text = some (after, rest)) :
    rest = [] ∨ ∃ own, own ≠ [] ∧ text = own ++ rest ∧ ∀ back, loops state (own ++ back) = some (after, back) := by
  induction size : text.length using Nat.strongRecOn generalizing state text with
  | ind size ih =>
    subst size
    have whole : text.takeWhile isSpace ++ text.dropWhile isSpace = text := takeWhile_append_dropWhile
    rw [← loops_spaces] at ended
    cases skipped : text.dropWhile isSpace with
    | nil =>
      rw [skipped, loops_nil] at ended
      cases ended
      exact .inl rfl
    | cons c behind =>
      have first := first_dropWhile skipped
      rw [skipped] at ended whole
      rw [loops_cons first] at ended
      have lift : ∀ own, behind = own ++ rest → (∀ back, loops state (c :: (own ++ back)) = some (after, back)) →
          rest = [] ∨ ∃ own, own ≠ [] ∧ text = own ++ rest ∧ ∀ back, loops state (own ++ back) =
            some (after, back) := by
        intro own same again
        refine .inr ⟨text.takeWhile isSpace ++ c :: own, by simp,
          by rw [append_assoc, cons_append, ← same, whole], fun back => ?_⟩
        rw [append_assoc, loops_skip]
        exact again back
      split at ended
      · next ends =>
        cases ended
        exact lift [] rfl fun back => by rw [loops_cons first, if_pos ends]; rfl
      split at ended
      · next plain comment =>
        -- A comment ends at its newline, which ends the statement.
        have split : behind.takeWhile (· != ch '\n') ++ behind.dropWhile (· != ch '\n') = behind :=
          takeWhile_append_dropWhile
        cases line : behind.dropWhile (· != ch '\n') with
        | nil =>
          rw [line, loops_nil] at ended
          cases ended
          exact .inl rfl
        | cons d more =>
          have newline : d = ch '\n' := by simpa using first_dropWhile line
          subst newline
          rw [line, loops_cons (by decide), if_pos (by decide)] at ended
          cases ended
          rw [line] at split
          refine lift (behind.takeWhile (· != ch '\n') ++ [ch '\n']) (by rw [append_assoc]; exact split.symm)
            fun back => ?_
          obtain ⟨more, rfl⟩ := head?_eq_some_iff.mp comment.2
          rw [loops_cons first, if_neg plain, if_pos ⟨comment.1, rfl⟩, append_assoc,
            dropWhile_append_of_pos fun _ => mem_takeWhile_imp]
          rfl
      next plain comment =>
      obtain ⟨⟨next, left⟩, taken, goes⟩ := Option.bind_eq_some_iff.mp ended
      obtain ⟨token, rfl, again⟩ := token_taken taken
      have shorter : left.length < text.length := by
        rw [← whole]
        simp only [length_append, length_cons]
        omega
      rcases ih _ shorter goes rfl with none | ⟨own, some, rfl, later⟩
      · exact .inl none
      refine lift (token ++ own) (by rw [append_assoc]) fun back => ?_
      obtain ⟨d, own, rfl⟩ := exists_cons_of_ne_nil some
      have head : (token ++ (d :: own ++ back)).head? = (token ++ (d :: own ++ rest)).head? := by
        cases token <;> rfl
      rw [loops_cons first, append_assoc, if_neg plain, head, if_neg comment, again (d :: own ++ back) rfl]
      exact later back

/-- A statement that is rejected is rejected up to its first separator byte. -/
lemma loops_rejected (rejected : loops state (pre ++ sep :: rest) = none) (plain : ∀ c ∈ pre, isStmtEnd c = false)
    (ends : isStmtEnd sep) :
    loops state (pre ++ [sep]) = none := by
  induction size : pre.length using Nat.strongRecOn generalizing state pre with
  | ind size ih =>
    subst size
    have known : sep = ch ';' ∨ sep = ch '\n' ∨ sep = ch '\r' := by simpa [isStmtEnd, or_assoc] using ends
    have whole : pre.takeWhile isSpace ++ pre.dropWhile isSpace = pre := takeWhile_append_dropWhile
    have space : isSpace sep = false := by rcases known with rfl | rfl | rfl <;> decide
    rw [← whole, append_assoc, loops_skip] at rejected ⊢
    cases skipped : pre.dropWhile isSpace with
    | nil =>
      rw [skipped, nil_append, loops_cons space, if_pos ends] at rejected
      cases rejected
    | cons c left =>
      have first := first_dropWhile skipped
      rw [skipped] at rejected whole
      have word : isStmtEnd c ≠ true := by
        rw [plain c (by rw [← whole]; simp)]
        simp
      have head : (left ++ sep :: rest).head? = (left ++ [sep]).head? := by cases left <;> rfl
      rw [cons_append, loops_cons first, if_neg word] at rejected ⊢
      rw [head] at rejected
      split at rejected
      · obtain ⟨_, ended⟩ := loops_line state (left ++ sep :: rest)
        rw [ended] at rejected
        cases rejected
      next comment =>
      have stop : ∀ (back : List UInt8) d, (sep :: back).head? = some d → stops d := by
        rintro back d ⟨⟩
        rcases known with rfl | rfl | rfl <;> unfold stops <;> decide
      have unquoted : Unquoted [sep] := by
        intro c inside
        rw [mem_singleton.mp inside]
        rcases known with rfl | rfl | rfl <;> decide
      rw [if_neg comment, token_append (stop []) fun _ opened => quoted_open opened unquoted]
      rcases taken : state.token c left with _ | result
      · rfl
      obtain ⟨next, behind⟩ := result
      obtain ⟨own, rfl, -⟩ := token_taken taken
      have closed : c = ch '"' → quoted shpMaxWord (own ++ behind) = none →
        quoted shpMaxWord (own ++ behind ++ sep :: rest) = none := by
        rintro rfl opened
        rw [StmtState.token, if_neg (by decide), if_neg (by decide), if_pos rfl, opened] at taken
        cases taken
      rw [token_append (stop rest) closed, taken] at rejected
      have shorter : behind.length < pre.length := by
        rw [← whole]
        simp only [length_append, length_cons]
        omega
      exact ih _ shorter rejected (fun d inside => plain d (by rw [← whole]; simp [inside])) rfl

/-- What is left behind the statement at the front: a rejected one goes up to its first separator byte. -/
def cut (text : List UInt8) : List UInt8 := ((loops .init text).map Prod.snd).getD (recover text)

lemma recover_lt (filled : text ≠ []) : (recover text).length < text.length := by
  have bound := length_dropWhile_le (fun c => !isStmtEnd c) text
  have some := length_pos_of_ne_nil filled
  rw [recover, length_drop]
  omega

lemma advance_short (short : text.length ≤ shpMaxLine) : advance text = cut text := by
  rw [advance, cut, parseStmt_short short]
  rcases ended : loops .init text with _ | result
  · exact if_pos rfl
  obtain ⟨state, rest⟩ := result
  by_cases filled : text = []
  · subst filled
    cases ended
    rfl
  · exact if_neg (ne_of_lt ((loops_suffix ended).2 filled))

lemma parseStmt_long (long : shpMaxLine < text.length) : parseStmt text = (.syntaxError, text) := if_pos long

lemma advance_lt (filled : text ≠ []) : (advance text).length < text.length := by
  rcases lt_or_ge shpMaxLine text.length with long | short
  · rw [advance, parseStmt_long long, if_pos rfl]
    exact recover_lt filled
  rw [advance_short short, cut]
  cases ended : loops .init text with
  | none => exact recover_lt filled
  | some result => exact (loops_suffix ended).2 filled

lemma advance_turns (turns : Nat) (bound : text.length ≤ turns) : advance^[turns] text = [] := by
  induction turns generalizing text with
  | zero => exact length_eq_zero_iff.mp (Nat.le_zero.mp bound)
  | succ turns ih =>
    rw [Function.iterate_succ_apply]
    apply ih
    by_cases filled : text = []
    · rw [filled]
      exact Nat.zero_le _
    · have shorter := advance_lt filled
      omega

/-- The statement at the front alone: it has the outcome it has in its place, and nothing is left of it. -/
lemma stmtAt_alone (short : text.length ≤ shpMaxLine) :
    ∃ own, text = own ++ cut text ∧ stmtAt own = stmtAt text ∧ advance own = [] := by
  have alone : ∀ own, text = own ++ cut text → outcome (loops .init own) = outcome (loops .init text) → cut own = [] →
      ∃ own, text = own ++ cut text ∧ stmtAt own = stmtAt text ∧ advance own = [] := by
    intro own whole same done
    have fits : own.length ≤ shpMaxLine := by
      rw [whole, length_append] at short
      omega
    refine ⟨own, whole, ?_, (advance_short fits).trans done⟩
    rw [stmtAt, stmtAt, parseStmt_short fits, parseStmt_short short, same]
  cases ended : loops .init text with
  | some result =>
    obtain ⟨state, rest⟩ := result
    have left : cut text = rest := by rw [cut, ended]; rfl
    rcases loops_taken ended with rfl | ⟨own, -, rfl, again⟩
    · exact alone text (by rw [left, append_nil]) rfl left
    have own_ended := again []
    rw [append_nil] at own_ended
    exact alone own (by rw [left]) (by rw [own_ended, ended]; rfl) (by rw [cut, own_ended]; rfl)
  | none =>
    have left : cut text = recover text := by rw [cut, ended]; rfl
    have whole : text.takeWhile (fun c => !isStmtEnd c) ++ text.dropWhile (fun c => !isStmtEnd c) = text :=
      takeWhile_append_dropWhile
    cases found : text.dropWhile fun c => !isStmtEnd c with
    | nil =>
      have none : recover text = [] := by rw [recover, found]; rfl
      exact alone text (by rw [left, none, append_nil]) rfl (left.trans none)
    | cons sep rest =>
      have behind : recover text = rest := by rw [recover, found]; rfl
      have ends : isStmtEnd sep := by simpa using first_dropWhile found
      have plain : ∀ c ∈ text.takeWhile fun c => !isStmtEnd c, isStmtEnd c = false := fun c inside => by
        simpa using mem_takeWhile_imp inside
      rw [found] at whole
      have rejected : loops .init (text.takeWhile (fun c => !isStmtEnd c) ++ [sep]) = none := by
        rw [← whole] at ended
        exact loops_rejected ended plain ends
      refine alone (text.takeWhile (fun c => !isStmtEnd c) ++ [sep])
        (by rw [left, behind, append_assoc]; exact whole.symm)
        (by rw [rejected, ended]) ?_
      rw [cut, rejected]
      show recover _ = []
      rw [recover, dropWhile_append_of_pos fun _ => mem_takeWhile_imp]
      simp [ends]

/-! The pump. -/

/-- Where a pump that goes on as `next` says reads statements. -/
def visits (next : List UInt8 → List UInt8) : Nat → List UInt8 → List (List UInt8)
  | 0, _ => []
  | fuel + 1, text => if text = [] then [] else text :: visits next fuel (next text)

/-- The statements of a script, each with its separator. -/
def statements (text : List UInt8) : List (List UInt8) :=
  (visits cut text.length text).map fun text => text.take (text.length - (cut text).length)

lemma pumpSpan_turn (fuel : Nat) (filled : text ≠ []) : pumpSpan (fuel + 1) 0 text = match stmtAt text with
    | none => pumpSpan fuel 0 (advance text)
    | some action => some (⟨(text.dropWhile isSpace).length, action⟩, advance text) := by
  rw [pumpSpan, if_neg filled, stmtAt, advance]
  rcases parseStmt text with ⟨_ | _ | _, behind⟩ <;> rfl

lemma pump_visits {span fuel more} (far : text.length < span) (long : text.length ≤ fuel)
    (enough : text.length ≤ more) :
    (((pumpSpan span 0 text).map fun (placed, rest) => placed :: pumpScript fuel rest).getD []).map Placed.action =
      (visits advance more text).filterMap stmtAt := by
  induction size : text.length using Nat.strongRecOn generalizing text span fuel more with
  | ind size ih =>
    subst size
    obtain ⟨span, rfl⟩ := Nat.exists_eq_succ_of_ne_zero (Nat.ne_zero_of_lt far)
    by_cases filled : text = []
    · subst filled
      cases more <;> rfl
    have shorter := advance_lt filled
    obtain ⟨more, rfl⟩ := Nat.exists_eq_succ_of_ne_zero (show more ≠ 0 by omega)
    obtain ⟨fuel, rfl⟩ := Nat.exists_eq_succ_of_ne_zero (show fuel ≠ 0 by omega)
    rw [pumpSpan_turn span filled, visits, if_neg filled, filterMap_cons]
    cases stmtAt text with
    | none => exact ih _ shorter (by omega) (by omega) (by omega) rfl
    | some action =>
      have later := ih _ shorter (Nat.lt_succ_self _) (show (advance text).length ≤ fuel by omega)
        (show (advance text).length ≤ more by omega) rfl
      dsimp only [Option.map_some, Option.getD_some, map_cons]
      rw [← later, pumpScript]
      cases pumpSpan ((advance text).length + 1) 0 (advance text) <;> rfl

lemma script_visits (text : List UInt8) :
    (script text).map Placed.action = (visits advance text.length text).filterMap stmtAt := by
  rw [← pump_visits (Nat.lt_succ_self _) le_rfl le_rfl, script, pumpScript]
  cases pumpSpan (text.length + 1) 0 text <;> rfl

lemma visits_short (fuel : Nat) (short : text.length ≤ shpMaxLine) :
    visits advance fuel text = visits cut fuel text ∧ ∀ place ∈ visits cut fuel text, place.length ≤ shpMaxLine ∧
    place ≠ [] := by
  induction fuel generalizing text with
  | zero => exact ⟨rfl, nofun⟩
  | succ fuel ih =>
    by_cases filled : text = []
    · simp [visits, filled]
    have shorter := advance_lt filled
    rw [advance_short short] at shorter
    obtain ⟨same, places⟩ := @ih (cut text) (by omega)
    rw [visits, visits, if_neg filled, if_neg filled, advance_short short, same]
    exact ⟨rfl, forall_mem_cons.mpr ⟨⟨short, filled⟩, places⟩⟩

lemma loadScript_eq (file : List UInt8) (small : file.length < scriptMax) : loadScript file = some file := by
  have most : scriptMax = 4096 := rfl
  have chunk : freadMax = 16384 := rfl
  rw [loadScript, loadFrom]
  dsimp only
  rw [if_neg (by omega), if_pos (by omega), take_of_length_le (by omega)]

/-- Every script is read to its end. One that the parser takes whole does what its statements do as scripts of their
own; a longer one begins with a syntax error, whatever its first statement is. -/
theorem script_statements_local (text : List UInt8) :
    (text.length < scriptMax → loadScript text = some text) ∧
    (script text).map Placed.action = (visits advance text.length text).filterMap stmtAt ∧
    advance^[text.length] text = [] ∧
    (text.length ≤ shpMaxLine → (script text).map Placed.action = (statements text).flatMap fun stmt =>
      (script stmt).map Placed.action) ∧
    (shpMaxLine < text.length → ((script text).map Placed.action).head? = some .syntaxError) := by
  refine ⟨loadScript_eq text, script_visits text, advance_turns _ le_rfl, fun short => ?_, fun long => ?_⟩
  · obtain ⟨same, places⟩ := visits_short text.length short
    rw [script_visits, same, statements, flatMap_map, filterMap_eq_flatMap_toList]
    refine flatMap_congr fun place inside => ?_
    obtain ⟨fits, filled⟩ := places place inside
    obtain ⟨own, whole, alone, done⟩ := stmtAt_alone fits
    have piece : place.take (place.length - (cut place).length) = own := by
      have size := congrArg List.length whole
      rw [length_append] at size
      rw [show place.length - (cut place).length = own.length by omega]
      conv_lhs => rw [whole]
      exact take_left
    have some : own ≠ [] := by
      rintro rfl
      rw [nil_append] at whole
      have shorter := advance_lt filled
      rw [advance_short fits, ← whole] at shorter
      exact absurd shorter (lt_irrefl _)
    obtain ⟨size, count⟩ := Nat.exists_eq_succ_of_ne_zero (Nat.ne_zero_of_lt (length_pos_of_ne_nil some))
    rw [piece, script_visits, count, visits, if_neg some, done, filterMap_cons, alone]
    cases size <;> cases stmtAt place <;> rfl
  · have filled : text ≠ [] := by
      rintro rfl
      exact absurd long (Nat.not_lt_zero _)
    obtain ⟨size, count⟩ := Nat.exists_eq_succ_of_ne_zero (Nat.ne_zero_of_lt long)
    rw [script_visits, count, visits, if_neg filled, filterMap_cons, stmtAt, parseStmt_long long]
    rfl

/-- A command and blank lines behind it: alone it runs, in the script it is a syntax error. -/
def longScript : List UInt8 := ch 'a' :: List.replicate 260 (ch '\n')

theorem script_refuses_first :
    longScript.length ≤ scriptMax ∧ (∀ stmt ∈ statements longScript, stmt.length ≤ shpMaxLine) ∧
    (script longScript).map Placed.action ≠ (statements longScript).flatMap fun stmt =>
    (script stmt).map Placed.action := by
  decide +kernel

end Rynor.Shell
