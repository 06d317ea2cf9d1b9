import Rynor.Lib.Checks
import Rynor.Shell.Sem

/-! The lexer reads a part and the same part without the blanks around it alike: the tokens of the part are those
of the trimmed line, moved by what was trimmed in front. -/

namespace Rynor.Shell
open Checks List

variable {off room trim fuel : Nat} {rest front back after bytes : List UInt8} {c : UInt8} {comment : Bool}
  {token : Token}

def Blanks (text : List UInt8) : Prop := ∀ c ∈ text, isBlank c

lemma blank_cases (blank : isBlank c) : c = ch ' ' ∨ c = ch '\t' ∨ c = ch '\r' ∨ c = ch '\n' := by
  simpa [isBlank, or_assoc] using blank

/-! The lexer. -/

lemma skip_blank (blank : isBlank c) : skip false off (c :: rest) = skip false (off + 1) rest := by
  have small : ¬ c > 0x7f := by rcases blank_cases blank with rfl | rfl | rfl | rfl <;> decide
  simp only [skip, Bool.false_eq_true, if_false, if_neg small, if_pos blank]

lemma skip_front (blanks : Blanks front) : skip false off (front ++ rest) = skip false (off + front.length) rest := by
  induction front generalizing off with
  | nil => rfl
  | cons c front ih =>
    rw [cons_append, skip_blank (blanks c (mem_cons_self ..)), ih fun d inside => blanks d (mem_cons_of_mem _ inside),
      length_cons, add_assoc, add_comm 1]

lemma skip_blanks (blanks : Blanks back) : ∃ last, skip comment off back = .ok (last, []) := by
  induction back generalizing off comment with
  | nil => exact ⟨off, rfl⟩
  | cons c back ih =>
    have blank := blanks c (mem_cons_self ..)
    have tail : Blanks back := fun d inside => blanks d (mem_cons_of_mem _ inside)
    cases comment with
    | false =>
      rw [skip_blank blank]
      exact ih tail
    | true =>
      have small : ¬ c > 0x7f := by rcases blank_cases blank with rfl | rfl | rfl | rfl <;> decide
      simp only [skip, if_true, if_neg small]
      split
      · exact ih tail
      · exact ih tail

/-- What is left behind the blanks and comments: nothing on both sides, or the same bytes. -/
def Skipped (trim off : Nat) (rest back : List UInt8) (moved own : Nat × List UInt8) : Prop :=
  (moved.2 = [] ∧ own.2 = []) ∨
    (moved.1 = own.1 + trim ∧ moved.2 = own.2 ++ back ∧ own.2 ≠ [] ∧ off ≤ own.1 ∧
      own.1 + own.2.length = off + rest.length)

lemma Skipped.step (skipped : Skipped trim (off + 1) rest back moved own) :
    Skipped trim off (c :: rest) back moved own := by
  rcases skipped with none | ⟨at_, bytes, some, later, ends⟩
  · exact .inl none
  refine .inr ⟨at_, bytes, some, by omega, ?_⟩
  rw [ends, length_cons]
  omega

lemma skip_moved (blanks : Blanks back) :
    Alike (Skipped trim off rest back) (skip comment (off + trim) (rest ++ back)) (skip comment off rest) := by
  induction rest generalizing off comment with
  | nil =>
    obtain ⟨last, skipped⟩ : ∃ last, skip comment (off + trim) back = .ok (last, []) := skip_blanks blanks
    rw [nil_append, skipped]
    exact .ok (.inl ⟨rfl, rfl⟩)
  | cons c rest ih =>
    have later : off + trim + 1 = off + 1 + trim := by omega
    have next : ∀ comment, Alike (Skipped trim off (c :: rest) back) (skip comment (off + trim + 1) (rest ++ back))
        (skip comment (off + 1) rest) := fun comment => by
      rw [later]
      exact ih.imp fun _ _ => Skipped.step
    -- A slash at the end of the line is followed by nothing or by a blank, never by another slash.
    have slash : (rest ++ back).head? = some (ch '/') ↔ rest.head? = some (ch '/') := by
      cases rest with
      | cons => rfl
      | nil =>
        refine ⟨fun head => ?_, nofun⟩
        have blank := blanks _ (mem_of_mem_head? head)
        exact absurd blank (by decide)
    rw [cons_append]
    simp only [skip]
    refine .ite Iff.rfl (.ite Iff.rfl (next false) (.ite Iff.rfl (.error _) (next true)))
      (.ite Iff.rfl (.error _) (.ite Iff.rfl (next false)
      (.ite (and_congr_right fun _ => slash) (next true) ?_)))
    exact .ok (.inr ⟨rfl, rfl, nofun, Nat.le_refl _, rfl⟩)

lemma scanString_blanks (blanks : Blanks back) : ∃ fault, scanString room back = .error fault := by
  induction back generalizing room with
  | nil => exact ⟨.unterminated, by rw [scanString]⟩
  | cons c back ih =>
    obtain ⟨quote, small, slash⟩ : c ≠ ch '"' ∧ ¬ c > 0x7f ∧ c ≠ ch '\\' := by
      rcases blank_cases (blanks c (List.mem_cons_self ..)) with rfl | rfl | rfl | rfl <;> decide
    unfold scanString
    rw [if_neg quote, if_neg small, if_neg slash]
    split
    · exact ⟨_, rfl⟩
    split
    · exact ⟨_, rfl⟩
    next room =>
    obtain ⟨fault, failed⟩ : ∃ fault, scanString room back = .error fault := ih fun d inside =>
      blanks d (List.mem_cons_of_mem _ inside)
    exact ⟨fault, by rw [failed]; rfl⟩

/-- Two readings both fail, or both succeed with related results. Blanks behind an open escape change the fault. -/
inductive Both {α β : Type} (related : α → β → Prop) : Except LexFault α → Except LexFault β → Prop
  | error (first second : LexFault) : Both related (.error first) (.error second)
  | ok {left : α} {right : β} (same : related left right) : Both related (.ok left) (.ok right)

lemma Both.map {α β γ δ : Type} {related : α → β → Prop} {others : γ → δ → Prop} {left right}
    {f : α → γ} {g : β → δ} (both : Both related left right) (maps : ∀ x y, related x y → others (f x) (g y)) :
    Both others (left.map f) (right.map g) := by
  cases both with
  | error first second => exact .error first second
  | ok same => exact .ok (maps _ _ same)

/-- The rest of a literal: the same bytes, and the blanks are still behind what follows it. -/
def Scanned (rest back : List UInt8) (moved own : List UInt8 × List UInt8) : Prop :=
  moved = (own.1, own.2 ++ back) ∧ own.2.length < rest.length

lemma scanString_moved (blanks : Blanks back) :
    Both (Scanned rest back) (scanString room (rest ++ back)) (scanString room rest) := by
  have escapes : ¬ ch '\\' = ch '"' ∧ ¬ ch '\\' > 0x7f ∧ ¬ (ch '\\' = ch '\r' ∨ ch '\\' = ch '\n') := by decide
  fun_induction scanString room rest with
  | case1 room =>
    obtain ⟨fault, failed⟩ : ∃ fault, scanString room back = .error fault := scanString_blanks blanks
    rw [nil_append, failed]
    exact .error _ _
  | case2 room rest =>
    rw [cons_append, scanString.eq_def _ (_ :: _)]
    simp only [if_true]
    exact .ok ⟨rfl, Nat.lt_succ_self _⟩
  | case3 room c rest quote high =>
    rw [cons_append, scanString.eq_def _ (_ :: _)]
    simp only [if_neg quote, if_pos high]
    exact .error _ _
  | case4 room c rest quote small line =>
    rw [cons_append, scanString.eq_def _ (_ :: _)]
    simp only [if_neg quote, if_neg small, if_pos line]
    exact .error _ _
  | case5 room =>
    rw [cons_append, scanString.eq_def _ (_ :: _)]
    simp only [if_neg escapes.1, if_neg escapes.2.1, if_neg escapes.2.2, if_true, nil_append]
    split
    · exact .error _ _
    next e more =>
    have unknown : escape e = none := by
      rcases blank_cases (blanks e (mem_cons_self ..)) with rfl | rfl | rfl | rfl <;> decide
    rw [unknown]
    exact .error _ _
  | case6 room e rest unknown | case7 _ _ _ unknown =>
    rw [cons_append, cons_append, scanString.eq_def _ (_ :: _)]
    simp only [if_neg escapes.1, if_neg escapes.2.1, if_neg escapes.2.2, if_true, unknown]
    exact .error _ _
  | case8 e rest value room known _ _ _ ih =>
    rw [cons_append, cons_append, scanString.eq_def _ (_ :: _)]
    simp only [if_neg escapes.1, if_neg escapes.2.1, if_neg escapes.2.2, if_true, known]
    refine ih.map fun moved own ⟨same, shorter⟩ => ⟨by rw [same], ?_⟩
    simp only [length_cons]
    omega
  | case9 c rest quote small line slash =>
    rw [cons_append, scanString.eq_def _ (_ :: _)]
    simp only [if_neg quote, if_neg small, if_neg line, if_neg slash]
    exact .error _ _
  | case10 c rest quote small line slash room ih =>
    rw [cons_append, scanString.eq_def _ (_ :: _)]
    simp only [if_neg quote, if_neg small, if_neg line, if_neg slash]
    refine ih.map fun moved own ⟨same, shorter⟩ => ⟨by rw [same], ?_⟩
    simp only [length_cons]
    omega

/-- A run of bytes ends before a text that begins with another one. -/
lemma span_moved {p : UInt8 → Bool} (stops : ∀ c, back.head? = some c → p c = false) :
    (rest ++ back).takeWhile p = rest.takeWhile p ∧ (rest ++ back).dropWhile p = rest.dropWhile p ++ back := by
  induction rest with
  | nil =>
    cases back with
    | nil => exact ⟨rfl, rfl⟩
    | cons c back => simp [stops c rfl]
  | cons c rest ih =>
    rw [cons_append, takeWhile_cons, takeWhile_cons, dropWhile_cons, dropWhile_cons, ih.1, ih.2]
    cases p c <;> exact ⟨rfl, rfl⟩

lemma Blanks.head (blanks : Blanks back) (front : back.head? = some c) : isBlank c := blanks c (mem_of_mem_head? front)

lemma blank_plain (blank : isBlank c) : isAlnum c = false ∧ isDigit c = false := by
  rcases blank_cases blank with rfl | rfl | rfl | rfl <;> decide

/-- A token of the line with the bytes behind it, and the same token of the part. -/
structure Lexed (trim off : Nat) (rest back : List UInt8) (moved own : Token × List UInt8) : Prop where
  same : moved = ({ own.1 with off := own.1.off + trim }, own.2 ++ back)
  later : off ≤ own.1.off
  takes : 1 ≤ own.1.len
  ends : own.1.off + own.1.len + own.2.length = off + rest.length

lemma operator_moved (blanks : Blanks back) :
    Both (Lexed trim off (c :: rest) back) (operator (off + trim) c (rest ++ back)) (operator off c rest) := by
  have double : (rest ++ back).head?.bind (doubleOp c) = rest.head?.bind (doubleOp c) := by
    cases rest with
    | cons => rfl
    | nil =>
      cases back with
      | nil => rfl
      | cons d back =>
        show doubleOp c d = none
        rcases blank_cases (blanks d (mem_cons_self ..)) with rfl | rfl | rfl | rfl <;> simp [doubleOp, ch]
  unfold operator
  rw [double]
  split
  next kind found =>
    cases rest with
    | nil => cases found
    | cons d rest => exact .ok ⟨rfl, Nat.le_refl _, Nat.le_succ _, by
      simp only [length_cons, drop_succ_cons, drop_zero]; omega⟩
  split
  next => exact .ok ⟨rfl, Nat.le_refl _, Nat.le_refl _, by simp only [length_cons]; omega⟩
  next => exact .error _ _

lemma length_span (p : UInt8 → Bool) (rest : List UInt8) :
    (rest.takeWhile p).length + (rest.dropWhile p).length = rest.length := by
  rw [← length_append, takeWhile_append_dropWhile]

lemma lexToken_moved (blanks : Blanks back) :
    Both (Lexed trim off (c :: rest) back) (lexToken (off + trim) room c (rest ++ back))
    (lexToken off room c rest) := by
  obtain ⟨word, afterWord⟩ : (rest ++ back).takeWhile isAlnum = rest.takeWhile isAlnum ∧
      (rest ++ back).dropWhile isAlnum = rest.dropWhile isAlnum ++ back := span_moved fun d front =>
        (blank_plain (blanks.head front)).1
  obtain ⟨digits, afterDigits⟩ : (rest ++ back).takeWhile isDigit = rest.takeWhile isDigit ∧
      (rest ++ back).dropWhile isDigit = rest.dropWhile isDigit ++ back := span_moved fun d front =>
        (blank_plain (blanks.head front)).2
  have scan : Both (Scanned rest back) (scanString room (rest ++ back)) (scanString room rest) :=
    scanString_moved blanks
  simp only [lexToken]
  rw [word, afterWord, digits, afterDigits]
  split
  · refine .ok ⟨rfl, Nat.le_refl _, Nat.le_add_left _ _, ?_⟩
    have spans := length_span isAlnum rest
    simp only [length_cons]
    omega
  split
  · split
    · exact .error _ _
    refine .ok ⟨rfl, Nat.le_refl _, Nat.le_add_left _ _, ?_⟩
    have spans := length_span isDigit rest
    simp only [length_cons]
    omega
  split
  · generalize scanString room (rest ++ back) = moved at scan
    generalize scanString room rest = own at scan
    cases scan with
    | error first second => exact .error _ _
    | @ok moved own scanned =>
      obtain ⟨rfl, shorter⟩ := scanned
      have width : (rest ++ back).length + 1 - (own.2 ++ back).length = rest.length + 1 - own.2.length := by
        simp only [length_append]
        omega
      refine .ok ⟨?_, Nat.le_refl _, ?_, ?_⟩
      · show (_, _) = (_, _)
        rw [width]
      · show 1 ≤ rest.length + 1 - own.2.length
        omega
      · simp only [length_cons]
        omega
  · exact operator_moved blanks

/-- The next token on both sides, or the end on both. -/
inductive LexedNext (trim off : Nat) (rest back : List UInt8) :
    Option (Token × List UInt8) → Option (Token × List UInt8) → Prop
  | none : LexedNext trim off rest back none none
  | some {moved own : Token × List UInt8} (lexed : Lexed trim off rest back moved own) :
    LexedNext trim off rest back (some moved) (some own)

lemma lexNext_moved (blanks : Blanks back) :
    Both (LexedNext trim off rest back) (lexNext (off + trim) room (rest ++ back)) (lexNext off room rest) := by
  have skipped : Alike (Skipped trim off rest back) (skip false (off + trim) (rest ++ back)) (skip false off rest) :=
    skip_moved blanks
  unfold lexNext
  generalize skip false (off + trim) (rest ++ back) = moved at skipped
  generalize skip false off rest = own at skipped
  cases skipped with
  | error fault => exact .error _ _
  | @ok moved own skipped =>
    obtain ⟨next, left⟩ := own
    rcases skipped with ⟨ended, rfl⟩ | ⟨at_, bytes, present, later, ends⟩
    · obtain ⟨last, ending⟩ := moved
      cases ended
      exact .ok .none
    obtain ⟨last, behind⟩ := moved
    cases at_
    cases bytes
    cases left with
    | nil => exact absurd rfl present
    | cons c left =>
      have token : Both (Lexed trim next (c :: left) back) (lexToken (next + trim) room c (left ++ back))
        (lexToken next room c left) :=
        lexToken_moved blanks
      refine token.map fun moved own lexed => .some ⟨lexed.same, Nat.le_trans later lexed.later, lexed.takes, ?_⟩
      rw [lexed.ends, ends]

/-! Streams of tokens. -/

/-- The tokens of the part are those of the line, moved by what was trimmed; all of them lie inside the line. -/
inductive Near (trim : Nat) (line : List UInt8) : Stream → Stream → Prop
  | eof : Near trim line .eof .eof
  | fault (first second : LexFault) : Near trim line (.fault first) (.fault second)
  | token {own : Token} {moved left : Stream} (inside : own.off + own.len ≤ line.length)
    (rest : Near trim line moved left) :
    Near trim line (.token { own with off := own.off + trim } moved) (.token own left)

lemma pull_moved (blanks : Blanks back) (position : off + rest.length = line.length) (enough : rest.length < fuel)
    (plenty : rest.length < more) :
    Near trim line (pull more (off + trim) room (rest ++ back)) (pull fuel off room rest) := by
  induction fuel generalizing off room rest more with
  | zero => exact absurd enough (Nat.not_lt_zero _)
  | succ fuel ih =>
    obtain ⟨more, rfl⟩ := Nat.exists_eq_succ_of_ne_zero (Nat.ne_zero_of_lt plenty)
    have next : Both (LexedNext trim off rest back) (lexNext (off + trim) room (rest ++ back))
      (lexNext off room rest) := lexNext_moved blanks
    unfold pull
    generalize lexNext (off + trim) room (rest ++ back) = moved at next
    generalize lexNext off room rest = own at next
    rcases next with ⟨first, second⟩ | lexed
    · exact .fault _ _
    cases lexed with
    | none => exact .eof
    | @some moved own lexed =>
      obtain ⟨rfl, later, takes, ends⟩ := lexed
      have fewer : own.2.length < rest.length := by omega
      refine .token (by omega) ?_
      have place : own.1.off + trim + own.1.len = own.1.off + own.1.len + trim := by omega
      dsimp only
      rw [place]
      exact ih (by omega) (by omega) (by omega)

lemma lexNext_front (blanks : Blanks front) :
    lexNext off room (front ++ rest) = lexNext (off + front.length) room rest := by
  unfold lexNext
  rw [skip_front blanks]

/-- A part is its line between blanks. -/
structure Around (part line : List UInt8) (front back : List UInt8) : Prop where
  whole : part = front ++ (line ++ back)
  before : Blanks front
  behind : Blanks back

lemma around_trimmed (part : List UInt8) :
    ∃ front back, Around part (trimmed part) front back ∧ front.length = part.length - (trimFront part).length := by
  have first : part.takeWhile isBlank ++ trimFront part = part := takeWhile_append_dropWhile
  have second : trimFront part = trimmed part ++ ((trimFront part).reverse.takeWhile isBlank).reverse := by
    unfold trimmed
    rw [← reverse_append, takeWhile_append_dropWhile, reverse_reverse]
  refine ⟨part.takeWhile isBlank, ((trimFront part).reverse.takeWhile isBlank).reverse, ⟨?_, ?_, ?_⟩, ?_⟩
  · rw [← second, first]
  · exact fun c inside => all_eq_true.mp all_takeWhile c inside
  · exact fun c inside => all_eq_true.mp all_takeWhile c (mem_reverse.mp inside)
  · have lengths := congrArg List.length first
    rw [length_append] at lengths
    omega

lemma stream_moved (around : Around part line front back) :
    Near front.length line (stream room part) (stream room line) := by
  have moved : stream room part = pull (part.length + 1) (0 + front.length) room (line ++ back) := by
    unfold stream
    unfold pull
    rw [around.whole, lexNext_front around.before]
  rw [moved]
  refine pull_moved around.behind (zero_add _) (Nat.lt_succ_self _) ?_
  rw [around.whole]
  simp only [length_append]
  omega

end Rynor.Shell
