import Mathlib.Data.List.Induction
import Rynor.Shell.Foreground

/-! Each set of foreground children is polled until its own handles have ended and is then finalized from what they
answered, unless a set is abandoned while a record of it stands. -/

namespace Rynor.Shell.Foreground
open List

/-- A set with the terminal observations of its own handles. -/
structure Account where
  size : Nat
  seen : Nat → Option Status

namespace Account

/-- The handles that have not ended yet. -/
def pending (acc : Account) : List Nat := (range acc.size).filter fun i => (acc.seen i).isNone

def Complete (acc : Account) : Prop := ∀ i < acc.size, (acc.seen i).isSome

instance (acc : Account) : Decidable acc.Complete := inferInstanceAs (Decidable (∀ i < acc.size, _))

def observe (acc : Account) (wait : Nat → Reply) : Account :=
  { acc with seen := fun i => if i ∈ acc.pending then terminal (wait i) else acc.seen i }

end Account

/-- Where the account of the sets stands: no set is open, some handle of one is still awaited, or all have ended. -/
inductive Stage where
  | idle
  | waiting (acc : Account)
  | ended (acc : Account)

/-- The events as they should be: a poll waits for every handle of the open set that has not ended; when the last one
has, the set is finalized next, once and from its own observations; it is abandoned only before. -/
def account : Stage → Event → Option Stage
  | .idle, .started nfh => some (.waiting ⟨nfh, fun _ => none⟩)
  | .waiting acc, .polled asked wait =>
    if asked = acc.pending then some (if (acc.observe wait).Complete then .ended (acc.observe wait)
      else .waiting (acc.observe wait))
    else none
  | .ended acc, .final abort status =>
    if some status = (if abort then some stAbort else (acc.seen (acc.size - 1)).map mapChild) then some .idle else none
  | .waiting _, .waitStuck => some .idle
  | _, _ => none

def replay (log : List Event) : Option Stage := log.foldlM account .idle

def Event.opens : Event → Bool
  | .started _ => true
  | _ => false

def Event.closes : Event → Bool
  | .final .. | .waitStuck => true
  | _ => false

/-- The set that is in the foreground, by the variables of the shell. -/
def State.stage (s : State) : Stage := if s.nfh = 0 then .idle else .waiting ⟨s.nfh, s.term⟩

variable {log : List Event} {s after : State} {left : Nat}

lemma replay_concat (event : Event) : replay (log ++ [event]) = (replay log).bind (account · event) := by
  simp [replay]

/-- The sets that are open. -/
def Stage.sets : Stage → Nat
  | .idle => 0
  | .waiting _ | .ended _ => 1

lemma account_counts {before after : Stage} {event : Event} (stepped : account before event = some after) :
    before.sets + event.opens.toNat = after.sets + event.closes.toNat := by
  rcases before with _ | acc | acc <;> cases event <;>
    simp only [account, reduceCtorEq, Option.ite_none_right_eq_some, Option.some.injEq] at stepped
  · subst stepped
    rfl
  · obtain ⟨-, rfl⟩ := stepped
    split <;> rfl
  · subst stepped
    rfl
  · obtain ⟨-, rfl⟩ := stepped
    rfl

/-- Every set but the open one is closed once. -/
lemma replay_closes {stage : Stage} (told : replay log = some stage) :
    log.countP Event.opens = log.countP Event.closes + stage.sets := by
  induction log using reverseRecOn generalizing stage with
  | nil =>
    cases told
    rfl
  | append_singleton log event ih =>
    rw [replay_concat] at told
    obtain ⟨before, reached, stepped⟩ := Option.bind_eq_some_iff.mp told
    have counted := account_counts stepped
    rw [countP_append, countP_append, ih reached, countP_singleton, countP_singleton]
    cases opens : event.opens <;> cases closes : event.closes <;> simp [opens, closes] at counted ⊢ <;> omega

/-- The records are those of the open set, and clear when none is open. -/
structure Tracks (s : State) : Prop where
  told : replay s.log = some s.stage
  size : s.nfh ≤ 2
  clear : s.nfh = 0 → ∀ i, s.term i = none

lemma pollEach_observe (wait : Nat → Reply) (s : State) :
    (⟨s.nfh, (pollEach wait s).term⟩ : Account) = Account.observe ⟨s.nfh, s.term⟩ wait := by
  simp [pollEach, Account.observe, Account.pending]

/-- Whether all handles are reaped, as `poll_children` counts them. -/
lemma counted_iff : ¬ ((range s.nfh).countP fun i => (s.term i).isSome) < s.nfh ↔ Account.Complete ⟨s.nfh, s.term⟩ := by
  have most := @countP_le_length _ (fun i => (s.term i).isSome) (range s.nfh)
  rw [length_range] at most
  have all : countP (fun i => (s.term i).isSome) (range s.nfh) = _ ↔ _ := countP_eq_length
  simp only [length_range, mem_range] at all
  rw [Account.Complete, ← all]
  omega

/-- A poll of an open set waits for what is pending, and closes the set exactly when nothing is left. -/
lemma pollChildren_open {wait : Nat → Reply} (tracks : Tracks s) (opened : s.nfh ≠ 0) :
    Tracks (pollChildren wait s).1 ∧
      (∃ rest, (pollChildren wait s).1.log = s.log ++ .polled (Account.pending ⟨s.nfh, s.term⟩) wait :: rest) ∧
      ((pollChildren wait s).1.nfh = 0 ↔ (Account.observe ⟨s.nfh, s.term⟩ wait).Complete) ∧
      ((pollChildren wait s).2 = true ↔ (pollChildren wait s).1.nfh ≠ 0) := by
  obtain ⟨told, size, -⟩ := tracks
  rw [State.stage, if_neg opened] at told
  have polled := @replay_concat s.log (.polled (Account.pending ⟨s.nfh, s.term⟩) wait)
  rw [told, Option.bind_some, account, if_pos rfl, ← pollEach_observe] at polled
  have complete := @counted_iff (pollEach wait s)
  rw [pollChildren, if_neg opened, ← pollEach_observe]
  dsimp only
  by_cases all : Account.Complete ⟨s.nfh, (pollEach wait s).term⟩
  · rw [if_neg (complete.mpr all)]
    rw [if_pos all] at polled
    refine ⟨⟨?_, Nat.zero_le _, fun _ _ => rfl⟩, ⟨[.final s.fhAbort _], append_assoc .. ⟩, iff_of_true rfl all, by
      simp [finalize]⟩
    -- the last handle of the set has a record of its own
    have last : (if s.nfh = 1 then 0 else 1) = s.nfh - 1 := by split <;> omega
    obtain ⟨st, seen⟩ := Option.isSome_iff_exists.mp
      (all (s.nfh - 1) (Nat.sub_lt (Nat.pos_of_ne_zero opened) Nat.one_pos))
    dsimp only at seen
    have closed : replay (finalize (pollEach wait s)).log = _ := @replay_concat (pollEach wait s).log _
    rw [closed, show replay (pollEach wait s).log = _ from polled, Option.bind_some, account]
    refine if_pos ?_
    show _ = if s.fhAbort then some stAbort else ((pollEach wait s).term (s.nfh - 1)).map mapChild
    rw [show (pollEach wait s).nfh = s.nfh from rfl, last, seen]
    exact apply_ite some ..
  · rw [if_pos (not_not.mp (mt complete.mp all))]
    rw [if_neg all] at polled
    refine ⟨⟨?_, size, fun none => absurd none opened⟩, ⟨[], rfl⟩, iff_of_false opened all, iff_of_true rfl opened⟩
    rw [State.stage, show (pollEach wait s).nfh = s.nfh from rfl, if_neg opened]
    exact polled

lemma pollChildren_tracks {wait : Nat → Reply} {more : Bool} (tracks : Tracks s)
    (ran : pollChildren wait s = (after, more)) :
    Tracks after ∧ (more = true ↔ after.nfh ≠ 0) := by
  by_cases idle : s.nfh = 0
  · rw [pollChildren, if_pos idle] at ran
    cases ran
    exact ⟨tracks, by simp [idle]⟩
  · obtain ⟨kept, -, -, more⟩ := @pollChildren_open s wait tracks idle
    rw [ran] at kept more
    exact ⟨kept, more⟩

/-- The state in which `reap_children` gives up, if it does. -/
def givesUp (wait : Nat → Nat → Reply) (nap : Nat → Bool) (left : Nat) (s : State) : Option State :=
  match pollChildren (wait left) s with
  | (_, false) => none
  | (s, true) =>
    match left with
    | 0 => some s
    | left + 1 => if nap left then givesUp wait nap left s else none

lemma reapLoop_tracks {wait : Nat → Nat → Reply} {nap : Nat → Bool} (tracks : Tracks s)
    (kept : ∀ last, givesUp wait nap left s = some last → ∀ i, last.term i = none) :
    Tracks (reapLoop wait nap left s) := by
  fun_induction reapLoop wait nap left s with
  | case1 left s after ran => exact (pollChildren_tracks tracks ran).1
  | case2 s after ran =>
    obtain ⟨next, goesOn⟩ := pollChildren_tracks tracks ran
    refine ⟨?_, Nat.zero_le _, fun _ => kept after (by rw [givesUp, ran])⟩
    rw [replay_concat, next.told, State.stage, if_neg (goesOn.mp rfl)]
    rfl
  | case3 s after left rested ran ih =>
    refine ih (pollChildren_tracks tracks ran).1 fun last stuck => kept last ?_
    rw [givesUp, ran]
    exact (if_pos rested).trans stuck
  | case4 s after left woken ran => exact (pollChildren_tracks tracks ran).1

/-- An operation that is about to abandon a set finds no record of it. -/
def Op.LeavesNothing (s : State) : Op → Prop
  | .ctrlC killed wait nap => ∀ last, givesUp wait nap pollMax { s with fhAbort := killed } = some last →
    ∀ i, last.term i = none
  | _ => True

lemma step_tracks (tracks : Tracks s) (op : Op) (clean : op.LeavesNothing s) : Tracks (step s op) := by
  cases op with
  | start pipe =>
    simp only [step]
    split
    · exact tracks
    next idle =>
    have none := not_not.mp idle
    have size : (if pipe then 2 else 1) ≠ 0 ∧ (if pipe then 2 else 1) ≤ 2 := by cases pipe <;> decide
    refine ⟨?_, size.2, fun closed => absurd closed size.1⟩
    have before := tracks.told
    rw [State.stage, if_pos none] at before
    rw [replay_concat, before, State.stage, if_neg size.1, funext (tracks.clear none)]
    rfl
  | poll wait => exact (pollChildren_tracks tracks rfl).1
  | ctrlC killed wait nap =>
    simp only [step]
    split
    · exact tracks
    · exact reapLoop_tracks ⟨tracks.told, tracks.size, tracks.clear⟩ clean

/-- Every operation of a sequence does. -/
def Clean : State → List Op → Prop
  | _, [] => True
  | s, op :: ops => op.LeavesNothing s ∧ Clean (step s op) ops

lemma foldl_tracks {ops : List Op} (tracks : Tracks s) (clean : Clean s ops) : Tracks (ops.foldl step s) := by
  induction ops generalizing s with
  | nil => exact tracks
  | cons op ops ih => exact ih (step_tracks tracks op clean.1) clean.2

/-- In every run in which no set is abandoned while a record of it stands: the account of the events is that of the open
set, every other set is closed once, and a poll of the open set waits for all its handles that have not ended and
finalizes it exactly when the last one has. -/
theorem foreground_accounted (ops : List Op) (clean : Clean .init ops) :
    replay (run ops).log = some (run ops).stage ∧
      (run ops).log.countP Event.opens = (run ops).log.countP Event.closes + (if (run ops).nfh = 0 then 0 else 1) ∧
      ∀ wait, (run ops).nfh ≠ 0 →
        (∃ rest, (step (run ops) (.poll wait)).log =
          (run ops).log ++ .polled (Account.pending ⟨(run ops).nfh, (run ops).term⟩) wait :: rest) ∧
        ((step (run ops) (.poll wait)).nfh = 0 ↔ (Account.observe ⟨(run ops).nfh, (run ops).term⟩ wait).Complete) := by
  have tracks : Tracks (run ops) := foldl_tracks ⟨rfl, Nat.zero_le _, fun _ _ => rfl⟩ clean
  refine ⟨tracks.told, ?_, fun wait some => ?_⟩
  · rw [replay_closes tracks.told, State.stage]
    split <;> rfl
  · obtain ⟨-, polls, closes, -⟩ := @pollChildren_open _ wait tracks some
    exact ⟨polls, closes⟩

/-- A pipeline whose first child ends at once and whose second runs on, Ctrl-C until that ends too, and a command. -/
def twoSets : List Op :=
  [.start true, .poll fun i => some ⟨if i = 0 then exited else running, 5⟩,
    .ctrlC true (fun turn _ => some ⟨if turn = pollMax then running else aborted, 0⟩) fun _ => true,
    .start false, .poll fun _ => some ⟨exited, 7⟩]

theorem foreground_accounted_over_two_sets :
    replay (run twoSets).log = some (run twoSets).stage ∧ (run twoSets).finalStatus = 7 ∧
      (run twoSets).log.countP Event.opens = 2 ∧ (run twoSets).log.countP Event.closes = 2 := by
  have returns : (givesUp (fun turn _ => some ⟨if turn = pollMax then running else aborted, 0⟩) (fun _ => true) pollMax
      { run (twoSets.take 2) with fhAbort := true }).isNone = true := by decide +kernel
  have clean : Clean .init twoSets := by
    refine ⟨trivial, trivial, fun last stuck => ?_, trivial, trivial, trivial⟩
    cases (Option.isNone_iff_eq_none.mp returns).symm.trans stuck
  have closed : (run twoSets).log.countP Event.closes = 2 := by decide +kernel
  have idle : (run twoSets).nfh = 0 := by decide +kernel
  obtain ⟨told, once, -⟩ := foreground_accounted twoSets clean
  rw [closed, if_pos idle] at once
  exact ⟨told, by decide +kernel, once, closed⟩

section
variable {st : Status} (both : s.nfh = 2) (first : s.term 0 = some st) (second : s.term 1 = none)
include both first second

lemma pollChildren_running :
    pollChildren (fun _ => some ⟨running, 0⟩) s = (pollEach (fun _ => some ⟨running, 0⟩) s, true) := by
  rw [pollChildren, if_neg (by omega)]
  refine if_pos ?_
  rw [show (pollEach _ s).nfh = 2 from both]
  simp [show range 2 = [0, 1] from rfl, pollEach, both, first, second, terminal]

/-- While the second handle runs on, `reap_children` comes to its limit, with the record of the first. -/
lemma reapLoop_stuck : let after := reapLoop (fun _ _ => some ⟨running, 0⟩) (fun _ => true) left s
    after.nfh = 0 ∧ after.term 0 = some st := by
  have record : (pollEach (fun _ => some ⟨running, 0⟩) s).term 0 = some st := by simp [pollEach, first]
  induction left generalizing s with
  | zero =>
    rw [reapLoop, pollChildren_running both first second]
    exact ⟨rfl, record⟩
  | succ left ih =>
    rw [reapLoop, pollChildren_running both first second]
    exact ih both record (by simp [pollEach, second, terminal]) (by simp [pollEach, first])

/-- The next set takes the outcome of the abandoned one, without a poll of its own handle. -/
lemma stale_record : replay (foldl step s [.ctrlC true (fun _ _ => some ⟨running, 0⟩) fun _ => true, .start false,
    .poll fun _ => some ⟨exited, 7⟩]).log = none := by
  obtain ⟨idle, stands⟩ := @reapLoop_stuck { s with fhAbort := true } pollMax st both first second
  rw [foldl_cons, step.eq_3, if_neg (by omega), reapChildren]
  generalize reapLoop _ _ _ _ = after at idle stands ⊢
  have unpolled : ∀ wait event, replay (after.log ++ [.started 1, .polled [] wait, event]) = none := by
    intro wait event
    rw [replay, foldlM_append]
    rcases foldlM account .idle after.log with _ | _ | _ | _ <;> rfl
  simp [step, idle, pollChildren, pollEach, stands, finalize, unpolled]

end

def firstEnds (i : Nat) : Reply := some ⟨if i = 0 then exited else running, 5⟩

theorem abandoned_record_counted :
    ¬ (replay (run ([.start true, .poll firstEnds] ++ [.ctrlC true (fun _ _ => some ⟨running, 0⟩) fun _ => true,
    .start false, .poll fun _ => some ⟨exited, 7⟩])).log).isSome := by
  rw [run, foldl_append, @stale_record (foldl step .init [.start true, .poll firstEnds]) _ rfl rfl rfl]
  decide

end Rynor.Shell.Foreground
