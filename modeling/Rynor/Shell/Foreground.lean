/-! The foreground children of the shell, `sh.c`: a set of one or two handles is polled until each of them has ended.
The printed rows are left out. Every operation ends with `emit_done`, so that no outcome is pending when a set starts.
-/

namespace Rynor.Shell.Foreground

def running : Nat := 0
def exited : Nat := 1
def faulted : Nat := 2
def aborted : Nat := 3
def pollMax : Nat := 1000000
def stFault : Nat := 129
def stAbort : Nat := 130
def stSpawnErr : Nat := 125

structure Status where
  state : Nat
  code : Nat

def mapChild (st : Status) : Nat :=
  if st.state = exited then st.code % 256 else if st.state = faulted then stFault else stAbort

/-- What `sh_sys_wait` answers; `none` is an error. -/
abbrev Reply := Option Status

/-- The record that a wait leaves; an error counts as aborted. -/
def terminal : Reply → Option Status
  | none => some ⟨aborted, 0⟩
  | some st => if st.state = running then none else some st

inductive Event where
  | started (nfh : Nat)
  /-- One call of `poll_children`: the indices it waits for, and the answers. -/
  | polled (asked : List Nat) (wait : Nat → Reply)
  | final (abort : Bool) (status : Nat)
  | waitStuck

/-- The static variables, with `have_term`, `tstate` and `tcode` in `term`, and what has happened so far. -/
structure State where
  nfh : Nat
  term : Nat → Option Status
  fhAbort : Bool
  finalStatus : Nat
  log : List Event

/-- The loop of `poll_children` over the handles. -/
def pollEach (wait : Nat → Reply) (s : State) : State :=
  { s with
    term := fun i => if i < s.nfh ∧ (s.term i).isNone then terminal (wait i) else s.term i
    log := s.log ++ [.polled ((List.range s.nfh).filter fun i => (s.term i).isNone) wait] }

/-- The end of `poll_children`, where all handles are reaped. -/
def finalize (s : State) : State :=
  let last := (s.term (if s.nfh = 1 then 0 else 1)).getD ⟨0, 0⟩
  let status := if s.fhAbort then stAbort else mapChild last
  { s with nfh := 0, term := fun _ => none, finalStatus := status, log := s.log ++ [.final s.fhAbort status] }

/-- `poll_children`; the flag says that waiting goes on. -/
def pollChildren (wait : Nat → Reply) (s : State) : State × Bool :=
  if s.nfh = 0 then (s, false)
  else
    let s := pollEach wait s
    if ((List.range s.nfh).countP fun i => (s.term i).isSome) < s.nfh then (s, true) else (finalize s, false)

/-- The loop of `reap_children` with the turns left to its limit, which number the answers. -/
def reapLoop (wait : Nat → Nat → Reply) (nap : Nat → Bool) (left : Nat) (s : State) : State :=
  match pollChildren (wait left) s with
  | (s, false) => s
  | (s, true) =>
    match left with
    | 0 => { s with finalStatus := stSpawnErr, nfh := 0, log := s.log ++ [.waitStuck] }
    | left + 1 => if nap left then reapLoop wait nap left s else s

def reapChildren (wait : Nat → Nat → Reply) (nap : Nat → Bool) : State → State := reapLoop wait nap pollMax

inductive Op where
  /-- The pump starts a command or a pipeline, when nothing is in the foreground. -/
  | start (pipe : Bool)
  /-- The poll of the main loop. -/
  | poll (wait : Nat → Reply)
  /-- Ctrl-C; `killed` says that a handle was terminated. -/
  | ctrlC (killed : Bool) (wait : Nat → Nat → Reply) (nap : Nat → Bool)

def step (s : State) : Op → State
  | .start pipe =>
    let nfh := if pipe then 2 else 1
    if s.nfh ≠ 0 then s else { s with nfh, fhAbort := false, log := s.log ++ [.started nfh] }
  | .poll wait => (pollChildren wait s).1
  | .ctrlC killed wait nap => if s.nfh = 0 then s else reapChildren wait nap { s with fhAbort := killed }

def State.init : State := ⟨0, fun _ => none, false, 0, []⟩

def run (ops : List Op) : State := ops.foldl step .init

end Rynor.Shell.Foreground
