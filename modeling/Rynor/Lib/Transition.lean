/-! Runs of a deterministic machine: a step consumes an input and yields an output and
the next state, or does not return. -/

namespace Transition

variable {σ ι ω : Type} {step : σ → ι → Option (ω × σ)} {state last : σ} {outputs : List ω} {inputs : List ι}

/-- The outputs and the last state of a run over the inputs. -/
def run (step : σ → ι → Option (ω × σ)) : σ → List ι → Option (List ω × σ)
  | state, [] => some ([], state)
  | state, input :: inputs =>
    match step state input with
    | none => none
    | some (output, next) => (run step next inputs).map fun (outputs, last) => (output :: outputs, last)

@[simp] theorem run_nil (state : σ) : run step state [] = some ([], state) := rfl

theorem run_cons (ran : run step state (input :: inputs) = some (outputs, last)) :
    ∃ output next rest, step state input = some (output, next) ∧ run step next inputs = some (rest, last) ∧
    outputs = output :: rest := by
  simp only [run] at ran
  split at ran
  · cases ran
  rename_i output next stepped
  simp only [Option.map_eq_some_iff] at ran
  obtain ⟨⟨rest, final⟩, later, same⟩ := ran
  cases same
  exact ⟨output, next, rest, stepped, later, rfl⟩

theorem run_cons_of (stepped : step state input = some (output, next))
    (later : run step next inputs = some (outputs, last)) :
    run step state (input :: inputs) = some (output :: outputs, last) := by
  simp only [run, stepped, later, Option.map_some]

theorem run_append_of (before : run step state first = some (early, middle))
    (after : run step middle rest = some (late, last)) :
    run step state (first ++ rest) = some (early ++ late, last) := by
  induction first generalizing state early with
  | nil =>
    cases before
    exact after
  | cons input first ih =>
    obtain ⟨output, next, others, stepped, later, rfl⟩ := run_cons before
    exact run_cons_of stepped (ih later)

/-- What every step keeps, every run keeps. -/
theorem run_invariant (holds : σ → Prop) (kept : ∀ state input output next, holds state →
      step state input = some (output, next) → holds next)
    (ran : run step state inputs = some (outputs, last)) (start : holds state) : holds last := by
  induction inputs generalizing state outputs with
  | nil =>
    cases ran
    exact start
  | cons input inputs ih =>
    obtain ⟨output, next, rest, stepped, later, _⟩ := run_cons ran
    exact ih later (kept state input output next start stepped)

/-- Where every step returns and keeps the invariant, so does every run. -/
theorem run_returns (holds : σ → Prop) (kept : ∀ state input, holds state → ∃ output next, step state input =
      some (output, next) ∧ holds next)
    (start : holds state) (inputs : List ι) :
    ∃ outputs last, run step state inputs = some (outputs, last) ∧ holds last := by
  induction inputs generalizing state with
  | nil => exact ⟨[], state, rfl, start⟩
  | cons input inputs ih =>
    obtain ⟨output, next, stepped, later⟩ := kept state input start
    obtain ⟨outputs, last, ran, holds⟩ := ih later
    exact ⟨output :: outputs, last, run_cons_of stepped ran, holds⟩

end Transition
