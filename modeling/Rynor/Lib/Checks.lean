import Mathlib.Data.List.Forall2

/-! Chains of checks, each with its own error: a chain passes when every check does, and an
error is that of one check. Loops that can fail, and what holds of the items they have done. -/

namespace Checks
open List
variable {ε α β : Type} {failed : Prop} [Decidable failed] {own error : ε} {items : List α}

lemma none_iff : (if failed then some own else rest) = none ↔ ¬ failed ∧ rest = none := by
  split <;> simp_all

lemma some_cases (refused : (if failed then some own else rest) = some error) : own = error ∨ rest = some error := by
  split at refused
  · exact .inl (Option.some.inj refused)
  · exact .inr refused

lemma ok_iff {rest : Except ε α} {result : α} :
    (if failed then Except.error own else rest) = .ok result ↔ ¬ failed ∧ rest = .ok result := by
  split <;> simp_all

/-- Stops with the error a check found. -/
def raise : Option ε → Except ε Unit
  | some error => .error error
  | none => .ok ()

lemma bind_ok_iff {next : α → Except ε β} :
    (first >>= next) = .ok result ↔ ∃ value, first = .ok value ∧ next value = .ok result := by
  cases first with
  | error error => exact ⟨nofun, nofun⟩
  | ok value => exact ⟨fun called => ⟨value, rfl, called⟩, fun ⟨_, same, called⟩ => by cases same; exact called⟩

lemma raise_ok_iff {next : Unit → Except ε α} :
    (raise check >>= next) = .ok result ↔ check = none ∧ next () = .ok result := by
  cases check with
  | none => exact ⟨fun called => ⟨rfl, called⟩, fun ⟨_, called⟩ => called⟩
  | some error => exact ⟨nofun, nofun⟩

lemma mapM_ok_iff {step : α → Except ε β} :
    items.mapM step = .ok results ↔ List.Forall₂ (fun item result => step item = .ok result) items results := by
  induction items generalizing results with
  | nil => exact ⟨fun called => by cases called; exact .nil, fun each => by cases each; rfl⟩
  | cons item items ih =>
    simp only [mapM_cons, bind_ok_iff, List.forall₂_cons_left_iff]
    constructor
    · intro ⟨result, called, rest, later, same⟩
      exact ⟨result, rest, called, ih.mp later, (Except.ok.inj same).symm⟩
    · intro ⟨result, rest, called, later, same⟩
      exact ⟨result, called, rest, ih.mpr later, by rw [same]; rfl⟩

/-- A computation that succeeds with a value that passes a check. -/
lemma exists_ok {result : Except ε α} {holds : α → Prop} [DecidablePred holds]
    (checked : (result.toOption.any fun value => holds value) = true) :
    ∃ value, result = .ok value ∧ holds value := by
  cases result with
  | error error => cases checked
  | ok value => exact ⟨value, rfl, of_decide_eq_true checked⟩

/-- The error a computation stops with. -/
def errorOf : Except ε α → Option ε
  | .ok _ => none
  | .error error => some error

lemma eq_error {result : Except ε α} (stopped : errorOf result = some error) : result = .error error := by
  cases result with
  | error own => exact congrArg Except.error (Option.some.inj stopped)
  | ok value => cases stopped

/-- Two computations fail with one error, or succeed with related results. -/
inductive Alike {β : Type} (related : α → β → Prop) : Except ε α → Except ε β → Prop
  | error (error : ε) : Alike related (.error error) (.error error)
  | ok {left : α} {right : β} (same : related left right) : Alike related (.ok left) (.ok right)

namespace Alike
variable {β γ δ : Type} {related : α → β → Prop} {after : γ → δ → Prop} {left : Except ε α} {right : Except ε β}

lemma bind {next : α → Except ε γ} {other : β → Except ε δ} (first : Alike related left right)
    (rest : ∀ x y, related x y → Alike after (next x) (other y)) : Alike after (left >>= next) (right >>= other) := by
  cases first with
  | error error => exact .error error
  | ok same => exact rest _ _ same

/-- Runs that share the first component of their values. -/
lemma bind_right {σ : Type} {left right} {next : σ × α → Except ε γ} {other : σ × β → Except ε δ}
    (first : Alike (fun x y => x.1 = y.1 ∧ related x.2 y.2) left right)
    (rest : ∀ shared x y, related x y → Alike after (next (shared, x)) (other (shared, y))) :
    Alike after (left >>= next) (right >>= other) := by
  refine first.bind fun ⟨shared, x⟩ ⟨_, y⟩ ⟨(same : shared = _), both⟩ => ?_
  subst same
  exact rest shared x y both

lemma bind_left {σ : Type} {left right} {next : α × σ → Except ε γ} {other : β × σ → Except ε δ}
    (first : Alike (fun x y => related x.1 y.1 ∧ x.2 = y.2) left right)
    (rest : ∀ shared x y, related x y → Alike after (next (x, shared)) (other (y, shared))) :
    Alike after (left >>= next) (right >>= other) := by
  refine first.bind fun ⟨x, shared⟩ ⟨y, _⟩ ⟨both, (same : shared = _)⟩ => ?_
  subst same
  exact rest shared x y both

lemma refl : Alike Eq left left := by
  cases left with
  | error error => exact .error error
  | ok value => exact .ok (Eq.refl value)

lemma imp {weaker : α → β → Prop} (alike : Alike related left right) (weaken : ∀ x y, related x y → weaker x y) :
    Alike weaker left right := by
  cases alike with
  | error error => exact .error error
  | ok same => exact .ok (weaken _ _ same)

lemma ite {other : Prop} [Decidable other] (same : failed ↔ other) (first : Alike related left right)
    (second : Alike related more others) :
    Alike related (if failed then left else more) (if other then right else others) := by
  by_cases holds : failed
  · rw [if_pos holds, if_pos (same.mp holds)]
    exact first
  rw [if_neg holds, if_neg (mt same.mpr holds)]
  exact second

lemma ok_left (alike : Alike related left right) (called : left = .ok value) :
    ∃ own, right = .ok own ∧ related value own := by
  cases alike with
  | error => cases called
  | ok same =>
    cases called
    exact ⟨_, rfl, same⟩

end Alike

/-- Every success of a computation meets the postcondition. -/
def Gives (program : Except ε α) (post : α → Prop) : Prop := ∀ value, program = .ok value → post value

namespace Gives
variable {β : Type} {program : Except ε α} {next : α → Except ε β} {middle weaker : α → Prop} {post : β → Prop}

lemma ok {value} (holds : middle value) : Gives (.ok value : Except ε α) middle := by
  intro other same
  cases same
  exact holds

lemma stop : Gives (.error own : Except ε α) middle := nofun

lemma bind (first : Gives program middle) (rest : ∀ value, middle value → Gives (next value) post) :
    Gives (program >>= next) post := by
  intro result called
  obtain ⟨value, ran, later⟩ := bind_ok_iff.mp called
  exact rest value (first value ran) result later

/-- Nothing is needed of the first computation's result. -/
lemma skip (rest : ∀ value, Gives (next value) post) : Gives (program >>= next) post :=
  bind (fun _ _ => trivial) fun value _ => rest value

lemma imp (gives : Gives program middle) (weaken : ∀ value, middle value → weaker value) : Gives program weaker :=
  fun value ran => weaken value (gives value ran)

lemma mapM {step : α → Except ε β} {related : α → β → Prop} (each : ∀ item, Gives (step item) (related item)) :
    Gives (items.mapM step) (List.Forall₂ related items) :=
  fun _ called => (mapM_ok_iff.mp called).imp fun item _ => each item _

end Gives

section Loops
variable {σ : Type} {holds : List α → σ → Prop} {items done : List α} {state : σ} {step : σ → α → Except ε σ}

private lemma foldlM_continues
    (kept : ∀ item ∈ items, ∀ done state, holds done state → Gives (step state item) (holds (done ++ [item])))
    (initial : holds done state) :
    Gives (items.foldlM step state) (holds (done ++ items)) := by
  induction items generalizing state done with
  | nil => exact .ok (by rwa [append_nil])
  | cons item items ih =>
    rw [append_cons]
    refine .bind (kept item mem_cons_self done state initial) fun next holds => ?_
    exact ih (fun other inside => kept other (mem_cons_of_mem _ inside)) holds

lemma Gives.foldlM
    (kept : ∀ item ∈ items, ∀ done state, holds done state → Gives (step state item) (holds (done ++ [item])))
    (initial : holds [] state) :
    Gives (items.foldlM step state) (holds items) :=
  foldlM_continues kept initial

lemma Gives.loop {holds : σ → Prop} (kept : ∀ item ∈ items, ∀ state, holds state → Gives (step state item) holds)
    (initial : holds state) :
    Gives (items.foldlM step state) holds :=
  @foldlM ε α σ (fun _ => holds) items state step (fun item inside _ => kept item inside) initial

private lemma foldl_continues {step : σ → α → σ}
    (kept : ∀ done state item, holds done state → holds (done ++ [item]) (step state item))
    (initial : holds done state) :
    holds (done ++ items) (items.foldl step state) := by
  induction items generalizing state done with
  | nil => rwa [append_nil]
  | cons item items ih =>
    rw [append_cons]
    exact ih (kept done state item initial)

lemma foldl_invariant {step : σ → α → σ} (kept : ∀ done state item, holds done state →
      holds (done ++ [item]) (step state item))
    (initial : holds [] state) : holds items (items.foldl step state) :=
  foldl_continues kept initial

end Loops

/-- Every error of a computation is an allowed one. -/
def Stops (allowed : ε → Prop) (program : Except ε α) : Prop := ∀ error, program = .error error → allowed error

namespace Stops
variable {β σ : Type} {allowed : ε → Prop} {program : Except ε α} {next : α → Except ε β}

lemma ok {value : α} : Stops allowed (.ok value : Except ε α) := nofun

lemma stop (holds : allowed own) : Stops allowed (.error own : Except ε α) := by
  intro other same
  cases same
  exact holds

/-- What comes next may use that the first computation returned. -/
lemma after (first : Stops allowed program) (rest : ∀ value, program = .ok value → Stops allowed (next value)) :
    Stops allowed (program >>= next) := by
  cases ran : program with
  | error own => exact stop (first own ran)
  | ok value => exact rest value ran

lemma bind (first : Stops allowed program) (rest : ∀ value, Stops allowed (next value)) :
    Stops allowed (program >>= next) :=
  first.after fun value _ => rest value

lemma mapM {step : α → Except ε β} (each : ∀ item ∈ items, Stops allowed (step item)) :
    Stops allowed (items.mapM step) := by
  induction items with
  | nil => exact ok
  | cons item items ih =>
    rw [mapM_cons]
    refine (each item mem_cons_self).bind fun _ => ?_
    exact (ih fun other inside => each other (mem_cons_of_mem _ inside)).bind fun _ => ok

lemma forM {step : α → Except ε PUnit} (each : ∀ item ∈ items, Stops allowed (step item)) :
    Stops allowed (items.forM step) := by
  induction items with
  | nil => exact ok
  | cons item items ih =>
    exact (each item mem_cons_self).bind fun _ => ih fun other inside => each other (mem_cons_of_mem _ inside)

lemma foldlM {holds : σ → Prop} {step : σ → α → Except ε σ} {state : σ} (initial : holds state)
    (kept : ∀ item ∈ items, ∀ state, holds state → Gives (step state item) holds)
    (each : ∀ item ∈ items, ∀ state, holds state → Stops allowed (step state item)) :
    Stops allowed (items.foldlM step state) := by
  induction items generalizing state with
  | nil => exact ok
  | cons item items ih =>
    refine (each item mem_cons_self state initial).after fun next ran => ?_
    exact ih (kept item mem_cons_self state initial next ran)
      (fun other inside => kept other (mem_cons_of_mem _ inside))
      fun other inside => each other (mem_cons_of_mem _ inside)

/-- A loop whose every step stops alike, whatever the state. -/
lemma loop {step : σ → α → Except ε σ} {state : σ} (each : ∀ item state, Stops allowed (step state item)) :
    Stops allowed (items.foldlM step state) :=
  foldlM trivial (fun _ _ _ (_ : True) _ _ => trivial) fun item _ state _ => each item state

end Stops

end Checks
