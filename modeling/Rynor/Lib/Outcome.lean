/-! Postconditions of programs that read and write a state and may stop early: what holds
of every value they return, and of every reason they stop for. -/

namespace Outcome

variable {σ ε α β : Type} {allowed : ε → Prop} {program : StateT σ (Except ε) α} {state : σ} {post : α → σ → Prop}

/-- Every return from `state` meets `post` and every stop is `allowed`. -/
def Ends (allowed : ε → Prop) (program : StateT σ (Except ε) α) (state : σ) (post : α → σ → Prop) : Prop :=
  match program state with
  | .ok (value, next) => post value next
  | .error stop => allowed stop

theorem Ends.ok {next value} (ends : Ends allowed program state post) (ran : program state = .ok (value, next)) :
    post value next := by
  simpa only [Ends, ran] using ends

theorem Ends.error {stop} (ends : Ends allowed program state post) (ran : program state = .error stop) :
    allowed stop := by
  simpa only [Ends, ran] using ends

theorem Ends.mono {weaker : α → σ → Prop} (ends : Ends allowed program state post)
    (implies : ∀ value next, post value next → weaker value next) :
    Ends allowed program state weaker := by
  unfold Ends
  split
  next value next ran => exact implies value next (ends.ok ran)
  next ran => exact ends.error ran

theorem Ends.and {other : ε → Prop} {more : α → σ → Prop} (ends : Ends allowed program state post)
    (also : Ends other program state more) :
    Ends allowed program state fun value next => post value next ∧ more value next := by
  unfold Ends
  split
  next value next ran => exact ⟨ends.ok ran, also.ok ran⟩
  next ran => exact ends.error ran

/-- Two accounts of one program that allow no common stop: it returns. -/
theorem Ends.returns {other : ε → Prop} {more : α → σ → Prop}
    (ends : Ends allowed program state post) (also : Ends other program state more)
    (apart : ∀ stop, allowed stop → ¬other stop) :
    ∃ value next, program state = .ok (value, next) ∧ post value next ∧ more value next := by
  cases ran : program state with
  | error stop => exact absurd (also.error ran) (apart stop (ends.error ran))
  | ok result => exact ⟨result.1, result.2, rfl, ends.ok ran, also.ok ran⟩

@[simp] theorem ends_pure (value : α) (state : σ) (post : α → σ → Prop) :
    Ends allowed (pure value : StateT σ (Except ε) α) state post ↔ post value state := Iff.rfl

@[simp] theorem ends_bind (program : StateT σ (Except ε) α) (rest : α → StateT σ (Except ε) β) (state : σ)
    (post : β → σ → Prop) :
    Ends allowed (program >>= rest) state post ↔ Ends allowed program state fun value next => Ends allowed
    (rest value) next post := by
  simp only [Ends, bind, StateT.bind, Except.bind]
  cases program state with
  | error stop | ok _ => exact Iff.rfl

@[simp] theorem ends_map (change : α → β) (program : StateT σ (Except ε) α) (state : σ) (post : β → σ → Prop) :
    Ends allowed (change <$> program) state post ↔ Ends allowed program state fun value next => post
    (change value) next := by
  simp only [Ends, Functor.map, StateT.map, bind, Except.bind, pure, Except.pure]
  cases program state with
  | error stop | ok _ => exact Iff.rfl

@[simp] theorem ends_get (state : σ) (post : σ → σ → Prop) :
    Ends allowed (get : StateT σ (Except ε) σ) state post ↔ post state state := Iff.rfl

@[simp] theorem ends_set (next state : σ) (post : PUnit → σ → Prop) :
    Ends allowed (set next : StateT σ (Except ε) PUnit) state post ↔ post ⟨⟩ next := Iff.rfl

@[simp] theorem ends_modify (change : σ → σ) (state : σ) (post : PUnit → σ → Prop) :
    Ends allowed (modify change : StateT σ (Except ε) PUnit) state post ↔ post ⟨⟩ (change state) := Iff.rfl

@[simp] theorem ends_throw (stop : ε) (state : σ) (post : α → σ → Prop) :
    Ends allowed (throw stop : StateT σ (Except ε) α) state post ↔ allowed stop := Iff.rfl

@[simp] theorem ends_ite (condition : Prop) [Decidable condition] (first second : StateT σ (Except ε) α) (state : σ)
    (post : α → σ → Prop) :
    Ends allowed (if condition then first else second) state post ↔
      (condition → Ends allowed first state post) ∧ (¬condition → Ends allowed second state post) := by
  split
  next holds => simp [holds]
  next fails => simp [fails]

end Outcome
