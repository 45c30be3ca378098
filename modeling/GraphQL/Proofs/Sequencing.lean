import GraphQL.Registry

/-!
# Computations that may fail and keep what they did

Describing, compiling, reading input and executing are all computations over `ExceptT` and `StateM`: a
failure ends them, but what was done to the state before it stays. `outcome` is what such a computation
comes to from a state. The lemmas here say it for each way of building a computation, so that proofs
about a function name its steps and never unfold the monads. `FailsOnly` says how a computation may fail.
-/

namespace GraphQL

section

variable {ε ε' σ α β : Type}

/-- The result of a computation from a state, and the state it leaves. -/
def outcome (m : ExceptT ε (StateM σ) α) (s : σ) : Except ε α × σ := m.run.run s

theorem outcome_pure (a : α) (s : σ) : outcome (pure a : ExceptT ε (StateM σ) α) s = (.ok a, s) := rfl

theorem outcome_throw (e : ε) (s : σ) : outcome (throw e : ExceptT ε (StateM σ) α) s = (.error e, s) := rfl

theorem outcome_get (s : σ) : outcome (get : ExceptT ε (StateM σ) σ) s = (.ok s, s) := rfl

theorem outcome_modify (f : σ → σ) (s : σ) : outcome (modify f : ExceptT ε (StateM σ) Unit) s = (.ok (), f s) := rfl

theorem outcome_lift (result : Except ε α) (s : σ) :
    outcome (liftM result : ExceptT ε (StateM σ) α) s = (result, s) := by
  cases result <;> rfl

theorem lift_ok_bind (a : α) (f : α → ExceptT ε (StateM σ) β) :
    (liftM (Except.ok a : Except ε α) : ExceptT ε (StateM σ) α) >>= f = f a := rfl

theorem outcome_bind (m : ExceptT ε (StateM σ) α) (f : α → ExceptT ε (StateM σ) β) (s : σ) :
    outcome (m >>= f) s = match outcome m s with
      | (.ok a, t) => outcome (f a) t
      | (.error e, t) => (.error e, t) := by
  cases h : outcome m s with
  | mk result t =>
    unfold outcome at h ⊢
    simp only [ExceptT.run_bind, StateT.run_bind, h]
    cases result <;> rfl

theorem outcome_adapt (f : ε → ε') (m : ExceptT ε (StateM σ) α) (s : σ) :
    outcome (ExceptT.adapt f m) s = ((outcome m s).1.mapError f, (outcome m s).2) := by
  change (Except.mapError f <$> m.run).run s = _
  rw [StateT.run_map]
  rfl

theorem outcome_bind_of_ok {m : ExceptT ε (StateM σ) α} {f : α → ExceptT ε (StateM σ) β} {s t : σ} {a : α}
    (ran : outcome m s = (.ok a, t)) : outcome (m >>= f) s = outcome (f a) t := by rw [outcome_bind, ran]

theorem outcome_bind_of_error {m : ExceptT ε (StateM σ) α} {f : α → ExceptT ε (StateM σ) β} {s t : σ} {e : ε}
    (failed : outcome m s = (.error e, t)) : outcome (m >>= f) s = (.error e, t) := by rw [outcome_bind, failed]

/-- A sequence succeeds if and only if both of its steps do. -/
theorem outcome_bind_eq_ok {m : ExceptT ε (StateM σ) α} {f : α → ExceptT ε (StateM σ) β} {s t : σ} {b : β} :
    outcome (m >>= f) s = (.ok b, t) ↔ ∃ a u, outcome m s = (.ok a, u) ∧ outcome (f a) u = (.ok b, t) := by
  rw [outcome_bind]
  cases outcome m s with
  | mk result u =>
    cases result with
    | error e => simp
    | ok a =>
      constructor
      · exact fun h => ⟨a, u, rfl, h⟩
      · rintro ⟨_, _, eq, h⟩
        cases eq
        exact h

theorem outcome_lift_eq_ok {result : Except ε α} {s t : σ} {a : α} :
    outcome (liftM result : ExceptT ε (StateM σ) α) s = (.ok a, t) ↔ result = .ok a ∧ s = t := by
  rw [outcome_lift, Prod.mk.injEq]

/-- The same without a state. -/
theorem except_bind_eq_ok {m : Except ε α} {f : α → Except ε β} {b : β} :
    (m >>= f) = .ok b ↔ ∃ a, m = .ok a ∧ f a = .ok b := by
  cases m with
  | error e =>
    constructor
    · intro h
      cases h
    · rintro ⟨_, eq, _⟩
      cases eq
  | ok a =>
    constructor
    · exact fun h => ⟨a, rfl, h⟩
    · rintro ⟨_, eq, h⟩
      cases eq
      exact h

/-- A sequence fails in its first part, or in the second with the result of the first. -/
theorem except_bind_eq_error {m : Except ε α} {f : α → Except ε β} {e : ε} :
    (m >>= f) = .error e ↔ m = .error e ∨ ∃ a, m = .ok a ∧ f a = .error e := by
  cases m with
  | error e' =>
    constructor
    · intro h
      cases h
      exact Or.inl rfl
    · rintro (eq | ⟨_, eq, _⟩)
      · cases eq
        rfl
      · cases eq
  | ok a =>
    constructor
    · exact fun h => Or.inr ⟨a, rfl, h⟩
    · rintro (eq | ⟨_, eq, h⟩)
      · cases eq
      · cases eq
        exact h

end

/-! ## How a computation may fail -/

section

variable {ε ε' σ α β : Type} {within : ε → Prop}

/-- Wherever the computation begins, if it fails then with an error that satisfies a condition. -/
def FailsOnly (within : ε → Prop) (m : ExceptT ε (StateM σ) α) : Prop := ∀ s t e, outcome m s = (.error e, t) → within e

theorem failsOnly_pure (a : α) : FailsOnly within (pure a : ExceptT ε (StateM σ) α) := by
  intro s t e failed
  cases failed

theorem failsOnly_throw {e : ε} (holds : within e) : FailsOnly within (throw e : ExceptT ε (StateM σ) α) := by
  intro s t e failed
  cases failed
  exact holds

theorem failsOnly_lift {result : Except ε α} (holds : ∀ e, result = .error e → within e) :
    FailsOnly within (liftM result : ExceptT ε (StateM σ) α) := by
  intro s t e failed
  rw [outcome_lift, Prod.mk.injEq] at failed
  exact holds e failed.1

theorem FailsOnly.bind {m : ExceptT ε (StateM σ) α} {f : α → ExceptT ε (StateM σ) β} (first : FailsOnly within m)
    (next : ∀ a, FailsOnly within (f a)) : FailsOnly within (m >>= f) := by
  intro s t e failed
  rw [outcome_bind] at failed
  cases ran : outcome m s with
  | mk result u =>
    rw [ran] at failed
    cases result with
    | ok a => exact next a u t e failed
    | error e' =>
      cases failed
      exact first s _ _ ran

theorem FailsOnly.of_fst {m : ExceptT ε (StateM σ) α} (fails : FailsOnly within m) {s : σ} {e : ε}
    (failed : (outcome m s).1 = .error e) : within e := fails s (outcome m s).2 e (Prod.ext failed rfl)

theorem FailsOnly.mono {within' : ε → Prop} {m : ExceptT ε (StateM σ) α} (fails : FailsOnly within m)
    (imp : ∀ e, within e → within' e) : FailsOnly within' m := fun s t e failed => imp e (fails s t e failed)

theorem FailsOnly.adapt {within' : ε' → Prop} {f : ε → ε'} {m : ExceptT ε (StateM σ) α} (inner : FailsOnly within m)
    (imp : ∀ e, within e → within' (f e)) : FailsOnly within' (ExceptT.adapt f m) := by
  intro s t e failed
  rw [outcome_adapt] at failed
  cases ran : outcome m s with
  | mk result u =>
    rw [ran] at failed
    cases result with
    | ok a => cases failed
    | error e' =>
      cases failed
      exact imp e' (inner s _ e' ran)

theorem failsOnly_forM {f : α → ExceptT ε (StateM σ) PUnit} :
    ∀ items : List α, (∀ a ∈ items, FailsOnly within (f a)) → FailsOnly within (items.forM f)
  | [], _ => failsOnly_pure _
  | a :: rest, each => by
    change FailsOnly within (f a >>= fun _ => rest.forM f)
    exact (each a List.mem_cons_self).bind fun _ => failsOnly_forM rest fun b mem => each b (List.mem_cons_of_mem _ mem)

end

end GraphQL
