import GraphQL.Execution
import GraphQL.Proofs.Registry.Settled

/-!
# What completing does to an execution

Shaping a value describes types, collects errors and notes the getters it calls, and leaves the rest of
the execution alone. `ExecM.Yields` says this of a computation together with what its result and errors
satisfy, and that it comes to the same again once the registry has the types that it described. There is
one lemma for each way of building such a computation.
-/

namespace GraphQL

/-- The state with another registry, errors after the earlier ones, and events latest first. -/
def ExecutionState.after (s : ExecutionState) (registry : Registry) (errors : List ResponseError)
    (events : List ExecutionEvent) : ExecutionState :=
  { s with registry, errors := s.errors ++ errors, events := events ++ s.events }

theorem ExecutionState.after_after (s : ExecutionState) (r r' : Registry) (es es' : List ResponseError)
    (evs evs' : List ExecutionEvent) : (s.after r es evs).after r' es' evs' = s.after r' (es ++ es') (evs' ++ evs) := by
  simp [after]

theorem ExecutionState.after_nil (s : ExecutionState) : s.after s.registry [] [] = s := by
  simp [after]

namespace ExecM

section

variable {host : Host} {ε α β : Type}

/-- When the computation ends with a result, it has added errors and events and led to a later registry,
and the result and errors satisfy a condition from that registry on. It then repeats, with the same
errors and events, in every execution that is not cancelled and has a registry as late. -/
def Yields (host : Host) (m : ExecM α) (post : Registry → α → List ResponseError → Prop) : Prop :=
  ∀ s a s', outcome m s = (.ok a, s') →
    ∃ registry errors events, s' = s.after registry errors events ∧ host.Later s.registry registry ∧
      (∀ later, host.Later registry later → post later a errors) ∧
      ∀ t : ExecutionState, host.Later registry t.registry → t.cancelled = false →
        outcome m t = (.ok a, t.after t.registry errors events)

variable {post : Registry → α → List ResponseError → Prop} {post' : Registry → β → List ResponseError → Prop}

theorem Yields.mono {m : ExecM α} {weaker : Registry → α → List ResponseError → Prop} (yields : Yields host m post)
    (imp : ∀ r a es, post r a es → weaker r a es) : Yields host m weaker := by
  intro s a s' ran
  obtain ⟨registry, errors, events, eq, grown, holds, again⟩ := yields s a s' ran
  exact ⟨registry, errors, events, eq, grown, fun later h => imp _ _ _ (holds later h), again⟩

/-- From a registry on, the computation comes to a result with errors in every execution that is not cancelled. -/
def ComesTo (host : Host) (m : ExecM α) (r : Registry) (a : α) (errors : List ResponseError) : Prop :=
  ∀ t : ExecutionState, host.Later r t.registry → t.cancelled = false →
    ∃ events, outcome m t = (.ok a, t.after t.registry errors events)

theorem Yields.comesTo {m : ExecM α} (yields : Yields host m post) : Yields host m (ComesTo host m) := by
  intro s a s' ran
  obtain ⟨registry, errors, events, eq, grown, -, again⟩ := yields s a s' ran
  refine ⟨registry, errors, events, eq, grown, fun later h t after calm => ?_, again⟩
  exact ⟨events, again t (Host.Later.trans h after) calm⟩

section

variable {m : ExecM α} {f : α → ExecM β} {r : Registry} {a : α} {b : β} {es : List ResponseError}

theorem ComesTo.after (comes : ComesTo host (f a) r b es) (first : ∀ s, outcome m s = (.ok a, s)) :
    ComesTo host (m >>= f) r b es := by
  intro t later calm
  obtain ⟨events, ran⟩ := comes t later calm
  exact ⟨events, outcome_bind_eq_ok.2 ⟨a, t, first t, ran⟩⟩

theorem ComesTo.bind (comes : ComesTo host m r a es) (last : ∀ s, outcome (f a) s = (.ok b, s)) :
    ComesTo host (m >>= f) r b es := by
  intro t later calm
  obtain ⟨events, ran⟩ := comes t later calm
  exact ⟨events, outcome_bind_eq_ok.2 ⟨a, _, ran, last _⟩⟩

end

theorem yields_pure {a : α} (holds : ∀ r, post r a []) : Yields host (pure a) post := by
  intro s b s' ran
  cases ran
  exact ⟨s.registry, [], [], (s.after_nil).symm, .refl host _, fun later _ => holds later,
    fun t _ _ => by rw [t.after_nil, outcome_pure]⟩

theorem yields_throw (e : Abort) : Yields host (throw e : ExecM α) post := by
  intro s a s' ran
  cases ran

theorem Yields.bind {m : ExecM α} {f : α → ExecM β} (first : Yields host m post)
    (next : ∀ a, Yields host (f a) fun r b es => ∀ before, post r a before → post' r b (before ++ es)) :
    Yields host (m >>= f) post' := by
  intro s b s' ran
  obtain ⟨a, u, ran, ran'⟩ := outcome_bind_eq_ok.1 ran
  obtain ⟨r, es, evs, rfl, grown, holds, again⟩ := first s a u ran
  obtain ⟨r', es', evs', rfl, grown', holds', again'⟩ := next a _ b s' ran'
  refine ⟨r', es ++ es', evs' ++ evs, s.after_after _ _ _ _ _ _, grown.trans grown', ?_, ?_⟩
  · exact fun later h => holds' later h es (holds later (Host.Later.trans grown' h))
  · intro t later calm
    rw [outcome_bind, again t (Host.Later.trans grown' later) calm]
    simp only
    rw [again' (t.after t.registry es evs) later calm, ExecutionState.after_after]
    rfl

/-- A check before the rest. -/
theorem Yields.after {m : ExecM PUnit} {n : ExecM β} (check : Yields host m fun _ _ es => es = [])
    (rest : Yields host n post') : Yields host (m >>= fun _ => n) post' :=
  check.bind fun _ => rest.mono fun _ _ _ holds before none => by
    subst none
    exact holds

theorem yields_ofExcept {result : Except ResponseError α} (holds : ∀ a, result = .ok a → ∀ r, post r a []) :
    Yields host (ofExcept result) post := by
  cases result with
  | error e => exact yields_throw _
  | ok a => exact yields_pure (holds a rfl)

theorem outcome_checkCancelled (s : ExecutionState) :
    outcome checkCancelled s = if s.cancelled then (.error (.error .cancelled), s) else (.ok (), s) := by
  unfold checkCancelled
  rw [outcome_bind, outcome_get]
  simp only
  split <;> rfl

theorem yields_checkCancelled : Yields host checkCancelled fun _ _ es => es = [] := by
  intro s a s' h
  rw [outcome_checkCancelled] at h
  split at h
  · cases h
  · cases h
    refine ⟨s.registry, [], [], (s.after_nil).symm, .refl host _, fun _ _ => rfl, ?_⟩
    intro t _ calm
    rw [outcome_checkCancelled, calm, t.after_nil]
    rfl

theorem yields_note (event : ExecutionEvent) : Yields host (note event) fun _ _ es => es = [] := by
  intro s a s' ran
  cases ran
  refine ⟨s.registry, [], [event], ?_, .refl host _, fun _ _ => rfl, fun t _ _ => ?_⟩
  · simp [ExecutionState.after]
  · simp [note, outcome_modify, ExecutionState.after]

theorem outcome_onRegistry (m : ExceptT ε (StateM Registry) α) (s : ExecutionState) :
    outcome (onRegistry m.run) s =
      (.ok (outcome m s.registry).1, { s with registry := (outcome m s.registry).2 }) := rfl

/-- A computation on the registry that settles comes to the same in every later registry. -/
theorem yields_onRegistry {m : ExceptT ε (StateM Registry) α} (settles : host.Settles m) :
    Yields host (onRegistry m.run) fun r result es => es = [] ∧ outcome m r = (result, r) := by
  intro s a s' ran
  rw [outcome_onRegistry, Prod.mk.injEq] at ran
  obtain ⟨ok, rfl⟩ := ran
  cases ok
  have again {later : Registry} (h : host.Later (outcome m s.registry).2 later) :
      outcome m later = ((outcome m s.registry).1, later) :=
    (settles s.registry).again later h.covers (Or.inr ⟨trivial, fun _ mem => absurd mem List.not_mem_nil⟩)
  refine ⟨_, [], [], ?_, (settles s.registry).grows, fun later h => ⟨rfl, again h⟩, fun t later _ => ?_⟩
  · simp [ExecutionState.after]
  · rw [outcome_onRegistry, again later]
    simp [ExecutionState.after]

theorem yields_pushError {e : ResponseError} :
    Yields host (pushError e) fun _ v es => v = .null ∧ es = [e] := by
  intro s a s' ran
  cases ran
  refine ⟨s.registry, [e], [], ?_, .refl host _, fun _ _ => ⟨rfl, rfl⟩, fun t _ _ => ?_⟩
  · simp [ExecutionState.after]
  · simp only [ExecutionState.after, List.nil_append]
    rfl

/-- Items one after the other: each has a result and errors of its own, and the errors come in order. -/
theorem yields_mapM {f : α → ExecM β} {each : Registry → α → β → List ResponseError → Prop} :
    ∀ items : List α, (∀ a ∈ items, Yields host (f a) fun r b es => each r a b es) →
      Yields host (items.mapM f) fun r results es => ∃ errors : List (List ResponseError),
        es = errors.flatten ∧ results.length = items.length ∧ errors.length = items.length ∧
        ∀ (i : Nat) a b own, items[i]? = some a → results[i]? = some b → errors[i]? = some own → each r a b own
  | [], _ => by
    rw [List.mapM_nil]
    exact yields_pure fun r => ⟨[], rfl, rfl, rfl, fun i a b own h => by simp at h⟩
  | a :: rest, one => by
    rw [List.mapM_cons]
    apply (one a List.mem_cons_self).bind
    intro b
    apply (yields_mapM rest fun c mem => one c (List.mem_cons_of_mem _ mem)).bind
    intro bs
    apply yields_pure
    rintro r before ⟨errors, eq, results, counts, holds⟩ own first
    refine ⟨own :: errors, by simp [eq], by simp [results], by simp [counts], ?_⟩
    intro i a' b' es ha hb he
    cases i with
    | zero =>
      cases ha
      cases hb
      cases he
      exact first
    | succ i => exact holds i a' b' es ha hb he

end

end ExecM

end GraphQL
