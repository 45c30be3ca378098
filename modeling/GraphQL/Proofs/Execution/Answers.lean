import GraphQL.Proofs.Execution.Interleaving
import GraphQL.Proofs.Execution.Selected
import GraphQL.Proofs.Plan.Compiled

/-!
# Answers

An answer is a response that is no abort: that of a query or mutation, in whatever way its root fields
take turns, or that of an event of a subscription. All answers render their plan, which is how a
property of every response is proved: `Execution.Ensures` states it, and `Execution.ensures` reduces it
to `Renders`. `Execution.Aborts` has the other ways in which requests and events end.
-/

namespace GraphQL

/-- What is shown belongs to a sound plan. -/
def Subject.Sound (x : Execution) : Subject → Prop
  | .response => x.plan.Sound
  | .root f | .value f _ _ | .field f _ _ => f.Sound

namespace Execution

variable {x : Execution} {state final : ExecutionState} {response : Response}

/-- What the root fields of a query or mutation come to in one way of taking turns. -/
def Interleaves (x : Execution) (state : ExecutionState) (run : Run) : Prop :=
  ∃ fields polls, x.rootFields = .ok fields ∧ run = (polls : List Nat).foldl (Run.poll x) (Run.launch fields state)

/-- The responses that are no aborts, with the states that they leave. -/
inductive Answers (x : Execution) (state : ExecutionState) : Response → ExecutionState → Prop
  | run {run : Run} {data : ResponseValue} (interleaved : x.Interleaves state run) (ended : run.data = .ok data) :
    Answers x state ⟨data, run.state.errors⟩ run.state
  | event {event : Resolved} {data : ResponseValue} {final : ExecutionState}
    (subscription : x.plan.kind = .subscription) (shaped : outcome (x.shapeEvent event) state = (.ok data, final)) :
    Answers x state ⟨data, final.errors⟩ final

/-- The ways in which a request or an event ends without data. -/
inductive Aborts (x : Execution) (state : ExecutionState) : Abort → Prop
  | refused {e : ResponseError} (failed : x.rootFields = .error e) : Aborts x state (.error e)
  | run {run : Run} {abort : Abort} (interleaved : x.Interleaves state run) (ended : run.data = .error abort) :
    Aborts x state abort
  | event {event : Resolved} {abort : Abort} {final : ExecutionState}
    (shaped : outcome (x.shapeEvent event) state = (.error abort, final)) : Aborts x state abort
  | unopened {abort : Abort} {final : ExecutionState} (opened : outcome x.subscribe state = (.error abort, final)) :
    Aborts x state abort

/-- Every response that is no abort satisfies a condition together with the types described by then. It
is said of all answers, and of what executing a request or an event returns, which may also be an abort. -/
structure Ensures (x : Execution) (state : ExecutionState) (holds : Response → Registry → Prop) : Prop where
  answers : ∀ response final, x.Answers state response final → holds response final.registry
  execute : ∀ response final, x.execute state = (.ok response, final) →
    (∃ e, response = .ofError e) ∨ holds response final.registry
  executeEvent : x.plan.kind = .subscription → ∀ event response final,
    x.executeEvent event state = (.ok response, final) →
      (∃ e, response = .ofError e) ∨ holds response final.registry

theorem respond_eq_ok {data : Except Abort ResponseValue} {errors : List ResponseError}
    (ok : respond data errors = .ok response) :
    (∃ e, data = .error (.error e) ∧ response = .ofError e) ∨ ∃ v, data = .ok v ∧ response = ⟨v, errors⟩ := by
  unfold respond at ok
  split at ok
  · cases ok
    exact Or.inr ⟨_, rfl, rfl⟩
  · cases ok
    exact Or.inl ⟨_, rfl, rfl⟩
  · cases ok

/-- Executing is taking turns once the guards on the whole plan are passed. -/
theorem execute_rooted {fields : List FieldPlan} (rooted : x.rootFields = .ok fields) :
    x.execute state =
      let run := (Turn.launch fields state).settle x
      (respond run.data run.state.errors, run.state) := by
  rw [execute, rooted]
  rfl

/-- Executing is one way of taking turns. -/
theorem execute_interleaves {fields : List FieldPlan} (rooted : x.rootFields = .ok fields) (state : ExecutionState) :
    ∃ run, x.Interleaves state run ∧ x.execute state = (respond run.data run.state.errors, run.state) := by
  obtain ⟨polls, settled⟩ := Turn.settle_polls (x := x) (Turn.launch fields state)
  exact ⟨_, ⟨fields, polls, rooted, settled⟩, execute_rooted rooted⟩

/-- Executing in two rounds, of which the second finds nothing left to do. -/
theorem execute_twice {fields : List FieldPlan} (rooted : x.rootFields = .ok fields) {turn : Turn}
    (start : turn = Turn.launch fields state) (less : (turn.next x).run.waiting < turn.run.waiting)
    (same : ¬((turn.next x).next x).run.waiting < (turn.next x).run.waiting)
    (ended : ¬(((turn.next x).next x).run.waiting = (turn.next x).run.waiting ∧
      ((turn.next x).next x).run.size < (turn.next x).run.size)) :
    x.execute state =
      let run := ((turn.next x).next x).run
      (respond run.data run.state.errors, run.state) := by
  rw [execute_rooted rooted, ← start, Turn.settle_twice less same ended]

/-- A request that is answered is refused by the guards on the whole plan, or its root fields took turns. -/
theorem execute_eq_ok (ran : x.execute state = (.ok response, final)) :
    (∃ e, x.rootFields = .error e ∧ response = .ofError e ∧ final = state) ∨
      ∃ run, x.Interleaves state run ∧ final = run.state ∧
        ((∃ e, run.data = .error (.error e) ∧ response = .ofError e) ∨
          ∃ v, run.data = .ok v ∧ response = ⟨v, run.state.errors⟩) := by
  cases rooted : x.rootFields with
  | error e =>
    rw [execute, rooted] at ran
    cases ran
    exact Or.inl ⟨e, rfl, rfl, rfl⟩
  | ok fields =>
    obtain ⟨run, interleaved, executed⟩ := execute_interleaves rooted state
    obtain ⟨responded, rfl⟩ := Prod.mk.inj (executed.symm.trans ran)
    exact Or.inr ⟨run, interleaved, rfl, respond_eq_ok responded⟩

/-- The response of a request is that of an abort or an answer. -/
theorem execute_answers (ran : x.execute state = (.ok response, final)) :
    (∃ e, x.Aborts state (.error e) ∧ response = .ofError e) ∨ x.Answers state response final := by
  obtain ⟨e, rooted, rfl, -⟩ | ⟨run, interleaved, rfl, ⟨e, ended, rfl⟩ | ⟨data, ended, rfl⟩⟩ := execute_eq_ok ran
  · exact Or.inl ⟨e, .refused rooted, rfl⟩
  · exact Or.inl ⟨e, .run interleaved ended, rfl⟩
  · exact Or.inr (.run interleaved ended)

theorem executeEvent_answers {event : Resolved} (subscription : x.plan.kind = .subscription)
    (ran : x.executeEvent event state = (.ok response, final)) :
    (∃ e, x.Aborts state (.error e) ∧ response = .ofError e) ∨ x.Answers state response final := by
  unfold executeEvent at ran
  obtain ⟨responded, rfl⟩ := Prod.mk.inj ran
  obtain ⟨e, ended, rfl⟩ | ⟨data, ended, rfl⟩ := respond_eq_ok responded
  · exact Or.inl ⟨e, .event (Prod.ext ended rfl), rfl⟩
  · exact Or.inr (.event subscription (Prod.ext ended rfl))

/-- An event is shaped like the value of the only root field. -/
theorem shapeEvent_completes (sound : x.plan.Sound) (subscription : x.plan.kind = .subscription) (event : Resolved) :
    x.Completes (x.shapeEvent event) .response [] := by
  unfold shapeEvent
  have selection : ExecM.Yields x.host (ExecM.ofExcept (x.collect x.plan.selection none))
      fun _ fields es => es = [] ∧ x.collect x.plan.selection none = .ok fields :=
    ExecM.yields_ofExcept fun fields selected _ => ⟨rfl, selected⟩
  apply selection.bind
  intro fields
  cases fields with
  | nil =>
    apply ExecM.yields_pure
    rintro r before ⟨rfl, selected⟩
    have none : ([] : List (List ResponseError)).length = 0 := rfl
    have rendered : Renders x r .response [] (.object (keyed [] [])) [] :=
      .response selected rfl none (fun i f v es at' => by simp at at') (.refl _)
    exact rendered
  | cons field rest =>
    refine ExecM.Yields.after ExecM.yields_checkCancelled ?_
    apply (complete_yields field.type event field field.rootPath 1).bind
    intro v
    apply ExecM.yields_pure
    rintro r es shown before ⟨rfl, selected⟩
    have only : rest = [] := by
      have count : (field :: rest).length ≤ x.plan.selection.length := by
        rw [collect_eq_ok selected]
        exact List.length_filter_le _ _
      rw [sound.single subscription, List.length_cons] at count
      exact List.eq_nil_of_length_eq_zero (by omega)
    subst only
    have one : [es].length = [field].length := rfl
    have rendered : Renders x r .response [] (.object (keyed [field] [v])) es := by
      refine .response selected rfl one (fun i f w own hf hw ho => ?_) (List.Perm.of_eq (by simp))
      cases i with
      | zero =>
        cases hf
        cases hw
        cases ho
        exact .resolved shown
      | succ i => simp at hf
    rw [List.nil_append, List.append_nil]
    exact rendered

/-- The guards on the whole plan that its root fields have passed. -/
theorem rootFields_eq_ok {fields : List FieldPlan} (rooted : x.rootFields = .ok fields) :
    x.collect x.plan.selection none = .ok fields ∧ x.checkPlanDepth = .ok () ∧ x.checkAliases 0 fields = .ok () := by
  unfold rootFields at rooted
  obtain ⟨_, depth, rooted⟩ := except_bind_eq_ok.1 rooted
  obtain ⟨found, selected, rooted⟩ := except_bind_eq_ok.1 rooted
  obtain ⟨_, aliases, eq⟩ := except_bind_eq_ok.1 rooted
  cases eq
  exact ⟨selected, depth, aliases⟩

/-- Every answer renders its plan. -/
theorem answers_render (sound : x.plan.Sound) (fresh : state.errors = []) (answers : x.Answers state response final) :
    x.host.Later state.registry final.registry ∧
      Renders x final.registry .response [] response.data response.errors := by
  cases answers with
  | @run run data interleaved ended =>
    obtain ⟨fields, polls, rooted, polled⟩ := interleaved
    obtain ⟨going, values, results, rfl, done⟩ := Run.data_eq_ok ended
    rw [polled] at going
    obtain ⟨-, steps⟩ := Run.polls_steps going
    rw [← polled] at steps
    obtain ⟨grown, own, shown⟩ := steps.shown
    have length : run.tasks.length = fields.length := by
      rw [← shown.fields, List.length_map]
    have each (i : Nat) (f : FieldPlan) (v : ResponseValue) (es : List ResponseError) (hf : fields[i]? = some f)
        (hv : values[i]? = some v) (he : own[i]? = some es) :
        Renders x run.state.registry (.root f) (ErrorPath.root f.responseKey) v es := by
      rw [← shown.fields, List.getElem?_map, Option.map_eq_some_iff] at hf
      obtain ⟨⟨_, task⟩, at', rfl⟩ := hf
      have showing := shown.each i _ task es at' he
      rw [done i _ task v at' hv] at showing
      exact showing
    have errors := shown.errors
    rw [fresh, List.nil_append] at errors
    rw [shown.fields]
    exact ⟨grown, .response (rootFields_eq_ok rooted).1 (results.trans length) (shown.counts.trans length) each errors⟩
  | event subscription shaped =>
    obtain ⟨registry, errors, events, rfl, grown, rendered, _⟩ := shapeEvent_completes sound subscription _ _ _ _ shaped
    have shown := rendered registry (.refl _ _)
    refine ⟨grown, ?_⟩
    change Renders x registry .response [] _ (state.errors ++ errors)
    rw [fresh]
    exact shown

theorem ensures {holds : Response → Registry → Prop} (compiled : x.plan.Compiled) (fresh : state.errors = [])
    (each : ∀ response final, x.Answers state response final → x.host.Later state.registry final.registry →
      Renders x final.registry .response [] response.data response.errors → holds response final.registry) :
    x.Ensures state holds := by
  have all (response : Response) (final : ExecutionState) (answers : x.Answers state response final) :
      holds response final.registry := by
    obtain ⟨later, shown⟩ := answers_render compiled.sound fresh answers
    exact each response final answers later shown
  refine ⟨all, fun response final ran => ?_, fun subscription event response final ran => ?_⟩
  · obtain ⟨e, -, aborted⟩ | answers := execute_answers ran
    · exact Or.inl ⟨e, aborted⟩
    · exact Or.inr (all response final answers)
  · obtain ⟨e, -, aborted⟩ | answers := executeEvent_answers subscription ran
    · exact Or.inl ⟨e, aborted⟩
    · exact Or.inr (all response final answers)

end Execution

namespace NodeQuery

/-- The execution of the query for a node, and the state in which it begins. -/
def execution : Execution := { host, limits := {}, plan, variableValues := [] }

def state : ExecutionState := { registry := {}, slots := { limit := 0 }, cancelled := false }

/-- The query is executed in two rounds, of which the second finds nothing left to do. -/
theorem execute_eq : execution.execute state =
    let run := (((Turn.launch [nodeField] state).next execution).next execution).run
    (respond run.data run.state.errors, run.state) := by
  have rooted : execution.rootFields = .ok [nodeField] := by with_unfolding_all rfl
  exact Execution.execute_twice rooted rfl (by decide +kernel) (by decide +kernel) (by decide +kernel)

end NodeQuery

end GraphQL
