import GraphQL.Proofs.Execution.Matching
import GraphQL.Proofs.Execution.Settling

/-!
# A root field whose resolver returns a value

The resolver of an only root field may give way, leave entries in the journal and ask whether the request is
cancelled; once it returns a value, the response is what completing the value comes to: `execute_fetches`. The types
are those that reading the arguments has described.
-/

namespace GraphQL

/-- The work returns a value if the request is not cancelled, and does not cancel it. -/
inductive Work.Gives {α : Type} (value : α) : Work α → Prop
  | done : Gives value (.done (.ok value))
  | pause {next : Work α} (gives : Gives value next) : Gives value (.pause next)
  | record {entry : JournalEntry} {next : Work α} (gives : Gives value next) : Gives value (.record entry next)
  | askCancelled {next : Bool → Work α} (gives : Gives value (next false)) : Gives value (.askCancelled next)

/-- In between nothing has happened that completing a value depends on. -/
structure ExecutionState.Beside (s t : ExecutionState) : Prop where
  registry : t.registry = s.registry
  errors : t.errors = s.errors
  cancelled : t.cancelled = s.cancelled

theorem ExecutionState.Beside.trans {s t u : ExecutionState} (first : s.Beside t) (next : t.Beside u) : s.Beside u :=
  ⟨next.registry.trans first.registry, next.errors.trans first.errors, next.cancelled.trans first.cancelled⟩

/-- The resolver of a root field is called and returns a value. Reading its arguments leads to the second registry. -/
def Execution.Fetches (x : Execution) (field : FieldPlan) (value : Resolved) (r r' : Registry) : Prop :=
  ∃ operation resolver arguments work, field.target = .operation operation ∧ operation.resolver = .field resolver ∧
    outcome (operation.parseArguments x.inputContext field.arguments) r = (.ok arguments, r') ∧
      resolver arguments = .ok work ∧ work.Gives value

/-- A run of one field has ended with what the field was completed to, or with its failure. -/
structure Run.Ends (run : Run) (field : FieldPlan) (completed : Except Abort ResponseValue × ExecutionState) :
    Prop where
  data : run.data = completed.1.map fun v => .object [(field.responseKey, v)]
  errors : run.state.errors = completed.2.errors
  registry : run.state.registry = completed.2.registry

variable {x : Execution} {field : FieldPlan} {value : Resolved} {s s' t u : ExecutionState}
  {task task' : RootTask}

/-- The resolver gives way, with less to do, or returns the value, which is then completed. -/
theorem Execution.work_gives (x : Execution) (field : FieldPlan) {work : Work Resolved} (gives : work.Gives value)
    (calm : s.cancelled = false) :
    ∃ u, s.Beside u ∧
      ((∃ next, outcome (x.work field work) s = (.ok (.working next), u) ∧ next.Gives value ∧ next.size < work.size) ∨
        outcome (x.work field work) s =
          outcome (x.complete field.type value field field.rootPath 1 >>= field.finish) u) := by
  induction gives generalizing s with
  | done => exact ⟨s.released, ⟨rfl, rfl, rfl⟩, Or.inr rfl⟩
  | pause gives => exact ⟨s, ⟨rfl, rfl, rfl⟩, Or.inl ⟨_, rfl, gives, Nat.lt_succ_self _⟩⟩
  | @record entry next gives ih =>
    obtain ⟨u, beside, came⟩ := ih (s := { s with journal := s.journal ++ [entry] }) calm
    refine ⟨u, ⟨beside.registry, beside.errors, beside.cancelled⟩, came.imp_left ?_⟩
    rintro ⟨rest, ran, gives, less⟩
    exact ⟨rest, ran, gives, Nat.lt_succ_of_lt less⟩
  | @askCancelled next gives ih =>
    have asked : outcome (x.work field (.askCancelled next)) s = outcome (x.work field (next false)) s := by
      rw [← calm, Execution.work]
      rfl
    obtain ⟨u, beside, came⟩ := ih calm
    rw [asked]
    refine ⟨u, beside, came.imp_left ?_⟩
    rintro ⟨rest, ran, gives, less⟩
    refine ⟨rest, ran, gives, ?_⟩
    have := Nat.le_max_right (next true).size (next false).size
    rw [Work.size]
    omega

theorem Run.gains_only (gains : task.Gains task') (kind : OperationKind) :
    (Run.only field task s).Gains (Run.heed kind (.only field task' s')) := by
  have at' : (Run.only field task s).tasks[0]? = some (field, task) := rfl
  have further : (Run.only field task s).Gains (Run.only field task' s') := gains_set task' s' at' gains
  unfold Gains waiting size at *
  rw [heed_tasks]
  exact further

namespace Turn

variable {turn : Turn}

/-- A round that gets the only field further is followed by others. -/
theorem settle_poll (one : turn.run = .only field task s) {result : Except Abort RootTask}
    (ran : outcome (x.advance field task) s = (result, s')) (gains : task.Gains (.ofResult result)) :
    turn.settle x = (turn.next x).settle x := by
  have further : (Run.only field task s).Gains (Run.heed x.plan.kind (.only field (.ofResult result) s')) :=
    Run.gains_only gains x.plan.kind
  rw [← one, ← next_poll one ran] at further
  exact (settle_cases turn).elim (fun idle => absurd further idle.1) (·.2)

/-- Nothing gets any further once the run is aborted. -/
theorem settle_aborted {abort : Abort} (few : turn.run.isCrowd x.plan.kind = false)
    (aborted : turn.run.aborted = some abort) : turn.settle x = turn.run := by
  have idle (i : Nat) : turn.run.poll x i = turn.run := Run.poll_idle fun busy => by simp [aborted] at busy
  have still (places : List Nat) : places.foldl (Run.poll x) turn.run = turn.run := by
    induction places with
    | nil => rfl
    | cons i rest ih => rw [List.foldl_cons, idle, ih]
  have same : (turn.next x).run = turn.run := by
    rw [next, few]
    exact still _
  rcases settle_cases (x := x) turn with ⟨-, settled⟩ | ⟨gains, -⟩
  · exact settled.trans same
  · rw [same, Run.Gains] at gains
    omega

/-- A field that is answered has nothing left to do, whether it has a value or fails. -/
theorem settle_finish {m : ExecM ResponseValue} (one : turn.run = .only field task s)
    (further : task.Gains (.done .null)) (ran : outcome (x.advance field task) s = outcome (m >>= field.finish) u) :
    (turn.settle x).Ends field (outcome m u) := by
  rw [outcome_bind] at ran
  cases came : outcome m u with
  | mk result t =>
    rw [came] at ran
    cases result with
    | ok v =>
      rw [settle_poll one ran further, settle_only .refl (next_only one ran rfl)]
      exact ⟨rfl, rfl, rfl⟩
    | error abort =>
      have failure : (Run.only field (.failed abort) t).failure? x.plan.kind = some abort := by
        rw [Run.failure?, only_few]
        rfl
      have failed : (turn.next x).run =
          { Run.only field (.failed abort) t with
            state := { t with slots := t.slots.release 0 }, aborted := some abort } := by
        rw [next_poll one ran]
        change Run.heed x.plan.kind (Run.only field (.failed abort) t) = _
        rw [Run.heed, failure]
        rfl
      have few : (turn.next x).run.isCrowd x.plan.kind = false := by
        rw [failed]
        exact only_few x field (.failed abort) t
      rw [settle_poll one ran further, settle_aborted few (by rw [failed]), failed]
      exact ⟨rfl, rfl, rfl⟩

/-- However often the resolver gives way, in the end the value is completed. -/
theorem settle_gives {turn : Turn} {task : RootTask} {s t : ExecutionState} {work : Work Resolved}
    (one : turn.run = .only field task s)
    (ran : outcome (x.advance field task) s = outcome (x.work field work) t) (gives : work.Gives value)
    (calm : t.cancelled = false) (further : task.isWaiting = true ∨ task.isWaiting = false ∧ work.size < task.size) :
    ∃ u, t.Beside u ∧
      (turn.settle x).Ends field (outcome (x.complete field.type value field field.rootPath 1) u) := by
  obtain ⟨u, beside, ⟨next, rests, gives, less⟩ | finishes⟩ := x.work_gives field gives calm
  · have gains : task.Gains (.working next) := ⟨rfl, further.imp_right (And.imp_right fun more => by
      rw [RootTask.size]
      omega)⟩
    obtain ⟨v, beside', ends⟩ := settle_gives (next_only one (ran.trans rests) rfl) rfl gives
      (beside.cancelled.trans calm) (Or.inr ⟨rfl, Nat.lt_succ_self _⟩)
    rw [settle_poll one (ran.trans rests) gains]
    exact ⟨v, beside.trans beside', ends⟩
  · have gains : task.Gains (.done .null) := ⟨rfl, further.imp_right (And.imp_right Nat.zero_lt_of_lt)⟩
    exact ⟨u, beside, settle_finish one gains (ran.trans finishes)⟩
termination_by work.size

end Turn

/-- A query of one field, whose resolver returns a value, is answered with what the value is completed to. -/
theorem Execution.execute_fetches (rooted : x.rootFields = .ok [field]) (admits : x.Admits field s)
    (free : s.slots.acquire?.isSome) {r : Registry} (fetches : x.Fetches field value s.registry r) :
    ∃ t final, t.registry = r ∧ t.errors = s.errors ∧ t.cancelled = false ∧
      final.registry = (outcome (x.complete field.type value field field.rootPath 1) t).2.registry ∧
      x.execute s =
        (respond ((outcome (x.complete field.type value field field.rootPath 1) t).1.map fun v =>
            .object [(field.responseKey, v)])
          (outcome (x.complete field.type value field field.rootPath 1) t).2.errors, final) := by
  obtain ⟨operation, resolver, arguments, work, target, calls, read, called, gives⟩ := fetches
  obtain ⟨slots, free⟩ := Option.isSome_iff_exists.1 free
  have calm : (counting s field).cancelled = false := (counting_cancelled s field).trans admits.calm
  have entered : outcome (x.advance field .fresh) s =
      outcome (x.call field operation resolver) { counting s field with slots } := by
    change outcome (x.start field) s = _
    rw [outcome_start admits, withResolver, target]
    simp only
    rw [calls]
    simp only
    rw [outcome_enter, if_neg (by simp [calm]), counting_slots, free]
  have parsed : outcome (ExecM.onRegistry (operation.parseArguments x.inputContext field.arguments).run)
      { counting s field with slots } = (.ok (.ok arguments), { counting s field with slots, registry := r }) := by
    rw [ExecM.outcome_onRegistry, counting_registry, read]
  have ran : outcome (x.advance field .fresh) s = outcome (x.work field work)
      ({ counting s field with slots, registry := r }.noting (.called field.responseKey operation.name arguments)) := by
    rw [entered, call, outcome_bind, parsed]
    simp only
    rw [called]
    rfl
  have one : (Turn.launch [field] s).run = .only field .fresh s := rfl
  obtain ⟨t, beside, ends⟩ := Turn.settle_gives one ran gives calm (Or.inl rfl)
  refine ⟨t, _, beside.registry, ?_, beside.cancelled.trans calm, ends.registry, ?_⟩
  · exact beside.errors.trans (counting_errors s field)
  · rw [execute_rooted rooted]
    simp only
    rw [ends.data, ends.errors]

end GraphQL
