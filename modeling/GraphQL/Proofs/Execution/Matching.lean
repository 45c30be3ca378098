import GraphQL.Proofs.Execution.Alone
import GraphQL.Proofs.Execution.Trading

/-!
# Following a root field

A root field of a run is followed by an execution of the field alone, which begins with the types that
the run ends with. Each time the field advances in the run, `Matches` advances it alone as well. There
the field never waits, because a slot that is free in the run is free there too, and at the end
`Turn.settle` has taken the same way.
-/

namespace GraphQL

/-- An execution of one field gets further. -/
structure Progress (x : Execution) (field : FieldPlan) (before after : RootTask × ExecutionState) : Prop where
  ran : outcome (x.advance field before.1) before.2 = (.ok after.1, after.2)
  called : after.1.Called
  further : before.1.isWaiting = true ∨ after.1.size < before.1.size

/-- The run of one field. -/
def Run.only (field : FieldPlan) (task : RootTask) (s : ExecutionState) : Run := { tasks := [(field, task)], state := s }

namespace Turn

variable {x : Execution} {field : FieldPlan} {task task' : RootTask} {s s' : ExecutionState} {turn : Turn}

theorem only_few (x : Execution) (field : FieldPlan) (task : RootTask) (s : ExecutionState) :
    (Run.only field task s).isCrowd x.plan.kind = false := by simp [Run.isCrowd, Run.only, Run.crowdLimit]

/-- A round polls the only field once. -/
theorem next_poll (one : turn.run = .only field task s) {result : Except Abort RootTask}
    (ran : outcome (x.advance field task) s = (result, s')) :
    (turn.next x).run = Run.heed x.plan.kind (.only field (.ofResult result) s') := by
  have ready : (Run.only field task s).isReady x.plan.kind 0 = true := by simp [Run.isReady]
  rw [next, one, only_few]
  change (List.range turn.run.tasks.length).foldl (Run.poll x) turn.run = _
  rw [one]
  exact Run.poll_eq rfl rfl ready ran

theorem next_only (one : turn.run = .only field task s) (ran : outcome (x.advance field task) s = (.ok task', s'))
    (going : task'.abort? = none) : (turn.next x).run = .only field task' s' := by
  have fine : (Run.only field task' s').failure? x.plan.kind = none := by
    rw [Run.failure?, only_few]
    simp [Run.only, going]
  rw [next_poll one ran]
  change Run.heed x.plan.kind (Run.only field task' s') = _
  rw [Run.heed, fine]

/-- Rounds go on as long as the field gets further, and end when it is done. -/
theorem settle_only {v : ResponseValue} {start : RootTask × ExecutionState}
    (climbs : Relation.ReflTransGen (Progress x field) start (.done v, s')) {turn : Turn}
    (one : turn.run = .only field start.1 start.2) : settle x turn = .only field (.done v) s' := by
  induction climbs using Relation.ReflTransGen.head_induction_on generalizing turn with
  | refl =>
    have last : (turn.next x).run = .only field (.done v) s' := next_only one rfl rfl
    rw [settle, last, one, if_neg (Nat.lt_irrefl _), if_neg (fun h => Nat.lt_irrefl _ h.2)]
  | @head before after progress _ ih =>
    have then' := next_only one progress.ran progress.called.not_failed
    have settled : settle x (turn.next x) = .only field (.done v) s' := ih then'
    have waits : (Run.only field after.1 after.2).waiting = 0 := by
      simp [Run.waiting, Run.only, progress.called.not_waiting]
    rw [settle, then', one, settled]
    cases waiting : before.1.isWaiting with
    | true =>
      have waited : (Run.only field before.1 before.2).waiting = 1 := by simp [Run.waiting, Run.only, waiting]
      rw [waits, waited, if_pos Nat.zero_lt_one]
    | false =>
      have waited : (Run.only field before.1 before.2).waiting = 0 := by simp [Run.waiting, Run.only, waiting]
      have smaller : (Run.only field after.1 after.2).size < (Run.only field before.1 before.2).size := by
        obtain waits | smaller := progress.further
        · rw [waiting] at waits
          cases waits
        · exact Nat.add_lt_add_right smaller 0
      rw [waits, waited, if_neg (Nat.lt_irrefl _), if_pos ⟨rfl, smaller⟩]

end Turn

namespace Execution

variable {x : Execution} {field : FieldPlan} {origin s s' : ExecutionState} {task task' : RootTask}
  {own : List ResponseError} {held n : Nat}

/-- An execution of the field alone has come as far as the field has in a run, with its errors. -/
structure Alike (x : Execution) (field : FieldPlan) (origin : ExecutionState) (task : RootTask)
    (own : List ResponseError) (t : ExecutionState) : Prop where
  climbs : Relation.ReflTransGen (Progress x field) (.fresh, origin) (task, t)
  errors : t.errors = origin.errors ++ own
  registry : t.registry = origin.registry
  calm : t.cancelled = false
  trades : Trades 0 origin task.held t

/-- An execution of the field alone matches a run. It starts when the run has a slot for the field. -/
def Matches (x : Execution) (origin : ExecutionState) (field : FieldPlan) : RootTask → List ResponseError → Prop
  | .fresh, own => own = []
  | .queued, own => own = [] ∧ x.Admits field origin
  | .failed _, _ => False
  | task, own => ∃ t, x.Alike field origin task own t

theorem Alike.matches' {t : ExecutionState} (alike : x.Alike field origin task own t) (called : task.Called) :
    x.Matches origin field task own := by
  cases task with
  | working _ | done _ => exact ⟨t, alike⟩
  | _ => cases called

/-- A field that is admitted in a run is admitted alone. -/
theorem Admits.alone (admits : x.Admits field s) (amid : Trades held origin n s) : x.Admits field origin where
  calm := amid.calm admits.calm
  depth := admits.depth
  complexity operation target :=
    guard_eq_ok.2 (guardWith_mono (amid.complexity _) (guard_eq_ok.1 (admits.complexity operation target)))

theorem withResolver_matches (admits : x.Admits field origin) (amid : Trades 0 origin n s)
    (ran : outcome (x.withResolver field (x.enter field)) s = (.ok task, s'))
    (later : x.host.Later s'.registry origin.registry) (calm : s'.cancelled = false) :
    ∃ es, s'.errors = s.errors ++ es ∧ x.Matches origin field task es := by
  obtain ⟨rfl, rfl⟩ | ⟨called, -⟩ := withResolver_trades ran
  · exact ⟨[], (List.append_nil _).symm, rfl, admits⟩
  · obtain ⟨rfl, -⟩ | ⟨es, eq, -, -, -, again⟩ := withResolver_moves ran
    · cases called
    · have counted := counting_trades origin field
      have lighter : (counting origin field).Lighter s := by
        refine ⟨(counting_cancelled origin field).trans admits.calm, counted.limit.trans amid.limit.symm, ?_⟩
        have := counted.taken (Nat.zero_le _)
        have := amid.taken (Nat.zero_le _)
        omega
      obtain ⟨t, ran', errors, registry, lighter'⟩ :=
        again (counting origin field) ((counting_registry origin field).symm ▸ later) calm lighter
      have started : outcome (x.advance field .fresh) origin = (.ok task, t) := (outcome_start admits).trans ran'
      rw [counting_errors] at errors
      rw [counting_registry] at registry
      have alike : x.Alike field origin task es t :=
        ⟨.single ⟨started, called, Or.inl rfl⟩, errors, registry, lighter'.calm, advance_trades started⟩
      exact ⟨es, eq, alike.matches' called⟩

/-- Each time the field advances in the run, it can be advanced alone. -/
theorem advance_matches (amid : Trades 0 origin n s) (among : task.held ≤ n)
    (ran : outcome (x.advance field task) s = (.ok task', s')) (later : x.host.Later s'.registry origin.registry)
    (calm : s'.cancelled = false) (matched : x.Matches origin field task own) :
    ∃ es, s'.errors = s.errors ++ es ∧ x.Matches origin field task' (own ++ es) := by
  cases task with
  | fresh =>
    cases matched
    have admits := start_admits ran
    have amid' : Trades 0 origin n (counting s field) :=
      amid.trans ((counting_trades s field).beside (Nat.zero_le n) rfl)
    obtain ⟨es, eq, matched⟩ :=
      withResolver_matches (admits.alone amid) amid' ((outcome_start admits).symm.trans ran) later calm
    rw [counting_errors] at eq
    exact ⟨es, eq, matched⟩
  | queued =>
    obtain ⟨rfl, admits⟩ := matched
    exact withResolver_matches admits amid ran later calm
  | working work =>
    obtain ⟨t, alike⟩ := matched
    have lighter : t.Lighter s := by
      refine ⟨alike.calm, alike.trades.limit.trans amid.limit.symm, ?_⟩
      have := alike.trades.taken (Nat.zero_le _)
      have := amid.taken (Nat.zero_le _)
      omega
    obtain ⟨es, eq, -, -, -, again⟩ := work_moves work _ _ _ ran
    obtain ⟨t', ran', errors, registry, lighter'⟩ := again t (alike.registry.symm ▸ later) calm lighter
    obtain ⟨called, trades⟩ := work_trades work ran'
    have climbs : Relation.ReflTransGen (Progress x field) (.fresh, origin) (task', t') := by
      obtain ⟨rfl, rfl⟩ | smaller := work_shrinks work ran'
      · exact alike.climbs
      · exact alike.climbs.tail ⟨ran', called, Or.inr smaller⟩
    have alike' : x.Alike field origin task' (own ++ es) t' := by
      refine ⟨climbs, ?_, registry.trans alike.registry, lighter'.calm, alike.trades.trans trades⟩
      rw [errors, alike.errors, List.append_assoc]
    exact ⟨es, eq, alike'.matches' called⟩
  | done v =>
    cases ran
    refine ⟨[], (List.append_nil _).symm, ?_⟩
    rw [List.append_nil]
    exact matched
  | failed abort => cases ran

end Execution

/-- In the course of a run, every field is matched by an execution of its own. -/
theorem Run.Steps.matches' {x : Execution} {fields : List FieldPlan} {state : ExecutionState} {run : Run}
    (steps : Run.Steps x (Run.launch fields state) run) (calm : run.state.cancelled = false) :
    ∃ own, Run.Parts fields state.errors run own fun field task es =>
      ∀ registry, x.host.Later run.state.registry registry → x.Matches { state with registry } field task es := by
  induction steps with
  | refl => exact ⟨_, Run.launch_parts fields state fun _ _ _ => rfl⟩
  | tail before step ih =>
    obtain ⟨_, _, shown⟩ := Run.Steps.shown before
    obtain ⟨grown, -⟩ := step.shown shown
    obtain ⟨own, parts⟩ := ih (step.trades.calm calm)
    obtain ⟨limit, taken, calm', complexity⟩ := Run.Steps.trades before
    cases step with
    | @advance i field task task' s at' ran =>
      apply parts.set at' (fun f t es matched registry later => matched registry (grown.trans later))
      intro mine matched
      have each (registry : Registry) (later : x.host.Later s.registry registry) :
          ∃ es, s.errors = _ ++ es ∧ x.Matches { state with registry } field task' (mine ++ es) :=
        Execution.advance_matches ⟨limit, taken, calm', complexity⟩ (Run.held_le_slotsHeld at') ran later calm
          (matched registry (grown.trans later))
      obtain ⟨es, eq, -⟩ := each s.registry (.refl _ _)
      refine ⟨es, eq, ?_⟩
      intro registry later
      -- the errors added are the same whatever the registry of the other execution
      obtain ⟨es', eq', matched'⟩ := each registry later
      rw [eq, List.append_cancel_left_eq] at eq'
      rw [eq']
      exact matched'

end GraphQL
