import GraphQL.Proofs.Execution.Answers
import GraphQL.Proofs.Execution.Conduct

/-!
# How a root field advances, leg by leg

Advancing a root field passes several points at which it may stop: the guards at its start, the wait for a
slot, the reading of its arguments, the steps of its resolver, and the completion of what the resolver ended
with. `Leg` has one constructor for each way from one point to the next, failures included, and
`advance_legs` says that an advance goes by such legs. What every leg keeps, every advance keeps, and so does
every way of polling the fields of a run.
-/

namespace GraphQL

/-- What a root field is answered with. -/
inductive Ending where
  | typename
  /-- The operation is a subscription. -/
  | misplaced (operation : OperationDescriptor)
  /-- The arguments cannot be read. -/
  | invalid (e : HostError)
  | result (result : Except Failure Resolved)

/-- What a root field is answered with whose arguments were not read. -/
def Ending.ofFailure : Failure → Ending
  | .error e => .invalid e
  | .panic message => .result (.error (.panic message))

/-- Where a root field is in the course of an advance. -/
inductive Stage where
  | task (task : RootTask)
  /-- Holds a slot, and its arguments are still to be read. -/
  | entered (operation : OperationDescriptor) (resolver : Resolver Resolved)
  | ending (ending : Ending)

/-- The value that a root field is answered with. -/
def Execution.answer (x : Execution) (field : FieldPlan) : Ending → ExecM ResponseValue
  | .typename => return .const (.string x.plan.kind.rootTypeName)
  | .misplaced operation =>
    ExecM.fieldError s!"subscription {operation.name} used in {x.plan.kind.text}" .operationValidationError field
      field.rootPath
  | .invalid e => ExecM.hostError e .validationError field field.rootPath
  | .result result => x.completeRoot field result

namespace ExecutionState

/-- The state once a slot is given back. -/
def released (s : ExecutionState) : ExecutionState := { s with slots := s.slots.release 1 }

/-- The state once host code was run. -/
def noting (s : ExecutionState) (event : ExecutionEvent) : ExecutionState := { s with events := event :: s.events }

end ExecutionState

/-- One way from one point of an advance to the next. -/
inductive Leg (x : Execution) (field : FieldPlan) : Stage × ExecutionState → Stage × ExecutionState → Prop
  | cancelled {s : ExecutionState} (cancelled : s.cancelled = true) :
    Leg x field (.task .fresh, s) (.task (.failed (.error .cancelled)), s)
  | tooDeep {s : ExecutionState} {e : ResponseError} (refused : field.guard (x.limits.checkDepth 1) = .error e) :
    Leg x field (.task .fresh, s) (.task (.failed (.error e)), s)
  | tooComplex {s : ExecutionState} {e : ResponseError} {operation : OperationDescriptor}
    (refused : field.guard (x.limits.checkComplexity (saturatingAdd s.complexity field.complexity)) = .error e)
    (calm : s.cancelled = false) (passed : field.guard (x.limits.checkDepth 1) = .ok ())
    (target : field.target = .operation operation) :
    Leg x field (.task .fresh, s) (.task (.failed (.error e)), Execution.counting s field)
  | admitted {s : ExecutionState} (admits : x.Admits field s) :
    Leg x field (.task .fresh, s) (.task .queued, Execution.counting s field)
  | foreign {s : ExecutionState} (other : ∀ operation, field.target ≠ .operation operation)
    (other' : field.target ≠ .typename) : Leg x field (.task .queued, s) (.task (.failed (.error .internal)), s)
  | typename {s : ExecutionState} (target : field.target = .typename) :
    Leg x field (.task .queued, s) (.ending .typename, s)
  | misplaced {s : ExecutionState} {operation : OperationDescriptor} {resolver : Resolver EventSource}
    (target : field.target = .operation operation) (streams : operation.resolver = .stream resolver) :
    Leg x field (.task .queued, s) (.ending (.misplaced operation), s)
  | interrupted {s : ExecutionState} (cancelled : s.cancelled = true) :
    Leg x field (.task .queued, s) (.task (.failed (.error .cancelled)), s)
  | enter {s : ExecutionState} {slots : Slots} {operation : OperationDescriptor} {resolver : Resolver Resolved}
    (target : field.target = .operation operation) (calls : operation.resolver = .field resolver)
    (free : s.slots.acquire? = some slots) :
    Leg x field (.task .queued, s) (.entered operation resolver, { s with slots })
  | unread {s : ExecutionState} {operation : OperationDescriptor} {resolver : Resolver Resolved} {registry : Registry}
    {failure : Failure}
    (read : outcome (operation.parseArguments x.inputContext field.arguments) s.registry = (.error failure, registry)) :
    Leg x field (.entered operation resolver, s)
      (.ending (.ofFailure failure), { s with registry }.released)
  | panicked {s : ExecutionState} {operation : OperationDescriptor} {resolver : Resolver Resolved} {registry : Registry}
    {arguments : List Resolved} {message : String}
    (read : outcome (operation.parseArguments x.inputContext field.arguments) s.registry = (.ok arguments, registry))
    (panics : resolver arguments = .error message) :
    Leg x field (.entered operation resolver, s)
      (.ending (.result (.error (.panic message))),
        ({ s with registry }.noting (.called field.responseKey operation.name arguments)).released)
  | call {s : ExecutionState} {operation : OperationDescriptor} {resolver : Resolver Resolved} {registry : Registry}
    {arguments : List Resolved} {work : Work Resolved}
    (read : outcome (operation.parseArguments x.inputContext field.arguments) s.registry = (.ok arguments, registry))
    (called : resolver arguments = .ok work) :
    Leg x field (.entered operation resolver, s)
      (.task (.working work), { s with registry }.noting (.called field.responseKey operation.name arguments))
  | done {s : ExecutionState} {result : Except Failure Resolved} :
    Leg x field (.task (.working (.done result)), s) (.ending (.result result), s.released)
  | pause {s : ExecutionState} {next : Work Resolved} :
    Leg x field (.task (.working (.pause next)), s) (.task (.working next), s)
  | record {s : ExecutionState} {entry : JournalEntry} {next : Work Resolved} :
    Leg x field (.task (.working (.record entry next)), s)
      (.task (.working next), { s with journal := s.journal ++ [entry] })
  | cancel {s : ExecutionState} {next : Work Resolved} :
    Leg x field (.task (.working (.cancel next)), s) (.task (.working next), { s with cancelled := true })
  | awake {s : ExecutionState} {next : Work Resolved} (cancelled : s.cancelled = true) :
    Leg x field (.task (.working (.awaitCancel next)), s) (.task (.working next), s)
  | ask {s : ExecutionState} {next : Bool → Work Resolved} :
    Leg x field (.task (.working (.askCancelled next)), s) (.task (.working (next s.cancelled)), s)
  | finish {s s' : ExecutionState} {ending : Ending} {v : ResponseValue}
    (ran : outcome (x.answer field ending) s = (.ok v, s')) :
    Leg x field (.ending ending, s) (.task (.done v), s'.noting (.finished field.responseKey))
  | fail {s s' : ExecutionState} {ending : Ending} {abort : Abort}
    (ran : outcome (x.answer field ending) s = (.error abort, s')) :
    Leg x field (.ending ending, s) (.task (.failed abort), s')

/-- Legs one after the other. -/
abbrev Legs (x : Execution) (field : FieldPlan) : Stage × ExecutionState → Stage × ExecutionState → Prop :=
  Relation.ReflTransGen (Leg x field)

namespace Execution

variable {x : Execution} {field : FieldPlan} {s : ExecutionState}

theorem counting_events (s : ExecutionState) (field : FieldPlan) : (counting s field).events = s.events := by
  unfold counting
  cases field.target <;> rfl

theorem counting_slots (s : ExecutionState) (field : FieldPlan) : (counting s field).slots = s.slots := by
  unfold counting
  cases field.target <;> rfl

/-- The end of an advance: the task that it leads to, and the state. -/
def arrival (m : ExecM RootTask) (s : ExecutionState) : Stage × ExecutionState :=
  (.task (.ofResult (outcome m s).1), (outcome m s).2)

theorem answer_legs (ending : Ending) :
    Legs x field (.ending ending, s) (arrival (x.answer field ending >>= field.finish) s) := by
  unfold arrival
  rw [outcome_bind]
  cases ran : outcome (x.answer field ending) s with
  | mk result s' =>
    cases result with
    | ok v => exact .single (.finish ran)
    | error abort => exact .single (.fail ran)

theorem work_legs (work : Work Resolved) :
    Legs x field (.task (.working work), s) (arrival (x.work field work) s) := by
  induction work generalizing s with
  | done result =>
    rw [Execution.work]
    exact .head .done (answer_legs (.result result))
  | pause next _ =>
    rw [Execution.work]
    exact .single .pause
  | record entry next ih =>
    rw [Execution.work]
    exact .head .record ih
  | cancel next ih =>
    rw [Execution.work]
    exact .head .cancel ih
  | awaitCancel next ih =>
    have split : arrival (x.work field (.awaitCancel next)) s =
        arrival (if s.cancelled then x.work field next else return .working (.awaitCancel next)) s := by
      rw [Execution.work, arrival, outcome_bind, outcome_get]
      rfl
    rw [split]
    split
    · next cancelled => exact .head (.awake cancelled) ih
    · exact .refl
  | askCancelled next ih =>
    rw [Execution.work]
    exact .head .ask (ih s.cancelled)

theorem call_legs (operation : OperationDescriptor) (resolver : Resolver Resolved) :
    Legs x field (.entered operation resolver, s) (arrival (x.call field operation resolver) s) := by
  cases read : outcome (operation.parseArguments x.inputContext field.arguments) s.registry with
  | mk result registry =>
    have parsed : outcome (ExecM.onRegistry (operation.parseArguments x.inputContext field.arguments).run) s =
        (.ok result, { s with registry }) := by
      rw [ExecM.outcome_onRegistry, read]
    unfold call
    rw [arrival, outcome_bind, parsed]
    cases result with
    | error failure =>
      cases failure with
      | error e => exact .head (.unread read) (answer_legs (.invalid e))
      | panic message => exact .head (.unread read) (answer_legs (.result (.error (.panic message))))
    | ok arguments =>
      simp only
      cases called : resolver arguments with
      | ok work =>
        exact .head (.call read called) (work_legs work)
      | error message => exact .head (.panicked read called) (answer_legs (.result (.error (.panic message))))

theorem withResolver_legs : Legs x field (.task .queued, s) (arrival (x.withResolver field (x.enter field)) s) := by
  unfold withResolver
  cases target : field.target with
  | typename => exact .head (.typename target) (answer_legs .typename)
  | operation operation =>
    simp only
    cases calls : operation.resolver with
    | field resolver =>
      simp only
      rw [arrival, outcome_enter]
      split
      · next cancelled => exact .single (.interrupted cancelled.2)
      · split
        · exact .refl
        · next slots free => exact .head (.enter target calls free) (call_legs operation resolver)
    | stream resolver => exact .head (.misplaced target calls) (answer_legs (.misplaced operation))
  | objectField owner index => exact .single (.foreign (by simp [target]) (by simp [target]))
  | interfaceField => exact .single (.foreign (by simp [target]) (by simp [target]))

theorem start_legs : Legs x field (.task .fresh, s) (arrival (x.start field) s) := by
  by_cases cancelled : s.cancelled = true
  · have refused : outcome (x.start field) s = (.error (.error .cancelled), s) := by
      unfold start
      rw [outcome_bind, ExecM.outcome_checkCancelled, if_pos cancelled]
    rw [arrival, refused]
    exact .single (.cancelled cancelled)
  cases depth : field.guard (x.limits.checkDepth 1) with
  | error e =>
    have refused : outcome (x.start field) s = (.error (.error e), s) := by
      unfold start
      rw [outcome_bind, ExecM.outcome_checkCancelled, if_neg cancelled, depth]
      rfl
    rw [arrival, refused]
    exact .single (.tooDeep depth)
  | ok _ =>
    cases complexity : field.guard (x.limits.checkComplexity (saturatingAdd s.complexity field.complexity)) with
    | ok _ =>
      have admits : x.Admits field s := ⟨by simpa using cancelled, depth, fun _ _ => complexity⟩
      rw [arrival, outcome_start admits]
      exact .head (.admitted admits) withResolver_legs
    | error e =>
      cases target : field.target with
      | operation operation =>
        have refused : outcome (x.start field) s = (.error (.error e), counting s field) := by
          unfold start counting
          rw [outcome_bind, ExecM.outcome_checkCancelled, if_neg cancelled, depth, target]
          change outcome (ExecM.addComplexity x.limits field >>= fun _ => x.withResolver field (x.enter field)) s = _
          rw [outcome_bind, outcome_addComplexity, complexity]
          rfl
        rw [arrival, refused]
        exact .single (.tooComplex complexity (by simpa using cancelled) depth target)
      | _ =>
        have admits : x.Admits field s := ⟨by simpa using cancelled, depth, by simp [target]⟩
        rw [arrival, outcome_start admits]
        exact .head (.admitted admits) withResolver_legs

/-- Advancing a root field goes leg by leg. -/
theorem advance_legs (task : RootTask) (s : ExecutionState) :
    Legs x field (.task task, s) (arrival (x.advance field task) s) := by
  cases task with
  | fresh => exact start_legs
  | queued => exact withResolver_legs
  | working work => exact work_legs work
  | done v => exact .refl
  | failed abort => exact .refl

end Execution

namespace Run

variable {x : Execution}

/-- A poll does nothing, or advances a field leg by leg and heeds its failure. -/
inductive Poll (x : Execution) (run : Run) : Run → Prop
  | idle : Poll x run run
  | advance {i : Nat} {field : FieldPlan} {task task' : RootTask} {s : ExecutionState} (ongoing : run.aborted = none)
    (at' : run.tasks[i]? = some (field, task)) (ready : run.isReady x.plan.kind i = true)
    (legs : Legs x field (.task task, run.state) (.task task', s)) :
    Poll x run (heed x.plan.kind { run with tasks := run.tasks.set i (field, task'), state := s })

theorem poll_legs (run : Run) (i : Nat) : Poll x run (run.poll x i) := by
  by_cases busy : run.aborted = none ∧ (∃ entry, run.tasks[i]? = some entry) ∧ run.isReady x.plan.kind i = true
  · obtain ⟨ongoing, ⟨⟨field, task⟩, at'⟩, ready⟩ := busy
    rw [poll_eq ongoing at' ready rfl]
    exact .advance ongoing at' ready (Execution.advance_legs task run.state)
  · rw [poll_idle busy]
    exact .idle

/-- What every poll keeps, all polls keep. -/
theorem polls_keep {holds : Run → Prop} (poll : ∀ run run', Poll x run run' → holds run → holds run')
    {run : Run} (begins : holds run) (polls : List Nat) : holds (polls.foldl (Run.poll x) run) := by
  induction polls generalizing run with
  | nil => exact begins
  | cons i rest ih => exact ih (poll run _ (poll_legs run i) begins)

end Run

end GraphQL
