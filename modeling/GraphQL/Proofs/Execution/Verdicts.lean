import GraphQL.Proofs.Execution.Depths
import GraphQL.Proofs.Execution.Retelling

/-!
# Verdicts

What a root field comes to by itself does not depend on when the other fields take their turns. Given the
types of a registry, `Execution.verdict` is its value with the errors below it, or the failure that it ends
with. Any run that is not cancelled, and whose types are all in the registry, does with the field what the
verdict foretells, and so does a run under other limits, up to what the limits allow: `polls_foretold`.
-/

namespace GraphQL

/-- What the work of a resolver ends with while nothing is cancelled, unless it waits for a cancellation. -/
def Work.calmly {α : Type} : Work α → Except Abort (Except Failure α)
  | .done result => .ok result
  | .pause next | .record _ next | .cancel next => next.calmly
  | .awaitCancel _ => .error (.breakdown .stuck)
  | .askCancelled next => (next false).calmly

/-- The state in which nothing has happened but that types were described. -/
def ExecutionState.described (registry : Registry) : ExecutionState :=
  { registry, slots := { limit := 0 }, cancelled := false }

namespace Execution

/-- What a root field is answered with, given the types of a registry. -/
def ending (x : Execution) (registry : Registry) (field : FieldPlan) : Except Abort Ending :=
  match field.target with
  | .typename => .ok .typename
  | .operation operation =>
    match operation.resolver with
    | .stream _ => .ok (.misplaced operation)
    | .field resolver =>
      match (outcome (operation.parseArguments x.inputContext field.arguments) registry).1 with
      | .error failure => .ok (.ofFailure failure)
      | .ok arguments =>
        match resolver arguments with
        | .error message => .ok (.result (.error (.panic message)))
        | .ok work => work.calmly.map .result
  | .objectField .. | .interfaceField => .error (.error .internal)

/-- The value of a root field and the errors at and below it, or how the field fails. -/
def verdict (x : Execution) (registry : Registry) (field : FieldPlan) :
    Except Abort (ResponseValue × List ResponseError) :=
  match x.ending registry field with
  | .error abort => .error abort
  | .ok ending =>
    match outcome (x.answer field ending) (.described registry) with
    | (.ok v, s) => .ok (v, s.errors)
    | (.error abort, _) => .error abort

variable {x : Execution} {R : Registry} {w : Leeway} {limits' : QueryLimits} {field : FieldPlan}

theorem ending_operation {operation : OperationDescriptor} {resolver : Resolver Resolved}
    (target : field.target = .operation operation) (calls : operation.resolver = .field resolver) :
    x.ending R field =
      match (outcome (operation.parseArguments x.inputContext field.arguments) R).1 with
      | .error failure => .ok (.ofFailure failure)
      | .ok arguments =>
        match resolver arguments with
        | .error message => .ok (.result (.error (.panic message)))
        | .ok work => work.calmly.map .result := by
  rw [ending, target]
  simp only
  rw [calls]

/-- Only `__typename` is answered with the name of the root type. -/
theorem target_of_ending_typename (ends : x.ending R field = .ok .typename) : field.target = .typename := by
  unfold ending at ends
  split at ends
  · assumption
  · split at ends
    · cases ends
    · split at ends
      · next failure _ => cases failure <;> cases ends
      · split at ends
        · cases ends
        · next work _ => cases came : work.calmly <;> rw [came] at ends <;> cases ends
  · cases ends
  · cases ends

theorem isKept_rootPath (n : Nat) (field : FieldPlan) : field.rootPath.isKept n = true := rfl

theorem completeRoot_retells (guides : x.limits.Guides w limits') (result : Except Failure Resolved) :
    x.Retells R w (x.completeRoot field result) ((x.under limits').completeRoot field result) (.root field) := by
  have kept := isKept_rootPath w.kept field
  cases result with
  | ok value => exact (complete_retells guides field.type value field kept 1).mono fun _ _ shortens => .resolved shortens
  | error failure =>
    cases failure with
    | error e => exact hostError_retells kept _ _ _
    | panic message => exact fieldError_retells kept _ _ _

/-- Under other limits a root field is answered alike. -/
theorem answer_retells (guides : x.limits.Guides w limits') {ending : Ending}
    (named : ending = .typename → field.target = .typename) :
    x.Retells R w (x.answer field ending) ((x.under limits').answer field ending) (.root field) := by
  have kept := isKept_rootPath w.kept field
  cases ending with
  | typename =>
    exact ExecM.reproduces_pure (.rootTypename (named rfl))
  | misplaced operation => exact fieldError_retells kept _ _ _
  | invalid e => exact hostError_retells kept _ _ _
  | result result => exact completeRoot_retells guides result

end Execution

/-! ## One field -/

/-- A root field is on its way to its verdict under other limits, with errors of its own. -/
def RootTask.Foretold (x : Execution) (w : Leeway) (limits' : QueryLimits) (R : Registry) (field : FieldPlan)
    (own : List ResponseError) : RootTask → Prop
  | .fresh | .queued => own = []
  | .working work => own = [] ∧ x.ending R field = work.calmly.map .result
  | .done v => ∃ v', (x.under limits').verdict R field = .ok (v', own.filter (·.isKept w.kept)) ∧
      Shortens x R w.kept (.root field) v v'
  | .failed abort => w.excuse abort ∨ (x.under limits').verdict R field = .error abort

def Stage.Foretold (x : Execution) (w : Leeway) (limits' : QueryLimits) (R : Registry) (field : FieldPlan)
    (own : List ResponseError) : Stage → Prop
  | .task t => t.Foretold x w limits' R field own
  | .entered operation resolver =>
    own = [] ∧ field.target = .operation operation ∧ operation.resolver = .field resolver
  | .ending e => own = [] ∧ x.ending R field = .ok e

/-- A guard refuses a root field with an error. -/
def QueryLimits.Refuses (limits : QueryLimits) (field : FieldPlan) (e : ResponseError) : Prop :=
  (∃ depth, field.guard (limits.checkDepth depth) = .error e) ∨
    ∃ complexity, field.guard (limits.checkComplexity complexity) = .error e

section

variable {x : Execution} {R : Registry} {w : Leeway} {limits' : QueryLimits} {field : FieldPlan}

/-- Answering a root field describes types, adds errors and events, and does nothing else to the state. -/
theorem answer_after {ending : Ending} {s s' : ExecutionState} {result : Except Abort ResponseValue}
    (ran : outcome (x.answer field ending) s = (result, s')) :
    ∃ registry errors events, s' = s.after registry errors events ∧ x.host.Later s.registry registry := by
  obtain ⟨registry, errors, events, eq, grown, -⟩ := @Execution.answer_conducts x field ending s
  rw [ran] at eq
  exact ⟨registry, errors, events, eq, grown⟩

/-- Arguments are read alike when all is described that they have led to. -/
theorem parseArguments_again {operation : OperationDescriptor} {registry registry' : Registry}
    {result : Except Failure (List Resolved)}
    (read : outcome (operation.parseArguments x.inputContext field.arguments) registry = (result, registry'))
    (covers : x.host.Covers registry' R) :
    (outcome (operation.parseArguments x.inputContext field.arguments) R).1 = result := by
  have settled := OperationDescriptor.parseArguments_settles x.inputContext operation field.arguments registry
  rw [settled.again R (by rw [read]; exact covers) (Or.inr ⟨trivial, fun _ mem => absurd mem List.not_mem_nil⟩), read]

theorem Leg.grows {here there : Stage × ExecutionState} (leg : Leg x field here there) :
    x.host.Later here.2.registry there.2.registry := by
  have parses (operation : OperationDescriptor) :=
    OperationDescriptor.parseArguments_settles x.inputContext operation field.arguments
  cases leg with
  | tooComplex _ | admitted _ =>
    rw [Execution.counting_registry]
    exact .refl _ _
  | unread read => exact (parses _).later read
  | panicked read _ => exact (parses _).later read
  | call read _ => exact (parses _).later read
  | finish ran | fail ran =>
    obtain ⟨_, _, _, rfl, grown⟩ := answer_after ran
    exact grown
  | _ => exact .refl _ _

theorem Leg.calm {here there : Stage × ExecutionState} (leg : Leg x field here there)
    (calm : there.2.cancelled = false) : here.2.cancelled = false := by
  cases leg with
  | tooComplex _ | admitted _ => rwa [Execution.counting_cancelled] at calm
  | cancel => cases calm
  | finish ran | fail ran =>
    obtain ⟨_, _, _, rfl, -⟩ := answer_after ran
    exact calm
  | _ => exact calm

/-- What answering a root field comes to is its verdict. -/
theorem answer_foretold (guides : x.limits.Guides w limits') {ending : Ending} (ends : x.ending R field = .ok ending)
    {s s' : ExecutionState} {result : Except Abort ResponseValue} (calm : s.cancelled = false)
    (ran : outcome (x.answer field ending) s = (result, s')) (covers : x.host.Covers s'.registry R) :
    ∃ more, s'.errors = s.errors ++ more ∧
      (RootTask.ofResult (result.map .done)).Foretold x w limits' R field more := by
  have named : ending = .typename → field.target = .typename := fun same =>
    Execution.target_of_ending_typename (same ▸ ends)
  have retraces := (Execution.answer_retells (R := R) guides named).again s (.described R) calm rfl rfl
  have ends' : (x.under limits').ending R field = .ok ending := ends
  rw [ran] at retraces
  have verdict : (x.under limits').verdict R field =
      match outcome ((x.under limits').answer field ending) (.described R) with
      | (.ok v, s) => .ok (v, s.errors)
      | (.error abort, _) => .error abort := by
    unfold Execution.verdict
    rw [ends']
  cases came : outcome ((x.under limits').answer field ending) (.described R) with
  | mk result' t =>
    rw [came] at retraces verdict
    cases retraces covers with
    | came shortens => exact ⟨_, rfl, _, verdict, shortens⟩
    | excused excuse =>
      obtain ⟨_, es, _, rfl, -⟩ := answer_after ran
      exact ⟨es, rfl, Or.inl excuse⟩
    | failed =>
      obtain ⟨_, es, _, rfl, -⟩ := answer_after ran
      exact ⟨es, rfl, Or.inr verdict⟩

/-- A leg leads on to the verdict. -/
theorem Leg.foretold (guides : x.limits.Guides w limits') (refuses : ∀ e, x.limits.Refuses field e → w.excuse (.error e))
    {here there : Stage × ExecutionState} (leg : Leg x field here there) {own : List ResponseError}
    (foretold : here.1.Foretold x w limits' R field own) (calm : there.2.cancelled = false)
    (covers : x.host.Covers there.2.registry R) :
    ∃ more, there.2.errors = here.2.errors ++ more ∧ there.1.Foretold x w limits' R field (own ++ more) := by
  have before := leg.calm calm
  -- most legs add no errors
  have still {s s' : ExecutionState} {stage : Stage} (same : s'.errors = s.errors)
      (holds : stage.Foretold x w limits' R field own) :
      ∃ more, s'.errors = s.errors ++ more ∧ stage.Foretold x w limits' R field (own ++ more) :=
    ⟨[], by rw [same, List.append_nil], by rwa [List.append_nil]⟩
  cases leg with
  | cancelled cancelled => cases cancelled.symm.trans calm
  | interrupted cancelled => cases cancelled.symm.trans calm
  | awake cancelled => cases cancelled.symm.trans calm
  | tooDeep refused => exact still rfl (Or.inl (refuses _ (Or.inl ⟨_, refused⟩)))
  | tooComplex refused => exact still (Execution.counting_errors _ _) (Or.inl (refuses _ (Or.inr ⟨_, refused⟩)))
  | admitted _ => exact still (Execution.counting_errors _ _) foretold
  | foreign other other' =>
    have ends : x.ending R field = .error (.error .internal) := by
      unfold Execution.ending
      cases target : field.target with
      | typename => exact absurd target other'
      | operation operation => exact absurd target (other operation)
      | _ => rfl
    refine still rfl (Or.inr ?_)
    change (match x.ending R field with | .error abort => Except.error abort | .ok _ => _) = _
    rw [ends]
  | typename target => exact still rfl ⟨foretold, by rw [Execution.ending, target]⟩
  | misplaced target streams =>
    refine still rfl ⟨foretold, ?_⟩
    rw [Execution.ending, target]
    simp only
    rw [streams]
  | enter target calls _ => exact still rfl ⟨foretold, target, calls⟩
  | unread read =>
    obtain ⟨none, target, calls⟩ := foretold
    refine still rfl ⟨none, ?_⟩
    rw [Execution.ending_operation target calls, parseArguments_again read covers]
  | panicked read panics =>
    obtain ⟨none, target, calls⟩ := foretold
    refine still rfl ⟨none, ?_⟩
    rw [Execution.ending_operation target calls, parseArguments_again read covers]
    simp only
    rw [panics]
  | call read called =>
    obtain ⟨none, target, calls⟩ := foretold
    refine still rfl ⟨none, ?_⟩
    rw [Execution.ending_operation target calls, parseArguments_again read covers]
    simp only
    rw [called]
  | done | pause | record => exact still rfl foretold
  | cancel => cases calm
  | @ask s next =>
    refine still rfl ⟨foretold.1, ?_⟩
    rw [show s.cancelled = false from before]
    exact foretold.2
  | finish ran | fail ran =>
    obtain ⟨rfl, ends⟩ := foretold
    exact answer_foretold guides ends before ran covers

theorem Legs.grows {here there : Stage × ExecutionState} (legs : Legs x field here there) :
    x.host.Later here.2.registry there.2.registry := by
  induction legs with
  | refl => exact .refl _ _
  | tail _ leg ih => exact ih.trans leg.grows

theorem Legs.calm {here there : Stage × ExecutionState} (legs : Legs x field here there)
    (calm : there.2.cancelled = false) : here.2.cancelled = false := by
  induction legs with
  | refl => exact calm
  | tail _ leg ih => exact ih (leg.calm calm)

theorem Legs.foretold (guides : x.limits.Guides w limits') (refuses : ∀ e, x.limits.Refuses field e → w.excuse (.error e))
    {here there : Stage × ExecutionState} (legs : Legs x field here there) {own : List ResponseError}
    (foretold : here.1.Foretold x w limits' R field own) (calm : there.2.cancelled = false)
    (covers : x.host.Covers there.2.registry R) :
    ∃ more, there.2.errors = here.2.errors ++ more ∧ there.1.Foretold x w limits' R field (own ++ more) := by
  induction legs with
  | refl => exact ⟨[], (List.append_nil _).symm, by rwa [List.append_nil]⟩
  | tail _ leg ih =>
    obtain ⟨more, errors, foretold'⟩ := ih (leg.calm calm) (covers.after leg.grows)
    obtain ⟨more', errors', foretold''⟩ := leg.foretold guides refuses foretold' calm covers
    exact ⟨more ++ more', by rw [errors', errors, List.append_assoc], by rwa [← List.append_assoc]⟩

end

/-! ## All fields of a run -/

namespace Run

variable {x : Execution} {R : Registry} {w : Leeway} {limits' : QueryLimits} {run run' : Run}

theorem Poll.grows (poll : Poll x run run') : x.host.Later run.state.registry run'.state.registry := by
  cases poll with
  | idle => exact .refl _ _
  | advance _ _ _ legs =>
    rw [heed_registry]
    exact legs.grows

theorem Poll.calm (poll : Poll x run run') (calm : run'.state.cancelled = false) : run.state.cancelled = false := by
  cases poll with
  | idle => exact calm
  | advance _ _ _ legs =>
    rw [heed_cancelled] at calm
    exact legs.calm calm

theorem polls_calm {polls : List Nat} (calm : (polls.foldl (Run.poll x) run).state.cancelled = false) :
    run.state.cancelled = false := by
  induction polls generalizing run with
  | nil => exact calm
  | cons i rest ih => exact (poll_legs run i).calm (ih calm)

theorem polls_grow (run : Run) (polls : List Nat) :
    x.host.Later run.state.registry (polls.foldl (Run.poll x) run).state.registry := by
  induction polls generalizing run with
  | nil => exact .refl _ _
  | cons i rest ih => exact (poll_legs run i).grows.trans (ih _)

theorem Parts.heed {fields : List FieldPlan} {before : List ResponseError} {own : List (List ResponseError)}
    {each : FieldPlan → RootTask → List ResponseError → Prop} (parts : Parts fields before run own each)
    (kind : OperationKind) : Parts fields before (heed kind run) own each where
  fields := by rw [heed_tasks, parts.fields]
  counts := by rw [heed_tasks, parts.counts]
  errors := by
    rw [heed_errors]
    exact parts.errors
  each := by
    rw [heed_tasks]
    exact parts.each

/-- Every field of a run is on its way to its verdict under other limits. -/
def Foretold (x : Execution) (w : Leeway) (limits' : QueryLimits) (R : Registry) (fields : List FieldPlan)
    (before : List ResponseError) (run : Run) : Prop :=
  ∃ own, Parts fields before run own fun field task es => task.Foretold x w limits' R field es

theorem Poll.foretold (guides : x.limits.Guides w limits')
    (refuses : ∀ field e, x.limits.Refuses field e → w.excuse (.error e)) (poll : Poll x run run')
    {fields : List FieldPlan} {before : List ResponseError} (foretold : run.Foretold x w limits' R fields before)
    (calm : run'.state.cancelled = false) (covers : x.host.Covers run'.state.registry R) :
    run'.Foretold x w limits' R fields before := by
  cases poll with
  | idle => exact foretold
  | @advance i field task task' s ongoing at' ready legs =>
    rw [heed_cancelled] at calm
    rw [heed_registry] at covers
    obtain ⟨own, parts⟩ := foretold
    obtain ⟨own', parts'⟩ := parts.set (s := s) at' (fun _ _ _ => id) fun mine owes =>
      legs.foretold guides (refuses field) owes calm covers
    exact ⟨own', parts'.heed _⟩

end Run

/-- Executing a request only adds to the types that are described. -/
theorem Execution.execute_grows {x : Execution} (state : ExecutionState) :
    x.host.Later state.registry (x.execute state).2.registry := by
  cases rooted : x.rootFields with
  | error e =>
    rw [execute, rooted]
    exact .refl _ _
  | ok fields =>
    rw [execute_rooted rooted]
    obtain ⟨polls, polled⟩ := Turn.settle_polls (x := x) (Turn.launch fields state)
    rw [polled]
    exact Run.polls_grow (Run.launch fields state) polls

end GraphQL
