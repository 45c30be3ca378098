import GraphQL.Proofs.Execution.ErrorPlaces
import GraphQL.Proofs.Execution.Independence
import GraphQL.Proofs.Execution.Serial
import GraphQL.Proofs.Execution.Verdicts
import GraphQL.Proofs.Input.Reading

/-!
# Arguments are vetted before the resolver is called

What a request has done for one root field is told by the response key of the field: the calls under that key,
and the errors at or below it. A leg of another field leaves both alone, and `Stage.Vetted` says what they are at
each stage of the field itself. So whatever else a run does, in the end the resolver of the field was called if
the arguments were read and everything in them is valid, and otherwise it was not called.
-/

namespace GraphQL

/-- Whether the event is the call of a resolver under a response key. -/
def ExecutionEvent.isCallFor (key : String) : ExecutionEvent → Bool
  | called key' .. => key' = key
  | _ => false

/-- Whether the error is at a root field or below it. -/
def ResponseError.isFor (key : String) (e : ResponseError) : Bool := e.path.bind (·.head?) = some (.key key)

namespace ExecutionState

/-- The resolvers called under a response key, latest first. -/
def callsFor (key : String) (s : ExecutionState) : List ExecutionEvent := s.events.filter (·.isCallFor key)

/-- The errors at a root field and below it. -/
def errorsFor (key : String) (s : ExecutionState) : List ResponseError := s.errors.filter (·.isFor key)

theorem callsFor_noting_called {key : String} {s : ExecutionState} {operation : String} {arguments : List Resolved} :
    (s.noting (.called key operation arguments)).callsFor key = .called key operation arguments :: s.callsFor key := by
  simp [callsFor, noting, ExecutionEvent.isCallFor]

theorem callsFor_noting_other {key : String} {s : ExecutionState} {event : ExecutionEvent}
    (other : event.isCallFor key = false) : (s.noting event).callsFor key = s.callsFor key := by
  simp [callsFor, noting, other]

end ExecutionState

/-- The error of a root field whose arguments are not accepted. -/
def FieldPlan.invalid (field : FieldPlan) (e : HostError) : ResponseError :=
  ((ResponseError.ofHost e .validationError).located field.location).within field.rootPath

/-- Whether the resolver was called. -/
def Stage.Begun : Stage → Prop
  | .task (.working _) | .task (.done _) | .ending (.result _) => True
  | _ => False

/-- What was called for a root field and which errors it has, given what parsing its arguments comes to. -/
inductive Stage.Vetted (field : FieldPlan) (operation : OperationDescriptor) (parsed : Except Failure (List Resolved)) :
    Stage → List ExecutionEvent → List ResponseError → Prop
  | fresh : Vetted field operation parsed (.task .fresh) [] []
  | queued : Vetted field operation parsed (.task .queued) [] []
  | entered {resolver : Resolver Resolved} : Vetted field operation parsed (.entered operation resolver) [] []
  | refused {failure : Failure} (failed : parsed = .error failure) :
    Vetted field operation parsed (.ending (.ofFailure failure)) [] []
  | null {failure : Failure} {v : ResponseValue} {es : List ResponseError} (failed : parsed = .error failure)
    (nulled : ∀ e, failure = .error e → v = .null ∧ es = [field.invalid e]) :
    Vetted field operation parsed (.task (.done v)) [] es
  | called {stage : Stage} {arguments : List Resolved} {es : List ResponseError} (passed : parsed = .ok arguments)
    (begun : stage.Begun) :
    Vetted field operation parsed stage [.called field.responseKey operation.name arguments] es
  | failed {abort : Abort} {calls : List ExecutionEvent} {es : List ResponseError} :
    Vetted field operation parsed (.task (.failed abort)) calls es

section

variable {x : Execution} {field : FieldPlan} {operation : OperationDescriptor} {resolver : Resolver Resolved}
  {key : String} {s s' : ExecutionState} {here there : Stage × ExecutionState}

/-! ## One field -/

theorem isFor_rootPath {e : ResponseError} {rest : ErrorPath} (placed : e.path = some (field.rootPath ++ rest)) :
    e.isFor key = decide (field.responseKey = key) := by
  rw [ResponseError.isFor, placed]
  simp [FieldPlan.rootPath, ErrorPath.root]

/-- Answering a root field calls no resolver, and its errors are at the field or below. -/
theorem answer_views {ending : Ending} {result : Except Abort ResponseValue}
    (ran : outcome (x.answer field ending) s = (result, s')) :
    s'.callsFor key = s.callsFor key ∧ (field.responseKey ≠ key → s'.errorsFor key = s.errorsFor key) := by
  obtain ⟨registry, errors, events, eq, -, collects, runs, -⟩ := @Execution.answer_conducts x field ending s
  rw [ran] at eq
  simp only at eq
  subst eq
  constructor
  · have none : events.filter (·.isCallFor key) = [] := by
      refine List.filter_eq_nil_iff.2 fun event mem => ?_
      obtain ⟨rest, name, rfl⟩ := runs event mem
      exact Bool.false_ne_true
    change (events ++ s.events).filter (·.isCallFor key) = _
    rw [List.filter_append, none]
    rfl
  · intro other
    have none : errors.filter (·.isFor key) = [] := by
      refine List.filter_eq_nil_iff.2 fun e mem => ?_
      obtain ⟨rest, placed⟩ := collects e mem
      rw [isFor_rootPath placed]
      simpa using other
    change (s.errors ++ errors).filter (·.isFor key) = _
    rw [List.filter_append, none, List.append_nil]
    rfl

theorem counting_callsFor (s : ExecutionState) (field : FieldPlan) :
    (Execution.counting s field).callsFor key = s.callsFor key := by
  unfold ExecutionState.callsFor
  rw [Execution.counting_events]

theorem counting_errorsFor (s : ExecutionState) (field : FieldPlan) :
    (Execution.counting s field).errorsFor key = s.errorsFor key := by
  unfold ExecutionState.errorsFor
  rw [Execution.counting_errors]

/-- A leg of another field does not show under a key. -/
theorem Leg.apart (leg : Leg x field here there) (other : field.responseKey ≠ key) :
    there.2.callsFor key = here.2.callsFor key ∧ there.2.errorsFor key = here.2.errorsFor key := by
  have unseen (name : String) (arguments : List Resolved) :
      (ExecutionEvent.called field.responseKey name arguments).isCallFor key = false := decide_eq_false other
  cases leg with
  | tooComplex _ | admitted _ => exact ⟨counting_callsFor _ _, counting_errorsFor _ _⟩
  | panicked _ _ | call _ _ => exact ⟨ExecutionState.callsFor_noting_other (unseen _ _), rfl⟩
  | finish ran => exact (answer_views ran).imp_right fun errors => errors other
  | fail ran => exact (answer_views ran).imp_right fun errors => errors other
  | _ => exact ⟨rfl, rfl⟩

theorem Legs.apart (legs : Legs x field here there) (other : field.responseKey ≠ key) :
    there.2.callsFor key = here.2.callsFor key ∧ there.2.errorsFor key = here.2.errorsFor key := by
  induction legs with
  | refl => exact ⟨rfl, rfl⟩
  | tail _ leg ih =>
    obtain ⟨calls, errors⟩ := leg.apart other
    exact ⟨calls.trans ih.1, errors.trans ih.2⟩

section

variable {R : Registry} {parsed : Except Failure (List Resolved)} {calls : List ExecutionEvent} {es : List ResponseError}

/-- A field whose arguments are not accepted is null. -/
theorem refused_nulled {failure : Failure} {v : ResponseValue}
    (ran : outcome (x.answer field (.ofFailure failure)) s = (.ok v, s')) (none : s.errorsFor field.responseKey = []) :
    ∀ e, failure = .error e → v = .null ∧ s'.errorsFor field.responseKey = [field.invalid e] := by
  rintro e rfl
  have failed : outcome (x.answer field (.ofFailure (.error e))) s =
      (.ok .null, { s with errors := s.errors ++ [field.invalid e] }) := rfl
  cases failed.symm.trans ran
  refine ⟨rfl, ?_⟩
  have own : (field.invalid e).isFor field.responseKey = true := by
    have placed : (field.invalid e).path = some (field.rootPath ++ []) := rfl
    rw [isFor_rootPath placed]
    exact decide_eq_true rfl
  change (s.errors ++ [field.invalid e]).filter (·.isFor field.responseKey) = _
  rw [List.filter_append, show s.errors.filter (·.isFor field.responseKey) = [] from none]
  simp [own]

theorem Stage.Vetted.of_eq {stage : Stage} {calls' : List ExecutionEvent} {es' : List ResponseError}
    (vetted : stage.Vetted field operation parsed calls es) (same : calls' = calls)
    (same' : es' = es) : stage.Vetted field operation parsed calls' es' := by
  rwa [same, same']

section

variable (target : field.target = .operation operation) (plain : operation.resolver = .field resolver)
  (gives : InputM.Gives x.host R (operation.parseArguments x.inputContext field.arguments) parsed)

include target plain gives

/-- A leg of the field keeps track of what was called and which errors there are. -/
theorem Leg.vetted (leg : Leg x field here there) (covers : x.host.Covers there.2.registry R)
    (vetted : here.1.Vetted field operation parsed calls es) (called : here.2.callsFor field.responseKey = calls)
    (errors : here.2.errorsFor field.responseKey = es) :
    there.1.Vetted field operation parsed (there.2.callsFor field.responseKey) (there.2.errorsFor field.responseKey) := by
  -- the arguments come to the same whenever they are parsed
  have parses {r r' : Registry} {result : Except Failure (List Resolved)}
      (read : outcome (operation.parseArguments x.inputContext field.arguments) r = (result, r'))
      (covers : x.host.Covers r' R) : parsed = result := by
    rw [← gives r (by rwa [read]), read]
  cases leg with
  | cancelled _ | tooDeep _ | tooComplex _ | foreign _ _ | interrupted _ | fail _ => exact .failed
  | admitted _ =>
    rw [counting_callsFor, counting_errorsFor, called, errors]
    cases vetted with
    | fresh => exact .queued
    | called _ begun => cases begun
  | typename other => cases target.symm.trans other
  | misplaced target' streams =>
    cases target.symm.trans target'
    cases plain.symm.trans streams
  | enter target' _ _ =>
    cases target.symm.trans target'
    cases vetted with
    | queued => exact .of_eq .entered called errors
    | called _ begun => cases begun
  | unread read =>
    cases vetted with
    | entered => exact .of_eq (.refused (parses read covers)) called errors
    | called _ begun => cases begun
  | panicked read _ =>
    cases vetted with
    | entered =>
      refine .of_eq (.called (parses read covers) trivial) ?_ rfl
      exact ExecutionState.callsFor_noting_called.trans (congrArg _ called)
    | called _ begun => cases begun
  | call read _ =>
    cases vetted with
    | entered =>
      refine .of_eq (.called (parses read covers) trivial) ?_ rfl
      exact ExecutionState.callsFor_noting_called.trans (congrArg _ called)
    | called _ begun => cases begun
  | done | pause | record | cancel | awake _ | ask =>
    cases vetted with
    | called passed _ => exact .of_eq (.called passed trivial) called rfl
  | @finish s s' ending v ran =>
    have same : (s'.noting (.finished field.responseKey)).callsFor field.responseKey = s.callsFor field.responseKey :=
      (ExecutionState.callsFor_noting_other rfl).trans (answer_views ran).1
    cases vetted with
    | refused failed => exact .of_eq (.null failed (refused_nulled ran errors)) (same.trans called) rfl
    | called passed _ => exact .of_eq (.called passed trivial) (same.trans called) rfl

theorem Legs.vetted (legs : Legs x field here there) (covers : x.host.Covers there.2.registry R)
    (vetted : here.1.Vetted field operation parsed (here.2.callsFor field.responseKey)
      (here.2.errorsFor field.responseKey)) :
    there.1.Vetted field operation parsed (there.2.callsFor field.responseKey)
      (there.2.errorsFor field.responseKey) := by
  induction legs with
  | refl => exact vetted
  | tail _ leg ih => exact leg.vetted target plain gives covers (ih (covers.after leg.grows)) rfl rfl

end

end

end

/-! ## All fields of a run -/

namespace Run

variable {x : Execution} {R : Registry} {run run' : Run}

/-- Every field of a run whose operation has a resolver is vetted. -/
def Vetted (x : Execution) (R : Registry) (run : Run) : Prop :=
  ∀ field task operation resolver parsed, (field, task) ∈ run.tasks → field.target = .operation operation →
    operation.resolver = .field resolver →
    InputM.Gives x.host R (operation.parseArguments x.inputContext field.arguments) parsed →
      Stage.Vetted field operation parsed (.task task) (run.state.callsFor field.responseKey)
        (run.state.errorsFor field.responseKey)

theorem heed_callsFor (kind : OperationKind) (run : Run) (key : String) :
    (heed kind run).state.callsFor key = run.state.callsFor key := by
  unfold heed
  split <;> rfl

theorem heed_errorsFor (kind : OperationKind) (run : Run) (key : String) :
    (heed kind run).state.errorsFor key = run.state.errorsFor key := by
  unfold ExecutionState.errorsFor
  rw [heed_errors]

/-- A poll advances one field, and leaves alone what is told of the others. -/
theorem Poll.vetted (poll : Poll x run run') (distinct : (run.tasks.map (·.1.responseKey)).Nodup)
    (covers : x.host.Covers run'.state.registry R) (vetted : run.Vetted x R) : run'.Vetted x R := by
  cases poll with
  | idle => exact vetted
  | @advance i field task task' s ongoing at' ready legs =>
    rw [heed_registry] at covers
    intro other t operation resolver parsed mem target plain gives
    rw [heed_tasks] at mem
    rw [heed_callsFor, heed_errorsFor]
    obtain ⟨j, atj⟩ := List.getElem?_of_mem mem
    by_cases same : i = j
    · subst same
      rw [List.getElem?_set_self (List.getElem?_eq_some_iff.1 at').1] at atj
      cases atj
      exact legs.vetted target plain gives covers (vetted _ _ _ _ _ (List.mem_of_getElem? at') target plain gives)
    · rw [List.getElem?_set_ne same] at atj
      have apart : field.responseKey ≠ other.responseKey := by
        intro equal
        refine same ((List.getElem?_inj ?_ distinct).1 ?_)
        · rw [List.length_map]
          exact (List.getElem?_eq_some_iff.1 at').1
        · rw [List.getElem?_map, List.getElem?_map, at', atj]
          exact congrArg some equal
      obtain ⟨calls, errors⟩ := legs.apart apart
      exact .of_eq (vetted _ _ _ _ _ (List.mem_of_getElem? atj) target plain gives) calls errors

end Run

/-! ## Requests -/

namespace Execution

variable {x : Execution} {state : ExecutionState}

end Execution

end GraphQL
