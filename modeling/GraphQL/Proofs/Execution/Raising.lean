import GraphQL.Proofs.Execution.ErrorPlaces

/-!
# Where host code panics

`Raises` says at which paths a getter panics while a value is completed, given the types of a registry,
and `Execution.comesTo?` what the resolver of a root field comes to as the field advances, its own panics
included. Neither mentions the errors of an execution. What is raised is then found among them, at its
path and with the server to blame: `Raises.reported` for values, `advance_reports` for root fields and
`Run.PanicsAt.reported` for all fields of a run.
-/

namespace GraphQL

/-- Where a getter panics while a subject is completed at a path. -/
inductive Raises (x : Execution) (r : Registry) : Subject → ErrorPath → ErrorPath → Prop
  | getter {field : FieldPlan} {concrete : TypeDescriptor} {value owner : HostValue} {path : ErrorPath}
    {object : ObjectFields} {declared : FieldDescriptor} {message : String} (reads : field.Reads concrete object declared)
    (reached : object.navigate declared value = .ok owner) (panics : declared.read owner = .error (.panic message)) :
    Raises x r (.field field concrete value) path path
  | read {field : FieldPlan} {concrete : TypeDescriptor} {value owner : HostValue} {path there : ErrorPath}
    {object : ObjectFields} {declared : FieldDescriptor} {resolved : Resolved} (reads : field.Reads concrete object declared)
    (reached : object.navigate declared value = .ok owner) (got : declared.read owner = .ok resolved)
    (inner : Raises x r (.value field declared.type resolved) path there) :
    Raises x r (.field field concrete value) path there
  | item {field : FieldPlan} {item : TypeRef} {nullable : Bool} {items : List Resolved} {i : Nat} {value : Resolved}
    {path there : ErrorPath} (kept : (x.limits.keepItems items)[i]? = some value)
    (inner : Raises x r (.value field item value) (path.index i) there) :
    Raises x r (.value field (.list item nullable) (.list items)) path there
  | member {field : FieldPlan} {type : NamedType} {nullable : Bool} {value : HostValue} {path there : ErrorPath}
    {d : TypeDescriptor} {name : String} {memberType : TypeRef} {set : Resolved} (known : r.find? type = some d)
    (only : dereference d value = .ok (.member name memberType set))
    (inner : Raises x r (.value field memberType set) path there) :
    Raises x r (.value field (.named type nullable) (.host value)) path there
  | object {field f : FieldPlan} {type : NamedType} {nullable : Bool} {value : HostValue} {path there : ErrorPath}
    {concrete : TypeDescriptor} {fields : List FieldPlan} (is : r.Concrete type value concrete)
    (selected : x.collect field.selection (some concrete.type) = .ok fields) (mem : f ∈ fields)
    (inner : Raises x r (.field f concrete value) (path.field f.responseKey) there) :
    Raises x r (.value field (.named type nullable) (.host value)) path there

/-- An error at the path says that the server is to blame. -/
def Reports (path : ErrorPath) (es : List ResponseError) : Prop :=
  ∃ e ∈ es, e.path = some path ∧ e.code = .internalServerError

theorem Reports.mono {path : ErrorPath} {es es' : List ResponseError} (reports : Reports path es)
    (among : ∀ e ∈ es, e ∈ es') : Reports path es' := by
  obtain ⟨e, mem, rest⟩ := reports
  exact ⟨e, among e mem, rest⟩

/-! ## Values -/

namespace Execution

variable {x : Execution} {r : Registry}

/-- With the types of a registry, the computation leaves an error at the path. -/
abbrev ReportsAt (x : Execution) (r : Registry) (path : ErrorPath) (m : ExecM ResponseValue) : Prop :=
  ExecM.Yields x.host m fun later _ es => later = r → Reports path es

theorem fieldError_reports (message : String) (field : FieldPlan) (path : ErrorPath) :
    x.ReportsAt r path (ExecM.fieldError message .internalServerError field path) := by
  refine ExecM.yields_pushError.mono ?_
  rintro _ _ _ ⟨-, rfl⟩ -
  exact ⟨_, List.mem_singleton_self _, rfl, rfl⟩

/-- A type that is known by then has its descriptor. -/
theorem describe_reports {type : NamedType} {d : TypeDescriptor} (known : r.find? type = some d)
    {f : Except RegistrationError TypeDescriptor → ExecM ResponseValue} {path : ErrorPath}
    (whole : ExecM.Yields x.host (x.describe type >>= f) fun _ _ _ => True) (found : x.ReportsAt r path (f (.ok d))) :
    x.ReportsAt r path (x.describe type >>= f) := by
  intro s v s' ran
  obtain ⟨registry, errors, events, eq, grown, -, again⟩ := whole s v s' ran
  refine ⟨registry, errors, events, eq, grown, fun later after same => ?_, again⟩
  subst same
  -- what the computation comes to, it comes to again with the types that are known by then
  let t : ExecutionState := { s with registry := later, cancelled := false }
  have described : outcome (x.describe type) t = (.ok (.ok d), t) := by
    rw [describe, ExecM.outcome_onRegistry, Host.describe, Host.describeWithin_cached known]
  obtain ⟨_, _, described', ran'⟩ := outcome_bind_eq_ok.1 (again t after rfl)
  cases described.symm.trans described'
  obtain ⟨_, errors', _, eq', -, reports, -⟩ := found t v _ ran'
  have same : t.errors ++ errors = t.errors ++ errors' := congrArg ExecutionState.errors eq'
  have same' : later = _ := congrArg ExecutionState.registry eq'
  rw [List.append_cancel_left same]
  exact reports later (same' ▸ .refl _ _) rfl

section

variable {concrete : TypeDescriptor} {value owner : HostValue} {field : FieldPlan} {path there : ErrorPath} {depth : Nat}
  {object : ObjectFields} {declared : FieldDescriptor} {finish : Finish value}

/-- A field that reads from an object yields what reading yields. -/
theorem resolveField_reads {post : Registry → ResponseValue → List ResponseError → Prop}
    (reads : field.Reads concrete object declared)
    (read : ExecM.Yields x.host (readField object declared value field path depth finish) post) :
    ExecM.Yields x.host (x.resolveField concrete value field path depth finish) post := by
  unfold resolveField
  refine ExecM.Yields.after ExecM.yields_checkCancelled ?_
  refine ExecM.Yields.after (ExecM.yields_ofExcept fun _ _ _ => rfl) ?_
  cases reads with
  | objectField target has at' =>
    rw [target]
    simp only [has, at']
    exact read
  | interfaceField target has named =>
    rw [target]
    simp only [has, named]
    exact read

theorem readField_panics {message : String} (reached : object.navigate declared value = .ok owner)
    (panics : declared.read owner = .error (.panic message)) :
    x.ReportsAt r path (readField object declared value field path depth finish) := by
  rw [readField_failed field path depth finish reached panics]
  exact ExecM.Yields.after (ExecM.yields_note _) (fieldError_reports _ _ _)

theorem readField_gives {resolved : Resolved} {post : Registry → ResponseValue → List ResponseError → Prop}
    (reached : object.navigate declared value = .ok owner) (got : declared.read owner = .ok resolved)
    (inner : ∀ smaller, ExecM.Yields x.host (finish declared.type resolved smaller field path depth) post) :
    ExecM.Yields x.host (readField object declared value field path depth finish) post := by
  obtain ⟨smaller, eq⟩ := readField_got field path depth finish reached got
  rw [eq]
  exact ExecM.Yields.after (ExecM.yields_note _) (inner smaller)

/-- What a field of an object reports, the object reports. -/
theorem resolveObject_reports {parent : FieldPlan} {fields : List FieldPlan} {f : FieldPlan}
    (completes : x.FinishCompletes finish) (selected : x.collect parent.selection (some concrete.type) = .ok fields)
    (mem : f ∈ fields)
    (reports : x.ReportsAt r there
      (x.resolveField concrete value f (path.field f.responseKey) (depth + 1) finish)) :
    x.ReportsAt r there (x.resolveObject concrete value parent path depth finish) := by
  have one (field : FieldPlan) : ExecM.Yields x.host
      (x.resolveField concrete value field (path.field field.responseKey) (depth + 1) finish)
      fun later _ es => field = f → later = r → Reports there es := by
    by_cases same : field = f
    · subst same
      exact reports.mono fun _ _ _ holds _ => holds
    · exact (resolveField_completes completes concrete field _ _).mono fun _ _ _ _ eq => absurd eq same
  refine (resolveObject_each one).mono ?_
  rintro later data es ⟨fields', values, errors, selected', results, counts, -, rfl, each⟩ eq
  cases selected.symm.trans selected'
  obtain ⟨i, at'⟩ := List.getElem?_of_mem mem
  have bound : i < fields.length := (List.getElem?_eq_some_iff.1 at').1
  have value := List.getElem?_eq_getElem (l := values) (results ▸ bound)
  have own := List.getElem?_eq_getElem (l := errors) (counts ▸ bound)
  exact (each i f _ _ at' value own rfl eq).mono fun e mem =>
    List.mem_flatten.2 ⟨_, List.getElem_mem _, mem⟩

end

/-! ### Whole values -/

theorem dereference_union {d : TypeDescriptor} {value : HostValue} {name : String} {type : TypeRef} {set : Resolved}
    (only : dereference d value = .ok (.member name type set)) : ∃ object, d.kind = .union object := by
  unfold dereference at only
  split at only
  · next object kind => exact ⟨object, kind⟩
  · cases only

/-- What is read from a value is completed like any value. -/
def finishing (x : Execution) (whole : HostValue) : Finish whole :=
  fun type value _ field path depth => x.complete type value field path depth

theorem finishing_completes (whole : HostValue) : x.FinishCompletes (x.finishing whole) :=
  fun type value _ field path depth => complete_yields type value field path depth

section

variable {type : NamedType} {d concrete : TypeDescriptor} {value : HostValue} {field : FieldPlan}
  {path there : ErrorPath} {depth : Nat}

theorem completeHost_yields : ExecM.Yields x.host (x.completeHost type value field path depth (x.finishing value))
    fun _ _ _ => True :=
  (completeHost_completes (finishing_completes value) type true field path depth).mono fun _ _ _ _ => trivial

/-- A value with a concrete type reports what resolving its selection does. -/
theorem completeHost_concrete (is : r.Concrete type value concrete)
    (reports : x.ReportsAt r there (x.resolveObject concrete value field path depth (x.finishing value))) :
    x.ReportsAt r there (x.completeHost type value field path depth (x.finishing value)) := by
  cases is with
  | object known kind =>
    refine describe_reports known completeHost_yields ?_
    simp only
    split
    · next other => cases kind.symm.trans other
    · next other => cases kind.symm.trans other
    · exact reports
    · next other => cases kind.symm.trans other
    · next other => cases kind.symm.trans other
    · next other => cases kind.symm.trans other
  | interface known kind implements of =>
    refine describe_reports known completeHost_yields ?_
    simp only
    split
    · next other => cases kind.symm.trans other
    · next other => cases kind.symm.trans other
    · next other => cases kind.symm.trans other
    · next other => cases kind.symm.trans other
    · next other =>
      cases kind.symm.trans other
      rw [if_pos (List.contains_iff_mem.2 implements)]
      refine describe_reports of ((describe_yields _).bind fun result => ?_) reports
      cases result with
      | error e => exact ExecM.yields_pushError.mono fun _ _ _ _ _ _ => trivial
      | ok found =>
        exact (resolveObject_yields (finishing_completes value) type true found field path depth).mono
          fun _ _ _ _ _ _ => trivial
    · next other => cases kind.symm.trans other

theorem completeHost_member {name : String} {memberType : TypeRef} {set : Resolved} (known : r.find? type = some d)
    (only : dereference d value = .ok (.member name memberType set))
    (reports : x.ReportsAt r there (x.complete memberType set field path depth)) :
    x.ReportsAt r there (x.completeHost type value field path depth (x.finishing value)) := by
  refine describe_reports known completeHost_yields ?_
  simp only
  obtain ⟨object, kind⟩ := dereference_union only
  split
  · next other => cases kind.symm.trans other
  · next other => cases kind.symm.trans other
  · next other => cases kind.symm.trans other
  · split
    · next only' =>
      cases only.symm.trans only'
      exact reports
    · next unchanged => cases only.symm.trans unchanged
    · next failed => cases only.symm.trans failed
    · next failed => cases only.symm.trans failed
  · next other => cases kind.symm.trans other
  · next other => cases kind.symm.trans other

theorem complete_host {nullable : Bool}
    (reports : x.ReportsAt r there (x.completeHost type value field path depth (x.finishing value))) :
    x.ReportsAt r there (x.complete (.named type nullable) (.host value) field path depth) := by
  rw [complete]
  exact reports

/-- What an item of a list reports, the list reports. -/
theorem complete_item {item : TypeRef} {nullable : Bool} {items : List Resolved} {i : Nat} {value : Resolved}
    (kept : (x.limits.keepItems items)[i]? = some value)
    (reports : x.ReportsAt r there (x.complete item value field (path.index i) depth)) :
    x.ReportsAt r there (x.complete (.list item nullable) (.list items) field path depth) := by
  obtain ⟨bound, at'⟩ := List.getElem?_eq_some_iff.1 kept
  have entry : (x.limits.keepItems items).attach.zipIdx[i]? = some (⟨value, List.mem_of_getElem? kept⟩, i) := by
    rw [List.getElem?_zipIdx, List.getElem?_attach]
    simp [bound, at']
  have one (other : { r // r ∈ x.limits.keepItems items } × Nat) :
      ExecM.Yields x.host (x.complete item other.1.1 field (path.index other.2) depth)
        fun later _ es => other.1.1 = value ∧ other.2 = i → later = r → Reports there es := by
    by_cases same : other.1.1 = value ∧ other.2 = i
    · rw [same.1, same.2]
      exact reports.mono fun _ _ _ holds _ => holds
    · exact (complete_yields item other.1.1 field (path.index other.2) depth).mono fun _ _ _ _ eq => absurd eq same
  rw [complete]
  refine (ExecM.yields_mapM _ fun other _ => one other).bind fun values => ExecM.yields_pure ?_
  rintro later _ ⟨errors, rfl, results, counts, each⟩ eq
  rw [List.length_zipIdx, List.length_attach] at results counts
  have result := List.getElem?_eq_getElem (l := values) (results ▸ bound)
  have own := List.getElem?_eq_getElem (l := errors) (counts ▸ bound)
  exact (each i _ _ _ entry result own ⟨rfl, rfl⟩ eq).mono fun e mem =>
    List.mem_append_left _ (List.mem_flatten.2 ⟨_, List.getElem_mem _, mem⟩)

end

end Execution

/-- The computation that completes a subject at a path and depth. -/
def Execution.completing (x : Execution) (path : ErrorPath) (depth : Nat) : Subject → ExecM ResponseValue
  | .value f type value => x.complete type value f path depth
  | .field f concrete value => x.resolveField concrete value f path depth (x.finishing value)
  | .root _ | .response => pure .null

/-- Where a getter panics, completing the subject leaves an error. -/
theorem Raises.reported {x : Execution} {r : Registry} {subject : Subject} {path there : ErrorPath}
    (raises : Raises x r subject path there) (depth : Nat) : x.ReportsAt r there (x.completing path depth subject) := by
  induction raises generalizing depth with
  | getter reads reached panics => exact Execution.resolveField_reads reads (Execution.readField_panics reached panics)
  | read reads reached got _ ih =>
    exact Execution.resolveField_reads reads (Execution.readField_gives reached got fun _ => ih depth)
  | item kept _ ih => exact Execution.complete_item kept (ih depth)
  | member known only _ ih => exact Execution.complete_host (Execution.completeHost_member known only (ih depth))
  | object is selected mem _ ih =>
    exact Execution.complete_host (Execution.completeHost_concrete is
      (Execution.resolveObject_reports (Execution.finishing_completes _) selected mem (ih (depth + 1))))

/-! ## Root fields -/

/-- What the work is done with in a request that is cancelled or not, unless it gives way. -/
def Work.result? {α : Type} (cancelled : Bool) : Work α → Option (Except Failure α)
  | .done result => some result
  | .pause _ => none
  | .record _ next => next.result? cancelled
  | .cancel next => next.result? true
  | .awaitCancel next => if cancelled then next.result? cancelled else none
  | .askCancelled next => (next cancelled).result? cancelled

/-- Where host code of a root field panics if it comes to a result. -/
inductive FieldPlan.Raises (x : Execution) (r : Registry) (field : FieldPlan) : Except Failure Resolved → ErrorPath → Prop
  | caught {message : String} : Raises x r field (.error (.panic message)) field.rootPath
  | getter {value : Resolved} {there : ErrorPath}
    (raises : GraphQL.Raises x r (.value field field.type value) field.rootPath there) : Raises x r field (.ok value) there

namespace Execution

variable {x : Execution} {r : Registry} {field : FieldPlan} {there : ErrorPath}

/-- What reading the arguments of a root field and calling its resolver come to in a state, unless the
resolver gives way. -/
def calledTo? (x : Execution) (field : FieldPlan) (operation : OperationDescriptor) (resolver : Resolver Resolved)
    (s : ExecutionState) : Option (Except Failure Resolved) :=
  match (outcome (operation.parseArguments x.inputContext field.arguments) s.registry).1 with
  | .error failure => some (.error failure)
  | .ok arguments =>
    match resolver arguments with
    | .error message => some (.error (.panic message))
    | .ok work => work.result? s.cancelled

/-- What the host code of a root field comes to if the field is finished from a task in a state. -/
def comesTo? (x : Execution) (field : FieldPlan) (s : ExecutionState) : RootTask → Option (Except Failure Resolved)
  | .fresh | .queued =>
    match field.target with
    | .operation operation =>
      match operation.resolver with
      | .field resolver => x.calledTo? field operation resolver s
      | .stream _ => none
    | _ => none
  | .working work => work.result? s.cancelled
  | .done _ | .failed _ => none

theorem completeRoot_reports {result : Except Failure Resolved} (raises : field.Raises x r result there) :
    x.ReportsAt r there (x.completeRoot field result) := by
  cases raises with
  | caught => exact fieldError_reports _ _ _
  | getter raises => exact raises.reported 1

section

variable {s s' : ExecutionState} {task : RootTask} (later : x.host.Later s'.registry r)

include later

theorem finish_reports {m : ExecM ResponseValue} (reports : x.ReportsAt r there m)
    (ran : outcome (ExecM.releaseSlot >>= fun _ => m >>= field.finish) s = (.ok task, s')) :
    ∃ es, s'.errors = s.errors ++ es ∧ Reports there es := by
  have finishes : ExecM.Yields x.host (m >>= field.finish) fun later _ es => later = r → Reports there es := by
    refine reports.bind fun v => ExecM.Yields.after (ExecM.yields_note _) (ExecM.yields_pure fun _ before holds => ?_)
    rw [List.append_nil]
    exact holds
  have released : ExecM.Advances x.host ExecM.releaseSlot fun _ _ es => es = [] := ExecM.advances_releaseSlot
  obtain ⟨es, eq, -, -, holds, -⟩ := ExecM.Advances.after released finishes.advances s task s' ran
  exact ⟨es, eq, holds r later rfl⟩

/-- Work that panics, or comes to a value in which a getter does, leaves an error. -/
theorem work_reports {result : Except Failure Resolved} (raises : field.Raises x r result there) {work : Work Resolved}
    (ends : work.result? s.cancelled = some result) (ran : outcome (x.work field work) s = (.ok task, s')) :
    ∃ es, s'.errors = s.errors ++ es ∧ Reports there es := by
  induction work generalizing s with
  | done =>
    cases ends
    exact finish_reports later (completeRoot_reports raises) ran
  | pause => cases ends
  | record entry next ih =>
    exact ih (s := { s with journal := s.journal ++ [entry] }) ends ran
  | cancel next ih => exact ih (s := { s with cancelled := true }) ends ran
  | awaitCancel next ih =>
    rw [Execution.work, outcome_bind, outcome_get] at ran
    simp only at ran
    rw [Work.result?] at ends
    split at ends
    · next cancelled =>
      rw [if_pos cancelled] at ran
      exact ih ends ran
    · cases ends
  | askCancelled next ih => exact ih s.cancelled ends ran

theorem call_reports {result : Except Failure Resolved} (raises : field.Raises x r result there)
    {operation : OperationDescriptor} {resolver : Resolver Resolved}
    (comes : x.calledTo? field operation resolver s = some result)
    (ran : outcome (x.call field operation resolver) s = (.ok task, s')) :
    ∃ es, s'.errors = s.errors ++ es ∧ Reports there es := by
  have panicked (message : String) (same : result = .error (.panic message)) :
      x.ReportsAt r there (field.panicked message) := by
    subst same
    cases raises
    exact fieldError_reports _ _ _
  unfold call at ran
  obtain ⟨read, u, parsed, ran⟩ := outcome_bind_eq_ok.1 ran
  rw [ExecM.outcome_onRegistry] at parsed
  obtain ⟨parsed, rfl⟩ := Prod.mk.inj parsed
  cases parsed
  unfold calledTo? at comes
  split at comes
  · next failure failed =>
    rw [failed] at ran
    cases comes
    cases failure with
    | error e => cases raises
    | panic message =>
      have reported := finish_reports later (panicked message rfl) ran
      exact reported
  · next arguments ok =>
    rw [ok] at ran
    obtain ⟨_, u, noted, ran⟩ := outcome_bind_eq_ok.1 ran
    cases noted
    split at comes
    · next message called =>
      rw [called] at ran
      cases comes
      have reported := finish_reports later (panicked message rfl) ran
      exact reported
    · next work called =>
      rw [called] at ran
      have reported := work_reports later raises (by exact comes) ran
      exact reported

/-- A root field that waits and is finished has been called. -/
theorem withResolver_reports {result : Except Failure Resolved} (raises : field.Raises x r result there)
    (comes : x.comesTo? field s .queued = some result) {v : ResponseValue}
    (ran : outcome (x.withResolver field (x.enter field)) s = (.ok (.done v), s')) :
    ∃ es, s'.errors = s.errors ++ es ∧ Reports there es := by
  unfold withResolver at ran
  unfold comesTo? at comes
  simp only at comes
  split at comes
  · next operation target =>
    rw [target] at ran
    simp only at ran
    split at comes
    · next resolver calls =>
      rw [calls] at ran
      simp only at ran
      rw [outcome_enter] at ran
      split at ran
      · cases ran
      · split at ran
        · cases ran
        · next slots free => exact call_reports later raises (s := { s with slots }) comes ran
    · cases comes
  · cases comes

/-- As a root field is finished, what its host code raises is reported. -/
theorem advance_reports {result : Except Failure Resolved} (raises : field.Raises x r result there)
    (comes : x.comesTo? field s task = some result) {v : ResponseValue}
    (ran : outcome (x.advance field task) s = (.ok (.done v), s')) :
    ∃ es, s'.errors = s.errors ++ es ∧ Reports there es := by
  cases task with
  | fresh =>
    have admits := start_admits ran
    have same : x.comesTo? field (counting s field) .queued = x.comesTo? field s .fresh := by
      unfold comesTo? calledTo?
      rw [counting_registry, counting_cancelled]
    rw [← counting_errors s field]
    exact withResolver_reports later raises (same.trans comes) ((outcome_start admits).symm.trans ran)
  | queued => exact withResolver_reports later raises comes ran
  | working work => exact work_reports later raises comes ran
  | done _ => cases comes
  | failed _ => cases comes

end

theorem advance_grows {s s' : ExecutionState} {task task' : RootTask}
    (ran : outcome (x.advance field task) s = (.ok task', s')) :
    (∃ es, s'.errors = s.errors ++ es) ∧ x.host.Later s.registry s'.registry := by
  by_cases done : ∃ v, task = .done v
  · obtain ⟨v, rfl⟩ := done
    cases ran
    exact ⟨⟨[], (List.append_nil _).symm⟩, .refl _ _⟩
  · have shown : task.Shows x s.registry field [] := by
      cases task with
      | done v => exact absurd ⟨v, rfl⟩ done
      | _ => rfl
    obtain ⟨es, eq, grown, -⟩ := advance_shows shown ran
    exact ⟨⟨es, eq⟩, grown⟩

end Execution

/-! ## Runs -/

namespace Run

variable {x : Execution} {r : Registry} {run run' : Run} {polls : List Nat} {there : ErrorPath}

theorem Steps.grows (steps : Steps x run run') :
    (∃ es, run'.state.errors = run.state.errors ++ es) ∧ x.host.Later run.state.registry run'.state.registry := by
  induction steps with
  | refl => exact ⟨⟨[], (List.append_nil _).symm⟩, .refl _ _⟩
  | tail _ step ih =>
    obtain ⟨⟨es, eq⟩, grown⟩ := ih
    cases step with
    | advance at' ran =>
      obtain ⟨⟨es', eq'⟩, grown'⟩ := Execution.advance_grows ran
      exact ⟨⟨es ++ es', by rw [eq', eq, List.append_assoc]⟩, grown.trans grown'⟩

/-- Host code panics at a path as the fields of a run are polled in an order: in what finishes one of them. -/
inductive PanicsAt (x : Execution) (r : Registry) : Run → List Nat → ErrorPath → Prop
  | here {run : Run} {i : Nat} {rest : List Nat} {field : FieldPlan} {task : RootTask} {v : ResponseValue}
    {s : ExecutionState} {result : Except Failure Resolved} {there : ErrorPath} (ongoing : run.aborted = none)
    (at' : run.tasks[i]? = some (field, task)) (ready : run.isReady x.plan.kind i = true)
    (ran : outcome (x.advance field task) run.state = (.ok (.done v), s))
    (comes : x.comesTo? field run.state task = some result) (raises : field.Raises x r result there) :
    PanicsAt x r run (i :: rest) there
  | later {run : Run} {i : Nat} {rest : List Nat} {there : ErrorPath}
    (panics : PanicsAt x r (run.poll x i) rest there) : PanicsAt x r run (i :: rest) there

/-- What is raised in a run that succeeds is among its errors. -/
theorem PanicsAt.reported (panics : PanicsAt x r run polls there) (sound : (polls.foldl (Run.poll x) run).Sound)
    (described : (polls.foldl (Run.poll x) run).state.registry = r) :
    Reports there (polls.foldl (Run.poll x) run).state.errors := by
  induction panics with
  | @here run i rest field task v s result there ongoing at' ready ran comes raises =>
    rw [List.foldl_cons] at sound described ⊢
    obtain ⟨sound', steps⟩ := polls_steps sound
    obtain ⟨⟨es, eq⟩, grown⟩ := steps.grows
    have polled : (Run.poll x run i).state = s := by
      rw [poll_eq ongoing at' ready ran] at sound' ⊢
      rw [heed_sound sound']
    rw [polled, described] at grown
    obtain ⟨own, eq', reports⟩ := Execution.advance_reports grown raises comes ran
    rw [eq, polled, eq']
    exact reports.mono fun e mem => List.mem_append_left _ (List.mem_append_right _ mem)
  | later _ ih => exact ih sound described

end Run

/-! ## Responses -/

end GraphQL
