import GraphQL.Proofs.Execution.Depths
import GraphQL.Proofs.Execution.Raising
import GraphQL.Proofs.Execution.Settling

/-!
# Mutations run in order

The host code that a mutation runs is a sequence of parts, one for each root field in selection order: the
call of its resolver, the getters that are called as its value is completed, and the end of the field. Only
the last part may be incomplete. `Stage.Traced` says what the part of one field is, `Serial` puts the parts
together, and a poll keeps both.
-/

namespace GraphQL

namespace FieldPlan

/-- What is run before a value of a root field is completed: its resolver, if it has one. -/
inductive Begins (field : FieldPlan) : List ExecutionEvent → Prop
  | uncalled : Begins field []
  | called {operation : OperationDescriptor} {arguments : List Resolved} (target : field.target = .operation operation) :
    Begins field [.called field.responseKey operation.name arguments]

/-- The getters called for a value of a root field. -/
def Gets (field : FieldPlan) (events : List ExecutionEvent) : Prop :=
  ∀ event ∈ events, ∃ rest name, event = .read (field.rootPath ++ rest) name

end FieldPlan

/-- The host code run for a root field by a stage, in the order in which it was run. -/
inductive Stage.Traced (field : FieldPlan) : Stage → List ExecutionEvent → Prop
  | fresh : Traced field (.task .fresh) []
  | queued : Traced field (.task .queued) []
  | entered {operation : OperationDescriptor} {resolver : Resolver Resolved}
    (target : field.target = .operation operation) : Traced field (.entered operation resolver) []
  | working {work : Work Resolved} {operation : OperationDescriptor} {arguments : List Resolved}
    (target : field.target = .operation operation) :
    Traced field (.task (.working work)) [.called field.responseKey operation.name arguments]
  | ending {ending : Ending} {before : List ExecutionEvent} (begins : field.Begins before) :
    Traced field (.ending ending) before
  | done {v : ResponseValue} {before reads : List ExecutionEvent} (begins : field.Begins before)
    (gets : field.Gets reads) :
    Traced field (.task (.done v)) (before ++ reads ++ [.finished field.responseKey])
  | failed {abort : Abort} {before reads : List ExecutionEvent} (begins : field.Begins before)
    (gets : field.Gets reads) : Traced field (.task (.failed abort)) (before ++ reads)

section

variable {x : Execution} {field : FieldPlan} {earlier own : List ExecutionEvent}

theorem FieldPlan.gets_nil (field : FieldPlan) : field.Gets [] := fun _ mem => absurd mem List.not_mem_nil

/-- A field that failed before anything was run for it. -/
theorem Stage.Traced.unstarted {abort : Abort} : Stage.Traced field (.task (.failed abort)) [] :=
  .failed .uncalled field.gets_nil

theorem answer_gets {ending : Ending} {s s' : ExecutionState} {result : Except Abort ResponseValue}
    (ran : outcome (x.answer field ending) s = (result, s')) :
    ∃ reads, field.Gets reads ∧ s'.events = reads.reverse ++ s.events := by
  obtain ⟨registry, es, evs, eq, -, -, runs, -⟩ := @Execution.answer_conducts x field ending s
  rw [ran] at eq
  simp only at eq
  subst eq
  refine ⟨evs.reverse, fun event mem => runs event (List.mem_reverse.1 mem), ?_⟩
  rw [List.reverse_reverse]
  rfl

/-- A leg adds to what was run for its field. -/
theorem Leg.traced {here there : Stage × ExecutionState} (leg : Leg x field here there)
    (traced : here.1.Traced field own) (logged : here.2.events = own.reverse ++ earlier) :
    ∃ own', there.1.Traced field own' ∧ there.2.events = own'.reverse ++ earlier := by
  cases leg with
  | cancelled _ | tooDeep _ =>
    cases traced
    exact ⟨[], .unstarted, logged⟩
  | tooComplex _ =>
    cases traced
    refine ⟨[], .unstarted, ?_⟩
    rw [← logged]
    exact Execution.counting_events _ _
  | admitted _ =>
    cases traced
    refine ⟨[], .queued, ?_⟩
    rw [← logged]
    exact Execution.counting_events _ _
  | foreign _ _ | interrupted _ =>
    cases traced
    exact ⟨[], .unstarted, logged⟩
  | typename _ | misplaced _ _ =>
    cases traced
    exact ⟨[], .ending .uncalled, logged⟩
  | enter target _ _ =>
    cases traced
    exact ⟨[], .entered target, logged⟩
  | unread _ =>
    cases traced
    exact ⟨[], .ending .uncalled, logged⟩
  | panicked _ _ =>
    cases traced with
    | entered target => exact ⟨_, .ending (.called target), congrArg (_ :: ·) logged⟩
  | call _ _ =>
    cases traced with
    | entered target => exact ⟨_, .working target, congrArg (_ :: ·) logged⟩
  | done =>
    cases traced with
    | working target => exact ⟨_, .ending (.called target), logged⟩
  | pause | record | cancel | awake _ | ask =>
    cases traced with
    | working target => exact ⟨_, .working target, logged⟩
  | finish ran =>
    cases traced with
    | ending begins =>
      obtain ⟨reads, gets, eq⟩ := answer_gets ran
      simp only at logged
      refine ⟨_, .done begins gets, ?_⟩
      simp [ExecutionState.noting, eq, logged]
  | fail ran =>
    cases traced with
    | ending begins =>
      obtain ⟨reads, gets, eq⟩ := answer_gets ran
      simp only at logged
      refine ⟨_, .failed begins gets, ?_⟩
      simp [eq, logged]

theorem Legs.traced {here there : Stage × ExecutionState} (legs : Legs x field here there)
    (traced : here.1.Traced field own) (logged : here.2.events = own.reverse ++ earlier) :
    ∃ own', there.1.Traced field own' ∧ there.2.events = own'.reverse ++ earlier := by
  induction legs with
  | refl => exact ⟨own, traced, logged⟩
  | tail _ leg ih =>
    obtain ⟨own', traced', logged'⟩ := ih
    exact leg.traced traced' logged'

/-- Nothing goes on from a field that is done or has failed. -/
theorem Legs.ended {task : RootTask} {s : ExecutionState} {there : Stage × ExecutionState}
    (legs : Legs x field (.task task, s) there) (ended : task.value?.isSome ∨ task.abort?.isSome) :
    there = (.task task, s) := by
  cases legs.cases_head with
  | inl same => exact same.symm
  | inr first =>
    obtain ⟨_, leg, _⟩ := first
    cases leg <;> simp [RootTask.value?, RootTask.abort?] at ended

end

/-! ## Root fields in order -/

/-- The host code run for some root fields one after the other: the first ones are done, at most one is on its
way or has failed, and nothing was run for the others, which have not begun. -/
inductive Serial : List (FieldPlan × RootTask) → List ExecutionEvent → Prop
  | nil : Serial [] []
  | current {field : FieldPlan} {task : RootTask} {rest : List (FieldPlan × RootTask)} {own : List ExecutionEvent}
    (traced : Stage.Traced field (.task task) own) (undone : task.value? = none) (others : ∀ entry ∈ rest, entry.2 = .fresh) :
    Serial ((field, task) :: rest) own
  | next {field : FieldPlan} {v : ResponseValue} {rest : List (FieldPlan × RootTask)} {own more : List ExecutionEvent}
    (traced : Stage.Traced field (.task (.done v)) own) (serial : Serial rest more) :
    Serial ((field, .done v) :: rest) (own ++ more)

namespace Serial

variable {x : Execution} {tasks : List (FieldPlan × RootTask)} {trace earlier : List ExecutionEvent}

theorem fresh (unbegun : ∀ entry ∈ tasks, entry.2 = .fresh) : Serial tasks [] := by
  cases tasks with
  | nil => exact .nil
  | cons entry rest =>
    obtain ⟨first, others⟩ := List.forall_mem_cons.1 unbegun
    obtain ⟨field, task⟩ := entry
    simp only at first
    subst first
    exact .current .fresh rfl others

/-- Around a field that is not done, the fields before are done and those after have not begun. -/
theorem apart (serial : Serial tasks trace) {i : Nat} {field : FieldPlan} {task : RootTask}
    (at' : tasks[i]? = some (field, task)) (undone : task.value? = none) (begun : task ≠ .fresh) :
    (∀ entry ∈ tasks.take i, entry.2.value?.isSome) ∧ ∀ entry ∈ tasks.drop (i + 1), entry.2 = .fresh := by
  induction serial generalizing i with
  | nil => simp at at'
  | current _ _ others =>
    cases i with
    | zero => exact ⟨fun _ mem => absurd mem List.not_mem_nil, others⟩
    | succ i => exact absurd (others _ (List.mem_of_getElem? at')) begun
  | next _ _ ih =>
    cases i with
    | zero =>
      cases at'
      cases undone
    | succ i =>
      obtain ⟨before, after⟩ := ih at'
      refine ⟨fun entry mem => ?_, after⟩
      rw [List.take_succ_cons] at mem
      rcases List.mem_cons.1 mem with rfl | mem
      · rfl
      · exact before entry mem

/-- When it is the turn of a field, advancing it adds to what was run. -/
theorem advance (serial : Serial tasks trace) {i : Nat} {field : FieldPlan} {task task' : RootTask}
    {s s' : ExecutionState} (at' : tasks[i]? = some (field, task)) (ready : ∀ entry ∈ tasks.take i, entry.2.value?.isSome)
    (legs : Legs x field (.task task, s) (.task task', s')) (logged : s.events = trace.reverse ++ earlier) :
    ∃ trace', Serial (tasks.set i (field, task')) trace' ∧ s'.events = trace'.reverse ++ earlier := by
  induction serial generalizing i earlier with
  | nil => simp at at'
  | @current field' task'' rest own traced undone others =>
    cases i with
    | zero =>
      cases at'
      obtain ⟨own', traced', logged'⟩ := legs.traced traced logged
      refine ⟨own', ?_, logged'⟩
      rw [List.set_cons_zero]
      cases task' with
      | done v =>
        have whole : Serial ((field, .done v) :: rest) (own' ++ []) := .next traced' (.fresh others)
        rwa [List.append_nil] at whole
      | _ => exact .current traced' rfl others
    | succ i =>
      have first := ready _ (List.mem_cons_self (l := rest.take i))
      rw [undone] at first
      cases first
  | @next field' v rest own more traced _ ih =>
    cases i with
    | zero =>
      cases at'
      have same := legs.ended (Or.inl rfl)
      cases same
      exact ⟨own ++ more, .next traced ‹_›, logged⟩
    | succ i =>
      rw [List.reverse_append, List.append_assoc] at logged
      obtain ⟨more', serial', logged'⟩ := ih at' (fun entry mem => ready entry (List.mem_cons_of_mem _ mem)) logged
      refine ⟨own ++ more', .next traced serial', ?_⟩
      rw [List.reverse_append, List.append_assoc]
      exact logged'

/-- The call of a resolver is the first that is run for its field. -/
theorem called_first {field : FieldPlan} {stage : Stage} {before after : List ExecutionEvent} {key name : String}
    {arguments : List Resolved} (traced : stage.Traced field (before ++ .called key name arguments :: after)) :
    before = [] ∧ key = field.responseKey := by
  generalize eq : before ++ .called key name arguments :: after = own at traced
  have mem : ExecutionEvent.called key name arguments ∈ before ++ .called key name arguments :: after := by simp
  -- a call among the getters, or as the end of the field, is none
  have part {begun reads : List ExecutionEvent} (last : List ExecutionEvent) (begins : field.Begins begun) (gets : field.Gets reads)
      (others : ∀ event ∈ last, event ≠ .called key name arguments)
      (eq : before ++ .called key name arguments :: after = begun ++ (reads ++ last)) :
      before = [] ∧ key = field.responseKey := by
    have absent : ExecutionEvent.called key name arguments ∉ reads ++ last := by
      intro mem
      rcases List.mem_append.1 mem with mem | mem
      · obtain ⟨_, _, other⟩ := gets _ mem
        cases other
      · exact others _ mem rfl
    cases begins with
    | uncalled =>
      rw [List.nil_append] at eq
      exact absurd (eq ▸ mem) absent
    | called _ =>
      cases before with
      | nil =>
        cases eq
        exact ⟨rfl, rfl⟩
      | cons first rest =>
        have tails : rest ++ .called key name arguments :: after = reads ++ last := (List.cons.inj eq).2
        rw [← tails] at absent
        exact absurd (by simp) absent
  cases traced with
  | fresh | queued | entered _ => simp at eq
  | working target =>
    exact part [] (.called target) field.gets_nil (fun _ mem => absurd mem List.not_mem_nil) (by simpa using eq)
  | ending begins =>
    exact part [] begins field.gets_nil (fun _ mem => absurd mem List.not_mem_nil) (by simpa using eq)
  | done begins gets =>
    exact part [.finished field.responseKey] begins gets (by simp) (by rw [eq, List.append_assoc])
  | failed begins gets =>
    exact part [] begins gets (fun _ mem => absurd mem List.not_mem_nil) (by simpa using eq)

/-- When a resolver is called, all fields before are done, and nothing was run but what they needed. -/
theorem called (serial : Serial tasks trace) {before after : List ExecutionEvent} {key name : String}
    {arguments : List Resolved} (eq : trace = before ++ .called key name arguments :: after) :
    ∃ (i : Nat) (field : FieldPlan) (task : RootTask), tasks[i]? = some (field, task) ∧ field.responseKey = key ∧
      Serial (tasks.take i) before ∧ ∀ entry ∈ tasks.take i, entry.2.value?.isSome := by
  induction serial generalizing before with
  | nil => simp at eq
  | @current field task rest own traced _ _ =>
    subst eq
    obtain ⟨rfl, rfl⟩ := called_first traced
    exact ⟨0, field, task, rfl, rfl, .nil, fun _ mem => absurd mem List.not_mem_nil⟩
  | @next field v rest own more traced _ ih =>
    rcases List.append_eq_append_iff.1 eq with ⟨inner, rfl, split⟩ | ⟨inner, rfl, split⟩
    · obtain ⟨i, f, t, at', same, serial', done⟩ := ih split
      refine ⟨i + 1, f, t, at', same, .next traced serial', ?_⟩
      rw [List.take_succ_cons]
      exact List.forall_mem_cons.2 ⟨rfl, done⟩
    · cases inner with
      | nil =>
        obtain ⟨i, f, t, at', same, serial', done⟩ := @ih [] split.symm
        refine ⟨i + 1, f, t, at', same, ?_, ?_⟩
        · have whole := Serial.next traced serial'
          simpa using whole
        · rw [List.take_succ_cons]
          exact List.forall_mem_cons.2 ⟨rfl, done⟩
      | cons first inner =>
        obtain ⟨rfl, _⟩ := List.cons.inj split
        obtain ⟨rfl, rfl⟩ := called_first traced
        exact ⟨0, field, .done v, rfl, rfl, .nil, fun _ mem => absurd mem List.not_mem_nil⟩

end Serial

/-! ## Runs of mutations -/

namespace Run

variable {x : Execution} {run run' : Run} {earlier : List ExecutionEvent}

/-- The fields of a run have been advanced in order, and it was ended by the field that failed, if one did. -/
structure InOrder (earlier : List ExecutionEvent) (run : Run) : Prop where
  serial : ∃ trace, Serial run.tasks trace ∧ run.state.events = trace.reverse ++ earlier
  aborted : ∀ abort, run.aborted = some abort → ∃ (i : Nat) (field : FieldPlan), run.tasks[i]? = some (field, .failed abort)
  ongoing : run.aborted = none → ∀ entry ∈ run.tasks, entry.2.abort? = none

theorem InOrder.heed (serial : ∃ trace, Serial run.tasks trace ∧ run.state.events = trace.reverse ++ earlier)
    (ongoing : run.aborted = none) : (heed .mutation run).InOrder earlier := by
  have few : run.isCrowd .mutation = false := rfl
  unfold Run.heed
  split
  · next none =>
    refine ⟨serial, fun _ ended => ?_, fun _ entry mem => ?_⟩
    · cases ongoing.symm.trans ended
    · rw [failure?, few] at none
      exact List.findSome?_eq_none_iff.1 none entry mem
  · next abort failed =>
    obtain ⟨field, mem⟩ := failed_of_failure? failed
    obtain ⟨i, at'⟩ := List.getElem?_of_mem mem
    refine ⟨serial, fun other ended => ?_, fun going => ?_⟩
    · cases ended
      exact ⟨i, field, at'⟩
    · cases going

/-- Every poll of a mutation keeps the order. -/
theorem InOrder.poll (mutation : x.plan.kind = .mutation) (poll : Poll x run run') (inOrder : run.InOrder earlier) :
    run'.InOrder earlier := by
  cases poll with
  | idle => exact inOrder
  | @advance i field task task' s ongoing at' ready legs =>
    obtain ⟨trace, serial, logged⟩ := inOrder.serial
    rw [mutation] at ready ⊢
    have before : ∀ entry ∈ run.tasks.take i, entry.2.value?.isSome := by
      unfold isReady at ready
      simpa using ready
    obtain ⟨trace', serial', logged'⟩ := serial.advance at' before legs logged
    exact InOrder.heed ⟨trace', serial', logged'⟩ ongoing

theorem launch_inOrder (fields : List FieldPlan) (state : ExecutionState) :
    (launch fields state).InOrder state.events := by
  have unbegun : ∀ entry ∈ (launch fields state).tasks, entry.2 = .fresh := by
    intro entry mem
    obtain ⟨field, _, rfl⟩ := List.mem_map.1 mem
    rfl
  have ongoing : (launch fields state).aborted = none := rfl
  refine ⟨⟨[], .fresh unbegun, rfl⟩, fun abort ended => ?_, fun _ entry mem => ?_⟩
  · cases ongoing.symm.trans ended
  · rw [unbegun entry mem]
    rfl

theorem heed_unfailed {kind : OperationKind} (unfailed : run.failure? kind = none) : Run.heed kind run = run := by
  rw [Run.heed, unfailed]

/-- What waits in a run without data: the first field that is not done. -/
theorem first_undone {tasks : List (FieldPlan × RootTask)}
    (missing : (tasks.mapM fun (field, task) => task.value?.map fun value => (field.responseKey, value)) = none) :
    ∃ (i : Nat) (field : FieldPlan) (task : RootTask), tasks[i]? = some (field, task) ∧ task.value? = none ∧
      ∀ entry ∈ tasks.take i, entry.2.value?.isSome := by
  induction tasks with
  | nil => cases missing
  | cons entry rest ih =>
    obtain ⟨field, task⟩ := entry
    cases undone : task.value? with
    | none => exact ⟨0, field, task, rfl, undone, fun _ mem => absurd mem List.not_mem_nil⟩
    | some v =>
      rw [List.mapM_cons] at missing
      simp only [undone, Option.map_some, Option.bind_eq_bind, Option.bind_some] at missing
      have others : (rest.mapM fun (field, task) => task.value?.map fun value => (field.responseKey, value)) = none := by
        cases more : rest.mapM fun (field, task) => task.value?.map fun value => (field.responseKey, value) with
        | none => rfl
        | some entries =>
          rw [more] at missing
          cases missing
      obtain ⟨i, f, t, at', undone', done⟩ := ih others
      refine ⟨i + 1, f, t, at', undone', ?_⟩
      rw [List.take_succ_cons]
      refine List.forall_mem_cons.2 ⟨?_, done⟩
      rw [undone]
      rfl

/-- A run that nothing aborts is without data only because it is stuck at some field. -/
theorem stuck_of_data (ongoing : run.aborted = none) {abort : Abort} (ended : run.data = .error abort) :
    abort = .breakdown .stuck ∧ ∃ i field task, run.tasks[i]? = some (field, task) ∧ task.value? = none ∧
      ∀ entry ∈ run.tasks.take i, entry.2.value?.isSome := by
  unfold data at ended
  rw [ongoing] at ended
  simp only at ended
  split at ended
  · cases ended
  · next missing => exact ⟨(Except.error.inj ended).symm, first_undone missing⟩

/-- The fields of a run with data are all done. -/
theorem done_of_data {data : ResponseValue} (ended : run.data = .ok data) :
    run.aborted = none ∧ ∀ entry ∈ run.tasks, ∃ v, entry.2 = .done v := by
  obtain ⟨sound, values, counts, -, done⟩ := data_eq_ok ended
  refine ⟨sound.ongoing, fun entry mem => ?_⟩
  obtain ⟨i, at'⟩ := List.getElem?_of_mem mem
  have bound : i < values.length := counts ▸ (List.getElem?_eq_some_iff.1 at').1
  exact ⟨_, done i entry.1 entry.2 _ at' (List.getElem?_eq_getElem bound)⟩

end Run

/-! ## Failures of fields -/

namespace Execution

variable {x : Execution} {field : FieldPlan} {s : ExecutionState} {task : RootTask} {failure : Failure}

/-- No guard, cancellation or lack of slots keeps a field from its resolver. -/
def Entitled (x : Execution) (field : FieldPlan) (s : ExecutionState) : RootTask → Prop
  | .fresh => x.Admits field s ∧ s.slots.acquire?.isSome
  | .queued => s.cancelled = false ∧ s.slots.acquire?.isSome
  | .working _ => True
  | .done _ | .failed _ => False

/-- The field is done with null, and has left one error at its path. -/
def Nulls (field : FieldPlan) (m : ExecM RootTask) (s : ExecutionState) : Prop :=
  ∃ e s', outcome m s = (.ok (.done .null), s') ∧ s'.errors = s.errors ++ [e] ∧ e.path = some field.rootPath

theorem hostError_nulls (e : HostError) (code : ErrorCode) (s : ExecutionState) :
    Nulls field (ExecM.releaseSlot >>= fun _ => ExecM.hostError e code field field.rootPath >>= field.finish) s :=
  ⟨_, _, rfl, rfl, rfl⟩

theorem panicked_nulls (message : String) (s : ExecutionState) :
    Nulls field (ExecM.releaseSlot >>= fun _ => field.panicked message >>= field.finish) s :=
  ⟨_, _, rfl, rfl, rfl⟩

theorem work_nulls {work : Work Resolved} (ends : work.result? s.cancelled = some (.error failure)) :
    Nulls field (x.work field work) s := by
  induction work generalizing s with
  | done result =>
    cases ends
    rw [Execution.work]
    cases failure with
    | error e => exact hostError_nulls e _ s
    | panic message => exact panicked_nulls message s
  | pause => cases ends
  | record entry next ih => exact ih (s := { s with journal := s.journal ++ [entry] }) ends
  | cancel next ih => exact ih (s := { s with cancelled := true }) ends
  | awaitCancel next ih =>
    rw [Work.result?] at ends
    split at ends
    · next cancelled =>
      obtain ⟨e, s', ran, rest⟩ := ih ends
      refine ⟨e, s', ?_, rest⟩
      rw [Execution.work, outcome_bind, outcome_get]
      simp only
      rw [if_pos cancelled]
      exact ran
    · cases ends
  | askCancelled next ih => exact ih s.cancelled ends

theorem call_nulls {operation : OperationDescriptor} {resolver : Resolver Resolved}
    (comes : x.calledTo? field operation resolver s = some (.error failure)) :
    Nulls field (x.call field operation resolver) s := by
  unfold calledTo? at comes
  cases read : outcome (operation.parseArguments x.inputContext field.arguments) s.registry with
  | mk result registry =>
    rw [read] at comes
    have parsed : outcome (ExecM.onRegistry (operation.parseArguments x.inputContext field.arguments).run) s =
        (.ok result, { s with registry }) := by
      rw [ExecM.outcome_onRegistry, read]
    -- the call goes on from the state in which the arguments are read
    have goesOn {m : ExecM RootTask} {before : ExecutionState} (nulls : Nulls field m before)
        (same : before.errors = s.errors) (eq : outcome (x.call field operation resolver) s = outcome m before) :
        Nulls field (x.call field operation resolver) s := by
      obtain ⟨e, s', ran, errors, placed⟩ := nulls
      exact ⟨e, s', eq.trans ran, same ▸ errors, placed⟩
    cases result with
    | error failure' =>
      cases comes
      cases failure with
      | error e => exact goesOn (hostError_nulls e _ { s with registry }) rfl (by rw [call, outcome_bind, parsed])
      | panic message => exact goesOn (panicked_nulls message { s with registry }) rfl (by rw [call, outcome_bind, parsed])
    | ok arguments =>
      let noted := ({ s with registry } : ExecutionState).noting (.called field.responseKey operation.name arguments)
      simp only at comes
      split at comes
      · next message called =>
        cases comes
        refine goesOn (panicked_nulls message noted) rfl ?_
        rw [call, outcome_bind, parsed]
        simp only [called]
        rfl
      · next work called =>
        refine goesOn (work_nulls (x := x) (s := noted) comes) rfl ?_
        rw [call, outcome_bind, parsed]
        simp only [called]
        rfl

theorem withResolver_nulls (entitled : x.Entitled field s .queued)
    (comes : x.comesTo? field s .queued = some (.error failure)) :
    Nulls field (x.withResolver field (x.enter field)) s := by
  obtain ⟨calm, free⟩ := entitled
  unfold comesTo? at comes
  simp only at comes
  split at comes
  · next operation target =>
    split at comes
    · next resolver calls =>
      obtain ⟨slots, acquired⟩ := Option.isSome_iff_exists.1 free
      obtain ⟨e, s', ran, errors, placed⟩ := call_nulls (s := { s with slots }) comes
      refine ⟨e, s', ?_, errors, placed⟩
      rw [withResolver, target]
      simp only [calls]
      rw [outcome_enter, if_neg (fun h => by rw [calm] at h; cases h.2), acquired]
      exact ran
    · cases comes
  · cases comes

/-- A field whose arguments cannot be read, or whose resolver fails or panics, is null with one error. -/
theorem advance_nulls (entitled : x.Entitled field s task)
    (comes : x.comesTo? field s task = some (.error failure)) : Nulls field (x.advance field task) s := by
  cases task with
  | fresh =>
    obtain ⟨admits, free⟩ := entitled
    have same : x.comesTo? field (counting s field) .queued = x.comesTo? field s .fresh := by
      unfold comesTo? calledTo?
      rw [counting_registry, counting_cancelled]
    have entitled' : x.Entitled field (counting s field) .queued := by
      refine ⟨?_, ?_⟩
      · rw [counting_cancelled]
        exact admits.calm
      · rw [counting_slots]
        exact free
    obtain ⟨e, s', ran, errors, placed⟩ := withResolver_nulls entitled' (same.trans comes)
    rw [counting_errors] at errors
    exact ⟨e, s', (outcome_start admits).trans ran, errors, placed⟩
  | queued => exact withResolver_nulls entitled comes
  | working work => exact work_nulls comes
  | done v => cases comes
  | failed abort => cases comes

end Execution

/-! ## Requests -/

namespace Execution

variable {x : Execution} {state : ExecutionState}

/-- A field that fails in a run of a mutation is done, with null and one error, and the run goes on with the
next field. -/
def GoesOn (x : Execution) (run : Run) : Prop :=
  run.aborted = none → ∀ (i : Nat) field task failure, run.tasks[i]? = some (field, task) →
    run.isReady x.plan.kind i = true → x.Entitled field run.state task →
    x.comesTo? field run.state task = some (.error failure) →
      (run.poll x i).tasks = run.tasks.set i (field, .done .null) ∧ (run.poll x i).aborted = none ∧
      (run.poll x i).isReady x.plan.kind (i + 1) = true ∧
      ∃ e, (run.poll x i).state.errors = run.state.errors ++ [e] ∧ e.path = some field.rootPath

/-- A field that aborts a run of a mutation ends it: the fields before are done, none after has begun, and
nothing changes any more. -/
def Stops (x : Execution) (run : Run) : Prop :=
  ∀ abort, run.aborted = some abort →
    (∃ (i : Nat) (field : FieldPlan), run.tasks[i]? = some (field, .failed abort) ∧
      (∀ entry ∈ run.tasks.take i, entry.2.value?.isSome) ∧ ∀ entry ∈ run.tasks.drop (i + 1), entry.2 = .fresh) ∧
    ∀ i, run.poll x i = run

/-- The ways in which a mutation ends. -/
inductive EndsInOrder (x : Execution) (state : ExecutionState) : Except Breakdown Response × ExecutionState → Prop
  | refused {e : ResponseError} (failed : x.rootFields = .error e) : EndsInOrder x state (.ok ⟨.object [], [e]⟩, state)
  /-- All fields are done. -/
  | done {run : Run} {data : ResponseValue} (interleaved : x.Interleaves state run) (ended : run.data = .ok data)
    (done : ∀ entry ∈ run.tasks, entry.2.value?.isSome) : EndsInOrder x state (.ok ⟨data, run.state.errors⟩, run.state)
  /-- The data are empty, and the only error is that of the field that failed. -/
  | aborted {run : Run} {e : ResponseError} (interleaved : x.Interleaves state run)
    (ended : run.aborted = some (.error e)) : EndsInOrder x state (.ok ⟨.object [], [e]⟩, run.state)
  | brokenDown {run : Run} {b : Breakdown} (interleaved : x.Interleaves state run)
    (ended : run.aborted = some (.breakdown b)) : EndsInOrder x state (.error b, run.state)
  /-- The first field that is not done waits for a slot or a cancellation that nothing in the request gives. -/
  | waits {run : Run} {i : Nat} {field : FieldPlan} {task : RootTask} (interleaved : x.Interleaves state run)
    (ongoing : run.aborted = none) (at' : run.tasks[i]? = some (field, task))
    (done : ∀ entry ∈ run.tasks.take i, entry.2.value?.isSome) (waits : task.Waits run.state) :
    EndsInOrder x state (.error .stuck, run.state)

/-- Mutations run their root fields in order. -/
structure RunsInOrder (x : Execution) (state : ExecutionState) : Prop where
  inOrder : ∀ run, x.Interleaves state run → run.InOrder state.events
  /-- When a resolver is called, the fields before are done, and only what they needed was run. -/
  called : ∀ run, x.Interleaves state run → ∃ trace, run.state.events = trace.reverse ++ state.events ∧
    ∀ before key name arguments after, trace = before ++ .called key name arguments :: after →
      ∃ (i : Nat) (field : FieldPlan) (task : RootTask), run.tasks[i]? = some (field, task) ∧ field.responseKey = key ∧
        Serial (run.tasks.take i) before ∧ ∀ entry ∈ run.tasks.take i, entry.2.value?.isSome
  fields : ∀ run, x.Interleaves state run → run.tasks.map (·.1) = x.selected x.plan.selection none
  goesOn : ∀ run, x.Interleaves state run → x.GoesOn run
  stops : ∀ run, x.Interleaves state run → x.Stops run
  ends : x.EndsInOrder state (x.execute state)

section

variable (mutation : x.plan.kind = .mutation)

include mutation

theorem interleaves_inOrder {run : Run} (interleaved : x.Interleaves state run) : run.InOrder state.events := by
  obtain ⟨fields, polls, rooted, rfl⟩ := interleaved
  exact Run.polls_keep (fun _ _ poll inOrder => inOrder.poll mutation poll) (Run.launch_inOrder fields state) polls

theorem inOrder_goesOn {run : Run} {earlier : List ExecutionEvent} (inOrder : run.InOrder earlier) : x.GoesOn run := by
  intro ongoing i field task failure at' ready entitled comes
  obtain ⟨e, s', ran, errors, placed⟩ := advance_nulls entitled comes
  have bound : i < run.tasks.length := (List.getElem?_eq_some_iff.1 at').1
  have unfailed : Run.failure? .mutation { run with tasks := run.tasks.set i (field, .done .null), state := s' } = none := by
    refine List.findSome?_eq_none_iff.2 fun entry mem => ?_
    rcases List.mem_or_eq_of_mem_set mem with mem | rfl
    · exact inOrder.ongoing ongoing entry mem
    · rfl
  have polled : run.poll x i = { run with tasks := run.tasks.set i (field, .done .null), state := s' } := by
    rw [Run.poll_eq ongoing at' ready ran, mutation]
    exact Run.heed_unfailed unfailed
  rw [polled]
  refine ⟨rfl, ongoing, ?_, e, errors, placed⟩
  rw [Run.isReady_iff] at ready ⊢
  refine ready.imp_right fun before j f t less atj => ?_
  by_cases same : i = j
  · subst same
    rw [List.getElem?_set_self bound] at atj
    cases atj
    rfl
  · rw [List.getElem?_set_ne same] at atj
    exact before j f t (by omega) atj

omit mutation in
theorem inOrder_stops {run : Run} {earlier : List ExecutionEvent} (inOrder : run.InOrder earlier) : x.Stops run := by
  intro abort ended
  obtain ⟨i, field, at'⟩ := inOrder.aborted abort ended
  obtain ⟨trace, serial, -⟩ := inOrder.serial
  obtain ⟨before, after⟩ := serial.apart at' rfl (by simp)
  exact ⟨⟨i, field, at', before, after⟩, fun j => Run.poll_idle fun busy => by simp [ended] at busy⟩

/-- A mutation is executed until all fields are done, unless one of them ends it or waits in vain. -/
theorem execute_endsInOrder : x.EndsInOrder state (x.execute state) := by
  cases rooted : x.rootFields with
  | error e =>
    rw [execute, rooted]
    exact .refused rooted
  | ok fields =>
    rw [execute_rooted rooted]
    obtain ⟨polls, settled⟩ := Turn.settle_polls (x := x) (Turn.launch fields state)
    have interleaved : x.Interleaves state ((Turn.launch fields state).settle x) := ⟨fields, polls, rooted, settled⟩
    have inOrder := interleaves_inOrder mutation interleaved
    have few : (Turn.launch fields state).run.isCrowd x.plan.kind = false := by
      rw [mutation]
      rfl
    have rested := Turn.settle_rested (x := x) (Turn.launch fields state) few
    generalize (Turn.launch fields state).settle x = run at *
    simp only
    cases ended : run.data with
    | ok data =>
      refine .done interleaved ended fun entry mem => ?_
      obtain ⟨v, eq⟩ := (Run.done_of_data ended).2 entry mem
      rw [eq]
      rfl
    | error abort =>
      cases aborted : run.aborted with
      | some abort' =>
        unfold Run.data at ended
        rw [aborted] at ended
        cases ended
        cases abort with
        | error e => exact .aborted interleaved aborted
        | breakdown b => exact .brokenDown interleaved aborted
      | none =>
        obtain ⟨rfl, i, field, task, at', undone, done⟩ := Run.stuck_of_data aborted ended
        have ready : run.isReady x.plan.kind i = true := by
          rw [mutation]
          unfold Run.isReady
          simpa using done
        have waits : task.Waits run.state := by
          cases rested aborted i ready field task at' with
          | done => cases undone
          | failed => cases inOrder.ongoing aborted _ (List.mem_of_getElem? at')
          | waits waits => exact waits
        exact .waits interleaved aborted at' done waits

/-- In every run of a mutation, resolvers are called in selection order, each once the fields before are done with
everything below them. Fields that fail do not keep the others from running; one that aborts the request ends it. -/
theorem mutations_in_order : x.RunsInOrder state where
  inOrder _ interleaved := interleaves_inOrder mutation interleaved
  called run interleaved := by
    obtain ⟨trace, serial, logged⟩ := (interleaves_inOrder mutation interleaved).serial
    exact ⟨trace, logged, fun before key name arguments after eq => serial.called eq⟩
  fields run interleaved := by
    obtain ⟨fields, polls, rooted, rfl⟩ := interleaved
    rw [Run.polls_fields, ← collect_eq_ok (rootFields_eq_ok rooted).1, Run.launch, List.map_map]
    exact List.map_id'' (fun _ => rfl) fields
  goesOn _ interleaved := inOrder_goesOn mutation (interleaves_inOrder mutation interleaved)
  stops _ interleaved := inOrder_stops (interleaves_inOrder mutation interleaved)
  ends := execute_endsInOrder mutation

end

end Execution

/-! ## Two mutations, of which the first fails -/

namespace SaveMutation

def field (name : String) (result : Except Failure Resolved) : FieldPlan :=
  { responseKey := name, aliased := false, name, location := .start, condition := none, directives := []
    arguments := []
    target := .operation
      { kind := .mutation, name, info := {}, output := .named (.builtin .int32) true, mode := .positional
        binding := .arguments [], resolver := .field fun _ => .ok (.done result) }
    type := .named (.builtin .int32) true, complexity := 1, selection := [] }

def plan : Plan :=
  { kind := .mutation, name := none, variableDefinitions := []
    selection := [field "first" (.error (.error { message := "refused" })), field "second" (.ok (.const (.int 1)))] }

def execution : Execution :=
  { host := { builtinName := BuiltinType.scalarName, types := [] }, limits := {}, plan, variableValues := [] }

def state : ExecutionState := { registry := {}, slots := { limit := 0 }, cancelled := false }

theorem saves_in_order : execution.plan.kind = .mutation ∧ execution.RunsInOrder state :=
  ⟨rfl, Execution.mutations_in_order rfl⟩

end SaveMutation

end GraphQL
