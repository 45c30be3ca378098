import GraphQL.Proofs.Execution.ErrorPlaces
import GraphQL.Proofs.Execution.Unfailing

/-!
# How executions end without data

A well-formed plan is executed without the error of an engine in a state that it should never reach.
One poll of a root field keeps `Run.Safe`, and so every way of taking turns ends with data or as
`Abort.Ordinary` says, or waits for a cancellation that never comes. The same holds of the events of
a subscription, and of opening it.
-/

namespace GraphQL

/-! ## Resolvers -/

/-- The results that the work may be done with. -/
inductive Work.Returns {α : Type} (a : α) : Work α → Prop
  | done : Returns a (.done (.ok a))
  | pause {next : Work α} (later : Returns a next) : Returns a (.pause next)
  | record {entry : JournalEntry} {next : Work α} (later : Returns a next) : Returns a (.record entry next)
  | cancel {next : Work α} (later : Returns a next) : Returns a (.cancel next)
  | awaitCancel {next : Work α} (later : Returns a next) : Returns a (.awaitCancel next)
  | askCancelled {next : Bool → Work α} (cancelled : Bool) (later : Returns a (next cancelled)) :
    Returns a (.askCancelled next)

/-- A value that the resolver of a root field may return. -/
def FieldPlan.Resolves (field : FieldPlan) (value : Resolved) : Prop :=
  ∃ operation resolver arguments work, field.target = .operation operation ∧ operation.resolver = .field resolver ∧
    resolver arguments = .ok work ∧ work.Returns value

namespace Execution

variable {x : Execution} {field : FieldPlan}

/-- A union panics with a message in a value of a root field. -/
def PanicsAt (x : Execution) (field : FieldPlan) (message : String) : Prop :=
  ∃ value, field.Resolves value ∧ x.Panics value message

/-- A field that can be executed at the root. -/
def ExecutableRoot (x : Execution) (field : FieldPlan) : Prop :=
  ∃ declared r, x.host.Reachable r ∧ field.WellFormed declared r true

theorem ExecutableRoot.below (executable : x.ExecutableRoot field) : x.Executable field.selection := by
  obtain ⟨declared, r, reachable, wellFormed⟩ := executable
  exact ⟨declared, r, reachable, wellFormed.within⟩

end Execution

/-- What a task of a root field may be: its work is that of the resolver, and its failure ordinary. -/
def RootTask.Safe (x : Execution) (field : FieldPlan) : RootTask → Prop
  | .working work => ∀ value, work.Returns value → field.Resolves value
  | .failed abort => abort.Ordinary (x.PanicsAt field)
  | _ => True

namespace Execution

variable {x : Execution} {field : FieldPlan}

/-- The computation leads to a task that is safe, and fails in an ordinary way only. -/
abbrev Leads (x : Execution) (field : FieldPlan) (m : ExecM RootTask) : Prop :=
  ExecM.Guarded x.host (Abort.Ordinary (x.PanicsAt field)) m fun task => task.Safe x field

theorem finish_leads {m : ExecM ResponseValue} (fails : ExecM.Fails x.host (Abort.Ordinary (x.PanicsAt field)) m) :
    x.Leads field (m >>= field.finish) :=
  fails.bind fun _ _ => (ExecM.guarded_note _).bind fun _ _ => ExecM.guarded_pure trivial

theorem guarded_releaseSlot {host : Host} {fails : Abort → Prop} : ExecM.Fails host fails ExecM.releaseSlot :=
  ExecM.guarded_modify fun _ => rfl

theorem completeRoot_fails (executable : x.ExecutableRoot field) {result : Except Failure Resolved}
    (resolves : ∀ value, result = .ok value → field.Resolves value) :
    ExecM.Fails x.host (Abort.Ordinary (x.PanicsAt field)) (x.completeRoot field result) := by
  cases result with
  | ok value =>
    refine (complete_safe field.type value field field.rootPath 1 executable.below).weaken fun _ ordinary => ?_
    exact ordinary.mono fun _ panics => ⟨value, resolves value rfl, panics⟩
  | error failure =>
    cases failure with
    | error e => exact ExecM.guarded_hostError _ _ _ _
    | panic message => exact ExecM.guarded_fieldError _ _ _ _

theorem work_leads (executable : x.ExecutableRoot field) (work : Work Resolved)
    (resolves : ∀ value, work.Returns value → field.Resolves value) : x.Leads field (x.work field work) := by
  induction work with
  | done result =>
    rw [Execution.work]
    refine guarded_releaseSlot.bind fun _ _ => finish_leads (completeRoot_fails executable fun value ok => ?_)
    subst ok
    exact resolves value .done
  | pause next _ =>
    rw [Execution.work]
    exact ExecM.guarded_pure fun value returns => resolves value (.pause returns)
  | record entry next ih =>
    rw [Execution.work]
    refine ExecM.Guarded.bind (ExecM.guarded_modify ?_) fun _ _ => ih fun value returns => resolves value (.record returns)
    exact fun _ => rfl
  | cancel next ih =>
    rw [Execution.work]
    refine ExecM.Guarded.bind (ExecM.guarded_modify ?_) fun _ _ => ih fun value returns => resolves value (.cancel returns)
    exact fun _ => rfl
  | awaitCancel next ih =>
    rw [Execution.work]
    refine ExecM.guarded_get fun s => ?_
    split
    · exact ih fun value returns => resolves value (.awaitCancel returns)
    · exact ExecM.guarded_pure resolves
  | askCancelled next ih =>
    rw [Execution.work]
    exact ExecM.guarded_get fun s => ih _ fun value returns => resolves value (.askCancelled _ returns)

theorem call_leads (executable : x.ExecutableRoot field) {operation : OperationDescriptor} {resolver : Resolver Resolved}
    (target : field.target = .operation operation) (calls : operation.resolver = .field resolver) :
    x.Leads field (x.call field operation resolver) := by
  have fails {m : ExecM ResponseValue} (inner : ExecM.Fails x.host (Abort.Ordinary (x.PanicsAt field)) m) :
      x.Leads field (ExecM.releaseSlot >>= fun _ => m >>= field.finish) :=
    guarded_releaseSlot.bind fun _ _ => finish_leads inner
  have settles := OperationDescriptor.parseArguments_settles x.inputContext operation field.arguments
  unfold call
  refine (ExecM.guarded_onRegistry settles).bind fun result _ => ?_
  cases result with
  | error failure =>
    cases failure with
    | error e => exact fails (ExecM.guarded_hostError _ _ _ _)
    | panic message => exact fails (ExecM.guarded_fieldError _ _ _ _)
  | ok arguments =>
    refine (ExecM.guarded_note _).bind fun _ _ => ?_
    split
    · next work called =>
      exact work_leads executable work fun value returns =>
        ⟨operation, resolver, arguments, work, target, calls, called, returns⟩
    · exact fails (ExecM.guarded_fieldError _ _ _ _)

theorem enter_leads (executable : x.ExecutableRoot field) {operation : OperationDescriptor} {resolver : Resolver Resolved}
    (target : field.target = .operation operation) (calls : operation.resolver = .field resolver) :
    x.Leads field (x.enter field operation resolver) := by
  intro s reachable
  rw [outcome_enter]
  split
  · exact ⟨reachable, .error (by decide)⟩
  · split
    · exact ⟨reachable, trivial⟩
    · next slots free => exact call_leads executable target calls { s with slots } reachable

theorem withResolver_leads (executable : x.ExecutableRoot field) : x.Leads field (x.withResolver field (x.enter field)) := by
  have whole := executable
  obtain ⟨declared, r, _, wellFormed⟩ := executable
  unfold withResolver
  cases wellFormed.targets with
  | operation target _ =>
    rw [target]
    simp only
    split
    · next calls => exact enter_leads whole target calls
    · exact finish_leads (ExecM.guarded_fieldError _ _ _ _)
  | typename _ target _ =>
    rw [target]
    exact (ExecM.guarded_note _).bind fun _ _ => ExecM.guarded_pure trivial

theorem guarded_addComplexity {host : Host} {panics : String → Prop} (limits : QueryLimits) (field : FieldPlan) :
    ExecM.Fails host (Abort.Ordinary panics) (ExecM.addComplexity limits field) := by
  unfold ExecM.addComplexity
  refine ExecM.Guarded.bind (ExecM.guarded_modify ?_) fun _ _ => ExecM.guarded_get fun s => ExecM.guarded_guard _ _
  exact fun _ => rfl

theorem start_leads (executable : x.ExecutableRoot field) : x.Leads field (x.start field) := by
  unfold start
  refine ExecM.guarded_checkCancelled.bind fun _ _ => (ExecM.guarded_guard _ _).bind fun _ _ => ?_
  split
  · exact (guarded_addComplexity _ _).bind fun _ _ => withResolver_leads executable
  · exact withResolver_leads executable

/-- Advancing a field leads from a safe task to a safe one. -/
theorem advance_leads (executable : x.ExecutableRoot field) {task : RootTask} (safe : task.Safe x field) :
    x.Leads field (x.advance field task) := by
  cases task with
  | fresh => exact start_leads executable
  | queued => exact withResolver_leads executable
  | working work => exact work_leads executable work safe
  | done value => exact ExecM.guarded_pure trivial
  | failed abort => exact ExecM.guarded_throw safe

end Execution

/-! ## Runs -/

namespace Run

variable {x : Execution}

/-- All tasks of a run are safe, and what ended it is ordinary. -/
structure Safe (x : Execution) (run : Run) : Prop where
  reachable : x.host.Reachable run.state.registry
  tasks : ∀ entry ∈ run.tasks, entry.1 ∈ x.plan.selection ∧ entry.2.Safe x entry.1
  aborted : ∀ abort, run.aborted = some abort →
    ∃ field ∈ x.plan.selection, abort.Ordinary (x.PanicsAt field)

theorem failed_of_abort? {task : RootTask} {abort : Abort} (failed : task.abort? = some abort) : task = .failed abort := by
  cases task with
  | failed abort' =>
    cases failed
    rfl
  | _ => cases failed

theorem failed_of_crash? {task : RootTask} {abort : Abort} (failed : task.crash? = some abort) : task = .failed abort := by
  unfold RootTask.crash? at failed
  split at failed
  · cases failed
    rfl
  · cases failed

theorem failed_of_firstUndone {tasks : List (FieldPlan × RootTask)} {abort : Abort}
    (failed : firstUndone tasks = some abort) : ∃ field, (field, .failed abort) ∈ tasks := by
  induction tasks with
  | nil => cases failed
  | cons entry rest ih =>
    obtain ⟨field, task⟩ := entry
    cases task with
    | done value =>
      obtain ⟨other, mem⟩ := ih failed
      exact ⟨other, List.mem_cons_of_mem _ mem⟩
    | failed abort' =>
      cases failed
      exact ⟨field, List.mem_cons_self⟩
    | _ => cases failed

/-- A run ends with the failure of one of its tasks. -/
theorem failed_of_failure? {kind : OperationKind} {run : Run} {abort : Abort} (failed : run.failure? kind = some abort) :
    ∃ field, (field, .failed abort) ∈ run.tasks := by
  have among {of : RootTask → Option Abort} (only : ∀ task, of task = some abort → task = .failed abort)
      (found : run.tasks.findSome? (fun entry => of entry.2) = some abort) :
      ∃ field, (field, .failed abort) ∈ run.tasks := by
    obtain ⟨entry, mem, ended⟩ := List.exists_of_findSome?_eq_some found
    obtain ⟨field, task⟩ := entry
    rw [only task ended] at mem
    exact ⟨field, mem⟩
  unfold failure? at failed
  split at failed
  · rcases Option.or_eq_some_iff.1 failed with crashed | ⟨_, undone⟩
    · exact among (fun _ => failed_of_crash?) crashed
    · exact failed_of_firstUndone undone
  · exact among (fun _ => failed_of_abort?) failed

theorem Safe.heed {kind : OperationKind} {run : Run} (safe : run.Safe x) : (heed kind run).Safe x := by
  unfold Run.heed
  split
  · exact safe
  · next abort failed =>
    obtain ⟨field, mem⟩ := failed_of_failure? failed
    obtain ⟨selected, ordinary⟩ := safe.tasks _ mem
    refine ⟨safe.reachable, safe.tasks, fun other ended => ?_⟩
    cases ended
    exact ⟨field, selected, ordinary⟩

section

variable (executable : ∀ field ∈ x.plan.selection, x.ExecutableRoot field)

include executable

/-- One poll keeps a run safe. -/
theorem Safe.poll {run : Run} (safe : run.Safe x) (i : Nat) : (Run.poll x run i).Safe x := by
  by_cases busy : run.aborted = none ∧ (∃ entry, run.tasks[i]? = some entry) ∧ run.isReady x.plan.kind i = true
  · obtain ⟨ongoing, ⟨⟨field, task⟩, at'⟩, ready⟩ := busy
    obtain ⟨selected, before⟩ := safe.tasks _ (List.mem_of_getElem? at')
    obtain ⟨reachable, ends⟩ := Execution.advance_leads (executable field selected) before _ safe.reachable
    cases ran : outcome (x.advance field task) run.state with
    | mk result s =>
      rw [ran] at reachable ends
      rw [poll_eq ongoing at' ready ran]
      refine Safe.heed ⟨reachable, fun entry mem => ?_, fun abort ended => safe.aborted abort ended⟩
      rcases List.mem_or_eq_of_mem_set mem with mem | rfl
      · exact safe.tasks entry mem
      · refine ⟨selected, ?_⟩
        cases result with
        | ok task' => exact ends
        | error abort => exact ends
  · rw [poll_idle busy]
    exact safe

theorem Safe.polls {run : Run} (safe : run.Safe x) (polls : List Nat) : (polls.foldl (Run.poll x) run).Safe x := by
  induction polls generalizing run with
  | nil => exact safe
  | cons i rest ih => exact ih (safe.poll executable i)

end

theorem launch_safe {fields : List FieldPlan} {state : ExecutionState} (reachable : x.host.Reachable state.registry)
    (selected : ∀ field ∈ fields, field ∈ x.plan.selection) : (launch fields state).Safe x where
  reachable := reachable
  tasks entry mem := by
    obtain ⟨field, among, rfl⟩ := List.mem_map.1 mem
    exact ⟨selected field among, trivial⟩
  aborted abort ended := by cases ended

/-- A run without data was ended by a failure, or a field waits in vain. -/
theorem data_eq_error {run : Run} {abort : Abort} (ended : run.data = .error abort) :
    run.aborted = some abort ∨ abort = .breakdown .stuck := by
  unfold Run.data at ended
  split at ended
  · next aborted =>
    cases ended
    exact Or.inl aborted
  · split at ended
    · cases ended
    · cases ended
      exact Or.inr rfl

end Run

/-! ## Requests -/

namespace Execution

variable {x : Execution} {state : ExecutionState} {abort : Abort}

/-- The guards on the whole plan refuse it in an ordinary way. -/
theorem rootFields_ordinary (failed : x.rootFields = .error e) : (Abort.error e).Ordinary panics := by
  unfold rootFields at failed
  rcases except_bind_eq_error.1 failed with deep | ⟨_, _, failed⟩
  · exact checkPlanDepth_ordinary deep
  · rcases except_bind_eq_error.1 failed with selected | ⟨fields, _, failed⟩
    · exact collect_ordinary selected
    · rcases except_bind_eq_error.1 failed with many | ⟨_, _, failed⟩
      · exact checkAliases_ordinary many
      · cases failed

section

variable (executable : ∀ field ∈ x.plan.selection, x.ExecutableRoot field)

include executable

/-- However root fields take turns, they fail in an ordinary way, or one of them waits in vain. -/
theorem interleaves_ordinary (reachable : x.host.Reachable state.registry) {run : Run}
    (interleaved : x.Interleaves state run) (ended : run.data = .error abort) :
    (∃ field ∈ x.plan.selection, abort.Ordinary (x.PanicsAt field)) ∨ abort = .breakdown .stuck := by
  obtain ⟨fields, polls, rooted, rfl⟩ := interleaved
  have selected : ∀ field ∈ fields, field ∈ x.plan.selection :=
    fun field mem => mem_of_collect (rootFields_eq_ok rooted).1 mem
  have safe := (Run.launch_safe reachable selected).polls executable polls
  exact (Run.data_eq_error ended).imp_left (safe.aborted abort)

/-- Shaping an event fails in an ordinary way. -/
theorem shapeEvent_safe (event : Resolved) : x.Safe event (x.shapeEvent event) := by
  unfold shapeEvent
  have selection : ExecM.Guarded x.host (Abort.Ordinary (x.Panics event))
      (ExecM.ofExcept (x.collect x.plan.selection none)) fun fields => x.collect x.plan.selection none = .ok fields :=
    ExecM.guarded_ofExcept (fun _ => id) fun _ => collect_ordinary
  refine selection.bind fun fields selected => ?_
  cases fields with
  | nil => exact ExecM.guarded_pure trivial
  | cons field rest =>
    have below := (executable field (mem_of_collect selected List.mem_cons_self)).below
    refine ExecM.guarded_checkCancelled.bind fun _ _ => ?_
    exact (complete_safe field.type event field field.rootPath 1 below).bind fun _ _ => ExecM.guarded_pure trivial

end

/-! ### Opening a subscription -/

/-- Failures other than the error of the engine itself. -/
abbrev Foreign (abort : Abort) : Prop := abort ≠ .error .internal

theorem abortAt_foreign {host : Host} {α : Type} (field : FieldPlan) (e : ResponseError) :
    ExecM.Fails host Foreign (abortAt field e : ExecM α) := by
  refine ExecM.guarded_throw fun same => ?_
  have path : some field.rootPath = none := congrArg ResponseError.path (Abort.error.inj same)
  cases path

theorem finish_foreign {host : Host} {α : Type} (work : Work α) : ExecM.Fails host Foreign work.finish := by
  have kept {f : ExecutionState → ExecutionState} {next : Work α} (same : ∀ s, (f s).registry = s.registry)
      (rest : ExecM.Fails host Foreign next.finish) :
      ExecM.Fails host Foreign (modify f >>= fun _ : PUnit => next.finish) :=
    (ExecM.guarded_modify same).bind fun _ _ => rest
  induction work with
  | done result => exact ExecM.guarded_pure trivial
  | pause next ih => exact ih
  | record entry next ih => exact kept (fun _ => rfl) ih
  | cancel next ih => exact kept (fun _ => rfl) ih
  | awaitCancel next ih =>
    rw [Work.finish]
    refine ExecM.guarded_get fun s => ?_
    split
    · exact ih
    · refine ExecM.guarded_throw ?_
      simp
  | askCancelled next ih =>
    rw [Work.finish]
    exact ExecM.guarded_get fun s => ih _

theorem openSource_foreign (field : FieldPlan) (operation : OperationDescriptor) (resolver : Resolver EventSource) :
    ExecM.Fails x.host Foreign (x.openSource field operation resolver) := by
  have settles := OperationDescriptor.parseArguments_settles x.inputContext operation field.arguments
  unfold openSource
  refine (ExecM.guarded_onRegistry settles).bind fun result _ => ?_
  cases result with
  | error failure =>
    cases failure with
    | error e => exact abortAt_foreign _ _
    | panic message => exact abortAt_foreign _ _
  | ok arguments =>
    refine (ExecM.guarded_note _).bind fun _ _ => ?_
    split
    · exact abortAt_foreign _ _
    · refine (finish_foreign _).bind fun result _ => ?_
      cases result with
      | error failure =>
        cases failure with
        | error e => exact abortAt_foreign _ _
        | panic message => exact abortAt_foreign _ _
      | ok source => exact ExecM.guarded_pure trivial

theorem subscribe_foreign : ExecM.Fails x.host Foreign x.subscribe := by
  have ordinary {α : Type} {m : ExecM α} (fails : ExecM.Fails x.host (Abort.Ordinary fun _ => True) m) :
      ExecM.Fails x.host Foreign m :=
    fails.weaken fun _ => Abort.Ordinary.ne_internal
  have checks {α : Type} {result : Except ResponseError α}
      (each : ∀ e, result = .error e → (Abort.error e).Ordinary fun _ => True) :
      ExecM.Fails x.host Foreign (ExecM.ofExcept result) :=
    ordinary (ExecM.guarded_ofExcept (fun _ _ => trivial) each)
  unfold subscribe
  refine (checks fun _ => checkPlanDepth_ordinary).bind fun _ _ => ?_
  refine (checks fun _ => collect_ordinary).bind fun fields _ => ?_
  cases fields with
  | nil =>
    refine ExecM.guarded_throw ?_
    simp [ResponseError.internal]
  | cons field rest =>
    refine (ordinary (ExecM.guarded_guard _ _)).bind fun _ _ => ?_
    refine (checks fun _ => checkAliases_ordinary).bind fun _ _ => ?_
    refine (ordinary (guarded_addComplexity _ _)).bind fun _ _ => ?_
    split
    · split
      · exact openSource_foreign _ _ _
      · exact abortAt_foreign _ _
    · exact abortAt_foreign _ _

/-! ### All ends -/

theorem Aborts.ne_internal (executable : ∀ field ∈ x.plan.selection, x.ExecutableRoot field)
    (reachable : x.host.Reachable state.registry) (aborts : x.Aborts state abort) : abort ≠ .error .internal := by
  cases aborts with
  | refused failed =>
    have ordinary : Abort.Ordinary (fun _ => True) (.error _) := rootFields_ordinary failed
    exact ordinary.ne_internal
  | run interleaved ended =>
    obtain ⟨_, _, ordinary⟩ | rfl := interleaves_ordinary executable reachable interleaved ended
    · exact ordinary.ne_internal
    · simp
  | event shaped => exact Abort.Ordinary.ne_internal ((shapeEvent_safe executable _).of_error reachable shaped)
  | unopened opened => exact subscribe_foreign.of_error reachable opened

/-- However a plan is executed, the error of an engine in a state that it should never reach neither ends
the execution nor is in a response. -/
structure Blameless (x : Execution) (state : ExecutionState) : Prop where
  aborts : ∀ abort, x.Aborts state abort → abort ≠ .error .internal
  execute : ∀ response final, x.execute state = (.ok response, final) → .internal ∉ response.errors
  executeEvent : x.plan.kind = .subscription → ∀ event response final,
    x.executeEvent event state = (.ok response, final) → .internal ∉ response.errors

/-- The errors of an answer have paths, which the error of the engine has not. -/
theorem Answers.ne_internal {response : Response} {final : ExecutionState} (compiled : x.plan.Compiled)
    (fresh : state.errors = []) (answers : x.Answers state response final) : .internal ∉ response.errors := by
  intro mem
  have below := (answers_render compiled.sound fresh answers).2.nullsBelow compiled.sound
  obtain ⟨path, placed, _⟩ := below.placed _ mem
  cases placed

/-- The root fields of a plan that is compiled from a text can be executed. -/
theorem executable_of_compiled {options : CompileOptions} {query : String} {operationName : Option String}
    {registry registry' : Registry} (sameHost : x.host = options.host) (reachable : options.host.Reachable registry)
    (compiled : outcome (compile options query operationName) registry = (.ok x.plan, registry')) :
    ∀ field ∈ x.plan.selection, x.ExecutableRoot field := by
  have described : options.host.Reachable registry' := reachable.described (compile_later compiled)
  exact fun field mem => ⟨_, registry', sameHost ▸ described, (compile_wellFormed compiled).fields field mem⟩

/-- Every plan that is compiled from a text is well formed. With whatever limits, variables and data it is
executed, and however its root fields take turns, no place in the types described by then is out of range,
and the engine never finds itself in a state that it should not reach. -/
theorem compiled_blameless {options : CompileOptions} {query : String} {operationName : Option String}
    {registry registry' : Registry} {plan : Plan} (reachable : options.host.Reachable registry)
    (compiled : outcome (compile options query operationName) registry = (.ok plan, registry')) :
    plan.WellFormed registry' ∧
    ∀ (x : Execution) (state : ExecutionState), x.host = options.host → x.plan = plan →
      options.host.Reachable state.registry → state.errors = [] → state.registry.Grounded ∧ x.Blameless state := by
  refine ⟨compile_wellFormed compiled, fun x state sameHost samePlan begun fresh => ⟨begun.grounded, ?_⟩⟩
  subst samePlan
  have executable := executable_of_compiled sameHost reachable compiled
  have fair (abort : Abort) (aborts : x.Aborts state abort) : abort ≠ .error .internal :=
    aborts.ne_internal executable (sameHost ▸ begun)
  have ofAbort {e : ResponseError} (aborts : x.Aborts state (.error e)) : .internal ∉ (Response.ofError e).errors := by
    intro mem
    have same := List.mem_singleton.1 mem
    subst same
    exact fair _ aborts rfl
  have compiled' := Plan.compiled_of_text compiled
  refine ⟨fair, fun response final ran => ?_, fun subscription event response final ran => ?_⟩
  · obtain ⟨e, aborts, rfl⟩ | answers := execute_answers ran
    · exact ofAbort aborts
    · exact answers.ne_internal compiled' fresh
  · obtain ⟨e, aborts, rfl⟩ | answers := executeEvent_answers subscription ran
    · exact ofAbort aborts
    · exact answers.ne_internal compiled' fresh

end Execution

namespace NodeQuery

/-- The query for a node as a text, and what it is compiled to. -/
def text : String := "\x7b node \x7b id \x7d \x7d"

def textPlan : Plan :=
  { plan with
    selection := [{ nodeField with location := ⟨1, 3⟩, selection := [{ idField with location := ⟨1, 10⟩ }] }] }

/-- The types that compiling it describes. -/
def textTypes : Registry := (outcome (host.describe (.builtin .string)) (outcome (host.describe (.host 0)) {}).2).2

theorem text_compiled : outcome (compile options text none) {} = (.ok textPlan, textTypes) := by
  have parsed : Document.parse text = .ok
      { operations := .anonymous ⟨.start, .query, [],
          [.field ⟨⟨1, 3⟩, none, "node", [], []⟩ [.field ⟨⟨1, 10⟩, none, "id", [], []⟩ []]]⟩
        fragments := [] } := by
    with_unfolding_all rfl
  have collected : outcome ((Compiler.mk options [] []).collect [] (.root .query) none []
      [.field ⟨⟨1, 3⟩, none, "node", [], []⟩ [.field ⟨⟨1, 10⟩, none, "id", [], []⟩ []]]) {} =
        (.ok textPlan.selection, textTypes) := by
    simp only [Compiler.collect]
    with_unfolding_all rfl
  unfold compile
  rw [parsed]
  exact outcome_bind_eq_ok.2 ⟨_, _, rfl, outcome_bind_eq_ok.2 ⟨_, _, collected, rfl⟩⟩

theorem text_blameless : outcome (compile options text none) {} = (.ok textPlan, textTypes) ∧
    textPlan.WellFormed textTypes ∧ state.registry.Grounded ∧
    Execution.Blameless { execution with plan := textPlan } state := by
  obtain ⟨wellFormed, executed⟩ := Execution.compiled_blameless .empty text_compiled
  exact ⟨text_compiled, wellFormed, executed { execution with plan := textPlan } state rfl rfl .empty rfl⟩

end NodeQuery

end GraphQL
