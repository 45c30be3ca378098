import GraphQL.Proofs.Execution.Alone
import GraphQL.Proofs.Execution.Likeness
import GraphQL.Proofs.Execution.Outlines

/-!
# Root fields that run alike

A likeness of values extends to root fields: related fields differ in their host code alone, and their resolvers
do related work, step by step, that comes to related values of the type of the field. Related fields take the same
turns, so executing with related root fields gives the same data, and errors that compare as the pace says:
`execute_alike`; and so does executing related events: `executeEvent_alike`.
-/

namespace GraphQL

/-! ## Host code of root fields -/

/-- The work takes the same steps to a related result. -/
inductive Work.Alike (rel : Except Failure Resolved → Except Failure Resolved → Prop) :
    Work Resolved → Work Resolved → Prop
  | done {result result' : Except Failure Resolved} (holds : rel result result') : Alike rel (.done result) (.done result')
  | pause {next next' : Work Resolved} (later : Alike rel next next') : Alike rel (.pause next) (.pause next')
  | record {entry : JournalEntry} {next next' : Work Resolved} (later : Alike rel next next') :
    Alike rel (.record entry next) (.record entry next')
  | cancel {next next' : Work Resolved} (later : Alike rel next next') : Alike rel (.cancel next) (.cancel next')
  | awaitCancel {next next' : Work Resolved} (later : Alike rel next next') :
    Alike rel (.awaitCancel next) (.awaitCancel next')
  | askCancelled {next next' : Bool → Work Resolved} (later : ∀ cancelled, Alike rel (next cancelled) (next' cancelled)) :
    Alike rel (.askCancelled next) (.askCancelled next')

theorem Work.Alike.outline {rel : Except Failure Resolved → Except Failure Resolved → Prop} {work work' : Work Resolved}
    (alike : work.Alike rel work') : work'.outline = work.outline := by
  induction alike with
  | done => rfl
  | pause _ ih => exact congrArg Work.pause ih
  | record _ ih => exact congrArg (Work.record _) ih
  | cancel _ ih => exact congrArg Work.cancel ih
  | awaitCancel _ ih => exact congrArg Work.awaitCancel ih
  | askCancelled _ ih => exact congrArg Work.askCancelled (funext ih)

theorem Work.Alike.mono {rel weaker : Except Failure Resolved → Except Failure Resolved → Prop} {work work' : Work Resolved}
    (alike : work.Alike rel work') (imp : ∀ result result', rel result result' → weaker result result') :
    work.Alike weaker work' := by
  induction alike with
  | done holds => exact .done (imp _ _ holds)
  | pause _ ih => exact .pause ih
  | record _ ih => exact .record ih
  | cancel _ ih => exact .cancel ih
  | awaitCancel _ ih => exact .awaitCancel ih
  | askCancelled _ ih => exact .askCancelled ih

theorem Work.Alike.refl {rel : Except Failure Resolved → Except Failure Resolved → Prop} (same : ∀ result, rel result result)
    (work : Work Resolved) : work.Alike rel work := by
  induction work with
  | done result => exact .done (same result)
  | pause _ ih => exact .pause ih
  | record _ _ ih => exact .record ih
  | cancel _ ih => exact .cancel ih
  | awaitCancel _ ih => exact .awaitCancel ih
  | askCancelled _ ih => exact .askCancelled ih

namespace Execution.Likeness

variable {x : Execution}

/-- What calling the resolvers of fields of a type comes to. -/
inductive Calls (l : x.Likeness) (type : TypeRef) : Except String (Work Resolved) → Except String (Work Resolved) → Prop
  | works {work work' : Work Resolved} (alike : work.Alike (l.pace.Reads (l.values type)) work') :
    Calls l type (.ok work) (.ok work')
  | failed (message : String) : Calls l type (.error message) (.error message)
  | panicked (forgives : l.pace.forgives) {message : String} : Calls l type (.error message) (.ok (.done (.ok .null)))

/-- What reading the arguments of two resolvers comes to. Where those of the first panic, the second may get
arguments for which it is null. -/
inductive Binds (l : x.Likeness) (type : TypeRef) (resolver resolver' : Resolver Resolved) :
    Except Failure (List Resolved) × Registry → Except Failure (List Resolved) × Registry → Prop
  | called {arguments arguments' : List Resolved} {r : Registry}
    (calls : l.Calls type (resolver arguments) (resolver' arguments')) :
    Binds l type resolver resolver' (.ok arguments, r) (.ok arguments', r)
  | failed {failure : Failure} {r : Registry} : Binds l type resolver resolver' (.error failure, r) (.error failure, r)
  | panicked (forgives : l.pace.forgives) {message : String} {arguments : List Resolved} {r : Registry}
    (null : resolver' arguments = .ok (.done (.ok .null))) :
    Binds l type resolver resolver' (.error (.panic message), r) (.ok arguments, r)

/-- What root fields of a type read with some arguments, and with others. -/
inductive Targets (l : x.Likeness) (type : TypeRef) (arguments arguments' : List (String × Value)) :
    FieldTarget → FieldTarget → Prop
  | same {target : FieldTarget}
    (uncalled : ∀ operation resolver, target = .operation operation → operation.resolver ≠ .field resolver) :
    Targets l type arguments arguments' target target
  | calls {operation operation' : OperationDescriptor} {resolver resolver' : Resolver Resolved}
    (calls : operation.resolver = .field resolver) (calls' : operation'.resolver = .field resolver')
    (each : ∀ r, l.Binds type resolver resolver' (outcome (operation.parseArguments x.inputContext arguments) r)
      (outcome (operation'.parseArguments x.inputContext arguments') r)) :
    Targets l type arguments arguments' (.operation operation) (.operation operation')

/-- The field with host code that is told apart by nothing but what it comes to. -/
structure Fields (l : x.Likeness) (field field' : FieldPlan) : Prop where
  outline : field'.outline = field.outline
  targets : l.Targets field.type field.arguments field'.arguments field.target field'.target

/-- How far two root fields of a type have come. -/
inductive Tasks (l : x.Likeness) (type : TypeRef) : RootTask → RootTask → Prop
  | fresh : Tasks l type .fresh .fresh
  | queued : Tasks l type .queued .queued
  | working {work work' : Work Resolved} (alike : work.Alike (l.pace.Reads (l.values type)) work') :
    Tasks l type (.working work) (.working work')
  | done {value : ResponseValue} : Tasks l type (.done value) (.done value)
  | failed {abort : Abort} : Tasks l type (.failed abort) (.failed abort)

theorem Tasks.outline {l : x.Likeness} {type : TypeRef} {task task' : RootTask} (alike : l.Tasks type task task') :
    task'.outline = task.outline := by
  cases alike with
  | working alike => exact congrArg RootTask.working alike.outline
  | _ => rfl

theorem Tasks.value? {l : x.Likeness} {type : TypeRef} {task task' : RootTask} (alike : l.Tasks type task task') :
    task'.value? = task.value? := by
  cases alike <;> rfl

end Execution.Likeness

theorem FieldPlan.resembles_of_outline {field field' : FieldPlan} (outline : field'.outline = field.outline) :
    field.Resembles field' where
  name := show field'.outline.name = field.outline.name by rw [outline]
  location := show field'.outline.location = field.outline.location by rw [outline]
  selection := FieldPlan.selection_of_outline outline

namespace Execution

variable {x : Execution}

/-! ## Root fields -/

theorem follows_releaseSlot {host : Host} {pace : Pace host} :
    ExecM.Follows pace (fun _ _ => True) ExecM.releaseSlot ExecM.releaseSlot :=
  ExecM.follows_modify _ (fun _ => rfl) (fun _ => rfl) fun _ => rfl

namespace Likeness

variable {l : x.Likeness} {field field' : FieldPlan}

/-- The computations lead to related tasks of a root field. -/
abbrev Leads (l : x.Likeness) (field : FieldPlan) (m m' : ExecM RootTask) : Prop :=
  ExecM.Follows l.pace (l.Tasks field.type) m m'

section

variable (alike : l.Fields field field') (executable : x.ExecutableRoot field)

omit executable in
theorem finish_follows {m m' : ExecM ResponseValue} (follows : ExecM.Follows l.pace Eq m m') :
    l.Leads field (m >>= field.finish) (m' >>= field'.finish) := by
  refine follows.bind fun value _ same => ?_
  subst same
  exact (ExecM.follows_note _ _).bind fun _ _ _ => ExecM.follows_pure .done

theorem released_follows {m m' : ExecM ResponseValue} (follows : ExecM.Follows l.pace Eq m m') :
    l.Leads field (ExecM.releaseSlot >>= fun _ => m >>= field.finish)
      (ExecM.releaseSlot >>= fun _ => m' >>= field'.finish) :=
  follows_releaseSlot.bind fun _ _ _ => finish_follows follows

include alike

theorem panicked_follows (message : String) :
    ExecM.Follows l.pace Eq (field.panicked message) (field'.panicked message) := by
  have resembles := FieldPlan.resembles_of_outline alike.outline
  unfold FieldPlan.panicked
  rw [FieldPlan.rootPath_of_outline alike.outline, resembles.name]
  exact fieldError_follows resembles _ _ _

include executable

theorem completeRoot_follows {result result' : Except Failure Resolved}
    (reads : l.pace.Reads (l.values field.type) result result') :
    ExecM.Follows l.pace Eq (x.completeRoot field result) (x.completeRoot field' result') := by
  have resembles := FieldPlan.resembles_of_outline alike.outline
  cases reads with
  | failed failure =>
    cases failure with
    | error e =>
      unfold completeRoot
      simp only
      rw [FieldPlan.rootPath_of_outline alike.outline]
      exact hostError_follows resembles _ _ _
    | panic message => exact panicked_follows alike message
  | read holds =>
    unfold completeRoot
    simp only
    rw [FieldPlan.type_of_outline alike.outline, FieldPlan.rootPath_of_outline alike.outline]
    exact complete_follows field.type holds resembles executable.below _ _
  | panicked forgives =>
    unfold completeRoot
    simp only
    rw [complete]
    exact ExecM.pushError_follows_null forgives _

/-- The work of two resolvers, until it gives way or is done. -/
theorem work_follows {work work' : Work Resolved} (works : work.Alike (l.pace.Reads (l.values field.type)) work') :
    l.Leads field (x.work field work) (x.work field' work') := by
  induction works with
  | done reads =>
    rw [Execution.work, Execution.work]
    exact released_follows (completeRoot_follows alike executable reads)
  | pause later _ =>
    rw [Execution.work, Execution.work]
    exact ExecM.follows_pure (.working later)
  | record _ ih =>
    rw [Execution.work, Execution.work]
    refine ExecM.Follows.bind (ExecM.follows_modify _ ?_ ?_ ?_) fun _ _ _ => ih
    all_goals exact fun _ => rfl
  | cancel _ ih =>
    rw [Execution.work, Execution.work]
    refine ExecM.Follows.bind (ExecM.follows_modify _ ?_ ?_ ?_) fun _ _ _ => ih
    all_goals exact fun _ => rfl
  | awaitCancel later ih =>
    rw [Execution.work, Execution.work]
    refine ExecM.follows_get fun s t paced => ?_
    rw [paced.cancelled]
    split
    · exact ih
    · exact ExecM.follows_pure (.working (.awaitCancel later))
  | askCancelled _ ih =>
    rw [Execution.work, Execution.work]
    refine ExecM.follows_get fun s t paced => ?_
    rw [paced.cancelled]
    exact ih _

/-- A panic that is caught goes on like work that comes to null. -/
theorem nulled_follows (forgives : l.pace.forgives) (message : String) :
    l.Leads field (ExecM.releaseSlot >>= fun _ => field.panicked message >>= field.finish)
      (x.work field' (.done (.ok .null))) := by
  rw [Execution.work]
  exact released_follows (completeRoot_follows alike executable (.panicked forgives))

section

variable {operation operation' : OperationDescriptor} {resolver resolver' : Resolver Resolved}
  (each : ∀ r, l.Binds field.type resolver resolver'
    (outcome (operation.parseArguments x.inputContext field.arguments) r)
    (outcome (operation'.parseArguments x.inputContext field'.arguments) r))

include each

omit alike executable in
theorem parseArguments_follows :
    ExecM.Follows l.pace (fun result result' => ∃ r, l.Binds field.type resolver resolver' (result, r) (result', r))
      (ExecM.onRegistry (operation.parseArguments x.inputContext field.arguments).run)
      (ExecM.onRegistry (operation'.parseArguments x.inputContext field'.arguments).run) := by
  refine ExecM.follows_onRegistry fun r _ => ?_
  have later := (OperationDescriptor.parseArguments_settles x.inputContext operation field.arguments r).grows
  have bound := each r
  cases ran : outcome (operation.parseArguments x.inputContext field.arguments) r with
  | mk result s =>
    cases ran' : outcome (operation'.parseArguments x.inputContext field'.arguments) r with
    | mk result' s' =>
      rw [ran] at later
      rw [ran, ran'] at bound
      have same : s' = s := by cases bound <;> rfl
      subst same
      exact ⟨⟨_, bound⟩, rfl, later⟩

theorem call_follows : l.Leads field (x.call field operation resolver) (x.call field' operation' resolver') := by
  unfold call
  refine (parseArguments_follows each).bind fun result result' bound => ?_
  obtain ⟨r, bound⟩ := bound
  cases bound with
  | @called arguments arguments' _ calls =>
    refine (ExecM.follows_note _ _).bind fun _ _ _ => ?_
    revert calls
    generalize resolver arguments = called
    generalize resolver' arguments' = called'
    rintro (works | _ | forgives)
    · exact work_follows alike executable works
    · exact released_follows (panicked_follows alike _)
    · exact nulled_follows alike executable forgives _
  | @failed failure =>
    cases failure with
    | error e =>
      have refused : ExecM.Follows l.pace Eq (ExecM.hostError e .validationError field field.rootPath)
          (ExecM.hostError e .validationError field' field.rootPath) :=
        hostError_follows (FieldPlan.resembles_of_outline alike.outline) _ _ _
      simp only
      rw [FieldPlan.rootPath_of_outline alike.outline]
      exact released_follows refused
    | panic message => exact released_follows (panicked_follows alike message)
  | panicked forgives null =>
    simp only
    rw [null]
    exact (nulled_follows alike executable forgives _).noted _

theorem enter_follows : l.Leads field (x.enter field operation resolver) (x.enter field' operation' resolver') := by
  intro s t paced
  have same : s.slots.limit > 0 ∧ t.cancelled = true ↔ s.slots.limit > 0 ∧ s.cancelled = true := by
    rw [paced.cancelled]
  rw [outcome_enter, outcome_enter, paced.slots]
  by_cases refused : s.slots.limit > 0 ∧ s.cancelled = true
  · rw [if_pos refused, if_pos (same.2 refused)]
    exact .failed paced
  · rw [if_neg refused, if_neg fun h => refused (same.1 h)]
    cases s.slots.acquire? with
    | none => exact .ended .queued paced
    | some slots =>
      refine call_follows alike executable each { s with slots } { t with slots } ?_
      exact paced.change (fun u => { u with slots }) (fun _ => rfl) (fun _ => rfl) fun _ => rfl

end

theorem withResolver_follows :
    l.Leads field (x.withResolver field (x.enter field)) (x.withResolver field' (x.enter field')) := by
  have target := alike.targets
  unfold withResolver
  simp only
  revert target
  generalize field.target = target
  generalize field'.target = target'
  rintro (uncalled | ⟨calls, calls', each⟩)
  · cases target with
    | typename => exact (ExecM.follows_note _ _).bind fun _ _ _ => ExecM.follows_pure .done
    | operation operation =>
      simp only
      cases resolver : operation.resolver with
      | field resolver' => exact absurd resolver (uncalled operation resolver' rfl)
      | stream _ =>
        simp only
        rw [FieldPlan.rootPath_of_outline alike.outline]
        exact finish_follows (fieldError_follows (FieldPlan.resembles_of_outline alike.outline) _ _ _)
    | objectField _ _ => exact ExecM.follows_throw _
    | interfaceField => exact ExecM.follows_throw _
  · simp only
    rw [calls, calls']
    exact enter_follows alike executable each

omit executable in
theorem addComplexity_follows :
    ExecM.Follows l.pace (fun _ _ => True) (ExecM.addComplexity x.limits field) (ExecM.addComplexity x.limits field') := by
  have complexity : field'.complexity = field.complexity :=
    show field'.outline.complexity = field.outline.complexity by rw [alike.outline]
  unfold ExecM.addComplexity
  simp only [complexity, FieldPlan.guard_of_outline alike.outline]
  refine ExecM.Follows.bind (ExecM.follows_modify _ ?_ ?_ ?_) fun _ _ _ => ExecM.follows_get fun s t paced => ?_
  · exact fun _ => rfl
  · exact fun _ => rfl
  · exact fun _ => rfl
  · rw [paced.complexity]
    exact (ExecM.follows_ofExcept _).mono fun _ _ _ => trivial

theorem start_follows : l.Leads field (x.start field) (x.start field') := by
  have rest := withResolver_follows alike executable
  have target := alike.targets
  unfold start
  rw [FieldPlan.guard_of_outline alike.outline]
  refine ExecM.follows_checkCancelled.bind fun _ _ _ => (ExecM.follows_ofExcept _).bind fun _ _ _ => ?_
  revert target
  generalize field.target = target
  generalize field'.target = target'
  rintro (_ | _)
  · cases target with
    | operation _ => exact (addComplexity_follows alike).bind fun _ _ _ => rest
    | _ => exact rest
  · exact (addComplexity_follows alike).bind fun _ _ _ => rest

/-- Advancing a related field is like advancing the field. -/
theorem advance_follows {task task' : RootTask} (tasks : l.Tasks field.type task task') :
    l.Leads field (x.advance field task) (x.advance field' task') := by
  cases tasks with
  | fresh => exact start_follows alike executable
  | queued => exact withResolver_follows alike executable
  | working works => exact work_follows alike executable works
  | done => exact ExecM.follows_pure .done
  | failed => exact ExecM.follows_throw _

end

/-! ## Runs -/

/-- Two root fields and how far they have come. -/
structure Entry (l : x.Likeness) (entry entry' : FieldPlan × RootTask) : Prop where
  fields : l.Fields entry.1 entry'.1
  tasks : l.Tasks entry.1.type entry.2 entry'.2

/-- Two runs of related root fields. -/
structure Runs (l : x.Likeness) (run run' : Run) : Prop where
  tasks : List.Forall₂ l.Entry run.tasks run'.tasks
  state : run.state.Paced l.pace run'.state
  aborted : run'.aborted = run.aborted

namespace Runs

variable {run run' : Run}

theorem outline (alike : l.Runs run run') : run'.outline = run.outline := by
  have tasks : Run.outlines run'.tasks = Run.outlines run.tasks :=
    map_eq_of_forall₂ alike.tasks fun _ _ same => Prod.ext same.fields.outline same.tasks.outline
  unfold Run.outline ExecutionState.outline
  rw [tasks, alike.aborted, alike.state.slots, alike.state.cancelled]

theorem data (alike : l.Runs run run') : run'.data = run.data := by
  have entries {f : FieldPlan × RootTask → Option (String × ResponseValue)}
      (each : ∀ entry entry', l.Entry entry entry' → f entry' = f entry) : run'.tasks.mapM f = run.tasks.mapM f := by
    have tasks := alike.tasks
    revert tasks
    generalize run.tasks = tasks
    generalize run'.tasks = tasks'
    intro related
    induction related with
    | nil => rfl
    | cons first _ ih => rw [List.mapM_cons, List.mapM_cons, ih, each _ _ first]
  unfold Run.data
  rw [alike.aborted, entries]
  intro entry entry' same
  simp only [FieldPlan.responseKey_of_outline same.fields.outline, same.tasks.value?]

theorem entry (alike : l.Runs run run') {i : Nat} {field : FieldPlan} {task : RootTask}
    (at' : run.tasks[i]? = some (field, task)) :
    ∃ field' task', run'.tasks[i]? = some (field', task') ∧ l.Fields field field' ∧ l.Tasks field.type task task' := by
  have found := forall₂_getElem? alike.tasks i
  rw [at'] at found
  cases h : run'.tasks[i]? with
  | none =>
    rw [h] at found
    cases found
  | some entry =>
    rw [h] at found
    cases found with
    | some same => exact ⟨entry.1, entry.2, rfl, same.fields, same.tasks⟩

theorem heed (alike : l.Runs run run') (kind : OperationKind) :
    l.Runs (Run.heed kind run) (Run.heed kind run') := by
  unfold Run.heed
  rw [Run.failure?_of_outline alike.outline, Run.slotsHeld_of_outline alike.outline]
  split
  · exact alike
  · refine ⟨alike.tasks, ?_, rfl⟩
    exact alike.state.change (fun u => { u with slots := u.slots.release run.slotsHeld }) (fun _ => rfl) (fun _ => rfl)
      fun _ => rfl

theorem launch {fields fields' : List FieldPlan} {state : ExecutionState} (known : l.pace.knows state.registry)
    (same : l.pace.errors state.errors state.errors) (each : List.Forall₂ l.Fields fields fields') :
    l.Runs (Run.launch fields state) (Run.launch fields' state) where
  tasks := List.forall₂_map_left_iff.2 (List.forall₂_map_right_iff.2 (each.imp fun _ _ alike => ⟨alike, .fresh⟩))
  state := ⟨rfl, same, known⟩
  aborted := rfl

theorem forall₂_set {α β : Type} {rel : α → β → Prop} {as : List α} {bs : List β} (each : List.Forall₂ rel as bs)
    (i : Nat) {a : α} {b : β} (holds : rel a b) : List.Forall₂ rel (as.set i a) (bs.set i b) := by
  induction each generalizing i with
  | nil => exact .nil
  | cons first rest ih =>
    cases i with
    | zero => exact .cons holds rest
    | succ i => exact .cons first (ih i)

/-- Polling the same field in both runs. No crash of the first may come between them. -/
theorem poll (executable : ∀ field ∈ x.plan.selection, x.ExecutableRoot field)
    (contained : l.pace.forgives → ∀ field ∈ x.plan.selection, ∀ message, ¬x.PanicsAt field message)
    (safe : run.Safe x) (alike : l.Runs run run') (i : Nat) : l.Runs (run.poll x i) (run'.poll x i) := by
  have turn := Run.busy_of_outline alike.outline x.plan.kind i
  by_cases busy : run.aborted = none ∧ (∃ entry, run.tasks[i]? = some entry) ∧ run.isReady x.plan.kind i = true
  · have busy' := turn.2 busy
    obtain ⟨ongoing, ⟨⟨field, task⟩, at'⟩, ready⟩ := busy
    obtain ⟨field', task', at'', fields, tasks⟩ := alike.entry at'
    obtain ⟨selected, before⟩ := safe.tasks _ (List.mem_of_getElem? at')
    have paces := advance_follows fields (executable field selected) tasks run.state run'.state alike.state
    have ends := (advance_leads (executable field selected) before _ safe.reachable).2
    cases ran : outcome (x.advance field task) run.state with
    | mk result s =>
      cases ran' : outcome (x.advance field' task') run'.state with
      | mk result' s' =>
        rw [ran, ran'] at paces
        rw [ran] at ends
        rw [Run.poll_eq ongoing at' ready ran, Run.poll_eq busy'.1 at'' busy'.2.2 ran']
        have set {after after' : RootTask} (same : l.Tasks field.type after after') (paced : s.Paced l.pace s') :
            l.Runs { run with tasks := run.tasks.set i (field, after), state := s }
              { run' with tasks := run'.tasks.set i (field', after'), state := s' } :=
          ⟨forall₂_set alike.tasks i ⟨fields, same⟩, paced, alike.aborted⟩
        cases paces with
        | crashed forgives =>
          cases ends with
          | crash panics => exact absurd panics (contained forgives field selected _)
        | failed paced => exact (set .failed paced).heed _
        | ended holds paced => exact (set holds paced).heed _
  · rw [Run.poll_idle busy, Run.poll_idle fun busy' => busy (turn.1 busy')]
    exact alike

end Runs

/-! ## Executing -/

/-- Executing with related root fields gives the same data, with errors that compare as the pace says. -/
theorem execute_alike (l : x.Likeness) {plan : Plan} {state : ExecutionState}
    (executable : ∀ field ∈ x.plan.selection, x.ExecutableRoot field)
    (contained : l.pace.forgives → ∀ field ∈ x.plan.selection, ∀ message, ¬x.PanicsAt field message)
    (known : l.pace.knows state.registry) (same : l.pace.errors state.errors state.errors)
    (kind : plan.kind = x.plan.kind) (fields : List.Forall₂ l.Fields x.plan.selection plan.selection) :
    ∃ data errors errors' final final', l.pace.errors errors errors' ∧ final.bare = final'.bare ∧
      x.execute state = (respond data errors, final) ∧
      (x.withPlan plan).execute state = (respond data errors', final') := by
  have roots := rootFields_of_outline (fun _ _ alike => alike.outline) fields
  cases rooted : x.rootFields with
  | error e =>
    rw [rooted] at roots
    refine ⟨.error (.error e), _, _, state, state, same, rfl, ?_, ?_⟩
    · rw [execute, rooted]
      rfl
    · rw [execute, roots.of_error]
      rfl
  | ok fields =>
    rw [rooted] at roots
    obtain ⟨fields', rooted', alike⟩ := roots.of_ok
    have selected : ∀ field ∈ fields, field ∈ x.plan.selection :=
      fun field mem => mem_of_collect (rootFields_eq_ok rooted).1 mem
    have launched : (Turn.launch fields state).Together (fun run run' => run.Safe x ∧ l.Runs run run')
        (Turn.launch fields' state) :=
      ⟨⟨Run.launch_safe (l.pace.reachable known) selected, Runs.launch known same alike⟩,
        congrArg List.range alike.length_eq.symm, rfl⟩
    obtain ⟨-, settled⟩ := Turn.settle_keeps (fun _ _ alike => alike.2.outline)
      (fun _ _ i alike => ⟨alike.1.poll executable i, alike.2.poll executable contained alike.1 i⟩) launched
    refine ⟨_, _, _, _, _, settled.state.errors, settled.state.bare, execute_rooted rooted, ?_⟩
    rw [execute_rooted rooted', Turn.settle_withPlan kind]
    simp only
    rw [settled.data]

theorem shapeEvent_follows {event event' : Resolved} (executable : ∀ field ∈ x.plan.selection, x.ExecutableRoot field)
    (alike : ∀ field ∈ x.plan.selection, l.values field.type event event') :
    ExecM.Follows l.pace Eq (x.shapeEvent event) (x.shapeEvent event') := by
  unfold shapeEvent
  cases selected : x.collect x.plan.selection none with
  | error e => exact ExecM.follows_throw _
  | ok fields =>
    cases fields with
    | nil => exact ExecM.follows_pure rfl
    | cons field rest =>
      have mem := mem_of_collect selected List.mem_cons_self
      refine ExecM.follows_checkCancelled.bind fun _ _ _ => ?_
      refine (complete_follows field.type (alike field mem) (.refl field) (executable field mem).below _ _).bind ?_
      intro value _ same
      subst same
      exact ExecM.follows_pure rfl

/-- Executing related events gives the same data. -/
theorem executeEvent_alike (l : x.Likeness) {event event' : Resolved} {state : ExecutionState} (strict : ¬l.pace.forgives)
    (executable : ∀ field ∈ x.plan.selection, x.ExecutableRoot field) (known : l.pace.knows state.registry)
    (same : l.pace.errors state.errors state.errors)
    (alike : ∀ field ∈ x.plan.selection, l.values field.type event event') :
    ∃ data errors errors' final final', l.pace.errors errors errors' ∧ final.bare = final'.bare ∧
      x.executeEvent event state = (respond data errors, final) ∧
      x.executeEvent event' state = (respond data errors', final') := by
  have paces := shapeEvent_follows executable alike state state ⟨rfl, same, known⟩
  unfold executeEvent
  cases ran : outcome (x.shapeEvent event) state with
  | mk result s =>
    cases ran' : outcome (x.shapeEvent event') state with
    | mk result' s' =>
      rw [ran, ran'] at paces
      have ran : (x.shapeEvent event).run.run state = (result, s) := ran
      have ran' : (x.shapeEvent event').run.run state = (result', s') := ran'
      rw [ran, ran']
      cases paces with
      | crashed forgives => exact absurd forgives strict
      | failed paced => exact ⟨_, _, _, _, _, paced.errors, paced.bare, rfl, rfl⟩
      | ended holds paced =>
        subst holds
        exact ⟨_, _, _, _, _, paced.errors, paced.bare, rfl, rfl⟩

end Likeness

end Execution

end GraphQL
