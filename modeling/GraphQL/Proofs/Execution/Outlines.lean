import GraphQL.Proofs.Execution.Alone
import GraphQL.Proofs.Execution.Pacing
import GraphQL.Proofs.Execution.Settling

/-!
# What turns depend on

Which field takes its turn depends on how far each has come, on the slots and on the cancellation, and on no
value or host code. The outline of a run is what remains without these: runs with one outline wait, fail and
wake alike. So what is true of two runs with one outline, and kept when the same field is polled in both, is
true of them when they settle: `settle_keeps`. The guards on the root fields depend on their outlines alone, so
that plans with one outline are refused alike or have root fields with one outline: `rootFields_of_outline`.
-/

namespace GraphQL

/-- The field without its host code. -/
def FieldPlan.outline (field : FieldPlan) : FieldPlan := { field with target := .typename, arguments := [] }

/-- The work without what it comes to. -/
def Work.outline : Work Resolved → Work Resolved
  | .done _ => .done (.ok .null)
  | .pause next => .pause next.outline
  | .record entry next => .record entry next.outline
  | .cancel next => .cancel next.outline
  | .awaitCancel next => .awaitCancel next.outline
  | .askCancelled next => .askCancelled fun cancelled => (next cancelled).outline

theorem Work.outline_size (work : Work Resolved) : work.outline.size = work.size := by
  induction work with
  | done => rfl
  | pause _ ih | record _ _ ih | cancel _ ih | awaitCancel _ ih => exact congrArg (· + 1) ih
  | askCancelled _ ih => rw [outline, size, size, ih, ih]

/-! ## Tasks -/

namespace RootTask

/-- The task without the value that it has come to, or is to come to. -/
def outline : RootTask → RootTask
  | .working work => .working work.outline
  | .done _ => .done .null
  | task => task

variable (task : RootTask)

theorem outline_isWaiting : task.outline.isWaiting = task.isWaiting := by cases task <;> rfl

theorem outline_holdsSlot : task.outline.holdsSlot = task.holdsSlot := by cases task <;> rfl

theorem outline_size : task.outline.size = task.size := by
  cases task with
  | working work => exact congrArg (· + 1) work.outline_size
  | _ => rfl

theorem outline_isDone : task.outline.value?.isSome = task.value?.isSome := by cases task <;> rfl

theorem outline_abort? : task.outline.abort? = task.abort? := by cases task <;> rfl

theorem outline_crash? : task.outline.crash? = task.crash? := by cases task <;> rfl

theorem outline_isQueued : task.outline.isQueued = task.isQueued := by cases task <;> rfl

theorem outline_heedsCancel : task.outline.heedsCancel = task.heedsCancel := by
  cases task with
  | working work => cases work <;> rfl
  | _ => rfl

theorem outline_isResting (cancelled : Bool) : task.outline.isResting cancelled = task.isResting cancelled := by
  cases task with
  | working work => cases work <;> rfl
  | _ => rfl

end RootTask

/-! ## Runs -/

/-- The state without what turns do not depend on. -/
def ExecutionState.outline (s : ExecutionState) : ExecutionState :=
  { registry := {}, slots := s.slots, cancelled := s.cancelled }

namespace Run

/-- The outline of a list of tasks. -/
def outlines (tasks : List (FieldPlan × RootTask)) : List (FieldPlan × RootTask) :=
  tasks.map fun entry => (entry.1.outline, entry.2.outline)

/-- The run without what its turns do not depend on. -/
def outline (run : Run) : Run where
  tasks := outlines run.tasks
  state := run.state.outline
  aborted := run.aborted

section

variable (run : Run)

theorem outline_countP {which : RootTask → Bool} (same : ∀ task : RootTask, which task.outline = which task) :
    (run.outline.tasks.countP fun entry => which entry.2) = run.tasks.countP fun entry => which entry.2 := by
  unfold outline outlines
  rw [List.countP_map]
  exact List.countP_congr fun entry _ => by rw [Function.comp_apply, same]

theorem outline_waiting : run.outline.waiting = run.waiting := run.outline_countP RootTask.outline_isWaiting

theorem outline_slotsHeld : run.outline.slotsHeld = run.slotsHeld := run.outline_countP RootTask.outline_holdsSlot

theorem outline_size : run.outline.size = run.size := by
  unfold size outline outlines
  rw [List.foldr_map]
  exact congrArg (fun f => List.foldr f 0 run.tasks)
    (funext fun entry => funext fun total => congrArg (· + total) entry.2.outline_size)

theorem outline_isReady (kind : OperationKind) (i : Nat) : run.outline.isReady kind i = run.isReady kind i := by
  unfold isReady outline outlines
  rw [← List.map_take, List.all_map]
  exact congrArg (_ || ·) (congrArg (List.all (run.tasks.take i)) (funext fun entry => entry.2.outline_isDone))

theorem outline_length : run.outline.tasks.length = run.tasks.length := List.length_map _

theorem outline_isCrowd (kind : OperationKind) : run.outline.isCrowd kind = run.isCrowd kind := by
  unfold isCrowd
  rw [outline_length]

theorem outline_findSome? {of : RootTask → Option Abort} (same : ∀ task : RootTask, of task.outline = of task) :
    (run.outline.tasks.findSome? fun entry => of entry.2) = run.tasks.findSome? fun entry => of entry.2 := by
  unfold outline outlines
  rw [List.findSome?_map]
  exact congrArg (List.findSome? · run.tasks) (funext fun entry => same entry.2)

theorem firstUndone_outlines (tasks : List (FieldPlan × RootTask)) : firstUndone (outlines tasks) = firstUndone tasks := by
  induction tasks with
  | nil => rfl
  | cons entry rest ih =>
    obtain ⟨field, task⟩ := entry
    cases task with
    | done v => exact ih
    | _ => rfl

theorem outline_failure? (kind : OperationKind) : run.outline.failure? kind = run.failure? kind := by
  have crashes : (run.outline.tasks.findSome? fun entry => entry.2.crash?) = run.tasks.findSome? fun entry => entry.2.crash? :=
    run.outline_findSome? RootTask.outline_crash?
  have aborts : (run.outline.tasks.findSome? fun entry => entry.2.abort?) = run.tasks.findSome? fun entry => entry.2.abort? :=
    run.outline_findSome? RootTask.outline_abort?
  have undone : firstUndone run.outline.tasks = firstUndone run.tasks := firstUndone_outlines run.tasks
  unfold failure?
  rw [outline_isCrowd, undone]
  exact congrArg₂ (fun first second => if run.isCrowd kind then first.or (firstUndone run.tasks) else second) crashes aborts

theorem outline_places {which : RootTask → Bool} (same : ∀ task : RootTask, which task.outline = which task) :
    run.outline.places which = run.places which := by
  unfold places outline outlines
  rw [List.zipIdx_map, List.filter_map, List.map_map]
  exact congrArg (fun p => (List.filter p run.tasks.zipIdx).map Prod.snd) (funext fun entry => same entry.1.2)

theorem outline_admitted : run.outline.admitted = run.admitted := by
  have heeding := run.outline_places RootTask.outline_heedsCancel
  have queued := run.outline_places RootTask.outline_isQueued
  unfold admitted
  rw [heeding, queued]
  rfl

theorem outline_gaveWay (i : Nat) : run.outline.gaveWay i = run.gaveWay i := by
  unfold gaveWay
  change Option.any _ (run.tasks.map fun entry => (entry.1.outline, entry.2.outline))[i]? = _
  rw [List.getElem?_map, Option.any_map]
  exact congrArg (Option.any · run.tasks[i]?) (funext fun entry => entry.2.outline_isResting run.state.cancelled)

end

/-! ### One outline -/

section

variable {run run' : Run} (same : run'.outline = run.outline)

include same

theorem slotsHeld_of_outline : run'.slotsHeld = run.slotsHeld := by
  rw [← outline_slotsHeld, same, outline_slotsHeld]

theorem length_of_outline : run'.tasks.length = run.tasks.length := by rw [← outline_length, same, outline_length]

theorem isCrowd_of_outline (kind : OperationKind) : run'.isCrowd kind = run.isCrowd kind := by
  rw [← outline_isCrowd, same, outline_isCrowd]

theorem failure?_of_outline (kind : OperationKind) : run'.failure? kind = run.failure? kind := by
  rw [← outline_failure?, same, outline_failure?]

theorem admitted_of_outline : run'.admitted = run.admitted := by rw [← outline_admitted, same, outline_admitted]

theorem gaveWay_of_outline (i : Nat) : run'.gaveWay i = run.gaveWay i := by
  rw [← outline_gaveWay, same, outline_gaveWay]

theorem aborted_of_outline : run'.aborted = run.aborted := show run'.outline.aborted = run.outline.aborted by rw [same]

theorem gains_of_outline {next next' : Run} (after : next'.outline = next.outline) :
    run'.Gains next' ↔ run.Gains next := by
  have waiting : run'.waiting = run.waiting := by rw [← outline_waiting, same, outline_waiting]
  have size : run'.size = run.size := by rw [← outline_size, same, outline_size]
  have waiting' : next'.waiting = next.waiting := by rw [← outline_waiting, after, outline_waiting]
  have size' : next'.size = next.size := by rw [← outline_size, after, outline_size]
  unfold Gains
  rw [waiting, size, waiting', size']

/-- It is the turn of the same fields. -/
theorem busy_of_outline (kind : OperationKind) (i : Nat) :
    (run'.aborted = none ∧ (∃ entry, run'.tasks[i]? = some entry) ∧ run'.isReady kind i = true) ↔
      run.aborted = none ∧ (∃ entry, run.tasks[i]? = some entry) ∧ run.isReady kind i = true := by
  have here (tasks : List (FieldPlan × RootTask)) : (∃ entry, tasks[i]? = some entry) ↔ i < tasks.length := by
    constructor
    · rintro ⟨_, found⟩
      exact (List.getElem?_eq_some_iff.1 found).1
    · exact fun bound => ⟨_, List.getElem?_eq_getElem bound⟩
  have ready : run'.isReady kind i = run.isReady kind i := by rw [← outline_isReady, same, outline_isReady]
  rw [aborted_of_outline same, ready, here, here, length_of_outline same]

end

end Run

/-! ## Turns -/

namespace Turn

/-- Two runs of which the same fields were woken, and what is true of them. -/
structure Together (keeps : Run → Run → Prop) (turn turn' : Turn) : Prop where
  run : keeps turn.run turn'.run
  woken : turn'.woken = turn.woken
  resting : turn'.resting = turn.resting

section

variable {x : Execution} {keeps : Run → Run → Prop}
  (outlined : ∀ run run', keeps run run' → run'.outline = run.outline)
  (polls : ∀ run run' i, keeps run run' → keeps (run.poll x i) (run'.poll x i))

include outlined polls

omit outlined in
theorem polls_keeps {run run' : Run} (kept : keeps run run') (places : List Nat) :
    keeps (places.foldl (Run.poll x) run) (places.foldl (Run.poll x) run') := by
  induction places generalizing run run' with
  | nil => exact kept
  | cons i rest ih => exact ih (polls _ _ i kept)

theorem Together.pollWoken {turn turn' : Turn} (together : turn.Together keeps turn') (woken : List Nat) :
    (Turn.pollWoken x woken turn).Together keeps (Turn.pollWoken x woken turn') := by
  induction woken generalizing turn turn' with
  | nil => exact together
  | cons i rest ih =>
    have polled := polls _ _ i together.run
    have same := outlined _ _ polled
    rw [pollWoken_cons, pollWoken_cons]
    refine ih ⟨polled, ?_, ?_⟩
    · unfold Turn.polled
      simp only
      rw [Run.admitted_of_outline same, Run.gaveWay_of_outline same, together.woken, together.resting]
    · unfold Turn.polled
      simp only
      rw [Run.gaveWay_of_outline same, together.resting]

theorem Together.next {turn turn' : Turn} (together : turn.Together keeps turn') :
    (turn.next x).Together keeps (turn'.next x) := by
  have same := outlined _ _ together.run
  unfold Turn.next
  rw [Run.isCrowd_of_outline same, together.woken, together.resting]
  split
  · unfold pollAll
    rw [Run.length_of_outline same]
    exact ⟨polls_keeps polls together.run _, together.woken, together.resting⟩
  · have left (woken resting : List Nat) : Turn.Together keeps ⟨turn.run, woken, resting⟩ ⟨turn'.run, woken, resting⟩ :=
      ⟨together.run, rfl, rfl⟩
    split
    · exact (left turn.woken []).pollWoken outlined polls _
    · exact (left [] turn.resting).pollWoken outlined polls _

/-- Two runs settle together. -/
theorem settle_keeps {turn turn' : Turn} (together : turn.Together keeps turn') :
    keeps (turn.settle x) (turn'.settle x) := by
  refine settle_induction (x := x)
    (motive := fun turn run => ∀ turn', turn.Together keeps turn' → keeps run (turn'.settle x))
    (fun turn idle turn' together => ?_) (fun turn gains settled turn' together => ?_) turn turn' together
  all_goals
    have after := together.next outlined polls
    have gaining := Run.gains_of_outline (outlined _ _ together.run) (outlined _ _ after.run)
  · rcases settle_cases (x := x) turn' with ⟨-, same⟩ | ⟨gains, -⟩
    · rw [same]
      exact after.run
    · exact absurd (gaining.1 gains) idle
  · rcases settle_cases (x := x) turn' with ⟨idle, -⟩ | ⟨-, same⟩
    · exact absurd (gaining.2 gains) idle
    · rw [same]
      exact settled _ after

end

end Turn

/-! ## Root fields -/

section

variable {field field' : FieldPlan} (outline : field'.outline = field.outline)

include outline

theorem FieldPlan.selection_of_outline : field'.selection = field.selection :=
  show field'.outline.selection = field.outline.selection by rw [outline]

theorem FieldPlan.responseKey_of_outline : field'.responseKey = field.responseKey :=
  show field'.outline.responseKey = field.outline.responseKey by rw [outline]

theorem FieldPlan.rootPath_of_outline : field'.rootPath = field.rootPath :=
  show field'.outline.rootPath = field.outline.rootPath by rw [outline]

theorem FieldPlan.type_of_outline : field'.type = field.type :=
  show field'.outline.type = field.outline.type by rw [outline]

theorem FieldPlan.guard_of_outline (check : Except LimitError Unit) : field'.guard check = field.guard check :=
  show field'.outline.guard check = field.outline.guard check by rw [outline]

end

namespace Execution

variable {x : Execution}

theorem isIncluded_outline (field : FieldPlan) : x.isIncluded field.outline = x.isIncluded field := by
  have each (conditions : List Condition) : x.holds field.outline conditions = x.holds field conditions := by
    induction conditions with
    | nil => rfl
    | cons condition rest ih =>
      rw [holds, holds, ih]
      rfl
  exact each _

theorem isIncluded_of_outline {field field' : FieldPlan} (outline : field'.outline = field.outline) :
    x.isIncluded field' = x.isIncluded field := by
  rw [← isIncluded_outline, outline, isIncluded_outline]

section

variable {rel : FieldPlan → FieldPlan → Prop} (outlined : ∀ field field', rel field field' → field'.outline = field.outline)
  {fields fields' : List FieldPlan} (each : List.Forall₂ rel fields fields')

include outlined each

theorem checkDepth_of_outline (depth : Nat) : x.checkDepth depth fields' = x.checkDepth depth fields := by
  induction each generalizing depth with
  | nil => rfl
  | cons first _ ih =>
    have outline := outlined _ _ first
    rw [checkDepth, checkDepth, isIncluded_of_outline outline, FieldPlan.guard_of_outline outline,
      FieldPlan.selection_of_outline outline, ih]

theorem checkAliases_of_outline (count : Nat) : x.checkAliases count fields' = x.checkAliases count fields := by
  induction each generalizing count with
  | nil => rfl
  | @cons field field' _ _ first _ ih =>
    have outline := outlined _ _ first
    have aliased : field'.aliased = field.aliased := show field'.outline.aliased = field.outline.aliased by rw [outline]
    rw [checkAliases, checkAliases, aliased, FieldPlan.guard_of_outline outline, ih, ih]

theorem included_of_outline :
    Corresponds (List.Forall₂ rel) (x.included none fields) (x.included none fields') := by
  induction each with
  | nil => exact .ended .nil
  | @cons field field' _ _ first _ ih =>
    rw [included, included, isIncluded_of_outline (outlined _ _ first)]
    simp only [appliesTo, if_true]
    cases x.isIncluded field with
    | error e => exact .failed e
    | ok keep =>
      refine ih.map fun rest rest' holds => ?_
      cases keep with
      | false => exact holds
      | true => exact .cons first holds

theorem collect_of_outline : Corresponds (List.Forall₂ rel) (x.collect fields none) (x.collect fields' none) := by
  unfold collect
  refine (included_of_outline outlined each).bind fun found found' holds => ?_
  have count := holds.length_eq
  cases holds with
  | nil => exact .ended .nil
  | @cons field field' rest rest' first others =>
    have guards : Corresponds Eq (field.guard (x.limits.checkFields (field :: rest).length))
        (field'.guard (x.limits.checkFields (field' :: rest').length)) := by
      rw [FieldPlan.guard_of_outline (outlined _ _ first), count]
      exact .refl _
    exact guards.bind fun _ _ _ => .ended (.cons first others)

end

theorem rootFields_of_outline {rel : FieldPlan → FieldPlan → Prop}
    (outlined : ∀ field field', rel field field' → field'.outline = field.outline) {plan : Plan}
    (each : List.Forall₂ rel x.plan.selection plan.selection) :
    Corresponds (List.Forall₂ rel) x.rootFields (x.withPlan plan).rootFields := by
  have depth : (x.withPlan plan).checkPlanDepth = x.checkPlanDepth := by
    unfold checkPlanDepth
    rw [checkDepth_withPlan]
    exact congrArg (fun check => if x.limits.maxDepth = 0 then .ok () else check) (checkDepth_of_outline outlined each 1)
  unfold rootFields
  rw [depth, collect_withPlan]
  refine (Corresponds.refl _).bind fun _ _ _ => (collect_of_outline outlined each).bind fun fields fields' same => ?_
  rw [checkAliases_withPlan, checkAliases_of_outline outlined same]
  exact (Corresponds.refl _).bind fun _ _ _ => .ended same

end Execution

end GraphQL
