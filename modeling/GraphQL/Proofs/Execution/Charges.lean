import GraphQL.Proofs.Execution.Cancellation
import GraphQL.Proofs.Execution.Depths
import GraphQL.Proofs.Execution.Serial
import GraphQL.Proofs.Plan.Costs

/-!
# What a request is charged

A root field that is an operation is charged to its request once, when it starts: after it has looked at the
cancellation and at its depth, and before its resolver can be called. `Run.charged` lists the fields that are
charged in the course of some moves. `Run.Tallied` says how the account then stands: at the total of those fields,
which with what is still due never exceeds the total of all. As long as no field has failed nothing is missing
from it, and the limit is kept.
-/

namespace GraphQL

/-! ## Totals -/

theorem totalComplexity_le {fields fields' : List FieldPlan} (less : sumComplexity fields ≤ sumComplexity fields') :
    totalComplexity fields ≤ totalComplexity fields' := by
  rw [totalComplexity_eq_min, totalComplexity_eq_min]
  omega

theorem totalComplexity_le_append (fields more : List FieldPlan) :
    totalComplexity fields ≤ totalComplexity (fields ++ more) :=
  totalComplexity_le (by rw [sumComplexity_append]; omega)

/-- The guard passes what is within the limit and refuses the rest as too complex. -/
theorem FieldPlan.guard_complexity {limits : QueryLimits} (limited : 0 < limits.maxComplexity) (field : FieldPlan)
    (n : Nat) :
    field.guard (limits.checkComplexity n) = .ok () ∧ n ≤ limits.maxComplexity ∨
      ∃ e, field.guard (limits.checkComplexity n) = .error e ∧ e.TooComplex ∧ limits.maxComplexity < n := by
  unfold QueryLimits.checkComplexity QueryLimits.guardWith
  split
  · next beyond =>
    simp only [exceeds, Bool.and_eq_true, decide_eq_true_eq] at beyond
    exact Or.inr ⟨_, rfl, ⟨n, limits.maxComplexity, field.location, rfl⟩, beyond.2⟩
  · next within =>
    simp only [exceeds, Bool.and_eq_true, decide_eq_true_eq] at within
    exact Or.inl ⟨rfl, by omega⟩

/-! ## One field -/

/-- Whether the field calls an operation, which `__typename` does not. -/
def FieldPlan.isOperation (field : FieldPlan) : Bool :=
  match field.target with
  | .operation _ => true
  | _ => false

/-- Whether a root field that starts is charged to its request. -/
def Execution.charges (x : Execution) (field : FieldPlan) (s : ExecutionState) : Bool :=
  field.isOperation && !s.cancelled && (field.guard (x.limits.checkDepth 1)).isOk

/-- What is still to be charged for a root field. -/
def RootTask.due (field : FieldPlan) (task : RootTask) : Nat :=
  if field.isOperation && task.isFresh then field.complexity else 0

theorem RootTask.due_begun {task : RootTask} (begun : task ≠ .fresh) (field : FieldPlan) : task.due field = 0 := by
  cases task with
  | fresh => exact absurd rfl begun
  | _ => simp [due, isFresh]

section

variable {x : Execution} {field : FieldPlan} {s s' : ExecutionState} {here there : Stage × ExecutionState}
  {key : String}

theorem FieldPlan.isOperation_iff : field.isOperation = true ↔ ∃ operation, field.target = .operation operation := by
  unfold isOperation
  cases field.target <;> simp

theorem counting_complexity_operation (operation : field.isOperation = true) (s : ExecutionState) :
    (Execution.counting s field).complexity = saturatingAdd s.complexity field.complexity := by
  obtain ⟨_, target⟩ := FieldPlan.isOperation_iff.1 operation
  unfold Execution.counting
  rw [target]

theorem counting_other (other : field.isOperation = false) (s : ExecutionState) : Execution.counting s field = s := by
  unfold FieldPlan.isOperation at other
  unfold Execution.counting
  cases target : field.target with
  | operation operation =>
    rw [target] at other
    cases other
  | objectField | interfaceField | typename => rfl

/-- An admitted field is charged if it is an operation. -/
theorem Execution.Admits.charges (admits : x.Admits field s) : x.charges field s = field.isOperation := by
  simp [Execution.charges, admits.calm, admits.depth, Except.isOk, Except.toBool]

/-- A stage at which the field has begun and is charged no more. -/
structure Stage.Charged (account : Nat) (at' : Stage × ExecutionState) : Prop where
  begun : at'.1 ≠ .task .fresh
  account : at'.2.complexity = account
  spared : ∀ abort, at'.1 = .task (.failed abort) → ¬abort.TooComplex
  placed : at'.2.Placed []

theorem Leg.charged {account : Nat} (leg : Leg x field here there) (charged : Stage.Charged account here) :
    Stage.Charged account there := by
  have placed := charged.placed
  have same := charged.account
  cases leg with
  | cancelled _ | tooDeep _ | tooComplex _ | admitted _ => exact absurd rfl charged.begun
  | foreign _ _ => exact ⟨by simp, same, fun _ same => by cases same; exact unmeasured_internal.complexity, placed⟩
  | interrupted _ => exact ⟨by simp, same, fun _ same => by cases same; exact unmeasured_cancelled.complexity, placed⟩
  | finish ran =>
    obtain ⟨same', after, -⟩ := answer_measured ran
    exact ⟨by simp, same'.trans same, by simp, after _ placed⟩
  | fail ran =>
    obtain ⟨same', after, fails⟩ := answer_measured ran
    exact ⟨by simp, same'.trans same, fun _ same => by cases same; exact (fails _ rfl).1, after _ placed⟩
  | _ => exact ⟨by simp, same, by simp, placed⟩

theorem Legs.charged {account : Nat} (legs : Legs x field here there) (charged : Stage.Charged account here) :
    Stage.Charged account there := by
  induction legs with
  | refl => exact charged
  | tail _ leg ih => exact leg.charged ih

/-- The ways in which a root field starts. -/
inductive Starts (x : Execution) (field : FieldPlan) (s : ExecutionState) : RootTask → ExecutionState → Prop
  | refused {abort : Abort} (free : x.charges field s = false) (other : ¬abort.TooComplex) :
    Starts x field s (.failed abort) s
  | beyond {e : ResponseError} (charged : x.charges field s = true)
    (refused : field.guard (x.limits.checkComplexity (saturatingAdd s.complexity field.complexity)) = .error e) :
    Starts x field s (.failed (.error e)) (Execution.counting s field)
  | admitted {task : RootTask} {s' : ExecutionState} (admits : x.Admits field s)
    (legs : Legs x field (.task .queued, Execution.counting s field) (.task task, s')) : Starts x field s task s'

theorem Legs.starts {task : RootTask} (legs : Legs x field (.task .fresh, s) (.task task, s')) (begun : task ≠ .fresh) :
    Starts x field s task s' := by
  have ended {abort : Abort} {t : ExecutionState} (legs : Legs x field (.task (.failed abort), t) (.task task, s')) :
      task = .failed abort ∧ s' = t := by
    cases legs.ended (Or.inr rfl)
    exact ⟨rfl, rfl⟩
  rcases legs.cases_head with same | ⟨there, leg, rest⟩
  · cases same
    exact absurd rfl begun
  · cases leg with
    | cancelled cancelled =>
      obtain ⟨rfl, rfl⟩ := ended rest
      exact .refused (by simp [Execution.charges, cancelled]) unmeasured_cancelled.complexity
    | tooDeep refused =>
      obtain ⟨rfl, rfl⟩ := ended rest
      refine .refused (by simp [Execution.charges, refused, Except.isOk, Except.toBool]) ?_
      exact Abort.not_tooComplex (field.not_tooComplex_of_guard refused fun _ _ =>
        QueryLimits.guardWith_error fun _ _ _ _ => by simp)
    | tooComplex refused calm passed target =>
      obtain ⟨rfl, rfl⟩ := ended rest
      refine .beyond ?_ refused
      simp [Execution.charges, calm, passed, FieldPlan.isOperation_iff.2 ⟨_, target⟩, Except.isOk, Except.toBool]
    | admitted admits => exact .admitted admits rest

end

/-! ## Runs -/

namespace Run

variable {x : Execution} {run : Run}

/-- The field that a move charges to the request, if it does. -/
def charges (x : Execution) (run : Run) : Move → List FieldPlan
  | .poll i =>
    match run.aborted, run.tasks[i]? with
    | none, some (field, task) =>
      if run.isReady x.plan.kind i && task.isFresh && x.charges field run.state then [field] else []
    | _, _ => []
  | .cancel => []

/-- The fields that some moves charge to the request, in their order. -/
def charged (x : Execution) : Run → List Move → List FieldPlan
  | _, [] => []
  | run, move :: rest => run.charges x move ++ charged x (run.move x move) rest

/-- What is still to be charged for the fields of a run. -/
def due (run : Run) : Nat := run.tasks.foldr (fun entry total => entry.2.due entry.1 + total) 0

theorem charges_poll {i : Nat} {field : FieldPlan} {task : RootTask} (ongoing : run.aborted = none)
    (at' : run.tasks[i]? = some (field, task)) (ready : run.isReady x.plan.kind i = true) :
    run.charges x (.poll i) = if task.isFresh && x.charges field run.state then [field] else [] := by
  simp only [charges, ongoing, at', ready, Bool.true_and]

theorem charges_idle {i : Nat}
    (idle : ¬(run.aborted = none ∧ (∃ entry, run.tasks[i]? = some entry) ∧ run.isReady x.plan.kind i = true)) :
    run.charges x (.poll i) = [] := by
  simp only [charges]
  split
  · next field task ongoing at' =>
    have waits : run.isReady x.plan.kind i = false :=
      Bool.eq_false_iff.2 fun ready => idle ⟨ongoing, ⟨_, at'⟩, ready⟩
    simp [waits]
  · rfl

theorem charged_append (run : Run) (moves more : List Move) :
    run.charged x (moves ++ more) = run.charged x moves ++ (moves.foldl (Run.move x) run).charged x more := by
  induction moves generalizing run with
  | nil => rfl
  | cons move rest ih => simp only [List.cons_append, charged, List.foldl_cons, ih, List.append_assoc]

theorem due_set {i : Nat} {field : FieldPlan} {task : RootTask} (at' : run.tasks[i]? = some (field, task))
    (task' : RootTask) (s : ExecutionState) :
    due { run with tasks := run.tasks.set i (field, task'), state := s } + task.due field = run.due + task'.due field :=
  foldr_add_set (fun entry => entry.2.due entry.1) at' (field, task')

/-- Nothing is due for a run in which all fields have begun. -/
theorem due_begun (begun : ∀ entry ∈ run.tasks, entry.2 ≠ .fresh) : run.due = 0 :=
  foldr_add_eq_zero fun entry mem => RootTask.due_begun (begun entry mem) entry.1

theorem launch_due (fields : List FieldPlan) (state : ExecutionState) :
    (launch fields state).due = sumComplexity (fields.filter (·.isOperation)) := by
  unfold launch due sumComplexity
  induction fields with
  | nil => rfl
  | cons field rest ih =>
    simp only [List.map_cons, List.foldr_cons, List.filter_cons, ih]
    cases operation : field.isOperation <;> simp [RootTask.due, RootTask.isFresh, operation]

/-- How the account of a run stands once some fields are charged, of all that may be. -/
structure Tallied (x : Execution) (operations charged : List FieldPlan) (run : Run) : Prop where
  account : run.state.complexity = totalComplexity charged
  /-- No field is charged twice. -/
  share : sumComplexity charged + run.due ≤ sumComplexity operations
  /-- As long as no field has failed none is left out, and the limit is kept. -/
  whole : (∀ entry ∈ run.tasks, entry.2.abort? = none) →
    sumComplexity charged + run.due = sumComplexity operations ∧ totalComplexity charged ≤ x.limits.maxComplexity
  /-- A field that has begun was within the limit when it was charged. -/
  own : ∀ entry ∈ run.tasks, entry.1.isOperation = true → entry.2 ≠ .fresh → entry.2.abort? = none →
    ∃ before after, charged = before ++ entry.1 :: after ∧
      totalComplexity (before ++ [entry.1]) ≤ x.limits.maxComplexity
  failed : ∀ entry ∈ run.tasks, ∀ abort, entry.2 = .failed abort → abort.TooComplex →
    x.limits.maxComplexity < totalComplexity charged
  placed : run.state.Placed []

variable {operations charged : List FieldPlan}

theorem launch_tallied {fields : List FieldPlan} {state : ExecutionState} (unused : state.complexity = 0)
    (fresh : state.errors = []) :
    (launch fields state).Tallied x (fields.filter (·.isOperation)) [] where
  account := unused
  share := by
    rw [launch_due]
    exact Nat.le_of_eq (Nat.zero_add _)
  whole _ := by
    rw [launch_due]
    exact ⟨Nat.zero_add _, Nat.zero_le _⟩
  own entry mem _ begun := by
    obtain ⟨field, _, rfl⟩ := List.mem_map.1 mem
    exact absurd rfl begun
  failed entry mem abort same := by
    obtain ⟨field, _, rfl⟩ := List.mem_map.1 mem
    cases same
  placed e mem := by
    change e ∈ state.errors at mem
    rw [fresh] at mem
    cases mem

namespace Tallied

/-- A run is tallied once a field has begun, if that field is. -/
theorem set (tallied : run.Tallied x operations charged) {i : Nat} {field : FieldPlan} {task task' : RootTask}
    {s : ExecutionState} {more : List FieldPlan} (at' : run.tasks[i]? = some (field, task)) (begun : task' ≠ .fresh)
    (account : s.complexity = totalComplexity (charged ++ more)) (most : sumComplexity more ≤ task.due field)
    (paid : task'.abort? = none → task.abort? = none ∧ sumComplexity more = task.due field ∧
      (totalComplexity charged ≤ x.limits.maxComplexity → totalComplexity (charged ++ more) ≤ x.limits.maxComplexity))
    (own : field.isOperation = true → task'.abort? = none → ∃ before after, charged ++ more = before ++ field :: after ∧
      totalComplexity (before ++ [field]) ≤ x.limits.maxComplexity)
    (failed : ∀ abort, task' = .failed abort → abort.TooComplex →
      x.limits.maxComplexity < totalComplexity (charged ++ more))
    (placed : s.Placed []) :
    Tallied x operations (charged ++ more) { run with tasks := run.tasks.set i (field, task'), state := s } := by
  have dues := due_set at' task' s
  rw [RootTask.due_begun begun] at dues
  have bound : i < run.tasks.length := (List.getElem?_eq_some_iff.1 at').1
  refine ⟨account, ?_, fun unfailed => ?_, fun entry mem operation begun' alive => ?_,
    fun entry mem abort same complex => ?_, placed⟩
  · have := tallied.share
    rw [sumComplexity_append]
    omega
  · obtain ⟨alive, equal, within⟩ := paid (unfailed (field, task') (List.mem_set bound _))
    have before : ∀ entry ∈ run.tasks, entry.2.abort? = none := by
      intro entry mem
      obtain ⟨j, atj⟩ := List.getElem?_of_mem mem
      by_cases same : i = j
      · subst same
        cases at'.symm.trans atj
        exact alive
      · exact unfailed entry (List.mem_of_getElem? ((List.getElem?_set_ne same).trans atj))
    obtain ⟨all, kept⟩ := tallied.whole before
    refine ⟨?_, within kept⟩
    rw [sumComplexity_append]
    omega
  · rcases List.mem_or_eq_of_mem_set mem with mem | rfl
    · obtain ⟨first, last, rfl, within⟩ := tallied.own entry mem operation begun' alive
      exact ⟨first, last ++ more, by simp, within⟩
    · exact own operation alive
  · rcases List.mem_or_eq_of_mem_set mem with mem | rfl
    · exact Nat.lt_of_lt_of_le (tallied.failed entry mem abort same complex) (totalComplexity_le_append _ _)
    · exact failed abort same complex

/-- An operation that is admitted leaves the account within the limit. -/
theorem admitted (limited : 0 < x.limits.maxComplexity) (tallied : run.Tallied x operations charged) {field : FieldPlan}
    (admits : x.Admits field run.state) (operation : field.isOperation = true) :
    totalComplexity (charged ++ [field]) ≤ x.limits.maxComplexity := by
  obtain ⟨_, target⟩ := FieldPlan.isOperation_iff.1 operation
  rw [totalComplexity_concat, ← tallied.account]
  rcases field.guard_complexity limited (saturatingAdd run.state.complexity field.complexity) with
    ⟨-, within⟩ | ⟨_, refused, -⟩
  · exact within
  · cases (admits.complexity _ target).symm.trans refused

/-- A field that starts is charged what was due for it, or fails. -/
theorem start (limited : 0 < x.limits.maxComplexity) (tallied : run.Tallied x operations charged) {i : Nat}
    {field : FieldPlan} {task' : RootTask} {s : ExecutionState} (at' : run.tasks[i]? = some (field, .fresh))
    (begun : task' ≠ .fresh) (starts : Starts x field run.state task' s) :
    Tallied x operations (charged ++ if x.charges field run.state then [field] else [])
      { run with tasks := run.tasks.set i (field, task'), state := s } := by
  have single : sumComplexity [field] = field.complexity := by simp [sumComplexity]
  have total := totalComplexity_concat charged field
  rw [← tallied.account] at total
  cases starts with
  | refused free other =>
    rw [free]
    refine tallied.set at' begun ?_ (Nat.zero_le _) (fun alive => by cases alive) (fun _ alive => by cases alive)
      (fun abort same complex => ?_) tallied.placed
    · simpa using tallied.account
    · cases same
      exact absurd complex other
  | @beyond e free refused =>
    have operation : field.isOperation = true := by
      simp only [Execution.charges, Bool.and_eq_true] at free
      exact free.1.1
    rw [free, if_pos rfl]
    refine tallied.set at' begun ?_ ?_ (fun alive => by cases alive) (fun _ alive => by cases alive)
      (fun _ _ _ => ?_) tallied.placed.counting
    · rw [counting_complexity_operation operation, total]
    · simp [single, RootTask.due, RootTask.isFresh, operation]
    · rcases field.guard_complexity limited (saturatingAdd run.state.complexity field.complexity) with
        ⟨passed, -⟩ | ⟨_, -, -, beyond⟩
      · cases passed.symm.trans refused
      · rwa [total]
  | admitted admits legs =>
    have charged' : Stage.Charged (Execution.counting run.state field).complexity (.task task', s) :=
      legs.charged ⟨by simp, rfl, by simp, tallied.placed.counting⟩
    have spared : ∀ abort, task' = .failed abort → ¬abort.TooComplex := by
      rintro abort rfl
      exact charged'.spared abort rfl
    rw [admits.charges]
    cases operation : field.isOperation with
    | false =>
      have none : RootTask.due field .fresh = 0 := by simp [RootTask.due, operation]
      rw [counting_other operation] at charged'
      have foreign : ¬field.isOperation = true := by simp [operation]
      refine tallied.set at' begun ?_ (Nat.zero_le _) (fun _ => ⟨rfl, none.symm, ?_⟩) (fun own => absurd own foreign)
        (fun abort same complex => absurd complex (spared abort same)) charged'.placed
      · simpa using charged'.account.trans tallied.account
      · simp
    | true =>
      have within := tallied.admitted limited admits operation
      have due : RootTask.due field .fresh = field.complexity := by simp [RootTask.due, RootTask.isFresh, operation]
      rw [if_pos rfl]
      refine tallied.set at' begun ?_ ?_ (fun _ => ⟨rfl, single.trans due.symm, fun _ => within⟩)
        (fun _ _ => ⟨charged, [], rfl, within⟩) (fun abort same complex => absurd complex (spared abort same))
        charged'.placed
      · rw [charged'.account, counting_complexity_operation operation, total]
      · exact Nat.le_of_eq (single.trans due.symm)

/-- A field that has begun is charged no more. -/
theorem later (tallied : run.Tallied x operations charged) {i : Nat} {field : FieldPlan} {task task' : RootTask}
    {s : ExecutionState} (at' : run.tasks[i]? = some (field, task)) (begun : task ≠ .fresh)
    (legs : Legs x field (.task task, run.state) (.task task', s)) :
    Tallied x operations charged { run with tasks := run.tasks.set i (field, task'), state := s } := by
  have mem := List.mem_of_getElem? at'
  have none := RootTask.due_begun begun field
  cases failed : task.abort? with
  | some abort =>
    cases legs.ended (Or.inr (by rw [failed]; rfl))
    obtain ⟨_, here⟩ := List.getElem?_eq_some_iff.1 at'
    rw [← here, List.set_getElem_self]
    exact tallied
  | none =>
    have alive : ∀ abort, task ≠ .failed abort := by
      rintro abort rfl
      cases failed
    have charged' : Stage.Charged run.state.complexity (.task task', s) :=
      legs.charged ⟨fun same => begun (Stage.task.inj same), rfl,
        fun abort same => absurd (Stage.task.inj same) (alive abort), tallied.placed⟩
    rw [← List.append_nil charged]
    refine tallied.set at' (fun same => charged'.begun (congrArg Stage.task same)) ?_ (Nat.zero_le _)
      (fun _ => ⟨failed, none.symm, ?_⟩) (fun operation _ => ?_) (fun abort same complex => ?_) charged'.placed
    · simpa using charged'.account.trans tallied.account
    · simp
    · simpa using tallied.own _ mem operation begun failed
    · cases same
      exact absurd complex (charged'.spared abort rfl)

theorem heed {kind : OperationKind} (tallied : run.Tallied x operations charged) :
    (heed kind run).Tallied x operations charged := by
  unfold Run.heed
  split
  · exact tallied
  · exact ⟨tallied.account, tallied.share, tallied.whole, tallied.own, tallied.failed, tallied.placed⟩

theorem move (limited : 0 < x.limits.maxComplexity) (tallied : run.Tallied x operations charged) (move : Move) :
    (run.move x move).Tallied x operations (charged ++ run.charges x move) := by
  cases move with
  | cancel =>
    rw [charges, List.append_nil]
    exact ⟨tallied.account, tallied.share, tallied.whole, tallied.own, tallied.failed, tallied.placed⟩
  | poll i =>
    rw [Run.move]
    by_cases busy : run.aborted = none ∧ (∃ entry, run.tasks[i]? = some entry) ∧ run.isReady x.plan.kind i = true
    · obtain ⟨ongoing, ⟨⟨field, task⟩, at'⟩, ready⟩ := busy
      cases ran : outcome (x.advance field task) run.state with
      | mk result s =>
        have legs := @Execution.advance_legs x field task run.state
        rw [Execution.arrival, ran] at legs
        rw [poll_eq ongoing at' ready ran, charges_poll ongoing at' ready]
        refine Tallied.heed ?_
        cases unbegun : task.isFresh with
        | true =>
          cases RootTask.eq_of_isFresh unbegun
          have begun := Execution.advance_begun ran
          exact tallied.start limited at' begun (legs.starts begun)
        | false =>
          rw [Bool.false_and, if_neg Bool.false_ne_true, List.append_nil]
          refine tallied.later at' ?_ legs
          rintro rfl
          cases unbegun
    · rw [poll_idle busy, charges_idle busy, List.append_nil]
      exact tallied

theorem moves (limited : 0 < x.limits.maxComplexity) (tallied : run.Tallied x operations charged) (moves : List Move) :
    (moves.foldl (Run.move x) run).Tallied x operations (charged ++ run.charged x moves) := by
  induction moves generalizing run charged with
  | nil =>
    rw [Run.charged, List.append_nil]
    exact tallied
  | cons move rest ih =>
    rw [List.foldl_cons, Run.charged, ← List.append_assoc]
    exact ih (tallied.move limited move)

end Tallied

end Run

end GraphQL
