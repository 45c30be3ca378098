import GraphQL.Proofs.Execution.Truncation

/-!
# Executing without guards

Limits on depth, fields, aliases and complexity, and on the resolvers that work at a time, do not change what a
request comes to: `execute_unguarded`. It has the data that it has without them, or ends because a measure is
too large. Three things are told apart. The walk of the depth limit reads directives that no data may ever
lead to, and ends the request if one of them is no Boolean. Where several root fields fail, the slots have a say
in which is reported. And of types with one name only the first is described, whichever field comes to it first.
-/

namespace GraphQL

/-- The failure of a guard on a measure. -/
def Abort.Measured (abort : Abort) : Prop := ∃ e, abort = .error e ∧ e.code = .limitExceeded

namespace QueryLimits

end QueryLimits

section

variable {field : FieldPlan} {e : ResponseError}

theorem FieldPlan.code_of_guard {check : Except LimitError Unit} (refused : field.guard check = .error e) :
    e.code = .limitExceeded := by
  cases check with
  | ok _ => cases refused
  | error limit =>
    cases refused
    rfl

end

theorem QueryLimits.Refuses.measured {limits : QueryLimits} {field : FieldPlan} {e : ResponseError}
    (refuses : limits.Refuses field e) : Abort.Measured (.error e) := by
  rcases refuses with ⟨_, refused⟩ | ⟨_, refused⟩ <;> exact ⟨e, rfl, FieldPlan.code_of_guard refused⟩

namespace Execution

variable {x : Execution} {e : ResponseError} {fields : List FieldPlan}

/-! ## Root fields -/

end Execution

/-! ## Runs -/

namespace Run

variable {x : Execution} {run run' : Run}

/-- In a run that is no crowd, no failure stands but the one that ended it. -/
def Single (kind : OperationKind) (run : Run) : Prop :=
  run.isCrowd kind = false → ∀ field abort, (field, .failed abort) ∈ run.tasks → run.aborted = some abort

theorem Poll.single (poll : Poll x run run') (single : run.Single x.plan.kind) : run'.Single x.plan.kind := by
  cases poll with
  | idle => exact single
  | @advance i field task task' s ongoing at' ready legs =>
    intro few f abort mem
    have few' : isCrowd x.plan.kind { run with tasks := run.tasks.set i (field, task'), state := s } = false := by
      unfold isCrowd at few ⊢
      rwa [heed_tasks] at few
    have before : run.isCrowd x.plan.kind = false := by
      unfold isCrowd at few' ⊢
      simpa only [List.length_set] using few'
    -- nothing had failed before, so what fails is the field that advanced
    have only {g : FieldPlan} {failure : Abort} (mem : (g, RootTask.failed failure) ∈ run.tasks.set i (field, task')) :
        task' = .failed failure := by
      rcases List.mem_or_eq_of_mem_set mem with mem | same
      · cases ongoing.symm.trans (single before g failure mem)
      · exact (Prod.mk.inj same).2.symm
    rw [heed_tasks] at mem
    cases failed : failure? x.plan.kind { run with tasks := run.tasks.set i (field, task'), state := s } with
    | none =>
      rw [failure?, if_neg (by rw [few']; exact Bool.false_ne_true)] at failed
      cases List.findSome?_eq_none_iff.1 failed _ mem
    | some first =>
      obtain ⟨g, mem'⟩ := failed_of_failure? failed
      cases (only mem).symm.trans (only mem')
      rw [heed, failed]

/-- A run that is no crowd ends when a field fails with an excuse. -/
theorem Broken.aborted {w : Leeway} {kind : OperationKind} (broken : run.Broken w) (single : run.Single kind)
    (few : run.isCrowd kind = false) : ∃ abort, run.data = .error abort ∧ w.excuse abort := by
  obtain ⟨field, abort, mem, excuse⟩ := broken
  exact ⟨abort, by rw [Run.data, single few field abort mem], excuse⟩

/-- Runs in lockstep end with the same failure, if with any. -/
theorem Lockstep.fails {w : Leeway} (lockstep : run.Lockstep w run') {abort abort' : Abort}
    (ended : run.data = .error abort) (ended' : run'.data = .error abort') : abort = abort' := by
  cases aborted : run.aborted with
  | some first =>
    have aborted' : run'.aborted = some first := lockstep.aborted.trans aborted
    unfold Run.data at ended ended'
    rw [aborted] at ended
    rw [aborted'] at ended'
    exact Except.error.inj (ended.symm.trans ended')
  | none =>
    obtain ⟨rfl, -⟩ := stuck_of_data aborted ended
    obtain ⟨rfl, -⟩ := stuck_of_data (lockstep.aborted.trans aborted) ended'
    rfl

end Run

/-- The state with as many slots as are asked for. -/
def ExecutionState.unlimited (s : ExecutionState) : ExecutionState := { s with slots := { limit := 0 } }

namespace Execution

/-- A failure with which the request may end: that of the selection of root fields, or the verdict on one of them. -/
inductive Fails (x : Execution) (R : Registry) : Abort → Prop
  | refused {e : ResponseError} (failed : x.rootFields = .error e) : Fails x R (.error e)
  | field {fields : List FieldPlan} {field : FieldPlan} {abort : Abort} (rooted : x.rootFields = .ok fields)
    (mem : field ∈ fields) (verdict : x.verdict R field = .error abort) : Fails x R abort

section

variable {x : Execution} {R : Registry} {state : ExecutionState} {fields : List FieldPlan}

end

end Execution

/-! ## What tells limits from none -/

namespace UserQuery

def host : Host :=
  { builtinName := BuiltinType.scalarName
    types := [{ hostName := "User", description := { fields := [⟨"id", .field, .named (.builtin .int32) true, .value, {}⟩] } }] }

def operation (name : String) (work : Work Resolved) : OperationDescriptor :=
  { kind := .query, name, info := {}, output := .named (.host 0) true, mode := .positional
    binding := .arguments [], resolver := .field fun _ => .ok work }

/-- The field for the type name of a user, with directives on the type name. -/
def field (name : String) (work : Work Resolved) (directives : List Condition) : FieldPlan :=
  { responseKey := name, aliased := false, name, location := .start, condition := none, directives := [], arguments := []
    target := .operation (operation name work), type := .named (.host 0) true, complexity := 1
    selection :=
      [{ responseKey := "__typename", aliased := false, name := "__typename", location := .start, condition := none
         directives, arguments := [], target := .typename, type := .named (.builtin .string) false, complexity := 0
         selection := [] }] }

def execution (limits : QueryLimits) (selection : List FieldPlan) : Execution :=
  { host, limits, variableValues := []
    plan := { kind := .query, name := none, variableDefinitions := [], selection } }

def state : ExecutionState := { registry := {}, slots := { limit := 1 }, cancelled := false }

/-- As many levels and fields as the query for one user has, and one slot. -/
def limits : QueryLimits :=
  { maxDepth := 2, maxFields := 1, maxAliases := 1, maxComplexity := 1, maxConcurrentResolvers := 1 }

/-- The query for a user where there is none. -/
def absent (directives : List Condition) : Execution := execution limits [field "user" (.done (.ok .null)) directives]

def skip : Condition := .skipIf (.string "yes")

def keep : Condition := .includeIf (.string "yes")

def unread (directive : String) : ResponseError :=
  { message := s!"argument if of @{directive} must be a Boolean", code := .variableError, locations := [.start] }

/-- Two users, with directives on both that are no Booleans; the first takes a while to come. -/
def both : Execution :=
  let user : Work Resolved := .done (.ok (.host (.mk 0 .none [] [])))
  execution { maxConcurrentResolvers := 1 } [field "first" (.pause user) [skip], field "second" user [keep]]

end UserQuery

namespace FreedName

/-- The field for the prices, which take a while to come, and the one for the order. -/
def slowFields : List FieldPlan :=
  let slow : OperationResolver := .field fun _ => .ok (.pause (.done (.ok prices)))
  [{ pricesField with target := .operation { pricesOperation with resolver := slow } }, orderField]

def slow : Execution := execution { maxConcurrentResolvers := 1 } slowFields

end FreedName

namespace UserQuery

def options : CompileOptions :=
  { host, operations := { query := [("user", operation "user" (.done (.ok .null)))] }, scorer := .default
    listSizeEstimate := 10 }

end UserQuery

end GraphQL
