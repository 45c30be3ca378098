import GraphQL.Execution.Completion

/-!
# Runs of root fields

The root fields of a query resolve side by side, those of a mutation one after the other. A field
advances when it is polled: from its start, through the wait for a slot, to the work of its resolver,
and on until the work gives way or the field is finished with everything below it. `Run.poll` advances
one field, so a list of polls is one way in which the fields may interleave. A field that fails ends the
run; in a crowd, its failure counts only when all fields before it are finished.
-/

namespace GraphQL

/-- How far a root field has come. -/
inductive RootTask where
  | fresh
  /-- Waits for a slot. -/
  | queued
  /-- Holds a slot until the work is done. -/
  | working (work : Work Resolved)
  | done (value : ResponseValue)
  /-- Ended without a value. -/
  | failed (abort : Abort)

namespace RootTask

/-- Whether the resolver is still to be called. -/
def isWaiting : RootTask → Bool
  | fresh | queued => true
  | _ => false

def holdsSlot : RootTask → Bool
  | working _ => true
  | _ => false

/-- A bound on the steps of the resolver that are left. -/
def size : RootTask → Nat
  | working work => work.size + 1
  | _ => 0

def value? : RootTask → Option ResponseValue
  | done value => some value
  | _ => none

def abort? : RootTask → Option Abort
  | failed abort => some abort
  | _ => none

/-- The abort of a task that crashed, which nothing holds back. -/
def crash? : RootTask → Option Abort
  | failed (.breakdown b) => some (.breakdown b)
  | _ => none

end RootTask

namespace FieldPlan

/-- The path of a root field. -/
def rootPath (field : FieldPlan) : ErrorPath := ErrorPath.root field.responseKey

/-- Collects the error of a root field whose resolver panicked. -/
def panicked (field : FieldPlan) (message : String) : ExecM ResponseValue :=
  ExecM.fieldError s!"resolver {field.name} panicked: {message}" .internalServerError field field.rootPath

/-- Ends a root field with a value. -/
def finish (field : FieldPlan) (value : ResponseValue) : ExecM RootTask := do
  ExecM.note (.finished field.responseKey)
  return .done value

end FieldPlan

/-- Gives a slot back. -/
def ExecM.releaseSlot : ExecM Unit := modify fun s => { s with slots := s.slots.release 1 }

namespace Execution

/-- Completes what the resolver of a root field ended with. -/
def completeRoot (x : Execution) (field : FieldPlan) : Except Failure Resolved → ExecM ResponseValue
  | .ok value => x.complete field.type value field field.rootPath 1
  | .error (.error e) => ExecM.hostError e .resolverError field field.rootPath
  | .error (.panic message) => field.panicked message

/-- Lets a resolver work until it gives way, waits or is done. -/
def work (x : Execution) (field : FieldPlan) : Work Resolved → ExecM RootTask
  | .done result => do
    ExecM.releaseSlot
    field.finish (← x.completeRoot field result)
  | .pause next => return .working next
  | .record entry next => do
    modify fun s => { s with journal := s.journal ++ [entry] }
    x.work field next
  | .cancel next => do
    modify fun s => { s with cancelled := true }
    x.work field next
  | .awaitCancel next => do
    if (← get).cancelled then x.work field next else return .working (.awaitCancel next)
  | .askCancelled next => do x.work field (next (← get).cancelled)

/-- Reads the arguments of a root field and calls its resolver. -/
def call (x : Execution) (field : FieldPlan) (operation : OperationDescriptor) (resolver : Resolver Resolved) :
    ExecM RootTask := do
  match ← ExecM.onRegistry (operation.parseArguments x.inputContext field.arguments).run with
  | .error (.error e) => do
    ExecM.releaseSlot
    field.finish (← ExecM.hostError e .validationError field field.rootPath)
  | .error (.panic message) => do
    ExecM.releaseSlot
    field.finish (← field.panicked message)
  | .ok arguments => do
    ExecM.note (.called field.responseKey operation.name arguments)
    match resolver arguments with
    | .ok work => x.work field work
    | .error message => do
      ExecM.releaseSlot
      field.finish (← field.panicked message)

/-- Calls the resolver of a root field if there is a slot for it, and otherwise waits for one. Whoever
waits for slots notices a cancellation first. -/
def enter (x : Execution) (field : FieldPlan) (operation : OperationDescriptor) (resolver : Resolver Resolved) :
    ExecM RootTask := do
  if (← get).slots.limit > 0 then ExecM.checkCancelled
  match (← get).slots.acquire? with
  | none => return .queued
  | some slots => do
    modify fun s => { s with slots }
    x.call field operation resolver

/-- The resolver of a root field, unless the field is answered without one. -/
def withResolver (x : Execution) (field : FieldPlan)
    (run : OperationDescriptor → Resolver Resolved → ExecM RootTask) : ExecM RootTask :=
  match field.target with
  | .typename => field.finish (.const (.string x.plan.kind.rootTypeName))
  | .operation operation =>
    match operation.resolver with
    | .field resolver => run operation resolver
    | .stream _ => do
      let message := s!"subscription {operation.name} used in {x.plan.kind.text}"
      field.finish (← ExecM.fieldError message .operationValidationError field field.rootPath)
  | .objectField .. | .interfaceField => ExecM.abort .internal

/-- Starts a root field: the guards first, then the wait for a slot. -/
def start (x : Execution) (field : FieldPlan) : ExecM RootTask := do
  ExecM.checkCancelled
  ExecM.ofExcept (field.guard (x.limits.checkDepth 1))
  if let .operation _ := field.target then ExecM.addComplexity x.limits field
  x.withResolver field (x.enter field)

/-- Advances a root field as far as it gets. -/
def advance (x : Execution) (field : FieldPlan) : RootTask → ExecM RootTask
  | .fresh => x.start field
  | .queued => x.withResolver field (x.enter field)
  | .working work => x.work field work
  | .done value => return .done value
  | .failed abort => throw abort

end Execution

/-- The root fields of a request on their way. -/
structure Run where
  tasks : List (FieldPlan × RootTask)
  state : ExecutionState
  aborted : Option Abort := none

namespace Run

/-- Whether a field may advance: in a mutation, every field before it must be finished. -/
def isReady (kind : OperationKind) (run : Run) (i : Nat) : Bool :=
  kind ≠ .mutation || (run.tasks.take i).all fun (_, task) => task.value?.isSome

/-- The greatest number of root fields that are no crowd. -/
def crowdLimit : Nat := 30

/-- Whether the fields of a run are a crowd. -/
def isCrowd (kind : OperationKind) (run : Run) : Bool := kind ≠ .mutation && run.tasks.length > crowdLimit

/-- The first task that is not done, if it failed. -/
def firstUndone : List (FieldPlan × RootTask) → Option Abort
  | [] => none
  | (_, .done _) :: rest => firstUndone rest
  | (_, task) :: _ => task.abort?

/-- The failure that ends the run, if there is one by now. -/
def failure? (kind : OperationKind) (run : Run) : Option Abort :=
  if run.isCrowd kind then (run.tasks.findSome? fun (_, task) => task.crash?).or (firstUndone run.tasks)
  else run.tasks.findSome? fun (_, task) => task.abort?

/-- The slots that fields hold. -/
def slotsHeld (run : Run) : Nat := run.tasks.countP fun (_, task) => task.holdsSlot

/-- Ends the run if a failure asks for it. Slots that fields hold are given back. -/
def heed (kind : OperationKind) (run : Run) : Run :=
  match run.failure? kind with
  | none => run
  | some abort =>
    { run with state := { run.state with slots := run.state.slots.release run.slotsHeld }, aborted := some abort }

/-- Advances a field, unless the run was aborted or it is not the turn of the field. -/
def poll (x : Execution) (run : Run) (i : Nat) : Run :=
  match run.aborted, run.tasks[i]? with
  | none, some (field, task) =>
    if run.isReady x.plan.kind i then
      let (result, state) := (x.advance field task).run.run run.state
      let task := match result with
        | .ok task => task
        | .error abort => .failed abort
      heed x.plan.kind { run with tasks := run.tasks.set i (field, task), state }
    else run
  | _, _ => run

/-- The fields whose resolver is still to be called. -/
def waiting (run : Run) : Nat := run.tasks.countP fun (_, task) => task.isWaiting

/-- A bound on the steps that are left for the resolvers at work. -/
def size (run : Run) : Nat := run.tasks.foldr (fun (_, task) total => task.size + total) 0

/-- The data of a run that has settled: the values of its fields in selection order. -/
def data (run : Run) : Except Abort ResponseValue :=
  match run.aborted with
  | some abort => .error abort
  | none =>
    match run.tasks.mapM fun (field, task) => task.value?.map fun value => (field.responseKey, value) with
    | some entries => .ok (.object entries)
    | none => .error (.breakdown .stuck)

end Run

end GraphQL
