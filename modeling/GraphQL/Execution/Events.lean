import GraphQL.Execution.Turn

/-!
# Executing subscriptions

The root field of a subscription opens a source of events; nothing is selected on the source itself.
Each event is then shaped like the value of a root field, in an execution of its own. Opening a source
takes no slot and looks at no cancellation, and an error there has no response to be part of.
-/

namespace GraphQL

/-- Lets the only resolver of a request work to its end. -/
def Work.finish {α : Type} : Work α → ExecM (Except Failure α)
  | .done result => return result
  | .pause next => next.finish
  | .record entry next => do
    modify fun s => { s with journal := s.journal ++ [entry] }
    next.finish
  | .cancel next => do
    modify fun s => { s with cancelled := true }
    next.finish
  | .awaitCancel next => do
    if (← get).cancelled then next.finish else throw (.breakdown .stuck)
  | .askCancelled next => do (next (← get).cancelled).finish

namespace Execution

/-- Aborts with an error at a root field. -/
def abortAt {α : Type} (field : FieldPlan) (e : ResponseError) : ExecM α :=
  ExecM.abort ((e.located field.location).within field.rootPath)

/-- Aborts because a resolver panicked. -/
def abortPanicked {α : Type} (field : FieldPlan) (message : String) : ExecM α :=
  abortAt field { message := s!"resolver {field.name} panicked: {message}", code := .internalServerError }

/-- Reads the arguments of the root field and calls its resolver. -/
def openSource (x : Execution) (field : FieldPlan) (operation : OperationDescriptor) (resolver : Resolver EventSource) :
    ExecM EventSource := do
  match ← ExecM.onRegistry (operation.parseArguments x.inputContext field.arguments).run with
  | .error (.error e) => abortAt field (.ofHost e .validationError)
  | .error (.panic message) => abortPanicked field message
  | .ok arguments => do
    ExecM.note (.called field.responseKey operation.name arguments)
    match resolver arguments with
    | .error message => abortPanicked field message
    | .ok work =>
      match ← work.finish with
      | .ok source => return source
      | .error (.error e) => abortAt field (.ofHost e .resolverError)
      | .error (.panic message) => abortPanicked field message

/-- Opens the source of events that the plan selects. -/
def subscribe (x : Execution) : ExecM EventSource := do
  ExecM.ofExcept x.checkPlanDepth
  match ← ExecM.ofExcept (x.collect x.plan.selection none) with
  | [] =>
    ExecM.abort { message := "the subscription root field is skipped", code := .operationValidationError }
  | field :: _ => do
    ExecM.ofExcept (field.guard (x.limits.checkDepth 1))
    ExecM.ofExcept (x.checkAliases 0 [field])
    ExecM.addComplexity x.limits field
    match field.target with
    | .operation operation =>
      match operation.resolver with
      | .stream resolver => x.openSource field operation resolver
      | .field _ =>
        abortAt field
          { message := s!"{operation.kind.text} {operation.name} used in subscription"
            code := .operationValidationError }
    | _ =>
      abortAt field
        { message := "a subscription must select a subscription field", code := .operationValidationError }

/-- Shapes an event by the selection of the root field. -/
def shapeEvent (x : Execution) (event : Resolved) : ExecM ResponseValue := do
  match ← ExecM.ofExcept (x.collect x.plan.selection none) with
  | [] => return .object []
  | field :: _ => do
    ExecM.checkCancelled
    let value ← x.complete field.type event field field.rootPath 1
    return .object [(field.responseKey, value)]

/-- Executes an event. -/
def executeEvent (x : Execution) (event : Resolved) (state : ExecutionState) :
    Except Breakdown Response × ExecutionState :=
  let (data, state) := (x.shapeEvent event).run.run state
  (respond data state.errors, state)

end Execution

end GraphQL
