import GraphQL.Input.Arguments
import GraphQL.Plan
import GraphQL.Response

/-!
# Executions

An execution runs a plan under the limits of a request: a query, a mutation or one event of a
subscription. Errors of a field null that field and are collected; an abort ends the whole request.
This module holds the state of an execution and what does not depend on any data: which fields of a
selection apply, and the guards on depth, fields and aliases.
-/

namespace GraphQL

/-- The resolvers that may work at the same time; a limit of zero means any number. -/
structure Slots where
  limit : Nat
  taken : Nat := 0
deriving DecidableEq, Repr

namespace Slots

/-- Takes a slot if one is free. -/
def acquire? (slots : Slots) : Option Slots :=
  if slots.limit = 0 || slots.taken < slots.limit then some { slots with taken := slots.taken + 1 } else none

def release (slots : Slots) (count : Nat) : Slots := { slots with taken := slots.taken - count }

end Slots

/-- What host code an execution has run. -/
inductive ExecutionEvent where
  /-- A resolver was called. -/
  | called (key operation : String) (arguments : List Resolved)
  /-- A getter was called. -/
  | read (path : ErrorPath) (field : String)
  /-- A root field was finished with everything below it. -/
  | finished (key : String)

/-- What an execution changes as it runs. -/
structure ExecutionState where
  registry : Registry
  slots : Slots
  cancelled : Bool
  complexity : Nat := 0
  /-- The errors of fields, in the order in which they happened. -/
  errors : List ResponseError := []
  journal : List JournalEntry := []
  /-- The host code run so far, latest first. -/
  events : List ExecutionEvent := []

/-- Why a request has no response. -/
inductive Breakdown where
  /-- A panic that nothing catches. -/
  | crash (message : String)
  /-- A resolver waits for a cancellation that never comes. -/
  | stuck
deriving DecidableEq, Repr

/-- What ends a request before it is complete. -/
inductive Abort where
  | error (e : ResponseError)
  | breakdown (b : Breakdown)
deriving Repr

abbrev ExecM := ExceptT Abort (StateM ExecutionState)

/-- What an execution runs with. -/
structure Execution where
  host : Host
  limits : QueryLimits
  plan : Plan
  variableValues : Variables

theorem FieldPlan.sizeOf_selection_lt (field : FieldPlan) : sizeOf field.selection < sizeOf field := by
  cases field
  simp only [FieldPlan.mk.sizeOf_spec]
  omega

/-- A measure within its limit, or the error at a field. -/
def FieldPlan.guard (field : FieldPlan) (check : Except LimitError Unit) : Except ResponseError Unit :=
  check.mapError fun e => e.toResponseError.located field.location

namespace Execution

/-- The Boolean of a directive's argument, if it has one. -/
def flag (x : Execution) : Value → Option Bool
  | .boolean b => some b
  | .ref name =>
    match Entries.find? name x.variableValues with
    | some (.boolean b) => some b
    | _ => none
  | _ => none

/-- Whether all conditions keep a field; the first that does not, or is no Boolean, decides. -/
def holds (x : Execution) (field : FieldPlan) : List Condition → Except ResponseError Bool
  | [] => .ok true
  | condition :: rest =>
    match x.flag condition.value with
    | some flag => if flag = condition.expected then x.holds field rest else .ok false
    | none =>
      let e : ResponseError :=
        { message := s!"argument if of @{condition.name} must be a Boolean", code := .variableError }
      .error (e.located field.location)

/-- Whether the directives around a field and its own keep it. -/
def isIncluded (x : Execution) (field : FieldPlan) : Except ResponseError Bool := x.holds field field.directives

/-- Whether a field applies to values of a type; at the root no type is known. -/
def appliesTo (field : FieldPlan) : Option NamedType → Bool
  | some concrete => field.condition.all (· == concrete)
  | none => true

/-- The fields of a selection that apply to a type and are kept by their directives. -/
def included (x : Execution) (concrete : Option NamedType) : List FieldPlan → Except ResponseError (List FieldPlan)
  | [] => .ok []
  | field :: rest =>
    if appliesTo field concrete then
      match x.isIncluded field with
      | .error e => .error e
      | .ok keep => (x.included concrete rest).map fun fields => if keep then field :: fields else fields
    else x.included concrete rest

/-- The fields that a selection has for a value of a type, within the limit on their number. -/
def collect (x : Execution) (selection : List FieldPlan) (concrete : Option NamedType) :
    Except ResponseError (List FieldPlan) := do
  let fields ← x.included concrete selection
  if let first :: _ := fields then first.guard (x.limits.checkFields fields.length)
  return fields

/-- Measures the depth of the fields kept by their directives, whatever data there will be. -/
def checkDepth (x : Execution) (depth : Nat) : List FieldPlan → Except ResponseError Unit
  | [] => .ok ()
  | field :: rest =>
    match x.isIncluded field with
    | .error e => .error e
    | .ok false => x.checkDepth depth rest
    | .ok true => do
      field.guard (x.limits.checkDepth depth)
      x.checkDepth (depth + 1) field.selection
      x.checkDepth depth rest
termination_by selection => sizeOf selection
decreasing_by
  · simp only [List.cons.sizeOf_spec]
    omega
  · have := field.sizeOf_selection_lt
    simp only [List.cons.sizeOf_spec]
    omega
  · simp only [List.cons.sizeOf_spec]
    omega

/-- Measures the depth of the plan if it is limited. -/
def checkPlanDepth (x : Execution) : Except ResponseError Unit :=
  if x.limits.maxDepth = 0 then .ok () else x.checkDepth 1 x.plan.selection

/-- Counts the aliases of root fields. -/
def checkAliases (x : Execution) (count : Nat) : List FieldPlan → Except ResponseError Unit
  | [] => .ok ()
  | field :: rest =>
    if field.aliased then do
      field.guard (x.limits.checkAliases (count + 1))
      x.checkAliases (count + 1) rest
    else x.checkAliases count rest

/-- What an execution reads arguments with. -/
def inputContext (x : Execution) : InputContext := ⟨x.host, x.variableValues⟩

end Execution

namespace ExecM

/-- Aborts with an error. -/
def abort {α : Type} (e : ResponseError) : ExecM α := throw (.error e)

/-- A check that aborts when it fails. -/
def ofExcept {α : Type} : Except ResponseError α → ExecM α
  | .ok a => return a
  | .error e => abort e

/-- A computation on the registry. -/
def onRegistry {α : Type} (f : StateM Registry α) : ExecM α := do
  let s ← get
  let (a, registry) := f.run s.registry
  set { s with registry }
  return a

/-- Aborts when the request is cancelled. -/
def checkCancelled : ExecM Unit := do
  if (← get).cancelled then abort .cancelled

/-- Collects the error of a field; the field becomes null. -/
def pushError (e : ResponseError) : ExecM ResponseValue := do
  modify fun s => { s with errors := s.errors ++ [e] }
  return .null

/-- Collects an error at a field and its path. -/
def fieldError (message : String) (code : ErrorCode) (field : FieldPlan) (path : ErrorPath) : ExecM ResponseValue :=
  pushError (({ message, code : ResponseError }.located field.location).within path)

/-- Collects an error of the host at a field and its path. -/
def hostError (e : HostError) (code : ErrorCode) (field : FieldPlan) (path : ErrorPath) : ExecM ResponseValue :=
  pushError (((ResponseError.ofHost e code).located field.location).within path)

/-- Notes that host code is run. -/
def note (event : ExecutionEvent) : ExecM Unit := modify fun s => { s with events := event :: s.events }

/-- Adds the complexity of a root field to that of the request, within its limit. -/
def addComplexity (limits : QueryLimits) (field : FieldPlan) : ExecM Unit := do
  modify fun s => { s with complexity := saturatingAdd s.complexity field.complexity }
  ofExcept (field.guard (limits.checkComplexity (← get).complexity))

end ExecM

/-- The response of a request that ended with data or an abort. -/
def respond (data : Except Abort ResponseValue) (errors : List ResponseError) : Except Breakdown Response :=
  match data with
  | .ok data => .ok ⟨data, errors⟩
  | .error (.error e) => .ok (Response.ofError e)
  | .error (.breakdown b) => .error b

end GraphQL
