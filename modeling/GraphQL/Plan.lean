import GraphQL.Limits
import GraphQL.Operation

/-!
# Plans

A plan is an operation compiled against the registered operations and types, whatever the values of
its variables: fragments are inlined, and each field knows what it reads, its type, and the type
conditions and directives that decide whether it applies. `Plan.coerceVariables` checks the variables
of a request against the definitions of the operation.
-/

namespace GraphQL

/-- A directive that decides whether a field is kept. -/
inductive Condition where
  | skipIf (value : Value)
  | includeIf (value : Value)
deriving Repr

namespace Condition

/-- The name of the directive. -/
def name : Condition → String
  | skipIf _ => "skip"
  | includeIf _ => "include"

def value : Condition → Value
  | skipIf value | includeIf value => value

/-- The Boolean under which the field is kept. -/
def expected : Condition → Bool
  | skipIf _ => false
  | includeIf _ => true

end Condition

/-- What a field reads. -/
inductive FieldTarget where
  | operation (operation : OperationDescriptor)
  /-- The field of an object at a place in its table. -/
  | objectField (owner : TypeDescriptor) (index : Nat)
  /-- A field looked up by name on the object that implements the interface. -/
  | interfaceField
  | typename

/-- A field of a plan, with the selection below it. -/
structure FieldPlan where
  responseKey : String
  aliased : Bool
  name : String
  location : Location
  /-- The only concrete type to which the field applies, if it is selected under a type condition. -/
  condition : Option NamedType
  /-- The directives of the enclosing fragments, outermost first, and then those of the field. -/
  directives : List Condition
  arguments : List (String × Value)
  target : FieldTarget
  type : TypeRef
  complexity : Nat
  selection : List FieldPlan

structure Plan where
  kind : OperationKind
  name : Option String
  variableDefinitions : List VariableDefinition
  selection : List FieldPlan

/-- The complexity of a selection: the sum over its fields. -/
def totalComplexity (fields : List FieldPlan) : Nat :=
  fields.foldl (fun total field => saturatingAdd total field.complexity) 0

namespace Plan

def complexity (plan : Plan) : Nat := totalComplexity plan.selection

/-- A variable of the operation that is missing although its type is not nullable. -/
def missingVariable (d : VariableDefinition) : ResponseError :=
  { message := s!"variable ${d.name} of required type {d.type.text} was not provided"
    code := .variableError
    locations := [d.location] }

/-- Binds declared variables to what is provided, each name once, or else to their defaults. -/
def bindVariables : List VariableDefinition → Variables → Variables → Except ResponseError Variables
  | [], _, bound => .ok bound
  | d :: rest, provided, bound =>
    match (Entries.find? d.name provided).or d.default with
    | some value =>
      if value.isNull && !d.type.nullable then .error (missingVariable d)
      else bindVariables rest (Entries.erase d.name provided) (Entries.insert d.name value bound)
    | none =>
      if d.type.nullable then bindVariables rest (Entries.erase d.name provided) bound
      else .error (missingVariable d)

/-- The variables with which the plan runs: exactly the declared ones that have a value. -/
def coerceVariables (plan : Plan) (provided : Variables) : Except ResponseError Variables :=
  bindVariables plan.variableDefinitions provided []

end Plan

end GraphQL
