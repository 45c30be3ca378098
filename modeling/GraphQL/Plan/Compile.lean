import GraphQL.Document.Parser
import GraphQL.Plan
import GraphQL.Plan.Error

/-!
# Compiling requests

`compile` selects an operation of a document and compiles its selection. Fragments are inlined where
they are spread: `Compiler.collect` flattens a selection into fields, each with the narrowest type
condition and all directives around it, and goes into a fragment only if it is not inside it already.
Types are described as fields name them, so compiling may add to the registry.
-/

namespace GraphQL

/-- Computations that may fail with a compile error and describe types on the way. -/
abbrev CompileM := ExceptT CompileError (StateM Registry)

/-- A description as part of a compilation. -/
def RegistryM.inPlan {α : Type} (x : RegistryM α) : CompileM α := ExceptT.adapt .registration x

/-- What requests are compiled against. -/
structure CompileOptions where
  host : Host
  operations : OperationTable
  scorer : Scorer
  listSizeEstimate : Nat

/-- What the selection of one operation is compiled with. -/
structure Compiler where
  options : CompileOptions
  fragments : Entries FragmentDefinition
  /-- The variables that the operation declares. -/
  declared : List String

/-- The type a selection applies to. -/
inductive ParentType where
  | root (kind : OperationKind)
  | described (descriptor : TypeDescriptor)

namespace ParentType

def name : ParentType → String
  | root kind => kind.rootTypeName
  | described descriptor => descriptor.name

/-- The types that a type condition may narrow the parent to. -/
def candidates : ParentType → List NamedType
  | root _ => []
  | described descriptor =>
    match descriptor.kind with
    | .union object => object.fields.map (·.type.namedType)
    | .interface shape => shape.implementors.map .host
    | _ => []

end ParentType

/-- Whether two fields of one response key could both apply to a value. -/
def overlap : Option NamedType → Option NamedType → Bool
  | some left, some right => left == right
  | _, _ => true

/-- The first field whose response key an earlier field that overlaps it has. -/
def firstDuplicate : List FieldPlan → List FieldPlan → Option FieldPlan
  | _, [] => none
  | earlier, field :: rest =>
    if earlier.any fun other => other.responseKey == field.responseKey && overlap other.condition field.condition then
      some field
    else firstDuplicate (earlier ++ [field]) rest

/-- Scalars, enums and maps take no selection, in lists neither. -/
def isLeafType (descriptor : TypeDescriptor) : TypeRef → Bool
  | .named .. => descriptor.isLeaf
  | .list item _ => isLeafType descriptor item
  | .map .. => true

namespace Compiler

/-- How many fragments are not in a stack. -/
def remaining (c : Compiler) (stack : List String) : Nat :=
  ((Entries.keys c.fragments).filter (· ∉ stack)).length

theorem remaining_cons_lt {c : Compiler} {stack : List String} {name : String} {fragment : FragmentDefinition}
    (hf : Entries.find? name c.fragments = some fragment) (hs : name ∉ stack) :
    c.remaining (name :: stack) < c.remaining stack :=
  filter_notMem_cons_lt (Entries.mem_keys_of_find? hf) hs

/-- Checks that the variables in a value are declared. -/
def checkVariables (c : Compiler) (value : Located Value) : Except CompileError Unit :=
  match value.value.variableNames.find? (· ∉ c.declared) with
  | some name => .error (.undefinedVariable name value.location)
  | none => .ok ()

/-- The condition that a directive stands for. -/
def condition (c : Compiler) (d : Directive) : Except CompileError Condition := do
  let make ← match d.name with
    | "skip" => pure Condition.skipIf
    | "include" => pure Condition.includeIf
    | _ => throw (.unknownDirective d.name d.location)
  match d.arguments.find? (·.name.value = "if") with
  | none => throw (.missingDirectiveArgument d.name d.location)
  | some argument =>
    c.checkVariables argument.value
    return make argument.value.value

def conditions (c : Compiler) (directives : List Directive) : Except CompileError (List Condition) :=
  directives.mapM c.condition

/-- The first of some types that has a name. -/
def findNamed (c : Compiler) (name : String) : List NamedType → CompileM (Option TypeDescriptor)
  | [] => return none
  | type :: rest => do
    let descriptor ← (c.options.host.describe type).inPlan
    if descriptor.name = name then return some descriptor else c.findNamed name rest

/-- Applies a type condition: the narrowed parent and the concrete type it asks for. -/
def narrow (c : Compiler) (parent : ParentType) (on : Located String) (current : Option NamedType) :
    CompileM (ParentType × Option NamedType) := do
  if on.value = parent.name then return (parent, current)
  match ← c.findNamed on.value parent.candidates with
  | some descriptor => return (.described descriptor, some descriptor.type)
  | none => throw (.invalidTypeCondition on.value parent.name on.location)

/-- What a field reads and its type. -/
def target (c : Compiler) (parent : ParentType) (head : FieldHead) : Except CompileError (FieldTarget × TypeRef) :=
  let unknownField : Except CompileError (FieldTarget × TypeRef) :=
    .error (.unknownField head.name parent.name head.location)
  let unknownArgument (argument : Argument) : Except CompileError (FieldTarget × TypeRef) :=
    .error (.unknownArgument argument.name.value parent.name head.name argument.name.location)
  if head.name = "__typename" then
    match head.arguments with
    | argument :: _ => unknownArgument argument
    | [] => .ok (.typename, .named (.builtin .string) false)
  else
    match parent with
    | .root kind =>
      match c.options.operations.find? kind head.name with
      | none => unknownField
      | some operation =>
        match head.arguments.find? (·.name.value ∉ operation.argumentNames) with
        | some argument => unknownArgument argument
        | none => .ok (.operation operation, operation.output)
    | .described descriptor =>
      match head.arguments with
      | argument :: _ => unknownArgument argument
      | [] =>
        match descriptor.kind with
        | .object object =>
          match object.position? head.name, object.find? head.name with
          | some index, some field => .ok (.objectField descriptor index, field.type)
          | _, _ => unknownField
        | .interface shape =>
          match shape.find? head.name with
          | some field => .ok (.interfaceField, field.type)
          | none => unknownField
        | _ => unknownField

/-- The complexity of a field with the selection below it. -/
def score (c : Compiler) (parent : ParentType) (name : String) (target : FieldTarget) (type : TypeRef)
    (selection : List FieldPlan) : Nat :=
  match target with
  | .typename => 0
  | _ =>
    let item := saturatingAdd (c.options.scorer.field parent.name name) (totalComplexity selection)
    if type.isList then c.options.scorer.list item c.options.listSizeEstimate else item

/-- Compiles a field, given its written selection and how that is compiled for the type of the field. -/
def field (c : Compiler) (parent : ParentType) (condition : Option NamedType) (inherited : List Condition)
    (head : FieldHead) (hasSelection : Bool) (select : TypeDescriptor → CompileM (List FieldPlan)) :
    CompileM FieldPlan := do
  let directives := inherited ++ (← c.conditions head.directives)
  head.arguments.forM fun argument => c.checkVariables argument.value
  let (target, type) ← c.target parent head
  let descriptor ← (c.options.host.describe type.namedType).inPlan
  let selection ←
    if isLeafType descriptor type then
      if hasSelection then throw (.unexpectedSelection head.name descriptor.name head.location) else pure []
    else if hasSelection then select descriptor
    else throw (.missingSelection head.name descriptor.name head.location)
  return {
    responseKey := head.responseKey
    aliased := head.aliasName.isSome
    name := head.name
    location := head.location
    condition
    directives
    arguments := head.arguments.map fun argument => (argument.name.value, argument.value.value)
    target
    type
    complexity := c.score parent head.name target type selection
    selection }

/-- The fields of a selection unless two of them clash. -/
def distinct (parent : ParentType) (fields : List FieldPlan) : CompileM (List FieldPlan) :=
  match firstDuplicate [] fields with
  | some duplicate => throw (.duplicateAlias duplicate.responseKey parent.name duplicate.location)
  | none => return fields

/-- Flattens selections into fields under a type condition and directives; `stack` holds the fragments
that are being inlined. -/
def collect (c : Compiler) (stack : List String) (parent : ParentType) (condition : Option NamedType)
    (directives : List Condition) : List Selection → CompileM (List FieldPlan)
  | [] => return []
  | .field head selection :: rest => do
    let select (type : TypeDescriptor) : CompileM (List FieldPlan) := do
      distinct (.described type) (← c.collect stack (.described type) none [] selection)
    let first ← c.field parent condition directives head (!selection.isEmpty) select
    return first :: (← c.collect stack parent condition directives rest)
  | .spread location name own :: rest => do
    match _hf : Entries.find? name c.fragments with
    | none => throw (.unknownFragment name location)
    | some fragment =>
      if _hs : name ∈ stack then throw (.fragmentCycle name location)
      else
        let within := directives ++ (← c.conditions own)
        let (narrowed, narrowedCondition) ← c.narrow parent fragment.condition condition
        let inner ← c.collect (name :: stack) narrowed narrowedCondition within fragment.selection
        return inner ++ (← c.collect stack parent condition directives rest)
  | .inline on own selection :: rest => do
    let within := directives ++ (← c.conditions own)
    let (narrowed, narrowedCondition) ← match on with
      | some type => c.narrow parent type condition
      | none => pure (parent, condition)
    let inner ← c.collect stack narrowed narrowedCondition within selection
    return inner ++ (← c.collect stack parent condition directives rest)
termination_by selections => (c.remaining stack, sizeOf selections)
decreasing_by
  · exact Prod.Lex.right _ (by simp only [List.cons.sizeOf_spec, Selection.field.sizeOf_spec]; omega)
  · exact Prod.Lex.right _ (by simp only [List.cons.sizeOf_spec]; omega)
  · exact Prod.Lex.left _ _ (remaining_cons_lt _hf _hs)
  · exact Prod.Lex.right _ (by simp only [List.cons.sizeOf_spec]; omega)
  · exact Prod.Lex.right _ (by simp only [List.cons.sizeOf_spec, Selection.inline.sizeOf_spec]; omega)
  · exact Prod.Lex.right _ (by simp only [List.cons.sizeOf_spec]; omega)

end Compiler

/-- The operation of a document that a request asks for. -/
def Operations.select : Operations → Option String → Except CompileError (Option String × OperationDefinition)
  | .anonymous operation, none => .ok (none, operation)
  | .anonymous _, some name => .error (.unknownOperation name)
  | .named operations, some name =>
    match Entries.find? name operations with
    | some operation => .ok (some name, operation)
    | none => .error (.unknownOperation name)
  | .named [], none => .error .missingOperation
  | .named [(name, operation)], none => .ok (some name, operation)
  | .named _, none => .error .ambiguousOperation

/-- Compiles an operation of a document. -/
def compileDocument (options : CompileOptions) (document : Document) (operationName : Option String) :
    CompileM Plan := do
  let (name, operation) ← document.operations.select operationName
  let compiler : Compiler :=
    { options, fragments := document.fragments, declared := operation.variableDefinitions.map (·.name) }
  let root := ParentType.root operation.kind
  let selection ← Compiler.distinct root (← compiler.collect [] root none [] operation.selection)
  if operation.kind = .subscription && selection.length ≠ 1 then
    throw (.subscriptionRootFields (name.getD "<anonymous>") selection.length operation.location)
  return { kind := operation.kind, name, variableDefinitions := operation.variableDefinitions, selection }

/-- Compiles the text of a request. -/
def compile (options : CompileOptions) (query : String) (operationName : Option String) : CompileM Plan := do
  match Document.parse query with
  | .error e => throw (.document e)
  | .ok document => compileDocument options document operationName

end GraphQL
