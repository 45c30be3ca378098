import GraphQL.Document
import GraphQL.Host.Work
import GraphQL.Registry

/-!
# Operations

An operation is a named resolver with the types of its parameters and of its result. Arguments reach
the parameters in one of three modes: as the fields of a single input object, by declared names, or by
position as `arg1`, `arg2` and so on. `OperationDeclaration.describe` settles the mode and describes
every type that the operation reaches.
-/

namespace GraphQL

/-- How arguments are bound to parameters. -/
inductive ParamMode where
  /-- Struct mode for a single input object without declared names, named mode where names are
  declared, and positional mode otherwise. -/
  | auto
  | struct
  | named
  | positional
deriving DecidableEq, Repr

def ParamMode.text : ParamMode → String
  | auto => "auto"
  | struct => "struct"
  | named => "named"
  | positional => "positional"

inductive OperationResolver where
  | field (call : Resolver Resolved)
  | stream (call : Resolver EventSource)

/-- An operation as it is declared. -/
structure OperationDeclaration where
  kind : OperationKind
  name : String
  info : ItemMeta := {}
  mode : ParamMode := .auto
  /-- The argument names of the parameters, in order; none if they are not declared. -/
  names : List String := []
  params : List TypeRef
  output : TypeRef
  resolver : OperationResolver

structure Param where
  name : String
  type : TypeRef

inductive Binding where
  /-- Every argument is a field of the single input object. -/
  | struct (type : TypeRef) (fields : List String)
  /-- One argument for each parameter, in order. -/
  | arguments (params : List Param)

/-- A registered operation. -/
structure OperationDescriptor where
  kind : OperationKind
  name : String
  info : ItemMeta
  output : TypeRef
  mode : ParamMode
  binding : Binding
  resolver : OperationResolver

namespace OperationDescriptor

/-- The names of the arguments that the operation accepts. -/
def argumentNames (operation : OperationDescriptor) : List String :=
  match operation.binding with
  | .struct _ fields => fields
  | .arguments params => params.map (·.name)

end OperationDescriptor

namespace OperationDeclaration

/-- The field names of a parameter that is an input object. -/
def inputObjectFields? (host : Host) (param : TypeRef) : RegistryM (Option (List String)) := do
  let descriptor ← host.describe param.namedType
  match descriptor.kind with
  | .inputObject fields => return some (fields.map (·.name))
  | _ => return none

/-- The mode in which arguments are bound once it is known whether the parameters are one input object. -/
def resolveMode (o : OperationDeclaration) (inputObject : Bool) : ParamMode :=
  match o.mode with
  | .auto =>
    if !o.names.isEmpty then .named
    else if inputObject then .struct
    else .positional
  | mode => mode

/-- Checks declared parameter names: each is valid and differs from those before it. -/
def checkParamNames (o : OperationDeclaration) (seen : List String) : List String → Except RegistrationError Unit
  | [] => .ok ()
  | name :: rest =>
    if !isValidName name then .error (.invalidName name s!"parameter of {o.name}")
    else if name ∈ seen then .error (.invalidParameters o.name s!"parameter name {name} is declared more than once")
    else o.checkParamNames (name :: seen) rest

/-- The binding of a mode, or why the declaration does not fit it. -/
def bind (o : OperationDeclaration) (fields : Option (List String)) (mode : ParamMode) :
    Except RegistrationError Binding :=
  let invalid (reason : String) : Except RegistrationError Binding := .error (.invalidParameters o.name reason)
  match mode with
  | .struct =>
    if !o.names.isEmpty then invalid "parameter names are not allowed in struct mode"
    else
      match fields, o.params with
      | some fields, param :: _ => .ok (.struct param fields)
      | _, _ => invalid "struct mode requires a single input object parameter"
  | .named =>
    if o.names.length ≠ o.params.length then
      invalid s!"{o.names.length} parameter names declared for {o.params.length} parameters"
    else
      match o.checkParamNames [] o.names with
      | .error e => .error e
      | .ok () => .ok (.arguments (o.names.zipWith Param.mk o.params))
  | .positional | .auto =>
    if !o.names.isEmpty then invalid "parameter names are not allowed in positional mode"
    else .ok (.arguments (o.params.mapIdx fun i type => ⟨s!"arg{i + 1}", type⟩))

/-- Settles the binding and describes every type that the operation reaches. -/
def describe (host : Host) (o : OperationDeclaration) : RegistryM OperationDescriptor := do
  if !isValidName o.name then throw (.invalidName o.name s!"{o.kind.text} operation")
  let fields ← match o.params with
    | [param] => if param.isList then pure none else inputObjectFields? host param
    | _ => pure none
  let mode := o.resolveMode fields.isSome
  let binding ← o.bind fields mode
  host.ensureReachable (o.params ++ [o.output])
  return { kind := o.kind, name := o.name, info := o.info, output := o.output, mode, binding, resolver := o.resolver }

end OperationDeclaration

/-- The registered operations, each kind with names of its own. -/
structure OperationTable where
  query : Entries OperationDescriptor := []
  mutation : Entries OperationDescriptor := []
  subscription : Entries OperationDescriptor := []

namespace OperationTable

def ofKind (table : OperationTable) : OperationKind → Entries OperationDescriptor
  | .query => table.query
  | .mutation => table.mutation
  | .subscription => table.subscription

/-- Adds an operation in place of any other of its kind and name. -/
def insert (table : OperationTable) (operation : OperationDescriptor) : OperationTable :=
  match operation.kind with
  | .query => { table with query := Entries.insert operation.name operation table.query }
  | .mutation => { table with mutation := Entries.insert operation.name operation table.mutation }
  | .subscription => { table with subscription := Entries.insert operation.name operation table.subscription }

def find? (table : OperationTable) (kind : OperationKind) (name : String) : Option OperationDescriptor :=
  Entries.find? name (table.ofKind kind)

/-- The names of a kind in alphabetical order. -/
def names (table : OperationTable) (kind : OperationKind) : List String :=
  (Entries.keys (table.ofKind kind)).mergeSort

end OperationTable

end GraphQL
