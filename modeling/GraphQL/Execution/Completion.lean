import GraphQL.Execution.Leaf

/-!
# Completing values

`Execution.complete` shapes what a resolver or getter returned by the declared type and the selection
of a field. Lists complete item by item, unions stand for their only member, interfaces for the type
of the value, and objects read the fields of the selection one after the other. Whatever is read from
a value is smaller than it, so completing ends although types may refer to each other in circles.
-/

namespace GraphQL

namespace Execution

/-- The description of a type as part of an execution. -/
def describe (x : Execution) (type : NamedType) : ExecM (Except RegistrationError TypeDescriptor) :=
  ExecM.onRegistry (x.host.describe type).run

/-- A serialized leaf, or the error that it is not one. -/
def completeLeaf (leaf : LeafM Const) (field : FieldPlan) (path : ErrorPath) : ExecM ResponseValue := do
  match ← ExecM.onRegistry leaf.run with
  | .ok c => return .const c
  | .error e => ExecM.fieldError e.message .resolverError field path

/-- Serializes a value of a named leaf type that is already described. -/
def leafOf (x : Execution) (descriptor : TypeDescriptor) (value : Resolved) : LeafM Const := do
  x.serializeNamed (← get) descriptor value

/-- The error for a value that is no object of its type. -/
def unexpected (descriptor : TypeDescriptor) (field : FieldPlan) (path : ErrorPath) : ExecM ResponseValue :=
  ExecM.fieldError s!"field {field.name} did not resolve to a value of {descriptor.name}" .resolverError field path

/-- The error for an input object where a value is expected. -/
def notReturned (descriptor : TypeDescriptor) (field : FieldPlan) (path : ErrorPath) : ExecM ResponseValue :=
  ExecM.fieldError s!"input object {descriptor.name} cannot be returned" .internalServerError field path

/-- How a value that was read from `whole` is completed for a field, at a path and depth. -/
abbrev Finish (whole : HostValue) :=
  TypeRef → (value : Resolved) → sizeOf value < sizeOf whole → FieldPlan → ErrorPath → Nat → ExecM ResponseValue

/-- Reads a field of a value and completes what the getter returned. A path out of range is no error of the
field: the engine should never meet one. -/
def readField (object : ObjectFields) (descriptor : FieldDescriptor) (value : HostValue) (field : FieldPlan)
    (path : ErrorPath) (depth : Nat) (finish : Finish value) : ExecM ResponseValue :=
  match hn : object.navigate descriptor value with
  | .error (.outOfRange _) => ExecM.abort .internal
  | .error e => ExecM.fieldError e.message .navigationError field path
  | .ok target => do
    ExecM.note (.read path descriptor.name)
    match hr : descriptor.read target with
    | .ok resolved =>
      finish descriptor.type resolved
        (Nat.lt_of_lt_of_le (FieldDescriptor.sizeOf_read_lt hr) (ObjectFields.sizeOf_navigate_le hn)) field path
        depth
    | .error (.error e) => ExecM.hostError e .resolverError field path
    | .error (.panic message) =>
      ExecM.fieldError s!"field {descriptor.name} panicked: {message}" .internalServerError field path

/-- Resolves a field of an object at a depth. -/
def resolveField (x : Execution) (descriptor : TypeDescriptor) (value : HostValue) (field : FieldPlan)
    (path : ErrorPath) (depth : Nat) (finish : Finish value) : ExecM ResponseValue := do
  ExecM.checkCancelled
  ExecM.ofExcept (field.guard (x.limits.checkDepth depth))
  match field.target with
  | .typename => return .const (.string descriptor.name)
  | .objectField owner index =>
    match owner.objectFields? with
    | some object =>
      match object.fields[index]? with
      | some declared => readField object declared value field path depth finish
      | none => ExecM.abort .internal
    | none => ExecM.abort .internal
  | .interfaceField =>
    match descriptor.objectFields? with
    | some object =>
      match object.find? field.name with
      | some declared => readField object declared value field path depth finish
      | none => missing
    | none => missing
  | .operation _ => ExecM.abort .internal
where
  missing : ExecM ResponseValue :=
    ExecM.fieldError s!"{descriptor.name} does not provide field {field.name}" .resolverError field path

/-- Resolves the selection of a field on an object, one level below `depth`. -/
def resolveObject (x : Execution) (descriptor : TypeDescriptor) (value : HostValue) (parent : FieldPlan)
    (path : ErrorPath) (depth : Nat) (finish : Finish value) : ExecM ResponseValue := do
  let fields ← ExecM.ofExcept (x.collect parent.selection (some descriptor.type))
  let entries ← fields.mapM fun field => do
    let path := path.field field.responseKey
    return (field.responseKey, ← x.resolveField descriptor value field path (depth + 1) finish)
  return .object entries

/-- Completes a host value as its declared type says. -/
def completeHost (x : Execution) (type : NamedType) (value : HostValue) (field : FieldPlan) (path : ErrorPath)
    (depth : Nat) (finish : Finish value) : ExecM ResponseValue := do
  match ← x.describe type with
  | .error e => ExecM.fieldError e.message .internalServerError field path
  | .ok descriptor =>
    match descriptor.kind with
    | .scalar _ | .enum _ => completeLeaf (x.leafOf descriptor (.host value)) field path
    | .object _ => x.resolveObject descriptor value field path depth finish
    | .union _ =>
      match hd : dereference descriptor value with
      | .ok (.member _ type r) => finish type r (sizeOf_dereference_lt hd) field path depth
      | .ok (.unchanged _) => x.resolveObject descriptor value field path depth finish
      | .error (.panic message) => throw (.breakdown (.crash message))
      | .error e => ExecM.fieldError e.message .resolverError field path
    | .interface shape =>
      if shape.implementors.contains value.type then
        match ← x.describe (.host value.type) with
        | .ok concrete => x.resolveObject concrete value field path depth finish
        | .error e => ExecM.fieldError e.message .internalServerError field path
      else
        ExecM.fieldError s!"{x.host.typeName (.host value.type)} does not implement interface {descriptor.name}"
          .resolverError field path
    | .inputObject _ => notReturned descriptor field path

/-- Completes a value that is neither null nor of a host type as its declared type says. -/
def completePlain (x : Execution) (type : NamedType) (value : Resolved) (field : FieldPlan) (path : ErrorPath) :
    ExecM ResponseValue := do
  match ← x.describe type with
  | .error e => ExecM.fieldError e.message .internalServerError field path
  | .ok descriptor =>
    match descriptor.kind with
    | .scalar _ | .enum _ => completeLeaf (x.leafOf descriptor value) field path
    | .object _ | .union _ | .interface _ => unexpected descriptor field path
    | .inputObject _ => notReturned descriptor field path

/-- Shapes a value by its declared type and the selection of a field. -/
def complete (x : Execution) (type : TypeRef) (value : Resolved) (field : FieldPlan) (path : ErrorPath)
    (depth : Nat) : ExecM ResponseValue :=
  match type, value with
  | _, .null => return .null
  | .map .., value => completeLeaf (x.serialize type value) field path
  | .list item _, .list items => do
    let values ← (x.limits.keepItems items).attach.zipIdx.mapM fun (⟨r, _⟩, i) =>
      x.complete item r field (path.index i) depth
    return .list values
  | .list .., _ => ExecM.fieldError s!"field {field.name} did not resolve to a list" .resolverError field path
  | .named named _, .host host =>
    x.completeHost named host field path depth fun type r _ field path depth => x.complete type r field path depth
  | .named named _, value => x.completePlain named value field path
termination_by sizeOf value
decreasing_by
  · have := List.sizeOf_lt_of_mem (QueryLimits.mem_of_mem_keepItems ‹_›)
    simp
    omega
  · simp
    omega

end Execution

end GraphQL
