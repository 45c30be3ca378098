import GraphQL.Execution

/-!
# Leaves

Scalars and enums are serialized to constants, and maps with them. A custom scalar registered for the
type of a value comes first, then the descriptor of the declared type decides. A constant is taken as
it is, whatever the declared type. Lists inside maps are cut only after all of their items are
serialized.
-/

namespace GraphQL

/-- Computations that serialize: they may fail, and describe types on the way. -/
abbrev LeafM := ExceptT HostError (StateM Registry)

namespace Execution

/-- Serializes a value of the type that a serializer is for. -/
def serializeWith (x : Execution) (type : NamedType) (serialize : HostValue → Const) (value : HostValue) :
    Except HostError Const :=
  if .host value.type = type then .ok (serialize value)
  else .error { message := s!"expected a value of {x.host.typeName type}" }

/-- Whether a value is the one that a name of an enumeration stands for. -/
def isEnumValue (type : NamedType) (value : HostValue) (candidate : EnumValue) : Bool :=
  .host value.type = type && (Resolved.shownHost value).sameJson (.string candidate.variant)

/-- Serializes a host value as its declared type says. -/
def serializeHost (x : Execution) (descriptor : TypeDescriptor) (value : HostValue) : Except HostError Const :=
  match descriptor.kind with
  | .scalar (.custom scalar) => x.serializeWith scalar.type scalar.serialize value
  | .scalar (.host codec) => x.serializeWith descriptor.type codec.serialize value
  | .enum values =>
    match values.find? (isEnumValue descriptor.type value) with
    | some found => .ok (.enum found.name)
    | none => .error { message := s!"value is not a member of enum {descriptor.name}" }
  | _ =>
    .error { message := s!"{x.host.typeName (.host value.type)} cannot be serialized as {descriptor.name}" }

/-- Serializes a value of a named type. -/
def serializeNamed (x : Execution) (registry : Registry) (descriptor : TypeDescriptor) :
    Resolved → Except HostError Const
  | .null => .ok .null
  | .const c => .ok c
  | .host value =>
    match registry.scalar? (.host value.type) with
    | some scalar => .ok (scalar.serialize value)
    | none => x.serializeHost descriptor value
  | .list _ | .map _ => .error { message := descriptor.name ++ " expects a single value" }

/-- Serializes a value of a named type, describing the type. -/
def serializeSingle (x : Execution) (type : NamedType) (value : Resolved) : LeafM Const := do
  let descriptor ← ExceptT.adapt (fun e => { message := e.message }) (x.host.describe type)
  x.serializeNamed (← get) descriptor value

/-- The error for a value that does not have the form of its type. -/
def formMismatch {α : Type} (x : Execution) (type : TypeRef) : LeafM α :=
  throw { message := s!"value does not match the declared type {x.host.typeName type.namedType}" }

mutual

/-- Serializes a value of a leaf type: a scalar, an enum, or a list or map of them. -/
def serialize (x : Execution) (type : TypeRef) : Resolved → LeafM Const
  | .null => return .null
  | .map entries =>
    match type with
    | .map item _ => return .object (Entries.ofList (← x.serializeEntries item entries))
    | .named named _ => x.serializeSingle named (.map entries)
    | .list .. => x.formMismatch type
  | .list items =>
    match type with
    | .list item _ => return .list (x.limits.keepItems (← x.serializeItems item items))
    | .named named _ => x.serializeSingle named (.list items)
    | .map .. => x.formMismatch type
  | value =>
    match type with
    | .named named _ => x.serializeSingle named value
    | _ => x.formMismatch type

def serializeItems (x : Execution) (type : TypeRef) : List Resolved → LeafM (List Const)
  | [] => return []
  | item :: rest => return (← x.serialize type item) :: (← x.serializeItems type rest)

def serializeEntries (x : Execution) (type : TypeRef) : List (String × Resolved) → LeafM (Entries Const)
  | [] => return []
  | (key, value) :: rest => return (key, ← x.serialize type value) :: (← x.serializeEntries type rest)

end

end Execution

end GraphQL
