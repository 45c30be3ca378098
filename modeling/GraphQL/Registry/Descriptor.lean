import GraphQL.Host.Type

/-!
# Type descriptors

What the engine knows about a named type once it is described: its GraphQL name and, by kind, its
fields, values, members or scalar behavior. The fields of an object include those promoted from the
types it embeds; each records the steps that lead to the value that declares it.
-/

namespace GraphQL

/-- One step from a value to a value that it embeds: the `index`-th of those that values of `owner` hold. -/
structure EmbedStep where
  kind : EmbedKind
  owner : HostId
  index : Nat
  target : HostId
  /-- The GraphQL name of the embedded type. -/
  typeName : String

/-- The embedded value, if the value is of the right type and holds one. -/
def EmbedStep.follow (step : EmbedStep) (value : HostValue) : Option HostValue :=
  if value.type = step.owner then
    match value.embedded[step.index]? with
    | some (some inner) => if inner.type = step.target then some inner else none
    | _ => none
  else none

theorem EmbedStep.sizeOf_follow_lt {step : EmbedStep} {value inner : HostValue} (h : step.follow value = some inner) :
    sizeOf inner < sizeOf value := by
  unfold follow at h
  split at h
  · split at h
    · next found eq =>
      split at h
      · cases h
        exact HostValue.sizeOf_embedded_lt eq
      · cases h
    · cases h
  · cases h

structure FieldDescriptor where
  name : String
  source : FieldSource
  type : TypeRef
  shape : FieldShape
  info : ItemMeta
  /-- The type that declares the field, and its name in the host application. -/
  owner : HostId
  ownerName : String
  /-- Places in the steps of the object, leading to the value that declares the field. -/
  path : List Nat

namespace FieldDescriptor

/-- The number of embeddings crossed to reach the field. -/
def depth (field : FieldDescriptor) : Nat := field.path.length

/-- What the getter of the field returns for a value of the declaring type. -/
def read (field : FieldDescriptor) (value : HostValue) : Except Failure Resolved :=
  if value.type = field.owner then value.read field.name
  else .error (.message s!"expected a value of {field.ownerName}")

theorem sizeOf_read_lt {field : FieldDescriptor} {value : HostValue} {r : Resolved} (h : field.read value = .ok r) :
    sizeOf r < sizeOf value := by
  unfold read at h
  split at h
  · exact HostValue.sizeOf_read_lt h
  · cases h

end FieldDescriptor

/-- The fields of an object or union, promoted ones included, and the embeddings they are reached by. -/
structure ObjectFields where
  steps : List EmbedStep
  fields : List FieldDescriptor

namespace ObjectFields

def position? (object : ObjectFields) (name : String) : Option Nat := object.fields.findIdx? (·.name = name)

def find? (object : ObjectFields) (name : String) : Option FieldDescriptor := object.fields.find? (·.name = name)

def methods (object : ObjectFields) : List FieldDescriptor := object.fields.filter (·.source = .method)

end ObjectFields

structure InterfaceShape where
  fields : List TypedItem
  implementors : List HostId

def InterfaceShape.find? (shape : InterfaceShape) (name : String) : Option TypedItem :=
  shape.fields.find? (·.name = name)

/-- A custom scalar registered for a host type. Literals may be parsed differently from variables. -/
structure ScalarDescriptor where
  name : String
  description : Option String
  type : NamedType
  serialize : HostValue → Const
  parseVariable : Const → Except Failure Resolved
  parseLiteral : Const → Except Failure Resolved

inductive ScalarKind where
  | builtin (type : BuiltinType)
  /-- Described by the type itself. -/
  | host (codec : ScalarCodec)
  /-- Registered for the type, taking the place of its own description. -/
  | custom (scalar : ScalarDescriptor)

inductive TypeKind where
  | object (fields : ObjectFields)
  | union (fields : ObjectFields)
  | interface (shape : InterfaceShape)
  | enum (values : List EnumValue)
  | inputObject (fields : List TypedItem)
  | scalar (kind : ScalarKind)

structure TypeDescriptor where
  type : NamedType
  name : String
  description : Option String
  kind : TypeKind

namespace TypeDescriptor

/-- Scalars and enums are serialized directly and have no selection. -/
def isLeaf (descriptor : TypeDescriptor) : Bool :=
  match descriptor.kind with
  | .scalar _ | .enum _ => true
  | _ => false

/-- The fields of an object or union. -/
def objectFields? (descriptor : TypeDescriptor) : Option ObjectFields :=
  match descriptor.kind with
  | .object fields | .union fields => some fields
  | _ => none

/-- The named types that a type refers to, embedded types aside. -/
def references (descriptor : TypeDescriptor) : List NamedType :=
  match descriptor.kind with
  | .object object | .union object => object.fields.map (·.type.namedType)
  | .interface shape => shape.fields.map (·.type.namedType) ++ shape.implementors.map .host
  | .inputObject fields => fields.map (·.type.namedType)
  | .enum _ | .scalar _ => []

end TypeDescriptor

end GraphQL
