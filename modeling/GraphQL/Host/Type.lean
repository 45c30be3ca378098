import GraphQL.Host.Value

/-!
# Host types

A host type describes itself: its fields and what it embeds, or its enum values, input fields,
interface fields or scalar behavior. It also says how a value is built from the fields of an input
object and which values are valid. `Host` is the table of all types of an application.
-/

namespace GraphQL

/-- Description and deprecation of a field, enum value or operation. -/
structure ItemMeta where
  description : Option String := none
  deprecation : Option String := none
deriving Repr

/-- Plain data of a value, or computed from it. -/
inductive FieldSource where
  | field
  | method
deriving DecidableEq, Repr

structure FieldDeclaration where
  name : String
  source : FieldSource
  type : TypeRef
  shape : FieldShape
  info : ItemMeta

/-- Held by the value, or by a pointer that may be missing. -/
inductive EmbedKind where
  | value
  | pointer
deriving DecidableEq, Repr

/-- A type whose fields are promoted. -/
structure EmbedDeclaration where
  target : HostId
  kind : EmbedKind

/-- A name of an enumeration and the variant it stands for. -/
structure EnumValue where
  name : String
  variant : String
  info : ItemMeta

/-- A field of an input object or interface. -/
structure TypedItem where
  name : String
  type : TypeRef
  info : ItemMeta

/-- How values of a scalar are written and read. Reading may produce a value of another type, which is
refused where the scalar is used. -/
structure ScalarCodec where
  serialize : HostValue → Const
  parse : Const → Except Failure Resolved

/-- What a type declares about itself. -/
structure TypeDescription where
  name : Option String := none
  description : Option String := none
  isUnion : Bool := false
  fields : List FieldDeclaration := []
  embeds : List EmbedDeclaration := []
  enumValues : List EnumValue := []
  inputFields : List TypedItem := []
  interfaceFields : List TypedItem := []
  implementors : List HostId := []
  scalar : Option ScalarCodec := none

/-- How a value is built from the fields of an input object: a program that takes fields by name and
type, may ask whether a field is there, and ends with the fields of the value or a failure. -/
inductive Construction where
  | done (result : Except Failure (Entries Resolved))
  | take (name : String) (type : TypeRef) (next : Resolved → Construction)
  | ifGiven (name : String) (next : Bool → Construction)
  /-- Asks for the GraphQL name of the input object. -/
  | typeName (next : String → Construction)

/-- A type that is no input object. -/
def Construction.unavailable : Construction :=
  .typeName fun name => .done (.error (.message (name ++ " cannot be built from input")))

structure HostType where
  /-- The name of the type in the host application. -/
  hostName : String
  description : TypeDescription := {}
  construct : Construction := .unavailable
  /-- Called on every input value of the type. -/
  validate : HostValue → Except Failure Unit := fun _ => .ok ()

/-- The types of a host application; a type is known by its place in the list. -/
structure Host where
  builtinName : BuiltinType → String
  types : List HostType

namespace Host

/-- The name of a type in the host application. -/
def typeName (host : Host) : NamedType → String
  | .builtin type => host.builtinName type
  | .host id => (host.types[id]?.map (·.hostName)).getD ""

/-- All types: the builtin ones and those of the application. -/
def allTypes (host : Host) : List NamedType :=
  BuiltinType.all.map .builtin ++ (List.range host.types.length).map .host

/-- How many types of the application are not in a list. -/
def remaining (host : Host) (seen : List HostId) : Nat :=
  ((List.range host.types.length).filter (· ∉ seen)).length

/-- How many types are not in a list. -/
def remainingTypes (host : Host) (seen : List NamedType) : Nat :=
  (host.allTypes.filter (· ∉ seen)).length

end Host

theorem Host.remaining_cons_lt {host : Host} {seen : List HostId} {id : HostId} (hid : id < host.types.length)
    (h : id ∉ seen) : host.remaining (id :: seen) < host.remaining seen :=
  filter_notMem_cons_lt (List.mem_range.2 hid) h

theorem Host.remainingTypes_cons_lt {host : Host} {seen : List NamedType} {type : NamedType}
    (ht : type ∈ host.allTypes) (h : type ∉ seen) : host.remainingTypes (type :: seen) < host.remainingTypes seen :=
  filter_notMem_cons_lt ht h

/-- The part of a path after its last colon and before any angle bracket. -/
def defaultTypeName (hostName : String) : String :=
  let path := hostName.toList.takeWhile (· ≠ '<')
  String.ofList ((path.reverse.takeWhile (· ≠ ':')).reverse)

/-- A name that operations, types and fields may have. -/
def isValidName (name : String) : Bool :=
  match name.toList with
  | [] => false
  | first :: rest =>
    (first.isAlpha || first == '_') && rest.all (fun c => c.isAlphanum || c == '_')
      && !("__".toList.isPrefixOf name.toList)

end GraphQL
