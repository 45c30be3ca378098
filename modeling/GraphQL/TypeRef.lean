/-!
# Type references

A reference names a type and wraps it in nullability, lists and maps. The named types are the builtin
scalars, of which several host types may share one GraphQL name, and the types of the host
application, known by number.
-/

namespace GraphQL

/-- The host types that stand for builtin scalars. -/
inductive BuiltinType where
  | string
  | boolean
  | int32
  | int64
  | uint32
  | float64
  | float32
  | id
deriving DecidableEq, Repr

namespace BuiltinType

/-- The GraphQL name of the scalar. -/
def scalarName : BuiltinType → String
  | string => "String"
  | boolean => "Boolean"
  | int32 | int64 | uint32 => "Int"
  | float64 | float32 => "Float"
  | id => "ID"

def all : List BuiltinType := [string, boolean, int32, int64, uint32, float64, float32, id]

end BuiltinType

/-- Whether a name is taken by a builtin scalar. -/
def isBuiltinName (name : String) : Bool := BuiltinType.all.any (·.scalarName = name)

/-- The number of a type of the host application. -/
abbrev HostId := Nat

inductive NamedType where
  | builtin (type : BuiltinType)
  | host (id : HostId)
deriving DecidableEq, Repr

inductive TypeRef where
  | named (type : NamedType) (nullable : Bool)
  | list (item : TypeRef) (nullable : Bool)
  /-- An object with any keys, always serialized as a leaf. -/
  | map (value : TypeRef) (nullable : Bool)
deriving DecidableEq, Repr

namespace TypeRef

def nullable : TypeRef → Bool
  | named _ nullable | list _ nullable | map _ nullable => nullable

def isList : TypeRef → Bool
  | list .. => true
  | _ => false

/-- The innermost named type. -/
def namedType : TypeRef → NamedType
  | named type _ => type
  | list item _ => item.namedType
  | map value _ => value.namedType

/-- The reference without nullability at its outermost level. -/
def strict : TypeRef → TypeRef
  | named type _ => named type false
  | list item _ => list item false
  | map value _ => map value false

/-- The reference in GraphQL syntax, maps in braces, given the names of named types. -/
def text (name : NamedType → String) : TypeRef → String
  | named type nullable => name type ++ mark nullable
  | list item nullable => "[" ++ item.text name ++ "]" ++ mark nullable
  | map value nullable => "\x7b" ++ value.text name ++ "\x7d" ++ mark nullable
where
  mark (nullable : Bool) : String := if nullable then "" else "!"

/-- How deeply a reference is wrapped. -/
def depth : TypeRef → Nat
  | named .. => 0
  | list item _ => item.depth + 1
  | map value _ => value.depth + 1

end TypeRef

/-- The outermost form of a field's type, by which members of unions are told from other fields. -/
inductive FieldShape where
  | value
  | pointer
  | slice
  | map
  | interface
deriving DecidableEq, Repr

def FieldShape.text : FieldShape → String
  | value => "value"
  | pointer => "pointer"
  | slice => "slice"
  | map => "map"
  | interface => "interface"

end GraphQL
