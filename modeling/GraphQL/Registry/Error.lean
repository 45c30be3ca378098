import GraphQL.Text.Quoted

/-!
# Registration errors

Why a host type cannot be described, or an operation or custom scalar not registered.
-/

namespace GraphQL

inductive RegistrationError where
  | unsupportedType (typeName reason : String)
  | invalidName (name context : String)
  | duplicateName (typeName kind name : String)
  | ambiguousField (typeName field : String)
  | invalidEmbedding (typeName embedded : String)
  | recursiveEmbedding (typeName : String)
  | invalidUnionFieldKind (typeName field kind : String)
  | invalidImplementor (interface implementor : String)
  | missingInterfaceField (interface implementor field : String)
  | duplicateTypeName (name first second : String)
  | duplicateScalarName (name : String)
  | duplicateScalarType (typeName : String)
  | builtinScalarOverride (typeName : String)
  | invalidParameters (operation reason : String)
deriving DecidableEq, Repr

def RegistrationError.message : RegistrationError → String
  | unsupportedType typeName reason => s!"{typeName} cannot be exposed through GraphQL: {reason}"
  | invalidName name context => s!"invalid GraphQL name {quoteWith Escape.name name} in {context}"
  | duplicateName typeName kind name => s!"{kind} {name} is declared more than once in {typeName}"
  | ambiguousField typeName field =>
    s!"field {field} of {typeName} is ambiguous: more than one embedded type provides it at the same depth"
  | invalidEmbedding typeName embedded => s!"{typeName} cannot embed {embedded}: only object types can be embedded"
  | recursiveEmbedding typeName => s!"{typeName} embeds itself"
  | invalidUnionFieldKind typeName field kind =>
    s!"field {field} of union {typeName} cannot be a member ({kind}): members must be optional values, "
      ++ "lists, maps or interfaces"
  | invalidImplementor interface implementor =>
    s!"{implementor} cannot implement interface {interface}: it is not an object type"
  | missingInterfaceField interface implementor field =>
    s!"{implementor} does not provide field {field} of interface {interface}"
  | duplicateTypeName name first second => s!"GraphQL type name {name} is used by both {first} and {second}"
  | duplicateScalarName name => s!"a custom scalar named {name} is already registered"
  | duplicateScalarType typeName => s!"a custom scalar is already registered for {typeName}"
  | builtinScalarOverride typeName => s!"builtin scalar {typeName} cannot be replaced by a custom scalar"
  | invalidParameters operation reason => s!"invalid parameters for operation {operation}: {reason}"

end GraphQL
