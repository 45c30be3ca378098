import GraphQL.Registry.Embedding
import GraphQL.Registry.Union

/-!
# The type registry

The registry holds the descriptors of the types described so far, the names they take, and the custom
scalars. A type is described on first use: `describe` builds its descriptor, describing first the types
it embeds or that implement it, and refuses a type that is reached again while it is being described.
What was described on the way stays, also when the type itself fails.
-/

namespace GraphQL

structure Registry where
  descriptors : List (NamedType × TypeDescriptor) := []
  /-- The types that take a name, builtin ones aside. -/
  names : Entries NamedType := []
  scalars : List (NamedType × ScalarDescriptor) := []
  scalarNames : Entries NamedType := []

/-- Computations on a registry that may fail and keep what they have done. -/
abbrev RegistryM := ExceptT RegistrationError (StateM Registry)

namespace Registry

/-- The cached descriptor of a type. -/
def find? (registry : Registry) (type : NamedType) : Option TypeDescriptor :=
  Entries.find? type registry.descriptors

/-- The cached descriptor of the type that takes a name. -/
def findName? (registry : Registry) (name : String) : Option TypeDescriptor :=
  (Entries.find? name registry.names).bind registry.find?

/-- The custom scalar registered for a type. -/
def scalar? (registry : Registry) (type : NamedType) : Option ScalarDescriptor :=
  Entries.find? type registry.scalars

end Registry

namespace Host

/-- Caches a descriptor, unless its name is taken by another type. -/
def insert (host : Host) (descriptor : TypeDescriptor) : RegistryM TypeDescriptor := do
  let registry ← get
  match registry.find? descriptor.type with
  | some existing => return existing
  | none =>
    match descriptor.type with
    | .builtin _ => pure ()
    | .host _ =>
      match Entries.find? descriptor.name registry.names with
      | some other =>
        if other ≠ descriptor.type then
          throw (.duplicateTypeName descriptor.name (host.typeName other) (host.typeName descriptor.type))
      | none => pure ()
      modify fun registry =>
        { registry with names := Entries.insert descriptor.name descriptor.type registry.names }
    modify fun registry =>
      { registry with descriptors := Entries.insert descriptor.type descriptor registry.descriptors }
    return descriptor

/-- Checks that names are valid and differ. -/
def checkNames (typeName kind : String) (seen : List String) : List String → Except RegistrationError Unit
  | [] => .ok ()
  | name :: rest =>
    if !isValidName name then .error (.invalidName name s!"{kind} of {typeName}")
    else if name ∈ seen then .error (.duplicateName typeName kind name)
    else checkNames typeName kind (name :: seen) rest

/-- The kinds that a description declares. -/
def declaredKinds (d : TypeDescription) : List String :=
  [("object", d.isUnion || !d.fields.isEmpty || !d.embeds.isEmpty), ("enum", !d.enumValues.isEmpty),
    ("input object", !d.inputFields.isEmpty), ("interface", !d.interfaceFields.isEmpty), ("scalar", d.scalar.isSome)]
    |>.filterMap fun (kind, declared) => if declared then some kind else none

/-- The embeddings as far as all embedded types are objects. -/
def objectEmbeddings (typeName : String) :
    List (EmbedStep × TypeDescriptor) → Except RegistrationError (List Embedding)
  | [] => .ok []
  | (step, descriptor) :: rest =>
    match descriptor.kind with
    | .object object => (objectEmbeddings typeName rest).map (⟨step, object⟩ :: ·)
    | _ => .error (.invalidEmbedding typeName descriptor.name)

/-- Checks that a type is an object with all fields of an interface. -/
def checkImplementor (interface : String) (fields : List TypedItem) (descriptor : TypeDescriptor) :
    Except RegistrationError Unit :=
  match descriptor.kind with
  | .object object =>
    match fields.find? fun field => (object.find? field.name).isNone with
    | some missing => .error (.missingInterfaceField interface descriptor.name missing.name)
    | none => .ok ()
  | _ => .error (.invalidImplementor interface descriptor.name)

/-- The fields that a type declares itself. -/
def ownFields (id : HostId) (hostName : String) (d : TypeDescription) : List FieldDescriptor :=
  d.fields.map fun field =>
    { name := field.name, source := field.source, type := field.type, shape := field.shape, info := field.info,
      owner := id, ownerName := hostName, path := [] }

section

/-! Building a descriptor only asks for the descriptors of other types, so it works wherever these can be had. -/

variable {m : Type → Type} [Monad m] [MonadExceptOf RegistrationError m] [MonadLiftT (Except RegistrationError) m]

/-- The embeddings of a type, every embedded type described in turn. -/
def embeddings (describe : HostId → m TypeDescriptor) (id : HostId) :
    Nat → List EmbedDeclaration → m (List (EmbedStep × TypeDescriptor))
  | _, [] => return []
  | index, embed :: rest => do
    let descriptor ← describe embed.target
    let step : EmbedStep := ⟨embed.kind, id, index, embed.target, descriptor.name⟩
    return (step, descriptor) :: (← embeddings describe id (index + 1) rest)

/-- The kind of a type that declares itself as an object or union. -/
def objectKind (describe : HostId → m TypeDescriptor) (id : HostId) (hostName name : String)
    (d : TypeDescription) : m TypeKind := do
  checkNames name "field" [] (d.fields.map (·.name))
  let embedded ← embeddings describe id 0 d.embeds
  let object ← promote name (ownFields id hostName d) (← objectEmbeddings name embedded)
  if d.isUnion then
    checkMembers name object.fields
    return .union object
  else return .object object

/-- The kind of a type that declares itself as an interface. -/
def interfaceKind (describe : HostId → m TypeDescriptor) (name : String) (d : TypeDescription) :
    m TypeKind := do
  checkNames name "field" [] (d.interfaceFields.map (·.name))
  d.implementors.forM fun implementor => do
    checkImplementor name d.interfaceFields (← describe implementor)
  return .interface ⟨d.interfaceFields, d.implementors⟩

/-- The descriptor that the description of a type makes, given how other types are described. -/
def build (describe : HostId → m TypeDescriptor) (id : HostId) (type : HostType) :
    m TypeDescriptor := do
  let d := type.description
  let name := d.name.getD (defaultTypeName type.hostName)
  if !isValidName name || isBuiltinName name then throw (.invalidName name s!"type {type.hostName}")
  let kind ← match declaredKinds d, d.scalar with
    | [], _ => throw (.unsupportedType name
        "it declares no fields, values or scalar behavior and no custom scalar is registered for it")
    | ["object"], _ => objectKind describe id type.hostName name d
    | ["enum"], _ => do
      checkNames name "enum value" [] (d.enumValues.map (·.name))
      pure (TypeKind.enum d.enumValues)
    | ["input object"], _ => do
      checkNames name "input field" [] (d.inputFields.map (·.name))
      pure (TypeKind.inputObject d.inputFields)
    | ["interface"], _ => interfaceKind describe name d
    | ["scalar"], some codec => pure (TypeKind.scalar (.host codec))
    | kinds, _ =>
      throw (.unsupportedType name ("it is declared as more than one kind: " ++ ", ".intercalate kinds))
  return { type := .host id, name, description := d.description, kind }

end

/-- The descriptor of a type while the types of a stack are being described. -/
def describeWithin (host : Host) (stack : List HostId) (type : NamedType) : RegistryM TypeDescriptor := do
  let registry ← get
  match registry.find? type with
  | some descriptor => return descriptor
  | none =>
    match registry.scalar? type with
    | some scalar =>
      host.insert ⟨type, scalar.name, scalar.description, .scalar (.custom scalar)⟩
    | none =>
      match type with
      | .builtin builtin => host.insert ⟨type, builtin.scalarName, none, .scalar (.builtin builtin)⟩
      | .host id =>
        if hs : id ∈ stack then throw (.recursiveEmbedding (host.typeName type))
        else if hid : id < host.types.length then
          let descriptor ← build (fun target => describeWithin host (id :: stack) (.host target)) id host.types[id]
          host.insert descriptor
        else throw (.unsupportedType "" "it is not a type of the application")
termination_by host.remaining stack
decreasing_by exact Host.remaining_cons_lt hid hs

/-- The descriptor of a type, built on first use. -/
def describe (host : Host) (type : NamedType) : RegistryM TypeDescriptor := host.describeWithin [] type

/-- Describes the types of a stack, top first, and all they refer to, except those seen before. -/
def describeAll (host : Host) (seen : List NamedType) (stack : List NamedType) : RegistryM Unit :=
  match stack with
  | [] => return ()
  | type :: rest =>
    if _ : type ∈ seen then host.describeAll seen rest
    else do
      let descriptor ← host.describe type
      if _ : type ∈ host.allTypes then
        host.describeAll (type :: seen) (descriptor.references.reverse ++ rest)
      -- a custom scalar for a type that the application does not have, which refers to nothing
      else host.describeAll seen rest
termination_by (host.remainingTypes seen, stack.length)
decreasing_by
  · exact Prod.Lex.right _ (by simp)
  · exact Prod.Lex.left _ _ (Host.remainingTypes_cons_lt ‹_› ‹_›)
  · exact Prod.Lex.right _ (by simp)

/-- Describes every type reachable from some references, the last of them first. -/
def ensureReachable (host : Host) (roots : List TypeRef) : RegistryM Unit :=
  host.describeAll [] (roots.map (·.namedType)).reverse

/-- Registers a custom scalar for its host type. A descriptor of the type gives way to it. -/
def registerScalar (host : Host) (scalar : ScalarDescriptor) : RegistryM Unit := do
  let hostName := host.typeName scalar.type
  if let .builtin _ := scalar.type then throw (.builtinScalarOverride hostName)
  if !isValidName scalar.name || isBuiltinName scalar.name then
    throw (.invalidName scalar.name s!"custom scalar for {hostName}")
  let registry ← get
  if Entries.contains scalar.name registry.scalarNames then throw (.duplicateScalarName scalar.name)
  if Entries.contains scalar.type registry.scalars then throw (.duplicateScalarType hostName)
  if let some other := Entries.find? scalar.name registry.names then
    if other ≠ scalar.type then throw (.duplicateTypeName scalar.name (host.typeName other) hostName)
  let registry :=
    if (registry.find? scalar.type).isSome then
      { registry with
        descriptors := Entries.erase scalar.type registry.descriptors
        names := registry.names.filter fun (_, other) => other ≠ scalar.type }
    else registry
  set { registry with
    scalars := Entries.insert scalar.type scalar registry.scalars
    scalarNames := Entries.insert scalar.name scalar.type registry.scalarNames }

end Host

end GraphQL
