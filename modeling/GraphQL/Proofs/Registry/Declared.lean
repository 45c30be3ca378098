import GraphQL.Proofs.Registry.Building

/-!
# What types are declared as

The kind of a descriptor is one that the type declares, unless it is a builtin or a custom scalar: a
union comes from a type that says it is one, and the codec of a scalar is the one declared. So which custom
scalar a type is read by, and whether it is read as an input object, can be told before it is described.
-/

namespace GraphQL

/-- A kind that a type of the application may be described as. -/
inductive HostType.Declares (type : HostType) : TypeKind → Prop
  | object (object : ObjectFields) : Declares type (.object object)
  | union (object : ObjectFields) (declared : type.description.isUnion = true) : Declares type (.union object)
  | enum (values : List EnumValue) : Declares type (.enum values)
  | inputObject (fields : List TypedItem) : Declares type (.inputObject fields)
  | interface (shape : InterfaceShape) : Declares type (.interface shape)
  | scalar {codec : ScalarCodec} (declared : type.description.scalar = some codec) : Declares type (.scalar (.host codec))

/-- A kind that a type may be described as. -/
inductive Host.Declares (host : Host) : TypeKind → Prop
  | builtin (type : BuiltinType) : Declares host (.scalar (.builtin type))
  | custom (scalar : ScalarDescriptor) : Declares host (.scalar (.custom scalar))
  | host {type : HostType} {kind : TypeKind} (known : type ∈ host.types) (declares : type.Declares kind) :
    Declares host kind

namespace Host

variable {host : Host} {r r' : Registry} {d : TypeDescriptor} {id : HostId}

theorem Builds.declares {type : HostType} {kind : TypeKind} (builds : Builds r id type kind) : type.Declares kind := by
  cases builds with
  | object _ _ _ => exact .object _
  | union _ union _ _ => exact .union _ union
  | enum _ => exact .enum _
  | inputObject _ => exact .inputObject _
  | interface _ _ => exact .interface _
  | scalar _ given => exact .scalar given

theorem Makes.declares (made : host.Makes r d) : host.Declares d.kind := by
  cases made with
  | scalar => exact .custom _
  | builtin => exact .builtin _
  | host _ known built _ => exact .host (List.getElem_mem known) (builds_of_build built).declares

/-- All types that are ever described are described as what they declare. -/
theorem Reachable.declares (reachable : host.Reachable r) : ∀ entry ∈ r.descriptors, host.Declares entry.2.kind :=
  reachable.all fun _ _ _ made => made.declares

/-- A type that declares input fields is described as an input object. -/
theorem Builds.inputObject_of_declared {type : HostType} {kind : TypeKind}
    (declared : type.description.inputFields ≠ []) (builds : Builds r id type kind) :
    kind = .inputObject type.description.inputFields := by
  have declares : "input object" ∈ declaredKinds type.description := by
    simp [declaredKinds, declared]
  cases builds with
  | object kinds _ _ => simp [kinds] at declares
  | union kinds _ _ _ => simp [kinds] at declares
  | enum kinds => simp [kinds] at declares
  | inputObject _ => rfl
  | interface kinds _ => simp [kinds] at declares
  | scalar kinds _ => simp [kinds] at declares

end Host

/-! ## Before a type is described -/

/-- The custom scalar that a type is described as, if it is one. -/
def TypeKind.custom? : TypeKind → Option ScalarDescriptor
  | scalar (.custom descriptor) => some descriptor
  | _ => none

/-- The custom scalar that a type is read by, once it is described. -/
def Registry.custom? (r : Registry) (id : HostId) : Option ScalarDescriptor :=
  match r.find? (.host id) with
  | some d => d.kind.custom?
  | none => r.scalar? (.host id)

theorem HostType.Declares.custom? {type : HostType} {kind : TypeKind} (declares : type.Declares kind) :
    kind.custom? = none := by
  cases declares <;> rfl

/-- The type is read as an input object, once it is described. -/
def Host.TakesFields (host : Host) (r : Registry) (id : HostId) : Prop :=
  match r.find? (.host id) with
  | some d => ∃ fields, d.kind = .inputObject fields
  | none => r.scalar? (.host id) = none ∧ ∃ type, host.types[id]? = some type ∧ type.description.inputFields ≠ []

namespace Host

variable {host : Host} {r r' : Registry} {d : TypeDescriptor} {id : HostId}

/-- Describing a type does not change which custom scalars types are read by. -/
theorem Extends.custom? (step : host.Extends r r' d) (id : HostId) : r'.custom? id = r.custom? id := by
  obtain ⟨made, fresh, -, rfl⟩ := step
  by_cases same : NamedType.host id = d.type
  · rw [Registry.custom?, Registry.custom?, same, Registry.find?_put_self, fresh]
    cases made with
    | scalar registered => exact registered.symm
    | builtin => cases same
    | host plain known built of =>
      rw [of, plain]
      exact (builds_of_build built).declares.custom?
  · rw [Registry.custom?, Registry.custom?, Registry.find?_put_of_ne _ same, Registry.scalar?_put]

theorem Later.custom? (later : host.Later r r') (id : HostId) : r'.custom? id = r.custom? id := by
  induction later with
  | refl => rfl
  | tail _ step ih =>
    obtain ⟨d, step⟩ := step
    exact (step.custom? id).trans ih

theorem Extends.takesFields (step : host.Extends r r' d) (takes : host.TakesFields r id) : host.TakesFields r' id := by
  obtain ⟨made, fresh, -, rfl⟩ := step
  unfold TakesFields at takes ⊢
  by_cases same : NamedType.host id = d.type
  · rw [same, fresh] at takes
    rw [same, Registry.find?_put_self]
    obtain ⟨plain, type, found, declared⟩ := takes
    cases made with
    | scalar registered => cases plain.symm.trans registered
    | builtin => cases same
    | host _ known built of =>
      cases same.trans of
      cases (List.getElem?_eq_getElem known).symm.trans found
      exact ⟨_, (builds_of_build built).inputObject_of_declared declared⟩
  · rwa [Registry.find?_put_of_ne _ same, Registry.scalar?_put]

theorem TakesFields.kind (takes : host.TakesFields r id) (cached : r.find? (.host id) = some d) :
    ∃ fields, d.kind = .inputObject fields := by
  rwa [TakesFields, cached] at takes

theorem Later.takesFields (later : host.Later r r') (takes : host.TakesFields r id) : host.TakesFields r' id := by
  induction later with
  | refl => exact takes
  | tail _ step ih =>
    obtain ⟨d, step⟩ := step
    exact step.takesFields ih

end Host

end GraphQL
