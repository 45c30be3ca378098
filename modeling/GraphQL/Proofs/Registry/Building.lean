import GraphQL.Proofs.Registry.Settled

/-!
# What descriptors are built from

A type of the application is described from its own declaration and from the descriptors of the types that it
embeds or that implement it. `Host.Builds` names what it may come to, with what was checked on the way, so
that a fact about all descriptors is proved by its cases and without opening `build` again.
-/

namespace GraphQL

/-- A type is described as an object that has given fields, as the implementors of an interface are. -/
def Registry.Implements (r : Registry) (fields : List TypedItem) (id : HostId) : Prop :=
  ∃ d object, r.find? (.host id) = some d ∧ d.kind = .object object ∧ ∀ field ∈ fields, (object.find? field.name).isSome

namespace Host

/-- The embeddings that a type declares, of types that are described as objects. -/
inductive Embeds (r : Registry) (owner : HostId) : Nat → List EmbedDeclaration → List Embedding → Prop
  | nil (index : Nat) : Embeds r owner index [] []
  | cons {index : Nat} {embed : EmbedDeclaration} {rest : List EmbedDeclaration} {d : TypeDescriptor}
    {object : ObjectFields} {embeddings : List Embedding} (cached : r.find? (.host embed.target) = some d)
    (kind : d.kind = .object object) (others : Embeds r owner (index + 1) rest embeddings) :
    Embeds r owner index (embed :: rest) (⟨⟨embed.kind, owner, index, embed.target, d.name⟩, object⟩ :: embeddings)

/-- The kinds that a type of the application may be described as, in a registry with all that it builds on. -/
inductive Builds (r : Registry) (id : HostId) (type : HostType) : TypeKind → Prop
  | object {name : String} {embeddings : List Embedding} {object : ObjectFields}
    (declared : declaredKinds type.description = ["object"]) (embeds : Embeds r id 0 type.description.embeds embeddings)
    (promoted : promote name (ownFields id type.hostName type.description) embeddings = .ok object) :
    Builds r id type (.object object)
  | union {name : String} {embeddings : List Embedding} {object : ObjectFields}
    (declared : declaredKinds type.description = ["object"]) (union : type.description.isUnion = true)
    (embeds : Embeds r id 0 type.description.embeds embeddings)
    (promoted : promote name (ownFields id type.hostName type.description) embeddings = .ok object)
    (members : checkMembers name object.fields = .ok ()) : Builds r id type (.union object)
  | enum (declared : declaredKinds type.description = ["enum"]) : Builds r id type (.enum type.description.enumValues)
  | inputObject (declared : declaredKinds type.description = ["input object"]) :
    Builds r id type (.inputObject type.description.inputFields)
  | interface (declared : declaredKinds type.description = ["interface"])
    (implemented : ∀ implementor ∈ type.description.implementors,
      r.Implements type.description.interfaceFields implementor) :
    Builds r id type (.interface ⟨type.description.interfaceFields, type.description.implementors⟩)
  | scalar {codec : ScalarCodec} (declared : declaredKinds type.description = ["scalar"])
    (given : type.description.scalar = some codec) : Builds r id type (.scalar (.host codec))

variable {host : Host} {r r' : Registry} {id : HostId} {type : HostType}

theorem embeds_of_embeddings {typeName : String} {index : Nat} {embeds : List EmbedDeclaration}
    {embedded : List (EmbedStep × TypeDescriptor)} {all : List Embedding}
    (ran : outcome (embeddings lookUp id index embeds) r = (.ok embedded, r'))
    (asObjects : objectEmbeddings typeName embedded = .ok all) : Embeds r id index embeds all ∧ r' = r := by
  induction embeds generalizing index embedded all with
  | nil =>
    cases ran
    cases asObjects
    exact ⟨.nil index, rfl⟩
  | cons embed rest ih =>
    rw [embeddings] at ran
    obtain ⟨d, _, found, next⟩ := outcome_bind_eq_ok.1 ran
    obtain ⟨cached, rfl⟩ := lookUp_eq_ok.1 found
    obtain ⟨others, _, more, made⟩ := outcome_bind_eq_ok.1 next
    cases made
    rw [objectEmbeddings] at asObjects
    split at asObjects
    · next object kind =>
      cases rest' : objectEmbeddings typeName others with
      | error e =>
        rw [rest'] at asObjects
        cases asObjects
      | ok all =>
        rw [rest'] at asObjects
        cases asObjects
        obtain ⟨others, rfl⟩ := ih more rest'
        exact ⟨.cons cached kind others, rfl⟩
    · cases asObjects

theorem fields_of_checkImplementor {interface : String} {fields : List TypedItem} {d : TypeDescriptor}
    (checked : checkImplementor interface fields d = .ok ()) :
    ∃ object, d.kind = .object object ∧ ∀ field ∈ fields, (object.find? field.name).isSome := by
  unfold checkImplementor at checked
  split at checked
  · next object kind =>
    split at checked
    · cases checked
    · next complete =>
      refine ⟨object, kind, fun field mem => ?_⟩
      have there := List.find?_eq_none.1 complete field mem
      simpa [Option.isSome_iff_ne_none] using there
  · cases checked

theorem implements_of_forM {interface : String} {fields : List TypedItem} {implementors : List HostId}
    (ran : outcome (implementors.forM fun implementor => do
      checkImplementor interface fields (← lookUp implementor)) r = (.ok (), r')) :
    (∀ implementor ∈ implementors, r.Implements fields implementor) ∧ r' = r := by
  induction implementors with
  | nil =>
    cases ran
    exact ⟨List.forall_mem_nil _, rfl⟩
  | cons implementor rest ih =>
    obtain ⟨_, _, first, others⟩ := outcome_bind_eq_ok.1 ran
    obtain ⟨d, _, found, checked⟩ := outcome_bind_eq_ok.1 first
    obtain ⟨cached, rfl⟩ := lookUp_eq_ok.1 found
    obtain ⟨checked', rfl⟩ := outcome_lift_eq_ok.1 checked
    obtain ⟨object, kind, has⟩ := fields_of_checkImplementor checked'
    obtain ⟨each, same⟩ := ih others
    exact ⟨List.forall_mem_cons.2 ⟨⟨d, object, cached, kind, has⟩, each⟩, same⟩

theorem objectKind_builds {name : String} {kind : TypeKind} (declared : declaredKinds type.description = ["object"])
    (ran : outcome (objectKind lookUp id type.hostName name type.description) r = (.ok kind, r')) :
    Builds r id type kind := by
  unfold objectKind at ran
  obtain ⟨_, _, checked, ran⟩ := outcome_bind_eq_ok.1 ran
  obtain ⟨-, rfl⟩ := outcome_lift_eq_ok.1 checked
  obtain ⟨embedded, _, described, ran⟩ := outcome_bind_eq_ok.1 ran
  obtain ⟨embeddings, _, asObjects, ran⟩ := outcome_bind_eq_ok.1 ran
  obtain ⟨asObjects', rfl⟩ := outcome_lift_eq_ok.1 asObjects
  obtain ⟨object, _, promoted, ran⟩ := outcome_bind_eq_ok.1 ran
  obtain ⟨promoted', rfl⟩ := outcome_lift_eq_ok.1 promoted
  obtain ⟨embeds, -⟩ := embeds_of_embeddings described asObjects'
  split at ran
  · next union =>
    obtain ⟨_, _, members, made⟩ := outcome_bind_eq_ok.1 ran
    obtain ⟨members', rfl⟩ := outcome_lift_eq_ok.1 members
    cases made
    exact .union declared union embeds promoted' members'
  · cases ran
    exact .object declared embeds promoted'

theorem interfaceKind_builds {name : String} {kind : TypeKind} (declared : declaredKinds type.description = ["interface"])
    (ran : outcome (interfaceKind lookUp name type.description) r = (.ok kind, r')) : Builds r id type kind := by
  unfold interfaceKind at ran
  obtain ⟨_, _, checked, ran⟩ := outcome_bind_eq_ok.1 ran
  obtain ⟨-, rfl⟩ := outcome_lift_eq_ok.1 checked
  obtain ⟨_, _, implemented, ran⟩ := outcome_bind_eq_ok.1 ran
  obtain ⟨each, -⟩ := implements_of_forM implemented
  cases ran
  exact .interface declared each

theorem builds_of_build {d : TypeDescriptor} (built : outcome (build lookUp id type) r = (.ok d, r')) :
    Builds r id type d.kind := by
  unfold build at built
  simp only at built
  split at built
  · cases built
  · split at built
    · cases built
    · next _ declared =>
      obtain ⟨kind, _, ran, made⟩ := outcome_bind_eq_ok.1 built
      cases made
      exact objectKind_builds declared ran
    · next _ declared =>
      obtain ⟨_, _, _, made⟩ := outcome_bind_eq_ok.1 built
      cases made
      exact .enum declared
    · next _ declared =>
      obtain ⟨_, _, _, made⟩ := outcome_bind_eq_ok.1 built
      cases made
      exact .inputObject declared
    · next _ declared =>
      obtain ⟨kind, _, ran, made⟩ := outcome_bind_eq_ok.1 built
      cases made
      exact interfaceKind_builds declared ran
    · next declared given =>
      cases built
      exact .scalar declared given
    · cases built

/-- A descriptor that is made is a scalar, custom or builtin, or built from the declaration of its type. -/
theorem Makes.builds {d : TypeDescriptor} (made : host.Makes r d) {id : HostId} (of : d.type = .host id) :
    (∃ scalar, r.scalar? d.type = some scalar ∧ d.kind = .scalar (.custom scalar)) ∨
      r.scalar? d.type = none ∧ ∃ type, host.types[id]? = some type ∧ Builds r id type d.kind := by
  cases made with
  | scalar registered => exact Or.inl ⟨_, registered, rfl⟩
  | builtin plain => cases of
  | host plain known built of' =>
    cases of.symm.trans of'
    right
    refine ⟨?_, _, List.getElem?_eq_getElem known, builds_of_build built⟩
    rw [of, plain]

end Host

end GraphQL
