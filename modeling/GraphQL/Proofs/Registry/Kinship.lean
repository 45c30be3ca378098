import GraphQL.Proofs.Registry.Building
import GraphQL.Proofs.Registry.Tables

/-!
# Types that build on each other

A type may build on others: an object or union on the objects it embeds, an interface on the objects that
implement it. That they are such objects is checked once, when the type is described. It goes on to hold while
types are described, because descriptors stay, and when a custom scalar takes over a type, except for the type
that is taken over: `Registry.Upheld`.
-/

namespace GraphQL

namespace Registry

/-- A type on which another builds is an object with given fields, unless a custom scalar is registered for it. -/
def Supports (r : Registry) (fields : List TypedItem) (id : HostId) : Prop :=
  r.Implements fields id ∨ ∃ scalar, r.scalar? (.host id) = some scalar

/-- The types on which a described type builds are what they were when it was described, except for those that
custom scalars have taken over. -/
structure Upholds (host : Host) (r : Registry) (d : TypeDescriptor) : Prop where
  /-- The implementors of an interface are objects with all of its fields. -/
  implementors {shape : InterfaceShape} (interface : d.kind = .interface shape) :
    ∀ implementor ∈ shape.implementors, r.Supports shape.fields implementor
  /-- The types that an object or union embeds, at any depth, are objects. -/
  embedded {object : ObjectFields} (fields : d.objectFields? = some object) :
    ∀ step ∈ object.steps, r.Supports [] step.target
  /-- So are those that its declaration names. -/
  declared {object : ObjectFields} (fields : d.objectFields? = some object) {id : HostId} (of : d.type = .host id)
    {type : HostType} (known : host.types[id]? = some type) :
    ∀ embed ∈ type.description.embeds, r.Supports [] embed.target

/-- Every described type has what it builds on. -/
def Upheld (host : Host) (r : Registry) : Prop := ∀ type d, r.find? type = some d → r.Upholds host d

variable {host : Host} {r r' : Registry} {fields : List TypedItem} {id : HostId} {d : TypeDescriptor}

/-- What supports a type in one registry supports it in another if it stays an object or becomes a custom scalar. -/
theorem Upholds.mono (upholds : r.Upholds host d)
    (supports : ∀ fields id, r.Supports fields id → r'.Supports fields id) : r'.Upholds host d where
  implementors interface implementor mem := supports _ _ (upholds.implementors interface implementor mem)
  embedded fields step mem := supports _ _ (upholds.embedded fields step mem)
  declared fields _ of _ known embed mem := supports _ _ (upholds.declared fields of known embed mem)

theorem Supports.later (supports : r.Supports fields id) (later : host.Later r r') : r'.Supports fields id := by
  rcases supports with ⟨d, object, cached, kind, has⟩ | ⟨scalar, registered⟩
  · exact Or.inl ⟨d, object, later.find? cached, kind, has⟩
  · exact Or.inr ⟨scalar, by rw [later.scalar?, registered]⟩

/-- A custom scalar that takes over its type leaves all other types as they are. -/
theorem Supports.takeOver (supports : r.Supports fields id) (distinct : r.Distinct) (scalar : ScalarDescriptor) :
    (r.takeOver scalar).Supports fields id := by
  by_cases taken : NamedType.host id = scalar.type
  · exact Or.inr ⟨scalar, by rw [scalar?_takeOver, if_pos taken]⟩
  · rcases supports with ⟨d, object, cached, kind, has⟩ | ⟨other, registered⟩
    · refine Or.inl ⟨d, object, ?_, kind, has⟩
      rw [find?_takeOver distinct.descriptors, if_neg taken, cached]
    · refine Or.inr ⟨other, ?_⟩
      rw [scalar?_takeOver, if_neg taken, registered]

end Registry

namespace Host

variable {host : Host} {r r' : Registry} {d : TypeDescriptor}

/-- The steps of embeddings lead to objects, those inside the embedded objects included. -/
theorem Embeds.supported (upheld : r.Upheld host) {owner : HostId} {index : Nat} {embeds : List EmbedDeclaration}
    {embeddings : List Embedding} (embedded : Embeds r owner index embeds embeddings) (start : Nat) :
    (∀ step ∈ (layOut start embeddings).1, r.Supports [] step.target) ∧
      ∀ embed ∈ embeds, r.Supports [] embed.target := by
  induction embedded generalizing start with
  | nil => exact ⟨List.forall_mem_nil _, List.forall_mem_nil _⟩
  | @cons index embed rest d object embeddings cached kind _ ih =>
    have here : r.Supports [] embed.target := Or.inl ⟨d, object, cached, kind, List.forall_mem_nil _⟩
    have inside : ∀ step ∈ object.steps, r.Supports [] step.target :=
      (upheld _ _ cached).embedded (by rw [TypeDescriptor.objectFields?, kind])
    have next := ih (start + (object.steps.length + 1))
    constructor
    · intro step mem
      rw [layOut] at mem
      rcases List.mem_append.1 mem with mem | mem
      · rcases List.mem_cons.1 mem with rfl | mem
        · exact here
        · exact inside step mem
      · exact next.1 step mem
    · exact List.forall_mem_cons.2 ⟨here, next.2⟩

theorem steps_of_promote {typeName : String} {direct : List FieldDescriptor} {embeddings : List Embedding}
    {object : ObjectFields} (promoted : promote typeName direct embeddings = .ok object) :
    object.steps = (layOut 0 embeddings).1 := by
  unfold promote at promoted
  obtain ⟨all, kept, made⟩ := except_bind_eq_ok.1 promoted
  cases made
  rfl

theorem Builds.objects (upheld : r.Upheld host) {id : HostId} {type : HostType} {object : ObjectFields}
    (builds : Builds r id type d.kind) (fields : d.objectFields? = some object) :
    (∀ step ∈ object.steps, r.Supports [] step.target) ∧
      ∀ embed ∈ type.description.embeds, r.Supports [] embed.target := by
  unfold TypeDescriptor.objectFields? at fields
  generalize d.kind = kind at builds fields
  cases builds with
  | object _ embeds promoted =>
    cases fields
    rw [steps_of_promote promoted]
    exact embeds.supported upheld 0
  | union _ _ embeds promoted =>
    cases fields
    rw [steps_of_promote promoted]
    exact embeds.supported upheld 0
  | enum _ => cases fields
  | inputObject _ => cases fields
  | interface _ _ => cases fields
  | scalar _ _ => cases fields

/-- What is made builds on types as they are described. -/
theorem Makes.upholds (upheld : r.Upheld host) (made : host.Makes r d) : r.Upholds host d := by
  cases made with
  | scalar _ =>
    constructor
    · intro shape interface
      cases interface
    · intro object fields
      cases fields
    · intro object fields
      cases fields
  | builtin _ =>
    constructor
    · intro shape interface
      cases interface
    · intro object fields
      cases fields
    · intro object fields
      cases fields
  | host _ known built of =>
    have builds := builds_of_build built
    constructor
    · intro shape interface
      rw [interface] at builds
      cases builds with
      | interface _ implemented => exact fun implementor mem => Or.inl (implemented implementor mem)
    · intro object fields
      exact (builds.objects upheld fields).1
    · intro object fields id' of' type known'
      cases of.symm.trans of'
      cases (List.getElem?_eq_getElem known).symm.trans known'
      exact (builds.objects upheld fields).2

theorem Extends.upheld (step : host.Extends r r' d) (upheld : r.Upheld host) : r'.Upheld host := by
  have supports : ∀ fields id, r.Supports fields id → r'.Supports fields id :=
    fun _ _ supports => supports.later step.later
  intro type d' cached
  rw [step.put, Registry.find?_put] at cached
  split at cached
  · cases cached
    exact (step.made.upholds upheld).mono supports
  · exact (upheld type d' cached).mono supports

theorem Later.upheld (later : host.Later r r') (upheld : r.Upheld host) : r'.Upheld host := by
  induction later with
  | refl => exact upheld
  | tail _ step ih =>
    obtain ⟨d, step⟩ := step
    exact step.upheld ih

/-- In every registry that registering scalars and describing types lead to, what types build on stays with them. -/
theorem Reachable.upheld (reachable : host.Reachable r) : r.Upheld host := by
  induction reachable with
  | empty =>
    intro type d cached
    cases cached
  | @registered r reachable scalar ih =>
    obtain ⟨e, refused⟩ | ⟨-, registered⟩ := host.registerScalar_cases scalar r
    · rw [refused]
      exact ih
    · rw [registered]
      intro type d cached
      rw [Registry.find?_takeOver reachable.distinct.descriptors] at cached
      split at cached
      · cases cached
      · exact (ih type d cached).mono fun _ _ supports => supports.takeOver reachable.distinct scalar
  | described _ later ih => exact later.upheld ih

end Host

end GraphQL
