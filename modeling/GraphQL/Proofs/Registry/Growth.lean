import GraphQL.Proofs.Registry.Takeover
import Mathlib.Logic.Relation

/-!
# How the registry grows

Describing types only ever adds descriptors to the registry, one at a time: `Host.Extends` is one such
addition, of a descriptor that the host makes for a type without one and whose name is free.
`Host.Later` is any number of them. What is looked up in a registry is found in every later one, and in
every one that `Host.Covers` it, which may have come by the same descriptors in another order.
-/

namespace GraphQL

namespace Registry

/-- The registry with one more descriptor. Only types of the application take a name. -/
def put (registry : Registry) (d : TypeDescriptor) : Registry :=
  match d.type with
  | .builtin _ => { registry with descriptors := Entries.insert d.type d registry.descriptors }
  | .host _ =>
    { registry with
      names := Entries.insert d.name d.type registry.names
      descriptors := Entries.insert d.type d registry.descriptors }

/-- The other type that takes the name of a descriptor, if one does. -/
def rival? (registry : Registry) (d : TypeDescriptor) : Option NamedType :=
  match d.type with
  | .builtin _ => none
  | .host _ => (Entries.find? d.name registry.names).filter (· ≠ d.type)

/-- In both registries all is found alike, though it may have come there in another order. -/
structure Alike (r r' : Registry) : Prop where
  find? (type : NamedType) : r'.find? type = r.find? type
  findName (name : String) : Entries.find? name r'.names = Entries.find? name r.names
  scalars : r'.scalars = r.scalars

theorem Alike.refl (registry : Registry) : registry.Alike registry := ⟨fun _ => rfl, fun _ => rfl, rfl⟩

theorem Alike.scalar? {r r' : Registry} (alike : r.Alike r') (type : NamedType) : r'.scalar? type = r.scalar? type := by
  rw [Registry.scalar?, Registry.scalar?, alike.scalars]

theorem Alike.rival? {r r' : Registry} (alike : r.Alike r') (d : TypeDescriptor) : r'.rival? d = r.rival? d := by
  unfold Registry.rival?
  rw [alike.findName]

/-- Every descriptor is kept under the type that it describes. -/
def Consistent (registry : Registry) : Prop := ∀ entry ∈ registry.descriptors, entry.2.type = entry.1

theorem Consistent.find? {registry : Registry} (consistent : registry.Consistent) {type : NamedType}
    {d : TypeDescriptor} (found : registry.find? type = some d) : d.type = type :=
  consistent _ (Entries.mem_of_find? found)

theorem find?_put_self (registry : Registry) (d : TypeDescriptor) : (registry.put d).find? d.type = some d := by
  unfold put find?
  cases d.type <;> exact Entries.find?_insert_self _ _ _

theorem find?_put_of_ne (registry : Registry) {d : TypeDescriptor} {type : NamedType} (ne : type ≠ d.type) :
    (registry.put d).find? type = registry.find? type := by
  unfold put find?
  cases h : d.type <;> exact Entries.find?_insert_of_ne (h ▸ ne) _ _

theorem descriptors_put (registry : Registry) (d : TypeDescriptor) :
    (registry.put d).descriptors = Entries.insert d.type d registry.descriptors := by
  unfold put
  split <;> rfl

@[simp] theorem scalars_put (registry : Registry) (d : TypeDescriptor) :
    (registry.put d).scalars = registry.scalars := by
  unfold put
  cases d.type <;> rfl

@[simp] theorem scalarNames_put (registry : Registry) (d : TypeDescriptor) :
    (registry.put d).scalarNames = registry.scalarNames := by
  unfold put
  cases d.type <;> rfl

theorem scalar?_put (registry : Registry) (d : TypeDescriptor) (type : NamedType) :
    (registry.put d).scalar? type = registry.scalar? type := by
  rw [scalar?, scalar?, scalars_put]

/-- A name that is taken stays taken by the same type. -/
theorem findName_put {registry : Registry} {d : TypeDescriptor} (free : registry.rival? d = none) {name : String}
    {type : NamedType} (taken : Entries.find? name registry.names = some type) :
    Entries.find? name (registry.put d).names = some type := by
  unfold put
  unfold rival? at free
  cases kind : d.type with
  | builtin b => exact taken
  | host id =>
    rw [kind] at free
    by_cases same : name = d.name
    · subst same
      rw [taken] at free
      have eq : type = .host id := by simpa using free
      rw [eq]
      exact Entries.find?_insert_self _ _ _
    · rw [← taken]
      exact Entries.find?_insert_of_ne same _ _

end Registry

namespace Host

variable {host : Host}

/-- What caching a descriptor comes to: the one that is there already, a clash of names, or one more. -/
theorem outcome_insert (d : TypeDescriptor) (r : Registry) :
    outcome (host.insert d) r =
      match r.find? d.type with
      | some existing => (.ok existing, r)
      | none =>
        match r.rival? d with
        | some other => (.error (.duplicateTypeName d.name (host.typeName other) (host.typeName d.type)), r)
        | none => (.ok d, r.put d) := by
  unfold insert
  rw [outcome_bind, outcome_get]
  simp only
  cases cached : r.find? d.type with
  | some existing => rfl
  | none =>
    simp only
    cases kind : d.type with
    | builtin b =>
      simp only [Registry.rival?, Registry.put, kind]
      rfl
    | host id =>
      simp only [Registry.rival?, Registry.put, kind]
      cases taken : Entries.find? d.name r.names with
      | none => rfl
      | some other =>
        by_cases same : other = .host id
        · have free : (some other).filter (· ≠ .host id) = none := by simp [same]
          simp only [free, if_neg (not_not_intro same)]
          rfl
        · have rival : (some other).filter (· ≠ .host id) = some other := by simp [same]
          simp only [rival, if_pos same]
          rfl

/-- The cached descriptor of a type of the application, which is not described if there is none. -/
def lookUp (id : HostId) : RegistryM TypeDescriptor := do
  match (← get).find? (.host id) with
  | some d => return d
  | none => throw (.unsupportedType "" "it is not described yet")

/-- The descriptor that a type without one gets in a registry that has all types it builds on. -/
inductive Makes (host : Host) (r : Registry) : TypeDescriptor → Prop
  | scalar {type : NamedType} {scalar : ScalarDescriptor} (registered : r.scalar? type = some scalar) :
    Makes host r ⟨type, scalar.name, scalar.description, .scalar (.custom scalar)⟩
  | builtin {b : BuiltinType} (plain : r.scalar? (.builtin b) = none) :
    Makes host r ⟨.builtin b, b.scalarName, none, .scalar (.builtin b)⟩
  | host {id : HostId} {d : TypeDescriptor} (plain : r.scalar? (.host id) = none) (known : id < host.types.length)
    (built : outcome (build lookUp id host.types[id]) r = (.ok d, r)) (of : d.type = .host id) : Makes host r d

/-- One more descriptor, for a type that has none and under a name that is free. -/
structure Extends (host : Host) (r r' : Registry) (d : TypeDescriptor) : Prop where
  made : host.Makes r d
  fresh : r.find? d.type = none
  free : r.rival? d = none
  put : r' = r.put d

/-- A registry to which describing types has led. -/
def Later (host : Host) : Registry → Registry → Prop := Relation.ReflTransGen fun r r' => ∃ d, host.Extends r r' d

namespace Later

variable {r r' r'' : Registry}

theorem refl (host : Host) (r : Registry) : host.Later r r := Relation.ReflTransGen.refl

theorem trans (first : host.Later r r') (then' : host.Later r' r'') : host.Later r r'' :=
  Relation.ReflTransGen.trans first then'

theorem find? (later : host.Later r r') {type : NamedType} {d : TypeDescriptor} (cached : r.find? type = some d) :
    r'.find? type = some d := by
  induction later with
  | refl => exact cached
  | tail _ step ih =>
    obtain ⟨added, step⟩ := step
    rw [step.put, Registry.find?_put_of_ne]
    · exact ih
    · rintro rfl
      rw [step.fresh] at ih
      cases ih

/-- A type without a descriptor had none before. -/
theorem find?_eq_none (later : host.Later r r') {type : NamedType} (fresh : r'.find? type = none) :
    r.find? type = none := by
  cases cached : r.find? type with
  | none => rfl
  | some d =>
    rw [later.find? cached] at fresh
    cases fresh

theorem scalars (later : host.Later r r') : r'.scalars = r.scalars := by
  induction later with
  | refl => rfl
  | tail _ step ih =>
    obtain ⟨added, step⟩ := step
    rw [step.put, Registry.scalars_put, ih]

theorem scalar? (later : host.Later r r') (type : NamedType) : r'.scalar? type = r.scalar? type := by
  rw [Registry.scalar?, Registry.scalar?, later.scalars]

theorem findName (later : host.Later r r') {name : String} {type : NamedType}
    (taken : Entries.find? name r.names = some type) : Entries.find? name r'.names = some type := by
  induction later with
  | refl => exact taken
  | tail _ step ih =>
    obtain ⟨added, step⟩ := step
    rw [step.put]
    exact Registry.findName_put step.free ih

/-- Who takes the name of a descriptor goes on to do so. -/
theorem rival? (later : host.Later r r') {d : TypeDescriptor} {other : NamedType} (taken : r.rival? d = some other) :
    r'.rival? d = some other := by
  unfold Registry.rival? at taken ⊢
  cases kind : d.type with
  | builtin b => simp [kind] at taken
  | host id =>
    simp only [kind] at taken ⊢
    obtain ⟨named, ne⟩ := Option.filter_eq_some_iff.1 taken
    rw [later.findName named]
    exact Option.filter_eq_some_iff.2 ⟨rfl, ne⟩

/-- What each new descriptor satisfies if those before it do, all descriptors satisfy. -/
theorem all {holds : NamedType × TypeDescriptor → Prop} (later : host.Later r r')
    (each : ∀ r d, (∀ entry ∈ r.descriptors, holds entry) → host.Makes r d → holds (d.type, d))
    (before : ∀ entry ∈ r.descriptors, holds entry) : ∀ entry ∈ r'.descriptors, holds entry := by
  induction later with
  | refl => exact before
  | tail _ step ih =>
    obtain ⟨d, step⟩ := step
    intro entry mem
    rw [step.put, Registry.descriptors_put] at mem
    rcases Entries.mem_insert mem with rfl | mem
    · exact each _ d ih step.made
    · exact ih entry mem

theorem consistent (later : host.Later r r') (consistent : r.Consistent) : r'.Consistent :=
  later.all (fun _ _ _ _ => rfl) consistent

end Later

/-- The second registry says all that the first one says: describing more types leads from the first to
one in which all is as in the second, but for the order in which it came. -/
def Covers (host : Host) (r R : Registry) : Prop := ∃ r', host.Later r r' ∧ r'.Alike R

theorem Later.covers {r R : Registry} (later : host.Later r R) : host.Covers r R := ⟨R, later, .refl R⟩

namespace Covers

variable {r r' R : Registry}

theorem refl (host : Host) (r : Registry) : host.Covers r r := (Later.refl host r).covers

theorem after (covers : host.Covers r' R) (later : host.Later r r') : host.Covers r R := by
  obtain ⟨r'', then', alike⟩ := covers
  exact ⟨r'', later.trans then', alike⟩

theorem find? (covers : host.Covers r R) {type : NamedType} {d : TypeDescriptor} (cached : r.find? type = some d) :
    R.find? type = some d := by
  obtain ⟨r', later, alike⟩ := covers
  rw [alike.find?]
  exact later.find? cached

theorem find?_eq_none (covers : host.Covers r R) {type : NamedType} (fresh : R.find? type = none) :
    r.find? type = none := by
  obtain ⟨r', later, alike⟩ := covers
  rw [alike.find?] at fresh
  exact later.find?_eq_none fresh

theorem scalar? (covers : host.Covers r R) (type : NamedType) : R.scalar? type = r.scalar? type := by
  obtain ⟨r', later, alike⟩ := covers
  rw [alike.scalar?, later.scalar?]

theorem rival? (covers : host.Covers r R) {d : TypeDescriptor} {other : NamedType} (taken : r.rival? d = some other) :
    R.rival? d = some other := by
  obtain ⟨r', later, alike⟩ := covers
  rw [alike.rival?]
  exact later.rival? taken

end Covers

/-- A custom scalar takes the place of the descriptor of its type, if there is one. -/
theorem mem_of_registerScalar {r : Registry} {scalar : ScalarDescriptor} {entry : NamedType × TypeDescriptor}
    (mem : entry ∈ (outcome (host.registerScalar scalar) r).2.descriptors) : entry ∈ r.descriptors := by
  obtain ⟨e, refused⟩ | ⟨-, registered⟩ := host.registerScalar_cases scalar r
  · rwa [refused] at mem
  · rw [registered] at mem
    exact Registry.mem_of_takeOver mem

/-- The registries that registering scalars and describing types lead to. -/
inductive Reachable (host : Host) : Registry → Prop
  | empty : Reachable host {}
  | registered {r : Registry} (reachable : Reachable host r) (scalar : ScalarDescriptor) :
    Reachable host (outcome (host.registerScalar scalar) r).2
  | described {r r' : Registry} (reachable : Reachable host r) (later : host.Later r r') : Reachable host r'

theorem Reachable.all {holds : NamedType × TypeDescriptor → Prop} {r : Registry} (reachable : host.Reachable r)
    (each : ∀ r d, (∀ entry ∈ r.descriptors, holds entry) → host.Makes r d → holds (d.type, d)) :
    ∀ entry ∈ r.descriptors, holds entry := by
  induction reachable with
  | empty => exact fun entry mem => absurd mem List.not_mem_nil
  | registered _ scalar ih => exact fun entry mem => ih entry (mem_of_registerScalar mem)
  | described _ later ih => exact later.all each ih

theorem Reachable.consistent {r : Registry} (reachable : host.Reachable r) : r.Consistent :=
  reachable.all fun _ _ _ _ => rfl

end Host

end GraphQL
