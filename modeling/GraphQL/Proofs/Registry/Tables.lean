import GraphQL.Proofs.Registry.Joining

/-!
# The tables of the registry

Descriptors, names, scalars and scalar names are four tables that several operations change. What they say of
each other is `Registry.Coherent`: it holds of the empty registry, describing a type keeps it because a name is
given only if no other type takes it, and a custom scalar that takes over its type keeps it because the
descriptor goes together with its name.
-/

namespace GraphQL

/-- The descriptor of a type that a custom scalar is registered for. -/
def ScalarDescriptor.descriptor (scalar : ScalarDescriptor) (type : NamedType) : TypeDescriptor :=
  ⟨type, scalar.name, scalar.description, .scalar (.custom scalar)⟩

/-- What is made for a type that has a custom scalar is that scalar. -/
theorem Host.Makes.custom {host : Host} {r : Registry} {d : TypeDescriptor} {scalar : ScalarDescriptor}
    (made : host.Makes r d) (registered : r.scalar? d.type = some scalar) : d = scalar.descriptor d.type := by
  cases made with
  | scalar registered' =>
    rw [registered] at registered'
    cases registered'
    rfl
  | builtin plain =>
    rw [registered] at plain
    cases plain
  | host plain _ _ of =>
    rw [of, plain] at registered
    cases registered

namespace Registry

/-- No type has two descriptors, and no name is taken twice. -/
structure Distinct (r : Registry) : Prop where
  descriptors : (Entries.keys r.descriptors).Nodup
  names : (Entries.keys r.names).Nodup

/-- What the tables of a registry say of each other. -/
structure Coherent (r : Registry) : Prop where
  /-- A name is taken by the type of the application that has a descriptor of the name. -/
  named (name : String) (type : NamedType) :
    Entries.find? name r.names = some type ↔ ∃ id d, type = .host id ∧ r.find? type = some d ∧ d.name = name
  /-- A scalar name is taken by the type whose custom scalar has the name. -/
  scalarNamed (name : String) (type : NamedType) :
    Entries.find? name r.scalarNames = some type ↔ ∃ scalar, r.scalar? type = some scalar ∧ scalar.name = name
  /-- A descriptor of a type that has a custom scalar is that scalar. -/
  custom {type : NamedType} {scalar : ScalarDescriptor} {d : TypeDescriptor} (registered : r.scalar? type = some scalar)
    (cached : r.find? type = some d) : d = scalar.descriptor type

variable {r : Registry} {scalar : ScalarDescriptor}

theorem Distinct.empty : ({} : Registry).Distinct := ⟨List.nodup_nil, List.nodup_nil⟩

theorem Distinct.put (distinct : r.Distinct) (d : TypeDescriptor) : (r.put d).Distinct := by
  constructor
  · rw [descriptors_put]
    exact Entries.nodup_keys_insert distinct.descriptors _ _
  · unfold Registry.put
    cases d.type with
    | builtin b => exact distinct.names
    | host id => exact Entries.nodup_keys_insert distinct.names _ _

theorem Distinct.takeOver (distinct : r.Distinct) (scalar : ScalarDescriptor) : (r.takeOver scalar).Distinct := by
  cases cached : r.find? scalar.type with
  | none =>
    rw [takeOver_of_fresh cached]
    exact ⟨distinct.descriptors, distinct.names⟩
  | some d =>
    rw [takeOver_of_cached cached]
    constructor
    · exact Entries.nodup_keys_erase distinct.descriptors _
    · exact Entries.nodup_keys_filter distinct.names _

theorem Coherent.empty : ({} : Registry).Coherent where
  named name type := by simp [Entries.find?, Registry.find?]
  scalarNamed name type := by simp [Entries.find?, Registry.scalar?]
  custom registered _ := by cases registered

namespace Coherent

/-- Types of the application that have descriptors of one name are the same. -/
theorem unique (coherent : r.Coherent) {id id' : HostId} {d d' : TypeDescriptor} (cached : r.find? (.host id) = some d)
    (cached' : r.find? (.host id') = some d') (same : d.name = d'.name) : id = id' := by
  have taken := (coherent.named d.name (.host id)).2 ⟨id, d, rfl, cached, rfl⟩
  have taken' := (coherent.named d.name (.host id')).2 ⟨id', d', rfl, cached', same.symm⟩
  rw [taken] at taken'
  cases taken'
  rfl

/-- Custom scalars of one name are registered for one type. -/
theorem scalar_unique (coherent : r.Coherent) {type type' : NamedType} {s s' : ScalarDescriptor}
    (registered : r.scalar? type = some s) (registered' : r.scalar? type' = some s') (same : s.name = s'.name) :
    type = type' := by
  have taken := (coherent.scalarNamed s.name type).2 ⟨s, registered, rfl⟩
  have taken' := (coherent.scalarNamed s.name type').2 ⟨s', registered', same.symm⟩
  rw [taken] at taken'
  exact Option.some.inj taken'

/-- A name that is given was free, so that it goes on to be taken by the type with its descriptor. -/
theorem named_put (coherent : r.Coherent) {d : TypeDescriptor} (fresh : r.find? d.type = none)
    (free : r.rival? d = none) (name : String) (type : NamedType) :
    Entries.find? name (r.put d).names = some type ↔
      ∃ id d', type = .host id ∧ (r.put d).find? type = some d' ∧ d'.name = name := by
  rw [names_put]
  constructor
  · intro taken
    split at taken
    · next takes =>
      cases taken
      obtain ⟨id, of, named⟩ := TypeDescriptor.takes?_eq_some.1 takes
      exact ⟨id, d, of, find?_put_self r d, named⟩
    · obtain ⟨id, d', of, cached, named⟩ := (coherent.named name type).1 taken
      refine ⟨id, d', of, ?_, named⟩
      rw [find?_put_of_ne r, cached]
      rintro rfl
      rw [fresh] at cached
      cases cached
  · rintro ⟨id, d', of, cached, named⟩
    rw [find?_put] at cached
    split at cached
    · next same =>
      cases cached
      rw [if_pos (TypeDescriptor.takes?_eq_some.2 ⟨id, same.symm.trans of, named⟩), same]
    · next ne =>
      have taken := (coherent.named name type).2 ⟨id, d', of, cached, named⟩
      have apart : d.takes? ≠ some name := fun takes => ne (rival?_eq_none.1 free name takes type taken)
      rw [if_neg apart, taken]

/-- Describing a type keeps what the tables say of each other. -/
theorem described {host : Host} {r' : Registry} {d : TypeDescriptor} (coherent : r.Coherent)
    (step : host.Extends r r' d) : r'.Coherent := by
  obtain ⟨made, fresh, free, rfl⟩ := step
  refine ⟨coherent.named_put fresh free, fun name type => ?_, fun {type s d'} registered cached => ?_⟩
  · rw [scalarNames_put, scalar?_put]
    exact coherent.scalarNamed name type
  · rw [scalar?_put] at registered
    rw [find?_put] at cached
    split at cached
    · next same =>
      cases cached
      subst same
      exact made.custom registered
    · exact coherent.custom registered cached

/-- A type that is taken over gives up its name, and no other type does. -/
theorem findName_takeOver (coherent : r.Coherent) (distinct : r.Distinct) (name : String) :
    Entries.find? name (r.takeOver scalar).names =
      (Entries.find? name r.names).filter (· ≠ scalar.type) := by
  cases cached : r.find? scalar.type with
  | none =>
    rw [takeOver_of_fresh cached]
    change Entries.find? name r.names = _
    cases taken : Entries.find? name r.names with
    | none => rfl
    | some type =>
      obtain ⟨id, d, -, cached', -⟩ := (coherent.named name type).1 taken
      have ne : type ≠ scalar.type := by
        rintro rfl
        rw [cached] at cached'
        cases cached'
      exact (Option.filter_some_pos (by simpa using ne)).symm
  | some d =>
    rw [takeOver_of_cached cached]
    exact Entries.find?_filter distinct.names _ name

/-- A custom scalar that takes over its type keeps what the tables say of each other. -/
theorem takeOver (coherent : r.Coherent) (distinct : r.Distinct) (accepts : r.Accepts scalar) :
    (r.takeOver scalar).Coherent := by
  refine ⟨fun name type => ?_, fun name type => ?_, fun {type s d} registered cached => ?_⟩
  · rw [coherent.findName_takeOver distinct, Option.filter_eq_some_iff, coherent.named]
    simp only [find?_takeOver distinct.descriptors, decide_eq_true_eq]
    constructor
    · rintro ⟨⟨id, d, of, cached, named⟩, ne⟩
      exact ⟨id, d, of, by rw [if_neg ne, cached], named⟩
    · rintro ⟨id, d, of, cached, named⟩
      split at cached
      · cases cached
      · next ne => exact ⟨⟨id, d, of, cached, named⟩, ne⟩
  · rw [scalarName_takeOver]
    simp only [scalar?_takeOver]
    constructor
    · intro taken
      split at taken
      · next same =>
        cases taken
        exact ⟨scalar, if_pos rfl, same.symm⟩
      · obtain ⟨s, registered, named⟩ := (coherent.scalarNamed name type).1 taken
        refine ⟨s, ?_, named⟩
        rw [if_neg, registered]
        rintro rfl
        rw [accepts.plain] at registered
        cases registered
    · rintro ⟨s, registered, named⟩
      split at registered
      · next same =>
        cases registered
        rw [if_pos named.symm, same]
      · have taken := (coherent.scalarNamed name type).2 ⟨s, registered, named⟩
        have apart : name ≠ scalar.name := by
          rintro rfl
          rw [accepts.unnamed] at taken
          cases taken
        rw [if_neg apart, taken]
  · rw [find?_takeOver distinct.descriptors] at cached
    split at cached
    · cases cached
    · next ne =>
      rw [scalar?_takeOver, if_neg ne] at registered
      exact coherent.custom registered cached

/-- The name of a type that is taken over is free afterwards. -/
theorem freed (coherent : r.Coherent) (distinct : r.Distinct) {d : TypeDescriptor} (accepts : r.Accepts scalar)
    (cached : r.find? scalar.type = some d) : Entries.find? d.name (r.takeOver scalar).names = none := by
  obtain ⟨id, of⟩ := accepts.foreign
  have taken := (coherent.named d.name scalar.type).2 ⟨id, d, of, cached, rfl⟩
  rw [coherent.findName_takeOver distinct, taken]
  simp

end Coherent

end Registry

namespace Host

variable {host : Host} {r r' : Registry}

theorem Later.distinct (later : host.Later r r') (distinct : r.Distinct) : r'.Distinct := by
  induction later with
  | refl => exact distinct
  | tail _ step ih =>
    obtain ⟨d, step⟩ := step
    rw [step.put]
    exact ih.put d

theorem Later.coherent (later : host.Later r r') (coherent : r.Coherent) : r'.Coherent := by
  induction later with
  | refl => exact coherent
  | tail _ step ih =>
    obtain ⟨d, step⟩ := step
    exact ih.described step

theorem Reachable.distinct (reachable : host.Reachable r) : r.Distinct := by
  induction reachable with
  | empty => exact .empty
  | @registered r _ scalar ih =>
    obtain ⟨e, refused⟩ | ⟨-, registered⟩ := host.registerScalar_cases scalar r
    · rw [refused]
      exact ih
    · rw [registered]
      exact ih.takeOver scalar
  | described _ later ih => exact later.distinct ih

/-- In every registry that registering scalars and describing types lead to, the tables agree. -/
theorem Reachable.coherent (reachable : host.Reachable r) : r.Coherent := by
  induction reachable with
  | empty => exact .empty
  | @registered r reachable scalar ih =>
    obtain ⟨e, refused⟩ | ⟨accepts, registered⟩ := host.registerScalar_cases scalar r
    · rw [refused]
      exact ih
    · rw [registered]
      exact ih.takeOver reachable.distinct accepts
  | described _ later ih => exact later.coherent ih

end Host

end GraphQL
