import GraphQL.Proofs.Footing.Rules
import GraphQL.Proofs.Registry.Tables

/-!
# What building rests on

A descriptor is built from the declaration of its type and from the descriptors of the types that the declaration
builds on, the embedded ones and the implementors. So it is made alike in registries that differ in a type that it
does not build on, and a custom scalar that takes over such a type is no concern of it.
-/

namespace GraphQL

open Footing HoldsRegistry

namespace Host

section

variable {f : Footing} {describe : HostId → RegistryM TypeDescriptor}

theorem relates_bears : Relates fun α (x _ : RegistryM α) => f.Bears x where
  pure a := bears_pure a
  fail _ _ _ _ := carries_throw_bind trivial
  lift result _ := bears_lift result
  bind first next := first.bind fun a _ => next a

/-- What carries the description of the types that a type builds on carries the building of its descriptor. -/
theorem build_bears (id : HostId) {type : HostType} (each : ∀ part ∈ type.buildsOn, f.Bears (describe part)) :
    f.Bears (build describe id type) := by
  refine relates_bears.build describe describe id type fun part mem => each part (HostType.buildsOn_of_needs mem)

end

/-- The type does not build on another. -/
def Ignores (host : Host) (type other : NamedType) : Prop :=
  ∀ id hostType, type = .host id → host.types[id]? = some hostType → ∀ part ∈ hostType.buildsOn, .host part ≠ other

/-- Registries that describe all types but one alike. -/
def apartFrom (other : NamedType) : Footing where
  sound _ := True
  standsIn r R := ∀ type, type ≠ other → R.find? type = r.find? type
  covers type := type ≠ other
  refuses _ := True

theorem lookUp_bears {id : HostId} {other : NamedType} (ne : .host id ≠ other) : (apartFrom other).Bears (lookUp id) := by
  unfold lookUp
  refine carries_get (fun r => ?_) fun r R standsIn => ?_
  · split
    · exact bears_pure _
    · exact bears_throw _
  · have same : R.find? (.host id) = r.find? (.host id) := standsIn _ ne
    simp only [show (on r R : Registry).find? (.host id) = r.find? (.host id) from same]

variable {host : Host} {r R : Registry} {d : TypeDescriptor} {other : NamedType}

/-- A descriptor is made alike in registries that differ only in a type that it does not build on. -/
theorem Makes.elsewhere (made : host.Makes r d) (same : ∀ type, type ≠ other → R.find? type = r.find? type)
    (scalar : R.scalar? d.type = r.scalar? d.type) (ignores : host.Ignores d.type other) : host.Makes R d := by
  cases made with
  | scalar registered => exact .scalar (scalar.trans registered)
  | builtin plain => exact .builtin (scalar.trans plain)
  | @host id d plain known built of =>
    rw [of] at scalar ignores
    have bears : (apartFrom other).Bears (build lookUp id host.types[id]) :=
      build_bears id fun part mem => lookUp_bears (ignores id _ rfl (List.getElem?_eq_getElem known) part mem)
    have again := (bears r trivial).again R
    rw [built] at again
    exact .host (scalar.trans plain) known (again same).2 of

end Host

end GraphQL
