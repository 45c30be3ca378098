import GraphQL.Proofs.Plan.Compiled
import GraphQL.Proofs.Schema.Calls

/-!
# What holds of every schema

However a schema came about, by describing types, registering operations and custom scalars, some of which are
refused, and answering requests, the tables of its registry agree with each other, and described types have what
they build on. The one exception is a type that a custom scalar has taken over: types that were built on it before
stay as they were described.
-/

namespace GraphQL

namespace Schema

variable {s : Schema}

/-- The tables of a registry agree, no two types of the application have a name in common, and a custom scalar
that takes over its type frees the name of the type. -/
structure Orderly (s : Schema) : Prop where
  tables : s.registry.Coherent
  unique {id id' : HostId} {d d' : TypeDescriptor} (cached : s.registry.find? (.host id) = some d)
    (cached' : s.registry.find? (.host id') = some d') (same : d.name = d'.name) : id = id'
  freed {scalar : ScalarDescriptor} {d : TypeDescriptor} (cached : s.registry.find? scalar.type = some d)
    (registered : s.answer (.registerScalar scalar) = .scalarRegistered (.ok ())) :
    Entries.find? d.name (s.after (.registerScalar scalar)).registry.names = none

theorem orderly_of_reachable (reachable : s.host.Reachable s.registry) : s.Orderly where
  tables := reachable.coherent
  unique cached cached' same := reachable.coherent.unique cached cached' same
  freed {scalar d} cached registered := by
    change SchemaAnswer.scalarRegistered ((registerScalar scalar).run s).1 = _ at registered
    change Entries.find? d.name ((registerScalar scalar).run s).2.registry.names = none
    rcases s.registerScalar_cases scalar with ⟨e, refused⟩ | ⟨accepts, taken⟩
    · rw [refused] at registered
      cases registered
    · rw [taken]
      exact reachable.coherent.freed reachable.distinct accepts cached

section

variable (host : Host) (config : Config) (scorer : Scorer) (cache : Option PlanCache) (calls : List SchemaCall)

/-- The tables of the registry agree in every schema that calls on a new one lead to. -/
theorem afterAll_orderly : ((create host config scorer cache).afterAll calls).Orderly := by
  have reachable := reachable_afterAll (s := create host config scorer cache) .empty calls
  rw [← host_afterAll] at reachable
  exact orderly_of_reachable reachable

/-- In every schema that calls on a new one lead to, described types have what they build on, except for those
that custom scalars have taken over. -/
theorem afterAll_upheld : ((create host config scorer cache).afterAll calls).registry.Upheld host :=
  (reachable_afterAll (s := create host config scorer cache) .empty calls).upheld

end

end Schema

/-! ## An implementor that becomes a scalar -/

namespace NodeQuery

/-- A scalar for accounts. -/
def token : ScalarDescriptor :=
  { name := "Token", description := none, type := .host 1, serialize := fun _ => .null
    parseVariable := fun _ => .ok .null, parseLiteral := fun _ => .ok .null }

def schema : Schema := .create host {} .default none

/-- Nodes are described, and with them the accounts that implement them, which are then taken over. -/
def calls : List SchemaCall := [.describe (.host 0), .registerScalar token]

/-- Nodes are still an interface that accounts implement, and accounts are a scalar. -/
theorem account_token :
    (∃ d shape, (schema.afterAll calls).registry.find? (.host 0) = some d ∧ d.kind = .interface shape ∧
      1 ∈ shape.implementors) ∧
      ∃ d, (schema.afterAll calls).answer (.describe (.host 1)) = .described (.ok d) ∧
        d.kind = .scalar (.custom token) := by
  have cached : (schema.afterAll calls).registry.find? (.host 0) =
      some ⟨.host 0, "Node", none, .interface ⟨node.description.interfaceFields, [1]⟩⟩ := by with_unfolding_all rfl
  have described : (schema.afterAll calls).answer (.describe (.host 1)) =
      .described (.ok (token.descriptor (.host 1))) := by with_unfolding_all rfl
  exact ⟨⟨_, _, cached, rfl, List.mem_singleton_self 1⟩, _, described, rfl⟩

end NodeQuery

end GraphQL
