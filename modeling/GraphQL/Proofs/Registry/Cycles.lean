import GraphQL.Proofs.Registry.Declared
import GraphQL.Proofs.Registry.Stacked
import GraphQL.Proofs.Registry.Tables

/-!
# Types that build on themselves

A type needs the types that it embeds, an interface those that implement it, and these need others in turn. A
description that fails because a type embeds itself has come back to that type by such needs. And a type from which
needs lead to a cycle is never described, unless a custom scalar is registered for it: then it is described as that,
whatever it declares.
-/

namespace GraphQL

namespace Host

/-- A type needs another. -/
inductive Needs (host : Host) : NamedType → NamedType → Prop
  | intro {id part : HostId} {type : HostType} (known : host.types[id]? = some type) (mem : part ∈ type.needs) :
    Needs host (.host id) (.host part)

/-- From a type needs lead to one that comes back to itself. -/
def MeetsCycle (host : Host) (type : NamedType) : Prop :=
  ∃ cyclic, Relation.ReflTransGen host.Needs type cyclic ∧ Relation.TransGen host.Needs cyclic cyclic

variable {host : Host} {r r' : Registry} {type : NamedType}

/-- A type that meets a cycle needs one that does. -/
theorem MeetsCycle.step (meets : host.MeetsCycle type) : ∃ part, host.Needs type part ∧ host.MeetsCycle part := by
  obtain ⟨cyclic, path, cycle⟩ := meets
  rcases Relation.ReflTransGen.cases_head path with rfl | ⟨part, first, path⟩
  · obtain ⟨part, first, back⟩ := Relation.TransGen.head'_iff.1 cycle
    exact ⟨part, first, type, back, cycle⟩
  · exact ⟨part, first, cyclic, path, cycle⟩

/-! ## Which types are described -/

theorem Embeds.targets {owner : HostId} {index : Nat} {embeds : List EmbedDeclaration} {embeddings : List Embedding}
    (embedded : Embeds r owner index embeds embeddings) : ∀ embed ∈ embeds, r.Implements [] embed.target := by
  induction embedded with
  | nil => exact List.forall_mem_nil _
  | cons cached kind _ others =>
    exact List.forall_mem_cons.2 ⟨⟨_, _, cached, kind, List.forall_mem_nil _⟩, others⟩

/-- A type that is declared as one kind only needs what makes it that kind. -/
theorem needs_of_declared {type : HostType} {kind : String} (declared : declaredKinds type.description = [kind])
    {part : HostId} (mem : part ∈ type.needs) :
    kind = "object" ∧ part ∈ type.description.embeds.map (·.target) ∨
      kind = "interface" ∧ part ∈ type.description.implementors := by
  rcases HostType.mem_needs.1 mem with embedded | ⟨fields, implements⟩
  · have some : type.description.embeds ≠ [] := by
      rintro none
      rw [none] at embedded
      cases embedded
    have object := object_mem_declaredKinds.2 (Or.inr (Or.inr some))
    rw [declared] at object
    exact Or.inl ⟨(List.mem_singleton.1 object).symm, embedded⟩
  · have interface := interface_mem_declaredKinds.2 fields
    rw [declared] at interface
    exact Or.inr ⟨(List.mem_singleton.1 interface).symm, implements⟩

/-- What a type needs was described as an object before it. -/
theorem Builds.needs {id part : HostId} {type : HostType} {kind : TypeKind} (builds : Builds r id type kind)
    (mem : part ∈ type.needs) : ∃ fields, r.Implements fields part := by
  have embedded {embeddings : List Embedding} (declared : declaredKinds type.description = ["object"])
      (embeds : Embeds r id 0 type.description.embeds embeddings) : ∃ fields, r.Implements fields part := by
    obtain ⟨-, listed⟩ | ⟨other, -⟩ := needs_of_declared declared mem
    · obtain ⟨embed, written, rfl⟩ := List.mem_map.1 listed
      exact ⟨[], embeds.targets embed written⟩
    · exact absurd other (by decide)
  have none {kind : String} (declared : declaredKinds type.description = [kind]) (object : kind ≠ "object")
      (interface : kind ≠ "interface") : ∃ fields, r.Implements fields part :=
    (needs_of_declared declared mem).elim (fun h => absurd h.1 object) fun h => absurd h.1 interface
  cases builds with
  | object declared embeds _ => exact embedded declared embeds
  | union declared _ embeds _ => exact embedded declared embeds
  | enum declared => exact none declared (by decide) (by decide)
  | inputObject declared => exact none declared (by decide) (by decide)
  | interface declared implemented =>
    obtain ⟨other, -⟩ | ⟨-, listed⟩ := needs_of_declared declared mem
    · exact absurd other (by decide)
    · exact ⟨_, implemented part listed⟩
  | scalar declared _ => exact none declared (by decide) (by decide)

/-- Only as a custom scalar is a type that meets a cycle described. -/
theorem Makes.custom_of_meetsCycle {d : TypeDescriptor} (made : host.Makes r d)
    (before : ∀ entry ∈ r.descriptors, host.MeetsCycle entry.1 → entry.2.kind.custom?.isSome)
    (meets : host.MeetsCycle d.type) : d.kind.custom?.isSome := by
  obtain ⟨part, needs, meets⟩ := meets.step
  generalize of : d.type = type at needs
  cases needs with
  | intro known mem =>
    obtain ⟨scalar, -, kind⟩ | ⟨-, type, known', builds⟩ := made.builds of
    · rw [kind]
      rfl
    · rw [known] at known'
      cases known'
      obtain ⟨fields, d', object, cached, kind, -⟩ := builds.needs mem
      have custom := before _ (Entries.mem_of_find? cached) meets
      rw [kind] at custom
      cases custom

/-- A type is read by the custom scalar that is registered for it, whether it is described already or not. -/
theorem Reachable.custom? (reachable : host.Reachable r) (id : HostId) : r.custom? id = r.scalar? (.host id) := by
  induction reachable with
  | empty => rfl
  | @registered r reachable scalar ih =>
    obtain ⟨e, refused⟩ | ⟨-, registered⟩ := host.registerScalar_cases scalar r
    · rw [refused]
      exact ih
    · rw [registered, Registry.custom?, Registry.find?_takeOver reachable.distinct.descriptors]
      by_cases taken : NamedType.host id = scalar.type
      · rw [if_pos taken]
      · rw [if_neg taken, Registry.scalar?_takeOver, if_neg taken]
        exact ih
  | described _ later ih => rw [later.custom?, later.scalar?, ih]

/-- A type that meets a cycle is not described unless a custom scalar is registered for it. -/
theorem Reachable.find?_of_meetsCycle (reachable : host.Reachable r) (meets : host.MeetsCycle type)
    (plain : r.scalar? type = none) : r.find? type = none := by
  cases cached : r.find? type with
  | none => rfl
  | some d =>
    have custom : d.kind.custom?.isSome :=
      reachable.all (fun _ _ before made => made.custom_of_meetsCycle before) _ (Entries.mem_of_find? cached) meets
    obtain ⟨part, needs, -⟩ := meets.step
    cases needs with
    | @intro id _ _ _ _ =>
      have read := reachable.custom? id
      rw [plain, Registry.custom?, cached] at read
      simp only at read
      rw [read] at custom
      cases custom

/-! ## How describing fails -/

/-- If the error is that a type embeds itself, then a type leads to one of its name that comes back to itself. -/
def Blames (host : Host) (type : NamedType) (e : RegistrationError) : Prop :=
  ∀ name, e = .recursiveEmbedding name → ∃ cyclic, Relation.ReflTransGen host.Needs type cyclic ∧
    Relation.TransGen host.Needs cyclic cyclic ∧ host.typeName cyclic = name

/-- How a computation may fail is kept by the steps of building, as they fail with no such error. -/
theorem relates_failsOnly {within : RegistrationError → Prop}
    (others : ∀ e, (∀ name, e ≠ .recursiveEmbedding name) → within e) :
    Relates fun α (x _ : RegistryM α) => FailsOnly within x where
  pure a := failsOnly_pure a
  fail e other _ _ := by
    intro r r' e' failed
    cases failed
    exact others e other
  lift result other := failsOnly_lift fun e failed => others e fun name same => other name (same ▸ failed)
  bind := FailsOnly.bind

theorem insert_ne {d : TypeDescriptor} {name : String} :
    outcome (host.insert d) r ≠ (.error (.recursiveEmbedding name), r') := by
  rw [outcome_insert]
  split
  · rintro ⟨⟩
  · split <;> rintro ⟨⟩

theorem describeWithin_blames (root : NamedType) (stack : List HostId) (type : NamedType)
    (reached : Relation.ReflTransGen host.Needs root type)
    (around : ∀ outer ∈ stack, Relation.TransGen host.Needs (.host outer) type) :
    FailsOnly (host.Blames root) (host.describeWithin stack type) := by
  rintro r r' _ failed name rfl
  rw [outcome_describeWithin] at failed
  cases cached : r.find? type with
  | some d =>
    rw [cached] at failed
    cases failed
  | none =>
    cases scalar : r.scalar? type with
    | some s =>
      rw [cached, scalar] at failed
      exact absurd failed insert_ne
    | none =>
      rw [cached, scalar] at failed
      cases type with
      | builtin b => exact absurd failed insert_ne
      | host id =>
        simp only at failed
        by_cases inside : id ∈ stack
        · rw [if_pos inside] at failed
          cases failed
          exact ⟨.host id, reached, around id inside, rfl⟩
        · by_cases known : id < host.types.length
          · rw [if_neg inside, dif_pos known] at failed
            have parts : ∀ part ∈ host.types[id].needs,
                FailsOnly (host.Blames root) (host.describeWithin (id :: stack) (.host part)) := by
              intro part mem
              have needs : host.Needs (.host id) (.host part) := .intro (List.getElem?_eq_getElem known) mem
              apply describeWithin_blames root (id :: stack) (.host part) (reached.tail needs)
              intro outer open'
              rcases List.mem_cons.1 open' with rfl | open'
              · exact .single needs
              · exact .tail (around outer open') needs
            have building := (relates_failsOnly fun e other name same => absurd same (other name)).build
              (fun part => host.describeWithin (id :: stack) (.host part))
              (fun part => host.describeWithin (id :: stack) (.host part)) id host.types[id] parts
            have inserting (d : TypeDescriptor) : FailsOnly (host.Blames root) (host.insert d) := by
              rintro r r' _ failed name rfl
              exact absurd failed insert_ne
            exact building.bind inserting r r' _ failed name rfl
          · rw [if_neg inside, dif_neg known] at failed
            cases failed
termination_by host.remaining stack
decreasing_by exact Host.remaining_cons_lt known inside

/-- Describing ends, with no call deeper than there are types outside the stack, and leaves the stack as it found it,
on success and on failure. It reports that a type embeds itself only if the type that is described meets a cycle, and
then fails for some reason unless it has a custom scalar; no type that meets a cycle is described without one. -/
theorem describe_cyclic (reachable : host.Reachable r) (type : NamedType) :
    (∀ beyond depth stack, host.remaining stack < depth →
      outcome (host.describeTo beyond depth type) ⟨r, stack⟩ =
        ((outcome (host.describeWithin stack type) r).1, ⟨(outcome (host.describeWithin stack type) r).2, stack⟩)) ∧
    (∀ name r', outcome (host.describe type) r = (.error (.recursiveEmbedding name), r') →
      ∃ cyclic, Relation.ReflTransGen host.Needs type cyclic ∧ Relation.TransGen host.Needs cyclic cyclic ∧
        host.typeName cyclic = name) ∧
    (host.MeetsCycle type → r.scalar? type = none → ∃ e r', outcome (host.describe type) r = (.error e, r')) ∧
    ∀ cyclic, host.MeetsCycle cyclic → r.scalar? cyclic = none →
      (outcome (host.describe type) r).2.find? cyclic = none := by
  have later : host.Later r (outcome (host.describe type) r).2 := (describe_settles type r).grows
  have apart {cyclic : NamedType} (meets : host.MeetsCycle cyclic) (plain : r.scalar? cyclic = none) :
      (outcome (host.describe type) r).2.find? cyclic = none :=
    (reachable.described later).find?_of_meetsCycle meets (by rw [later.scalar?, plain])
  refine ⟨fun beyond depth stack enough => describeTo_mirrors beyond enough type r, ?_, ?_, fun _ => apart⟩
  · intro name r' failed
    exact describeWithin_blames type [] type .refl (List.forall_mem_nil _) r r' _ failed name rfl
  · intro meets plain
    cases ran : outcome (host.describe type) r with
    | mk result r' =>
      cases result with
      | error e => exact ⟨e, r', rfl⟩
      | ok d =>
        have cached := describe_caches ran
        have fresh := apart meets plain
        rw [ran, cached] at fresh
        cases fresh

end Host

/-! ## Cycles that are not met -/

namespace Mirror

def mirror : HostType := { hostName := "Mirror", description := { embeds := [⟨0, .pointer⟩] } }

def profile : HostType := { hostName := "Profile", description := { embeds := [⟨0, .pointer⟩] } }

/-- An object that names itself as an implementor, though it is no interface. -/
def account : HostType :=
  { hostName := "Account"
    description := { fields := [⟨"id", .field, .named (.builtin .id) false, .value, {}⟩], implementors := [2] } }

def host : Host := { builtinName := fun b => b.scalarName, types := [mirror, profile, account] }

/-- A custom scalar for profiles. -/
def token : ScalarDescriptor :=
  { name := "Token", description := none, type := .host 1, serialize := fun _ => .null
    parseVariable := fun _ => .ok .null, parseLiteral := fun _ => .ok .null }

def registry : Registry := (outcome (host.registerScalar token) {}).2

theorem mirror_needs : host.Needs (.host 0) (.host 0) := by
  have known : host.types[0]? = some mirror := rfl
  exact .intro known (by decide)

/-- A mirror is refused, and its cycle is met. -/
theorem mirror_refused :
    host.MeetsCycle (.host 0) ∧ (∃ e r', outcome (host.describe (.host 0)) registry = (.error e, r')) ∧
      (outcome (host.describe (.host 0)) registry).2.find? (.host 0) = none := by
  have meets : host.MeetsCycle (.host 0) := ⟨.host 0, .refl, .single mirror_needs⟩
  have plain : registry.scalar? (.host 0) = none := by with_unfolding_all rfl
  obtain ⟨-, -, fails, apart⟩ := Host.describe_cyclic (.registered .empty token) (.host 0)
  exact ⟨meets, fails meets plain, apart _ meets plain⟩

def accountDescriptor : TypeDescriptor :=
  ⟨.host 2, "Account", none,
    .object ⟨[], [⟨"id", .field, .named (.builtin .id) false, .value, {}, 2, "Account", []⟩]⟩⟩

/-- A profile builds on a mirror and is described, because it is a custom scalar. So is an account, which builds on
itself only as an implementor of what is no interface. No mirror and no account is a custom scalar. -/
theorem cycles_described :
    (∃ type, host.types[1]? = some type ∧ 0 ∈ type.buildsOn) ∧ (∃ type, host.types[0]? = some type ∧ 0 ∈ type.buildsOn) ∧
      registry.scalar? (.host 0) = none ∧
      (outcome (host.describe (.host 1)) registry).1 = .ok (token.descriptor (.host 1)) ∧
      (∃ type, host.types[2]? = some type ∧ 2 ∈ type.buildsOn) ∧ registry.scalar? (.host 2) = none ∧
      (outcome (host.describe (.host 2)) registry).1 = .ok accountDescriptor ∧
      (outcome (host.describe (.host 2)) registry).2.find? (.host 2) = some accountDescriptor := by
  refine ⟨⟨profile, rfl, by decide⟩, ⟨mirror, rfl, by decide⟩, ?_, ?_, ⟨account, rfl, by decide⟩, ?_, ?_, ?_⟩
  all_goals with_unfolding_all rfl

end Mirror

end GraphQL
