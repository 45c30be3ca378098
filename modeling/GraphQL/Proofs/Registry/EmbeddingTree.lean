import GraphQL.Registry
import Mathlib.Data.List.Duplicate
import Mathlib.Data.List.Flatten

/-!
# The tree of embeddings

A type with all that it embeds, at any depth, is a tree. `Host.level` reads this tree from the declarations, depth
by depth and from left to right, and `Host.visible` leaves out of a level the names that occur further up. A name is
`Ambiguous` if it occurs twice at its least depth. `Host.candidates` is what there is to choose from when the
embedded types have chosen already: less than the level, but what is visible is the same, since whatever shadows a
field in an embedded type is there one level further down in the type that embeds it.
-/

namespace GraphQL

/-- A field in a tree of embeddings: where it is declared, and the embeddings that lead there, outermost first. -/
structure EmbeddedField where
  chain : List EmbedStep
  field : FieldDescriptor

namespace EmbeddedField

def name (o : EmbeddedField) : String := o.field.name

/-- The field as seen from a type that embeds the one in whose tree it is. -/
def under (o : EmbeddedField) (step : EmbedStep) : EmbeddedField := ⟨step :: o.chain, o.field⟩

@[simp] theorem name_under (o : EmbeddedField) (step : EmbedStep) : (o.under step).name = o.name := rfl

end EmbeddedField

namespace Host

/-- The GraphQL name that a type declares, or the one it has by default. -/
def declaredName (host : Host) (id : HostId) : String :=
  match host.types[id]? with
  | some type => type.description.name.getD (defaultTypeName type.hostName)
  | none => ""

/-- The fields that a type declares itself. -/
def declared (host : Host) (id : HostId) : List FieldDescriptor :=
  match host.types[id]? with
  | some type => ownFields id type.hostName type.description
  | none => []

/-- The step to the value that a declared embedding holds. -/
def stepTo (host : Host) (owner : HostId) (index : Nat) (embed : EmbedDeclaration) : EmbedStep :=
  ⟨embed.kind, owner, index, embed.target, host.declaredName embed.target⟩

/-- The steps to what values of a type embed, in the order in which the type declares them. -/
def steps (host : Host) (id : HostId) : List EmbedStep :=
  match host.types[id]? with
  | some type => type.description.embeds.mapIdx (host.stepTo id)
  | none => []

/-- The fields at a depth of the tree of embeddings, from left to right. -/
def level (host : Host) : HostId → Nat → List EmbeddedField
  | id, 0 => (host.declared id).map (⟨[], ·⟩)
  | id, depth + 1 => (host.steps id).flatMap fun step => (host.level step.target depth).map (·.under step)

/-- The name occurs above a depth. -/
def Occurs (host : Host) (id : HostId) (depth : Nat) (name : String) : Prop :=
  ∃ above < depth, name ∈ (host.level id above).map (·.name)

instance (host : Host) (id : HostId) (depth : Nat) (name : String) : Decidable (host.Occurs id depth name) :=
  inferInstanceAs (Decidable (∃ above < depth, name ∈ (host.level id above).map (·.name)))

/-- The fields at a depth that no field further up has the name of. -/
def visible (host : Host) (id : HostId) (depth : Nat) : List EmbeddedField :=
  (host.level id depth).filter fun o => ¬host.Occurs id depth o.name

/-- The name occurs at a depth at least twice, and nowhere above. -/
def Ambiguous (host : Host) (id : HostId) (depth : Nat) (name : String) : Prop :=
  List.Duplicate name ((host.visible id depth).map (·.name))

/-- The fields at a depth when the embedded types have left out what is shadowed in them. -/
def candidates (host : Host) : HostId → Nat → List EmbeddedField
  | id, 0 => host.level id 0
  | id, depth + 1 => (host.steps id).flatMap fun step => (host.visible step.target depth).map (·.under step)

variable {host : Host} {id : HostId} {depth : Nat} {name : String} {o : EmbeddedField}

theorem declared_eq {type : HostType} (known : host.types[id]? = some type) :
    host.declared id = ownFields id type.hostName type.description := by rw [declared, known]

theorem steps_eq {type : HostType} (known : host.types[id]? = some type) :
    host.steps id = type.description.embeds.mapIdx (host.stepTo id) := by rw [steps, known]

theorem mem_level_succ : o ∈ host.level id (depth + 1) ↔
    ∃ step ∈ host.steps id, ∃ inner ∈ host.level step.target depth, inner.under step = o := by
  simp only [level, List.mem_flatMap, List.mem_map]

theorem mem_visible : o ∈ host.visible id depth ↔ o ∈ host.level id depth ∧ ¬host.Occurs id depth o.name := by
  simp [visible]

theorem length_chain (mem : o ∈ host.level id depth) : o.chain.length = depth := by
  induction depth generalizing id o with
  | zero =>
    obtain ⟨field, -, rfl⟩ := List.mem_map.1 mem
    rfl
  | succ depth ih =>
    obtain ⟨step, -, inner, there, rfl⟩ := mem_level_succ.1 mem
    rw [EmbeddedField.under, List.length_cons, ih there]

/-- A name that occurs is visible at the least depth at which it does. -/
theorem exists_visible (mem : o ∈ host.level id depth) :
    ∃ above ≤ depth, ∃ top ∈ host.visible id above, top.name = o.name := by
  induction depth using Nat.strongRecOn generalizing o with
  | ind depth ih =>
    by_cases occurs : host.Occurs id depth o.name
    · obtain ⟨above, less, named⟩ := occurs
      obtain ⟨other, there, same⟩ := List.mem_map.1 named
      obtain ⟨least, le, top, seen, same'⟩ := ih above less there
      exact ⟨least, by omega, top, seen, same'.trans same⟩
    · exact ⟨depth, Nat.le_refl _, o, mem_visible.2 ⟨mem, occurs⟩, rfl⟩

/-- What occurs in an embedded type occurs one level further down in the type that embeds it. -/
theorem Occurs.under {step : EmbedStep} (embedded : step ∈ host.steps id)
    (occurs : host.Occurs step.target depth name) : host.Occurs id (depth + 1) name := by
  obtain ⟨above, less, named⟩ := occurs
  obtain ⟨other, there, same⟩ := List.mem_map.1 named
  exact ⟨above + 1, by omega,
    List.mem_map.2 ⟨other.under step, mem_level_succ.2 ⟨step, embedded, other, there, rfl⟩, same⟩⟩

/-- What an embedded type has left out is not visible in the type that embeds it either. -/
theorem filter_candidates (host : Host) (id : HostId) (depth : Nat) :
    (host.candidates id depth).filter (fun o => ¬host.Occurs id depth o.name) = host.visible id depth := by
  cases depth with
  | zero => rfl
  | succ depth =>
    rw [visible, candidates, level, List.filter_flatMap, List.filter_flatMap]
    refine List.flatMap_congr fun step embedded => ?_
    rw [List.filter_map, List.filter_map, visible, List.filter_filter]
    congr 1
    refine List.filter_congr fun o _ => ?_
    simp only [Function.comp_apply, EmbeddedField.name_under]
    by_cases occurs : host.Occurs step.target depth o.name
    · simp [occurs, occurs.under embedded]
    · simp [occurs]

/-- The candidates have every name that occurs at all. -/
theorem occurs_iff : host.Occurs id depth name ↔ ∃ above < depth, name ∈ (host.candidates id above).map (·.name) := by
  constructor
  · rintro ⟨above, less, named⟩
    cases above with
    | zero => exact ⟨0, less, named⟩
    | succ above =>
      obtain ⟨o, there, same⟩ := List.mem_map.1 named
      obtain ⟨step, embedded, inner, below, rfl⟩ := mem_level_succ.1 there
      -- the embedded type has the name, perhaps from another field than the one that was found
      obtain ⟨least, le, top, seen, same'⟩ := exists_visible below
      refine ⟨least + 1, by omega, List.mem_map.2 ⟨top.under step, ?_, same'.trans same⟩⟩
      exact List.mem_flatMap.2 ⟨step, embedded, List.mem_map.2 ⟨top, seen, rfl⟩⟩
  · rintro ⟨above, less, named⟩
    cases above with
    | zero => exact ⟨0, less, named⟩
    | succ above =>
      obtain ⟨o, there, same⟩ := List.mem_map.1 named
      obtain ⟨step, embedded, left⟩ := List.mem_flatMap.1 there
      obtain ⟨inner, seen, rfl⟩ := List.mem_map.1 left
      exact ⟨above + 1, less, List.mem_map.2
        ⟨inner.under step, mem_level_succ.2 ⟨step, embedded, inner, (mem_visible.1 seen).1, rfl⟩, same⟩⟩

/-- A name is ambiguous at one depth at most. -/
theorem Ambiguous.unique {depth' : Nat} (here : host.Ambiguous id depth name) (there : host.Ambiguous id depth' name) :
    depth = depth' := by
  have apart {d d' : Nat} (first : host.Ambiguous id d name) (second : host.Ambiguous id d' name) : ¬d < d' := by
    intro less
    obtain ⟨top, seen, rfl⟩ := List.mem_map.1 first.mem
    obtain ⟨low, seen', same⟩ := List.mem_map.1 second.mem
    have above : host.Occurs id d' low.name := ⟨d, less, List.mem_map.2 ⟨top, (mem_visible.1 seen).1, same.symm⟩⟩
    exact (mem_visible.1 seen').2 above
  have := apart here there
  have := apart there here
  omega

end Host

end GraphQL
