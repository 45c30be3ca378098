import GraphQL.Proofs.Registry.Building

/-!
# Paths stay within the steps

The path of a promoted field consists of places in the steps of its type. `layOut` shifts the paths of
embedded types by as many places as it puts steps before theirs, so that every place is in range. This
holds of all descriptors that the registry ever holds, since each is built from those before it.
-/

namespace GraphQL

/-- Every place of every path is one of a step. -/
def ObjectFields.Grounded (object : ObjectFields) : Prop :=
  ∀ field ∈ object.fields, ∀ place ∈ field.path, place < object.steps.length

/-- The fields of an object or union have grounded paths. -/
def TypeDescriptor.Grounded (d : TypeDescriptor) : Prop := ∀ object, d.objectFields? = some object → object.Grounded

/-- All descriptors are grounded. -/
def Registry.Grounded (registry : Registry) : Prop := ∀ entry ∈ registry.descriptors, entry.2.Grounded

/-- Where embeddings are laid out from a place on, the paths of their fields stay behind that place and
within the steps. -/
theorem layOut_places {embeddings : List Embedding} (grounded : ∀ e ∈ embeddings, e.object.Grounded) (start : Nat) :
    ∀ field ∈ (layOut start embeddings).2, ∀ place ∈ field.path,
      place < start + (layOut start embeddings).1.length := by
  induction embeddings generalizing start with
  | nil => exact fun field mem => absurd mem List.not_mem_nil
  | cons e rest ih =>
    obtain ⟨first, others⟩ := List.forall_mem_cons.1 grounded
    intro field mem place at'
    rw [layOut, List.length_append]
    rcases List.mem_append.1 mem with mem | mem
    · obtain ⟨original, declared, rfl⟩ := List.mem_map.1 mem
      have count : e.steps.length = e.object.steps.length + 1 := List.length_cons
      rcases List.mem_cons.1 at' with rfl | at'
      · omega
      · obtain ⟨inner, there, rfl⟩ := List.mem_map.1 at'
        have within := first original declared inner there
        omega
    · have within := ih others (start + e.steps.length) field mem place at'
      omega

/-- What is kept was there before. -/
theorem mem_of_keepShallowest {typeName : String} {kept fields all : List FieldDescriptor}
    (ok : keepShallowest typeName kept fields = .ok all) {field : FieldDescriptor} (mem : field ∈ all) :
    field ∈ kept ∨ field ∈ fields := by
  induction fields generalizing kept with
  | nil =>
    cases ok
    exact Or.inl mem
  | cons first rest ih =>
    rw [keepShallowest] at ok
    split at ok
    · rcases ih ok with before | after
      · rcases List.mem_append.1 before with before | here
        · exact Or.inl before
        · exact Or.inr (List.mem_cons.2 (Or.inl (List.mem_singleton.1 here)))
      · exact Or.inr (List.mem_cons_of_mem _ after)
    · split at ok
      · split at ok <;> cases ok
      · exact (ih ok).imp_right (List.mem_cons_of_mem _)

/-- Fields that a type declares itself have empty paths, so promoting grounds all fields. -/
theorem promote_grounded {typeName : String} {direct : List FieldDescriptor} {embeddings : List Embedding}
    {object : ObjectFields} (own : ∀ field ∈ direct, field.path = [])
    (grounded : ∀ e ∈ embeddings, e.object.Grounded) (ok : promote typeName direct embeddings = .ok object) :
    object.Grounded := by
  unfold promote at ok
  obtain ⟨all, kept, made⟩ := except_bind_eq_ok.1 ok
  cases made
  intro field mem place at'
  have candidate := (mem_of_keepShallowest kept mem).resolve_left List.not_mem_nil
  rw [List.mem_mergeSort] at candidate
  rcases List.mem_append.1 candidate with declared | promoted
  · rw [own field declared] at at'
    cases at'
  · have within := layOut_places grounded 0 field promoted place at'
    rwa [Nat.zero_add] at within

namespace Host

variable {host : Host} {r : Registry}

theorem Embeds.grounded (all : r.Grounded) {owner : HostId} {index : Nat} {embeds : List EmbedDeclaration}
    {embeddings : List Embedding} (embedded : Embeds r owner index embeds embeddings) :
    ∀ e ∈ embeddings, e.object.Grounded := by
  induction embedded with
  | nil => exact List.forall_mem_nil _
  | cons cached kind _ ih =>
    refine List.forall_mem_cons.2 ⟨?_, ih⟩
    exact all _ (Entries.mem_of_find? cached) _ (by rw [TypeDescriptor.objectFields?, kind])

theorem ownFields_path {id : HostId} {hostName : String} {d : TypeDescription} :
    ∀ field ∈ ownFields id hostName d, field.path = [] := by
  intro field mem
  obtain ⟨_, _, rfl⟩ := List.mem_map.1 mem
  rfl

/-- What is built from grounded descriptors is grounded. -/
theorem Builds.grounded (all : r.Grounded) {id : HostId} {type : HostType} {d : TypeDescriptor}
    (builds : Builds r id type d.kind) : d.Grounded := by
  intro fields has
  unfold TypeDescriptor.objectFields? at has
  cases kind : d.kind with
  | object object =>
    rw [kind] at has builds
    cases has
    cases builds with
    | object _ embeds promoted => exact promote_grounded ownFields_path (embeds.grounded all) promoted
  | union object =>
    rw [kind] at has builds
    cases has
    cases builds with
    | union _ _ embeds promoted => exact promote_grounded ownFields_path (embeds.grounded all) promoted
  | interface shape =>
    rw [kind] at has
    cases has
  | enum values =>
    rw [kind] at has
    cases has
  | inputObject fields =>
    rw [kind] at has
    cases has
  | scalar codec =>
    rw [kind] at has
    cases has

theorem Makes.grounded (all : r.Grounded) {d : TypeDescriptor} (made : host.Makes r d) : d.Grounded := by
  cases made with
  | scalar _ =>
    intro object fields
    cases fields
  | builtin _ =>
    intro object fields
    cases fields
  | host _ _ built _ => exact (builds_of_build built).grounded all

/-- All types that are ever described have grounded paths. -/
theorem Reachable.grounded (reachable : host.Reachable r) : r.Grounded :=
  reachable.all fun _ _ all made => made.grounded all

end Host

end GraphQL
