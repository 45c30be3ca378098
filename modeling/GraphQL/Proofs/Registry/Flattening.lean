import GraphQL.Proofs.Registry.EmbeddingTree
import GraphQL.Proofs.Registry.Places
import GraphQL.Proofs.Registry.Shadowing
import Mathlib.Data.List.Forall2

/-!
# Embedding is shallowest-wins flattening

The table of a described type is not made from the tree of its embeddings but from the tables of the types that it
embeds, and these have dropped what is shadowed in them already. It is as if it was made from the tree, `Flattened`:
at each depth the table has what is visible there, from left to right, and every field with a path whose steps are
the embeddings that lead to it. Making the table fails exactly if a name is ambiguous in the tree.
-/

namespace GraphQL

/-! ## Fields at their places -/

/-- A field of a table is an occurrence: declared alike, and its path consists of places of the steps of the chain. -/
structure Locates (steps : List EmbedStep) (field : FieldDescriptor) (o : EmbeddedField) : Prop where
  declared : field = { o.field with path := field.path }
  chain : field.path.map (steps[·]?) = o.chain.map some

namespace Locates

variable {steps : List EmbedStep} {field : FieldDescriptor} {o : EmbeddedField}

theorem name (locates : Locates steps field o) : field.name = o.name := by
  rw [locates.declared]
  rfl

theorem depth (locates : Locates steps field o) : field.depth = o.chain.length := by
  simpa [FieldDescriptor.depth] using congrArg List.length locates.chain

/-- All places of the path are in range. -/
theorem inRange (locates : Locates steps field o) : ∀ place ∈ field.path, place < steps.length := by
  intro place mem
  have there : steps[place]? ∈ o.chain.map some := locates.chain ▸ List.mem_map.2 ⟨place, mem, rfl⟩
  obtain ⟨step, -, found⟩ := List.mem_map.1 there
  exact (List.getElem?_eq_some_iff.1 found.symm).1

/-- A field of an embedded type is promoted to the occurrence under the step to it, wherever the steps of the
embedding are laid out. -/
theorem promoted {all : List EmbedStep} {e : Embedding} {start : Nat}
    (laid : ∀ k < e.steps.length, all[start + k]? = e.steps[k]?) (locates : Locates e.object.steps field o) :
    Locates all { field with path := start :: field.path.map (· + (start + 1)) } (o.under e.step) where
  declared := congrArg (fun f : FieldDescriptor => { f with path := start :: field.path.map (· + (start + 1)) })
    locates.declared
  chain := by
    have first : all[start]? = some e.step := laid 0 (Nat.zero_lt_succ _)
    have others : (field.path.map (· + (start + 1))).map (all[·]?) = field.path.map (e.object.steps[·]?) := by
      rw [List.map_map]
      refine List.map_congr_left fun place mem => ?_
      have inside := locates.inRange place mem
      have there := laid (place + 1) (by simpa [Embedding.steps] using inside)
      rw [Function.comp_apply, show place + (start + 1) = start + (place + 1) by omega, there]
      simp [Embedding.steps]
    rw [List.map_cons, others, first, locates.chain, EmbeddedField.under, List.map_cons]

theorem names {fields : List FieldDescriptor} {os : List EmbeddedField} (all : List.Forall₂ (Locates steps) fields os) :
    fields.map (·.name) = os.map (·.name) := by
  induction all with
  | nil => rfl
  | cons first _ ih => rw [List.map_cons, List.map_cons, first.name, ih]

end Locates

/-- Fields that are occurrences one by one, found from either side. -/
theorem exists_of_forall₂ {α β : Type} {rel : α → β → Prop} {as : List α} {bs : List β}
    (each : List.Forall₂ rel as bs) : (∀ a ∈ as, ∃ b ∈ bs, rel a b) ∧ ∀ b ∈ bs, ∃ a ∈ as, rel a b := by
  induction each with
  | nil => simp
  | cons first _ ih =>
    constructor
    · intro a mem
      rcases List.mem_cons.1 mem with rfl | mem
      · exact ⟨_, List.mem_cons_self, first⟩
      · obtain ⟨b, there, related⟩ := ih.1 a mem
        exact ⟨b, List.mem_cons_of_mem _ there, related⟩
    · intro b mem
      rcases List.mem_cons.1 mem with rfl | mem
      · exact ⟨_, List.mem_cons_self, first⟩
      · obtain ⟨a, there, related⟩ := ih.2 b mem
        exact ⟨a, List.mem_cons_of_mem _ there, related⟩

namespace Host

/-- The table of a type is what its whole tree of embeddings gives. -/
structure Flattened (host : Host) (id : HostId) (object : ObjectFields) : Prop where
  ordered : object.fields.Pairwise fun a b => a.depth ≤ b.depth
  /-- At each depth the fields are the visible ones, in the order of the tree. -/
  level (depth : Nat) :
    List.Forall₂ (Locates object.steps) (object.fields.filter (·.depth = depth)) (host.visible id depth)
  distinct : (object.fields.map (·.name)).Nodup
  height : ∃ height, ∀ depth, height ≤ depth → host.level id depth = []

variable {host : Host} {id : HostId} {r : Registry}

namespace Flattened

variable {object : ObjectFields}

theorem exists_occurrence (flat : host.Flattened id object) {field : FieldDescriptor} (mem : field ∈ object.fields) :
    ∃ o ∈ host.visible id field.depth, Locates object.steps field o :=
  (exists_of_forall₂ (flat.level field.depth)).1 field (List.mem_filter.2 ⟨mem, by simp⟩)

theorem exists_field (flat : host.Flattened id object) {depth : Nat} {o : EmbeddedField} (seen : o ∈ host.visible id depth) :
    ∃ field ∈ object.fields, Locates object.steps field o := by
  obtain ⟨field, mem, locates⟩ := (exists_of_forall₂ (flat.level depth)).2 o seen
  exact ⟨field, (List.mem_filter.1 mem).1, locates⟩

/-- The table as one list: level by level down to the height of the tree. -/
theorem fields (flat : host.Flattened id object) {height : Nat}
    (bound : ∀ depth, height ≤ depth → host.level id depth = []) :
    List.Forall₂ (Locates object.steps) object.fields ((List.range height).flatMap (host.visible id)) := by
  have bounded : ∀ field ∈ object.fields, field.depth < height := by
    intro field mem
    obtain ⟨o, seen, -⟩ := flat.exists_occurrence mem
    by_contra deep
    have empty := bound field.depth (Nat.le_of_not_lt deep)
    have there := (mem_visible.1 seen).1
    rw [empty] at there
    exact absurd there List.not_mem_nil
  rw [eq_flatMap_of_ordered flat.ordered bounded]
  exact List.rel_flatMap (List.forall₂_same.2 fun _ _ => rfl) fun depth _ same => same ▸ flat.level depth

/-- A name stands for the field that has it. -/
theorem find?_eq_some (flat : host.Flattened id object) {field : FieldDescriptor} (mem : field ∈ object.fields) :
    object.find? field.name = some field := by
  cases found : object.find? field.name with
  | none => simpa using List.find?_eq_none.1 found field mem
  | some other =>
    have named : other.name = field.name := by simpa using List.find?_some found
    rw [List.inj_on_of_nodup_map flat.distinct (List.mem_of_find?_eq_some found) mem named]

/-- The index of names gives the position of the field of a name. -/
theorem position?_eq_some (flat : host.Flattened id object) {name : String} {i : Nat} :
    object.position? name = some i ↔ (object.fields[i]?.map (·.name)) = some name := by
  have at' (k : Nat) : object.fields[k]?.map (·.name) = (object.fields.map (·.name))[k]? := List.getElem?_map.symm
  constructor
  · intro found
    obtain ⟨inside, named, -⟩ := List.findIdx?_eq_some_iff_getElem.1 found
    rw [List.getElem?_eq_getElem inside]
    simpa using named
  · intro named
    obtain ⟨field, there, same⟩ := Option.map_eq_some_iff.1 named
    obtain ⟨inside, eq⟩ := List.getElem?_eq_some_iff.1 there
    refine List.findIdx?_eq_some_iff_getElem.2 ⟨inside, by simpa [eq] using same, fun j less => ?_⟩
    intro again
    have again' : object.fields[j].name = name := by simpa using again
    have twice : (object.fields.map (·.name))[j]? = (object.fields.map (·.name))[i]? := by
      rw [← at', ← at', named, List.getElem?_eq_getElem (Nat.lt_trans less inside), Option.map_some, again']
    have := (List.getElem?_inj (by simpa using Nat.lt_trans less inside) flat.distinct).1 twice
    omega

end Flattened

/-! ## Laying out embedded tables -/

variable {embeddings : List Embedding}

/-- Promoted fields are at a depth of one at least. -/
theorem depth_ne_zero_of_layOut (start : Nat) : ∀ field ∈ (layOut start embeddings).2, field.depth ≠ 0 := by
  induction embeddings generalizing start with
  | nil => exact List.forall_mem_nil _
  | cons e rest ih =>
    intro field mem
    rcases List.mem_append.1 mem with here | later
    · obtain ⟨_, -, rfl⟩ := List.mem_map.1 here
      exact Nat.succ_ne_zero _
    · exact ih _ field later

/-- Embedded tables that are laid out from a place on: what was visible in them, under the steps to them. -/
theorem layOut_locates (flat : ∀ e ∈ embeddings, host.Flattened e.step.target e.object) {all : List EmbedStep}
    {start : Nat} (laid : ∀ k < (layOut start embeddings).1.length, all[start + k]? = (layOut start embeddings).1[k]?)
    (depth : Nat) :
    List.Forall₂ (Locates all) ((layOut start embeddings).2.filter (·.depth = depth + 1))
      (embeddings.flatMap fun e => (host.visible e.step.target depth).map (·.under e.step)) := by
  induction embeddings generalizing start with
  | nil => exact .nil
  | cons e rest ih =>
    obtain ⟨first, others⟩ := List.forall_mem_cons.1 flat
    simp only [layOut, List.length_append] at laid ⊢
    rw [List.filter_append, List.flatMap_cons]
    refine List.rel_append ?_ (ih others ?_)
    · have inside : ∀ k < e.steps.length, all[start + k]? = e.steps[k]? := by
        intro k less
        rw [laid k (by omega), List.getElem?_append_left less]
      have deeper : (e.promoted start).filter (·.depth = depth + 1) =
          (e.object.fields.filter (·.depth = depth)).map
            fun field => { field with path := start :: field.path.map (· + (start + 1)) } := by
        rw [Embedding.promoted, List.filter_map]
        congr 1
        refine List.filter_congr fun field _ => decide_eq_decide.2 ?_
        rw [FieldDescriptor.depth, List.length_cons, List.length_map, Nat.add_right_cancel_iff]
        rfl
      rw [deeper, List.forall₂_map_left_iff, List.forall₂_map_right_iff]
      exact (first.level depth).imp fun _ _ locates => locates.promoted inside
    · intro k less
      rw [Nat.add_assoc, laid _ (by omega), List.getElem?_append_right (Nat.le_add_right _ _), Nat.add_sub_cancel_left]

/-- All fields there are to choose from are the candidates of the tree. -/
theorem candidates_located {type : HostType} (known : host.types[id]? = some type)
    (flat : ∀ e ∈ embeddings, host.Flattened e.step.target e.object)
    (steps : embeddings.map (·.step) = host.steps id) (depth : Nat) :
    List.Forall₂ (Locates (layOut 0 embeddings).1)
      ((ownFields id type.hostName type.description ++ (layOut 0 embeddings).2).filter (·.depth = depth))
      (host.candidates id depth) := by
  have own : ∀ field ∈ ownFields id type.hostName type.description, field.depth = 0 := by
    intro field mem
    rw [FieldDescriptor.depth, ownFields_path field mem, List.length_nil]
  rw [List.filter_append]
  cases depth with
  | zero =>
    have none : (layOut 0 embeddings).2.filter (·.depth = 0) = [] := by
      rw [List.filter_eq_nil_iff]
      intro field mem
      simpa using depth_ne_zero_of_layOut 0 field mem
    have all : (ownFields id type.hostName type.description).filter (·.depth = 0) =
        ownFields id type.hostName type.description := by
      rw [List.filter_eq_self]
      intro field mem
      simpa using own field mem
    rw [none, all, List.append_nil, candidates, level, declared_eq known, List.forall₂_map_right_iff]
    refine List.forall₂_same.2 fun field mem => ⟨rfl, ?_⟩
    rw [ownFields_path field mem]
    rfl
  | succ depth =>
    have none : (ownFields id type.hostName type.description).filter (·.depth = depth + 1) = [] := by
      rw [List.filter_eq_nil_iff]
      intro field mem
      simp [own field mem]
    rw [none, List.nil_append, candidates, ← steps, List.flatMap_map]
    exact layOut_locates flat (fun k _ => by rw [Nat.zero_add]) depth

/-- What is left unshadowed of the candidates is what is visible in the tree. -/
theorem unshadowed_located {type : HostType} (known : host.types[id]? = some type)
    (flat : ∀ e ∈ embeddings, host.Flattened e.step.target e.object)
    (steps : embeddings.map (·.step) = host.steps id) (depth : Nat) :
    List.Forall₂ (Locates (layOut 0 embeddings).1)
      ((unshadowed (ownFields id type.hostName type.description ++ (layOut 0 embeddings).2)).filter (·.depth = depth))
      (host.visible id depth) := by
  have located := candidates_located known flat steps
  generalize ownFields id type.hostName type.description ++ (layOut 0 embeddings).2 = all at located ⊢
  rw [unshadowed, List.filter_comm, ← filter_candidates]
  have least : (all.filter (·.depth = depth)).filter
      (fun field => ∀ other ∈ all, other.name = field.name → field.depth ≤ other.depth) =
        (all.filter (·.depth = depth)).filter
          fun field => ∀ other ∈ all, other.name = field.name → depth ≤ other.depth := by
    refine List.filter_congr fun field mem => ?_
    have here : field.depth = depth := by simpa using (List.mem_filter.1 mem).2
    rw [here]
  rw [least]
  refine List.rel_filter ?_ (located depth)
  intro field o locates
  simp only [decide_eq_true_eq, occurs_iff]
  constructor
  · rintro least ⟨above, less, named⟩
    rw [← Locates.names (located above)] at named
    obtain ⟨other, mem, same⟩ := List.mem_map.1 named
    obtain ⟨there, level⟩ := List.mem_filter.1 mem
    have level' : other.depth = above := by simpa using level
    have := least other there (same.trans locates.name.symm)
    omega
  · intro absent other mem same
    by_contra deep
    refine absent ⟨other.depth, Nat.lt_of_not_le deep, ?_⟩
    rw [← Locates.names (located other.depth)]
    exact List.mem_map.2 ⟨other, List.mem_filter.2 ⟨mem, by simp⟩, same.trans locates.name⟩

/-! ## The tables of described types -/

/-- What is embedded are trees of bounded height. -/
theorem exists_height (flat : ∀ e ∈ embeddings, host.Flattened e.step.target e.object) :
    ∃ height, ∀ e ∈ embeddings, ∀ depth, height ≤ depth → host.level e.step.target depth = [] := by
  induction embeddings with
  | nil => exact ⟨0, List.forall_mem_nil _⟩
  | cons e rest ih =>
    obtain ⟨first, others⟩ := List.forall_mem_cons.1 flat
    obtain ⟨height, bound⟩ := first.height
    obtain ⟨height', bound'⟩ := ih others
    refine ⟨max height height', List.forall_mem_cons.2 ⟨fun depth le => bound depth (by omega), ?_⟩⟩
    exact fun other mem depth le => bound' other mem depth (by omega)

/-- The table that is made of flattened tables, if it is. -/
theorem flattened_of_distinct {type : HostType} (known : host.types[id]? = some type)
    (flat : ∀ e ∈ embeddings, host.Flattened e.step.target e.object) (steps : embeddings.map (·.step) = host.steps id)
    (distinct : ((unshadowed (byDepth
      (ownFields id type.hostName type.description ++ (layOut 0 embeddings).2))).map (·.name)).Nodup) :
    host.Flattened id ⟨(layOut 0 embeddings).1,
      unshadowed (byDepth (ownFields id type.hostName type.description ++ (layOut 0 embeddings).2))⟩ where
  ordered := (byDepth_ordered _).filter _
  level depth := by
    rw [filter_unshadowed_byDepth]
    exact unshadowed_located known flat steps depth
  distinct := distinct
  height := by
    obtain ⟨height, bound⟩ := exists_height flat
    refine ⟨height + 1, fun depth le => ?_⟩
    obtain ⟨below, rfl⟩ : ∃ below, depth = below + 1 := ⟨depth - 1, by omega⟩
    rw [level, ← steps, List.flatMap_map, List.flatMap_eq_nil_iff]
    intro e mem
    rw [bound e mem below (by omega), List.map_nil]

/-- In a flattened table no name is ambiguous. -/
theorem Flattened.not_ambiguous {object : ObjectFields} (flat : host.Flattened id object) (depth : Nat) (name : String) :
    ¬host.Ambiguous id depth name := by
  have nodup : ((host.visible id depth).map (·.name)).Nodup := by
    rw [← Locates.names (flat.level depth)]
    exact flat.distinct.sublist (List.filter_sublist.map _)
  exact List.nodup_iff_forall_not_duplicate.1 nodup name

/-- Two unshadowed fields of one name make it ambiguous. -/
theorem ambiguous_of_twice {type : HostType} (known : host.types[id]? = some type)
    (flat : ∀ e ∈ embeddings, host.Flattened e.step.target e.object) (steps : embeddings.map (·.step) = host.steps id)
    {first second : FieldDescriptor} (same : first.name = second.name) (twice : [first, second].Sublist (unshadowed
      (byDepth (ownFields id type.hostName type.description ++ (layOut 0 embeddings).2)))) :
    host.Ambiguous id second.depth second.name := by
  have level : first.depth = second.depth :=
    depth_of_unshadowed (twice.subset List.mem_cons_self) (twice.subset (by simp)) same
  have here := twice.filter fun field => decide (field.depth = second.depth)
  rw [filter_unshadowed_byDepth] at here
  have named := here.map (·.name)
  rw [Locates.names (unshadowed_located known flat steps second.depth)] at named
  rw [Ambiguous, List.duplicate_iff_sublist]
  simpa [level, same] using named

/-- An object or union is described under its declared name and with a flattened table. -/
def Flattens (host : Host) (entry : NamedType × TypeDescriptor) : Prop :=
  ∀ id object, entry.1 = .host id → entry.2.objectFields? = some object →
    entry.2.name = host.declaredName id ∧ host.Flattened id object

/-- The embeddings of a type, if they are flattened, are those of its declaration. -/
theorem Embeds.flattened {owner : HostId} {index : Nat} {embeds : List EmbedDeclaration}
    (all : ∀ entry ∈ r.descriptors, host.Flattens entry) (embedded : Embeds r owner index embeds embeddings) :
    (∀ e ∈ embeddings, host.Flattened e.step.target e.object) ∧
      embeddings.map (·.step) = embeds.mapIdx fun i => host.stepTo owner (index + i) := by
  induction embedded with
  | nil => exact ⟨List.forall_mem_nil _, rfl⟩
  | cons cached kind _ ih =>
    obtain ⟨flat, steps⟩ := ih
    obtain ⟨named, first⟩ := all _ (Entries.mem_of_find? cached) _ _ rfl (by rw [TypeDescriptor.objectFields?, kind])
    refine ⟨List.forall_mem_cons.2 ⟨first, flat⟩, ?_⟩
    rw [List.map_cons, List.mapIdx_cons, steps, stepTo, ← named]
    simp only [Nat.add_zero, Nat.add_assoc, Nat.add_comm 1]

/-- Promoting for a type whose embedded types are flattened: the table is flattened, or a name is ambiguous and the
error says which. -/
theorem Embeds.promote {type : HostType} (all : ∀ entry ∈ r.descriptors, host.Flattens entry)
    (known : host.types[id]? = some type) (embedded : Embeds r id 0 type.description.embeds embeddings)
    (typeName : String) :
    (∃ object, GraphQL.promote typeName (ownFields id type.hostName type.description) embeddings = .ok object ∧
      host.Flattened id object) ∨
    ∃ depth name, host.Ambiguous id depth name ∧
      GraphQL.promote typeName (ownFields id type.hostName type.description) embeddings =
        .error (.clash typeName depth name) := by
  obtain ⟨flat, steps⟩ := embedded.flattened all
  simp only [Nat.zero_add] at steps
  rw [← steps_eq known] at steps
  obtain ⟨made, distinct⟩ | ⟨first, second, failed, twice, same⟩ :=
    promote_cases typeName (ownFields id type.hostName type.description) embeddings
  · exact Or.inl ⟨_, made, flattened_of_distinct known flat steps distinct⟩
  · exact Or.inr ⟨_, _, ambiguous_of_twice known flat steps same twice, failed⟩

theorem Makes.flattens (all : ∀ entry ∈ r.descriptors, host.Flattens entry) {d : TypeDescriptor}
    (made : host.Makes r d) : host.Flattens (d.type, d) := by
  intro id object of has
  cases made with
  | scalar _ => cases has
  | builtin _ => cases has
  | host _ inside built of' =>
    cases of.symm.trans of'
    have known := List.getElem?_eq_getElem inside
    have table {name : String} {embeddings : List Embedding}
        (embeds : Embeds r id 0 host.types[id].description.embeds embeddings)
        (promoted : GraphQL.promote name (ownFields id host.types[id].hostName host.types[id].description) embeddings =
          .ok object) : host.Flattened id object := by
      obtain ⟨_, made, flat⟩ | ⟨_, _, _, failed⟩ := embeds.promote all known name
      · cases made.symm.trans promoted
        exact flat
      · cases failed.symm.trans promoted
    have builds := builds_of_build built
    obtain ⟨kind, rfl⟩ := build_eq built
    refine ⟨by rw [declaredName, known], ?_⟩
    cases builds with
    | object _ embeds promoted =>
      cases has
      exact table embeds promoted
    | union _ _ embeds promoted =>
      cases has
      exact table embeds promoted
    | enum _ => cases has
    | inputObject _ => cases has
    | interface _ _ => cases has
    | scalar _ _ => cases has

/-- Every table of the registry is flattened. -/
theorem Reachable.flattens (reachable : host.Reachable r) : ∀ entry ∈ r.descriptors, host.Flattens entry :=
  reachable.all fun _ _ all made => made.flattens all

/-! ## The field of a name -/

/-- The only occurrence of its name at its depth, with none above. -/
def Shallowest (host : Host) (id : HostId) (depth : Nat) (o : EmbeddedField) : Prop :=
  (host.level id depth).filter (·.name = o.name) = [o] ∧ ¬host.Occurs id depth o.name

/-- What is visible is the only one of its name, unless the name is ambiguous. -/
theorem shallowest_of_visible {depth : Nat} {o : EmbeddedField} (seen : o ∈ host.visible id depth)
    (clear : ¬host.Ambiguous id depth o.name) : host.Shallowest id depth o := by
  obtain ⟨there, first⟩ := mem_visible.1 seen
  refine ⟨?_, first⟩
  have same : (host.level id depth).filter (·.name = o.name) = (host.visible id depth).filter (·.name = o.name) := by
    rw [visible, List.filter_filter]
    refine List.filter_congr fun other _ => ?_
    by_cases named : other.name = o.name <;> simp [named, first]
  rw [same]
  have one : ((host.visible id depth).filter (·.name = o.name)).length ≤ 1 := by
    have count := mt List.duplicate_iff_two_le_count.2 clear
    rw [List.count_eq_length_filter, List.filter_map, List.length_map] at count
    simp only [Function.comp_def, beq_eq_decide] at count
    omega
  have mem : o ∈ (host.visible id depth).filter (·.name = o.name) := List.mem_filter.2 ⟨seen, by simp⟩
  generalize (host.visible id depth).filter (·.name = o.name) = found at one mem ⊢
  obtain ⟨a, rfl⟩ := List.length_eq_one_iff.1 (Nat.le_antisymm one (List.length_pos_of_mem mem))
  rw [List.mem_singleton.1 mem]

/-- A name that occurs in the tree stands for its shallowest occurrence. -/
theorem Flattened.find? {object : ObjectFields} (flat : host.Flattened id object) {depth : Nat} {o : EmbeddedField}
    (mem : o ∈ host.level id depth) :
    ∃ field top, object.find? o.name = some field ∧ field.depth ≤ depth ∧ top.name = o.name ∧
      host.Shallowest id field.depth top ∧ Locates object.steps field top := by
  obtain ⟨least, le, top, seen, same⟩ := exists_visible mem
  obtain ⟨field, there, locates⟩ := flat.exists_field seen
  have here : field.depth = least := by rw [locates.depth, length_chain (mem_visible.1 seen).1]
  have named : field.name = o.name := locates.name.trans same
  refine ⟨field, top, ?_, by omega, same, ?_, locates⟩
  · rw [← named]
    exact flat.find?_eq_some there
  · rw [here]
    exact shallowest_of_visible seen (flat.not_ambiguous _ _)

/-- Embedding is shallowest-wins flattening: the table that is made of the tables of the embedded types has the
fields that are visible in the whole tree, level by level from left to right; a name stands for its shallowest
occurrence, and the index of names gives the position. Making it fails exactly if a name is ambiguous in the tree. -/
theorem promote_flattens {type : HostType} (reachable : host.Reachable r) (known : host.types[id]? = some type)
    (embeds : Embeds r id 0 type.description.embeds embeddings) (typeName : String) :
    (∀ object, promote typeName (ownFields id type.hostName type.description) embeddings = .ok object →
      (∃ height, (∀ depth, height ≤ depth → host.level id depth = []) ∧
        List.Forall₂ (Locates object.steps) object.fields ((List.range height).flatMap (host.visible id))) ∧
      (∀ depth, ∀ o ∈ host.level id depth, ∃ field top, object.find? o.name = some field ∧ field.depth ≤ depth ∧
        top.name = o.name ∧ host.Shallowest id field.depth top ∧ Locates object.steps field top) ∧
      ∀ name i, object.position? name = some i ↔ object.fields[i]?.map (·.name) = some name) ∧
    (∀ e, promote typeName (ownFields id type.hostName type.description) embeddings = .error e →
      ∃ depth name, host.Ambiguous id depth name ∧ e = .clash typeName depth name) ∧
    ∀ depth name, host.Ambiguous id depth name →
      ∃ e, promote typeName (ownFields id type.hostName type.description) embeddings = .error e := by
  obtain ⟨object, made, flat⟩ | ⟨depth, name, ambiguous, failed⟩ := embeds.promote reachable.flattens known typeName
  · rw [made]
    refine ⟨?_, ?_, fun depth name ambiguous => absurd ambiguous (flat.not_ambiguous depth name)⟩
    · rintro _ ⟨⟩
      obtain ⟨height, bound⟩ := flat.height
      exact ⟨⟨height, bound, flat.fields bound⟩, fun _ _ mem => flat.find? mem, fun _ _ => flat.position?_eq_some⟩
    · intro _ failed
      cases failed
  · rw [failed]
    refine ⟨?_, ?_, fun _ _ _ => ⟨_, rfl⟩⟩
    · intro _ made
      cases made
    · rintro _ ⟨⟩
      exact ⟨depth, name, ambiguous, rfl⟩

end Host

/-! ## A type that is embedded twice -/

namespace Profile

def note : FieldDeclaration := ⟨"note", .field, .named (.builtin .string) true, .value, {}⟩

def audit : HostType := { hostName := "Audit", description := { fields := [note] } }

def account : HostType := { hostName := "Account", description := { embeds := [⟨0, .pointer⟩] } }

/-- Embeds an audit by itself and in its account. -/
def user : HostType :=
  { hostName := "User"
    description := { fields := [{ note with name := "email" }], embeds := [⟨1, .value⟩, ⟨0, .pointer⟩] } }

/-- Embeds two audits side by side. -/
def rivals : HostType := { hostName := "Rivals", description := { embeds := [⟨0, .value⟩, ⟨0, .pointer⟩] } }

/-- Embeds an account, and with it an audit. -/
def member : HostType := { hostName := "Member", description := { embeds := [⟨1, .pointer⟩] } }

def host : Host := { builtinName := fun b => b.scalarName, types := [audit, account, user, rivals, member] }

def registry : Registry := (outcome ([0, 1, 4].mapM fun id => host.describe (.host id)) {}).2

theorem registry_reachable : host.Reachable registry := by
  have settles : host.Settles ([0, 1, 4].mapM fun id => host.describe (.host id)) :=
    Host.repeats_mapM [0, 1, 4] fun id _ => Host.describe_settles (.host id)
  exact .described .empty (settles {}).grows

def noted (path : List Nat) : FieldDescriptor :=
  { name := "note", source := .field, type := note.type, shape := .value, info := {}, owner := 0, ownerName := "Audit",
    path }

def email : FieldDescriptor := { noted [] with name := "email", owner := 2, ownerName := "User" }

def auditFields : ObjectFields := ⟨[], [noted []]⟩

def accountFields : ObjectFields := ⟨[⟨.pointer, 1, 0, 0, "Audit"⟩], [noted [0]]⟩

def userEmbeddings : List Embedding :=
  [⟨⟨.value, 2, 0, 1, "Account"⟩, accountFields⟩, ⟨⟨.pointer, 2, 1, 0, "Audit"⟩, auditFields⟩]

def rivalEmbeddings : List Embedding :=
  [⟨⟨.value, 3, 0, 0, "Audit"⟩, auditFields⟩, ⟨⟨.pointer, 3, 1, 0, "Audit"⟩, auditFields⟩]

theorem audit_cached : registry.find? (.host 0) = some ⟨.host 0, "Audit", none, .object auditFields⟩ := by
  with_unfolding_all rfl

theorem account_cached : registry.find? (.host 1) = some ⟨.host 1, "Account", none, .object accountFields⟩ := by
  with_unfolding_all rfl

theorem user_embeds : Host.Embeds registry 2 0 user.description.embeds userEmbeddings :=
  @Host.Embeds.cons registry 2 0 ⟨1, .value⟩ _ _ _ _ account_cached rfl
    (@Host.Embeds.cons registry 2 1 ⟨0, .pointer⟩ _ _ _ _ audit_cached rfl (.nil 2))

theorem rivals_embed : Host.Embeds registry 3 0 rivals.description.embeds rivalEmbeddings :=
  @Host.Embeds.cons registry 3 0 ⟨0, .value⟩ _ _ _ _ audit_cached rfl
    (@Host.Embeds.cons registry 3 1 ⟨0, .pointer⟩ _ _ _ _ audit_cached rfl (.nil 2))

/-- Of the two notes of a user the one that is less deep is a field; two of them at one depth are ambiguous. -/
theorem notes_flattened :
    (∃ object, promote "User" (Host.ownFields 2 "User" user.description) userEmbeddings = .ok object ∧
      object.fields.map (fun field => (field.name, field.path)) = [("email", []), ("note", [2])] ∧
      ∃ height, List.Forall₂ (Locates object.steps) object.fields ((List.range height).flatMap (host.visible 2))) ∧
    promote "Rivals" (Host.ownFields 3 "Rivals" rivals.description) rivalEmbeddings =
      .error (.ambiguousField "Rivals" "note") ∧
    ∃ depth name, host.Ambiguous 3 depth name ∧
      RegistrationError.ambiguousField "Rivals" "note" = .clash "Rivals" depth name := by
  have known : host.types[2]? = some user := rfl
  have known' : host.types[3]? = some rivals := rfl
  obtain ⟨made, -, -⟩ := Host.promote_flattens registry_reachable known user_embeds "User"
  obtain ⟨-, failed, -⟩ := Host.promote_flattens registry_reachable known' rivals_embed "Rivals"
  have ambiguous : promote "Rivals" (Host.ownFields 3 "Rivals" rivals.description) rivalEmbeddings =
      .error (.ambiguousField "Rivals" "note") := by
    have sorted : byDepth [noted [0], noted [1]] = [noted [0], noted [1]] := by
      simp [byDepth, FieldDescriptor.depth, noted, List.mergeSort, List.MergeSort.Internal.splitInTwo]
    exact (promote_eq ..).trans (congrArg (keepShallowest "Rivals" [] · >>= _) sorted)
  have table : promote "User" (Host.ownFields 2 "User" user.description) userEmbeddings =
      .ok ⟨[⟨.value, 2, 0, 1, "Account"⟩, ⟨.pointer, 1, 0, 0, "Audit"⟩, ⟨.pointer, 2, 1, 0, "Audit"⟩],
        [email, noted [2]]⟩ := by
    have sorted : byDepth [email, noted [0, 1], noted [2]] = [email, noted [2], noted [0, 1]] := by
      simp [byDepth, FieldDescriptor.depth, email, noted, List.mergeSort, List.MergeSort.Internal.splitInTwo]
    exact (promote_eq ..).trans (congrArg (keepShallowest "User" [] · >>= _) sorted)
  obtain ⟨⟨height, -, fields⟩, -, -⟩ := made _ table
  exact ⟨⟨_, table, rfl, height, fields⟩, ambiguous, failed _ ambiguous⟩

end Profile

end GraphQL
