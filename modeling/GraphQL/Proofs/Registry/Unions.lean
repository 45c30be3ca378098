import GraphQL.Proofs.Registry.Flattening

/-!
# Members of unions

A union is described only if each of its fields is its own, plain data and of a shape that can be nil: the fields that
it declares, in their order. A value of a union is replaced by what its only set field resolves to. It is no valid
value if no field is set or if several are, and the error names these in the order of their declaration.
-/

namespace GraphQL

/-- What resolves to nothing, in the sense of unions. -/
inductive Resolved.Nil : Resolved → Prop
  | null : Nil .null
  | emptyList : Nil (.list [])
  | emptyMap : Nil (.map [])

theorem Resolved.isNil_iff {resolved : Resolved} : resolved.isNil = true ↔ resolved.Nil := by
  constructor
  · intro empty
    cases resolved with
    | null => exact .null
    | const c => cases empty
    | list items =>
      cases List.isEmpty_iff.1 empty
      exact .emptyList
    | map entries =>
      cases List.isEmpty_iff.1 empty
      exact .emptyMap
    | host value => cases empty
  · intro nil
    cases nil <;> rfl

instance : DecidablePred Resolved.Nil := fun _ => decidable_of_iff _ Resolved.isNil_iff

namespace FieldDescriptor

/-- The getter of a field returns something. -/
def Readable (value : HostValue) (field : FieldDescriptor) : Prop := ∃ resolved, field.read value = .ok resolved

/-- What the getter of a field returns is not nil. -/
def IsSet (value : HostValue) (field : FieldDescriptor) : Prop :=
  ∃ resolved, field.read value = .ok resolved ∧ ¬resolved.Nil

variable {value : HostValue} {field : FieldDescriptor} {resolved : Resolved}

theorem isSet_of_read (reads : field.read value = .ok resolved) : field.IsSet value ↔ ¬resolved.Nil := by
  constructor
  · rintro ⟨other, reads', set⟩
    rw [reads] at reads'
    cases reads'
    exact set
  · exact fun set => ⟨resolved, reads, set⟩

instance (value : HostValue) (field : FieldDescriptor) : Decidable (field.IsSet value) :=
  match reads : field.read value with
  | .ok _ => decidable_of_iff _ (isSet_of_read reads).symm
  | .error _ => .isFalse (by
    rintro ⟨_, reads', -⟩
    rw [reads] at reads'
    cases reads')

end FieldDescriptor

/-- The fields that are set in a value, in their order. -/
def ObjectFields.setIn (object : ObjectFields) (value : HostValue) : List FieldDescriptor :=
  object.fields.filter fun field => field.IsSet value

/-- How a union fails if the getter of a field does. -/
def UnionError.ofGetter (typeName : String) : Failure → UnionError
  | .error e => .member typeName e.message
  | .panic message => .panic message

/-! ## Dereferencing -/

section

variable {typeName : String} {value : HostValue} {fields : List FieldDescriptor}

/-- Going through the fields gives those that are set, or fails at the first that cannot be read. -/
theorem setMembers_cases (typeName : String) (value : HostValue) (fields : List FieldDescriptor) :
    ((∀ field ∈ fields, field.Readable value) ∧ ∃ set, setMembers typeName value fields = .ok set ∧
      set.map (·.1) = fields.filter (·.IsSet value) ∧ ∀ member ∈ set, member.1.read value = .ok member.2) ∨
    ∃ before field after failure, fields = before ++ field :: after ∧ (∀ other ∈ before, other.Readable value) ∧
      field.read value = .error failure ∧ setMembers typeName value fields = .error (.ofGetter typeName failure) := by
  induction fields with
  | nil => exact Or.inl ⟨List.forall_mem_nil _, [], rfl, rfl, List.forall_mem_nil _⟩
  | cons field rest ih =>
    cases reads : field.read value with
    | error failure =>
      refine Or.inr ⟨[], field, rest, failure, rfl, List.forall_mem_nil _, reads, ?_⟩
      rw [setMembers, reads]
      cases failure <;> rfl
    | ok resolved =>
      rcases ih with ⟨all, set, sets, kept, read⟩ | ⟨before, other, after, failure, rfl, all, fails, sets⟩
      · refine Or.inl ⟨List.forall_mem_cons.2 ⟨⟨resolved, reads⟩, all⟩, ?_⟩
        by_cases nil : resolved.Nil
        · have unset : ¬field.IsSet value := fun set => (FieldDescriptor.isSet_of_read reads).1 set nil
          refine ⟨set, ?_, ?_, read⟩
          · rw [setMembers, reads, sets]
            simp only [Except.map, Resolved.isNil_iff.2 nil, if_true]
          · rw [List.filter_cons_of_neg (by simpa using unset), kept]
        · have isSet : field.IsSet value := (FieldDescriptor.isSet_of_read reads).2 nil
          have filled : resolved.isNil = false := eq_false_of_ne_true fun empty => nil (Resolved.isNil_iff.1 empty)
          refine ⟨(field, resolved) :: set, ?_, ?_, List.forall_mem_cons.2 ⟨reads, read⟩⟩
          · rw [setMembers, reads, sets]
            simp only [Except.map, filled]
            rfl
          · rw [List.filter_cons_of_pos (by simpa using isSet), List.map_cons, kept]
      · have readable : ∀ other ∈ field :: before, other.Readable value :=
          List.forall_mem_cons.2 ⟨⟨resolved, reads⟩, all⟩
        refine Or.inr ⟨field :: before, other, after, failure, rfl, readable, fails, ?_⟩
        rw [setMembers, reads, sets]
        rfl

end

/-- What dereferencing a value of a union comes to. -/
structure TypeDescriptor.Dereferences (d : TypeDescriptor) (object : ObjectFields) (value : HostValue) : Prop where
  /-- The only field that is set, with its type and what it resolves to. -/
  member (name : String) (type : TypeRef) (resolved : Resolved) :
    dereference d value = .ok (.member name type resolved) ↔ (∀ field ∈ object.fields, field.Readable value) ∧
      ∃ field, object.setIn value = [field] ∧ field.name = name ∧ field.type = type ∧ field.read value = .ok resolved
  allNil (typeName : String) :
    dereference d value = .error (.allNil typeName) ↔ (∀ field ∈ object.fields, field.Readable value) ∧
      object.setIn value = [] ∧ typeName = d.name
  severalSet (typeName : String) (names : List String) :
    dereference d value = .error (.severalSet typeName names) ↔ (∀ field ∈ object.fields, field.Readable value) ∧
      2 ≤ (object.setIn value).length ∧ typeName = d.name ∧ names = (object.setIn value).map (·.name)
  /-- The first field that cannot be read decides. -/
  unreadable : (∀ field ∈ object.fields, field.Readable value) ∨
    ∃ before field after failure, object.fields = before ++ field :: after ∧ (∀ other ∈ before, other.Readable value) ∧
      field.read value = .error failure ∧ dereference d value = .error (.ofGetter d.name failure)

theorem dereferences_of_union {d : TypeDescriptor} {object : ObjectFields} (union : d.kind = .union object)
    (value : HostValue) : d.Dereferences object value := by
  rcases setMembers_cases d.name value object.fields with
    ⟨all, set, sets, kept, read⟩ | ⟨before, field, after, failure, split, all, fails, sets⟩
  · have members : object.setIn value = set.map (·.1) := kept.symm
    cases set with
    | nil =>
      have decided : dereference d value = .error (.allNil d.name) := by
        simp only [dereference, union, sets]
      constructor
      · simp [decided, members]
      · simpa [decided, members, eq_comm] using all
      · simp [decided, members]
      · exact Or.inl all
    | cons first others =>
      obtain ⟨field, resolved⟩ := first
      have reads := read _ List.mem_cons_self
      cases others with
      | nil =>
        have decided : dereference d value = .ok (.member field.name field.type resolved) := by
          simp only [dereference, union, sets]
        constructor
        · intro name type other
          rw [decided, members]
          constructor
          · intro same
            cases same
            exact ⟨all, field, rfl, rfl, rfl, reads⟩
          · rintro ⟨-, field', only, rfl, rfl, reads'⟩
            cases only
            rw [reads] at reads'
            cases reads'
            rfl
        · simp [decided, members]
        · simp [decided, members]
        · exact Or.inl all
      | cons second rest =>
        have decided : dereference d value =
            .error (.severalSet d.name (((field, resolved) :: second :: rest).map (·.1.name))) := by
          simp only [dereference, union, sets]
        constructor
        · simp [decided, members]
        · simp [decided, members]
        · intro typeName names
          rw [decided, members]
          constructor
          · intro same
            cases same
            exact ⟨all, by simp, rfl, by simp⟩
          · rintro ⟨-, -, rfl, rfl⟩
            simp
        · exact Or.inl all
  · have unread : ¬∀ field ∈ object.fields, field.Readable value := by
      intro all
      obtain ⟨resolved, reads⟩ := all field (by rw [split]; exact List.mem_append_right _ List.mem_cons_self)
      rw [fails] at reads
      cases reads
    have decided : dereference d value = .error (.ofGetter d.name failure) := by
      simp only [dereference, union, sets]
    constructor
    · simp [decided, unread]
    · cases failure <;> simp [decided, unread, UnionError.ofGetter]
    · cases failure <;> simp [decided, unread, UnionError.ofGetter]
    · exact Or.inr ⟨before, field, after, failure, split, all, fails, decided⟩

/-! ## Which unions are described -/

/-- Fields that can be members are direct, plain data, and can be nil. -/
theorem memberFault_of_checkMembers {typeName : String} {fields : List FieldDescriptor}
    (checked : checkMembers typeName fields = .ok ()) : ∀ field ∈ fields, field.memberFault = none := by
  induction fields with
  | nil => exact List.forall_mem_nil _
  | cons field rest ih =>
    rw [checkMembers] at checked
    split at checked
    · cases checked
    · next none => exact List.forall_mem_cons.2 ⟨none, ih checked⟩

theorem FieldDescriptor.memberFault_eq_none {field : FieldDescriptor} :
    field.memberFault = none ↔ field.path = [] ∧ field.source = .field ∧ field.shape ≠ .value := by
  unfold memberFault depth
  cases field.path with
  | nil => cases field.source <;> simp
  | cons place rest => simp

/-- Where all fields are direct, a type has the fields that it declares. -/
theorem fields_of_promote {typeName : String} {own : List FieldDescriptor} {embeddings : List Embedding}
    {object : ObjectFields} (promoted : promote typeName own embeddings = .ok object)
    (direct : ∀ field ∈ own, field.depth = 0) (all : ∀ field ∈ object.fields, field.depth = 0) : object.fields = own := by
  obtain ⟨made, -⟩ | ⟨_, _, failed, -, -⟩ := promote_cases typeName own embeddings
  · rw [made] at promoted
    cases promoted
    let candidates := own ++ (layOut 0 embeddings).2
    -- nothing is shallower than a direct field
    have least : (unshadowed candidates).filter (·.depth = 0) = candidates.filter (·.depth = 0) := by
      unfold unshadowed
      rw [List.filter_filter]
      refine List.filter_congr fun field _ => ?_
      by_cases here : field.depth = 0 <;> simp [here]
    have embedded : (layOut 0 embeddings).2.filter (·.depth = 0) = [] := by
      rw [List.filter_eq_nil_iff]
      intro field mem
      simpa using Host.depth_ne_zero_of_layOut 0 field mem
    calc unshadowed (byDepth candidates)
      _ = (unshadowed (byDepth candidates)).filter (·.depth = 0) :=
        (List.filter_eq_self.2 fun field mem => by simpa using all field mem).symm
      _ = candidates.filter (·.depth = 0) := (filter_unshadowed_byDepth candidates 0).trans least
      _ = own := by
        rw [List.filter_append, embedded, List.append_nil, List.filter_eq_self]
        intro field mem
        simpa using direct field mem
  · rw [failed] at promoted
    cases promoted

namespace Host

variable {host : Host} {r : Registry} {type : NamedType} {d : TypeDescriptor} {object : ObjectFields}

/-- A union that is described has the fields that its type declares, all of which can be members. -/
structure DeclaresUnion (host : Host) (type : NamedType) (object : ObjectFields) : Prop where
  fields : ∃ id hostType, type = .host id ∧ host.types[id]? = some hostType ∧ hostType.description.isUnion = true ∧
    object.fields = ownFields id hostType.hostName hostType.description
  direct : ∀ field ∈ object.fields, field.path = []
  plain : ∀ field ∈ object.fields, field.source = .field
  nilable : ∀ field ∈ object.fields, field.shape ≠ .value

theorem Makes.declaresUnion (made : host.Makes r d) (union : d.kind = .union object) :
    host.DeclaresUnion d.type object := by
  cases of : d.type with
  | builtin b =>
    cases made with
    | scalar _ => cases union
    | builtin _ => cases union
    | host _ _ _ of' =>
      rw [of'] at of
      cases of
  | host id =>
    obtain ⟨scalar, -, kind⟩ | ⟨-, hostType, known, builds⟩ := made.builds of
    · rw [kind] at union
      cases union
    · rw [union] at builds
      cases builds with
      | union _ declared _ promoted members =>
        have each field mem := FieldDescriptor.memberFault_eq_none.1 (memberFault_of_checkMembers members field mem)
        have direct : ∀ field ∈ object.fields, field.depth = 0 :=
          fun field mem => congrArg List.length (each field mem).1
        have own : ∀ field ∈ ownFields id hostType.hostName hostType.description, field.depth = 0 :=
          fun field mem => congrArg List.length (ownFields_path field mem)
        exact {
          fields := ⟨id, hostType, rfl, known, declared, fields_of_promote promoted own direct⟩
          direct := fun field mem => (each field mem).1
          plain := fun field mem => (each field mem).2.1
          nilable := fun field mem => (each field mem).2.2 }

/-- A union that is described has exactly the fields that it declares, which are direct, plain data and can be nil.
Dereferencing a value of it gives the only field that is set, or fails if none is set or several are, naming these in
order. Values of all other types stay as they are. -/
theorem Reachable.dereferences (reachable : host.Reachable r) (cached : r.find? type = some d) :
    (∀ object, d.kind = .union object → host.DeclaresUnion type object ∧ ∀ value, d.Dereferences object value) ∧
      ((∀ object, d.kind ≠ .union object) → ∀ value, dereference d value = .ok (.unchanged value)) := by
  constructor
  · intro object union
    have declares : ∀ entry ∈ r.descriptors, ∀ object, entry.2.kind = .union object →
        host.DeclaresUnion entry.1 object := reachable.all fun _ _ _ made _ => made.declaresUnion
    exact ⟨declares _ (Entries.mem_of_find? cached) object union, dereferences_of_union union⟩
  · intro other value
    unfold dereference
    split
    · next object union => exact absurd union (other object)
    · rfl

end Host

/-! ## A union of a cat and dogs -/

namespace PetUnion

def pet : HostType :=
  { hostName := "Pet"
    description := {
      isUnion := true
      fields := [⟨"cat", .field, .named (.builtin .string) true, .pointer, {}⟩,
        ⟨"dogs", .field, .list (.named (.builtin .string) false) false, .slice, {}⟩] } }

def host : Host := { builtinName := BuiltinType.scalarName, types := [pet] }

def cat : FieldDescriptor := ⟨"cat", .field, .named (.builtin .string) true, .pointer, {}, 0, "Pet", []⟩

def dogs : FieldDescriptor := ⟨"dogs", .field, .list (.named (.builtin .string) false) false, .slice, {}, 0, "Pet", []⟩

def descriptor : TypeDescriptor := ⟨.host 0, "Pet", none, .union ⟨[], [cat, dogs]⟩⟩

def value (cat dogs : Resolved) : HostValue := .mk 0 .none [("cat", .ok cat), ("dogs", .ok dogs)] []

theorem pet_built : outcome (Host.build Host.lookUp 0 pet) {} = (.ok descriptor, {}) := by
  have promoted : promote "Pet" (Host.ownFields 0 "Pet" pet.description) [] = .ok ⟨[], [cat, dogs]⟩ := by
    have sorted : byDepth [cat, dogs] = [cat, dogs] := by
      simp [byDepth, FieldDescriptor.depth, cat, dogs, List.mergeSort, List.MergeSort.Internal.splitInTwo]
    exact (promote_eq ..).trans (congrArg (keepShallowest "Pet" [] · >>= _) sorted)
  calc outcome (Host.build Host.lookUp 0 pet) {}
    _ = outcome ((do
          let object ← (liftM (promote "Pet" (Host.ownFields 0 "Pet" pet.description) []) : RegistryM ObjectFields)
          let _ ← (liftM (checkMembers "Pet" object.fields) : RegistryM Unit)
          return TypeKind.union object) >>= fun kind => return ⟨.host 0, "Pet", none, kind⟩) {} := by
      with_unfolding_all rfl
    _ = (.ok descriptor, {}) := by
      rw [promoted]
      with_unfolding_all rfl

theorem pet_reachable : host.Reachable (({} : Registry).put descriptor) :=
  .described .empty (.single ⟨descriptor, .host rfl (by decide) pet_built rfl, rfl, rfl, rfl⟩)

/-- A cat with no dogs is a pet; a pet is not both, and not nothing. -/
theorem pet_dereferenced :
    dereference descriptor (value (.string "Tom") (.list [])) = .ok (.member "cat" cat.type (.string "Tom")) ∧
      dereference descriptor (value (.string "Tom") (.list [.string "Rex"])) = .error (.severalSet "Pet" ["cat", "dogs"]) ∧
      dereference descriptor (value .null (.list [])) = .error (.allNil "Pet") := by
  have cached : (({} : Registry).put descriptor).find? (.host 0) = some descriptor := rfl
  obtain ⟨-, dereferences⟩ := (Host.Reachable.dereferences pet_reachable cached).1 _ rfl
  have readable (first second : Resolved) : ∀ field ∈ [cat, dogs], field.Readable (value first second) :=
    List.forall_mem_cons.2 ⟨⟨first, rfl⟩, List.forall_mem_cons.2 ⟨⟨second, rfl⟩, List.forall_mem_nil _⟩⟩
  refine ⟨?_, ?_, ?_⟩
  · exact ((dereferences _).member _ _ _).2 ⟨readable _ _, cat, rfl, rfl, rfl, rfl⟩
  · exact ((dereferences _).severalSet _ _).2 ⟨readable _ _, by decide, rfl, rfl⟩
  · exact ((dereferences _).allNil _).2 ⟨readable _ _, rfl, rfl⟩

end PetUnion

end GraphQL
