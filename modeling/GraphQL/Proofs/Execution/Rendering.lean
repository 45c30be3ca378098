import GraphQL.Execution.Completion
import GraphQL.Proofs.Execution.Effects

/-!
# What a response shows

`Renders` relates what is completed, a resolver's value or a field of an object, to the value that the
response has for it and to the errors it leaves, given the types of a registry. It is the meaning of a
response without the order in which things happen: nothing in it mentions the state of an execution.
`complete_yields` is the link between the two, and what is true of every response is proved from
`Renders` by induction.
-/

namespace GraphQL

/-- What a part of a response stands for. -/
inductive Subject where
  /-- The data of the response as a whole. -/
  | response
  /-- A root field. -/
  | root (field : FieldPlan)
  /-- A value that is completed at a type for a field. -/
  | value (field : FieldPlan) (type : TypeRef) (value : Resolved)
  /-- A field of an object that has a concrete type. -/
  | field (field : FieldPlan) (concrete : TypeDescriptor) (value : HostValue)

namespace Registry

/-- Maps, scalars and enums. -/
inductive IsLeaf (r : Registry) : TypeRef → Prop
  | map (value : TypeRef) (nullable : Bool) : IsLeaf r (.map value nullable)
  | builtin (type : BuiltinType) (nullable : Bool) : IsLeaf r (.named (.builtin type) nullable)
  | named {type : NamedType} {d : TypeDescriptor} (nullable : Bool) (known : r.find? type = some d)
    (leaf : d.isLeaf = true) : IsLeaf r (.named type nullable)

/-- The concrete type of a value at a type: the type itself if it is an object, and for an interface that
the type of the value implements, the latter. -/
inductive Concrete (r : Registry) (type : NamedType) (value : HostValue) : TypeDescriptor → Prop
  | object {d : TypeDescriptor} {object : ObjectFields} (known : r.find? type = some d)
    (kind : d.kind = .object object) : Concrete r type value d
  | interface {d concrete : TypeDescriptor} {shape : InterfaceShape} (known : r.find? type = some d)
    (kind : d.kind = .interface shape) (implements : value.type ∈ shape.implementors)
    (of : r.find? (.host value.type) = some concrete) : Concrete r type value concrete

end Registry

/-- The declared field that a field of a plan reads on an object of a concrete type. -/
inductive FieldPlan.Reads (field : FieldPlan) (concrete : TypeDescriptor) : ObjectFields → FieldDescriptor → Prop
  | objectField {owner : TypeDescriptor} {index : Nat} {object : ObjectFields} {declared : FieldDescriptor}
    (target : field.target = .objectField owner index) (has : owner.objectFields? = some object)
    (at' : object.fields[index]? = some declared) : Reads field concrete object declared
  | interfaceField {object : ObjectFields} {declared : FieldDescriptor} (target : field.target = .interfaceField)
    (has : concrete.objectFields? = some object) (named : object.find? field.name = some declared) :
    Reads field concrete object declared

/-- The value at a path: response keys lead into objects, indices into lists. -/
def ResponseValue.follow : ResponseValue → ErrorPath → Option ResponseValue
  | v, [] => some v
  | .object fields, .key name :: rest => (Entries.find? name fields).bind fun v => v.follow rest
  | .list items, .index i :: rest => items[i]?.bind fun v => v.follow rest
  | _, _ :: _ => none

/-- The entries of an object: the values of some fields under their response keys. -/
def keyed (fields : List FieldPlan) (values : List ResponseValue) : List (String × ResponseValue) :=
  fields.zipWith (fun field value => (field.responseKey, value)) values

theorem eq_keyed {fields : List FieldPlan} {entries : List (String × ResponseValue)}
    (count : entries.length = fields.length)
    (keys : ∀ (i : Nat) f entry, fields[i]? = some f → entries[i]? = some entry → entry.1 = f.responseKey) :
    entries = keyed fields (entries.map (·.2)) := by
  induction fields generalizing entries with
  | nil => rw [List.eq_nil_of_length_eq_zero count, keyed, List.zipWith_nil_left]
  | cons f rest ih =>
    cases entries with
    | nil => cases count
    | cons entry more =>
      obtain ⟨key, v⟩ := entry
      have first : key = f.responseKey := keys 0 f (key, v) rfl rfl
      have others := ih (Nat.succ.inj count) fun i f entry hf he => keys (i + 1) f entry hf he
      rw [List.map_cons, keyed, List.zipWith_cons_cons, ← first, ← keyed, ← others]

theorem find?_keyed {fields : List FieldPlan} {values : List ResponseValue}
    (different : (fields.map (·.responseKey)).Nodup) {i : Nat} {f : FieldPlan} {v : ResponseValue}
    (hf : fields[i]? = some f) (hv : values[i]? = some v) :
    Entries.find? f.responseKey (keyed fields values) = some v := by
  induction fields generalizing values i with
  | nil => simp at hf
  | cons first rest ih =>
    cases values with
    | nil => simp at hv
    | cons w more =>
      obtain ⟨fresh, different⟩ := List.nodup_cons.1 different
      rw [keyed, List.zipWith_cons_cons, Entries.find?]
      cases i with
      | zero =>
        cases hf
        cases hv
        exact if_pos rfl
      | succ i =>
        have ne : first.responseKey ≠ f.responseKey := fun same =>
          fresh (List.mem_map.2 ⟨f, List.mem_of_getElem? hf, same.symm⟩)
        rw [if_neg ne]
        exact ih different hf hv

/-- What the response has at a path for a subject, and the errors there and below in their order. Root
fields may finish in any order, so the errors of a whole response are known up to theirs. -/
inductive Renders (x : Execution) (r : Registry) : Subject → ErrorPath → ResponseValue → List ResponseError → Prop
  | failed {subject : Subject} {path : ErrorPath} {e : ResponseError} (inner : subject ≠ .response)
    (placed : e.path = some path) : Renders x r subject path .null [e]
  | null {field : FieldPlan} {type : TypeRef} {path : ErrorPath} :
    Renders x r (.value field type .null) path .null []
  | leaf {field : FieldPlan} {type : TypeRef} {value : Resolved} {path : ErrorPath} {c : Const}
    (kind : r.IsLeaf type) : Renders x r (.value field type value) path (.const c) []
  | list {field : FieldPlan} {item : TypeRef} {nullable : Bool} {items : List Resolved} {path : ErrorPath}
    {values : List ResponseValue} {errors : List (List ResponseError)}
    (results : values.length = (x.limits.keepItems items).length)
    (counts : errors.length = (x.limits.keepItems items).length)
    (each : ∀ (i : Nat) value v es, (x.limits.keepItems items)[i]? = some value → values[i]? = some v →
      errors[i]? = some es → Renders x r (.value field item value) (path.index i) v es) :
    Renders x r (.value field (.list item nullable) (.list items)) path (.list values) errors.flatten
  | member {field : FieldPlan} {type : NamedType} {nullable : Bool} {value : HostValue} {path : ErrorPath}
    {d : TypeDescriptor} {name : String} {memberType : TypeRef} {set : Resolved} {v : ResponseValue}
    {es : List ResponseError} (known : r.find? type = some d)
    (only : dereference d value = .ok (.member name memberType set))
    (inner : Renders x r (.value field memberType set) path v es) :
    Renders x r (.value field (.named type nullable) (.host value)) path v es
  | object {field : FieldPlan} {type : NamedType} {nullable : Bool} {value : HostValue} {path : ErrorPath}
    {concrete : TypeDescriptor} {fields : List FieldPlan} {values : List ResponseValue}
    {errors : List (List ResponseError)} (is : r.Concrete type value concrete)
    (selected : x.collect field.selection (some concrete.type) = .ok fields)
    (results : values.length = fields.length) (counts : errors.length = fields.length)
    (each : ∀ (i : Nat) f v es, fields[i]? = some f → values[i]? = some v → errors[i]? = some es →
      Renders x r (.field f concrete value) (path.field f.responseKey) v es) :
    Renders x r (.value field (.named type nullable) (.host value)) path (.object (keyed fields values)) errors.flatten
  | typename {field : FieldPlan} {concrete : TypeDescriptor} {value : HostValue} {path : ErrorPath}
    (target : field.target = .typename) :
    Renders x r (.field field concrete value) path (.const (.string concrete.name)) []
  | read {field : FieldPlan} {concrete : TypeDescriptor} {value owner : HostValue} {path : ErrorPath}
    {object : ObjectFields} {declared : FieldDescriptor} {resolved : Resolved} {v : ResponseValue}
    {es : List ResponseError} (reads : field.Reads concrete object declared)
    (reached : object.navigate declared value = .ok owner) (got : declared.read owner = .ok resolved)
    (inner : Renders x r (.value field declared.type resolved) path v es) :
    Renders x r (.field field concrete value) path v es
  | rootTypename {field : FieldPlan} {path : ErrorPath} (target : field.target = .typename) :
    Renders x r (.root field) path (.const (.string x.plan.kind.rootTypeName)) []
  | resolved {field : FieldPlan} {value : Resolved} {path : ErrorPath} {v : ResponseValue}
    {es : List ResponseError} (inner : Renders x r (.value field field.type value) path v es) :
    Renders x r (.root field) path v es
  | response {fields : List FieldPlan} {values : List ResponseValue} {errors : List (List ResponseError)}
    {all : List ResponseError} (selected : x.collect x.plan.selection none = .ok fields)
    (results : values.length = fields.length) (counts : errors.length = fields.length)
    (each : ∀ (i : Nat) f v es, fields[i]? = some f → values[i]? = some v → errors[i]? = some es →
      Renders x r (.root f) (ErrorPath.root f.responseKey) v es)
    (any : all.Perm errors.flatten) : Renders x r .response [] (.object (keyed fields values)) all

section

variable {host : Host} {r r' : Registry}

theorem Registry.IsLeaf.later {type : TypeRef} (leaf : r.IsLeaf type) (after : host.Later r r') :
    r'.IsLeaf type := by
  cases leaf with
  | map value nullable => exact .map value nullable
  | builtin type nullable => exact .builtin type nullable
  | named nullable known leaf => exact .named nullable (after.find? known) leaf

theorem Registry.Concrete.later {type : NamedType} {value : HostValue} {concrete : TypeDescriptor}
    (is : r.Concrete type value concrete) (after : host.Later r r') : r'.Concrete type value concrete := by
  cases is with
  | object known kind => exact .object (after.find? known) kind
  | interface known kind implements of => exact .interface (after.find? known) kind implements (after.find? of)

/-- What a response shows does not change as types are described. -/
theorem Renders.later {x : Execution} {subject : Subject} {path : ErrorPath} {v : ResponseValue}
    {es : List ResponseError} (shown : Renders x r subject path v es) (after : host.Later r r') :
    Renders x r' subject path v es := by
  induction shown with
  | failed inner placed => exact .failed inner placed
  | null => exact .null
  | leaf kind => exact .leaf (kind.later after)
  | list results counts _ ih => exact .list results counts ih
  | member known only _ ih => exact .member (after.find? known) only ih
  | object is selected results counts _ ih => exact .object (is.later after) selected results counts ih
  | typename target => exact .typename target
  | read reads reached got _ ih => exact .read reads reached got ih
  | rootTypename target => exact .rootTypename target
  | resolved _ ih => exact .resolved ih
  | response selected results counts _ any ih => exact .response selected results counts ih any

end

end GraphQL
