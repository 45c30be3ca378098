import GraphQL.Proofs.Execution.Answers

/-!
# The keys of objects

The keys of a response object are the response keys of the fields that its selection has for its
concrete type, in the order of the selection, and they differ. `Subject.Holds` says which host value
stands at a path of the response: the one that the getters on the way return.
-/

namespace GraphQL

/-- The concrete type of a value: the declared type if it is an object, and the type of the value itself
if it implements a declared interface. -/
inductive Registry.ConcreteType (r : Registry) (type : NamedType) (value : HostValue) : NamedType → Prop
  | object {d : TypeDescriptor} {object : ObjectFields} (known : r.find? type = some d)
    (kind : d.kind = .object object) : ConcreteType r type value type
  | interface {d : TypeDescriptor} {shape : InterfaceShape} (known : r.find? type = some d)
    (kind : d.kind = .interface shape) (implements : value.type ∈ shape.implementors) :
    ConcreteType r type value (.host value.type)

theorem Registry.Concrete.type {r : Registry} {type : NamedType} {value : HostValue} {d : TypeDescriptor}
    (is : r.Concrete type value d) (consistent : r.Consistent) : r.ConcreteType type value d.type := by
  cases is with
  | object known kind =>
    rw [consistent.find? known]
    exact .object known kind
  | interface known kind implements of =>
    rw [consistent.find? of]
    exact .interface known kind implements

/-- A subject holds a host value at a path: the field that selects on the value, and its concrete type. -/
inductive Subject.Holds (x : Execution) (r : Registry) : Subject → ErrorPath → FieldPlan → HostValue → NamedType → Prop
  | here {field : FieldPlan} {type concrete : NamedType} {nullable : Bool} {value : HostValue}
    (is : r.ConcreteType type value concrete) :
    Holds x r (.value field (.named type nullable) (.host value)) [] field value concrete
  | item {field f : FieldPlan} {item : TypeRef} {nullable : Bool} {items : List Resolved} {i : Nat}
    {entry : Resolved} {path : ErrorPath} {value : HostValue} {concrete : NamedType} (at' : items[i]? = some entry)
    (inner : Holds x r (.value field item entry) path f value concrete) :
    Holds x r (.value field (.list item nullable) (.list items)) (.index i :: path) f value concrete
  | member {field f : FieldPlan} {type concrete : NamedType} {nullable : Bool} {union value : HostValue}
    {d : TypeDescriptor} {name : String} {memberType : TypeRef} {set : Resolved} {path : ErrorPath}
    (known : r.find? type = some d) (only : dereference d union = .ok (.member name memberType set))
    (inner : Holds x r (.value field memberType set) path f value concrete) :
    Holds x r (.value field (.named type nullable) (.host union)) path f value concrete
  | entry {field g f : FieldPlan} {type concrete : NamedType} {nullable : Bool} {owner value : HostValue}
    {d : TypeDescriptor} {path : ErrorPath} (is : r.Concrete type owner d)
    (selected : g ∈ x.selected field.selection (some d.type))
    (inner : Holds x r (.field g d owner) path f value concrete) :
    Holds x r (.value field (.named type nullable) (.host owner)) (.key g.responseKey :: path) f value concrete
  | read {field f : FieldPlan} {d : TypeDescriptor} {owner whole value : HostValue} {object : ObjectFields}
    {declared : FieldDescriptor} {resolved : Resolved} {path : ErrorPath} {concrete : NamedType}
    (reads : field.Reads d object declared) (reached : object.navigate declared owner = .ok whole)
    (got : declared.read whole = .ok resolved)
    (inner : Holds x r (.value field declared.type resolved) path f value concrete) :
    Holds x r (.field field d owner) path f value concrete
  | resolved {field f : FieldPlan} {resolved : Resolved} {path : ErrorPath} {value : HostValue} {concrete : NamedType}
    (inner : Holds x r (.value field field.type resolved) path f value concrete) :
    Holds x r (.root field) path f value concrete
  | response {g f : FieldPlan} {path : ErrorPath} {value : HostValue} {concrete : NamedType}
    (selected : g ∈ x.selected x.plan.selection none) (inner : Holds x r (.root g) path f value concrete) :
    Holds x r .response (.key g.responseKey :: path) f value concrete

namespace Execution

/-- The entries of an object have the response keys of the fields that a selection has for a concrete
type, in their order, and no key twice. -/
structure KeyedBy (x : Execution) (selection : List FieldPlan) (concrete : Option NamedType)
    (entries : List (String × ResponseValue)) : Prop where
  keys : Entries.keys entries = (x.selected selection concrete).map (·.responseKey)
  distinct : (Entries.keys entries).Nodup

/-- The object at a path is the response as a whole, or is built by the selection of a field for the
concrete type of the value that stands there. -/
def BuildsAt (x : Execution) (r : Registry) (subject : Subject) (path : ErrorPath)
    (entries : List (String × ResponseValue)) : Prop :=
  (subject = .response ∧ path = [] ∧ x.KeyedBy x.plan.selection none entries) ∨
    ∃ field value concrete, subject.Holds x r path field value concrete ∧
      x.KeyedBy field.selection (some concrete) entries

end Execution

variable {x : Execution} {r : Registry}

theorem Execution.BuildsAt.inner {subject : Subject} {path : ErrorPath} {entries : List (String × ResponseValue)}
    (builds : x.BuildsAt r subject path entries) (inner : subject ≠ .response) :
    ∃ field value concrete, subject.Holds x r path field value concrete ∧
      x.KeyedBy field.selection (some concrete) entries :=
  builds.resolve_left fun whole => inner whole.1

end GraphQL
