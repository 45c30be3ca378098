import GraphQL.Error
import GraphQL.TypeRef

/-!
# Host values

A value of a host type is known by what can be observed of it: its type, the constant or variant that
it holds, what each field getter returns, and the values it embeds. A getter returns a `Resolved`
tree, an error, or panics. Resolved trees are also what resolvers return and what arguments parse to.
-/

namespace GraphQL

/-- What a value holds besides fields. -/
inductive HostContent where
  | none
  /-- The variant of an enumeration. -/
  | variant (name : String)
  /-- The constant of a scalar. -/
  | leaf (c : Const)
deriving Repr

mutual

/-- The output of a resolver or getter, before a selection shapes it. -/
inductive Resolved where
  | null
  | const (c : Const)
  | list (items : List Resolved)
  | map (entries : List (String × Resolved))
  | host (value : HostValue)

inductive HostValue where
  | mk (type : HostId) (content : HostContent) (fields : List (String × Except Failure Resolved))
    (embedded : List (Option HostValue))

end

namespace HostValue

def type : HostValue → HostId
  | mk type .. => type

def content : HostValue → HostContent
  | mk _ content .. => content

/-- What the getters of the value return. -/
def fields : HostValue → Entries (Except Failure Resolved)
  | mk _ _ fields _ => fields

/-- The values that the value embeds; a pointer may be missing. -/
def embedded : HostValue → List (Option HostValue)
  | mk _ _ _ embedded => embedded

/-- The constant that a scalar holds. -/
def leaf (value : HostValue) : Const :=
  match value.content with
  | .leaf c => c
  | _ => .null

/-- What a getter returns; a field that the value does not have is null. -/
def read (value : HostValue) (field : String) : Except Failure Resolved :=
  (Entries.find? field value.fields).getD (.ok .null)

/-! What is read from a value, or embedded in it, is smaller than the value. -/

theorem sizeOf_read_lt {value : HostValue} {field : String} {r : Resolved} (h : value.read field = .ok r) :
    sizeOf r < sizeOf value := by
  obtain ⟨type, content, fields, embedded⟩ := value
  unfold read at h
  cases hf : Entries.find? field fields with
  | none =>
    simp [HostValue.fields, hf] at h
    subst h
    have : 0 < sizeOf fields := by cases fields <;> simp only [List.nil.sizeOf_spec, List.cons.sizeOf_spec] <;> omega
    simp
    omega
  | some reading =>
    simp [HostValue.fields, hf] at h
    subst h
    have := Entries.sizeOf_lt_of_find? hf
    simp at this ⊢
    omega

theorem sizeOf_embedded_lt {value inner : HostValue} {i : Nat} (h : value.embedded[i]? = some (some inner)) :
    sizeOf inner < sizeOf value := by
  obtain ⟨type, content, fields, embedded⟩ := value
  have := List.sizeOf_lt_of_mem (List.mem_of_getElem? h)
  simp [HostValue.embedded] at this ⊢
  omega

end HostValue

namespace Resolved

instance : Inhabited Resolved := ⟨null⟩

/-- The resolved form of an integer. -/
def int (n : Int) : Resolved := const (.int n)

def string (s : String) : Resolved := const (.string s)

def boolean (b : Bool) : Resolved := const (.boolean b)

/-- Nil in the sense of unions: null, or an empty list or map. -/
def isNil : Resolved → Bool
  | null => true
  | list items => items.isEmpty
  | map entries => entries.isEmpty
  | const _ | host _ => false

mutual

/-- The value as JSON: a host value shows its constant, its variant or its fields. -/
def shown : Resolved → Const
  | null => .null
  | const c => c.plain
  | list items => .list (shownItems items)
  | map entries => .object (shownEntries entries)
  | host value => shownHost value

def shownItems : List Resolved → List Const
  | [] => []
  | item :: rest => shown item :: shownItems rest

def shownEntries : List (String × Resolved) → List (String × Const)
  | [] => []
  | (key, value) :: rest => (key, shown value) :: shownEntries rest

def shownHost : HostValue → Const
  | .mk _ (.leaf c) _ _ => c.plain
  | .mk _ (.variant name) _ _ => .string name
  | .mk _ .none fields _ => .object (shownFields fields)

def shownFields : List (String × Except Failure Resolved) → List (String × Const)
  | [] => []
  | (key, reading) :: rest => (key, shownReading reading) :: shownFields rest

def shownReading : Except Failure Resolved → Const
  | .ok value => shown value
  | .error _ => .null

end

end Resolved

end GraphQL
