import GraphQL.Document
import GraphQL.Error

/-!
# Input values

An input value is what an argument or a field of an input object is given, before it is read at a
type. It remembers where it was written: a literal stands in the document and may refer to variables,
a provided value comes from a variable. Unwrapping keeps that distinction, because custom scalars read
the two differently. A variable without a value counts as absent where it stands alone and as null
inside a literal.
-/

namespace GraphQL

inductive InputValue where
  | absent
  | literal (value : Value)
  /-- The value of a variable. -/
  | provided (c : Const)
  /-- Arguments that make up a single input object. -/
  | fields (entries : List (String × InputValue))
deriving Repr

inductive ValueSource where
  | literal
  | variable
deriving DecidableEq, Repr

def ValueSource.text : ValueSource → String
  | .literal => "literal"
  | .variable => "variable"

namespace InputValue

/-- Replaces a variable by its value, or by nothing if it has none. -/
def resolve (values : Variables) : InputValue → InputValue
  | literal (.ref name) =>
    match Entries.find? name values with
    | some c => provided c
    | none => absent
  | value => value

def source : InputValue → ValueSource
  | provided _ => .variable
  | _ => .literal

/-- Absent or null. -/
def isMissing : InputValue → Bool
  | absent | literal .null | provided .null => true
  | _ => false

mutual

/-- The value as a constant, or `none` when it is absent. -/
def toConst? (values : Variables) : InputValue → Option Const
  | absent => none
  | literal (.ref name) => Entries.find? name values
  | literal value => some (value.toConst fun name => (Entries.find? name values).getD .null)
  | provided c => some c
  | fields entries => some (.object (toConstFields values entries))

/-- The entries that are not absent. -/
def toConstFields (values : Variables) : List (String × InputValue) → List (String × Const)
  | [] => []
  | (name, value) :: rest =>
    match toConst? values value with
    | some c => (name, c) :: toConstFields values rest
    | none => toConstFields values rest

end

/-- The items of a list; any other value that is not absent is a list of one. -/
def toList (values : Variables) (value : InputValue) : List InputValue :=
  match value.resolve values with
  | absent => []
  | literal (.list items) => items.map literal
  | provided (.list items) => items.map provided
  | other => [other]

/-- The message for a value of the wrong type. -/
def mismatch (expected : String) (found : Const) : String :=
  s!"expected a value of type {expected}, found {found.text}"

/-- The entries of an input object, or the message that it is none. -/
def toFields (values : Variables) (value : InputValue) : Except String (List (String × InputValue)) :=
  match value.resolve values with
  | fields entries => .ok entries
  | literal (.object entries) => .ok (entries.map fun (name, value) => (name, literal value))
  | provided (.object entries) => .ok (entries.map fun (name, value) => (name, provided value))
  | other =>
    match other.toConst? values with
    | some c => .error (mismatch "input object" c)
    | none => .error "expected an input object, found null"

end InputValue

/-! ## Weight

The weight of an input value counts its constants once all variables are replaced. Whatever is taken
out of a value weighs no more than it, and the fields of an object weigh less. -/

namespace Const

mutual

def weight : Const → Nat
  | list items => 1 + weightItems items
  | object entries => 1 + weightEntries entries
  | _ => 1

def weightItems : List Const → Nat
  | [] => 0
  | item :: rest => weight item + weightItems rest

def weightEntries : List (String × Const) → Nat
  | [] => 0
  | (_, value) :: rest => weight value + weightEntries rest

end

theorem weight_le_weightItems {item : Const} {items : List Const} (h : item ∈ items) :
    item.weight ≤ weightItems items := by
  induction items with
  | nil => simp at h
  | cons first rest ih =>
    rw [weightItems]
    rcases List.mem_cons.1 h with rfl | h
    · omega
    · have := ih h
      omega

theorem weight_le_weightEntries {name : String} {value : Const} {entries : List (String × Const)}
    (h : (name, value) ∈ entries) : value.weight ≤ weightEntries entries := by
  induction entries with
  | nil => simp at h
  | cons first rest ih =>
    obtain ⟨_, other⟩ := first
    rw [weightEntries]
    rcases List.mem_cons.1 h with h | h
    · cases h
      omega
    · have := ih h
      omega

end Const

namespace Value

mutual

def weight (values : Variables) : Value → Nat
  | list items => 1 + weightItems values items
  | object entries => 1 + weightEntries values entries
  | ref name => ((Entries.find? name values).map (·.weight)).getD 0
  | _ => 1

def weightItems (values : Variables) : List Value → Nat
  | [] => 0
  | item :: rest => weight values item + weightItems values rest

def weightEntries (values : Variables) : List (String × Value) → Nat
  | [] => 0
  | (_, value) :: rest => weight values value + weightEntries values rest

end

theorem weight_le_weightItems {values : Variables} {item : Value} {items : List Value} (h : item ∈ items) :
    item.weight values ≤ weightItems values items := by
  induction items with
  | nil => simp at h
  | cons first rest ih =>
    rw [weightItems]
    rcases List.mem_cons.1 h with rfl | h
    · omega
    · have := ih h
      omega

theorem weight_le_weightEntries {values : Variables} {name : String} {value : Value}
    {entries : List (String × Value)} (h : (name, value) ∈ entries) :
    value.weight values ≤ weightEntries values entries := by
  induction entries with
  | nil => simp at h
  | cons first rest ih =>
    obtain ⟨_, other⟩ := first
    rw [weightEntries]
    rcases List.mem_cons.1 h with h | h
    · cases h
      omega
    · have := ih h
      omega

end Value

namespace InputValue

mutual

def weight (values : Variables) : InputValue → Nat
  | absent => 0
  | literal value => value.weight values
  | provided c => c.weight
  | fields entries => 1 + weightEntries values entries

def weightEntries (values : Variables) : List (String × InputValue) → Nat
  | [] => 0
  | (_, value) :: rest => weight values value + weightEntries values rest

end

variable {values : Variables}

theorem weight_le_weightEntries {name : String} {value : InputValue} {entries : List (String × InputValue)}
    (h : (name, value) ∈ entries) : value.weight values ≤ weightEntries values entries := by
  induction entries with
  | nil => simp at h
  | cons first rest ih =>
    obtain ⟨_, other⟩ := first
    rw [weightEntries]
    rcases List.mem_cons.1 h with h | h
    · cases h
      omega
    · have := ih h
      omega

theorem weight_resolve (value : InputValue) : (value.resolve values).weight values = value.weight values := by
  unfold resolve
  split
  · split <;> simp [weight, Value.weight, *]
  · rfl

theorem weight_le_of_mem_toList {value item : InputValue} (h : item ∈ value.toList values) :
    item.weight values ≤ value.weight values := by
  rw [← weight_resolve value]
  unfold toList at h
  split at h
  · simp at h
  · next items eq =>
    obtain ⟨v, hv, rfl⟩ := List.mem_map.1 h
    rw [eq, weight, weight, Value.weight]
    have : v.weight values ≤ _ := Value.weight_le_weightItems hv
    omega
  · next items eq =>
    obtain ⟨c, hc, rfl⟩ := List.mem_map.1 h
    rw [eq, weight, weight, Const.weight]
    have := Const.weight_le_weightItems hc
    omega
  · simp only [List.mem_singleton] at h
    exact Nat.le_of_eq (by rw [h])

theorem weight_lt_of_mem_toFields {value field : InputValue} {name : String} {entries : List (String × InputValue)}
    (he : value.toFields values = .ok entries) (h : (name, field) ∈ entries) :
    field.weight values < value.weight values := by
  rw [← weight_resolve value]
  unfold toFields at he
  split at he
  · next eq =>
    cases he
    rw [eq, weight]
    have : field.weight values ≤ _ := weight_le_weightEntries h
    omega
  · next eq =>
    cases he
    obtain ⟨⟨n, v⟩, hv, heq⟩ := List.mem_map.1 h
    cases heq
    rw [eq, weight, weight, Value.weight]
    have : v.weight values ≤ _ := Value.weight_le_weightEntries hv
    omega
  · next eq =>
    cases he
    obtain ⟨⟨n, v⟩, hv, heq⟩ := List.mem_map.1 h
    cases heq
    rw [eq, weight, weight, Const.weight]
    have := Const.weight_le_weightEntries hv
    omega
  · split at he <;> cases he

theorem weight_pos_of_toFields {value : InputValue} {entries : List (String × InputValue)}
    (he : value.toFields values = .ok entries) : 0 < value.weight values := by
  rw [← weight_resolve value]
  unfold toFields at he
  split at he
  · next eq =>
    rw [eq, weight]
    omega
  · next eq =>
    rw [eq, weight, Value.weight]
    omega
  · next eq =>
    rw [eq, weight, Const.weight]
    omega
  · split at he <;> cases he

end InputValue

end GraphQL
