import GraphQL.Registry.Descriptor
import GraphQL.Registry.Error

/-!
# Embedding

An embedded type contributes all of its fields, promoted ones included, to the type that embeds it.
`promote` lays the steps of the embedded types one after the other and shifts the paths of their
fields accordingly. Of the fields of one name the shallowest counts, and two at that depth are
ambiguous. `ObjectFields.navigate` walks the path of a field.
-/

namespace GraphQL

/-- An embedding of a described object: the step to it, and its own steps and fields. -/
structure Embedding where
  step : EmbedStep
  object : ObjectFields

namespace Embedding

/-- The steps of an embedding: the one to the embedded value and those inside it. -/
def steps (e : Embedding) : List EmbedStep := e.step :: e.object.steps

/-- The fields of the embedded type as seen from outside, its steps being placed from `start` on. -/
def promoted (e : Embedding) (start : Nat) : List FieldDescriptor :=
  e.object.fields.map fun field => { field with path := start :: field.path.map (· + (start + 1)) }

end Embedding

/-- Steps and fields of all embeddings, each placed after those before it. -/
def layOut (start : Nat) : List Embedding → List EmbedStep × List FieldDescriptor
  | [] => ([], [])
  | e :: rest =>
    let (steps, fields) := layOut (start + e.steps.length) rest
    (e.steps ++ steps, e.promoted start ++ fields)

/-- Keeps the first field of each name of a list in order of depth; a later one of the same depth is an error. -/
def keepShallowest (typeName : String) :
    List FieldDescriptor → List FieldDescriptor → Except RegistrationError (List FieldDescriptor)
  | kept, [] => .ok kept
  | kept, field :: rest =>
    match kept.find? (·.name = field.name) with
    | none => keepShallowest typeName (kept ++ [field]) rest
    | some first =>
      if first.depth = field.depth then
        if field.depth = 0 then .error (.duplicateName typeName "field" field.name)
        else .error (.ambiguousField typeName field.name)
      else keepShallowest typeName kept rest

/-- The fields of a type: its own and those promoted from its embeddings, by depth and then in order
of declaration. -/
def promote (typeName : String) (direct : List FieldDescriptor) (embeddings : List Embedding) :
    Except RegistrationError ObjectFields := do
  let (steps, promoted) := layOut 0 embeddings
  let candidates := (direct ++ promoted).mergeSort fun a b => a.depth ≤ b.depth
  return ⟨steps, ← keepShallowest typeName [] candidates⟩

inductive NavigationError where
  | nilEmbeddedPointer (field embedded : String)
  | unexpectedValue (field embedded : String)
  /-- A place beyond the steps, which no path of a described type has. -/
  | outOfRange (field : String)
deriving DecidableEq, Repr

def NavigationError.message : NavigationError → String
  | nilEmbeddedPointer field embedded => s!"cannot resolve field {field}: nil embedded pointer to {embedded}"
  | unexpectedValue field embedded =>
    s!"cannot resolve field {field}: unexpected value while reaching {embedded}"
  | outOfRange field => s!"cannot resolve field {field}: embedding out of range"

namespace ObjectFields

/-- Follows steps by their places. -/
def walk (object : ObjectFields) (field : String) : List Nat → HostValue → Except NavigationError HostValue
  | [], value => .ok value
  | place :: rest, value =>
    match object.steps[place]? with
    | none => .error (.outOfRange field)
    | some step =>
      match step.follow value with
      | some inner => object.walk field rest inner
      | none =>
        match step.kind with
        | .pointer => .error (.nilEmbeddedPointer field step.typeName)
        | .value => .error (.unexpectedValue field step.typeName)

/-- The value that declares a field, reached from a value of the type that has it. -/
def navigate (object : ObjectFields) (field : FieldDescriptor) (value : HostValue) :
    Except NavigationError HostValue :=
  object.walk field.name field.path value

theorem sizeOf_walk_le {object : ObjectFields} {name : String} {path : List Nat} {value inner : HostValue}
    (h : object.walk name path value = .ok inner) : sizeOf inner ≤ sizeOf value := by
  induction path generalizing value with
  | nil =>
    cases h
    exact Nat.le_refl _
  | cons place rest ih =>
    rw [walk] at h
    split at h
    · cases h
    · split at h
      · next follows =>
        have := EmbedStep.sizeOf_follow_lt follows
        have := ih h
        omega
      · split at h <;> cases h

theorem sizeOf_navigate_le {object : ObjectFields} {field : FieldDescriptor} {value inner : HostValue}
    (h : object.navigate field value = .ok inner) : sizeOf inner ≤ sizeOf value :=
  sizeOf_walk_le h

end ObjectFields

end GraphQL
