import GraphQL.Host.Value

/-!
# Value templates

A template is a constant that describes what host code returns. Constants stand for themselves, and
objects for what their tag says, which is their first entry: a value of a host type, a map, an argument,
a failure or a panic. `Template.value` resolves a template; a failure counts only where host code may
return one, and is null elsewhere. A template is read as a whole before any of it is resolved, so a tag
that nobody knows anywhere in it is a panic of the code that returns it (`Template.check`).
-/

namespace GraphQL.Script

/-- What a template may refer to. -/
structure TemplateScope where
  /-- The labels of the host types, in order. -/
  labels : List String
  /-- Whether a field of a host type may return an error. -/
  mayFail : HostId → String → Bool
  arguments : List Resolved := []
  cancelled : Bool := false
  /-- The message of a panic about an unknown tag. -/
  unknownTag : String → String

namespace Template

/-- The tags of templates. -/
def tags : List String :=
  ["id", "map", "hashmap", "const", "enum", "float", "f32", "i64", "dyn", "arc", "fail", "panic", "arg", "show",
    "cancelled"]

/-- The tag of an object and its operand: the tag of host types wherever it stands, or the first entry. -/
def operand? (entries : List (String × Const)) : Option (String × Const) :=
  match Entries.find? "$" entries with
  | some label => some ("$", label)
  | none => entries.head?

/-- A fraction written as a number or by name; infinite ones and what is no number have none. -/
def double? : Const → Option Double
  | .number n => some n.toDouble
  | .string "-0" => some (Double.zero true)
  | _ => none

/-- The resolved form of a fraction. -/
def ofDouble : Option Double → Resolved
  | some x => .const (.number (.double x))
  | none => .null

/-- The resolved form of a constant that stands for itself. -/
def plain : Const → Resolved
  | .null => .null
  | c => .const c

/-- The message of a panic; one that carries no text is unknown. -/
def panicMessage (template : Const) (message : Const) : String :=
  if template.text? "payload" = some "other" then "unknown panic" else message.string?.getD ""

/-- The error that a template fails with, if it is one that fails. -/
def failure? (template : Const) : Option HostError :=
  match operand? template.entries with
  | some ("fail", message) =>
    some { message := message.string?.getD "", extensions := ((template.get? "extensions").map (·.entries)).getD [] }
  | _ => none

/-- What a value of a host type holds. -/
def content (template : Const) : HostContent :=
  match template.get? "leaf", template.text? "variant" with
  | some c, _ => .leaf c
  | none, some name => .variant name
  | none, none => .none

/-- The values of entries, or the first failure. -/
def sequence : Entries (Except Failure Resolved) → Except Failure (Entries Resolved)
  | [] => .ok []
  | (key, value) :: rest => do return (key, ← value) :: (← sequence rest)

/-- The arguments as JSON text. -/
def shownArguments (arguments : List Resolved) : String := (Const.list (arguments.map Resolved.shown)).json

theorem sizeOf_get?_lt {c value : Const} {key : String} (h : c.get? key = some value) : sizeOf value < sizeOf c := by
  cases c with
  | object entries =>
    have := Entries.sizeOf_lt_of_find? h
    simp [Const.entries] at this ⊢
    omega
  | _ => simp [Const.get?, Const.entries, Entries.find?] at h

theorem sizeOf_operand?_lt {entries : List (String × Const)} {tag : String} {c : Const}
    (h : operand? entries = some (tag, c)) : sizeOf c < sizeOf entries := by
  unfold operand? at h
  split at h
  · next found =>
    cases h
    exact Entries.sizeOf_lt_of_find? found
  · have := List.sizeOf_lt_of_mem (List.mem_of_head? h)
    simp at this
    omega

theorem sizeOf_lt_of_mem_items {c item : Const} (h : item ∈ c.items) : sizeOf item < sizeOf c := by
  cases c with
  | list items =>
    have := List.sizeOf_lt_of_mem h
    simp [Const.items] at this ⊢
    omega
  | _ => simp [Const.items] at h

theorem sizeOf_lt_of_mem_entries {c value : Const} {key : String} (h : (key, value) ∈ c.entries) :
    sizeOf value < sizeOf c := by
  cases c with
  | object entries =>
    have := List.sizeOf_lt_of_mem h
    simp [Const.entries] at this ⊢
    omega
  | _ => simp [Const.entries] at h

/-- The templates that a template holds. -/
def parts : Const → List Const
  | .list items => items
  | .object entries =>
    match operand? entries with
    | some ("$", _) =>
      let fields := ((Entries.find? "fields" entries).map (·.entries)).getD []
      fields.map (·.2) ++ ((Entries.find? "embeds" entries).map (·.items)).getD []
    | some ("map", operand) | some ("hashmap", operand) => operand.items.flatMap fun pair => pair.items.drop 1
    | some ("dyn", operand) => operand.items.drop 1
    | some ("arc", operand) => [operand]
    | _ => []
  | _ => []

theorem sizeOf_lt_of_mem_parts {template part : Const} (h : part ∈ parts template) :
    sizeOf part < sizeOf template := by
  unfold parts at h
  split at h
  · have := List.sizeOf_lt_of_mem h
    simp
    omega
  · next entries =>
    have lt_of_operand {tag : String} {operand : Const} (ho : operand? entries = some (tag, operand)) :
        sizeOf operand < sizeOf (Const.object entries) := by
      have := sizeOf_operand?_lt ho
      simp
      omega
    have lt_of_pair {tag : String} {operand : Const} (ho : operand? entries = some (tag, operand))
        (h : part ∈ operand.items.flatMap fun pair => pair.items.drop 1) :
        sizeOf part < sizeOf (Const.object entries) := by
      obtain ⟨pair, hp, hq⟩ := List.mem_flatMap.1 h
      have := sizeOf_lt_of_mem_items (List.mem_of_mem_drop hq)
      have := sizeOf_lt_of_mem_items hp
      have := lt_of_operand ho
      omega
    split at h
    · simp only [List.mem_append, List.mem_map] at h
      rcases h with ⟨⟨name, field⟩, hf, rfl⟩ | he
      · cases hc : Entries.find? "fields" entries with
        | none => simp [hc] at hf
        | some fields =>
          rw [hc] at hf
          have := sizeOf_lt_of_mem_entries (c := fields) (by simpa using hf)
          have := Entries.sizeOf_lt_of_find? hc
          simp
          omega
      · cases hc : Entries.find? "embeds" entries with
        | none => simp [hc] at he
        | some embeds =>
          rw [hc] at he
          have := sizeOf_lt_of_mem_items (c := embeds) (by simpa using he)
          have := Entries.sizeOf_lt_of_find? hc
          simp
          omega
    · exact lt_of_pair ‹_› h
    · exact lt_of_pair ‹_› h
    · have := sizeOf_lt_of_mem_items (List.mem_of_mem_drop h)
      have := lt_of_operand ‹_›
      omega
    · simp only [List.mem_singleton] at h
      exact h ▸ lt_of_operand ‹_›
    · simp at h
  · simp at h

/-- The tag of a template if nobody knows it. -/
def foreignTag? (template : Const) : Option String :=
  match operand? template.entries with
  | some (tag, _) => if tag = "$" || tags.contains tag then none else some tag
  | none => none

/-- The first unknown tag in a template. -/
def unknownTag? (template : Const) : Option String :=
  (foreignTag? template).or ((parts template).attach.findSome? fun ⟨part, _⟩ => unknownTag? part)
termination_by sizeOf template
decreasing_by exact sizeOf_lt_of_mem_parts ‹_›

/-- Panics about an unknown tag in a template. -/
def check (scope : TemplateScope) (template : Const) : Except Failure Unit :=
  match unknownTag? template with
  | some tag => .error (.panic (scope.unknownTag tag))
  | none => .ok ()

/-- Reads the pairs of a map, given how a value is resolved. -/
def pairs (pairs : Const) (value : (template : Const) → sizeOf template < sizeOf pairs → Except Failure Resolved) :
    Entries (Except Failure Resolved) :=
  pairs.items.attach.foldl (fun all ⟨pair, hp⟩ =>
    match pair, hp with
    | .list [.string key, template], hp =>
      Entries.insert key (value template (by
        have := sizeOf_lt_of_mem_items hp
        simp at this
        omega)) all
    | _, _ => all) []

/-- The members of a value of a host type, given how a template is resolved. -/
def hostValue (scope : TemplateScope) (id : HostId) (template : Const)
    (value : (inner : Const) → sizeOf inner < sizeOf template → Except Failure Resolved) : HostValue :=
  let fields : Entries (Except Failure Resolved) :=
    match hf : template.get? "fields" with
    | some fields =>
      fields.entries.attach.map fun ⟨(name, field), h⟩ =>
        let reading := value field (Nat.lt_trans (sizeOf_lt_of_mem_entries h) (sizeOf_get?_lt hf))
        match failure? field with
        | some e => (name, if scope.mayFail id name then .error (.error e) else reading)
        | none => (name, reading)
    | none => []
  let embedded : List (Option HostValue) :=
    match he : template.get? "embeds" with
    | some embeds =>
      embeds.items.attach.map fun ⟨inner, h⟩ =>
        match value inner (Nat.lt_trans (sizeOf_lt_of_mem_items h) (sizeOf_get?_lt he)) with
        | .ok (.host found) => some found
        | _ => none
    | none => []
  .mk id (content template) fields embedded

/-- What a tag makes of its operand, given how a template is resolved. -/
def tagged (scope : TemplateScope) (template : Const) (tag : String) (operand : Const)
    (lt : sizeOf operand < sizeOf template)
    (value : (inner : Const) → sizeOf inner < sizeOf template → Except Failure Resolved) : Except Failure Resolved :=
  let entries := pairs operand fun inner h => value inner (Nat.lt_trans h lt)
  match tag with
  | "$" =>
    match operand.string?.bind scope.labels.idxOf? with
    | some id => .ok (.host (hostValue scope id template value))
    | none => .ok .null
  | "id" => .ok (plain operand)
  | "map" => (sequence entries).map .map
  | "hashmap" => (sequence (entries.mergeSort fun a b => a.1 ≤ b.1)).map .map
  | "const" => .ok (.const operand)
  | "enum" => .ok (.const (.enum (operand.string?.getD "")))
  | "float" => .ok (ofDouble (double? operand))
  | "f32" => .ok (ofDouble ((double? operand).bind (·.toSingle)))
  | "i64" => .ok (plain operand)
  | "dyn" =>
    match h : operand.items with
    | [_, inner] =>
      value inner (Nat.lt_trans (sizeOf_lt_of_mem_items (c := operand) (by rw [h]; simp)) lt)
    | _ => .ok .null
  | "arc" => value operand lt
  | "panic" => .error (.panic (panicMessage template operand))
  | "arg" => .ok ((operand.integer?.bind fun i => scope.arguments[i.toNat]?).getD .null)
  | "show" => .ok (.string (shownArguments scope.arguments))
  | "cancelled" => .ok (.boolean scope.cancelled)
  | _ => .ok .null

/-- Resolves a template; a failure is null. -/
def value (scope : TemplateScope) (template : Const) : Except Failure Resolved :=
  match template with
  | .list items => do return .list (← items.attach.mapM fun ⟨item, _⟩ => value scope item)
  | .object entries =>
    match h : operand? entries with
    | some (tag, operand) =>
      tagged scope (.object entries) tag operand
        (by
          have := sizeOf_operand?_lt h
          simp
          omega)
        fun inner _ => value scope inner
    | none => .ok .null
  | other => .ok (plain other)
termination_by sizeOf template
decreasing_by
  · have := List.sizeOf_lt_of_mem ‹_›
    simp
    omega
  · assumption

/-- Resolves a template where host code may fail. -/
def result (scope : TemplateScope) (template : Const) : Except Failure Resolved :=
  match failure? template with
  | some e => .error (.error e)
  | none => do
    check scope template
    value scope template

/-- The value of a template that does not panic. -/
def valueOrNull (scope : TemplateScope) (template : Const) : Resolved :=
  match value scope template with
  | .ok resolved => resolved
  | .error _ => .null

end Template

end GraphQL.Script
