import GraphQL.Input
import GraphQL.Registry

/-!
# Reading input values

`InputContext.parse` reads an input value at a type: nullable types accept what is missing, a single
value stands for a list of one, and host types are read as their descriptor says. An input object is
built by the construction of its type, whose fields are read in the order in which it takes them; a
field left over is an error. Every value of a host type is validated, after the values it contains.
-/

namespace GraphQL

/-- Computations that read input: they may fail, and describe types on the way. -/
abbrev InputM := ExceptT Failure (StateM Registry)

/-- A description while input is read; its error is reported like any other. -/
def RegistryM.inInput {α : Type} (x : RegistryM α) : InputM α := ExceptT.adapt (fun e => .message e.message) x

/-- An error with a message alone. -/
def InputM.fail {α : Type} (message : String) : InputM α := throw (.message message)

namespace BuiltinType

/-- The integers of the type, if it is one of integers. -/
def range : BuiltinType → Int × Int
  | int32 => (-(Nat.pow 2 31 : Nat), (Nat.pow 2 31 : Nat) - 1)
  | uint32 => (0, (Nat.pow 2 32 : Nat) - 1)
  | _ => (minInteger, maxInt64)

/-- Reads an integer within the range of the type. -/
def parseInteger (type : BuiltinType) (n : Number) : Except Failure Resolved :=
  match n.toInt64? with
  | some i =>
    if type.range.1 ≤ i && i ≤ type.range.2 then .ok (.int i)
    else .error (.message s!"{n.text} is out of range for type Int")
  | none => .error (.message s!"{n.text} is out of range for type Int")

/-- Reads a constant that is not null. -/
def parseConst (type : BuiltinType) (c : Const) : Except Failure Resolved :=
  match type, c with
  | .string, .string s => .ok (.string s)
  | .boolean, .boolean b => .ok (.boolean b)
  | .int32, .number n | .int64, .number n | .uint32, .number n => type.parseInteger n
  | .float64, .number n => .ok (.const (.number (.double n.toDouble)))
  | .float32, .number n =>
    match n.toDouble.toSingle with
    | some x => .ok (.const (.number (.double x)))
    | none => .ok .null
  | .id, .string s => .ok (.string s)
  | .id, .number (.integer n) => .ok (.string (toString n))
  | _, _ => .error (.message (InputValue.mismatch type.scalarName c))

/-- Reads a constant that may be missing. -/
def parse (type : BuiltinType) : Option Const → Except Failure Resolved
  | none | some .null => .error (.message s!"expected a value of type {type.scalarName}, found null")
  | some c => type.parseConst c

end BuiltinType

/-- What input values are read with. -/
structure InputContext where
  host : Host
  variableValues : Variables

/-- A value of the enumeration's type for a name of one of its values. -/
def parseEnum (id : HostId) (typeName : String) (values : List EnumValue) (c : Const) : Except Failure Resolved :=
  let named (name : String) : Except Failure Resolved :=
    match values.find? (·.name = name) with
    | some value => .ok (.host (.mk id (.variant value.variant) [] []))
    | none => .error (.message s!"enum {typeName} has no value {name}")
  match c with
  | .enum name | .string name => named name
  | other => .error (.message (InputValue.mismatch typeName other))

/-- The value of a scalar's or enumeration's type that a parser produced. -/
def expectType (id : HostId) (typeName : String) (parsed : Resolved) : Except Failure HostValue :=
  match parsed with
  | .host value =>
    if value.type = id then .ok value
    else .error (.message s!"parser of {typeName} produced a value of another type")
  | _ => .error (.message s!"parser of {typeName} produced a value of another type")

/-- Reads a value that is not missing at a host type other than an input object. -/
def parseLeaf (context : InputContext) (id : HostId) (descriptor : TypeDescriptor) (value : InputValue) :
    Except Failure Resolved :=
  let c := (value.toConst? context.variableValues).getD .null
  match descriptor.kind with
  | .scalar (.custom scalar) =>
    match value.source with
    | .literal => scalar.parseLiteral c
    | .variable => scalar.parseVariable c
  | .scalar (.host codec) => codec.parse c
  | .enum values => parseEnum id descriptor.name values c
  | _ => .error (.message (descriptor.name ++ " cannot be used as an input type"))

/-- Entries whose values all weigh less than a bound. -/
abbrev LighterFields (values : Variables) (bound : Nat) :=
  { entries : List (String × InputValue) // ∀ field ∈ entries, field.2.weight values < bound }

namespace LighterFields

variable {values : Variables} {bound : Nat}

theorem weight_take (fields : LighterFields values bound) (name : String) (h : 0 < bound) :
    ((Entries.find? name fields.1).getD .absent).weight values < bound := by
  obtain ⟨entries, light⟩ := fields
  induction entries with
  | nil => simpa [Entries.find?, InputValue.weight] using h
  | cons entry rest ih =>
    by_cases hk : entry.1 = name
    · simpa [Entries.find?, hk] using light entry List.mem_cons_self
    · simpa [Entries.find?, hk] using ih fun field hf => light field (List.mem_cons_of_mem _ hf)

theorem mem_of_mem_erase {α : Type} {name : String} {entry : String × α} {entries : List (String × α)}
    (h : entry ∈ Entries.erase name entries) : entry ∈ entries := by
  induction entries with
  | nil => simp [Entries.erase] at h
  | cons first rest ih =>
    rw [Entries.erase] at h
    split at h
    · exact List.mem_cons_of_mem _ h
    · rcases List.mem_cons.1 h with rfl | h
      · exact List.mem_cons_self
      · exact List.mem_cons_of_mem _ (ih h)

def erase (fields : LighterFields values bound) (name : String) : LighterFields values bound :=
  ⟨Entries.erase name fields.1, fun field hf => fields.2 field (mem_of_mem_erase hf)⟩

end LighterFields

/-- Runs a construction on the fields of an input object, given how a field is read. Returns the fields
of the value and the fields that were not taken. -/
def Construction.run {values : Variables} {bound : Nat} (typeName : String) (pos : 0 < bound)
    (parse : TypeRef → (value : InputValue) → value.weight values < bound → InputM Resolved) :
    Construction → LighterFields values bound → InputM (Entries Resolved × List String)
  | .done (.ok built), fields => return (built, Entries.keys fields.1)
  | .done (.error failure), _ => throw failure
  | .take name type next, fields => do
    let field ← parse type ((Entries.find? name fields.1).getD .absent) (fields.weight_take name pos)
    (next field).run typeName pos parse (fields.erase name)
  | .ifGiven name next, fields => (next (Entries.contains name fields.1)).run typeName pos parse fields
  | .typeName next, fields => (next typeName).run typeName pos parse fields

/-- The fields of an input object as the fields of a host value. -/
def inputObject (id : HostId) (fields : Entries Resolved) : HostValue :=
  .mk id .none (fields.map fun (name, value) => (name, .ok value)) []

/-- The validation hook of a type. -/
def Host.validate (host : Host) (id : HostId) (value : HostValue) : Except Failure Unit :=
  match host.types[id]? with
  | some type => type.validate value
  | none => .ok ()

/-- The construction of a type. -/
def Host.construction (host : Host) (id : HostId) : Construction :=
  match host.types[id]? with
  | some type => type.construct
  | none => .unavailable

namespace InputContext

/-- Reads a value that is resolved and not missing as an input object, given how a field is read. -/
def parseObject (context : InputContext) (id : HostId) (typeName : String) (value : InputValue)
    (parse : TypeRef → (field : InputValue) → field.weight context.variableValues < value.weight context.variableValues →
      InputM Resolved) : InputM HostValue :=
  match h : value.toFields context.variableValues with
  | .error message => InputM.fail message
  | .ok entries => do
    let fields : LighterFields context.variableValues (value.weight context.variableValues) :=
      ⟨entries, fun _ hf => InputValue.weight_lt_of_mem_toFields h hf⟩
    let (built, left) ← (context.host.construction id).run typeName (InputValue.weight_pos_of_toFields h) parse fields
    match left with
    | name :: _ => InputM.fail s!"unknown field {name} for input object {typeName}"
    | [] => return inputObject id built

/-- Reads a value that is resolved at a host type, given how a field of an input object is read. -/
def parseHost (context : InputContext) (id : HostId) (value : InputValue)
    (parse : TypeRef → (field : InputValue) → field.weight context.variableValues < value.weight context.variableValues →
      InputM Resolved) : InputM Resolved := do
  let descriptor ← (context.host.describe (.host id)).inInput
  if value.isMissing then InputM.fail s!"expected a value of type {descriptor.name}, found null"
  else
    let parsed ← match descriptor.kind with
      | .inputObject _ => context.parseObject id descriptor.name value parse
      | _ => do expectType id descriptor.name (← parseLeaf context id descriptor value)
    context.host.validate id parsed
    return .host parsed

/-- Reads each item of a list with its place in it. -/
def parseItems {value : InputValue} (context : InputContext)
    (parse : (item : InputValue) → item ∈ value.toList context.variableValues → InputM Resolved) :
    InputM (List Resolved) :=
  (value.toList context.variableValues).attach.mapM fun ⟨item, h⟩ => parse item h

/-- Reads an input value at a type. -/
def parse (context : InputContext) (type : TypeRef) (value : InputValue) : InputM Resolved :=
  let resolved := value.resolve context.variableValues
  if type.nullable && resolved.isMissing then return .null
  else
    match type with
    | .named (.builtin builtin) _ => builtin.parse (resolved.toConst? context.variableValues)
    | .named (.host id) _ => context.parseHost id resolved fun type field _ => context.parse type field
    | .list item _ =>
      if resolved.isMissing then InputM.fail "expected a list, found null"
      else do return .list (← context.parseItems fun (entry : InputValue) (_ : entry ∈ resolved.toList _) =>
        context.parse item entry)
    | .map .. => InputM.fail "a map cannot be used as an input type"
termination_by (value.weight context.variableValues, type.depth)
decreasing_by
  · next h =>
    rw [InputValue.weight_resolve] at h
    exact Prod.Lex.left _ _ h
  · next h =>
    have := InputValue.weight_le_of_mem_toList h
    rw [InputValue.weight_resolve] at this
    rcases Nat.lt_or_eq_of_le this with lt | eq
    · exact Prod.Lex.left _ _ lt
    · rw [eq]
      exact Prod.Lex.right _ (by simp [TypeRef.depth])

end InputContext

end GraphQL
