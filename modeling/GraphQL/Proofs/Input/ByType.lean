import GraphQL.Input.Arguments
import GraphQL.Proofs.Registry.Growth

/-!
# Parsing, type by type

`InputContext.parse` is one recursion over values and types. The equations here say what it comes to at each
form of a type, so that proofs about it go from one form to the next and never open the recursion.
-/

namespace GraphQL

/-- The items of a value weigh no more than it, and come at a smaller type. -/
theorem InputValue.lex_toList {values : Variables} {value item : InputValue}
    (mem : item ∈ (value.resolve values).toList values) {depth depth' : Nat} (smaller : depth < depth') :
    Prod.Lex (· < ·) (· < ·) (item.weight values, depth) (value.weight values, depth') := by
  have light := weight_le_of_mem_toList mem
  rw [weight_resolve] at light
  rcases Nat.lt_or_eq_of_le light with lt | eq
  · exact Prod.Lex.left _ _ lt
  · rw [eq]
    exact Prod.Lex.right _ smaller

namespace InputContext

variable {context : InputContext} {value : InputValue} {nullable : Bool}

/-- The value does not count as null at a type that is nullable or not. -/
def Given (context : InputContext) (nullable : Bool) (value : InputValue) : Prop :=
  (nullable && (value.resolve context.variableValues).isMissing) = false

theorem parse_null {type : TypeRef}
    (missing : (type.nullable && (value.resolve context.variableValues).isMissing) = true) :
    context.parse type value = pure .null := by
  rw [parse.eq_def]
  simp only [missing, if_true]

theorem parse_builtin (given : context.Given nullable value) (builtin : BuiltinType) :
    context.parse (.named (.builtin builtin) nullable) value =
      liftM (builtin.parse ((value.resolve context.variableValues).toConst? context.variableValues)) := by
  rw [parse.eq_def]
  have given' : ((TypeRef.named (.builtin builtin) nullable).nullable &&
    (value.resolve context.variableValues).isMissing) = false := given
  simp only [given', Bool.false_eq_true, if_false]

theorem parse_map (given : context.Given nullable value) (item : TypeRef) :
    context.parse (.map item nullable) value = InputM.fail "a map cannot be used as an input type" := by
  rw [parse.eq_def]
  have given' : ((TypeRef.map item nullable).nullable &&
    (value.resolve context.variableValues).isMissing) = false := given
  simp only [given', Bool.false_eq_true, if_false]

/-! ## Lists -/

theorem mapM_attach {α β : Type} (items : List α) (f : α → InputM β) :
    (items.attach.mapM fun entry => f entry.1) = items.mapM f := by
  conv => rhs; rw [← List.attach_map_subtype_val items, List.mapM_map]
  rfl

theorem parse_list (given : (value.resolve context.variableValues).isMissing = false) (item : TypeRef) :
    context.parse (.list item nullable) value =
      Resolved.list <$> ((value.resolve context.variableValues).toList context.variableValues).mapM
        (context.parse item) := by
  rw [parse.eq_def]
  simp only [given, Bool.and_false, Bool.false_eq_true, if_false]
  rw [← mapM_attach]
  rfl

theorem parse_noList (missing : (value.resolve context.variableValues).isMissing = true) (item : TypeRef) :
    context.parse (.list item false) value = InputM.fail "expected a list, found null" := by
  rw [parse.eq_def]
  simp only [TypeRef.nullable, missing, Bool.false_and, Bool.false_eq_true, if_false, if_true]

/-! ## Host types -/

/-- Reads a value that is resolved at a host type that is described. -/
def parseDescribed (context : InputContext) (id : HostId) (d : TypeDescriptor) (value : InputValue)
    (parse : TypeRef → (field : InputValue) → field.weight context.variableValues < value.weight context.variableValues →
      InputM Resolved) : InputM Resolved := do
  if value.isMissing then InputM.fail s!"expected a value of type {d.name}, found null"
  else
    let parsed ← match d.kind with
      | .inputObject _ => context.parseObject id d.name value parse
      | _ => do expectType id d.name (← parseLeaf context id d value)
    context.host.validate id parsed
    return .host parsed

/-- Reads a value that is not missing at a host type other than an input object. -/
def readLeaf (context : InputContext) (id : HostId) (d : TypeDescriptor) (value : InputValue) :
    Except Failure HostValue :=
  parseLeaf context id d value >>= expectType id d.name

variable {id : HostId} {d : TypeDescriptor}

theorem parse_host (given : context.Given nullable value) (id : HostId) :
    context.parse (.named (.host id) nullable) value =
      (context.host.describe (.host id)).inInput >>= fun d =>
        context.parseDescribed id d (value.resolve context.variableValues) fun type field _ =>
          context.parse type field := by
  rw [parse.eq_def]
  have given' : ((TypeRef.named (.host id) nullable).nullable &&
    (value.resolve context.variableValues).isMissing) = false := given
  simp only [given', Bool.false_eq_true, if_false]
  rfl

section

variable {parse : TypeRef → (field : InputValue) →
  field.weight context.variableValues < value.weight context.variableValues → InputM Resolved}

theorem parseDescribed_missing (missing : value.isMissing = true) :
    context.parseDescribed id d value parse = InputM.fail s!"expected a value of type {d.name}, found null" := by
  unfold parseDescribed
  rw [if_pos missing]

theorem parseDescribed_leaf (given : value.isMissing = false) (leaf : ∀ fields, d.kind ≠ .inputObject fields) :
    context.parseDescribed id d value parse = do
      let read ← liftM (context.readLeaf id d value)
      context.host.validate id read
      return .host read := by
  unfold parseDescribed readLeaf
  rw [given]
  cases kind : d.kind with
  | inputObject fields => exact absurd kind (leaf fields)
  | _ => cases parseLeaf context id d value <;> rfl

/-- What is read at a host type is checked last. -/
theorem outcome_checked (read : Except Failure HostValue) (check : HostValue → Except Failure Unit) (s : Registry) :
    outcome (do
      let v ← (liftM read : InputM HostValue)
      liftM (check v)
      return Resolved.host v) s = (read >>= fun v => check v >>= fun _ => .ok (.host v), s) := by
  rw [outcome_bind, outcome_lift]
  cases read with
  | error failure => rfl
  | ok v =>
    change outcome (liftM (check v) >>= fun _ => pure (Resolved.host v)) s = _
    rw [outcome_bind, outcome_lift]
    change _ = (check v >>= fun _ => Except.ok (Resolved.host v), s)
    cases check v <;> rfl

theorem parseDescribed_object (given : value.isMissing = false) {declared : List TypedItem}
    (kind : d.kind = .inputObject declared) :
    context.parseDescribed id d value parse = do
      let read ← context.parseObject id d.name value parse
      context.host.validate id read
      return .host read := by
  unfold parseDescribed
  rw [given, kind]
  rfl

theorem parseObject_none {typeName message : String} (none : value.toFields context.variableValues = .error message) :
    context.parseObject id typeName value parse = InputM.fail message := by
  unfold parseObject
  split
  · next failed =>
    cases none.symm.trans failed
    rfl
  · next found => cases none.symm.trans found

/-- The value of an input object whose fields are built, unless a field is left over. -/
def objectOf (id : HostId) (typeName : String) : Entries Resolved × List String → Except Failure HostValue
  | (built, []) => .ok (inputObject id built)
  | (_, name :: _) => .error (.message s!"unknown field {name} for input object {typeName}")

theorem parseObject_some {typeName : String} {entries : List (String × InputValue)}
    (found : value.toFields context.variableValues = .ok entries) :
    context.parseObject id typeName value parse =
      (context.host.construction id).run typeName (InputValue.weight_pos_of_toFields found) parse
        ⟨entries, fun _ mem => InputValue.weight_lt_of_mem_toFields found mem⟩ >>= fun taken =>
          liftM (objectOf id typeName taken) := by
  unfold parseObject
  split
  · next failed => cases found.symm.trans failed
  · next entries' found' =>
    cases found.symm.trans found'
    refine congrArg (bind _) (funext fun taken => ?_)
    obtain ⟨built, left⟩ := taken
    cases left <;> rfl

end

end InputContext

/-! ## Arguments -/

namespace OperationDescriptor

variable {operation : OperationDescriptor} {arguments : List (String × Value)}

theorem bindArguments_absent {type : TypeRef} {fields : List String} (bound : operation.binding = .struct type fields)
    (none : (arguments.isEmpty && type.nullable) = true) : operation.bindArguments arguments = [(type, .absent)] := by
  unfold bindArguments
  rw [bound]
  exact if_pos none

theorem bindArguments_struct {type : TypeRef} {fields : List String} (bound : operation.binding = .struct type fields)
    (some : (arguments.isEmpty && type.nullable) = false) :
    operation.bindArguments arguments =
      [(type, .fields ((Entries.ofList arguments).map fun argument => (argument.1, .literal argument.2)))] := by
  rw [← Entries.ofList_map]
  unfold bindArguments
  rw [bound]
  exact if_neg (Bool.eq_false_iff.1 some)

theorem bindArguments_params {params : List Param} (bound : operation.binding = .arguments params) :
    operation.bindArguments arguments =
      params.map fun param => (param.type, ((Entries.find? param.name arguments).map .literal).getD .absent) := by
  unfold bindArguments
  rw [bound]
  refine List.map_congr_left fun param _ => ?_
  cases Entries.find? param.name arguments <;> rfl

end OperationDescriptor

end GraphQL
