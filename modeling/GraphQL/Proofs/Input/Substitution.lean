import GraphQL.Proofs.Input.Likeness
import GraphQL.Proofs.Registry.Declared

/-!
# Variables are transparent

A variable in a literal stands for its value: a literal is read under an assignment as the literal in which every
variable is replaced by the value that the assignment gives it, provided that the custom scalars which are met on
the way do not tell literals from variables.
-/

namespace GraphQL

namespace Const

mutual

/-- The constant as a literal. -/
def toValue : Const → Value
  | null => .null
  | number n => .number n
  | string s => .string s
  | boolean b => .boolean b
  | enum name => .enum name
  | list items => .list (toValueItems items)
  | object entries => .object (toValueEntries entries)

def toValueItems : List Const → List Value
  | [] => []
  | item :: rest => toValue item :: toValueItems rest

def toValueEntries : List (String × Const) → List (String × Value)
  | [] => []
  | (key, c) :: rest => (key, toValue c) :: toValueEntries rest

end

theorem toValueItems_eq_map (items : List Const) : toValueItems items = items.map toValue := by
  induction items with
  | nil => rfl
  | cons item rest ih => rw [toValueItems, ih, List.map_cons]

theorem toValueEntries_eq_map (entries : List (String × Const)) :
    toValueEntries entries = entries.map fun entry => (entry.1, entry.2.toValue) := by
  induction entries with
  | nil => rfl
  | cons entry rest ih => rw [toValueEntries, ih, List.map_cons]

mutual

/-- There is nothing to replace in a constant. -/
theorem toConst_toValue (replace : String → Const) : (c : Const) → c.toValue.toConst replace = c
  | null | number _ | string _ | boolean _ | enum _ => rfl
  | list items => congrArg list (toConst_toValueItems replace items)
  | object entries => congrArg object (toConst_toValueEntries replace entries)

theorem toConst_toValueItems (replace : String → Const) :
    (items : List Const) → Value.toConstItems replace (toValueItems items) = items
  | [] => rfl
  | item :: rest => congrArg₂ List.cons (toConst_toValue replace item) (toConst_toValueItems replace rest)

theorem toConst_toValueEntries (replace : String → Const) :
    (entries : List (String × Const)) → Value.toConstEntries replace (toValueEntries entries) = entries
  | [] => rfl
  | (key, c) :: rest =>
    congrArg₂ (fun c rest => (key, c) :: rest) (toConst_toValue replace c) (toConst_toValueEntries replace rest)

end

end Const

namespace Value

mutual

/-- Replaces every variable that has a value by it. -/
def substitute (values : Variables) : Value → Value
  | ref name => ((Entries.find? name values).map (·.toValue)).getD (.ref name)
  | list items => .list (substituteItems values items)
  | object entries => .object (substituteEntries values entries)
  | value => value

def substituteItems (values : Variables) : List Value → List Value
  | [] => []
  | item :: rest => substitute values item :: substituteItems values rest

def substituteEntries (values : Variables) : List (String × Value) → List (String × Value)
  | [] => []
  | (key, value) :: rest => (key, substitute values value) :: substituteEntries values rest

end

theorem substituteItems_eq_map (values : Variables) (items : List Value) :
    substituteItems values items = items.map (substitute values) := by
  induction items with
  | nil => rfl
  | cons item rest ih => rw [substituteItems, ih, List.map_cons]

theorem substituteEntries_eq_map (values : Variables) (entries : List (String × Value)) :
    substituteEntries values entries = entries.map fun entry => (entry.1, entry.2.substitute values) := by
  induction entries with
  | nil => rfl
  | cons entry rest ih => rw [substituteEntries, ih, List.map_cons]

theorem variableNames_subset_items {item : Value} {items : List Value} (mem : item ∈ items) :
    item.variableNames ⊆ variableNamesItems items := by
  induction items with
  | nil => cases mem
  | cons first rest ih =>
    rw [variableNamesItems]
    rcases List.mem_cons.1 mem with rfl | mem
    · exact List.subset_append_left _ _
    · exact List.subset_append_of_subset_right _ (ih mem)

theorem variableNames_subset_entries {entry : String × Value} {entries : List (String × Value)} (mem : entry ∈ entries) :
    entry.2.variableNames ⊆ variableNamesEntries entries := by
  induction entries with
  | nil => cases mem
  | cons first rest ih =>
    rw [variableNamesEntries]
    rcases List.mem_cons.1 mem with rfl | mem
    · exact List.subset_append_left _ _
    · exact List.subset_append_of_subset_right _ (ih mem)

/-- All variables in the value have values. -/
def Assigned (values : Variables) (value : Value) : Prop :=
  ∀ name ∈ value.variableNames, ∃ c, Entries.find? name values = some c

variable {values : Variables}

theorem Assigned.items {items : List Value} (assigned : (list items).Assigned values) :
    ∀ item ∈ items, item.Assigned values :=
  fun _ mem name within => assigned name (variableNames_subset_items mem within)

theorem Assigned.entries {entries : List (String × Value)} (assigned : (object entries).Assigned values) :
    ∀ entry ∈ entries, entry.2.Assigned values :=
  fun _ mem name within => assigned name (variableNames_subset_entries mem within)

mutual

/-- Replacing variables first or last gives the same constant. -/
theorem toConst_substitute (replace : String → Const) :
    (value : Value) → value.Assigned values →
      (value.substitute values).toConst replace = value.toConst fun name => (Entries.find? name values).getD .null
  | null, _ | number _, _ | string _, _ | boolean _, _ | enum _, _ => rfl
  | ref name, assigned => by
    obtain ⟨c, found⟩ := assigned name List.mem_cons_self
    rw [substitute, toConst, found]
    exact c.toConst_toValue replace
  | list items, assigned => congrArg Const.list (toConst_substituteItems replace items assigned.items)
  | object entries, assigned => congrArg Const.object (toConst_substituteEntries replace entries assigned.entries)

theorem toConst_substituteItems (replace : String → Const) :
    (items : List Value) → (∀ item ∈ items, item.Assigned values) →
      toConstItems replace (substituteItems values items) =
        toConstItems (fun name => (Entries.find? name values).getD .null) items
  | [], _ => rfl
  | item :: rest, assigned =>
    congrArg₂ List.cons (toConst_substitute replace item (assigned item List.mem_cons_self))
      (toConst_substituteItems replace rest fun other mem => assigned other (List.mem_cons_of_mem _ mem))

theorem toConst_substituteEntries (replace : String → Const) :
    (entries : List (String × Value)) → (∀ entry ∈ entries, entry.2.Assigned values) →
      toConstEntries replace (substituteEntries values entries) =
        toConstEntries (fun name => (Entries.find? name values).getD .null) entries
  | [], _ => rfl
  | (key, value) :: rest, assigned =>
    congrArg₂ (fun c rest => (key, c) :: rest) (toConst_substitute replace value (assigned _ List.mem_cons_self))
      (toConst_substituteEntries replace rest fun other mem => assigned other (List.mem_cons_of_mem _ mem))

end

end Value

namespace InputValue

variable {values values' : Variables} {value : Value}

/-! ## Literals that are no variables -/

theorem toValue_ne_ref (c : Const) (name : String) : c.toValue ≠ .ref name := by
  cases c <;> exact Value.noConfusion

theorem substitute_ne_ref (whole : ∀ name, value ≠ .ref name) (name : String) : value.substitute values ≠ .ref name := by
  cases value with
  | ref other => exact absurd rfl (whole other)
  | _ => exact Value.noConfusion

theorem resolve_whole (whole : ∀ name, value ≠ .ref name) : (literal value).resolve values = literal value := by
  cases value with
  | ref name => exact absurd rfl (whole name)
  | _ => rfl

theorem toConst?_whole (whole : ∀ name, value ≠ .ref name) :
    (literal value).toConst? values = some (value.toConst fun name => (Entries.find? name values).getD .null) := by
  cases value with
  | ref name => exact absurd rfl (whole name)
  | _ => rfl

theorem toConst?_toValue (c : Const) : (literal c.toValue).toConst? values = some c := by
  rw [toConst?_whole (toValue_ne_ref c), c.toConst_toValue]

/-- Replacing variables leaves the constant as it is. -/
theorem toConst?_substitute (value : Value) (assigned : value.Assigned values) :
    (literal (value.substitute values)).toConst? values' = (literal value).toConst? values := by
  by_cases whole : ∀ name, value ≠ .ref name
  · rw [toConst?_whole (substitute_ne_ref whole), toConst?_whole whole, value.toConst_substitute _ assigned]
  · obtain ⟨name, rfl⟩ := not_forall_not.1 whole
    obtain ⟨c, found⟩ := assigned name List.mem_cons_self
    rw [Value.substitute, toConst?, found]
    exact toConst?_toValue c

theorem toConstFields_substitute {entries : List (String × Value)}
    (assigned : ∀ entry ∈ entries, entry.2.Assigned values) :
    toConstFields values' (entries.map fun entry => (entry.1, literal (entry.2.substitute values))) =
      toConstFields values (entries.map fun entry => (entry.1, literal entry.2)) := by
  induction entries with
  | nil => rfl
  | cons entry rest ih =>
    obtain ⟨first, others⟩ := List.forall_mem_cons.1 assigned
    rw [List.map_cons, List.map_cons, toConstFields, toConstFields, toConst?_substitute _ first, ih others]

/-! ## Replaced values -/

/-- A resolved value, and what it is after the variables in it are replaced. -/
inductive Replaced (values : Variables) : InputValue → InputValue → Prop
  | absent : Replaced values .absent .absent
  | literal {value : Value} (whole : ∀ name, value ≠ .ref name) (assigned : value.Assigned values) :
    Replaced values (.literal value) (.literal (value.substitute values))
  | provided (c : Const) : Replaced values (.provided c) (.literal c.toValue)
  | fields {entries : List (String × Value)} (assigned : ∀ entry ∈ entries, entry.2.Assigned values) :
    Replaced values (.fields (entries.map fun entry => (entry.1, .literal entry.2)))
      (.fields (entries.map fun entry => (entry.1, .literal (entry.2.substitute values))))

theorem replaced_literal (assigned : value.Assigned values) :
    Replaced values ((literal value).resolve values) (literal (value.substitute values)) := by
  by_cases whole : ∀ name, value ≠ .ref name
  · rw [resolve_whole whole]
    exact .literal whole assigned
  · obtain ⟨name, rfl⟩ := not_forall_not.1 whole
    obtain ⟨c, found⟩ := assigned name List.mem_cons_self
    rw [resolve, Value.substitute, found]
    exact .provided c

theorem forall₂_maps {α β γ : Type} {rel : β → γ → Prop} {f : α → β} {g : α → γ} {items : List α}
    (each : ∀ item ∈ items, rel (f item) (g item)) : List.Forall₂ rel (items.map f) (items.map g) := by
  rw [List.forall₂_map_left_iff, List.forall₂_map_right_iff, List.forall₂_same]
  exact each

namespace Replaced

variable {a b : InputValue}

/-- There is nothing to resolve in a value in which the variables are replaced. -/
theorem resolve (replaced : Replaced values a b) : b.resolve values' = b := by
  cases replaced with
  | absent | fields => rfl
  | literal whole _ => exact resolve_whole (substitute_ne_ref whole)
  | provided c => exact resolve_whole (toValue_ne_ref c)

theorem isMissing (replaced : Replaced values a b) : b.isMissing = a.isMissing := by
  cases replaced with
  | absent | fields => rfl
  | @literal value whole _ =>
    cases value with
    | ref name => exact absurd rfl (whole name)
    | _ => rfl
  | provided c => cases c <;> rfl

theorem toConst? (replaced : Replaced values a b) : b.toConst? values' = a.toConst? values := by
  cases replaced with
  | absent => rfl
  | literal _ assigned => exact toConst?_substitute _ assigned
  | provided c => exact toConst?_toValue c
  | fields assigned => exact congrArg (fun entries => some (Const.object entries)) (toConstFields_substitute assigned)

theorem source (replaced : Replaced values a b) : b.source = .literal := by
  cases replaced <;> rfl

/-- The items of a value are replaced one by one. -/
theorem toList (replaced : Replaced values a b) :
    List.Forall₂ (fun item item' => Replaced values (item.resolve values) item') (a.toList values)
      (b.toList values') := by
  cases replaced with
  | absent => exact .nil
  | fields assigned => exact .cons (.fields assigned) .nil
  | @literal value whole assigned =>
    cases value with
    | ref name => exact absurd rfl (whole name)
    | list items =>
      rw [Value.substitute, Value.substituteItems_eq_map]
      change List.Forall₂ _ (items.map InputValue.literal) ((items.map (Value.substitute values)).map InputValue.literal)
      rw [List.map_map]
      exact forall₂_maps fun item mem => replaced_literal (assigned.items item mem)
    | _ => exact .cons (.literal whole assigned) .nil
  | provided c =>
    cases c with
    | list items =>
      rw [Const.toValue, Const.toValueItems_eq_map]
      change List.Forall₂ _ (items.map InputValue.provided) ((items.map Const.toValue).map InputValue.literal)
      rw [List.map_map]
      exact forall₂_maps fun item _ => .provided item
    | _ => exact .cons (.provided _) .nil

/-- The fields of a value are replaced one by one. -/
theorem toFields (replaced : Replaced values a b) :
    (∃ message, a.toFields values = .error message ∧ b.toFields values' = .error message) ∨
      ∃ entries entries', a.toFields values = .ok entries ∧ b.toFields values' = .ok entries' ∧
        Entries.Keyed (fun _ field field' => Replaced values (field.resolve values) field') entries entries' := by
  cases replaced with
  | absent => exact Or.inl ⟨_, rfl, rfl⟩
  | @fields entries assigned =>
    exact Or.inr ⟨_, _, rfl, rfl, forall₂_maps fun entry mem => ⟨rfl, replaced_literal (assigned entry mem)⟩⟩
  | @literal value whole assigned =>
    cases value with
    | ref name => exact absurd rfl (whole name)
    | object entries =>
      refine Or.inr ⟨_, _, rfl, rfl, ?_⟩
      rw [Value.substituteEntries_eq_map, List.map_map]
      exact forall₂_maps fun entry mem => ⟨rfl, replaced_literal (assigned.entries entry mem)⟩
    | _ =>
      exact Or.inl ⟨_, rfl, congrArg (fun c => Except.error (mismatch "input object" c))
        (Value.toConst_substitute _ _ assigned)⟩
  | provided c =>
    cases c with
    | object entries =>
      refine Or.inr ⟨_, _, rfl, rfl, ?_⟩
      rw [Const.toValueEntries_eq_map, List.map_map]
      exact forall₂_maps fun entry _ => ⟨rfl, .provided entry.2⟩
    | _ => exact Or.inl ⟨_, rfl, congrArg (fun c => Except.error (mismatch "input object" c)) (Const.toConst_toValue _ _)⟩

end Replaced

end InputValue

/-! ## What is met while reading -/

/-- Reading a value at a type may lead to a host type. -/
inductive Host.Meets (host : Host) : TypeRef → HostId → Prop
  | here {id : HostId} {nullable : Bool} : Meets host (.named (.host id) nullable) id
  | item {item : TypeRef} {nullable : Bool} {id : HostId} (meets : Meets host item id) :
    Meets host (.list item nullable) id
  | field {outer id : HostId} {nullable : Bool} {name : String} {type : TypeRef}
    (takes : (host.construction outer).Takes name type) (meets : Meets host type id) :
    Meets host (.named (.host outer) nullable) id

/-- The custom scalars among some types read literals as they read the values of variables. -/
def Registry.Uniform (r : Registry) (met : HostId → Prop) : Prop :=
  ∀ id scalar, met id → r.custom? id = some scalar → scalar.parseLiteral = scalar.parseVariable

namespace InputContext

variable {context : InputContext} {r : Registry} {type : TypeRef}

/-- A leaf is read alike if it is the same constant, and a custom scalar does not tell how it was written. -/
theorem readLeaf_replaced {id : HostId} {d : TypeDescriptor} {values : Variables} {a b : InputValue}
    (same : b.toConst? values = a.toConst? context.variableValues)
    (uniform : ∀ scalar, d.kind.custom? = some scalar → scalar.parseLiteral = scalar.parseVariable) :
    (context.assigning values).readLeaf id d b = context.readLeaf id d a := by
  unfold readLeaf parseLeaf
  rw [show (context.assigning values).variableValues = values from rfl, same]
  cases kind : d.kind with
  | scalar scalar =>
    cases scalar with
    | custom scalar =>
      rw [kind] at uniform
      simp only [uniform scalar rfl]
      cases a.source <;> cases b.source <;> rfl
    | _ => rfl
  | _ => rfl

/-- Replaced values look alike where custom scalars do not tell literals from variables. -/
theorem likeness_replaced (context : InputContext) (values : Variables) (met : HostId → Prop) :
    context.Likeness values (·.Uniform met) fun type a b =>
      (∀ id, context.host.Meets type id → met id) ∧
        InputValue.Replaced context.variableValues (a.resolve context.variableValues) b where
  later r r' uniform later id scalar meets found := uniform id scalar meets (later.custom? id ▸ found)
  missing like := by
    rw [like.2.resolve]
    exact like.2.isMissing
  builtin like _ := by
    rw [like.2.resolve]
    exact like.2.toConst?
  items like _ := by
    rw [like.2.resolve]
    exact like.2.toList.imp fun _ _ replaced => ⟨fun id meets => like.1 id (.item meets), replaced⟩
  leaf {id nullable a b r d} like uniform cached _ _ := by
    rw [like.2.resolve]
    refine readLeaf_replaced like.2.toConst? fun scalar custom => uniform id scalar (like.1 id .here) ?_
    rw [Registry.custom?, cached]
    exact custom
  fields like uniform described kind _ := by
    rw [like.2.resolve]
    refine like.2.toFields.imp_right ?_
    rintro ⟨entries, entries', found, found', keyed⟩
    refine ⟨entries, entries', found, found', Construction.alike_of_keyed (fun name type takes => ?_) ?_⟩
    · exact ⟨fun id meets => like.1 id (.field takes meets), .absent⟩
    · exact keyed.imp fun _ _ field => field.imp_right fun replaced type takes =>
        ⟨fun id meets => like.1 id (.field takes meets), replaced⟩

/-- A literal is read under an assignment that has values for its variables as the literal in which each variable
is replaced by its value. -/
theorem variables_transparent {value : Value} (assigned : value.Assigned context.variableValues)
    (uniform : r.Uniform (context.host.Meets type)) (values : Variables) :
    outcome (context.parse type (.literal value)) r =
      outcome ((context.assigning values).parse type (.literal (value.substitute context.variableValues))) r :=
  (likeness_replaced context values _).parse ⟨fun _ meets => meets, InputValue.replaced_literal assigned⟩ r uniform

end InputContext

/-! ## A variable in a list of scalars -/

namespace OrderInput

/-- A scalar that is read alike however it is written. -/
def sku : ScalarDescriptor :=
  { name := "Sku", description := none, type := .host 1, serialize := (·.leaf)
    parseVariable := fun c => .ok (.host (.mk 1 (.leaf c) [] []))
    parseLiteral := fun c => .ok (.host (.mk 1 (.leaf c) [] [])) }

def items : TypeRef := .list (.named (.host 1) false) false

def order : HostType :=
  { hostName := "Order"
    description := { inputFields := [⟨"items", items, {}⟩] }
    construct := .take "items" items fun skus => .done (.ok [("items", skus)]) }

def context : InputContext :=
  { host := { builtinName := BuiltinType.scalarName, types := [order, { hostName := "Sku" }] }
    variableValues := [("sku", .string "a1")] }

def registry : Registry := { scalars := [(.host 1, sku)], scalarNames := [("Sku", .host 1)] }

def type : TypeRef := .named (.host 0) false

def value : Value := .object [("items", .list [.ref "sku", .string "b2"])]

theorem order_transparent : value.Assigned context.variableValues ∧ registry.Uniform (context.host.Meets type) ∧
    outcome (context.parse type (.literal value)) registry =
      outcome ((context.assigning []).parse type
        (.literal (.object [("items", .list [.string "a1", .string "b2"])]))) registry := by
  have assigned : value.Assigned context.variableValues := by
    intro name mem
    cases List.mem_singleton.1 mem
    exact ⟨_, rfl⟩
  have uniform : registry.Uniform (context.host.Meets type) := by
    intro id scalar _ found
    change (if NamedType.host 1 = NamedType.host id then some sku else none) = some scalar at found
    split at found
    · cases found
      rfl
    · cases found
  exact ⟨assigned, uniform, InputContext.variables_transparent assigned uniform []⟩

end OrderInput

/-! ## Arguments -/

namespace InputContext

variable {context : InputContext} {r : Registry}

/-- What parameters are given is replaced. -/
theorem replaced_arguments (operation : OperationDescriptor) {arguments : List (String × Value)} {values : Variables}
    (assigned : ∀ argument ∈ arguments, argument.2.Assigned values) :
    List.Forall₂ (fun part part' => part'.1 = part.1 ∧ InputValue.Replaced values (part.2.resolve values) part'.2)
      (operation.bindArguments arguments)
      (operation.bindArguments (arguments.map fun argument => (argument.1, argument.2.substitute values))) := by
  cases bound : operation.binding with
  | struct type fields =>
    cases none : arguments.isEmpty && type.nullable with
    | true =>
      rw [OperationDescriptor.bindArguments_absent bound none,
        OperationDescriptor.bindArguments_absent bound (by rwa [List.isEmpty_map])]
      exact .cons ⟨rfl, .absent⟩ .nil
    | false =>
      rw [OperationDescriptor.bindArguments_struct bound none,
        OperationDescriptor.bindArguments_struct bound (by rwa [List.isEmpty_map]), Entries.ofList_map, List.map_map]
      exact .cons ⟨rfl, .fields fun argument mem => assigned argument (Entries.mem_of_mem_ofList mem)⟩ .nil
  | arguments params =>
    rw [OperationDescriptor.bindArguments_params bound, OperationDescriptor.bindArguments_params bound]
    refine InputValue.forall₂_maps fun param _ => ⟨rfl, ?_⟩
    rw [Entries.find?_map]
    cases found : Entries.find? param.name arguments with
    | none => exact .absent
    | some value => exact InputValue.replaced_literal (assigned _ (Entries.mem_of_find? found))

/-- Variables are transparent in the arguments of an operation. -/
theorem arguments_transparent {operation : OperationDescriptor} {arguments : List (String × Value)}
    (assigned : ∀ argument ∈ arguments, argument.2.Assigned context.variableValues)
    (uniform : r.Uniform fun id => ∃ part ∈ operation.bindArguments arguments, context.host.Meets part.1 id)
    (values : Variables) :
    outcome (operation.parseArguments context arguments) r =
      outcome (operation.parseArguments (context.assigning values)
        (arguments.map fun argument => (argument.1, argument.2.substitute context.variableValues))) r := by
  have replaced := replaced_arguments operation assigned
  refine (likeness_replaced context values _).arguments ?_ r uniform
  exact ((List.forall₂_and_left _ _).2 ⟨fun _ mem => mem, replaced⟩).imp fun part part' bound =>
    ⟨bound.2.1, fun id meets => ⟨part, bound.1, meets⟩, bound.2.2⟩

end InputContext

end GraphQL
