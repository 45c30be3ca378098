import GraphQL.Plan
import GraphQL.Proofs.Input.Reading
import GraphQL.Proofs.Input.Substitution

/-!
# Where a value comes from

A custom scalar reads a value one way if it is written in the document and another way if it comes from a variable.
`OperationDescriptor.Stands` says which of the two a value is by the place at which it stands in the arguments, and
`InputContext.Reaches` follows the reading of arguments down to a place. `OperationDescriptor.parsed_by_source` says
that what is reached at a custom scalar is parsed as what stands there.
-/

namespace GraphQL

/-- A step into a value: to an item of a list, or to an entry of an object. The entries of
a name are counted among themselves. -/
inductive PartStep where
  | item (i : Nat)
  | entry (name : String) (i : Nat)
deriving DecidableEq, Repr

/-! ## What stands at a place

A value that is no list has itself as its only item, because it may be read as a list. -/

/-- A part of a constant stands at a place below it. -/
inductive Const.At : Const → List PartStep → Const → Prop
  | here {c : Const} : At c [] c
  | item {items : List Const} {i : Nat} {c part : Const} {place : List PartStep} (found : items[i]? = some c)
    (below : At c place part) : At (.list items) (.item i :: place) part
  | single {c part : Const} {place : List PartStep} (single : ∀ items, c ≠ .list items) (below : At c place part) :
    At c (.item 0 :: place) part
  | entry {entries : List (String × Const)} {name : String} {i : Nat} {c part : Const} {place : List PartStep}
    (found : (Entries.valuesOf name entries)[i]? = some c) (below : At c place part) :
    At (.object entries) (.entry name i :: place) part

/-- The request gives a variable a value: it provides it, or the variable has it as its default. -/
def Plan.Gives (plan : Plan) (provided : Variables) (name : String) (c : Const) : Prop :=
  (name, c) ∈ provided ∨ ∃ d ∈ plan.variableDefinitions, d.name = name ∧ d.default = some c

section

variable (plan : Plan) (provided values : Variables)

/-- At a place below a value that the document writes stands a constant. It is a literal if the document writes it
there, also if it has variables in it, and comes from a variable if a variable is written there or further up. -/
inductive Value.Stands : Value → List PartStep → ValueSource → Const → Prop
  | written {value : Value} (literal : ∀ name, value ≠ .ref name) :
    Stands value [] .literal (value.toConst fun name => (Entries.find? name values).getD .null)
  | assigned {name : String} {c part : Const} {place : List PartStep} (has : Entries.find? name values = some c)
    (gives : plan.Gives provided name c) (below : c.At place part) : Stands (.ref name) place .variable part
  | item {items : List Value} {i : Nat} {value : Value} {place : List PartStep} {source : ValueSource} {c : Const}
    (found : items[i]? = some value) (below : Stands value place source c) :
    Stands (.list items) (.item i :: place) source c
  | single {value : Value} {place : List PartStep} {source : ValueSource} {c : Const}
    (literal : ∀ name, value ≠ .ref name) (single : ∀ items, value ≠ .list items)
    (below : Stands value place source c) : Stands value (.item 0 :: place) source c
  | entry {entries : List (String × Value)} {name : String} {i : Nat} {value : Value} {place : List PartStep}
    {source : ValueSource} {c : Const} (found : (Entries.valuesOf name entries)[i]? = some value)
    (below : Stands value place source c) : Stands (.object entries) (.entry name i :: place) source c

/-- The same for an input value, which may also be the arguments of a field as a whole. -/
inductive InputValue.Stands : InputValue → List PartStep → ValueSource → Const → Prop
  | literal {value : Value} {place : List PartStep} {source : ValueSource} {c : Const}
    (below : value.Stands plan provided values place source c) : Stands (.literal value) place source c
  | provided {c part : Const} {place : List PartStep} (below : c.At place part) :
    Stands (.provided c) place .variable part
  | whole {entries : List (String × InputValue)} :
    Stands (.fields entries) [] .literal (.object (toConstFields values entries))
  | single {entries : List (String × InputValue)} {place : List PartStep} {source : ValueSource} {c : Const}
    (below : Stands (.fields entries) place source c) : Stands (.fields entries) (.item 0 :: place) source c
  | entry {entries : List (String × InputValue)} {name : String} {i : Nat} {value : InputValue} {place : List PartStep}
    {source : ValueSource} {c : Const} (found : (Entries.valuesOf name entries)[i]? = some value)
    (below : Stands value place source c) : Stands (.fields entries) (.entry name i :: place) source c

/-- The same for the parameters of an operation, given the arguments that the document writes. In struct mode the
arguments as a whole are a literal, whatever is in them. -/
inductive OperationDescriptor.Stands (operation : OperationDescriptor) (arguments : List (String × Value)) :
    Nat → List PartStep → ValueSource → Const → Prop
  | argument {params : List Param} {i : Nat} {param : Param} {value : Value} {place : List PartStep}
    {source : ValueSource} {c : Const} (binding : operation.binding = .arguments params) (found : params[i]? = some param)
    (written : Entries.find? param.name arguments = some value) (below : value.Stands plan provided values place source c) :
    Stands operation arguments i place source c
  | whole {type : TypeRef} {fields : List String} (binding : operation.binding = .struct type fields) :
    Stands operation arguments 0 [] .literal
      (.object (InputValue.toConstFields values
        ((Entries.ofList arguments).map fun argument => (argument.1, .literal argument.2))))
  | single {type : TypeRef} {fields : List String} {place : List PartStep} {source : ValueSource} {c : Const}
    (binding : operation.binding = .struct type fields) (below : Stands operation arguments 0 place source c) :
    Stands operation arguments 0 (.item 0 :: place) source c
  | entry {type : TypeRef} {fields : List String} {name : String} {i : Nat} {value : Value} {place : List PartStep}
    {source : ValueSource} {c : Const} (binding : operation.binding = .struct type fields)
    (written : (Entries.valuesOf name (Entries.ofList arguments))[i]? = some value)
    (below : value.Stands plan provided values place source c) :
    Stands operation arguments 0 (.entry name i :: place) source c

end

/-! Only one constant stands at a place, and it has one source. -/

theorem Const.At.unique {c part part' : Const} {place : List PartStep} (here : c.At place part) (here' : c.At place part') :
    part = part' := by
  induction here with
  | here =>
    cases here'
    rfl
  | item found _ ih =>
    cases here' with
    | item found' below' =>
      cases found.symm.trans found'
      exact ih below'
    | single single => exact absurd rfl (single _)
  | single single _ ih =>
    cases here' with
    | item => exact absurd rfl (single _)
    | single _ below' => exact ih below'
  | entry found _ ih =>
    cases here' with
    | entry found' below' =>
      cases found.symm.trans found'
      exact ih below'

section

variable {plan : Plan} {provided values : Variables} {place : List PartStep} {source source' : ValueSource} {c c' : Const}

theorem Value.Stands.unique {value : Value} (stands : value.Stands plan provided values place source c)
    (stands' : value.Stands plan provided values place source' c') : source = source' ∧ c = c' := by
  induction stands with
  | written literal =>
    cases stands' with
    | written => exact ⟨rfl, rfl⟩
    | assigned => exact absurd rfl (literal _)
  | assigned has _ below =>
    cases stands' with
    | written literal => exact absurd rfl (literal _)
    | assigned has' _ below' =>
      cases has.symm.trans has'
      exact ⟨rfl, below.unique below'⟩
    | single literal => exact absurd rfl (literal _)
  | item found _ ih =>
    cases stands' with
    | item found' below' =>
      cases found.symm.trans found'
      exact ih below'
    | single _ single => exact absurd rfl (single _)
  | single literal single _ ih =>
    cases stands' with
    | assigned => exact absurd rfl (literal _)
    | item => exact absurd rfl (single _)
    | single _ _ below' => exact ih below'
  | entry found _ ih =>
    cases stands' with
    | entry found' below' =>
      cases found.symm.trans found'
      exact ih below'

theorem OperationDescriptor.Stands.unique {operation : OperationDescriptor} {arguments : List (String × Value)}
    {parameter : Nat} (stands : operation.Stands plan provided values arguments parameter place source c)
    (stands' : operation.Stands plan provided values arguments parameter place source' c') :
    source = source' ∧ c = c' := by
  induction stands with
  | argument binding found written below =>
    cases stands' with
    | argument binding' found' written' below' =>
      cases binding.symm.trans binding'
      cases found.symm.trans found'
      cases written.symm.trans written'
      exact below.unique below'
    | whole binding' | single binding' | entry binding' => cases binding.symm.trans binding'
  | whole binding =>
    cases stands' with
    | argument binding' => cases binding.symm.trans binding'
    | whole => exact ⟨rfl, rfl⟩
  | single binding _ ih =>
    cases stands' with
    | argument binding' => cases binding.symm.trans binding'
    | single _ below' => exact ih below'
  | entry binding written below =>
    cases stands' with
    | argument binding' => cases binding.symm.trans binding'
    | entry _ written' below' =>
      cases written.symm.trans written'
      exact below.unique below'

end

/-- How a scalar parses values of a source. -/
def ScalarDescriptor.parser (scalar : ScalarDescriptor) : ValueSource → Const → Except Failure Resolved
  | .literal => scalar.parseLiteral
  | .variable => scalar.parseVariable

/-- The values of variables come from the request. -/
def Plan.Assigns (plan : Plan) (provided values : Variables) : Prop :=
  ∀ name c, Entries.find? name values = some c → plan.Gives provided name c

namespace InputValue

variable {plan : Plan} {provided values : Variables} {value : InputValue} {place : List PartStep}
  {source : ValueSource} {c : Const}

/-- A variable stands where its value stands. -/
theorem Stands.of_resolve (assigns : plan.Assigns provided values)
    (stands : (value.resolve values).Stands plan provided values place source c) :
    value.Stands plan provided values place source c := by
  unfold resolve at stands
  split at stands
  · next name =>
    cases has : Entries.find? name values with
    | none =>
      rw [has] at stands
      cases stands
    | some whole =>
      rw [has] at stands
      cases stands with
      | provided below => exact .literal (.assigned has (assigns name whole has) below)
  · exact stands

theorem resolve_ne_ref (value : InputValue) (name : String) : value.resolve values ≠ .literal (.ref name) := by
  unfold resolve
  split
  · split <;> simp
  · next other => exact other name

/-- A value that is resolved and not missing stands where it is, with its source. -/
theorem stands_here (plan : Plan) (provided : Variables) (resolved : ∀ name, value ≠ .literal (.ref name)) (given : value.isMissing = false) :
    ∃ c, value.toConst? values = some c ∧ value.Stands plan provided values [] value.source c := by
  cases value with
  | absent => cases given
  | literal v =>
    have whole (name : String) : v ≠ .ref name := fun same => resolved name (congrArg _ same)
    exact ⟨_, toConst?_whole whole, .literal (.written whole)⟩
  | provided c => exact ⟨c, rfl, .provided .here⟩
  | fields entries => exact ⟨_, rfl, .whole⟩

theorem of_single {α : Type} {a b : α} {i : Nat} (found : [a][i]? = some b) : i = 0 ∧ b = a := by
  rw [List.getElem?_singleton] at found
  split at found
  · next first => exact ⟨first, (Option.some.inj found).symm⟩
  · cases found

/-- What stands in an item of a value stands in the value. -/
theorem stands_item (resolved : ∀ name, value ≠ .literal (.ref name)) {i : Nat} {entry : InputValue}
    (found : (value.toList values)[i]? = some entry) (stands : entry.Stands plan provided values place source c) :
    value.Stands plan provided values (.item i :: place) source c := by
  cases value with
  | absent => cases found
  | literal v =>
    have whole (name : String) : v ≠ .ref name := fun same => resolved name (congrArg _ same)
    by_cases list : ∃ items, v = .list items
    · obtain ⟨items, rfl⟩ := list
      change (items.map InputValue.literal)[i]? = some entry at found
      rw [List.getElem?_map, Option.map_eq_some_iff] at found
      obtain ⟨item, found, rfl⟩ := found
      cases stands with
      | literal below => exact .literal (.item found below)
    · rw [not_exists] at list
      have single : (literal v).toList values = [literal v] := by
        cases v with
        | ref name => exact absurd rfl (whole name)
        | list items => exact absurd rfl (list items)
        | _ => rfl
      rw [single] at found
      obtain ⟨rfl, rfl⟩ := of_single found
      cases stands with
      | literal below => exact .literal (.single whole list below)
  | provided whole =>
    by_cases list : ∃ items, whole = .list items
    · obtain ⟨items, rfl⟩ := list
      change (items.map InputValue.provided)[i]? = some entry at found
      rw [List.getElem?_map, Option.map_eq_some_iff] at found
      obtain ⟨item, found, rfl⟩ := found
      cases stands with
      | provided below => exact .provided (.item found below)
    · rw [not_exists] at list
      have single : (InputValue.provided whole).toList values = [.provided whole] := by
        cases whole with
        | list items => exact absurd rfl (list items)
        | _ => rfl
      rw [single] at found
      obtain ⟨rfl, rfl⟩ := of_single found
      cases stands with
      | provided below => exact .provided (.single list below)
  | fields entries =>
    obtain ⟨rfl, rfl⟩ := of_single (a := fields entries) found
    exact .single stands

/-- What stands in an entry of an object stands in the object. -/
theorem stands_entry {name : String} {i : Nat} {field : InputValue} {entries : List (String × InputValue)}
    (resolved : ∀ name, value ≠ .literal (.ref name)) (object : value.toFields values = .ok entries)
    (found : (Entries.valuesOf name entries)[i]? = some field)
    (stands : field.Stands plan provided values place source c) :
    value.Stands plan provided values (.entry name i :: place) source c := by
  cases value with
  | absent => cases object
  | literal v =>
    cases v with
    | ref name => exact absurd rfl (resolved name)
    | object written =>
      cases object
      rw [Entries.valuesOf_map, List.getElem?_map, Option.map_eq_some_iff] at found
      obtain ⟨value, found, rfl⟩ := found
      cases stands with
      | literal below => exact .literal (.entry found below)
    | _ => cases object
  | provided whole =>
    cases whole with
    | object given =>
      cases object
      rw [Entries.valuesOf_map, List.getElem?_map, Option.map_eq_some_iff] at found
      obtain ⟨value, found, rfl⟩ := found
      cases stands with
      | provided below => exact .provided (.entry found below)
    | _ => cases object
  | fields given =>
    cases object
    exact .entry found stands

end InputValue

/-! ## What is reached -/

/-- Reading a portion comes to a place at which a value is read at a type, from a registry on. The places in a
sequence are counted from its start, and what is read before has been read without a failure. -/
inductive InputContext.Reaches (context : InputContext) (type : TypeRef) (value : InputValue) (s : Registry) :
    Portion → Registry → List PartStep → Prop
  | here : Reaches context type value s (.value type value) s []
  | items {item : TypeRef} {nullable : Bool} {whole : InputValue} {r : Registry} {place : List PartStep}
    (given : (whole.resolve context.variableValues).isMissing = false)
    (below : Reaches context type value s (.sequence (((whole.resolve context.variableValues).toList
      context.variableValues).map fun entry => (item, entry))) r place) :
    Reaches context type value s (.value (.list item nullable) whole) r place
  | object {id : HostId} {nullable : Bool} {whole : InputValue} {r r' : Registry} {d : TypeDescriptor}
    {declared : List TypedItem} {entries : List (String × InputValue)} {place : List PartStep}
    (described : outcome (context.host.describe (.host id)).inInput r = (.ok d, r'))
    (given : (whole.resolve context.variableValues).isMissing = false) (kind : d.kind = .inputObject declared)
    (found : (whole.resolve context.variableValues).toFields context.variableValues = .ok entries)
    (below : Reaches context type value s (.fields d.name (context.host.construction id) entries) r' place) :
    Reaches context type value s (.value (.named (.host id) nullable) whole) r place
  | first {part : TypeRef × InputValue} {rest : List (TypeRef × InputValue)} {r : Registry} {place : List PartStep}
    (below : Reaches context type value s (.value part.1 part.2) r place) :
    Reaches context type value s (.sequence (part :: rest)) r (.item 0 :: place)
  | later {part : TypeRef × InputValue} {rest : List (TypeRef × InputValue)} {r r' : Registry} {read : Resolved}
    {i : Nat} {place : List PartStep} (before : outcome (context.parse part.1 part.2) r = (.ok read, r'))
    (below : Reaches context type value s (.sequence rest) r' (.item i :: place)) :
    Reaches context type value s (.sequence (part :: rest)) r (.item (i + 1) :: place)
  | take {typeName name : String} {fieldType : TypeRef} {next : Resolved → Construction}
    {entries : List (String × InputValue)} {r : Registry} {place : List PartStep}
    (below : Reaches context type value s (.value fieldType ((Entries.find? name entries).getD .absent)) r place) :
    Reaches context type value s (.fields typeName (.take name fieldType next) entries) r (.entry name 0 :: place)
  | taken {typeName name : String} {fieldType : TypeRef} {next : Resolved → Construction}
    {entries : List (String × InputValue)} {r r' : Registry} {read : Resolved} {other : String} {i : Nat}
    {place : List PartStep}
    (before : outcome (context.parse fieldType ((Entries.find? name entries).getD .absent)) r = (.ok read, r'))
    (below : Reaches context type value s (.fields typeName (next read) (Entries.erase name entries)) r'
      (.entry other i :: place)) :
    Reaches context type value s (.fields typeName (.take name fieldType next) entries) r
      (.entry other (if other = name then i + 1 else i) :: place)
  | ifGiven {typeName name : String} {next : Bool → Construction} {entries : List (String × InputValue)}
    {r : Registry} {place : List PartStep}
    (below : Reaches context type value s (.fields typeName (next (Entries.contains name entries)) entries) r place) :
    Reaches context type value s (.fields typeName (.ifGiven name next) entries) r place
  | typeName {typeName : String} {next : String → Construction} {entries : List (String × InputValue)} {r : Registry}
    {place : List PartStep} (below : Reaches context type value s (.fields typeName (next typeName) entries) r place) :
    Reaches context type value s (.fields typeName (.typeName next) entries) r place

namespace InputContext

variable {context : InputContext} {type : TypeRef} {value : InputValue} {r s : Registry} {portion : Portion}
  {place : List PartStep} {plan : Plan} {provided : Variables}

/-- Whatever stands in a part of a portion stands in the portion. -/
def Locates (context : InputContext) (plan : Plan) (provided : Variables) (portion : Portion) (place : List PartStep)
    (source : ValueSource) (c : Const) : Prop :=
  match portion with
  | .value _ value =>
    (value.resolve context.variableValues).Stands plan provided context.variableValues place source c
  | .sequence parts => ∃ i below part, place = .item i :: below ∧ parts[i]? = some part ∧
    (part.2.resolve context.variableValues).Stands plan provided context.variableValues below source c
  | .fields _ _ entries => ∃ name i below field, place = .entry name i :: below ∧
    (Entries.valuesOf name entries)[i]? = some field ∧
    (field.resolve context.variableValues).Stands plan provided context.variableValues below source c

/-- What stands where a value is reached stands at that place of the whole. -/
theorem Reaches.locates (assigns : plan.Assigns provided context.variableValues)
    (reaches : context.Reaches type value s portion r place) {source : ValueSource} {c : Const}
    (stands : (value.resolve context.variableValues).Stands plan provided context.variableValues [] source c) :
    context.Locates plan provided portion place source c := by
  induction reaches with
  | here => exact stands
  | items given _ ih =>
    obtain ⟨i, below, part, rfl, found, stands⟩ := ih
    rw [List.getElem?_map, Option.map_eq_some_iff] at found
    obtain ⟨entry, found, rfl⟩ := found
    exact InputValue.stands_item (InputValue.resolve_ne_ref _) found (stands.of_resolve assigns)
  | object _ given _ found _ ih =>
    obtain ⟨name, i, below, field, rfl, entry, stands⟩ := ih
    exact InputValue.stands_entry (InputValue.resolve_ne_ref _) found entry (stands.of_resolve assigns)
  | @first part rest _ place _ ih => exact ⟨0, place, part, rfl, rfl, ih⟩
  | later _ _ ih =>
    obtain ⟨i, below, part, same, found, stands⟩ := ih
    cases same
    exact ⟨_, _, part, rfl, found, stands⟩
  | @take _ name _ _ entries _ place _ ih =>
    change (InputValue.resolve _ _).Stands _ _ _ _ _ _ at ih
    cases found : Entries.find? name entries with
    | none =>
      rw [found] at ih
      cases ih
    | some field =>
      rw [found] at ih
      refine ⟨name, 0, place, field, rfl, ?_, ih⟩
      rw [← List.head?_eq_getElem?, Entries.head?_valuesOf, found]
  | taken _ _ ih =>
    obtain ⟨other, i, below, field, same, found, stands⟩ := ih
    cases same
    refine ⟨_, _, _, field, rfl, ?_, stands⟩
    split
    · next same => rwa [same, Entries.valuesOf_erase_self, List.getElem?_tail, ← same] at found
    · next apart => rwa [Entries.valuesOf_erase_of_ne apart] at found
  | ifGiven _ ih => exact ih
  | typeName _ ih => exact ih

/-- Reading a portion goes on as reading a value at a type, from a registry on, and something after it. -/
def ComesTo (context : InputContext) (type : TypeRef) (value : InputValue) (s : Registry) :
    (portion : Portion) → Registry → Prop
  | .value whole whole', r => ∃ rest, outcome (context.parse whole whole') r = outcome (context.parse type value >>= rest) s
  | .sequence parts, r => ∃ rest,
    outcome (parts.mapM fun part => context.parse part.1 part.2) r = outcome (context.parse type value >>= rest) s
  | .fields typeName construction entries, r => ∀ bound (pos : 0 < bound) light, ∃ rest,
    outcome (construction.run typeName pos (fun type value _ => context.parse type value)
      (⟨entries, light⟩ : LighterFields context.variableValues bound)) r = outcome (context.parse type value >>= rest) s

/-- What is done after something that goes on. -/
theorem goesOn {α β : Type} {m : InputM α} {f : α → InputM β}
    (comes : ∃ rest, outcome m r = outcome (context.parse type value >>= rest) s) :
    ∃ rest, outcome (m >>= f) r = outcome (context.parse type value >>= rest) s := by
  obtain ⟨rest, same⟩ := comes
  refine ⟨fun read => rest read >>= f, ?_⟩
  rw [← bind_assoc, outcome_bind, same, ← outcome_bind]

/-- The reading of what is reached is part of the reading of the whole: nothing of the value is read before, and what
it comes to, a failure included, is what the rest goes on with. -/
theorem Reaches.comesTo (reaches : context.Reaches type value s portion r place) :
    context.ComesTo type value s portion r := by
  induction reaches with
  | here => exact ⟨pure, by rw [bind_pure]⟩
  | items given _ ih =>
    change ∃ rest, _ = _ at ih
    rw [List.mapM_map] at ih
    change ∃ rest, _ = _
    rw [parse_list given, ← bind_pure_comp]
    exact goesOn ih
  | object described given kind found _ ih =>
    change ∃ rest, _ = _
    rw [parse_host (given_of_some given), outcome_bind_of_ok described, parseDescribed_object given kind,
      parseObject_some found, bind_assoc]
    exact goesOn (ih _ _ _)
  | first _ ih =>
    change ∃ rest, outcome (List.mapM _ (_ :: _)) _ = _
    rw [List.mapM_cons]
    exact goesOn ih
  | later before _ ih =>
    change ∃ rest, outcome (List.mapM _ (_ :: _)) _ = _
    rw [List.mapM_cons, outcome_bind_of_ok before]
    exact goesOn ih
  | take _ ih => exact fun bound pos light => goesOn ih
  | taken before _ ih =>
    intro bound pos light
    rw [Construction.run, outcome_bind_of_ok before]
    exact ih bound pos _
  | ifGiven _ ih => exact ih
  | typeName _ ih => exact ih

end InputContext

/-! ## Variables of the request -/

namespace Plan

variable {plan : Plan} {provided left bound values : Variables} {definitions : List VariableDefinition}

theorem assigns_of_bindVariables (declared : definitions ⊆ plan.variableDefinitions) (given : left ⊆ provided)
    (before : plan.Assigns provided bound) (ran : bindVariables definitions left bound = .ok values) :
    plan.Assigns provided values := by
  induction definitions generalizing left bound with
  | nil =>
    cases ran
    exact before
  | cons d rest ih =>
    obtain ⟨here, others⟩ := List.cons_subset.1 declared
    have given' : Entries.erase d.name left ⊆ provided := fun _ mem => given (Entries.mem_of_mem_erase mem)
    rw [bindVariables] at ran
    split at ran
    · next value has =>
      split at ran
      · cases ran
      · refine ih others given' (fun name c found => ?_) ran
        by_cases same : name = d.name
        · rw [same, Entries.find?_insert_self] at found
          cases found
          rw [same]
          rcases Option.or_eq_some_iff.1 has with found | ⟨-, default⟩
          · exact Or.inl (given (Entries.mem_of_find? found))
          · exact Or.inr ⟨d, here, rfl, default⟩
        · rw [Entries.find?_insert_of_ne same] at found
          exact before name c found
    · split at ran
      · exact ih others given' before ran
      · cases ran

/-- Variables are coerced to what is provided and to defaults. -/
theorem assigns_of_coerceVariables (coerced : plan.coerceVariables provided = .ok values) :
    plan.Assigns provided values :=
  assigns_of_bindVariables (List.Subset.refl _) (List.Subset.refl _) (fun _ _ found => by cases found) coerced

end Plan

/-! ## The theorem -/

namespace OperationDescriptor

variable {operation : OperationDescriptor} {context : InputContext} {arguments : List (String × Value)} {plan : Plan}
  {provided : Variables} {r s s' : Registry}

/-- Reading the arguments of an operation comes to a place at which a value is read at a type. -/
def Reaches (operation : OperationDescriptor) (context : InputContext) (arguments : List (String × Value)) (r : Registry)
    (parameter : Nat) (place : List PartStep) (type : TypeRef) (value : InputValue) (s : Registry) : Prop :=
  context.Reaches type value s (.sequence (operation.bindArguments arguments)) r (.item parameter :: place)

theorem stands_struct {plan : Plan} {provided values : Variables} {type : TypeRef} {fields : List String}
    (binding : operation.binding = .struct type fields) {whole : InputValue}
    (is : whole = .fields ((Entries.ofList arguments).map fun argument => (argument.1, .literal argument.2)))
    {place : List PartStep} {source : ValueSource} {c : Const} (stands : whole.Stands plan provided values place source c) :
    operation.Stands plan provided values arguments 0 place source c := by
  induction stands with
  | literal | provided => cases is
  | whole =>
    cases is
    exact .whole binding
  | single _ ih => exact .single binding (ih is)
  | entry found below =>
    cases is
    rw [Entries.valuesOf_map, List.getElem?_map, Option.map_eq_some_iff] at found
    obtain ⟨value, written, rfl⟩ := found
    cases below with
    | literal below => exact .entry binding written below

/-- What stands in the input value of a parameter stands in the arguments. -/
theorem stands_of_bound {plan : Plan} {provided values : Variables} {i : Nat} {part : TypeRef × InputValue}
    (found : (operation.bindArguments arguments)[i]? = some part) {place : List PartStep} {source : ValueSource} {c : Const}
    (stands : part.2.Stands plan provided values place source c) :
    operation.Stands plan provided values arguments i place source c := by
  cases bound : operation.binding with
  | struct type fields =>
    cases none : arguments.isEmpty && type.nullable with
    | true =>
      rw [bindArguments_absent bound none] at found
      obtain ⟨rfl, rfl⟩ := InputValue.of_single found
      cases stands
    | false =>
      rw [bindArguments_struct bound none] at found
      obtain ⟨rfl, rfl⟩ := InputValue.of_single found
      exact stands_struct bound rfl stands
  | arguments params =>
    rw [bindArguments_params bound, List.getElem?_map, Option.map_eq_some_iff] at found
    obtain ⟨param, found, rfl⟩ := found
    cases written : Entries.find? param.name arguments with
    | none =>
      rw [written] at stands
      cases stands
    | some value =>
      rw [written] at stands
      cases stands with
      | literal below => exact .argument bound found written below

/-- Wherever the reading of arguments comes to a value that is not missing at a custom scalar, there stands a literal
or a value of a variable in the arguments, and the scalar parses it as such. What it comes to is what the reading of
the arguments goes on with. -/
theorem parsed_by_source (coerced : plan.coerceVariables provided = .ok context.variableValues) {parameter : Nat}
    {place : List PartStep} {id : HostId} {nullable : Bool} {value : InputValue}
    (reaches : operation.Reaches context arguments r parameter place (.named (.host id) nullable) value s)
    (given : (value.resolve context.variableValues).isMissing = false) {d : TypeDescriptor} {scalar : ScalarDescriptor}
    (described : outcome (context.host.describe (.host id)).inInput s = (.ok d, s'))
    (custom : d.kind = .scalar (.custom scalar)) :
    ∃ source c, operation.Stands plan provided context.variableValues arguments parameter place source c ∧
      (∀ source' c', operation.Stands plan provided context.variableValues arguments parameter place source' c' →
        source = source' ∧ c = c') ∧
      outcome (context.parse (.named (.host id) nullable) value) s = (do
        let parsed ← expectType id d.name (← scalar.parser source c)
        context.host.validate id parsed
        return .host parsed, s') ∧
      ∃ rest, outcome (operation.parseArguments context arguments) r =
        outcome (context.parse (.named (.host id) nullable) value >>= rest) s := by
  have assigns := Plan.assigns_of_coerceVariables coerced
  obtain ⟨c, const, here⟩ := InputValue.stands_here plan provided (InputValue.resolve_ne_ref value) given
  obtain ⟨i, below, part, same, found, stands⟩ := reaches.locates assigns here
  cases same
  have written := stands_of_bound found (stands.of_resolve assigns)
  refine ⟨_, c, written, fun _ _ other => written.unique other, ?_, reaches.comesTo⟩
  have leaf (fields : List TypedItem) : d.kind ≠ .inputObject fields := by simp [custom]
  have parsed : parseLeaf context id d (value.resolve context.variableValues) =
      scalar.parser (value.resolve context.variableValues).source c := by
    unfold parseLeaf ScalarDescriptor.parser
    rw [custom, const]
    cases (value.resolve context.variableValues).source <;> rfl
  rw [InputContext.parse_host (InputContext.given_of_some given), outcome_bind_of_ok described,
    InputContext.parseDescribed_leaf given leaf, InputContext.readLeaf, parsed]
  rw [InputContext.outcome_checked, bind_assoc]
  rfl

end OperationDescriptor

/-! ## A list of a variable and a literal -/

namespace StampQuery

/-- A scalar that accepts variables only. -/
def stamp : ScalarDescriptor :=
  { name := "Stamp", description := none, type := .host 0, serialize := (·.leaf)
    parseVariable := fun c => .ok (.host (.mk 0 (.leaf c) [] []))
    parseLiteral := fun _ => .error (.message "a stamp is not written in a query") }

def descriptor : TypeDescriptor := ⟨.host 0, "Stamp", none, .scalar (.custom stamp)⟩

def registry : Registry :=
  { descriptors := [(.host 0, descriptor)], names := [("Stamp", .host 0)], scalars := [(.host 0, stamp)]
    scalarNames := [("Stamp", .host 0)] }

def type : TypeRef := .named (.host 0) false

def operation : OperationDescriptor :=
  { kind := .query, name := "stamped", info := {}, output := .named (.builtin .string) true, mode := .positional
    binding := .arguments [⟨"arg1", .list type false⟩], resolver := .field fun _ => .ok (.done (.ok .null)) }

/-- The first stamp comes from a variable, the second is written. -/
def arguments : List (String × Value) := [("arg1", .list [.ref "at", .string "b2"])]

/-- A plan whose variable has a default. -/
def plan : Plan :=
  { kind := .query, name := none
    variableDefinitions := [{ name := "at", location := .start, type := .named "Stamp" true, default := some (.string "a1") }]
    selection := [] }

def context : InputContext :=
  { host := { builtinName := BuiltinType.scalarName, types := [{ hostName := "Stamp" }] }
    variableValues := [("at", .string "a1")] }

theorem described : outcome (context.host.describe (.host 0)).inInput registry = (.ok descriptor, registry) := by
  with_unfolding_all rfl

theorem default_parsed : outcome (context.parse type (.literal (.ref "at"))) registry =
    (.ok (.host (.mk 0 (.leaf (.string "a1")) [] [])), registry) := by
  have given : (InputValue.resolve context.variableValues (.literal (.ref "at"))).isMissing = false := rfl
  rw [type, InputContext.parse_host (InputContext.given_of_some given), outcome_bind_of_ok described,
    InputContext.parseDescribed_leaf given]
  · rfl
  · exact fun _ => TypeKind.noConfusion

/-- Nothing is provided, and the reading comes to the literal once the default of the variable is read. -/
theorem written_reached :
    operation.Reaches context arguments registry 0 [.item 1] type (.literal (.string "b2")) registry :=
  .first (.items rfl (.later default_parsed (.first .here)))

theorem written_parsed : plan.coerceVariables [] = .ok context.variableValues ∧
    operation.Reaches context arguments registry 0 [.item 1] type (.literal (.string "b2")) registry ∧
    ∃ source c, operation.Stands plan [] context.variableValues arguments 0 [.item 1] source c ∧
      (∀ source' c', operation.Stands plan [] context.variableValues arguments 0 [.item 1] source' c' →
        source = source' ∧ c = c') ∧
      outcome (context.parse type (.literal (.string "b2"))) registry = (do
        let parsed ← expectType 0 descriptor.name (← stamp.parser source c)
        context.host.validate 0 parsed
        return .host parsed, registry) ∧
      ∃ rest, outcome (operation.parseArguments context arguments) registry =
        outcome (context.parse type (.literal (.string "b2")) >>= rest) registry := by
  have coerced : plan.coerceVariables [] = .ok context.variableValues := rfl
  have given : (InputValue.resolve context.variableValues (.literal (.string "b2"))).isMissing = false := rfl
  have custom : descriptor.kind = .scalar (.custom stamp) := rfl
  exact ⟨coerced, written_reached, operation.parsed_by_source coerced written_reached given described custom⟩

end StampQuery

end GraphQL
