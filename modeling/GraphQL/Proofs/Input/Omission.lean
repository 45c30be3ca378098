import GraphQL.Plan
import GraphQL.Proofs.Input.Likeness
import GraphQL.Proofs.Registry.Declared

/-!
# Leaving out what has no value

A variable that is declared without default and not provided has no value. Where an argument, or a field of an
input object at any depth, is such a variable, it is read as if it were not written: an argument always, and a field
if the construction of its object takes it in any case and does not ask before whether it is there. The
fields of a literal that is given to a scalar are not read but counted, and so is whether a nullable object
of arguments has any: `SearchQuery` shows that there the variable is noticed.
-/

namespace GraphQL

/-- The construction takes the field of a name in whatever course it runs to its end, and does not ask for it before. -/
inductive Construction.Expects (name : String) : Construction → Prop
  | failed (failure : Failure) : Expects name (.done (.error failure))
  | taken (type : TypeRef) (next : Resolved → Construction) : Expects name (.take name type next)
  | take {other : String} {type : TypeRef} {next : Resolved → Construction} (ne : other ≠ name)
    (each : ∀ field, Expects name (next field)) : Expects name (.take other type next)
  | ifGiven {other : String} {next : Bool → Construction} (ne : other ≠ name) (each : ∀ given, Expects name (next given)) :
    Expects name (.ifGiven other next)
  | typeName {next : String → Construction} (each : ∀ typeName, Expects name (next typeName)) :
    Expects name (.typeName next)

/-- The only entry of a name is a variable without value. -/
def Entries.Unset (unset : String → Prop) (name : String) (entries : List (String × Value)) : Prop :=
  (∃ written, unset written ∧ find? name entries = some (.ref written)) ∧ find? name (erase name entries) = none

section

variable (host : Host) (r : Registry) (unset : String → Prop)

/-- Somewhere in a literal that is read at a type, a field without value is left out. -/
inductive Value.Omits : TypeRef → Value → Value → Prop
  | item {item : TypeRef} {nullable : Bool} {before after : List Value} {value value' : Value}
    (inner : Omits item value value') :
    Omits (.list item nullable) (.list (before ++ value :: after)) (.list (before ++ value' :: after))
  | single {item : TypeRef} {nullable : Bool} {entries entries' : List (String × Value)}
    (inner : Omits item (.object entries) (.object entries')) :
    Omits (.list item nullable) (.object entries) (.object entries')
  | field {id : HostId} {nullable : Bool} {name : String} {entries : List (String × Value)}
    (object : host.TakesFields r id) (expected : (host.construction id).Expects name)
    (void : Entries.Unset unset name entries) :
    Omits (.named (.host id) nullable) (.object entries) (.object (Entries.erase name entries))
  | within {id : HostId} {nullable : Bool} {name : String} {before after : List (String × Value)} {value value' : Value}
    (object : host.TakesFields r id)
    (inner : ∀ type, (host.construction id).Takes name type → Omits type value value') :
    Omits (.named (.host id) nullable) (.object (before ++ (name, value) :: after))
      (.object (before ++ (name, value') :: after))

/-- Of the fields that a construction is given, one without value is left out, or something within some of them. -/
inductive Construction.Omits (construction : Construction) :
    List (String × Value) → List (String × Value) → Prop
  | field {name : String} {entries : List (String × Value)} (expected : construction.Expects name)
    (void : Entries.Unset unset name entries) : Omits construction entries (Entries.erase name entries)
  | within {entries entries' : List (String × Value)}
    (keyed : Entries.Keyed (fun name value value' => value' = value ∨
      ∀ type, construction.Takes name type → Value.Omits host r unset type value value') entries entries') :
    Omits construction entries entries'

/-- Of the arguments of an operation, one without value is left out, or something within some of them. In struct
mode arguments are fields; a nullable object of arguments has some left. -/
inductive OperationDescriptor.Omits (operation : OperationDescriptor) :
    List (String × Value) → List (String × Value) → Prop
  | struct {id : HostId} {nullable : Bool} {names : List String} {arguments arguments' : List (String × Value)}
    (bound : operation.binding = .struct (.named (.host id) nullable) names) (object : host.TakesFields r id)
    (some : nullable = true → arguments' ≠ [])
    (omits : (host.construction id).Omits host r unset arguments arguments') : Omits operation arguments arguments'
  | argument {params : List Param} {name : String} {arguments : List (String × Value)}
    (bound : operation.binding = .arguments params) (void : Entries.Unset unset name arguments) :
    Omits operation arguments (Entries.erase name arguments)
  | within {params : List Param} {arguments arguments' : List (String × Value)}
    (bound : operation.binding = .arguments params)
    (keyed : Entries.Keyed (fun name value value' => value' = value ∨
      ∀ param ∈ params, param.name = name → Value.Omits host r unset param.type value value') arguments arguments') :
    Omits operation arguments arguments'

/-- What reading a value looks at when something is left out of it. -/
inductive InputValue.Omits : TypeRef → InputValue → InputValue → Prop
  | same (type : TypeRef) (value : InputValue) : Omits type value value
  | unset (type : TypeRef) {name : String} (void : unset name) : Omits type (.literal (.ref name)) .absent
  | literal {type : TypeRef} {value value' : Value} (omits : Value.Omits host r unset type value value') :
    Omits type (.literal value) (.literal value')
  | fields {id : HostId} {nullable : Bool} {entries entries' : List (String × Value)} (object : host.TakesFields r id)
    (omits : (host.construction id).Omits host r unset entries entries') :
    Omits (.named (.host id) nullable) (.fields (entries.map fun entry => (entry.1, .literal entry.2)))
      (.fields (entries'.map fun entry => (entry.1, .literal entry.2)))

end

section

variable {host : Host} {r : Registry} {unset : String → Prop} {construction : Construction}
  {entries entries' : List (String × Value)}

/-! ## Constructions -/

namespace Construction

variable {like : TypeRef → InputValue → InputValue → Prop}

theorem alike_refl (refl : ∀ type value, like type value value) (construction : Construction)
    (entries : List (String × InputValue)) : construction.Alike like entries entries :=
  alike_of_keyed (fun _ type _ => refl type _) (List.forall₂_same.2 fun _ _ => ⟨rfl, fun type _ => refl type _⟩)

/-- A field that is taken in any case may be left out if it is read as one that is absent. -/
theorem Expects.alike {name : String} (expects : construction.Expects name)
    (refl : ∀ type value, like type value value) {entries : List (String × InputValue)} {value : InputValue}
    (void : ∀ type, like type value .absent) (found : Entries.find? name entries = some value)
    (once : Entries.find? name (Entries.erase name entries) = none) :
    construction.Alike like entries (Entries.erase name entries) := by
  induction expects generalizing entries with
  | failed failure => trivial
  | taken type next =>
    constructor
    · rw [found, once]
      exact void type
    · intro field
      rw [Entries.erase_of_find?_eq_none once]
      exact alike_refl refl _ _
  | @take other type next ne each ih =>
    constructor
    · rw [Entries.find?_erase_of_ne ne]
      exact refl _ _
    · intro field
      rw [Entries.erase_comm]
      refine ih field ((Entries.find?_erase_of_ne ne.symm _).trans found) ?_
      rw [Entries.erase_comm, Entries.find?_erase_of_ne ne.symm, once]
  | ifGiven ne each ih =>
    exact ⟨(Entries.contains_erase_of_ne ne _).symm, fun given => ih given found once⟩
  | typeName each ih => exact fun name => ih name found once

/-- What is left out of the fields is not missed by the construction. -/
theorem Omits.alike (omits : construction.Omits host r unset entries entries') :
    construction.Alike (InputValue.Omits host r unset) (entries.map fun entry => (entry.1, .literal entry.2))
      (entries'.map fun entry => (entry.1, .literal entry.2)) := by
  cases omits with
  | @field name _ expected void =>
    obtain ⟨⟨written, none, found⟩, once⟩ := void
    rw [← Entries.erase_map InputValue.literal]
    refine expected.alike .same (fun type => .unset type none) ?_ ?_
    · rw [Entries.find?_map, found]
      rfl
    · rw [Entries.erase_map, Entries.find?_map, once]
      rfl
  | within keyed =>
    refine alike_of_keyed (fun _ type _ => .same type _) (keyed.map fun name value value' omitted type takes => ?_)
    rcases omitted with same | inner
    · rw [same]
      exact .same type _
    · exact .literal (inner type takes)

/-- Arguments of one name count as one field. -/
theorem Omits.ofList (omits : construction.Omits host r unset entries entries') :
    construction.Omits host r unset (Entries.ofList entries) (Entries.ofList entries') := by
  cases omits with
  | field expected void =>
    obtain ⟨⟨written, none, found⟩, once⟩ := void
    obtain ⟨found', erased⟩ := Entries.ofList_once found once
    rw [← erased]
    refine .field expected ⟨⟨written, none, found'⟩, ?_⟩
    rw [erased]
    exact Entries.find?_foldl_insert once []
  | within keyed => exact .within keyed.ofList

theorem Omits.eq_nil (omits : construction.Omits host r unset [] entries') : entries' = [] := by
  cases omits with
  | field => rfl
  | within keyed => exact List.forall₂_nil_left_iff.1 keyed

end Construction

/-! ## Literals -/

theorem forall₂_replace {α : Type} {rel : α → α → Prop} (refl : ∀ a, rel a a) {a b : α} (here : rel a b)
    (before after : List α) : List.Forall₂ rel (before ++ a :: after) (before ++ b :: after) := by
  induction before with
  | nil => exact .cons here (List.forall₂_same.2 fun a _ => refl a)
  | cons first rest ih => exact .cons (refl first) ih

/-- What is left out of an object is left out of its fields. -/
theorem Value.Omits.fields {id : HostId} {nullable : Bool}
    (omits : Value.Omits host r unset (.named (.host id) nullable) (.object entries) (.object entries')) :
    host.TakesFields r id ∧ (host.construction id).Omits host r unset entries entries' := by
  generalize literal : Value.object entries = value at omits
  generalize literal' : Value.object entries' = value' at omits
  cases omits with
  | field object expected void =>
    cases literal
    cases literal'
    exact ⟨object, .field expected void⟩
  | within object inner =>
    cases literal
    cases literal'
    exact ⟨object, .within (forall₂_replace (fun entry => ⟨rfl, Or.inl rfl⟩) ⟨rfl, Or.inr inner⟩ _ _)⟩

/-- Something can only be left out of a list or of an object, and leaves one. -/
theorem Value.Omits.cases {type : TypeRef} {value value' : Value} (omits : Value.Omits host r unset type value value') :
    (∃ items items', value = .list items ∧ value' = .list items') ∨
      ∃ entries entries', value = .object entries ∧ value' = .object entries' := by
  cases omits with
  | item => exact Or.inl ⟨_, _, rfl, rfl⟩
  | single | field | within => exact Or.inr ⟨_, _, rfl, rfl⟩

end

/-! ## Reading -/

namespace InputContext

variable {context : InputContext} {r : Registry} {unset : String → Prop}

/-- What is left out is read alike. -/
theorem likeness_omits (void : ∀ name, unset name → Entries.find? name context.variableValues = none) :
    context.Likeness context.variableValues (context.host.Later r) (InputValue.Omits context.host r unset) where
  later _ _ later later' := later.trans later'
  missing like := by
    cases like with
    | same | fields => rfl
    | unset type none =>
      rw [InputValue.resolve, void _ none]
      rfl
    | literal omits => obtain ⟨_, _, rfl, rfl⟩ | ⟨_, _, rfl, rfl⟩ := omits.cases <;> rfl
  builtin like _ := by
    cases like with
    | same => rfl
    | unset type none =>
      rw [InputValue.resolve, void _ none]
      rfl
    | literal omits => cases omits
  items like present := by
    cases like with
    | same => exact List.forall₂_same.2 fun _ _ => .same _ _
    | unset type none =>
      rw [InputValue.resolve, void _ none] at present
      cases present
    | literal omits =>
      cases omits with
      | item inner =>
        change List.Forall₂ _ (List.map InputValue.literal _) (List.map InputValue.literal _)
        rw [List.map_append, List.map_append, List.map_cons, List.map_cons]
        exact forall₂_replace (.same _) (.literal inner) _ _
      | single inner => exact .cons (.literal inner) .nil
  leaf {id nullable a b R d} like later cached leaf present := by
    have inside (object : context.host.TakesFields r id) : False := by
      obtain ⟨fields, kind⟩ := (later.takesFields object).kind cached
      exact leaf fields kind
    cases like with
    | same => rfl
    | unset type none =>
      rw [InputValue.resolve, void _ none] at present
      cases present
    | literal omits =>
      cases omits with
      | field object | within object => exact (inside object).elim
    | fields object => exact (inside object).elim
  fields {id nullable a b R d declared} like later cached kind present := by
    cases like with
    | same =>
      cases found : (a.resolve context.variableValues).toFields context.variableValues with
      | error message => exact Or.inl ⟨message, rfl, rfl⟩
      | ok entries => exact Or.inr ⟨entries, entries, rfl, rfl, Construction.alike_refl .same _ _⟩
    | unset type none =>
      rw [InputValue.resolve, void _ none] at present
      cases present
    | literal omits =>
      obtain ⟨_, _, rfl, rfl⟩ | ⟨entries, entries', rfl, rfl⟩ := omits.cases
      · cases omits
      · exact Or.inr ⟨_, _, rfl, rfl, omits.fields.2.alike⟩
    | fields object omits => exact Or.inr ⟨_, _, rfl, rfl, omits.alike⟩

end InputContext

/-! ## Arguments -/

/-- What parameters are given, when something is left out of the arguments. -/
theorem OperationDescriptor.Omits.bound {operation : OperationDescriptor} {host : Host} {r : Registry}
    {unset : String → Prop} {arguments arguments' : List (String × Value)}
    (omits : operation.Omits host r unset arguments arguments') :
    List.Forall₂ (fun part part' => part'.1 = part.1 ∧ InputValue.Omits host r unset part.1 part.2 part'.2)
      (operation.bindArguments arguments) (operation.bindArguments arguments') := by
  cases omits with
  | @struct id nullable names _ _ bound object left omits =>
    have some' : (arguments'.isEmpty && (TypeRef.named (.host id) nullable).nullable) = false := by
      cases nullable with
      | false => exact Bool.and_false _
      | true =>
        cases arguments' with
        | nil => exact absurd rfl (left rfl)
        | cons => rfl
    have some : (arguments.isEmpty && (TypeRef.named (.host id) nullable).nullable) = false := by
      cases nullable with
      | false => exact Bool.and_false _
      | true =>
        cases arguments with
        | nil => exact absurd omits.eq_nil (left rfl)
        | cons => rfl
    rw [bindArguments_struct bound some, bindArguments_struct bound some']
    exact .cons ⟨rfl, .fields object omits.ofList⟩ .nil
  | @argument params name _ bound void =>
    obtain ⟨⟨written, none, found⟩, once⟩ := void
    rw [bindArguments_params bound, bindArguments_params bound, List.forall₂_map_left_iff, List.forall₂_map_right_iff,
      List.forall₂_same]
    intro param _
    refine ⟨rfl, ?_⟩
    by_cases here : param.name = name
    · rw [here, found, once]
      exact .unset _ none
    · rw [Entries.find?_erase_of_ne here]
      exact .same _ _
  | within bound keyed =>
    rw [bindArguments_params bound, bindArguments_params bound, List.forall₂_map_left_iff, List.forall₂_map_right_iff,
      List.forall₂_same]
    intro param mem
    refine ⟨rfl, ?_⟩
    obtain ⟨none, none'⟩ | ⟨value, value', found, found', same | inner⟩ := keyed.find? param.name
    · rw [none, none']
      exact .same _ _
    · rw [found, found', same]
      exact .same _ _
    · rw [found, found']
      exact .literal (inner param mem rfl)

/-! ## Variables that are not provided -/

/-- The variable is declared without default and not provided. -/
structure Plan.LeavesUnset (plan : Plan) (provided : Variables) (name : String) : Prop where
  declared : ∃ d ∈ plan.variableDefinitions, d.name = name
  default : ∀ d ∈ plan.variableDefinitions, d.name = name → d.default = none
  missing : Entries.find? name provided = none

theorem Plan.find?_bindVariables {name : String} {definitions : List VariableDefinition}
    (default : ∀ d ∈ definitions, d.name = name → d.default = none) {provided bound values : Variables}
    (missing : Entries.find? name provided = none) (fresh : Entries.find? name bound = none)
    (ran : bindVariables definitions provided bound = .ok values) : Entries.find? name values = none := by
  induction definitions generalizing provided bound with
  | nil =>
    cases ran
    exact fresh
  | cons d rest ih =>
    obtain ⟨here, others⟩ := List.forall_mem_cons.1 default
    have missing' : Entries.find? name (Entries.erase d.name provided) = none := by
      by_cases same : name = d.name
      · rwa [← same, Entries.erase_of_find?_eq_none missing]
      · rwa [Entries.find?_erase_of_ne same]
    rw [bindVariables] at ran
    split at ran
    · next value given =>
      split at ran
      · cases ran
      · refine ih others missing' ?_ ran
        by_cases same : name = d.name
        · rw [← same, missing, here same.symm] at given
          cases given
        · rwa [Entries.find?_insert_of_ne same]
    · split at ran
      · exact ih others missing' fresh ran
      · cases ran

/-- Such a variable has no value. -/
theorem Plan.LeavesUnset.find? {plan : Plan} {provided values : Variables} {name : String}
    (coerced : plan.coerceVariables provided = .ok values) (unset : plan.LeavesUnset provided name) :
    Entries.find? name values = none :=
  find?_bindVariables unset.default unset.missing rfl coerced

/-! ## The theorem -/

/-- Leaving out an argument or field without value leads to the same arguments or the same failure. -/
theorem OperationDescriptor.omissions_unnoticed {operation : OperationDescriptor} {context : InputContext} {plan : Plan}
    {provided : Variables} (coerced : plan.coerceVariables provided = .ok context.variableValues) {r : Registry}
    {arguments arguments' : List (String × Value)}
    (omits : operation.Omits context.host r (plan.LeavesUnset provided) arguments arguments') :
    outcome (operation.parseArguments context arguments) r = outcome (operation.parseArguments context arguments') r :=
  (InputContext.likeness_omits fun _ unset => unset.find? coerced).arguments omits.bound r (.refl _ r)

/-! ## A search with a filter that may be left out -/

namespace SearchQuery

def text : TypeRef := .named (.builtin .string) true

def filter : HostType :=
  { hostName := "Filter"
    description := { inputFields := [⟨"name", text, {}⟩, ⟨"city", text, {}⟩] }
    construct := .take "name" text fun name => .take "city" text fun city => .done (.ok [("name", name), ("city", city)]) }

def operation : OperationDescriptor :=
  { kind := .query, name := "search", info := {}, output := .named (.builtin .int32) true, mode := .struct
    binding := .struct (.named (.host 0) true) ["name", "city"], resolver := .field fun _ => .ok (.done (.ok .null)) }

/-- A plan with a variable that has no default. -/
def plan : Plan :=
  { kind := .query, name := none
    variableDefinitions := [{ name := "name", location := .start, type := .named "String" true, default := none }]
    selection := [] }

def context : InputContext :=
  { host := { builtinName := BuiltinType.scalarName, types := [filter] }, variableValues := [] }

theorem name_unset : plan.LeavesUnset [] "name" where
  declared := ⟨_, List.mem_cons_self, rfl⟩
  default d mem _ := by
    cases List.mem_singleton.1 mem
    rfl
  missing := rfl

/-- Beside a city, a name that is not provided may as well be left out. -/
theorem name_unnoticed : plan.coerceVariables [] = .ok context.variableValues ∧
    operation.Omits context.host {} (plan.LeavesUnset []) [("name", .ref "name"), ("city", .string "Oslo")]
      [("city", .string "Oslo")] ∧
    outcome (operation.parseArguments context [("name", .ref "name"), ("city", .string "Oslo")]) {} =
      outcome (operation.parseArguments context [("city", .string "Oslo")]) {} := by
  have object : context.host.TakesFields {} 0 := ⟨rfl, filter, rfl, List.cons_ne_nil _ _⟩
  have void : Entries.Unset (plan.LeavesUnset []) "name" [("name", .ref "name"), ("city", .string "Oslo")] :=
    ⟨⟨"name", name_unset, rfl⟩, rfl⟩
  have omits : operation.Omits context.host {} (plan.LeavesUnset [])
      [("name", .ref "name"), ("city", .string "Oslo")] [("city", .string "Oslo")] :=
    .struct rfl object (fun _ => List.cons_ne_nil _ _) (.field (.taken _ _) void)
  exact ⟨rfl, omits, operation.omissions_unnoticed rfl omits⟩

def filterIsNull : Except Failure (List Resolved) → Bool
  | .ok [.null] => true
  | _ => false

/-- Alone, it makes for a filter where leaving it out makes for none. -/
theorem name_noticed : plan.coerceVariables [] = .ok context.variableValues ∧ plan.LeavesUnset [] "name" ∧
    (outcome (operation.parseArguments context [("name", .ref "name")]) {}).1 ≠
      (outcome (operation.parseArguments context []) {}).1 := by
  refine ⟨rfl, name_unset, fun same => ?_⟩
  have written : filterIsNull (outcome (operation.parseArguments context [("name", .ref "name")]) {}).1 = false := by
    delta OperationDescriptor.parseArguments
    rw [InputContext.parse.eq_unfold, InputContext.parse.eq_unfold]
    decide +kernel
  have left : filterIsNull (outcome (operation.parseArguments context []) {}).1 = true := by
    delta OperationDescriptor.parseArguments
    rw [InputContext.parse.eq_unfold]
    decide +kernel
  rw [same, left] at written
  cases written

end SearchQuery

end GraphQL
