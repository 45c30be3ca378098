import GraphQL.Plan.Compile
import GraphQL.Proofs.Entries
import GraphQL.Proofs.Sequencing

/-!
# The variables of a request

A definition takes what is provided under its name, so a later definition of the same name finds nothing there
and falls back on its default. `Plan.variables_coerced` says what coercing variables comes to by the value of
each definition after those before it, and what is left of that where every variable is defined once. `TwiceQuery`
defines a variable twice.
-/

namespace GraphQL

namespace VariableDefinition

/-- The value of a definition after some others: what is provided under its name, null included, or else its default. What is
provided goes to the first definition of a name. -/
def value? (provided : Variables) (before : List VariableDefinition) (d : VariableDefinition) : Option Const :=
  if d.name ∈ before.map (·.name) then d.default else (Entries.find? d.name provided).or d.default

/-- After some others, a definition whose type is not nullable has no value, or null. -/
def Lacks (provided : Variables) (before : List VariableDefinition) (d : VariableDefinition) : Prop :=
  d.type.nullable = false ∧ (d.value? provided before = none ∨ d.value? provided before = some .null)

/-- A variable whose type is not nullable is neither provided nor has a default, or is provided as null, or has the
default null and is not provided. -/
def Unmet (provided : Variables) (d : VariableDefinition) : Prop :=
  d.type.nullable = false ∧
    (Entries.find? d.name provided = none ∧ d.default = none ∨ Entries.find? d.name provided = some .null ∨
      Entries.find? d.name provided = none ∧ d.default = some .null)

end VariableDefinition

namespace Plan

/-- The values of definitions after some others, each with its name. -/
def given (provided : Variables) : List VariableDefinition → List VariableDefinition → Variables
  | _, [] => []
  | before, d :: rest => (d.value? provided before).toList.map (d.name, ·) ++ given provided (before ++ [d]) rest

/-- What is left of the provided values after some definitions took theirs. -/
structure Left (provided : Variables) (before : List VariableDefinition) (left : Variables) : Prop where
  distinct : (Entries.keys left).Nodup
  taken : ∀ name ∈ before.map (·.name), Entries.find? name left = none
  kept : ∀ name ∉ before.map (·.name), Entries.find? name left = Entries.find? name provided

variable {provided left bound values : Variables} {before definitions : List VariableDefinition}
  {d : VariableDefinition}

namespace Left

theorem start (distinct : (Entries.keys provided).Nodup) : Left provided [] provided where
  distinct := distinct
  taken _ mem := absurd mem List.not_mem_nil
  kept _ _ := rfl

theorem take (left' : Left provided before left) (d : VariableDefinition) :
    Left provided (before ++ [d]) (Entries.erase d.name left) where
  distinct := Entries.nodup_keys_erase left'.distinct d.name
  taken name mem := by
    by_cases same : name = d.name
    · rw [same]
      exact Entries.find?_erase_self left'.distinct d.name
    · rw [Entries.find?_erase_of_ne same]
      refine left'.taken name ?_
      simpa [same] using mem
  kept name other := by
    have parts : name ∉ before.map (·.name) ∧ name ≠ d.name := by simpa using other
    rw [Entries.find?_erase_of_ne parts.2]
    exact left'.kept name parts.1

theorem value? (left' : Left provided before left) (d : VariableDefinition) :
    (Entries.find? d.name left).or d.default = d.value? provided before := by
  unfold VariableDefinition.value?
  split
  · next taken => rw [left'.taken _ taken, Option.none_or]
  · next first => rw [left'.kept _ first]

end Left

/-- A definition that lacks a value ends the coercion; any other binds its value, if it has one. -/
theorem bindVariables_cons (left' : Left provided before left) (d : VariableDefinition)
    (rest : List VariableDefinition) (bound : Variables) :
    d.Lacks provided before ∧ bindVariables (d :: rest) left bound = .error (missingVariable d) ∨
      ¬d.Lacks provided before ∧ bindVariables (d :: rest) left bound =
        bindVariables rest (Entries.erase d.name left)
          (((d.value? provided before).toList.map (d.name, ·)).foldl
            (fun all entry => Entries.insert entry.1 entry.2 all) bound) := by
  rw [bindVariables, left'.value?]
  unfold VariableDefinition.Lacks
  cases d.value? provided before with
  | none => cases d.type.nullable <;> simp
  | some c => cases c <;> cases d.type.nullable <;> simp [Const.isNull]

/-- Coercing fails at the first definition that lacks a value. -/
theorem bindVariables_eq_error {e : ResponseError} (left' : Left provided before left) :
    bindVariables definitions left bound = .error e ↔
      ∃ first d after, definitions = first ++ d :: after ∧ d.Lacks provided (before ++ first) ∧
        (∀ first' d' after', first = first' ++ d' :: after' → ¬d'.Lacks provided (before ++ first')) ∧
        e = missingVariable d := by
  induction definitions generalizing before left bound with
  | nil => simp [bindVariables]
  | cons d rest ih =>
    obtain ⟨lacks, failed⟩ | ⟨has, goesOn⟩ := bindVariables_cons left' d rest bound
    · rw [failed]
      constructor
      · rintro ⟨⟩
        exact ⟨[], d, rest, rfl, by simpa using lacks, by simp, rfl⟩
      · rintro ⟨first, d', after, split, -, earlier, rfl⟩
        cases first with
        | nil =>
          cases split
          rfl
        | cons _ first =>
          cases split
          exact absurd (by simpa using lacks) (earlier [] d _ rfl)
    · rw [goesOn, ih (left'.take d)]
      constructor
      · rintro ⟨first, d', after, rfl, lacks, earlier, rfl⟩
        refine ⟨d :: first, d', after, rfl, by simpa using lacks, fun first' d'' after' split => ?_, rfl⟩
        cases first' with
        | nil =>
          cases split
          simpa using has
        | cons _ first' =>
          cases split
          simpa using earlier first' d'' after' rfl
      · rintro ⟨first, d', after, split, lacks, earlier, rfl⟩
        cases first with
        | nil =>
          cases split
          exact absurd (by simpa using lacks) has
        | cons _ first =>
          cases split
          refine ⟨first, d', after, rfl, by simpa using lacks, fun first' d'' after' split => ?_, rfl⟩
          have earlier' := earlier (d :: first') d'' after' (congrArg (List.cons d) split)
          simpa using earlier'

/-- What is bound in the end are the values of the definitions, one after the other. -/
theorem bindVariables_eq_ok (left' : Left provided before left) (ran : bindVariables definitions left bound = .ok values) :
    values = (given provided before definitions).foldl (fun all entry => Entries.insert entry.1 entry.2 all) bound := by
  induction definitions generalizing before left bound with
  | nil =>
    cases ran
    rfl
  | cons d rest ih =>
    obtain ⟨-, failed⟩ | ⟨-, goesOn⟩ := bindVariables_cons left' d rest bound
    · cases failed.symm.trans ran
    · rw [given, List.foldl_append]
      exact ih (left'.take d) (goesOn.symm.trans ran)

/-! ## Where every variable is defined once -/

theorem value?_of_first (first : d.name ∉ before.map (·.name)) :
    d.value? provided before = (Entries.find? d.name provided).or d.default := if_neg first

theorem lacks_iff_unmet (first : d.name ∉ before.map (·.name)) : d.Lacks provided before ↔ d.Unmet provided := by
  unfold VariableDefinition.Lacks VariableDefinition.Unmet
  rw [value?_of_first first]
  cases Entries.find? d.name provided <;> simp

theorem given_once (once : ((before ++ definitions).map (·.name)).Nodup) :
    given provided before definitions =
      definitions.flatMap fun d => ((Entries.find? d.name provided).or d.default).toList.map (d.name, ·) := by
  induction definitions generalizing before with
  | nil => rfl
  | cons d rest ih =>
    have first : d.name ∉ before.map (·.name) := by
      rw [List.map_append, List.nodup_append] at once
      exact fun mem => once.2.2 _ mem _ List.mem_cons_self rfl
    rw [given, value?_of_first first, List.flatMap_cons, ih]
    rwa [List.append_assoc]

theorem keys_given_sublist (provided : Variables) (before definitions : List VariableDefinition) :
    (Entries.keys (given provided before definitions)).Sublist (definitions.map (·.name)) := by
  induction definitions generalizing before with
  | nil => exact .slnil
  | cons d rest ih =>
    rw [given, List.map_cons]
    cases d.value? provided before with
    | none => exact (ih _).cons _
    | some c => exact (ih _).cons_cons _

end Plan

/-! ## The theorem -/

/-- What coercing the variables of a plan comes to. -/
structure Plan.Coerces (plan : Plan) (provided : Variables) : Prop where
  /-- It fails at the first definition that lacks a value, and only there. -/
  fails : ∀ e, plan.coerceVariables provided = .error e ↔
    ∃ before d after, plan.variableDefinitions = before ++ d :: after ∧ d.Lacks provided before ∧
      (∀ before' d' after', before = before' ++ d' :: after' → ¬d'.Lacks provided before') ∧ e = missingVariable d
  /-- Otherwise variables are bound to the values of their definitions, the last one counting. -/
  binds : ∀ values, plan.coerceVariables provided = .ok values →
    values = Entries.ofList (given provided [] plan.variableDefinitions)
  /-- Where every variable is defined once, the first variable that is unmet fails, and otherwise exactly the variables are
  bound that are provided or have a default, to the default only if they are not provided. -/
  once : (plan.variableDefinitions.map (·.name)).Nodup →
    (∀ e, plan.coerceVariables provided = .error e ↔
      ∃ before d after, plan.variableDefinitions = before ++ d :: after ∧ d.Unmet provided ∧
        (∀ d' ∈ before, ¬d'.Unmet provided) ∧ e = missingVariable d) ∧
    ∀ values, plan.coerceVariables provided = .ok values →
      (Entries.keys values).Nodup ∧
        ∀ name c, Entries.find? name values = some c ↔
          ∃ d ∈ plan.variableDefinitions, d.name = name ∧
            (Entries.find? name provided = some c ∨ Entries.find? name provided = none ∧ d.default = some c)

/-- Coercing variables goes by the definitions, one after the other, whatever is provided. -/
theorem Plan.variables_coerced (plan : Plan) {provided : Variables} (distinct : (Entries.keys provided).Nodup) :
    plan.Coerces provided := by
  have start := Left.start distinct
  have fails (e : ResponseError) : plan.coerceVariables provided = .error e ↔ _ := bindVariables_eq_error start
  have binds (values : Variables) (ran : plan.coerceVariables provided = .ok values) :
      values = Entries.ofList (given provided [] plan.variableDefinitions) := bindVariables_eq_ok start ran
  refine ⟨fails, binds, fun once => ⟨fun e => ?_, fun values ran => ?_⟩⟩
  · have first {before after : List VariableDefinition} {d : VariableDefinition}
        (split : plan.variableDefinitions = before ++ d :: after) :
        d.name ∉ before.map (·.name) := by
      rw [split, List.map_append, List.nodup_append] at once
      exact fun mem => once.2.2 _ mem _ List.mem_cons_self rfl
    rw [fails]
    refine exists_congr fun before => exists_congr fun d => exists_congr fun after => and_congr_right fun split => ?_
    rw [List.nil_append, lacks_iff_unmet (first split)]
    refine and_congr_right fun _ => and_congr_left fun _ => ?_
    constructor
    · intro earlier d' mem
      obtain ⟨before', after', rfl⟩ := List.append_of_mem mem
      rw [List.append_assoc] at split
      rw [← lacks_iff_unmet (first split)]
      exact earlier before' d' after' rfl
    · rintro earlier before' d' after' rfl
      rw [List.append_assoc] at split
      rw [List.nil_append, lacks_iff_unmet (first split)]
      exact earlier d' (List.mem_append_right _ List.mem_cons_self)
  · have keysGiven : (Entries.keys (given provided [] plan.variableDefinitions)).Nodup :=
      once.sublist (keys_given_sublist provided [] _)
    have bound : values =
        plan.variableDefinitions.flatMap fun d =>
          ((Entries.find? d.name provided).or d.default).toList.map (d.name, ·) := by
      rw [binds values ran, Entries.ofList_of_nodup keysGiven]
      exact given_once once
    have keys : (Entries.keys values).Nodup := by
      rwa [binds values ran, Entries.ofList_of_nodup keysGiven]
    refine ⟨keys, fun name c => ?_⟩
    have mem : Entries.find? name values = some c ↔ (name, c) ∈ values :=
      ⟨Entries.mem_of_find?, Entries.find?_of_mem keys⟩
    rw [mem, bound, List.mem_flatMap]
    refine exists_congr fun d => and_congr_right fun _ => ?_
    constructor
    · intro mem
      obtain ⟨value, has, same⟩ := List.mem_map.1 mem
      cases same
      exact ⟨rfl, by simpa [Option.or_eq_some_iff] using has⟩
    · rintro ⟨rfl, has⟩
      exact List.mem_map.2 ⟨c, by simpa [Option.or_eq_some_iff] using has, rfl⟩

namespace TwiceQuery

def first : VariableDefinition := ⟨⟨1, 7⟩, "x", .named "Int" false, none⟩

def second : VariableDefinition := ⟨⟨1, 17⟩, "x", .named "Int" false, none⟩

/-- A definition of the same name with a default. -/
def third : VariableDefinition := ⟨⟨1, 17⟩, "x", .named "Int" true, some (.int 3)⟩

def plan (last : VariableDefinition) : Plan :=
  { kind := .query, name := none, variableDefinitions := [first, last]
    selection :=
      [{ responseKey := "__typename", aliased := false, name := "__typename", location := ⟨1, 29⟩, condition := none
         directives := [], arguments := [], target := .typename, type := .named (.builtin .string) false, complexity := 0
         selection := [] }] }

/-- The variable is provided. -/
def provided : Variables := [("x", .int 1)]

/-- What is provided goes to the first definition, and the other falls back on its default. -/
theorem third_counts : (Entries.keys provided).Nodup ∧ (plan third).Coerces provided ∧
    (plan third).coerceVariables provided = .ok [("x", .int 3)] :=
  ⟨by decide, Plan.variables_coerced (plan third) (by decide), rfl⟩

def text : String := "query($x: Int!, $x: Int!) \x7b __typename \x7d"

def options : CompileOptions :=
  { host := { builtinName := BuiltinType.scalarName, types := [] }, operations := {}, scorer := .default
    listSizeEstimate := 10 }

/-- Strings are described to find that the field takes no selection. -/
def types : Registry := (outcome (options.host.describe (.builtin .string)) {}).2

/-- A text that defines a variable twice compiles, and its variable is provided, and coercion fails. -/
theorem twice_refused : outcome (compile options text none) {} = (.ok (plan second), types) ∧
    (∀ d ∈ (plan second).variableDefinitions, ¬d.Unmet provided) ∧
    (plan second).coerceVariables provided = .error (Plan.missingVariable second) := by
  refine ⟨?_, by simp [plan, first, second, provided, VariableDefinition.Unmet, Entries.find?, Const.int], rfl⟩
  have parsed : Document.parse text = .ok
      { operations := .anonymous ⟨.start, .query, [first, second], [.field ⟨⟨1, 29⟩, none, "__typename", [], []⟩ []]⟩
        fragments := [] } := by
    with_unfolding_all rfl
  have collected : outcome ((Compiler.mk options [] ["x", "x"]).collect [] (.root .query) none []
      [.field ⟨⟨1, 29⟩, none, "__typename", [], []⟩ []]) {} = (.ok (plan second).selection, types) := by
    simp only [Compiler.collect]
    with_unfolding_all rfl
  unfold compile
  rw [parsed]
  exact outcome_bind_eq_ok.2 ⟨_, _, rfl, outcome_bind_eq_ok.2 ⟨_, _, collected, rfl⟩⟩

end TwiceQuery

end GraphQL
