import GraphQL.Proofs.Execution.Selected
import GraphQL.Proofs.Plan.Collected
import Mathlib.Data.List.Forall2

/-!
# Fields as they are written

A selection without spreads lists fields, each inside some fragments in place. `Selection.occurrencesAll`
lists them with the directives around them, and `FieldPlan.Mirrors` says that a field of a plan has the
directives of its occurrence, those around it first. Which fields are kept is then a matter of these
directives alone, as long as all of them have Booleans.
-/

namespace GraphQL

/-- A field where it is written. -/
structure Occurrence where
  /-- The directives of the fragments around the field, outermost first. -/
  around : List Directive
  head : FieldHead
  selection : List Selection

namespace Selection

mutual

/-- The fragments that a selection spreads, inside its fields too. -/
def spreads : Selection → List String
  | .field _ selection => spreadsAll selection
  | .spread _ name _ => [name]
  | .inline _ _ selection => spreadsAll selection

def spreadsAll : List Selection → List String
  | [] => []
  | selection :: rest => spreads selection ++ spreadsAll rest

end

mutual

/-- The fields of a selection without spreads, not those inside other fields. -/
def occurrences (around : List Directive) : Selection → List Occurrence
  | .field head selection => [⟨around, head, selection⟩]
  | .spread .. => []
  | .inline _ own selection => occurrencesAll (around ++ own) selection

def occurrencesAll (around : List Directive) : List Selection → List Occurrence
  | [] => []
  | selection :: rest => occurrences around selection ++ occurrencesAll around rest

end

end Selection

/-- The condition that a directive stands for. -/
def Directive.condition? (d : Directive) : Option Condition :=
  match d.name, d.arguments.find? (·.name.value = "if") with
  | "skip", some argument => some (.skipIf argument.value.value)
  | "include", some argument => some (.includeIf argument.value.value)
  | _, _ => none

/-- A field of a plan has the name and key of a written field and the conditions of all directives around
and on it, and so have the fields below it. -/
inductive FieldPlan.Mirrors : FieldPlan → Occurrence → Prop
  | intro (field : FieldPlan) (occurrence : Occurrence) (name : field.name = occurrence.head.name)
    (key : field.responseKey = occurrence.head.responseKey)
    (directives : field.directives.map some = (occurrence.around ++ occurrence.head.directives).map (·.condition?))
    (within : List.Forall₂ Mirrors field.selection (Selection.occurrencesAll [] occurrence.selection)) :
    Mirrors field occurrence

namespace Compiler

variable {c : Compiler}

/-- A directive that compiles has an argument, whose variables are declared. -/
theorem condition_eq_ok {d : Directive} {condition : Condition} (compiled : c.condition d = .ok condition) :
    d.condition? = some condition ∧ ∃ location, c.checkVariables ⟨location, condition.value⟩ = .ok () := by
  unfold Compiler.condition at compiled
  unfold Directive.condition?
  simp only at compiled
  split at compiled
  · next skips =>
    obtain ⟨make, chosen, compiled⟩ := except_bind_eq_ok.1 compiled
    cases chosen
    split at compiled
    · cases compiled
    · next argument found =>
      obtain ⟨_, checked, made⟩ := except_bind_eq_ok.1 compiled
      cases made
      rw [skips, found]
      exact ⟨rfl, argument.value.location, checked⟩
  · next includes =>
    obtain ⟨make, chosen, compiled⟩ := except_bind_eq_ok.1 compiled
    cases chosen
    split at compiled
    · cases compiled
    · next argument found =>
      obtain ⟨_, checked, made⟩ := except_bind_eq_ok.1 compiled
      cases made
      rw [includes, found]
      exact ⟨rfl, argument.value.location, checked⟩
  · cases compiled

theorem conditions_cons_eq_ok {d : Directive} {rest : List Directive} {all : List Condition}
    (compiled : c.conditions (d :: rest) = .ok all) :
    ∃ first others, c.condition d = .ok first ∧ c.conditions rest = .ok others ∧ all = first :: others := by
  unfold conditions at compiled
  rw [List.mapM_cons] at compiled
  obtain ⟨first, here, compiled⟩ := except_bind_eq_ok.1 compiled
  obtain ⟨others, after, made⟩ := except_bind_eq_ok.1 compiled
  cases made
  exact ⟨first, others, here, after, rfl⟩

/-- Directives are compiled to their conditions, in order. -/
theorem conditions_eq_ok {directives : List Directive} {conditions : List Condition}
    (compiled : c.conditions directives = .ok conditions) :
    conditions.map some = directives.map (·.condition?) := by
  induction directives generalizing conditions with
  | nil =>
    cases compiled
    rfl
  | cons d rest ih =>
    obtain ⟨first, others, here, after, rfl⟩ := conditions_cons_eq_ok compiled
    rw [List.map_cons, List.map_cons, ih after, (condition_eq_ok here).1]

variable {stack : List String} {parent : ParentType} {condition : Option NamedType} {directives : List Condition}
  {selections : List Selection} {fields : List FieldPlan} {r r' : Registry}

/-- Where nothing is spread, the fields compiled are those that are written, in their order. -/
theorem Collects.mirrors (collects : c.Collects stack parent condition directives selections r fields r') :
    ∀ around : List Directive, Selection.spreadsAll selections = [] →
      directives.map some = around.map (·.condition?) →
        List.Forall₂ FieldPlan.Mirrors fields (Selection.occurrencesAll around selections) := by
  have joined {directives own : List Condition} {around written : List Directive}
      (before : directives.map some = around.map (·.condition?)) (checked : c.conditions written = .ok own) :
      (directives ++ own).map some = (around ++ written).map (·.condition?) := by
    rw [List.map_append, List.map_append, before, conditions_eq_ok checked]
  induction collects with
  | nil =>
    intro around _ _
    exact .nil
  | leaf prepared _ _ others =>
    intro around plain before
    have here := joined before prepared.conditions
    exact .cons (.intro _ ⟨around, _, []⟩ rfl rfl here .nil) (others around plain before)
  | nested prepared _ _ _ _ _ below others =>
    intro around plain before
    obtain ⟨inside, after⟩ := List.append_eq_nil_iff.1 plain
    have here := joined before prepared.conditions
    exact .cons (.intro _ ⟨around, _, _⟩ rfl rfl here (below [] inside rfl)) (others around after before)
  | spread =>
    intro around plain _
    cases plain
  | inline checked _ _ _ first others =>
    intro around plain before
    obtain ⟨inside, after⟩ := List.append_eq_nil_iff.1 plain
    exact List.rel_append (first (around ++ _) inside (joined before checked)) (others around after before)

end Compiler

namespace Execution

variable {x : Execution} {field : FieldPlan}

/-- Every directive around or on a field is for keeping it. -/
structure Wants (x : Execution) (field : FieldPlan) : Prop where
  skips : ∀ value, .skipIf value ∈ field.directives → x.flag value = some false
  includes : ∀ value, .includeIf value ∈ field.directives → x.flag value = some true

theorem wants_iff : x.Wants field ↔ ∀ condition ∈ field.directives, x.flag condition.value = some condition.expected := by
  constructor
  · rintro ⟨skips, includes⟩ condition mem
    cases condition with
    | skipIf value => exact skips value mem
    | includeIf value => exact includes value mem
  · intro all
    exact ⟨fun value mem => all (.skipIf value) mem, fun value mem => all (.includeIf value) mem⟩

theorem holds_of_flags (field : FieldPlan) {conditions : List Condition}
    (flags : ∀ condition ∈ conditions, (x.flag condition.value).isSome = true) :
    ∃ keep, x.holds field conditions = .ok keep ∧
      (keep = true ↔ ∀ condition ∈ conditions, x.flag condition.value = some condition.expected) := by
  induction conditions with
  | nil => exact ⟨true, rfl, by simp⟩
  | cons condition rest ih =>
    obtain ⟨here, others⟩ := List.forall_mem_cons.1 flags
    obtain ⟨flag, has⟩ := Option.isSome_iff_exists.1 here
    obtain ⟨keep, held, iff⟩ := ih others
    rw [holds, has]
    simp only
    by_cases expected : flag = condition.expected
    · rw [if_pos expected]
      refine ⟨keep, held, iff.trans ?_⟩
      rw [List.forall_mem_cons, has, expected]
      simp
    · rw [if_neg expected]
      refine ⟨false, rfl, ?_⟩
      rw [List.forall_mem_cons, has]
      simp [expected]

/-- If all directives of a field have Booleans, then whether it is kept is decided, and it is kept if every
`@skip` is false and every `@include` is true. -/
theorem isIncluded_iff_wants (flags : ∀ condition ∈ field.directives, (x.flag condition.value).isSome = true) :
    ∃ keep, x.isIncluded field = .ok keep ∧ (keep = true ↔ x.Wants field) := by
  obtain ⟨keep, held, iff⟩ := holds_of_flags field flags
  exact ⟨keep, held, iff.trans wants_iff.symm⟩

theorem mem_collect_iff {selection fields : List FieldPlan} {concrete : Option NamedType}
    (flags : ∀ condition ∈ field.directives, (x.flag condition.value).isSome = true) (mem : field ∈ selection)
    (ran : x.collect selection concrete = .ok fields) :
    field ∈ fields ↔ appliesTo field concrete = true ∧ x.Wants field := by
  obtain ⟨keep, held, iff⟩ := isIncluded_iff_wants flags
  rw [collect_eq_ok ran, selected, List.mem_filter, Bool.and_eq_true, keeps, held, ← iff]
  simp [mem]

end Execution

end GraphQL
