import GraphQL.Proofs.Execution.Aborts
import GraphQL.Proofs.Execution.CalmedRuns
import GraphQL.Proofs.Execution.Raising

/-!
# Panics

A panic of a resolver, of what reads its arguments, or of the getter of a field is caught where it is
called: the field is null, with one error, and the rest of the data is what it would be if host code had
given null. The getters of the members of a union are called while the union is completed, where nothing
catches. They are the only host code that takes a whole request down.
-/

namespace GraphQL

namespace Execution

variable {x : Execution} {state : ExecutionState} {message : String}

end Execution

/-! ## A broken account

The query for a node, answered with an account of which the getter panics. -/

namespace BrokenQuery

def value : HostValue := .mk 1 .none [("id", .error (.panic "no id"))] []

def operation : OperationDescriptor :=
  { NodeQuery.operation with resolver := .field fun _ => .ok (.done (.ok (.host value))) }

def options : CompileOptions := { NodeQuery.options with operations := { query := [("node", operation)] } }

def idField : FieldPlan := { NodeQuery.idField with location := ⟨1, 10⟩ }

def nodeField : FieldPlan :=
  { NodeQuery.nodeField with location := ⟨1, 3⟩, target := .operation operation, selection := [idField] }

def plan : Plan := { NodeQuery.plan with selection := [nodeField] }

theorem plan_compiled : outcome (compile options NodeQuery.text none) {} = (.ok plan, NodeQuery.textTypes) := by
  have parsed : Document.parse NodeQuery.text = .ok
      { operations := .anonymous ⟨.start, .query, [],
          [.field ⟨⟨1, 3⟩, none, "node", [], []⟩ [.field ⟨⟨1, 10⟩, none, "id", [], []⟩ []]]⟩
        fragments := [] } := by
    with_unfolding_all rfl
  have collected : outcome ((Compiler.mk options [] []).collect [] (.root .query) none []
      [.field ⟨⟨1, 3⟩, none, "node", [], []⟩ [.field ⟨⟨1, 10⟩, none, "id", [], []⟩ []]]) {} =
        (.ok plan.selection, NodeQuery.textTypes) := by
    simp only [Compiler.collect]
    with_unfolding_all rfl
  unfold compile
  rw [parsed]
  exact outcome_bind_eq_ok.2 ⟨_, _, rfl, outcome_bind_eq_ok.2 ⟨_, _, collected, rfl⟩⟩

def execution : Execution := { NodeQuery.execution with plan }

def run : Run := [0].foldl (Run.poll execution) (Run.launch [nodeField] NodeQuery.state)

def node : TypeDescriptor :=
  { type := .host 0, name := "Node", description := none
    kind := .interface ⟨NodeQuery.node.description.interfaceFields, [1]⟩ }

def declared : FieldDescriptor :=
  { name := "id", source := .field, type := .list (.named (.builtin .int32) true) true, shape := .slice, info := {}
    owner := 1, ownerName := "Account", path := [] }

def account : TypeDescriptor :=
  { type := .host 1, name := "Account", description := none, kind := .object ⟨[], [declared]⟩ }

def data : ResponseValue := .object [("id", .null)]

end BrokenQuery

/-! ## Pets

A pet is a union whose member is a cat. The pet that the resolver returns panics when it is asked for it. -/

namespace PetQuery

def pet : HostType :=
  { hostName := "Pet"
    description := { isUnion := true, fields := [⟨"cat", .field, .named (.host 1) true, .pointer, {}⟩] } }

def cat : HostType :=
  { hostName := "Cat", description := { fields := [⟨"name", .field, .named (.builtin .string) true, .value, {}⟩] } }

def host : Host := { builtinName := BuiltinType.scalarName, types := [pet, cat] }

def value : HostValue := .mk 0 .none [("cat", .error (.panic "no cat"))] []

def operation (name : String) (output : TypeRef) (result : Resolved) : OperationDescriptor :=
  { kind := .query, name, info := {}, output, mode := .positional, binding := .arguments []
    resolver := .field fun _ => .ok (.done (.ok result)) }

def field (name : String) (output : TypeRef) (result : Resolved) (selection : List FieldPlan) : FieldPlan :=
  { responseKey := name, aliased := false, name, location := .start, condition := none, directives := []
    arguments := [], target := .operation (operation name output result), type := output, complexity := 1, selection }

def typename : FieldPlan :=
  { responseKey := "__typename", aliased := false, name := "__typename", location := .start, condition := none
    directives := [], arguments := [], target := .typename, type := .named (.builtin .string) false
    complexity := 0, selection := [] }

def options : CompileOptions :=
  { host
    operations :=
      { query :=
          [("pet", operation "pet" (.named (.host 0) true) (.host value)),
            ("n", operation "n" (.named (.builtin .int32) true) (.int 1))] }
    scorer := .default, listSizeEstimate := 10 }

def fields : List FieldPlan :=
  [field "pet" (.named (.host 0) true) (.host value) [typename], field "n" (.named (.builtin .int32) true) (.int 1) []]

def execution : Execution :=
  { host, limits := {}, variableValues := []
    plan := { kind := .query, name := none, variableDefinitions := [], selection := fields } }

def state : ExecutionState := { registry := {}, slots := { limit := 0 }, cancelled := false }

end PetQuery

end GraphQL
