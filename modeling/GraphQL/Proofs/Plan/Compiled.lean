import GraphQL.Proofs.Plan.Collected

/-!
# What compiling guarantees of a plan

A plan that compiling accepts is sound: in every selection two fields of one response key have different
type conditions, every field has the type that its target declares, and the root fields are under no
type condition.
-/

namespace GraphQL

/-- The type that a target declares for a field. For the field of an interface the plan does not say. -/
inductive FieldTarget.Typed : FieldTarget → TypeRef → Prop
  | operation (operation : OperationDescriptor) : Typed (.operation operation) operation.output
  | objectField {owner : TypeDescriptor} {index : Nat} {object : ObjectFields} {declared : FieldDescriptor}
    (has : owner.objectFields? = some object) (at' : object.fields[index]? = some declared) :
    Typed (.objectField owner index) declared.type
  | interfaceField (type : TypeRef) : Typed .interfaceField type
  | typename : Typed .typename (.named (.builtin .string) false)

/-- A field whose type is that of its target and whose selection has no clash, and all fields below. -/
inductive FieldPlan.Sound : FieldPlan → Prop
  | intro (field : FieldPlan) (typed : field.target.Typed field.type)
    (distinct : firstDuplicate [] field.selection = none) (within : ∀ f ∈ field.selection, f.Sound) : Sound field

namespace FieldPlan.Sound

variable {field : FieldPlan}

theorem typed (sound : field.Sound) : field.target.Typed field.type := by
  cases sound with
  | intro _ typed _ _ => exact typed

theorem distinct (sound : field.Sound) : firstDuplicate [] field.selection = none := by
  cases sound with
  | intro _ _ distinct _ => exact distinct

theorem within (sound : field.Sound) : ∀ f ∈ field.selection, f.Sound := by
  cases sound with
  | intro _ _ _ within => exact within

end FieldPlan.Sound

namespace Plan

/-- A plan without clashes, whose root fields are under no type condition. -/
structure Sound (plan : Plan) : Prop where
  distinct : firstDuplicate [] plan.selection = none
  unconditional : ∀ field ∈ plan.selection, field.condition = none
  fields : ∀ field ∈ plan.selection, field.Sound
  single : plan.kind = .subscription → plan.selection.length = 1

/-- The plan of some operation of a document, compiled against some operations and types. -/
def Compiled (plan : Plan) : Prop :=
  ∃ options document operationName registry registry',
    outcome (compileDocument options document operationName) registry = (.ok plan, registry')

theorem compiled_of_text {options : CompileOptions} {query : String} {operationName : Option String}
    {registry registry' : Registry} {plan : Plan}
    (ran : outcome (compile options query operationName) registry = (.ok plan, registry')) : plan.Compiled := by
  obtain ⟨document, _, ran⟩ := compile_eq_ok ran
  exact ⟨options, document, operationName, registry, registry', ran⟩

end Plan

namespace Compiler

variable {c : Compiler} {parent : ParentType} {condition : Option NamedType} {r r' : Registry}

theorem getElem?_position {object : ObjectFields} {name : String} {index : Nat} {declared : FieldDescriptor}
    (position : object.position? name = some index) (found : object.find? name = some declared) :
    object.fields[index]? = some declared := by
  unfold ObjectFields.position? at position
  unfold ObjectFields.find? at found
  rw [List.find?_eq_bind_findIdx?_getElem?, position] at found
  exact found

theorem target_typed {head : FieldHead} {target : FieldTarget} {type : TypeRef}
    (compiled : c.target parent head = .ok (target, type)) : target.Typed type := by
  unfold Compiler.target at compiled
  simp only at compiled
  split at compiled
  · split at compiled
    · cases compiled
    · cases compiled
      exact .typename
  · split at compiled
    · split at compiled
      · cases compiled
      · next operation _ =>
        split at compiled
        · cases compiled
        · cases compiled
          exact .operation operation
    · split at compiled
      · cases compiled
      · split at compiled
        · next object kind =>
          split at compiled
          · next index declared position found =>
            cases compiled
            refine .objectField ?_ (getElem?_position position found)
            rw [TypeDescriptor.objectFields?, kind]
          · cases compiled
        · split at compiled
          · cases compiled
            exact .interfaceField _
          · cases compiled
        · cases compiled

/-- A root selection can only be narrowed to itself. -/
theorem Enters.root {kind : OperationKind} {on : Option (Located String)} {narrowed : ParentType}
    {concrete : Option NamedType} (enters : c.Enters (.root kind) condition r on narrowed concrete r') :
    narrowed = .root kind ∧ concrete = condition := by
  cases enters with
  | plain => exact ⟨rfl, rfl⟩
  | same _ => exact ⟨rfl, rfl⟩
  | narrowed candidate _ _ _ => cases candidate

section

variable {stack : List String} {directives : List Condition} {selections : List Selection} {fields : List FieldPlan}

/-- Fields that are compiled are sound. -/
theorem Collects.sound (collects : c.Collects stack parent condition directives selections r fields r') :
    ∀ field ∈ fields, field.Sound := by
  induction collects with
  | nil => exact fun field mem => absurd mem List.not_mem_nil
  | leaf prepared _ _ others =>
    have typed := target_typed prepared.target
    exact List.forall_mem_cons.2 ⟨.intro _ typed rfl fun field mem => absurd mem List.not_mem_nil, others⟩
  | nested prepared _ _ _ distinct _ below others =>
    have typed := target_typed prepared.target
    exact List.forall_mem_cons.2 ⟨.intro _ typed distinct below, others⟩
  | spread _ _ _ _ _ _ first others => exact List.forall_mem_append.2 ⟨first, others⟩
  | inline _ _ _ _ first others => exact List.forall_mem_append.2 ⟨first, others⟩

/-- Root fields are under the type condition that they were under at first. -/
theorem Collects.unconditional {kind : OperationKind}
    (collects : c.Collects stack parent condition directives selections r fields r') (root : parent = .root kind) :
    ∀ field ∈ fields, field.condition = condition := by
  induction collects with
  | nil => exact fun field mem => absurd mem List.not_mem_nil
  | leaf _ _ _ others => exact List.forall_mem_cons.2 ⟨rfl, others root⟩
  | nested _ _ _ _ _ _ _ others => exact List.forall_mem_cons.2 ⟨rfl, others root⟩
  | spread _ _ _ enters _ _ first others =>
    subst root
    obtain ⟨rfl, rfl⟩ := enters.root
    exact List.forall_mem_append.2 ⟨first rfl, others rfl⟩
  | inline _ enters _ _ first others =>
    subst root
    obtain ⟨rfl, rfl⟩ := enters.root
    exact List.forall_mem_append.2 ⟨first rfl, others rfl⟩

end

end Compiler

/-- A plan that compiling accepts is sound. -/
theorem Plan.Compiled.sound {plan : Plan} (compiled : plan.Compiled) : plan.Sound := by
  obtain ⟨options, document, operationName, registry, registry', ran⟩ := compiled
  obtain ⟨name, operation, _, _, _, collects, unique, single⟩ := compileDocument_eq_ok ran
  exact ⟨unique, collects.unconditional rfl, collects.sound, single⟩

/-! ## A plan

A query for the identifier of a node. Nodes are an interface whose identifiers are strings; accounts
implement it, and their identifiers are lists of integers. -/

namespace NodeQuery

def node : HostType :=
  { hostName := "Node"
    description := { interfaceFields := [⟨"id", .named (.builtin .string) true, {}⟩], implementors := [1] } }

def account : HostType :=
  { hostName := "Account"
    description := { fields := [⟨"id", .field, .list (.named (.builtin .int32) true) true, .slice, {}⟩] } }

def host : Host := { builtinName := BuiltinType.scalarName, types := [node, account] }

/-- The account that the resolver of the operation returns. -/
def value : HostValue := .mk 1 .none [("id", .ok (.list [.const (.int 1), .const (.int 2)]))] []

def operation : OperationDescriptor :=
  { kind := .query, name := "node", info := {}, output := .named (.host 0) true, mode := .positional
    binding := .arguments [], resolver := .field fun _ => .ok (.done (.ok (.host value))) }

def options : CompileOptions :=
  { host, operations := { query := [("node", operation)] }, scorer := .default, listSizeEstimate := 10 }

def document : Document :=
  { operations := .anonymous ⟨.start, .query, [],
      [.field ⟨.start, none, "node", [], []⟩ [.field ⟨.start, none, "id", [], []⟩ []]]⟩
    fragments := [] }

def idField : FieldPlan :=
  { responseKey := "id", aliased := false, name := "id", location := .start, condition := none, directives := []
    arguments := [], target := .interfaceField, type := .named (.builtin .string) true, complexity := 1
    selection := [] }

def nodeField : FieldPlan :=
  { responseKey := "node", aliased := false, name := "node", location := .start, condition := none, directives := []
    arguments := [], target := .operation operation, type := .named (.host 0) true, complexity := 2
    selection := [idField] }

def plan : Plan := { kind := .query, name := none, variableDefinitions := [], selection := [nodeField] }

theorem plan_compiled : plan.Compiled := by
  have collected : outcome ((Compiler.mk options [] []).collect [] (.root .query) none []
      [.field ⟨.start, none, "node", [], []⟩ [.field ⟨.start, none, "id", [], []⟩ []]]) {} =
        (.ok [nodeField], (outcome (host.describe (.builtin .string)) (outcome (host.describe (.host 0)) {}).2).2) := by
    simp only [Compiler.collect]
    with_unfolding_all rfl
  exact ⟨options, document, none, {}, _,
    outcome_bind_eq_ok.2 ⟨_, _, rfl, outcome_bind_eq_ok.2 ⟨_, _, collected, rfl⟩⟩⟩

end NodeQuery

end GraphQL
