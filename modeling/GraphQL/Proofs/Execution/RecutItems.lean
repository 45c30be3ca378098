import GraphQL.Proofs.Execution.LikenessRuns
import GraphQL.Proofs.Execution.RecutLists
import GraphQL.Proofs.Execution.WireTypes

/-!
# Items that are cut

What stands in a list beyond the limit has no influence on the response: `cut_items_ignored`. This holds of every
list at the place of a list, in what resolvers return and in events, at any depth, whether the items that are cut
could be completed or not. Of the lists inside a map it holds where those items are spared: one that cannot be
serialized fails the whole map, although it is not to be shown.
-/

namespace GraphQL

namespace Execution

section

variable (x : Execution) (r : Registry)

/-- What calling the resolver of a field of a type comes to: the same work, up to a recut value at its end. -/
inductive RecutCall (type : TypeRef) : Except String (Work Resolved) → Except String (Work Resolved) → Prop
  | works {work work' : Work Resolved} (alike : work.Alike (x.RecutReading r type) work') :
    RecutCall type (.ok work) (.ok work')
  | failed (message : String) : RecutCall type (.error message) (.error message)

/-- The target with another resolver, whose results are recut. -/
inductive RecutTarget (type : TypeRef) : FieldTarget → FieldTarget → Prop
  | same (target : FieldTarget) : RecutTarget type target target
  | resolver {operation : OperationDescriptor} {resolver resolver' : Resolver Resolved}
    (calls : operation.resolver = .field resolver)
    (each : ∀ arguments, x.RecutCall r type (resolver arguments) (resolver' arguments)) :
    RecutTarget type (.operation operation) (.operation { operation with resolver := .field resolver' })

/-- The root field with another resolver, whose results are recut. -/
structure RecutField (field field' : FieldPlan) : Prop where
  rest : field' = { field with target := field'.target }
  target : x.RecutTarget r field.type field.target field'.target

/-- The plan of the execution with other resolvers, whose results are recut. -/
structure RecutPlan (plan : Plan) : Prop where
  kind : plan.kind = x.plan.kind
  fields : List.Forall₂ (x.RecutField r) x.plan.selection plan.selection

end

variable {x : Execution} {r : Registry} (reachable : x.host.Reachable r) {type : TypeRef}

theorem RecutCall.calls {called called' : Except String (Work Resolved)} (recut : x.RecutCall r type called called') :
    (x.recutting reachable).Calls type called called' := by
  cases recut with
  | works alike => exact .works (alike.mono fun _ _ recut => recut.reads reachable)
  | failed message => exact .failed message

theorem RecutCall.refl (called : Except String (Work Resolved)) : x.RecutCall r type called called := by
  cases called with
  | ok work => exact .works (.refl .same work)
  | error message => exact .failed message

/-- Resolvers whose results are recut do alike with whatever reading the arguments comes to. -/
theorem RecutCall.binds {resolver resolver' : Resolver Resolved}
    (each : ∀ arguments, x.RecutCall r type (resolver arguments) (resolver' arguments))
    (bound : Except Failure (List Resolved) × Registry) :
    (x.recutting reachable).Binds type resolver resolver' bound bound := by
  obtain ⟨result, after⟩ := bound
  cases result with
  | ok arguments => exact .called ((each arguments).calls reachable)
  | error failure => exact .failed

theorem RecutTarget.targets {target target' : FieldTarget} (recut : x.RecutTarget r type target target')
    (arguments : List (String × Value)) :
    (x.recutting reachable).Targets type arguments arguments target target' := by
  cases recut with
  | resolver calls each => exact .calls calls rfl fun before => RecutCall.binds reachable each _
  | same =>
    cases target with
    | operation operation =>
      cases calls : operation.resolver with
      | field resolver => exact .calls calls calls fun before => RecutCall.binds reachable (fun _ => .refl _) _
      | stream _ =>
        refine .same fun operation' resolver same => ?_
        cases same
        rw [calls]
        exact fun same => by cases same
    | _ => exact .same fun _ _ same => by cases same

theorem RecutField.fields {field field' : FieldPlan} (recut : x.RecutField r field field') :
    (x.recutting reachable).Fields field field' := by
  obtain ⟨rest, target⟩ := recut
  have arguments : field'.arguments = field.arguments := by rw [rest]
  refine ⟨by rw [rest]; rfl, ?_⟩
  rw [arguments]
  exact target.targets reachable _

/-- What lists are cut off has no influence on a response. -/
structure IgnoresCut (x : Execution) (state : ExecutionState) : Prop where
  /-- At the place of a list, any other items may stand beyond the limit. -/
  lists : ∀ item nullable items items', x.limits.keepItems items' = x.limits.keepItems items →
    x.Recut state.registry (.list item nullable) (.list items) (.list items')
  /-- Inside a map, other items that are spared. -/
  listsInMaps : ∀ item nullable items items', x.limits.keepItems items' = x.limits.keepItems items →
    x.Spares state.registry item items → x.Spares state.registry item items' →
      x.RecutLeaf state.registry (.list item nullable) (.list items) (.list items')
  execute : ∀ plan, x.RecutPlan state.registry plan → ((x.withPlan plan).execute state).1 = (x.execute state).1
  executeEvent : ∀ event event', (∀ field ∈ x.plan.selection, x.Recut state.registry field.type event event') →
    (x.executeEvent event' state).1 = (x.executeEvent event state).1

/-- With whatever limits, variables and data a plan that was compiled from a text is executed, its responses are the
same whatever stands in a list beyond the limit. -/
theorem cut_items_ignored {options : CompileOptions} {query : String} {operationName : Option String}
    {registry registry' : Registry} {plan : Plan} (described : options.host.Reachable registry)
    (compiled : outcome (compile options query operationName) registry = (.ok plan, registry')) :
    ∀ (x : Execution) (state : ExecutionState), x.host = options.host → x.plan = plan →
      options.host.Reachable state.registry → x.IgnoresCut state := by
  intro x state sameHost samePlan begun
  subst samePlan
  have executable := executable_of_compiled sameHost described compiled
  have reachable : x.host.Reachable state.registry := sameHost ▸ begun
  refine ⟨fun _ _ _ _ same => .of_keepItems same, fun _ _ _ _ same spared spared' => .of_keepItems same spared spared',
    fun plan recut => ?_, fun event event' recut => ?_⟩
  · have fields : List.Forall₂ (x.recutting reachable).Fields x.plan.selection plan.selection :=
      recut.fields.imp fun _ _ recut => recut.fields reachable
    obtain ⟨data, errors, errors', _, _, same, -, executed, executed'⟩ :=
      (x.recutting reachable).execute_alike executable False.elim (.refl _ _) rfl recut.kind fields
    cases same
    rw [executed, executed']
  · obtain ⟨data, errors, errors', _, _, same, -, executed, executed'⟩ :=
      (x.recutting reachable).executeEvent_alike id executable (.refl _ _) rfl recut
    cases same
    rw [executed, executed']

end Execution

/-! ## Shades

A query for colors by name: a list of maps of lists, each cut to its first item. -/

namespace ShadesQuery

def color : HostType := { hostName := "Color", description := { enumValues := [⟨"RED", "RED", {}⟩] } }

def host : Host := { builtinName := BuiltinType.scalarName, types := [color] }

def red : Resolved := .host (.mk 0 (.variant "RED") [] [])

/-- A value of the type that no name of the enumeration stands for. -/
def plaid : Resolved := .host (.mk 0 (.variant "PLAID") [] [])

def output : TypeRef := .list (.map (.list (.named (.host 0) true) true) true) true

def operation (shades : Resolved) : OperationDescriptor :=
  { kind := .query, name := "shades", info := {}, output, mode := .positional, binding := .arguments []
    resolver := .field fun _ => .ok (.done (.ok shades)) }

def options (shades : Resolved) : CompileOptions :=
  { host, operations := { query := [("shades", operation shades)] }, scorer := .default, listSizeEstimate := 1 }

def field (shades : Resolved) : FieldPlan :=
  { responseKey := "shades", aliased := false, name := "shades", location := ⟨1, 3⟩, condition := none
    directives := [], arguments := [], target := .operation (operation shades), type := output, complexity := 1
    selection := [] }

def plan (shades : Resolved) : Plan :=
  { kind := .query, name := none, variableDefinitions := [], selection := [field shades] }

def text : String := "\x7b shades \x7d"

def colorType : TypeDescriptor :=
  { type := .host 0, name := "Color", description := none, kind := .enum color.description.enumValues }

def types : Registry := { descriptors := [(.host 0, colorType)], names := [("Color", .host 0)] }

/-- Shades of one name. -/
def warm (colors : List Resolved) : Resolved := .map [("warm", .list colors)]

/-- What stands beyond the limits can be shown. -/
def pale : Resolved := .list [warm [red, red], .null]

/-- What stands beyond the outer limit is no map. -/
def loud : Resolved := .list [warm [red], .const (.int 1)]

/-- What stands beyond the inner limit has no name. -/
def checked : Resolved := .list [warm [red, plaid], .null]

theorem compiled : ∀ shades ∈ [pale, loud, checked],
    outcome (compile (options shades) text none) {} = (.ok (plan shades), types) := by
  have parsed : Document.parse text = .ok
      { operations := .anonymous ⟨.start, .query, [], [.field ⟨⟨1, 3⟩, none, "shades", [], []⟩ []]⟩, fragments := [] } := by
    with_unfolding_all rfl
  intro shades mem
  have collected : outcome ((Compiler.mk (options shades) [] []).collect [] (.root .query) none []
      [.field ⟨⟨1, 3⟩, none, "shades", [], []⟩ []]) {} = (.ok (plan shades).selection, types) := by
    simp only [Compiler.collect]
    rcases mem with _ | ⟨_, _ | ⟨_, _ | ⟨_, mem⟩⟩⟩
    · with_unfolding_all rfl
    · with_unfolding_all rfl
    · with_unfolding_all rfl
    · cases mem
  unfold compile
  rw [parsed]
  exact outcome_bind_eq_ok.2 ⟨_, _, rfl, outcome_bind_eq_ok.2 ⟨_, _, collected, rfl⟩⟩

def execution (shades : Resolved) : Execution :=
  { host, limits := { maxArraySize := 1 }, plan := plan shades, variableValues := [] }

def state : ExecutionState := { registry := types, slots := { limit := 0 }, cancelled := false }

theorem rooted (shades : Resolved) : (execution shades).rootFields = .ok [field shades] := by
  with_unfolding_all rfl

/-- The shade that is kept. -/
def data : ResponseValue := .object [("shades", .list [.const (.object [("warm", .list [.enum "RED"])])])]

theorem pale_answered : ((execution pale).execute state).1 = .ok ⟨data, []⟩ := by
  rw [Execution.execute_twice (rooted pale) rfl (by decide +kernel) (by decide +kernel) (by decide +kernel)]
  with_unfolding_all rfl

theorem types_reachable : host.Reachable types := by
  have described : outcome (host.describe (.host 0)) {} = (.ok colorType, types) := by with_unfolding_all rfl
  have settles : host.Settles (host.describe (.host 0)) := Host.describe_settles (.host 0)
  have grown := (settles {}).grows
  rw [described] at grown
  exact .described .empty grown

/-- A color that has a name is serialized wherever colors are described. -/
theorem red_serialized {later : Registry} (after : host.Later types later) :
    ∃ c, (outcome ((execution pale).serialize (.named (.host 0) true) red) later).1 = .ok c := by
  have described : outcome (host.describe (.host 0)) later = (.ok colorType, later) :=
    Host.describeWithin_cached (after.find? rfl)
  have plain : later.scalar? (.host 0) = none := after.scalar? (.host 0)
  have written := Execution.serializeNamed_enum (x := execution pale) (d := colorType) plain rfl rfl
    ⟨⟨"RED", "RED", {}⟩, List.mem_cons_self, rfl⟩
  have single : (execution pale).serialize (.named (.host 0) true) red = (execution pale).serializeSingle (.host 0) red :=
    Execution.serialize_single (Or.inr ⟨_, rfl⟩) _ _
  refine ⟨(WireType.enum 0).constant host "RED", ?_⟩
  rw [single, Execution.outcome_serializeSingle described]
  exact written

theorem tails_ignored : host.Reachable state.registry ∧
    outcome (compile (options pale) text none) {} = (.ok (plan pale), types) ∧
    (execution pale).RecutPlan types (plan loud) ∧ ((execution pale).execute state).1 = .ok ⟨data, []⟩ ∧
    (((execution pale).withPlan (plan loud)).execute state).1 = .ok ⟨data, []⟩ := by
  have ignores : (execution pale).IgnoresCut state :=
    Execution.cut_items_ignored .empty (compiled pale (by simp)) (execution pale) state rfl rfl types_reachable
  have spared : (execution pale).Spares types (.named (.host 0) true) [red, red] := by
    refine Execution.Spares.of_described (d := colorType) rfl rfl fun a mem later after => ?_
    cases List.mem_singleton.1 mem
    exact red_serialized after
  have spared' : (execution pale).Spares types (.named (.host 0) true) [red] := fun _ _ => ⟨[], rfl⟩
  have colors : (execution pale).RecutLeaf types (.list (.named (.host 0) true) true) (.list [red, red]) (.list [red]) :=
    ignores.listsInMaps _ _ _ _ rfl spared spared'
  have first : (execution pale).RecutLeaf types (.map (.list (.named (.host 0) true) true) true) (warm [red, red])
      (warm [red]) := by
    refine .map rfl (fun a a' mem => ?_) (fun a a' mem => ?_)
    · cases List.mem_singleton.1 mem
      rfl
    · cases List.mem_singleton.1 mem
      exact colors
  have recut : (execution pale).Recut types output pale loud := by
    refine .list rfl fun a a' mem => ?_
    cases List.mem_singleton.1 mem
    exact .leaf first
  have plans : (execution pale).RecutPlan types (plan loud) :=
    ⟨rfl, .cons ⟨rfl, .resolver rfl fun _ => .works (.done (.read recut))⟩ .nil⟩
  exact ⟨types_reachable, compiled pale (by simp), plans, pale_answered,
    (ignores.execute _ plans).trans pale_answered⟩

/-- A map that is kept is refused for an item of its list that is not. -/
theorem plaid_noticed : outcome (compile (options pale) text none) {} = (.ok (plan pale), types) ∧
    outcome (compile (options checked) text none) {} = (.ok (plan checked), types) ∧
    (execution checked).limits.keepItems [red, plaid] = (execution pale).limits.keepItems [red, red] ∧
    ((execution pale).execute state).1 = .ok ⟨data, []⟩ ∧
    ∃ e : ResponseError, ((execution checked).execute state).1 = .ok ⟨.object [("shades", .list [.null])], [e]⟩ ∧
      e.path = some [.key "shades", .index 0] ∧ e.message = "value is not a member of enum Color" := by
  refine ⟨compiled pale (by simp), compiled checked (by simp), rfl, pale_answered, ?_⟩
  rw [Execution.execute_twice (rooted checked) rfl (by decide +kernel) (by decide +kernel) (by decide +kernel)]
  exact ⟨_, by with_unfolding_all rfl, by with_unfolding_all rfl, by with_unfolding_all rfl⟩

end ShadesQuery

end GraphQL
