import GraphQL.Proofs.Execution.Likeness
import GraphQL.Proofs.Execution.Fetching
import GraphQL.Proofs.Execution.Verdicts
import GraphQL.Proofs.Plan.Twins

/-!
# Shaping events

An event is shaped like the value of a query whose resolver returns it: `event_shaped_as_query`.
-/

namespace GraphQL

namespace Execution

variable {x : Execution} {field field' : FieldPlan}

/-! ## Fields that resemble each other -/

theorem fieldError_resembling (resembles : field.Resembles field') (message : String) (code : ErrorCode)
    (path : ErrorPath) : ExecM.fieldError message code field' path = ExecM.fieldError message code field path := by
  unfold ExecM.fieldError
  rw [resembles.location]

theorem completeLeaf_resembling (resembles : field.Resembles field') (leaf : LeafM Const) (path : ErrorPath) :
    completeLeaf leaf field' path = completeLeaf leaf field path := by
  unfold completeLeaf
  simp only [fieldError_resembling resembles]

theorem completePlain_resembling (resembles : field.Resembles field') (type : NamedType) (value : Resolved)
    (path : ErrorPath) : x.completePlain type value field' path = x.completePlain type value field path := by
  unfold completePlain unexpected notReturned
  simp only [fieldError_resembling resembles, completeLeaf_resembling resembles, resembles.name]

theorem completeHost_resembling (resembles : field.Resembles field') (type : NamedType) {value : HostValue}
    (path : ErrorPath) (depth : Nat) {finish : Finish value}
    (alike : ∀ type r smaller, finish type r smaller field' path depth = finish type r smaller field path depth) :
    x.completeHost type value field' path depth finish = x.completeHost type value field path depth finish := by
  unfold completeHost resolveObject notReturned
  simp only [fieldError_resembling resembles, completeLeaf_resembling resembles, resembles.selection, alike]

/-- A value is completed alike for fields of one name, place and selection. -/
theorem complete_resembling (resembles : field.Resembles field') (type : TypeRef) (value : Resolved) (path : ErrorPath)
    (depth : Nat) : x.complete type value field' path depth = x.complete type value field path depth := by
  by_cases missing : value = .null
  · subst missing
    rw [complete, complete]
  cases type with
  | map item nullable =>
    rw [complete, complete, completeLeaf_resembling resembles]
    · exact missing
    · exact missing
  | list item nullable =>
    cases value with
    | list items =>
      rw [complete, complete]
      have same : (fun (entry : { r // r ∈ x.limits.keepItems items } × Nat) =>
          x.complete item entry.1.1 field' (path.index entry.2) depth) =
            fun entry => x.complete item entry.1.1 field (path.index entry.2) depth :=
        funext fun entry => complete_resembling resembles item entry.1.1 (path.index entry.2) depth
      exact congrArg (fun f => (x.limits.keepItems items).attach.zipIdx.mapM f >>= fun values =>
        pure (ResponseValue.list values)) same
    | null => exact absurd rfl missing
    | const _ | map _ | host _ =>
      rw [complete, complete]
      · rw [resembles.name]
        exact fieldError_resembling resembles _ _ _
      all_goals simp
  | named type nullable =>
    cases value with
    | host value =>
      rw [complete, complete]
      exact completeHost_resembling resembles type path depth fun type r smaller =>
        complete_resembling resembles type r path depth
    | null => exact absurd rfl missing
    | const _ | list _ | map _ =>
      rw [complete, complete]
      · exact completePlain_resembling resembles _ _ _
      all_goals simp
termination_by sizeOf value
decreasing_by
  · simp only [Resolved.host.sizeOf_spec]
    omega
  · have := List.sizeOf_lt_of_mem (QueryLimits.mem_of_mem_keepItems entry.1.2)
    simp only [Resolved.list.sizeOf_spec]
    omega

/-! ## Responses of one field -/

/-- The response of a request or an event of which one field was completed. -/
def lone (field : FieldPlan) (completed : Except Abort ResponseValue × ExecutionState) : Except Breakdown Response :=
  respond (completed.1.map fun v => .object [(field.responseKey, v)]) completed.2.errors

/-- It depends on no more than the types that are described. -/
theorem lone_described (type : TypeRef) (value : Resolved) (depth : Nat) {s : ExecutionState} (fresh : s.errors = [])
    (calm : s.cancelled = false) {R : Registry}
    (covers : x.host.Covers (outcome (x.complete type value field field.rootPath depth) s).2.registry R) :
    lone field (outcome (x.complete type value field field.rootPath depth) s) =
      lone field (outcome (x.complete type value field field.rootPath depth) (.described R)) := by
  have guides := x.limits.guides_self fun _ => False
  have retraces := (complete_retells (R := R) guides type value field (isKept_rootPath 0 field) depth).again s (.described R)
    calm rfl rfl
  change _ → ExecM.Retraces _ _ _ _ _ (outcome (x.complete type value field field.rootPath depth) (.described R))
    at retraces
  cases came : outcome (x.complete type value field field.rootPath depth) s with
  | mk result t =>
    cases came' : outcome (x.complete type value field field.rootPath depth) (.described R) with
    | mk result' t' =>
      rw [came] at retraces covers
      rw [came'] at retraces
      cases retraces covers with
      | excused excuse => exact excuse.elim
      | @failed abort => cases abort <;> rfl
      | @came v v' registry errors events events' shortens =>
        have same : v = v' := shortens.eq
        subst same
        change respond _ (s.errors ++ errors) = respond _ (errors.filter (·.isKept 0))
        rw [fresh, filter_isKept_zero]
        rfl

/-! ## Events -/

/-- An event of a subscription of one field is completed for the field. -/
theorem executeEvent_lone {s : ExecutionState} (calm : s.cancelled = false) (value : Resolved)
    (collected : x.collect x.plan.selection none = .ok [field]) :
    (x.executeEvent value s).1 = lone field (outcome (x.complete field.type value field field.rootPath 1) s) ∧
      (x.executeEvent value s).2.registry =
        (outcome (x.complete field.type value field field.rootPath 1) s).2.registry := by
  have shaped : outcome (x.shapeEvent value) s =
      outcome (x.complete field.type value field field.rootPath 1 >>= fun v =>
        pure (.object [(field.responseKey, v)])) s := by
    unfold shapeEvent
    rw [collected]
    change outcome (ExecM.checkCancelled >>= fun _ => _) s = _
    rw [outcome_bind, ExecM.outcome_checkCancelled, if_neg (by simp [calm])]
  rw [outcome_bind] at shaped
  change respond (outcome (x.shapeEvent value) s).1 (outcome (x.shapeEvent value) s).2.errors = _ ∧
    (outcome (x.shapeEvent value) s).2.registry = _
  rw [shaped]
  cases outcome (x.complete field.type value field field.rootPath 1) s with
  | mk result t => cases result <;> exact ⟨rfl, rfl⟩

/-- Executing an event only adds to the types that are described. -/
theorem executeEvent_grows (value : Resolved) (s : ExecutionState) :
    x.host.Later s.registry (x.executeEvent value s).2.registry := by
  have firm : (x.host.growing s.registry).Firm x.host := Host.growing_firm
  exact (shapeEvent_bears firm (Host.planWithin_growing x.plan) value s (.refl _ _)).sound

/-- What opening a subscription has checked. -/
theorem subscribe_eq_ok {s s' : ExecutionState} {source : EventSource} (opened : outcome x.subscribe s = (.ok source, s')) :
    ∃ field rest operation, x.collect x.plan.selection none = .ok (field :: rest) ∧ x.checkPlanDepth = .ok () ∧
      field.guard (x.limits.checkDepth 1) = .ok () ∧ field.target = .operation operation := by
  unfold subscribe at opened
  obtain ⟨_, _, measured, opened⟩ := outcome_bind_eq_ok.1 opened
  obtain ⟨depth, rfl⟩ := outcome_ofExcept_eq_ok.1 measured
  obtain ⟨fields, _, collected, opened⟩ := outcome_bind_eq_ok.1 opened
  obtain ⟨selected, rfl⟩ := outcome_ofExcept_eq_ok.1 collected
  cases fields with
  | nil => cases opened
  | cons field rest =>
    obtain ⟨_, _, guarded, opened⟩ := outcome_bind_eq_ok.1 opened
    obtain ⟨admitted, rfl⟩ := outcome_ofExcept_eq_ok.1 guarded
    obtain ⟨_, _, _, opened⟩ := outcome_bind_eq_ok.1 opened
    obtain ⟨_, _, _, opened⟩ := outcome_bind_eq_ok.1 opened
    cases target : field.target with
    | operation operation => exact ⟨field, rest, operation, selected, depth, admitted, target⟩
    | _ =>
      rw [target] at opened
      cases opened

end Execution

/-! ## Fields with another answer -/

/-- The fields differ in what answers them alone. -/
def FieldPlan.AnswersFor (field field' : FieldPlan) : Prop :=
  ∃ target complexity, field' = { field with target, complexity }

/-- The root fields of a subscription and a query in parallel, if the operations give the same. -/
theorem FieldPlan.Twins.answersFor {options : CompileOptions} {field field' : FieldPlan} (twins : field.Twins options field')
    (same : field'.type = field.type) : field.AnswersFor field' := by
  refine ⟨field'.target, field'.complexity, ?_⟩
  rw [← same, ← twins.selection same]
  exact twins.same

namespace Execution

variable {x : Execution} {field field' : FieldPlan} (answers : field.AnswersFor field')

include answers

theorem resembles_answer : field.Resembles field' := by
  obtain ⟨target, complexity, rfl⟩ := answers
  exact ⟨rfl, rfl, rfl⟩

theorem guard_answer (check : Except LimitError Unit) : field'.guard check = field.guard check := by
  obtain ⟨target, complexity, rfl⟩ := answers
  rfl

theorem isIncluded_answer : x.isIncluded field' = x.isIncluded field := by
  have held (conditions : List Condition) : x.holds field' conditions = x.holds field conditions := by
    obtain ⟨target, complexity, rfl⟩ := answers
    induction conditions with
    | nil => rfl
    | cons condition rest ih =>
      rw [holds, holds, ih]
  obtain ⟨target, complexity, rfl⟩ := answers
  exact held field.directives

theorem collect_answer {first : FieldPlan} {rest : List FieldPlan} (collected : x.collect [field] none = .ok (first :: rest)) :
    first = field ∧ rest = [] ∧ x.collect [field'] none = .ok [field'] := by
  have is : first = field := List.mem_singleton.1 (mem_of_collect collected List.mem_cons_self)
  subst is
  have count := congrArg List.length (collect_eq_ok collected)
  have fewer : (x.selected [first] none).length ≤ 1 := List.length_filter_le _ _
  have alone : rest = [] := by
    rw [List.length_cons] at count
    exact List.eq_nil_of_length_eq_zero (by omega)
  subst alone
  obtain ⟨all, few⟩ := collect_eq_ok_iff.1 collected
  have kept := (isIncluded_of_included all List.mem_cons_self).1
  refine ⟨rfl, rfl, collect_eq_ok_iff.2 ⟨?_, fun other others same => ?_⟩⟩
  · have applies : appliesTo field' none = true := rfl
    rw [included, if_pos applies, isIncluded_answer answers, kept]
    rfl
  · cases same
    exact (guard_answer answers _).trans (few first [] rfl)

theorem checkDepth_answer (depth : Nat) : x.checkDepth depth [field'] = x.checkDepth depth [field] := by
  rw [checkDepth.eq_2, checkDepth.eq_2, isIncluded_answer answers, guard_answer answers,
    (resembles_answer answers).selection]

theorem rootPath_answer : field'.rootPath = field.rootPath := by
  obtain ⟨target, complexity, rfl⟩ := answers
  rfl

theorem lone_answer (completed : Except Abort ResponseValue × ExecutionState) : lone field' completed = lone field completed := by
  obtain ⟨target, complexity, rfl⟩ := answers
  rfl

/-- What a query selects passes the guards that a subscription has passed which selects the same. -/
theorem rootFields_answer {plan : Plan} (selects : x.plan.selection = [field]) (selects' : plan.selection = [field'])
    (aliases : x.limits.maxAliases = 0) (collected : x.collect [field] none = .ok [field])
    (measured : x.checkPlanDepth = .ok ()) : (x.withPlan plan).rootFields = .ok [field'] := by
  have depth : (x.withPlan plan).checkPlanDepth = .ok () := by
    unfold checkPlanDepth at measured ⊢
    change (if x.limits.maxDepth = 0 then .ok () else (x.withPlan plan).checkDepth 1 plan.selection) = _
    rw [selects', checkDepth_withPlan, checkDepth_answer answers, ← selects]
    exact measured
  have only : (x.withPlan plan).collect plan.selection none = .ok [field'] := by
    rw [selects', collect_withPlan]
    exact (collect_answer answers collected).2.2
  have unlimited (count : Nat) : x.limits.checkAliases count = .ok () := by
    rw [QueryLimits.checkAliases, aliases]
    rfl
  have counted : (x.withPlan plan).checkAliases 0 [field'] = .ok () := by
    rw [checkAliases_withPlan, checkAliases, checkAliases, unlimited, checkAliases]
    split <;> rfl
  unfold rootFields
  rw [depth]
  change ((x.withPlan plan).collect plan.selection none >>= _) = _
  rw [only]
  change ((x.withPlan plan).checkAliases 0 [field'] >>= fun _ => pure [field']) = _
  rw [counted]
  rfl

end Execution

/-- The event of a subscription has the response of a query that selects the same and whose resolver returns the same
value, whichever of the two is executed first. -/
theorem Execution.event_shaped_as_query {options : CompileOptions} {document document' : Document}
    {name name' : Option String} {operation operation' : OperationDefinition}
    (parallel : document.Parallel document' name name' operation operation') {r₀ r₁ r₀' r₁' : Registry} {plan plan' : Plan}
    (compiled : outcome (compileDocument options document name) r₀ = (.ok plan, r₁))
    (compiled' : outcome (compileDocument options document' name') r₀' = (.ok plan', r₁'))
    (outputs : ∀ field ∈ plan.selection, ∀ streamed queried,
      options.operations.find? .subscription field.name = some streamed →
        options.operations.find? .query field.name = some queried → queried.output = streamed.output)
    {x : Execution} (host : x.host = options.host) (subscribes : x.plan = plan) (aliases : x.limits.maxAliases = 0)
    (complexity : x.limits.maxComplexity = 0) {before after : ExecutionState} {source : EventSource}
    (opened : outcome x.subscribe before = (.ok source, after)) {s s' : ExecutionState} (fresh : s.errors = [])
    (fresh' : s'.errors = []) (calm : s.cancelled = false) (calm' : s'.cancelled = false)
    (known : x.host.Later r₁ s.registry) (known' : x.host.Later r₁' s'.registry) (free : s'.slots.acquire?.isSome)
    {value : Resolved} {r : Registry}
    (fetches : ∀ field ∈ plan'.selection, (x.withPlan plan').Fetches field value s'.registry r)
    (ordered : x.host.Later (x.executeEvent value s).2.registry s'.registry ∨
      x.host.Later ((x.withPlan plan').execute s').2.registry s.registry) :
    (x.executeEvent value s).1 = ((x.withPlan plan').execute s').1 := by
  subst subscribes
  have grows := executeEvent_grows (x := x) value s
  have grows' : x.host.Later s'.registry ((x.withPlan plan').execute s').2.registry :=
    execute_grows (x := x.withPlan plan') s'
  obtain ⟨R, covers, covers'⟩ : ∃ R, x.host.Covers (x.executeEvent value s).2.registry R ∧
      x.host.Covers ((x.withPlan plan').execute s').2.registry R :=
    ordered.elim (fun later => ⟨_, (later.trans grows').covers, .refl _ _⟩)
      fun later => ⟨_, .refl _ _, (later.trans grows).covers⟩
  -- both root fields, compiled where all types are described
  obtain ⟨field, field', selects, selects', twins⟩ := parallel.twins (R := R) compiled compiled'
    (host ▸ covers.after (known.trans grows)) (host ▸ covers'.after (known'.trans grows'))
  obtain ⟨first, rest, streamed, collected, measured, admitted, target⟩ := subscribe_eq_ok opened
  rw [selects] at collected
  cases List.mem_singleton.1 (mem_of_collect collected List.mem_cons_self)
  obtain ⟨found, type, queried, found', -, type'⟩ := twins.operation streamed target
  have same : field'.type = field.type :=
    type'.trans ((outputs field (by simp [selects]) streamed queried found found').trans type.symm)
  have answers := twins.answersFor same
  obtain ⟨-, rfl, -⟩ := collect_answer answers collected
  have only : x.collect x.plan.selection none = .ok [field] := by rw [selects, collected]
  have event := executeEvent_lone calm value only
  -- the query passes the same guards, and its value is completed alike
  have rooted := rootFields_answer answers selects selects' aliases collected measured
  have unlimited (count : Nat) : x.limits.checkComplexity count = .ok () := by
    rw [QueryLimits.checkComplexity, complexity]
    rfl
  have admits : (x.withPlan plan').Admits field' s' :=
    ⟨calm', (guard_answer answers _).trans admitted, fun _ _ => guard_eq_ok.2 (unlimited _)⟩
  obtain ⟨t, final, -, errors, calm'', registry, executed⟩ :=
    execute_fetches rooted admits free (fetches field' (by simp [selects']))
  rw [complete_withPlan, complete_resembling (resembles_answer answers), same, rootPath_answer answers] at executed registry
  rw [executed] at covers' ⊢
  rw [registry] at covers'
  rw [event.2] at covers
  rw [event.1]
  change _ = lone field' _
  rw [lone_answer answers, lone_described _ _ _ fresh calm covers, lone_described _ _ _ (errors.trans fresh') calm'' covers']

/-! ## Events of a node

A subscription emits what the query for a node returns. -/

namespace NodeEvents

/-- A subscription of the name and output of the query, which emits what the query returns. -/
def operation : OperationDescriptor :=
  { NodeQuery.operation with
    kind := .subscription
    resolver := .stream fun _ => .ok (.done (.ok { events := [.host NodeQuery.value], staysOpen := false })) }

def options : CompileOptions :=
  { NodeQuery.options with
    operations := { query := [("node", NodeQuery.operation)], subscription := [("node", operation)] } }

def definition : OperationDefinition :=
  { location := .start, kind := .subscription, variableDefinitions := []
    selection := [.field ⟨.start, none, "node", [], []⟩ [.field ⟨.start, none, "id", [], []⟩ []]] }

def document : Document := { operations := .anonymous definition, fragments := [] }

def plan : Plan :=
  { kind := .subscription, name := none, variableDefinitions := []
    selection := [{ NodeQuery.nodeField with target := .operation operation }] }

/-- At most two levels deep, and one item of each list. -/
def execution : Execution :=
  { host := options.host, limits := { maxDepth := 2, maxFields := 1, maxArraySize := 1 }, plan, variableValues := [] }

/-- The types that compiling describes. -/
def described : Registry :=
  (outcome (NodeQuery.host.describe (.builtin .string)) (outcome (NodeQuery.host.describe (.host 0)) {}).2).2

theorem definition_compiled : outcome (compileDocument options document none) {} = (.ok plan, described) := by
  have collected : outcome ((Compiler.mk options [] []).collect [] (.root .subscription) none [] definition.selection) {} =
      (.ok plan.selection, described) := by
    simp only [definition, Compiler.collect]
    with_unfolding_all rfl
  exact outcome_bind_eq_ok.2 ⟨_, _, rfl, outcome_bind_eq_ok.2 ⟨_, _, collected, rfl⟩⟩

theorem query_compiled :
    outcome (compileDocument options NodeQuery.document none) described = (.ok NodeQuery.plan, described) := by
  have collected : outcome ((Compiler.mk options [] []).collect [] (.root .query) none [] definition.selection) described =
      (.ok NodeQuery.plan.selection, described) := by
    simp only [definition, Compiler.collect]
    with_unfolding_all rfl
  exact outcome_bind_eq_ok.2 ⟨_, _, rfl, outcome_bind_eq_ok.2 ⟨_, _, collected, rfl⟩⟩

def state : ExecutionState := { registry := described, slots := { limit := 1 }, cancelled := false }

/-- The query is executed after the event. -/
def later : ExecutionState := { state with registry := (execution.executeEvent (.host NodeQuery.value) state).2.registry }

/-- Both respond with the one item that is kept. -/
theorem node_shaped :
    (execution.executeEvent (.host NodeQuery.value) state).1 =
        .ok ⟨.object [("node", .object [("id", .list [.const (.int 1)])])], []⟩ ∧
      (execution.executeEvent (.host NodeQuery.value) state).1 = ((execution.withPlan NodeQuery.plan).execute later).1 := by
  have parallel : document.Parallel NodeQuery.document none none definition { definition with kind := .query } :=
    ⟨⟨none, rfl⟩, ⟨none, rfl⟩, rfl, rfl, rfl⟩
  have outputs : ∀ field ∈ plan.selection, ∀ streamed queried,
      options.operations.find? .subscription field.name = some streamed →
        options.operations.find? .query field.name = some queried → queried.output = streamed.output := by
    intro field mem streamed queried found found'
    cases List.mem_singleton.1 mem
    cases found
    cases found'
    rfl
  have opened : outcome execution.subscribe state =
      (.ok { events := [.host NodeQuery.value], staysOpen := false }, (outcome execution.subscribe state).2) := by
    with_unfolding_all rfl
  have grows : execution.host.Later state.registry later.registry := Execution.executeEvent_grows _ state
  have fetches : ∀ field ∈ NodeQuery.plan.selection, (execution.withPlan NodeQuery.plan).Fetches field
      (.host NodeQuery.value) later.registry later.registry := by
    intro field mem
    cases List.mem_singleton.1 mem
    exact ⟨NodeQuery.operation, _, [], _, rfl, rfl, rfl, rfl, .done⟩
  refine ⟨by with_unfolding_all rfl, ?_⟩
  exact Execution.event_shaped_as_query parallel definition_compiled query_compiled outputs rfl rfl rfl rfl opened rfl rfl
    rfl rfl (.refl _ _) grows rfl fetches (Or.inl (.refl _ _))

end NodeEvents

end GraphQL
