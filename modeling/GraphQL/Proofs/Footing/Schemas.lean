import GraphQL.Proofs.Footing.Plans
import GraphQL.Proofs.Footing.Runs
import GraphQL.Schema

/-!
# Requests on a footing

A schema keeps its registry from one request to the next, and plans with what they named at the time. Where the
operations and the plans that are kept are of types that are covered, a firm footing carries every request, and
leaves a schema of which this is still true.
-/

namespace GraphQL

open Footing HoldsRegistry

instance : HoldsRegistry Schema where
  registry s := s.registry
  on s R := { s with registry := R }

/-- A plan is of types that are covered, or a type is refused if there is none for that reason. -/
structure Footing.Covered (f : Footing) (outcome : CompileOutcome) : Prop where
  plan : ∀ plan, outcome = .ok plan → plan.Within f
  error : ∀ e, outcome = .error e → e.Within f

theorem Footing.Covered.mono {f g : Footing} {outcome : CompileOutcome} (widens : f.Widens g)
    (refuses : ∀ e, f.refuses e → g.refuses e) (covered : f.Covered outcome) : g.Covered outcome :=
  ⟨fun plan ok => (covered.plan plan ok).mono widens, fun e error refused of => refuses _ (covered.error e error refused of)⟩

/-- The operations of a schema and the plans that it keeps are of types that are covered. -/
structure Schema.Within (f : Footing) (s : Schema) : Prop where
  operations : s.operations.Within f
  plans : ∀ cache, s.cache = some cache → ∀ entry ∈ cache.plans, f.Covered entry.2

theorem Schema.Within.mono {f g : Footing} {s : Schema} (widens : f.Widens g) (refuses : ∀ e, f.refuses e → g.refuses e)
    (within : s.Within f) : s.Within g where
  operations kind name operation found := (within.operations kind name operation found).mono widens
  plans cache kept entry mem := (within.plans cache kept entry mem).mono widens refuses

namespace Footing

variable {α β : Type} {f : Footing} {host : Host}

/-- From a schema, the computation is carried, gives what satisfies a condition, and keeps the schema covered. -/
structure ServesAt (f : Footing) (m : SchemaM α) (post : α → Prop) (s : Schema) : Prop where
  keeps : f.KeepsAt m.run s
  gives : post (m.run s).1
  within : (m.run s).2.Within f
  host : (m.run s).2.host = s.host

/-- The footing carries the computation on every covered schema of the application. -/
def Serves (f : Footing) (host : Host) (m : SchemaM α) (post : α → Prop) : Prop :=
  ∀ s : Schema, s.host = host → f.sound s.registry → s.Within f → f.ServesAt m post s

variable {m : SchemaM α} {post post' : α → Prop}

theorem Serves.mono (serves : f.Serves host m post) (imp : ∀ a, post a → post' a) : f.Serves host m post' := by
  intro s same sound within
  obtain ⟨keeps, gives, within, same⟩ := serves s same sound within
  exact ⟨keeps, imp _ gives, within, same⟩

/-- What does not concern the registry comes to the same with any other. -/
theorem servesAt_of_eq {s t : Schema} {a : α} (ran : ∀ R, m.run (on s R : Schema) = (a, on t R))
    (same : t.registry = s.registry) (sameHost : t.host = s.host) (sound : f.sound s.registry) (within : t.Within f)
    (holds : post a) : f.ServesAt m post s := by
  have here : m.run s = (a, t) := by
    change m.run (on s s.registry : Schema) = (a, on t t.registry)
    rw [ran, same]
  have after : (m.run s).2 = t := by rw [here]
  refine ⟨⟨?_, fun R standsIn => ?_⟩, ?_, ?_, ?_⟩
  · change f.sound (m.run s).2.registry
    rw [after, same]
    exact sound
  · change f.standsIn (m.run s).2.registry R at standsIn
    rw [after, same] at standsIn
    exact ⟨standsIn, by rw [ran, here]⟩
  · rw [here]
    exact holds
  · rw [after]
    exact within
  · rw [after, sameHost]

theorem serves_pure {a : α} (holds : post a) : f.Serves host (pure a) post :=
  fun _ _ sound within => servesAt_of_eq (fun _ => rfl) rfl rfl sound within holds

theorem Serves.bind {g : α → SchemaM β} {post' : β → Prop} (first : f.Serves host m post)
    (next : ∀ a, post a → f.Serves host (g a) post') : f.Serves host (m >>= g) post' := by
  intro s same sound within
  obtain ⟨keeps, gives, within, same'⟩ := first s same sound within
  obtain ⟨keeps', gives', within', same''⟩ := next _ gives _ (same'.trans same) keeps.sound within
  exact ⟨keeps.then_ keeps', gives', within', same''.trans same'⟩

theorem Serves.map (g : α → β) {post' : β → Prop} (serves : f.Serves host m post) (imp : ∀ a, post a → post' (g a)) :
    f.Serves host (g <$> m) post' := by
  rw [← bind_pure_comp]
  exact serves.bind fun a holds => serves_pure (imp a holds)

/-- What depends on the schema is the same with a registry that stands in. -/
theorem serves_get {g : Schema → SchemaM α} (each : ∀ s : Schema, s.host = host → s.Within f → f.Serves host (g s) post)
    (same : ∀ s R, g (on s R) = g s) : f.Serves host (get >>= g) post := by
  intro s here sound within
  obtain ⟨keeps, gives, within', same'⟩ := each s here within s here sound within
  refine ⟨⟨keeps.sound, fun R standsIn => ?_⟩, gives, within', same'⟩
  obtain ⟨before, again⟩ := keeps.again R standsIn
  refine ⟨before, ?_⟩
  change (g (on s R)).run (on s R) = _
  rw [same s R]
  exact again

/-- A change of the schema that does not concern the registry. -/
theorem serves_modify {g : Schema → Schema} (keeps : ∀ s, (g s).registry = s.registry)
    (within : ∀ s : Schema, s.Within f → (g s).Within f) (sameHost : ∀ s, (g s).host = s.host)
    (same : ∀ s R, g (on s R) = on (g s) R) : f.Serves host (modify g) fun _ => True :=
  fun s _ sound within' =>
    servesAt_of_eq (fun R => congrArg (Prod.mk ()) (same s R)) (keeps s) (sameHost s) sound (within s within') trivial

/-- A computation on the registry as part of a call. -/
theorem Carries.onSchema {ε : Type} {x : ExceptT ε (StateM Registry) α} {fails : ε → Prop}
    (carries : f.Carries x post fails) :
    f.Serves host (Schema.onRegistry x.run) fun result =>
      (∀ a, result = .ok a → post a) ∧ ∀ e, result = .error e → fails e := by
  intro s _ sound within
  obtain ⟨kept, gives, fail, again⟩ := carries s.registry sound
  refine ⟨⟨kept, fun R standsIn => ?_⟩, ⟨gives, fail⟩, ⟨within.operations, within.plans⟩, rfl⟩
  obtain ⟨before, same⟩ := again R standsIn
  refine ⟨before, ?_⟩
  have ran (R : Registry) : (Schema.onRegistry x.run).run (on s R : Schema) =
      ((outcome x R).1, (on s (outcome x R).2 : Schema)) := rfl
  change (Schema.onRegistry x.run).run (on s R : Schema) = ((outcome x s.registry).1, on s R)
  change outcome x R = ((outcome x s.registry).1, R) at same
  rw [ran, same]

/-- An execution as part of a call. -/
theorem serves_run {post : β → Prop} (run : Schema → ExecutionState → α × ExecutionState) (cancelled : Bool)
    (g : α → ExecutionState → β) (holds : ∀ a state, post (g a state))
    (carries : ∀ s state, s.host = host → f.sound state.registry → f.KeepsAt (run s) state)
    (sameRun : ∀ s R, run (on s R) = run s) (same : ∀ a state R, g a (on state R) = g a state) :
    f.Serves host (do
      let s ← get
      let ran := run s (s.initialState cancelled)
      Schema.commit ran.2
      return g ran.1 ran.2) post := by
  intro s here sound within
  obtain ⟨kept, again⟩ := carries s (s.initialState cancelled) here sound
  refine ⟨⟨kept, fun R standsIn => ?_⟩, holds _ _, ⟨within.operations, within.plans⟩, rfl⟩
  obtain ⟨before, again⟩ := again R standsIn
  refine ⟨before, ?_⟩
  have once : run (on s R) ((on s R : Schema).initialState cancelled) =
      ((run s (s.initialState cancelled)).1, on (run s (s.initialState cancelled)).2 R) := by
    rw [sameRun]
    exact again
  change (g (run (on s R) ((on s R : Schema).initialState cancelled)).1 _, _) = _
  simp only [once, same]
  rfl

end Footing

namespace Schema

variable {f : Footing} {host : Host}

/-! ## Plans -/

theorem covered_of_find? {cache : PlanCache} {key : String} (kept : ∀ entry ∈ cache.plans, f.Covered entry.2) :
    (∀ outcome, (cache.find? key).1 = some outcome → f.Covered outcome) ∧
      ∀ entry ∈ (cache.find? key).2.plans, f.Covered entry.2 := by
  unfold PlanCache.find?
  split
  · next outcome found =>
    refine ⟨fun outcome' same => ?_, kept⟩
    cases same
    exact kept _ (Entries.mem_of_find? found)
  · refine ⟨fun outcome same => ?_, kept⟩
    cases same

theorem covered_of_insert {cache : PlanCache} {key : String} {outcome : CompileOutcome}
    (kept : ∀ entry ∈ cache.plans, f.Covered entry.2) (covered : f.Covered outcome) :
    ∀ entry ∈ (cache.insert key outcome).plans, f.Covered entry.2 := by
  intro entry mem
  rcases Entries.mem_insert (List.mem_of_mem_drop mem) with rfl | mem
  · exact covered
  · exact kept entry mem

/-- A cache that is cleared keeps no plan. -/
theorem forall_mem_cleared {before : Option PlanCache} {cache : PlanCache} (kept : before.map (·.clear) = some cache)
    {holds : String × CompileOutcome → Prop} : ∀ entry ∈ cache.plans, holds entry := by
  obtain ⟨given, -, rfl⟩ := Option.map_eq_some_iff.1 kept
  exact List.forall_mem_nil _

theorem run_lookup_none {s : Schema} (uncached : s.cache = none) (key : String) : (lookup key).run s = (none, s) := by
  obtain ⟨_, _, _, _, _, _, _⟩ := s
  cases uncached
  rfl

theorem run_lookup_some {s : Schema} {cache : PlanCache} (cached : s.cache = some cache) (key : String) :
    (lookup key).run s = ((cache.find? key).1, { s with cache := some (cache.find? key).2 }) := by
  obtain ⟨_, _, _, _, _, _, _⟩ := s
  cases cached
  rfl

theorem lookup_serves (key : String) :
    f.Serves host (lookup key) fun found => ∀ outcome, found = some outcome → f.Covered outcome := by
  intro s _ sound within
  cases cached : s.cache with
  | none =>
    have ran (R : Registry) : (lookup key).run (on s R : Schema) = (none, on s R) := by
      rw [run_lookup_none (show (on s R : Schema).cache = none from cached)]
    exact servesAt_of_eq ran rfl rfl sound within fun _ same => by cases same
  | some cache =>
    obtain ⟨known, kept⟩ := @covered_of_find? f cache key (within.plans cache cached)
    have ran (R : Registry) : (lookup key).run (on s R : Schema) =
        ((cache.find? key).1, on { s with cache := some (cache.find? key).2 } R) := by
      rw [run_lookup_some (show (on s R : Schema).cache = some cache from cached)]
      rfl
    refine servesAt_of_eq ran rfl rfl sound ⟨within.operations, fun cache' same => ?_⟩ known
    cases same
    exact kept

theorem store_serves (key : String) {outcome : CompileOutcome} (covered : f.Covered outcome) :
    f.Serves host (store key outcome) fun _ => True := by
  refine serves_modify (fun _ => rfl) (fun s within => ⟨within.operations, fun cache kept => ?_⟩) (fun _ => rfl)
    fun _ _ => rfl
  obtain ⟨before, had, rfl⟩ := Option.map_eq_some_iff.1 kept
  exact covered_of_insert (within.plans before had) covered

theorem compile_serves (firm : f.Firm host) (text : f.covers (.builtin .string)) (query : String)
    (operationName : Option String) : f.Serves host (compile query operationName) f.Covered := by
  refine serves_get (fun s here within => ?_) fun _ _ => rfl
  subst here
  refine Serves.mono (compile_carries firm within.operations text query operationName).onSchema ?_
  exact fun outcome covered => ⟨covered.1, covered.2⟩

/-- On a firm footing preparing a request gives a plan on covered types, or a type is refused. -/
theorem prepare_serves (firm : f.Firm host) (text : f.covers (.builtin .string)) (query : String)
    (operationName : Option String) : f.Serves host (prepare query operationName) f.Covered := by
  refine (lookup_serves _).bind fun found known => ?_
  cases found with
  | some outcome => exact serves_pure (known outcome rfl)
  | none =>
    refine (compile_serves firm text query operationName).bind fun outcome covered => ?_
    exact (store_serves _ covered).bind fun _ _ => serves_pure covered

theorem planFor_serves (firm : f.Firm host) (text : f.covers (.builtin .string)) (request : Request)
    (entryPoint : String) (accepts : OperationKind → Bool) :
    f.Serves host (planFor request entryPoint accepts) fun outcome =>
      ∀ plan values, outcome = .ok (plan, values) → plan.Within f := by
  refine (prepare_serves firm text request.query request.operationName).bind fun outcome covered => ?_
  cases outcome with
  | error e => exact serves_pure fun _ _ same => by cases same
  | ok plan =>
    simp only
    split
    · exact serves_pure fun _ _ same => by cases same
    · refine serves_pure fun plan' values coerced => ?_
      cases ran : plan.coerceVariables request.variableValues with
      | error e =>
        rw [ran] at coerced
        cases coerced
      | ok values' =>
        rw [ran] at coerced
        cases coerced
        exact covered.plan plan rfl

/-! ## Requests -/

theorem describe_serves (firm : f.Firm host) {type : NamedType} (covered : f.covers type) :
    f.Serves host (describe type) fun _ => True := by
  refine serves_get (fun s here within => ?_) fun _ _ => rfl
  subst here
  exact Serves.mono (firm.describes covered).onSchema fun _ _ => trivial

theorem execute_serves (firm : f.Firm host) (text : f.covers (.builtin .string)) (request : Request) (cancelled : Bool) :
    f.Serves host (execute request cancelled) fun _ => True := by
  refine (planFor_serves firm text request _ _).bind fun outcome within => ?_
  cases outcome with
  | error e => exact serves_pure trivial
  | ok planned =>
    obtain ⟨plan, values⟩ := planned
    refine serves_run (fun s => (s.execution plan values).execute) cancelled
      (fun result state => (⟨result, state.journal, state.cancelled⟩ : Finished Response)) (fun _ _ => trivial)
      (fun s state here sound => ?_) (fun _ _ => rfl) fun _ _ _ => rfl
    subst here
    exact Execution.execute_keeps firm (within plan values rfl) sound

theorem executeText_serves (firm : f.Firm host) (text : f.covers (.builtin .string)) (query variableText : String)
    (cancelled : Bool) : f.Serves host (executeText query variableText cancelled) fun _ => True := by
  refine serves_get (fun s _ _ => ?_) fun _ _ => rfl
  split
  · exact serves_pure trivial
  · next request _ => exact (execute_serves firm text request cancelled).bind fun _ _ => serves_pure trivial

/-- What opening a subscription comes to. -/
def opening (plan : Plan) (values : Variables) : Except Abort EventSource → Except Breakdown (Except ResponseError Opened)
  | .ok source => .ok (.ok ⟨plan, values, source⟩)
  | .error (.error e) => .ok (.error e)
  | .error (.breakdown b) => .error b

theorem subscribe_serves (firm : f.Firm host) (text : f.covers (.builtin .string)) (request : Request)
    (cancelled : Bool) : f.Serves host (subscribe request cancelled) fun finished =>
      ∀ opened, finished.result = .ok (.ok opened) → opened.plan.Within f := by
  refine (planFor_serves firm text request _ _).bind fun outcome within => ?_
  cases outcome with
  | error e => exact serves_pure fun _ same => by cases same
  | ok planned =>
    obtain ⟨plan, values⟩ := planned
    refine serves_run (fun s => outcome (s.execution plan values).subscribe) cancelled
      (fun source state => (⟨opening plan values source, state.journal, state.cancelled⟩ : Finished _))
      (fun source state opened same => ?_) (fun s state here sound => ?_) (fun _ _ => rfl) fun _ _ _ => rfl
    · have same : opening plan values source = .ok (.ok opened) := same
      unfold opening at same
      split at same <;> cases same
      exact within plan values rfl
    · subst here
      exact Execution.subscribe_keeps firm (within plan values rfl) sound

theorem executeEvent_serves (firm : f.Firm host) {plan : Plan} (within : plan.Within f) (values : Variables)
    (cancelled : Bool) (event : Resolved) : f.Serves host (executeEvent plan values cancelled event) fun _ => True := by
  refine serves_run (fun s => (s.execution plan values).executeEvent event) cancelled (fun result _ => result)
    (fun _ _ => trivial) (fun s state here sound => ?_) (fun _ _ => rfl) fun _ _ _ => rfl
  subst here
  exact Execution.executeEvent_keeps firm within event sound

end Schema

/-! ## Registering operations -/

section

variable {f : Footing} {host : Host} (firm : f.Firm host) (all : ∀ type, f.covers type)

include firm all

theorem Host.describeAll_bears (seen stack : List NamedType) : f.Bears (host.describeAll seen stack) := by
  fun_induction Host.describeAll host seen stack with
  | case1 seen => exact bears_pure _
  | case2 seen type rest known ih => exact ih
  | case3 seen type rest fresh below ih =>
    refine (firm.describes (all type)).bears.bind fun d _ => ?_
    split
    · next known => exact below d known
    · exact ih

/-- A firm footing that covers all types carries the description of an operation. -/
theorem OperationDeclaration.describe_bears (o : OperationDeclaration) : f.Bears (o.describe host) := by
  have fields (param : TypeRef) : f.Bears (inputObjectFields? host param) := by
    refine (firm.describes (all _)).bears.bind fun d _ => ?_
    split
    · exact bears_pure _
    · exact bears_pure _
  unfold OperationDeclaration.describe
  extract_lets rest settled
  have ends (fields : Option (List String)) : f.Bears (rest fields) :=
    (bears_lift _).bind fun binding _ => (Host.describeAll_bears firm all [] _).then_ (bears_pure _)
  split
  · exact carries_throw_bind trivial
  · dsimp only [settled]
    split
    · split
      · exact (bears_pure none).bind fun fields _ => ends fields
      · exact (fields _).bind fun fields _ => ends fields
    · exact (bears_pure none).bind fun fields _ => ends fields

/-- A firm footing that covers everything carries the registration of an operation. -/
theorem Schema.register_serves (covered : ∀ operation : OperationDescriptor, operation.Within f)
    (operation : OperationDeclaration) : f.Serves host (register operation) fun _ => True := by
  refine serves_get (fun s here _ => ?_) fun _ _ => rfl
  subst here
  refine Serves.bind (operation.describe_bears firm all).onSchema fun described _ => ?_
  cases described with
  | error e => exact serves_pure trivial
  | ok descriptor =>
    have added : f.Serves s.host (addOperation descriptor) fun _ => True := by
      refine serves_modify (fun _ => rfl) (fun s within => ⟨fun _ _ _ _ => covered _, within.plans⟩) (fun _ => rfl) ?_
      exact fun _ _ => rfl
    refine added.bind fun _ _ => ?_
    have cleared : f.Serves s.host clearCache fun _ => True := by
      refine serves_modify (fun _ => rfl) (fun s within => ⟨within.operations, fun cache kept => ?_⟩) (fun _ => rfl) ?_
      · exact forall_mem_cleared kept
      · exact fun _ _ => rfl
    exact cleared.bind fun _ _ => serves_pure trivial

end

end GraphQL
