import GraphQL.Proofs.Footing.Schemas
import GraphQL.Proofs.Registry.Kinship

/-!
# Calls on a schema

A schema answers one call after the other, and each may leave something in the registry. All but the
registration of a custom scalar only describe types: what they come to, they come to again in every registry
that covers the one they leave. So the registry of a schema is always one that describing types and registering
scalars lead to.
-/

namespace GraphQL

open Footing HoldsRegistry

/-- A call on a schema. -/
inductive SchemaCall where
  | describe (type : NamedType)
  | register (operation : OperationDeclaration)
  | registerScalar (scalar : ScalarDescriptor)
  | prepare (query : String) (operationName : Option String)
  | execute (request : Request) (cancelled : Bool)
  | executeText (query variableText : String) (cancelled : Bool)
  | subscribe (request : Request) (cancelled : Bool)
  /-- An event of a subscription. -/
  | event (plan : Plan) (values : Variables) (cancelled : Bool) (value : Resolved)

/-- What a schema answers. -/
inductive SchemaAnswer where
  | described (result : Except RegistrationError TypeDescriptor)
  | registered (result : Except RegistrationError OperationDescriptor)
  | scalarRegistered (result : Except RegistrationError Unit)
  | prepared (outcome : CompileOutcome)
  | executed (finished : Schema.Finished Response)
  | textExecuted (finished : Except RequestError (Schema.Finished Response))
  | subscribed (finished : Schema.Finished (Except ResponseError Schema.Opened))
  | shaped (result : Except Breakdown Response)

def SchemaCall.perform : SchemaCall → SchemaM SchemaAnswer
  | describe type => .described <$> Schema.describe type
  | register operation => .registered <$> Schema.register operation
  | registerScalar scalar => .scalarRegistered <$> Schema.registerScalar scalar
  | prepare query operationName => .prepared <$> Schema.prepare query operationName
  | execute request cancelled => .executed <$> Schema.execute request cancelled
  | executeText query variableText cancelled => .textExecuted <$> Schema.executeText query variableText cancelled
  | subscribe request cancelled => .subscribed <$> Schema.subscribe request cancelled
  | event plan values cancelled value => .shaped <$> Schema.executeEvent plan values cancelled value

/-- The call describes types and no more: it registers no custom scalar. -/
def SchemaCall.Describes (call : SchemaCall) : Prop := ∀ scalar, call ≠ .registerScalar scalar

theorem SchemaCall.registers_or_describes (call : SchemaCall) :
    (∃ scalar, call = .registerScalar scalar) ∨ call.Describes := by
  by_cases registers : ∃ scalar, call = .registerScalar scalar
  · exact Or.inl registers
  · exact Or.inr fun scalar same => registers ⟨scalar, same⟩

/-- The answer opens a subscription with a plan. -/
def SchemaAnswer.Opens (plan : Plan) : SchemaAnswer → Prop
  | subscribed finished => ∃ opened, finished.result = .ok (.ok opened) ∧ opened.plan = plan
  | _ => False

/-- The call is a request, or an event of a subscription with a plan as given. -/
def SchemaCall.Requests (opened : Plan → Prop) : SchemaCall → Prop
  | describe _ => False
  | register _ => False
  | registerScalar _ => False
  | event plan _ _ _ => opened plan
  | _ => True

theorem SchemaCall.Requests.mono {call : SchemaCall} {opened opened' : Plan → Prop} (requests : call.Requests opened)
    (imp : ∀ plan, opened plan → opened' plan) : call.Requests opened' := by
  cases call with
  | event plan _ _ _ => exact imp plan requests
  | _ => exact requests

/-! ## Requests -/

/-- Plans in the answer are of types that are covered, or a type is refused. -/
structure SchemaAnswer.Within (f : Footing) (answer : SchemaAnswer) : Prop where
  prepared : ∀ outcome, answer = .prepared outcome → f.Covered outcome
  opens : ∀ plan, answer.Opens plan → plan.Within f

/-- A firm footing carries every request. -/
theorem SchemaCall.Requests.serves {f : Footing} {host : Host} {call : SchemaCall} (firm : f.Firm host)
    (text : f.covers (.builtin .string)) (requests : call.Requests (Plan.Within f)) :
    f.Serves host call.perform (SchemaAnswer.Within f) := by
  cases call with
  | describe _ => exact absurd requests id
  | register _ => exact absurd requests id
  | registerScalar _ => exact absurd requests id
  | prepare query operationName =>
    refine (Schema.prepare_serves firm text query operationName).map _ fun outcome covered => ⟨?_, fun _ => False.elim⟩
    rintro _ ⟨⟩
    exact covered
  | execute request cancelled =>
    refine (Schema.execute_serves firm text request cancelled).map _ fun _ _ => ⟨?_, fun _ => False.elim⟩
    rintro _ ⟨⟩
  | executeText query variableText cancelled =>
    refine (Schema.executeText_serves firm text query variableText cancelled).map _ fun _ _ => ⟨?_, fun _ => False.elim⟩
    rintro _ ⟨⟩
  | subscribe request cancelled =>
    refine (Schema.subscribe_serves firm text request cancelled).map _ fun finished within => ⟨?_, ?_⟩
    · rintro _ ⟨⟩
    · rintro plan ⟨opened, result, rfl⟩
      exact within opened result
  | event plan values cancelled value =>
    refine (Schema.executeEvent_serves firm requests values cancelled value).map _ fun _ _ => ⟨?_, fun _ => False.elim⟩
    rintro _ ⟨⟩

/-! ## What calls describe -/

namespace Host

/-- Registries that describing types leads to from a given one; those that cover one stand in for it. -/
def growing (host : Host) (start : Registry) : Footing where
  sound r := host.Later start r
  standsIn r R := host.Covers r R
  covers _ := True
  refuses _ := True

variable {host : Host} {start : Registry}

theorem takesWithin_growing : ∀ construction : Construction, construction.TakesWithin (host.growing start).Reads
  | .done result => .done result
  | .take _ _ next => .take (fun _ _ => trivial) fun value => takesWithin_growing (next value)
  | .ifGiven _ next => .ifGiven fun given => takesWithin_growing (next given)
  | .typeName next => .typeName fun name => takesWithin_growing (next name)

theorem growing_firm : (host.growing start).Firm host where
  scalar? standsIn type := standsIn.scalar? type
  describes {type} _ := by
    intro r later
    obtain ⟨grows, -, again⟩ : host.RepeatsAt [] True (host.describe type) (host.describe type) r :=
      describe_settles type r
    refine ⟨later.trans grows, fun d _ => ⟨fun _ _ => trivial, fun _ _ _ _ => takesWithin_growing _⟩, fun _ _ => trivial,
      fun R covers => ⟨Covers.after covers grows, ?_⟩⟩
    exact again R covers (Or.inr ⟨trivial, fun _ mem => absurd mem List.not_mem_nil⟩)

theorem readsWithin_growing (operation : OperationDescriptor) : operation.ReadsWithin (host.growing start) := by
  unfold OperationDescriptor.ReadsWithin
  split
  · exact fun _ _ => trivial
  · exact fun _ _ _ _ => trivial

theorem fieldWithin_growing (field : FieldPlan) : field.Within (host.growing start) := by
  refine .intro trivial ?_ fun inner mem => ?_
  · unfold FieldTarget.Within
    split
    · exact readsWithin_growing _
    · exact fun _ _ => trivial
    · trivial
    · trivial
  · have smaller : sizeOf inner < sizeOf field := Nat.lt_trans (List.sizeOf_lt_of_mem mem) field.sizeOf_selection_lt
    exact fieldWithin_growing inner
termination_by sizeOf field

theorem planWithin_growing (plan : Plan) : plan.Within (host.growing start) := fun field _ => fieldWithin_growing field

theorem schemaWithin_growing (s : Schema) : s.Within (host.growing start) where
  operations _ _ operation _ := ⟨readsWithin_growing operation, trivial⟩
  plans _ _ _ _ := ⟨fun plan _ => planWithin_growing plan, fun _ _ _ _ => trivial⟩

/-- Every call that only describes types is carried. -/
theorem perform_growing {call : SchemaCall} (describes : call.Describes) :
    (host.growing start).Serves host call.perform fun _ => True := by
  have firm : (host.growing start).Firm host := growing_firm
  have served {call : SchemaCall} (requests : call.Requests (Plan.Within (host.growing start))) :
      (host.growing start).Serves host call.perform fun _ => True := (requests.serves firm trivial).mono fun _ _ => trivial
  cases call with
  | describe type => exact (Schema.describe_serves firm trivial).map _ fun _ _ => trivial
  | register operation =>
    have covered (operation : OperationDescriptor) : operation.Within (host.growing start) :=
      ⟨readsWithin_growing operation, trivial⟩
    exact (Schema.register_serves firm (fun _ => trivial) covered operation).map _ fun _ _ => trivial
  | registerScalar scalar => exact absurd rfl (describes scalar)
  | prepare _ _ => exact served trivial
  | execute _ _ => exact served trivial
  | executeText _ _ _ => exact served trivial
  | subscribe _ _ => exact served trivial
  | event plan _ _ _ => exact served (planWithin_growing plan)

end Host

namespace Schema

/-- The answers to calls, one after the other. -/
def replay (calls : List SchemaCall) : SchemaM (List SchemaAnswer) := calls.mapM SchemaCall.perform

/-- The schema that answers one call. -/
abbrev answer (s : Schema) (call : SchemaCall) : SchemaAnswer := (call.perform.run s).1

/-- The schema after one call. -/
abbrev after (s : Schema) (call : SchemaCall) : Schema := (call.perform.run s).2

theorem replay_cons (s : Schema) (call : SchemaCall) (rest : List SchemaCall) :
    (replay (call :: rest)).run s =
      (s.answer call :: ((replay rest).run (s.after call)).1, ((replay rest).run (s.after call)).2) := by
  unfold replay
  rw [List.mapM_cons]
  rfl

/-! ## The registry of a schema -/

theorem run_bind {α β : Type} (m : SchemaM α) (g : α → SchemaM β) (s : Schema) :
    (m >>= g).run s = (g (m.run s).1).run (m.run s).2 := rfl

theorem run_onRegistry {ε α : Type} (x : ExceptT ε (StateM Registry) α) (s : Schema) :
    (onRegistry x.run).run s = ((outcome x s.registry).1, { s with registry := (outcome x s.registry).2 }) := rfl

/-- Registering an operation is refused, with types described on the way, or the operation is added and no plan is kept. -/
theorem register_cases (s : Schema) (operation : OperationDeclaration) :
    (∃ e r, outcome (operation.describe s.host) s.registry = (.error e, r) ∧
      (register operation).run s = (.error e, { s with registry := r })) ∨
    ∃ d r, outcome (operation.describe s.host) s.registry = (.ok d, r) ∧
      (register operation).run s =
        (.ok d, { s with registry := r, operations := s.operations.insert d, cache := s.cache.map (·.clear) }) := by
  have begins : (register operation).run s = _ := run_bind get _ s
  rw [begins, run_bind, show ((get : SchemaM Schema).run s) = (s, s) from rfl, run_onRegistry]
  dsimp only
  cases ran : outcome (operation.describe s.host) s.registry with
  | mk result r =>
    cases result with
    | error e => exact Or.inl ⟨e, r, rfl, rfl⟩
    | ok d => exact Or.inr ⟨d, r, rfl, rfl⟩

theorem run_register_of_ok (s : Schema) {operation : OperationDeclaration} {d : OperationDescriptor} {r : Registry}
    (described : outcome (operation.describe s.host) s.registry = (.ok d, r)) :
    (register operation).run s =
      (.ok d, { s with registry := r, operations := s.operations.insert d, cache := s.cache.map (·.clear) }) := by
  rcases s.register_cases operation with ⟨e, r', refused, -⟩ | ⟨d', r', ran, added⟩
  · cases described.symm.trans refused
  · cases described.symm.trans ran
    exact added

/-- Registering a custom scalar changes the registry, and plans are dropped if it is not refused. -/
theorem run_registerScalar (s : Schema) (scalar : ScalarDescriptor) :
    (registerScalar scalar).run s =
      let ran := outcome (s.host.registerScalar scalar) s.registry
      (ran.1, { s with registry := ran.2, cache := if ran.1.isOk then s.cache.map (·.clear) else s.cache }) := by
  have begins : (registerScalar scalar).run s = _ := run_bind get _ s
  rw [begins, run_bind, show ((get : SchemaM Schema).run s) = (s, s) from rfl, run_onRegistry]
  dsimp only
  cases outcome (s.host.registerScalar scalar) s.registry with
  | mk result r => cases result <;> rfl

theorem perform_registerScalar (s : Schema) (scalar : ScalarDescriptor) :
    (SchemaCall.registerScalar scalar).perform.run s =
      (.scalarRegistered (outcome (s.host.registerScalar scalar) s.registry).1,
        { s with
          registry := (outcome (s.host.registerScalar scalar) s.registry).2
          cache :=
            if (outcome (s.host.registerScalar scalar) s.registry).1.isOk then s.cache.map (·.clear) else s.cache }) := by
  change (SchemaAnswer.scalarRegistered ((registerScalar scalar).run s).1, ((registerScalar scalar).run s).2) = _
  rw [run_registerScalar]

theorem registry_registerScalar (s : Schema) (scalar : ScalarDescriptor) :
    (s.after (.registerScalar scalar)).registry = (outcome (s.host.registerScalar scalar) s.registry).2 :=
  congrArg (·.2.registry) (perform_registerScalar s scalar)

/-- It is refused, with the schema as it was, or the scalar takes over its type and no plan is kept. -/
theorem registerScalar_cases (s : Schema) (scalar : ScalarDescriptor) :
    (∃ e, (registerScalar scalar).run s = (.error e, s)) ∨
      s.registry.Accepts scalar ∧ (registerScalar scalar).run s =
        (.ok (), { s with registry := s.registry.takeOver scalar, cache := s.cache.map (·.clear) }) := by
  rw [run_registerScalar]
  rcases s.host.registerScalar_cases scalar s.registry with ⟨e, refused⟩ | ⟨accepts, registered⟩
  · rw [refused]
    exact Or.inl ⟨e, rfl⟩
  · rw [registered]
    exact Or.inr ⟨accepts, rfl⟩

variable {s : Schema} {call : SchemaCall}

/-- A call that only describes types comes to the same in every registry that covers the one it leaves. -/
theorem after_later (describes : call.Describes) :
    s.host.Later s.registry (s.after call).registry ∧
      ∀ R, s.host.Covers (s.after call).registry R →
        call.perform.run (on s R : Schema) = (s.answer call, on (s.after call) R) := by
  obtain ⟨⟨later, again⟩, -, -, -⟩ :=
    Host.perform_growing describes s rfl (Host.Later.refl s.host s.registry) (Host.schemaWithin_growing s)
  exact ⟨later, fun R covers => (again R covers).2⟩

theorem host_after (s : Schema) (call : SchemaCall) : (s.after call).host = s.host := by
  rcases call.registers_or_describes with ⟨scalar, rfl⟩ | describes
  · change ((registerScalar scalar).run s).2.host = s.host
    rcases s.registerScalar_cases scalar with ⟨e, refused⟩ | ⟨-, registered⟩
    · rw [refused]
    · rw [registered]
  · exact (Host.perform_growing describes s rfl (Host.Later.refl s.host s.registry) (Host.schemaWithin_growing s)).host

/-- The registry of a schema is one that describing types and registering scalars lead to. -/
theorem reachable_after (reachable : s.host.Reachable s.registry) (call : SchemaCall) :
    s.host.Reachable (s.after call).registry := by
  rcases call.registers_or_describes with ⟨scalar, rfl⟩ | describes
  · rw [registry_registerScalar]
    exact .registered reachable scalar
  · exact .described reachable (after_later describes).1

/-- The schema after calls, one after the other. -/
def afterAll (s : Schema) (calls : List SchemaCall) : Schema := ((replay calls).run s).2

theorem afterAll_cons (s : Schema) (call : SchemaCall) (rest : List SchemaCall) :
    s.afterAll (call :: rest) = (s.after call).afterAll rest := by
  rw [afterAll, replay_cons]
  rfl

theorem host_afterAll (s : Schema) (calls : List SchemaCall) : (s.afterAll calls).host = s.host := by
  induction calls generalizing s with
  | nil => rfl
  | cons call rest ih => rw [afterAll_cons, ih, host_after]

theorem reachable_afterAll (reachable : s.host.Reachable s.registry) (calls : List SchemaCall) :
    s.host.Reachable (s.afterAll calls).registry := by
  induction calls generalizing s with
  | nil => exact reachable
  | cons call rest ih =>
    rw [afterAll_cons]
    have next := reachable_after reachable call
    rw [← host_after s call] at next
    exact s.host_after call ▸ ih next

end Schema

end GraphQL
