import GraphQL.Proofs.Footing.Foreseeing
import GraphQL.Proofs.Schema.Calls

/-!
# Requests describe no new types

Registering an operation describes everything that its types lead to. So a request finds its types described, or can
describe them again where a custom scalar has made way for it, and never fails because a type cannot be described. Two
things may get in the way: another type may have the name of a custom scalar, and an input object may take values of
types that its fields are not declared with.
-/

namespace GraphQL

open Footing HoldsRegistry Registry

namespace Schema

/-- A registry in which types of a schema are described, with the custom scalars of the schema. -/
structure Furnished (s : Schema) (types : NamedType → Prop) (R : Registry) : Prop where
  scalars : ∀ type, R.scalar? type = s.registry.scalar? type
  described : ∀ type, types type → ∃ d, s.answer (.describe type) = .described (.ok d) ∧ R.find? type = some d

/-- Requests need certain types, all of which can be described. -/
structure Foresees (s : Schema) (types : NamedType → Prop) (before : List SchemaAnswer) : Prop where
  /-- The types of operations are among them. -/
  operations {kind : OperationKind} {name : String} {operation : OperationDescriptor}
    (found : s.operations.find? kind name = some operation) : ∀ type ∈ operation.types, types type.namedType
  /-- Each of them can be described, and refers to others of them. -/
  describes {type : NamedType} (here : types type) :
    ∃ d, s.answer (.describe type) = .described (.ok d) ∧ ∀ other ∈ d.references, types other
  /-- Each of them can be described after the others. -/
  furnished : ∃ R, s.host.Later s.registry R ∧ s.Furnished types R
  /-- No request is rejected because a type cannot be described. -/
  prepares (query : String) (operationName : Option String) (e : RegistrationError) :
    s.answer (.prepare query operationName) ≠ .prepared (.error (.registration e))
  /-- A request, or an event of a subscription, comes to what it comes to where all of them are described, whatever
  else is described there. So none of its fields fails because a type cannot be described. -/
  answers {R : Registry} (furnished : s.Furnished types R) {call : SchemaCall}
    (requests : call.Requests fun plan => ∃ answer ∈ before, answer.Opens plan) :
    call.perform.run (on s R : Schema) = (s.answer call, on (s.after call) R)
  /-- It leaves no custom scalar with a rival. -/
  unclaimed {call : SchemaCall} (requests : call.Requests fun plan => ∃ answer ∈ before, answer.Opens plan) :
    (s.after call).registry.Unclaimed

/-- The operations and plans of a schema are of types that are foretold. -/
structure Provided (s : Schema) (types : NamedType → Prop) : Prop where
  reachable : s.host.Reachable s.registry
  closed : s.registry.Closed types
  builtin : ∀ b, types (.builtin b)
  within : s.Within (s.host.foreseeing s.registry types)

variable {s t : Schema} {types types' : NamedType → Prop} {call : SchemaCall}

namespace Provided

/-! ## What can be described -/

theorem describes (provided : s.Provided types) (unclaimed : s.registry.Unclaimed) {type : NamedType}
    (here : types type) :
    ∃ d, s.registry.foretold? type = some d ∧ s.answer (.describe type) = .described (.ok d) ∧
      ∀ other ∈ d.references, types other := by
  obtain ⟨d, foretold, references⟩ := provided.closed type here
  refine ⟨d, foretold, ?_, references⟩
  change SchemaAnswer.described (outcome (s.host.describe type) s.registry).1 = _
  rcases @Host.describe_foretold s.host _ _ _ foretold with ran | ⟨-, ran | ⟨claimed, -⟩⟩
  · rw [ran]
  · rw [ran]
  · exact absurd unclaimed claimed

theorem furnished (provided : s.Provided types) (unclaimed : s.registry.Unclaimed) :
    ∃ R, s.host.Later s.registry R ∧ s.Furnished types R := by
  obtain ⟨R, later, cached⟩ := provided.reachable.foretold unclaimed
  refine ⟨R, later, later.scalar?, fun type here => ?_⟩
  obtain ⟨d, foretold, described, -⟩ := provided.describes unclaimed here
  exact ⟨d, described, cached type d foretold⟩

/-! ## Calls -/

/-- A schema whose registry has more types described. -/
theorem later (provided : s.Provided types) (later : s.host.Later s.registry t.registry) (same : t.host = s.host)
    (within : t.Within (s.host.foreseeing s.registry types)) : t.Provided types := by
  refine ⟨?_, later.closed provided.closed, provided.builtin, ?_⟩
  · rw [same]
    exact .described provided.reachable later
  · refine within.mono (Host.foreseeing_widens fun _ => id) fun _ claimed unclaimed => ?_
    exact claimed (later.unclaimed unclaimed)

/-- A schema that differs only in what is described. -/
theorem describing (provided : s.Provided types) (describes : call.Describes)
    (operations : (s.after call).operations = s.operations) (cache : (s.after call).cache = s.cache) :
    (s.after call).Provided types := by
  refine provided.later (after_later describes).1 (host_after s call) ⟨?_, ?_⟩
  · rw [operations]
    exact provided.within.operations
  · rw [cache]
    exact provided.within.plans

/-- Requests are carried on what is foretold. -/
theorem serves (provided : s.Provided types) (declared : s.host.TakesDeclared)
    (requests : call.Requests (Plan.Within (s.host.foreseeing s.registry types))) :
    (s.host.foreseeing s.registry types).ServesAt call.perform
      (SchemaAnswer.Within (s.host.foreseeing s.registry types)) s :=
  requests.serves (Host.foreseeing_firm provided.reachable provided.closed declared) (provided.builtin .string) s rfl
    ⟨.refl s.host s.registry, id⟩ provided.within

/-- Registering an operation adds the types that it leads to. -/
theorem registers (provided : s.Provided types) (operation : OperationDeclaration) :
    ∃ types', (∀ type, types type → types' type) ∧ (s.after (.register operation)).Provided types' := by
  change ∃ types', _ ∧ ((register operation).run s).2.Provided types'
  have describes : (SchemaCall.register operation).Describes := fun scalar same => by cases same
  have later : s.host.Later s.registry ((register operation).run s).2.registry := (after_later describes).1
  rcases s.register_cases operation with ⟨e, r, -, refused⟩ | ⟨d, r, ran, added⟩
  · have same : s.after (.register operation) = { s with registry := r } := congrArg Prod.snd refused
    exact ⟨types, fun _ => id, provided.describing describes (by rw [same]) (by rw [same])⟩
  · rw [added] at later ⊢
    obtain ⟨types', closed', known⟩ := operation.closes provided.reachable ran
    refine ⟨fun type => types type ∨ types' type, fun _ => Or.inl, .described provided.reachable later,
      (later.closed provided.closed).or closed', fun b => Or.inl (provided.builtin b), ?_, ?_⟩
    · intro kind name found same
      have same : (s.operations.insert d).find? kind name = some found := same
      rw [OperationTable.find?_insert] at same
      split at same
      · cases same
        refine (OperationDescriptor.within_iff (fun b => Or.inl (provided.builtin b)) d).2 fun type mem => ?_
        exact Or.inr (known type mem)
      · exact (provided.within.operations kind name found same).mono (Host.foreseeing_widens fun _ => Or.inl)
    · exact fun cache kept => forall_mem_cleared kept

/-- A custom scalar makes way for itself, and types that are gone can be described again. -/
theorem registersScalar (provided : s.Provided types) (scalar : ScalarDescriptor) :
    (s.after (.registerScalar scalar)).Provided types := by
  have reachable := reachable_after provided.reachable (.registerScalar scalar)
  change s.host.Reachable ((registerScalar scalar).run s).2.registry at reachable
  change ((registerScalar scalar).run s).2.Provided types
  rcases s.registerScalar_cases scalar with ⟨e, refused⟩ | ⟨-, taken⟩
  · rw [refused]
    exact provided
  · rw [taken] at reachable ⊢
    refine ⟨reachable, provided.closed.takeOver provided.reachable.distinct scalar, provided.builtin, ?_, ?_⟩
    · intro kind name found same
      exact (provided.within.operations kind name found same).mono (Host.foreseeing_widens fun _ => id)
    · exact fun cache kept => forall_mem_cleared kept

/-- What one call leaves, and the plans that it opens. -/
theorem step (provided : s.Provided types) (declared : s.host.TakesDeclared) (call : SchemaCall) :
    ∃ types', (∀ type, types type → types' type) ∧ (s.after call).Provided types' ∧
      ∀ plan, (s.answer call).Opens plan → plan.Within (s.host.foreseeing s.registry types') := by
  have requested (requests : call.Requests (Plan.Within (s.host.foreseeing s.registry types))) :
      ∃ types', (∀ type, types type → types' type) ∧ (s.after call).Provided types' ∧
        ∀ plan, (s.answer call).Opens plan → plan.Within (s.host.foreseeing s.registry types') := by
    obtain ⟨keeps, within, after, same⟩ := provided.serves declared requests
    exact ⟨types, fun _ => id, provided.later keeps.sound.1 same after, within.opens⟩
  cases call with
  | describe type =>
    exact ⟨types, fun _ => id, provided.describing (fun scalar same => by cases same) rfl rfl, fun _ => False.elim⟩
  | register operation =>
    obtain ⟨types', more, provided'⟩ := provided.registers operation
    exact ⟨types', more, provided', fun _ => False.elim⟩
  | registerScalar scalar => exact ⟨types, fun _ => id, provided.registersScalar scalar, fun _ => False.elim⟩
  | prepare _ _ => exact requested trivial
  | execute _ _ => exact requested trivial
  | executeText _ _ _ => exact requested trivial
  | subscribe _ _ => exact requested trivial
  | event _ _ _ _ =>
    exact ⟨types, fun _ => id, provided.describing (fun scalar same => by cases same) rfl rfl, fun _ => False.elim⟩

/-- What calls leave, one after the other, and the plans that they open. -/
theorem run (provided : s.Provided types) (declared : s.host.TakesDeclared) (calls : List SchemaCall) :
    ∃ types', (∀ type, types type → types' type) ∧ (s.afterAll calls).Provided types' ∧
      ∀ answer ∈ ((replay calls).run s).1, ∀ plan, answer.Opens plan →
        plan.Within (s.host.foreseeing s.registry types') := by
  induction calls generalizing s types with
  | nil => exact ⟨types, fun _ => id, provided, List.forall_mem_nil _⟩
  | cons call rest ih =>
    obtain ⟨types₁, more₁, provided₁, opened⟩ := provided.step declared call
    have declared₁ : (s.after call).host.TakesDeclared := s.host_after call ▸ declared
    obtain ⟨types', more, provided', others⟩ := ih provided₁ declared₁
    rw [afterAll_cons, replay_cons]
    refine ⟨types', fun type here => more type (more₁ type here), provided', List.forall_mem_cons.2 ⟨?_, ?_⟩⟩
    · exact fun plan opens => (opened plan opens).mono (Host.foreseeing_widens more)
    · exact fun answer mem plan opens => (others answer mem plan opens).mono (Host.foreseeing_widens fun _ => id)

/-! ## Requests -/

theorem foresees (provided : s.Provided types) (declared : s.host.TakesDeclared) (unclaimed : s.registry.Unclaimed)
    {before : List SchemaAnswer} (opened : ∀ answer ∈ before, ∀ plan, answer.Opens plan →
      plan.Within (s.host.foreseeing s.registry types)) : s.Foresees types before := by
  have requested {call : SchemaCall} (requests : call.Requests fun plan => ∃ answer ∈ before, answer.Opens plan) :
      call.Requests (Plan.Within (s.host.foreseeing s.registry types)) := by
    refine requests.mono fun plan opens => ?_
    obtain ⟨answer, mem, opens⟩ := opens
    exact opened answer mem plan opens
  constructor
  · intro kind name operation found
    have within := provided.within.operations kind name operation found
    exact (OperationDescriptor.within_iff provided.builtin operation).1 within
  · intro type here
    obtain ⟨d, -, described, references⟩ := provided.describes unclaimed here
    exact ⟨d, described, references⟩
  · exact provided.furnished unclaimed
  · intro query operationName e failed
    have request : (SchemaCall.prepare query operationName).Requests (Plan.Within (s.host.foreseeing s.registry types)) :=
      trivial
    exact ((provided.serves declared request).gives.prepared _ failed).error _ rfl e rfl unclaimed
  · intro R furnished call requests
    obtain ⟨keeps, -⟩ := provided.serves declared (requested requests)
    refine (keeps.again R ⟨unclaimed, fun type => ?_, fun type d here foretold => ?_⟩).2
    · exact (furnished.scalars type).trans (keeps.sound.1.scalar? type).symm
    · obtain ⟨d', foretold', described, -⟩ := provided.describes unclaimed here
      obtain ⟨e, described', cached⟩ := furnished.described type here
      cases foretold.symm.trans foretold'
      cases described.symm.trans described'
      exact cached
  · intro call requests
    exact (provided.serves declared (requested requests)).keeps.sound.2 unclaimed

end Provided

/-- A new schema has no operations. -/
theorem provided_create (host : Host) (config : Config) (scorer : Scorer) {cache : Option PlanCache}
    (blank : ∀ given, cache = some given → given.plans = []) :
    (create host config scorer cache).Provided fun type => ∃ b, type = .builtin b := by
  have new : host.Reachable {} := .empty
  refine ⟨new, new.closed_builtin, fun b => ⟨b, rfl⟩, ?_, ?_⟩
  · intro kind name operation found
    cases kind <;> cases found
  · intro kept same entry mem
    have none : kept.plans = [] := by
      cases given : cache with
      | some c =>
        rw [given] at same
        cases same
        exact blank kept given
      | none =>
        rw [given] at same
        have same : (if config.planCache.enabled then some _ else none) = some kept := same
        split at same
        · cases same
          rfl
        · cases same
    rw [none] at mem
    cases mem

/-- Where no type has the name of a custom scalar of another, and input objects take only values of the types that
their fields are declared with, requests describe no type that cannot be described. -/
theorem afterAll_foresees (host : Host) (config : Config) (scorer : Scorer) (cache : Option PlanCache)
    (calls : List SchemaCall) (declared : host.TakesDeclared) (blank : ∀ given, cache = some given → given.plans = [])
    (unclaimed : ((create host config scorer cache).afterAll calls).registry.Unclaimed) :
    ∃ types, ((create host config scorer cache).afterAll calls).Foresees types
      ((replay calls).run (create host config scorer cache)).1 := by
  have new := provided_create host config scorer blank
  obtain ⟨types, -, provided, opened⟩ := new.run declared calls
  refine ⟨types, provided.foresees ?_ unclaimed fun answer mem plan opens => ?_⟩
  · rw [host_afterAll]
    exact declared
  · exact (opened answer mem plan opens).mono (Host.foreseeing_widens fun _ => id)

/-! ## Compiling -/

/-- What a request is compiled with. -/
def options (s : Schema) : CompileOptions :=
  { host := s.host, operations := s.operations, scorer := s.scorer, listSizeEstimate := s.config.limits.listSizeEstimate }

theorem run_compile (s : Schema) (query : String) (operationName : Option String) :
    (compile query operationName).run s =
      let ran := outcome (GraphQL.compile s.options query operationName) s.registry
      (ran.1, { s with registry := ran.2 }) := by
  have begins : (compile query operationName).run s = _ := run_bind get _ s
  rw [begins]
  exact run_onRegistry _ s

/-- A request of which no plan is kept is compiled. -/
theorem answer_prepare {query : String} {operationName : Option String}
    (fresh : ∀ cache, s.cache = some cache → Entries.find? (PlanCache.key operationName query) cache.plans = none) :
    s.answer (.prepare query operationName) =
      .prepared (outcome (GraphQL.compile s.options query operationName) s.registry).1 := by
  have missed : ∃ cache, (lookup (PlanCache.key operationName query)).run s = (none, { s with cache := cache }) := by
    cases cached : s.cache with
    | none => exact ⟨s.cache, run_lookup_none cached _⟩
    | some cache =>
      have absent : (cache.find? (PlanCache.key operationName query)).1 = none := by
        rw [PlanCache.find?, fresh cache cached]
      exact ⟨_, (run_lookup_some cached _).trans (by rw [absent])⟩
  obtain ⟨cache, missed⟩ := missed
  have stored (outcome : CompileOutcome) (s : Schema) :
      ((store (PlanCache.key operationName query) outcome >>= fun _ => pure outcome).run s).1 = outcome := rfl
  have begins : (prepare query operationName).run s = _ := run_bind (lookup (PlanCache.key operationName query)) _ s
  change SchemaAnswer.prepared ((prepare query operationName).run s).1 = _
  rw [begins, missed]
  dsimp only
  rw [run_bind, stored, run_compile]
  dsimp only [options]

end Schema

/-! ## A name that another type takes

An operation gives grades. They are an enumeration when it is registered, and become a scalar. Then another type is
described that has the name of the scalar, and grades cannot be described again. -/

namespace GradeQuery

def grade : HostType :=
  { hostName := "Grade", description := { name := some "Grade", enumValues := [⟨"PASS", "Pass", {}⟩] } }

/-- An input object with a grade. -/
def filter : HostType :=
  { hostName := "Filter"
    description := { name := some "Filter", inputFields := [⟨"grade", .named (.host 0) true, {}⟩] }
    construct := .take "grade" (.named (.host 0) true) fun grade => .done (.ok [("grade", grade)]) }

def score : HostType :=
  { hostName := "Score", description := { name := some "Points", enumValues := [⟨"TEN", "Ten", {}⟩] } }

def host : Host := { builtinName := BuiltinType.scalarName, types := [grade, filter, score] }

def schema : Schema := .create host {} .default none

def operation : OperationDeclaration :=
  { kind := .query, name := "best", params := [.named (.host 1) false], output := .named (.host 0) false
    resolver := .field fun _ => .ok (.done (.ok .null)) }

/-- A scalar for grades. -/
def points : ScalarDescriptor :=
  { name := "Points", description := none, type := .host 0, serialize := fun _ => .null
    parseVariable := fun _ => .ok .null, parseLiteral := fun _ => .ok .null }

def calls : List SchemaCall := [.register operation, .registerScalar points]

/-- The operation takes the fields of a filter. -/
def descriptor : OperationDescriptor :=
  { kind := .query, name := "best", info := {}, output := .named (.host 0) false, mode := .struct
    binding := .struct (.named (.host 1) false) ["grade"], resolver := operation.resolver }

def filterDescriptor : TypeDescriptor := ⟨.host 1, "Filter", none, .inputObject filter.description.inputFields⟩

def gradeDescriptor : TypeDescriptor := ⟨.host 0, "Grade", none, .enum grade.description.enumValues⟩

def described : Registry :=
  { descriptors := [(.host 1, filterDescriptor), (.host 0, gradeDescriptor)]
    names := [("Filter", .host 1), ("Grade", .host 0)] }

/-- The schema after the operation was registered. -/
def registered : Schema :=
  { schema with
    registry := described
    operations := { query := [("best", descriptor)] }
    cache := schema.cache.map (·.clear) }

theorem operation_described : outcome (operation.describe host) {} = (.ok descriptor, described) := by
  let begun : Registry := { descriptors := [(.host 1, filterDescriptor)], names := [("Filter", .host 1)] }
  have grade : outcome (host.describe (.host 0)) begun = (.ok gradeDescriptor, described) := by with_unfolding_all rfl
  have filter : outcome (host.describe (.host 1)) described = (.ok filterDescriptor, described) :=
    Host.describeWithin_cached rfl
  have reached : outcome (host.describeAll [] [.host 0, .host 1]) begun = (.ok (), described) :=
    calc outcome (host.describeAll [] [.host 0, .host 1]) begun
      _ = outcome (host.describeAll [.host 0] [.host 1]) described :=
        Host.outcome_describeAll_fresh List.not_mem_nil (by decide) grade _
      _ = outcome (host.describeAll [.host 1, .host 0] [.host 0]) described :=
        Host.outcome_describeAll_fresh (by decide) (by decide) filter _
      _ = outcome (host.describeAll [.host 1, .host 0] []) described := Host.outcome_describeAll_seen (by decide) _
      _ = (.ok (), described) := by rw [Host.describeAll, outcome_pure]
  calc outcome (operation.describe host) {}
    _ = outcome (host.describeAll [] [.host 0, .host 1] >>= fun _ => pure descriptor) begun := by with_unfolding_all rfl
    _ = (.ok descriptor, described) := (outcome_bind_of_ok reached).trans (outcome_pure _ _)

theorem operation_registered : schema.after (.register operation) = registered := by
  change ((Schema.register operation).run schema).2 = registered
  rw [schema.run_register_of_ok operation_described]
  rfl

/-- Filters take only grades, and no type has the name of the scalar for grades. -/
theorem grade_foreseen : host.TakesDeclared ∧ (schema.afterAll calls).registry.Unclaimed ∧
    ∃ types, (schema.afterAll calls).Foresees types ((Schema.replay calls).run schema).1 := by
  have declared : host.TakesDeclared := by
    intro id type known input
    have mem : type ∈ [grade, filter, score] := List.mem_of_getElem? known
    simp only [List.mem_cons, List.not_mem_nil, or_false] at mem
    rcases mem with rfl | rfl | rfl
    · exact absurd input (by decide)
    · refine .take (fun other named => ?_) fun _ => .done _
      cases named
      exact List.mem_singleton_self _
    · exact absurd input (by decide)
  have unclaimed : (schema.afterAll calls).registry.Unclaimed := by
    have names : (schema.afterAll calls).registry.names = [("Filter", .host 1)] := by
      rw [calls, Schema.afterAll_cons, operation_registered]
      with_unfolding_all rfl
    have scalars : (schema.afterAll calls).registry.scalars = [(.host 0, points)] := by
      rw [calls, Schema.afterAll_cons, operation_registered]
      with_unfolding_all rfl
    intro type scalar other custom taken
    rw [names] at taken
    rw [Registry.scalar?, scalars] at custom
    cases List.mem_singleton.1 (Entries.mem_of_find? custom)
    exact absurd (List.mem_singleton.1 (Entries.mem_of_find? taken)) (by simp [points])
  have blank : ∀ given : PlanCache, none = some given → given.plans = [] := by
    intro given same
    cases same
  exact ⟨declared, unclaimed, Schema.afterAll_foresees host {} .default none calls declared blank unclaimed⟩

def text : String := "\x7b best \x7d"

/-- Another type has the name of the scalar. -/
def claimed : Registry :=
  { descriptors := [(.host 1, filterDescriptor),
      (.host 2, ⟨.host 2, "Points", none, .enum score.description.enumValues⟩)]
    names := [("Filter", .host 1), ("Points", .host 2)]
    scalars := [(.host 0, points)], scalarNames := [("Points", .host 0)] }

/-- No request for grades can be prepared any more. -/
theorem grade_refused : (schema.afterAll (calls ++ [.describe (.host 2)])).answer (.prepare text none) =
    .prepared (.error (.registration (.duplicateTypeName "Points" "Score" "Grade"))) := by
  have parsed : Document.parse text = .ok
      { operations := .anonymous ⟨.start, .query, [], [.field ⟨⟨1, 3⟩, none, "best", [], []⟩ []]⟩
        fragments := [] } := by
    with_unfolding_all rfl
  have collected : outcome ((Compiler.mk registered.options [] []).collect [] (.root .query) none []
      [.field ⟨⟨1, 3⟩, none, "best", [], []⟩ []]) claimed =
        (.error (.registration (.duplicateTypeName "Points" "Score" "Grade")), claimed) := by
    simp only [Compiler.collect]
    with_unfolding_all rfl
  have compiled : outcome (compile registered.options text none) claimed =
      (.error (.registration (.duplicateTypeName "Points" "Score" "Grade")), claimed) := by
    unfold compile
    rw [parsed]
    refine (outcome_bind_of_ok (show outcome _ claimed = (.ok _, claimed) from rfl)).trans ?_
    exact outcome_bind_of_error collected
  let last : Schema := { registered with registry := claimed, cache := registered.cache.map (·.clear) }
  have ends : schema.afterAll (calls ++ [.describe (.host 2)]) = last := by
    change schema.afterAll (.register operation :: _) = last
    rw [Schema.afterAll_cons, operation_registered]
    with_unfolding_all rfl
  rw [ends, Schema.answer_prepare fun cache same => by cases same; rfl]
  exact congrArg (SchemaAnswer.prepared ·.1) compiled

end GradeQuery

end GraphQL
