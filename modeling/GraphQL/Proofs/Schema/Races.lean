import GraphQL.Proofs.Schema.Caching
import Mathlib.Data.List.Induction

/-!
# Preparing while operations are registered

Preparing a request takes three steps, and so does registering an operation. When calls are made side by side, their
steps interleave, and a plan that was compiled before a registration may be stored after it, from where later calls get
it: `stale_after_registration`. There is no other way for a plan to get out of date: `prepared_in_place`.
-/

namespace GraphQL

structure PlanRequest where
  query : String
  operationName : Option String

namespace PlanRequest

def key (request : PlanRequest) : String := PlanCache.key request.operationName request.query

def compile (request : PlanRequest) : SchemaM CompileOutcome := Schema.compile request.query request.operationName

end PlanRequest

/-- How far a call has come. -/
inductive CallStage where
  | requested (request : PlanRequest)
  | missed (request : PlanRequest)
  | compiled (request : PlanRequest) (result : CompileOutcome)
  | prepared (request : PlanRequest) (result : CompileOutcome)
  | declared (operation : OperationDeclaration)
  | described (operation : OperationDescriptor)
  /-- Available, with plans still to be dropped. -/
  | added (operation : OperationDescriptor)
  | registered (operation : OperationDescriptor)
  | refused (e : RegistrationError)

namespace CallStage

def request? : CallStage → Option PlanRequest
  | requested request | missed request | compiled request _ | prepared request _ => some request
  | _ => none

/-- A registration whose types were described. -/
def ofDescription : Except RegistrationError OperationDescriptor → CallStage
  | .error e => refused e
  | .ok operation => described operation

/-- Where a registration ends. -/
def ofRegistration : Except RegistrationError OperationDescriptor → CallStage
  | .error e => refused e
  | .ok operation => registered operation

/-- One step of a call. -/
def step : CallStage → SchemaM CallStage
  | requested request => do
    match ← Schema.lookup request.key with
    | some result => return prepared request result
    | none => return missed request
  | missed request => return compiled request (← request.compile)
  | compiled request result => do
    Schema.store request.key result
    return prepared request result
  | declared operation => return ofDescription (← Schema.onRegistry (operation.describe (← get).host).run)
  | described operation => do
    Schema.addOperation operation
    return added operation
  | added operation => do
    Schema.clearCache
    return registered operation
  | stage => return stage

variable {s : Schema}

theorem run_missed (request : PlanRequest) (s : Schema) :
    (missed request).step.run s = (compiled request (request.compile.run s).1, (request.compile.run s).2) :=
  Schema.run_bind request.compile (fun result => pure (compiled request result)) s

theorem run_requested_of_hit {request : PlanRequest} {result : CompileOutcome} {t : Schema}
    (hit : (Schema.lookup request.key).run s = (some result, t)) :
    (requested request).step.run s = (prepared request result, t) := by
  have begins : (requested request).step.run s = _ := Schema.run_bind (Schema.lookup request.key) _ s
  rw [begins, hit]
  rfl

theorem run_requested_of_miss {request : PlanRequest} {t : Schema}
    (miss : (Schema.lookup request.key).run s = (none, t)) :
    (requested request).step.run s = (missed request, t) := by
  have begins : (requested request).step.run s = _ := Schema.run_bind (Schema.lookup request.key) _ s
  rw [begins, miss]
  rfl

theorem run_declared {operation : OperationDeclaration} {result : Except RegistrationError OperationDescriptor}
    {r : Registry} (ran : outcome (operation.describe s.host) s.registry = (result, r)) :
    (declared operation).step.run s = (ofDescription result, { s with registry := r }) := by
  have begins : (declared operation).step.run s = _ := Schema.run_bind get _ s
  rw [begins, show (get : SchemaM Schema).run s = (s, s) from rfl, Schema.run_bind, Schema.run_onRegistry, ran]
  cases result <;> rfl

/-- The steps of a call without others in between. -/
def alone (stage : CallStage) : SchemaM CallStage := do
  let second ← stage.step
  let third ← second.step
  third.step

theorem run_alone (stage : CallStage) (s : Schema) :
    stage.alone.run s = ((stage.step.run s).1.step.run (stage.step.run s).2).1.step.run
      ((stage.step.run s).1.step.run (stage.step.run s).2).2 := rfl

/-- A request that is prepared alone. -/
theorem alone_requested (request : PlanRequest) (s : Schema) :
    (requested request).alone.run s =
      (prepared request ((Schema.prepare request.query request.operationName).run s).1,
        ((Schema.prepare request.query request.operationName).run s).2) := by
  have begins : (Schema.prepare request.query request.operationName).run s = _ :=
    Schema.run_bind (Schema.lookup request.key) _ s
  rw [run_alone, begins]
  cases looked : (Schema.lookup request.key).run s with
  | mk found t =>
    cases found with
    | some result =>
      rw [run_requested_of_hit looked]
      rfl
    | none =>
      rw [run_requested_of_miss looked, run_missed]
      dsimp only
      rw [Schema.run_bind, show Schema.compile request.query request.operationName = request.compile from rfl]
      generalize request.compile.run t = ran
      rfl

theorem alone_declared (operation : OperationDeclaration) (s : Schema) :
    (declared operation).alone.run s =
      (ofRegistration ((Schema.register operation).run s).1, ((Schema.register operation).run s).2) := by
  rw [run_alone]
  rcases s.register_cases operation with ⟨e, r, ran, refused⟩ | ⟨d, r, ran, added⟩
  · rw [refused, run_declared ran]
    rfl
  · rw [added, run_declared ran]
    rfl

end CallStage

/-- The plans that are kept, with their keys. -/
def Schema.kept (s : Schema) : Entries CompileOutcome := (s.cache.map (·.plans)).getD []

namespace CallStage

theorem kept_cleared (operation : OperationDescriptor) (s : Schema) : ((added operation).step.run s).2.kept = [] := by
  change ((s.cache.map (·.clear)).map (·.plans)).getD [] = []
  cases s.cache <;> rfl

/-- What a step of a call does, and what it leaves in the cache. -/
inductive Steps (s : Schema) : CallStage → CallStage → Schema → Prop
  | hit {request : PlanRequest} {result : CompileOutcome} {t : Schema} (kept : (request.key, result) ∈ s.kept)
    (same : t.kept = s.kept) : Steps s (requested request) (prepared request result) t
  | miss {request : PlanRequest} {t : Schema} (same : t.kept = s.kept) : Steps s (requested request) (missed request) t
  | compiles {request : PlanRequest} {t : Schema} (same : t.kept = s.kept) :
    Steps s (missed request) (compiled request (request.compile.run s).1) t
  | stores {request : PlanRequest} {result : CompileOutcome} {t : Schema}
    (kept : ∀ entry ∈ t.kept, entry = (request.key, result) ∨ entry ∈ s.kept) :
    Steps s (compiled request result) (prepared request result) t
  | refuses {operation : OperationDeclaration} {e : RegistrationError} {t : Schema} (same : t.kept = s.kept) :
    Steps s (declared operation) (refused e) t
  | describes {operation : OperationDeclaration} {descriptor : OperationDescriptor} {t : Schema}
    (same : t.kept = s.kept) : Steps s (declared operation) (described descriptor) t
  | adds {operation : OperationDescriptor} {t : Schema} (same : t.kept = s.kept) :
    Steps s (described operation) (added operation) t
  | clears {operation : OperationDescriptor} {t : Schema} (none : t.kept = []) :
    Steps s (added operation) (registered operation) t
  | rests {stage : CallStage} (holds : ∀ request result, stage ≠ compiled request result) : Steps s stage stage s

theorem steps (stage : CallStage) (s : Schema) : Steps s stage (stage.step.run s).1 (stage.step.run s).2 := by
  cases stage with
  | requested request =>
    cases cached : s.cache with
    | none =>
      rw [run_requested_of_miss (Schema.run_lookup_none cached _)]
      exact .miss rfl
    | some cache =>
      have looked := Schema.run_lookup_some cached request.key
      have same : ({ s with cache := some (cache.find? request.key).2 } : Schema).kept = s.kept := by
        rw [Schema.kept, Schema.kept, cached]
        exact PlanCache.plans_find? cache request.key
      cases found : (cache.find? request.key).1 with
      | none =>
        rw [found] at looked
        rw [run_requested_of_miss looked]
        exact .miss same
      | some result =>
        rw [found] at looked
        rw [run_requested_of_hit looked]
        refine .hit ?_ same
        rw [Schema.kept, cached]
        exact Entries.mem_of_find? (PlanCache.find?_eq_some.1 found)
  | missed request =>
    rw [run_missed]
    refine .compiles ?_
    rw [PlanRequest.compile, Schema.run_compile]
    generalize outcome (GraphQL.compile s.options request.query request.operationName) s.registry = ran
    rfl
  | compiled request result =>
    refine .stores fun entry mem => ?_
    change entry ∈ ((s.cache.map (·.insert request.key result)).map (·.plans)).getD [] at mem
    rw [Schema.kept]
    cases cached : s.cache with
    | none =>
      rw [cached] at mem
      cases mem
    | some cache =>
      rw [cached] at mem
      exact Entries.mem_insert (List.mem_of_mem_drop mem)
  | declared operation =>
    cases ran : outcome (operation.describe s.host) s.registry with
    | mk result r =>
      rw [run_declared ran]
      cases result with
      | error e => exact .refuses rfl
      | ok descriptor => exact .describes rfl
  | described operation => exact .adds rfl
  | added operation => exact .clears (kept_cleared operation s)
  | prepared request result => exact .rests (by simp)
  | registered operation => exact .rests (by simp)
  | refused e => exact .rests (by simp)

theorem step_request? (stage : CallStage) (s : Schema) : (stage.step.run s).1.request? = stage.request? := by
  have steps := steps stage s
  generalize (stage.step.run s).1 = next, (stage.step.run s).2 = t at steps
  cases steps <;> rfl

end CallStage

/-! ## Calls side by side -/

/-- A schema and the calls on it, in the order in which they began. -/
structure Traffic where
  schema : Schema
  calls : List CallStage := []

/-- What happens next. -/
inductive TrafficMove where
  | prepare (request : PlanRequest)
  | register (operation : OperationDeclaration)
  /-- A step of a call that has begun. -/
  | step (i : Nat)

namespace Traffic

def after (t : Traffic) : TrafficMove → Traffic
  | .prepare request => { t with calls := t.calls ++ [.requested request] }
  | .register operation => { t with calls := t.calls ++ [.declared operation] }
  | .step i =>
    match t.calls[i]? with
    | some stage => { schema := (stage.step.run t.schema).2, calls := t.calls.set i (stage.step.run t.schema).1 }
    | none => t

def afterAll (t : Traffic) (moves : List TrafficMove) : Traffic := moves.foldl after t

/-- The requests that were to be prepared. -/
def requests (t : Traffic) : List PlanRequest := t.calls.filterMap (·.request?)

variable {t start : Traffic} {move : TrafficMove} {moves : List TrafficMove} {k : Nat} {stage : CallStage}

theorem afterAll_append (t : Traffic) (moves more : List TrafficMove) :
    t.afterAll (moves ++ more) = (t.afterAll moves).afterAll more := List.foldl_append

theorem after_step {i : Nat} {before : CallStage} (at' : t.calls[i]? = some before) :
    t.after (.step i) =
      { schema := (before.step.run t.schema).2, calls := t.calls.set i (before.step.run t.schema).1 } := by
  rw [after, at']

/-- What a move does to a call: nothing, or the call begins, or it takes a step. -/
theorem call_after (at' : (t.after move).calls[k]? = some stage) :
    t.calls[k]? = some stage ∨
      ((∃ request, stage = .requested request) ∨ ∃ operation, stage = .declared operation) ∨
      ∃ before, t.calls[k]? = some before ∧ (before.step.run t.schema).1 = stage := by
  have appended {new : CallStage} (at' : (t.calls ++ [new])[k]? = some stage) :
      t.calls[k]? = some stage ∨ stage = new := by
    rcases Nat.lt_or_ge k t.calls.length with old | beyond
    · rw [List.getElem?_append_left old] at at'
      exact Or.inl at'
    · rw [List.getElem?_append_right beyond] at at'
      exact Or.inr (List.mem_singleton.1 (List.mem_of_getElem? at'))
  cases move with
  | prepare request => exact (appended at').imp_right fun new => Or.inl (Or.inl ⟨request, new⟩)
  | register operation => exact (appended at').imp_right fun new => Or.inl (Or.inr ⟨operation, new⟩)
  | step i =>
    cases here : t.calls[i]? with
    | none =>
      rw [after, here] at at'
      exact Or.inl at'
    | some before =>
      rw [after_step here] at at'
      by_cases same : i = k
      · subst same
        have bound := (List.getElem?_eq_some_iff.1 here).1
        rw [List.getElem?_set_self bound] at at'
        exact Or.inr (Or.inr ⟨before, here, Option.some.inj at'⟩)
      · rw [List.getElem?_set_ne same] at at'
        exact Or.inl at'

/-- What is kept after a move was kept before, or a call has stored it. -/
theorem kept_after {entry : String × CompileOutcome} (mem : entry ∈ (t.after move).schema.kept) :
    entry ∈ t.schema.kept ∨
      ∃ (k : Nat) (request : PlanRequest) (result : CompileOutcome), t.calls[k]? = some (.compiled request result) ∧
        entry = (request.key, result) := by
  cases move with
  | prepare _ => exact Or.inl mem
  | register _ => exact Or.inl mem
  | step i =>
    cases here : t.calls[i]? with
    | none =>
      rw [after, here] at mem
      exact Or.inl mem
    | some before =>
      rw [after_step here] at mem
      have steps := before.steps t.schema
      dsimp only at mem
      generalize (before.step.run t.schema).1 = next, (before.step.run t.schema).2 = s at steps mem
      cases steps with
      | stores kept => exact (kept entry mem).elim (fun stored => Or.inr ⟨i, _, _, here, stored⟩) Or.inl
      | clears none =>
        rw [none] at mem
        cases mem
      | rests => exact Or.inl mem
      | hit _ same => exact Or.inl (same ▸ mem)
      | _ same => exact Or.inl (same ▸ mem)

theorem mem_requests {request : PlanRequest} (at' : t.calls[k]? = some stage) (is : stage.request? = some request) :
    request ∈ t.requests := List.mem_filterMap.2 ⟨stage, List.mem_of_getElem? at', is⟩

theorem requests_after (t : Traffic) (move : TrafficMove) : t.requests ⊆ (t.after move).requests := by
  intro request mem
  unfold requests at *
  cases move with
  | prepare _ =>
    rw [after, List.filterMap_append]
    exact List.mem_append_left _ mem
  | register _ =>
    rw [after, List.filterMap_append]
    exact List.mem_append_left _ mem
  | step i =>
    cases here : t.calls[i]? with
    | none =>
      rw [after, here]
      exact mem
    | some before =>
      obtain ⟨stage, among, is⟩ := List.mem_filterMap.1 mem
      obtain ⟨k, at'⟩ := List.getElem?_of_mem among
      rw [after_step here]
      refine List.mem_filterMap.2 ?_
      by_cases same : i = k
      · subst same
        cases here.symm.trans at'
        have bound := (List.getElem?_eq_some_iff.1 here).1
        exact ⟨_, List.mem_of_getElem? (List.getElem?_set_self bound), (before.step_request? t.schema).trans is⟩
      · exact ⟨stage, List.mem_of_getElem? ((List.getElem?_set_ne same).trans at'), is⟩

/-! ## Results that are up to date -/

/-- A request is compiled to the result at some moment between two points. -/
def Timely (start : Traffic) (moves : List TrafficMove) (request : PlanRequest) (result : CompileOutcome) : Prop :=
  ∃ earlier later, moves = earlier ++ later ∧ (request.compile.run (start.afterAll earlier).schema).1 = result

theorem Timely.append {request : PlanRequest} {result : CompileOutcome} (timely : start.Timely moves request result)
    (more : List TrafficMove) : start.Timely (moves ++ more) request result := by
  obtain ⟨earlier, later, rfl, compiled⟩ := timely
  exact ⟨earlier, later ++ more, List.append_assoc .., compiled⟩

/-- What a call has compiled after some moves, it compiled in their course, or had compiled before. -/
theorem compiled_afterAll (start : Traffic) (moves : List TrafficMove) {request : PlanRequest} {result : CompileOutcome}
    (at' : (start.afterAll moves).calls[k]? = some (.compiled request result)) :
    start.Timely moves request result ∨ start.calls[k]? = some (.compiled request result) := by
  induction moves using List.reverseRecOn generalizing request result with
  | nil => exact Or.inr at'
  | append_singleton moves move ih =>
    rw [afterAll_append] at at'
    rcases call_after at' with same | (⟨_, new⟩ | ⟨_, new⟩) | ⟨before, here, stepped⟩
    · exact (ih same).imp_left (·.append [move])
    · cases new
    · cases new
    · have steps := before.steps (start.afterAll moves).schema
      rw [stepped] at steps
      generalize (before.step.run (start.afterAll moves).schema).2 = s at steps
      cases steps with
      | compiles => exact Or.inl ⟨moves, [move], rfl, rfl⟩
      | rests holds => exact absurd rfl (holds _ _)

theorem Timely.prepend {request : PlanRequest} {result : CompileOutcome} {more : List TrafficMove}
    (timely : (start.afterAll moves).Timely more request result) : start.Timely (moves ++ more) request result := by
  obtain ⟨earlier, later, rfl, compiled⟩ := timely
  rw [← afterAll_append] at compiled
  exact ⟨moves ++ earlier, later, (List.append_assoc ..).symm, compiled⟩

/-- The plans that are kept are up to date, and so are those of the calls that began after the first `n`. -/
structure InPlace (start : Traffic) (n : Nat) (moves : List TrafficMove) : Prop where
  kept : ∀ key result, (key, result) ∈ (start.afterAll moves).schema.kept →
    ∃ request ∈ (start.afterAll moves).requests, request.key = key ∧ start.Timely moves request result
  prepared : ∀ k request result, n ≤ k → (start.afterAll moves).calls[k]? = some (.prepared request result) →
    ∃ other ∈ (start.afterAll moves).requests, other.key = request.key ∧ start.Timely moves other result

/-- A move leaves them up to date if the calls that hold a result compiled it in time. -/
theorem InPlace.step {n : Nat} (inPlace : start.InPlace n moves)
    (compiled : ∀ (k : Nat) request result, (start.afterAll moves).calls[k]? = some (.compiled request result) →
      start.Timely moves request result) (move : TrafficMove) : start.InPlace n (moves ++ [move]) := by
  have moved : start.afterAll (moves ++ [move]) = (start.afterAll moves).after move :=
    afterAll_append start moves [move]
  have among {request : PlanRequest} (mem : request ∈ (start.afterAll moves).requests) :
      request ∈ (start.afterAll (moves ++ [move])).requests := by
    rw [moved]
    exact requests_after _ move mem
  constructor
  case kept =>
    intro key result mem
    rw [moved] at mem
    rcases kept_after mem with before | ⟨k, request, stored, at', same⟩
    · obtain ⟨request, asked, named, timely⟩ := inPlace.kept key result before
      exact ⟨request, among asked, named, timely.append [move]⟩
    · cases same
      exact ⟨request, among (mem_requests at' rfl), rfl, (compiled k request result at').append [move]⟩
  case prepared =>
    intro k request result begun at'
    rw [moved] at at'
    rcases call_after at' with same | (⟨_, new⟩ | ⟨_, new⟩) | ⟨before, here, stepped⟩
    · obtain ⟨other, asked, named, timely⟩ := inPlace.prepared k request result begun same
      exact ⟨other, among asked, named, timely.append [move]⟩
    · cases new
    · cases new
    · have steps := before.steps (start.afterAll moves).schema
      rw [stepped] at steps
      generalize (before.step.run (start.afterAll moves).schema).2 = s at steps
      cases steps with
      | hit kept _ =>
        obtain ⟨other, asked, named, timely⟩ := inPlace.kept request.key result kept
        exact ⟨other, among asked, named, timely.append [move]⟩
      | stores _ => exact ⟨request, among (mem_requests here rfl), rfl, (compiled k request result here).append [move]⟩
      | rests _ =>
        obtain ⟨other, asked, named, timely⟩ := inPlace.prepared k request result begun here
        exact ⟨other, among asked, named, timely.append [move]⟩

/-- Whatever follows, they stay up to date. -/
theorem InPlace.run {n : Nat} (inPlace : start.InPlace n moves)
    (compiled : ∀ more (k : Nat) request result,
      (start.afterAll (moves ++ more)).calls[k]? = some (.compiled request result) →
        start.Timely (moves ++ more) request result)
    (more : List TrafficMove) : start.InPlace n (moves ++ more) := by
  induction more using List.reverseRecOn with
  | nil =>
    rw [List.append_nil]
    exact inPlace
  | append_singleton more move ih =>
    rw [← List.append_assoc]
    exact ih.step (compiled more) move

/-- When the plans are dropped, none are kept that could be out of date. -/
theorem inPlace_cleared {j : Nat} {operation : OperationDescriptor}
    (clears : (start.afterAll moves).calls[j]? = some (.added operation)) :
    start.InPlace (start.afterAll moves).calls.length (moves ++ [.step j]) := by
  have moved : start.afterAll (moves ++ [.step j]) = _ :=
    (afterAll_append start moves [.step j]).trans (after_step clears)
  constructor
  case kept =>
    intro key result mem
    rw [moved] at mem
    dsimp only at mem
    rw [CallStage.kept_cleared] at mem
    cases mem
  case prepared =>
    intro k request result begun at'
    have bound := (List.getElem?_eq_some_iff.1 at').1
    rw [moved, List.length_set] at bound
    exact absurd begun (Nat.not_le.2 bound)

/-- Let an operation be available from `start` on, and let the call `j` that registers it drop the plans later. If by
then no call holds a result any more that it had compiled before `start`, then whatever else is going on, a request
that is prepared from there on gets what it is compiled to at a moment after `start`. -/
theorem prepared_in_place {between rest : List TrafficMove} {j : Nat} {operation : OperationDescriptor}
    {request : PlanRequest} {result : CompileOutcome}
    (clears : (start.afterAll between).calls[j]? = some (.added operation))
    (stored : ∀ (i : Nat) other earlier, start.calls[i]? = some (.compiled other earlier) →
      (start.afterAll between).calls[i]? ≠ some (.compiled other earlier))
    (separate : ∀ one ∈ (start.afterAll (between ++ .step j :: rest)).requests,
      ∀ other ∈ (start.afterAll (between ++ .step j :: rest)).requests, one.key = other.key → one = other)
    (begins : (start.afterAll between).calls.length ≤ k)
    (prepared : (start.afterAll (between ++ .step j :: rest)).calls[k]? = some (.prepared request result)) :
    start.Timely (between ++ .step j :: rest) request result := by
  have compiled (more : List TrafficMove) (i : Nat) (other : PlanRequest) (earlier : CompileOutcome)
      (at' : (start.afterAll ((between ++ [.step j]) ++ more)).calls[i]? = some (.compiled other earlier)) :
      start.Timely ((between ++ [.step j]) ++ more) other earlier := by
    rw [List.append_assoc] at at' ⊢
    rw [afterAll_append] at at'
    rcases compiled_afterAll _ _ at' with timely | before
    · exact timely.prepend
    · rcases compiled_afterAll start between before with timely | first
      · exact timely.append _
      · exact absurd before (stored i other earlier first)
  have inPlace := (inPlace_cleared clears).run compiled rest
  rw [List.append_assoc, List.singleton_append] at inPlace
  obtain ⟨other, asked, named, timely⟩ := inPlace.prepared k request result begins prepared
  cases separate other asked request (mem_requests prepared rfl) named
  exact timely

/-! ## A result that is out of date -/

theorem afterAll_prepare (t : Traffic) (request : PlanRequest) (rest : List TrafficMove) :
    t.afterAll (.prepare request :: rest) = afterAll ⟨t.schema, t.calls ++ [.requested request]⟩ rest := rfl

theorem afterAll_register (t : Traffic) (operation : OperationDeclaration) (rest : List TrafficMove) :
    t.afterAll (.register operation :: rest) = afterAll ⟨t.schema, t.calls ++ [.declared operation]⟩ rest := rfl

theorem afterAll_step {s s' : Schema} {calls : List CallStage} {i : Nat} {before next : CallStage}
    (at' : calls[i]? = some before) (stepped : before.step.run s = (next, s')) (rest : List TrafficMove) :
    afterAll ⟨s, calls⟩ (.step i :: rest) = afterAll ⟨s', calls.set i next⟩ rest := by
  have moved : (⟨s, calls⟩ : Traffic).after (.step i) = ⟨s', calls.set i next⟩ := by
    rw [after_step at', stepped]
  exact congrArg (·.afterAll rest) moved

/-- A request is compiled before an operation is registered, and stored after it. Then it is prepared again. -/
def race (request : PlanRequest) (operation : OperationDeclaration) : List TrafficMove :=
  [.prepare request, .step 0, .step 0, .register operation, .step 1, .step 1, .step 1, .step 0, .prepare request,
    .step 2]

/-- It gets what it was compiled to before, whatever was kept and however few plans are. -/
theorem afterAll_race {s : Schema} {cache : PlanCache} (cached : s.cache = some cache) {request : PlanRequest}
    (absent : Entries.find? request.key cache.plans = none) {result : CompileOutcome} {r r' : Registry}
    (compiled : outcome (compile s.options request.query request.operationName) s.registry = (result, r))
    {operation : OperationDeclaration} {descriptor : OperationDescriptor}
    (described : outcome (operation.describe s.host) r = (.ok descriptor, r')) :
    ∃ cache' : PlanCache, ({ schema := s } : Traffic).afterAll (race request operation) =
      ⟨{ s with registry := r', operations := s.operations.insert descriptor, cache := some cache' },
        [.prepared request result, .registered descriptor, .prepared request result]⟩ := by
  let missing : PlanCache := { cache with log := .miss :: cache.log }
  let storing : PlanCache := missing.clear.insert request.key result
  let left (kept : PlanCache) : Schema :=
    { s with registry := r', operations := s.operations.insert descriptor, cache := some kept }
  have missed : (CallStage.requested request).step.run s = (.missed request, { s with cache := some missing }) :=
    CallStage.run_requested_of_miss (by rw [Schema.run_lookup_some cached, PlanCache.find?_of_absent absent])
  have compiled : (CallStage.missed request).step.run { s with cache := some missing } =
      (.compiled request result, { s with registry := r, cache := some missing }) := by
    have same : ({ s with cache := some missing } : Schema).options = s.options := rfl
    rw [CallStage.run_missed, PlanRequest.compile, Schema.run_compile, same, compiled]
  have declared : (CallStage.declared operation).step.run { s with registry := r, cache := some missing } =
      (.described descriptor, { s with registry := r', cache := some missing }) := by
    let t : Schema := { s with registry := r, cache := some missing }
    have ran : outcome (operation.describe t.host) t.registry = (.ok descriptor, r') := described
    exact CallStage.run_declared ran
  have added : (CallStage.described descriptor).step.run { s with registry := r', cache := some missing } =
      (.added descriptor, left missing) := rfl
  have cleared : (CallStage.added descriptor).step.run (left missing) =
      (.registered descriptor, left missing.clear) := rfl
  have stored : (CallStage.compiled request result).step.run (left missing.clear) =
      (.prepared request result, left storing) := rfl
  have kept : (storing.find? request.key).1 = some result :=
    PlanCache.find?_eq_some.2 (PlanCache.find?_insert_self rfl result)
  have hit : (CallStage.requested request).step.run (left storing) =
      (.prepared request result, left (storing.find? request.key).2) :=
    CallStage.run_requested_of_hit (by rw [Schema.run_lookup_some rfl, kept])
  refine ⟨(storing.find? request.key).2, ?_⟩
  rw [race, afterAll_prepare]
  refine (afterAll_step (by rfl) missed _).trans ?_
  refine (afterAll_step (by rfl) compiled _).trans ?_
  rw [afterAll_register]
  refine (afterAll_step (by rfl) declared _).trans ?_
  refine (afterAll_step (by rfl) added _).trans ?_
  refine (afterAll_step (by rfl) cleared _).trans ?_
  refine (afterAll_step (by rfl) stored _).trans ?_
  rw [afterAll_prepare]
  exact afterAll_step (by rfl) hit _

end Traffic

namespace GradeQuery

/-- The request for grades, and what it is compiled to before and after its operation is registered. -/
def request : PlanRequest := ⟨text, none⟩

def unknown : CompileOutcome := .error (.unknownField "best" "Query" ⟨1, 3⟩)

def plan : Plan :=
  { kind := .query, name := none, variableDefinitions := []
    selection :=
      [{ responseKey := "best", aliased := false, name := "best", location := ⟨1, 3⟩, condition := none
         directives := [], arguments := [], target := .operation descriptor, type := .named (.host 0) false
         complexity := 1, selection := [] }] }

theorem text_parsed : Document.parse text = .ok
    { operations := .anonymous ⟨.start, .query, [], [.field ⟨⟨1, 3⟩, none, "best", [], []⟩ []]⟩, fragments := [] } := by
  with_unfolding_all rfl

theorem unknown_compiled : outcome (compile schema.options text none) {} = (unknown, {}) := by
  have collected : outcome ((Compiler.mk schema.options [] []).collect [] (.root .query) none []
      [.field ⟨⟨1, 3⟩, none, "best", [], []⟩ []]) {} = (.error (.unknownField "best" "Query" ⟨1, 3⟩), {}) := by
    simp only [Compiler.collect]
    with_unfolding_all rfl
  unfold compile
  rw [text_parsed]
  refine (outcome_bind_of_ok (show outcome _ ({} : Registry) = (.ok _, {}) from rfl)).trans ?_
  exact outcome_bind_of_error collected

theorem plan_compiled : outcome (compile registered.options text none) described = (.ok plan, described) := by
  have collected : outcome ((Compiler.mk registered.options [] []).collect [] (.root .query) none []
      [.field ⟨⟨1, 3⟩, none, "best", [], []⟩ []]) described = (.ok plan.selection, described) := by
    simp only [Compiler.collect]
    with_unfolding_all rfl
  unfold compile
  rw [text_parsed]
  exact outcome_bind_eq_ok.2 ⟨_, _, rfl, outcome_bind_eq_ok.2 ⟨_, _, collected, rfl⟩⟩

/-- The request is still refused when it is prepared after its operation was registered. -/
theorem stale_after_registration :
    let t := ({ schema } : Traffic).afterAll (Traffic.race request operation)
    t.calls = [.prepared request unknown, .registered descriptor, .prepared request unknown] ∧
      (request.compile.run t.schema).1 = .ok plan := by
  intro t
  let new : PlanCache := { capacity := some 1000 }
  have cached : schema.cache = some new := rfl
  have absent : Entries.find? request.key new.plans = none := rfl
  have compiled : outcome (compile schema.options request.query request.operationName) schema.registry =
      (unknown, {}) := unknown_compiled
  obtain ⟨cache, ends⟩ := Traffic.afterAll_race cached absent compiled operation_described
  have ends : t = ⟨{ registered with cache := some cache },
    [.prepared request unknown, .registered descriptor, .prepared request unknown]⟩ := ends
  have same : ({ registered with cache := some cache } : Schema).options = registered.options := rfl
  rw [ends]
  refine ⟨rfl, ?_⟩
  rw [PlanRequest.compile, Schema.run_compile, same]
  exact congrArg Prod.fst plan_compiled

end GradeQuery

end GraphQL
