import GraphQL.Proofs.Schema.Foresight

/-!
# Plans from a cache

What a schema keeps of compiled requests never shows. Every cache will do that gives for a key nothing, or what was
last kept under it since it was last cleared: plans go out of date only with what is registered, and then they are
dropped. Types that are described meanwhile make no difference, because compiling a request, also one that fails,
comes to the same in every registry that covers the one it left.
-/

namespace GraphQL

open Footing HoldsRegistry

/-! ## Caches -/

/-- A way to keep compiled requests. -/
structure CacheDesign where
  State : Type
  find? : State → String → Option CompileOutcome × State
  insert : State → String → CompileOutcome → State
  clear : State → State

inductive CacheUse where
  | find (key : String)
  | insert (key : String) (result : CompileOutcome)
  | clear

/-- What was last kept under a key since the last clearing. The latest use comes first. -/
def CacheUse.kept? (key : String) : List CacheUse → Option CompileOutcome
  | [] => none
  | find _ :: earlier => kept? key earlier
  | insert other result :: earlier => if other = key then some result else kept? key earlier
  | clear :: _ => none

namespace CacheDesign

variable (design : CacheDesign)

def use (state : design.State) : CacheUse → design.State
  | .find key => (design.find? state key).2
  | .insert key result => design.insert state key result
  | .clear => design.clear state

/-- The cache after some uses, the latest first. -/
def after (new : design.State) : List CacheUse → design.State
  | [] => new
  | use :: earlier => design.use (after new earlier) use

/-- Whatever the uses, the cache gives for a key nothing or what was last kept under it. -/
def Truthful (new : design.State) : Prop :=
  ∀ uses key result, (design.find? (design.after new uses) key).1 = some result → CacheUse.kept? key uses = some result

end CacheDesign

namespace PlanCache

/-- Plans in the order in which they came, of which the oldest give way. -/
def design : CacheDesign := ⟨PlanCache, find?, insert, clear⟩

theorem find?_eq_some {cache : PlanCache} {key : String} {result : CompileOutcome} :
    (cache.find? key).1 = some result ↔ Entries.find? key cache.plans = some result := by
  unfold find?
  cases Entries.find? key cache.plans <;> rfl

theorem plans_find? (cache : PlanCache) (key : String) : (cache.find? key).2.plans = cache.plans := by
  unfold find?
  split <;> rfl

theorem find?_of_absent {cache : PlanCache} {key : String} (absent : Entries.find? key cache.plans = none) :
    cache.find? key = (none, { cache with log := .miss :: cache.log }) := by
  rw [find?, absent]

/-- However few plans are kept, the last one is. -/
theorem find?_insert_self {cache : PlanCache} {key : String} (absent : Entries.find? key cache.plans = none)
    (result : CompileOutcome) : Entries.find? key (cache.insert key result).plans = some result := by
  have last (excess : Nat) (few : excess ≤ cache.plans.length) :
      Entries.find? key ((Entries.insert key result cache.plans).drop excess) = some result := by
    have gone : Entries.find? key (cache.plans.drop excess) = none := by
      rw [← List.take_append_drop excess cache.plans, Entries.find?_append, Option.or_eq_none_iff] at absent
      exact absent.2
    rw [Entries.insert_of_find?_eq_none absent, List.drop_append_of_le_length few, Entries.find?_append, gone]
    exact Entries.find?_insert_self key result []
  have length : (Entries.insert key result cache.plans).length = cache.plans.length + 1 := by
    rw [Entries.insert_of_find?_eq_none absent, List.length_append, List.length_singleton]
  unfold insert
  refine last _ ?_
  split
  · next capacity _ =>
    have one : 1 ≤ max capacity 1 := Nat.le_max_right capacity 1
    omega
  · exact Nat.zero_le _

/-- A cache without plans is truthful, however few it may keep. -/
theorem truthful {new : PlanCache} (empty : new.plans = []) : design.Truthful new := by
  have known (uses : List CacheUse) : (Entries.keys (design.after new uses).plans).Nodup ∧
      ∀ key result, Entries.find? key (design.after new uses).plans = some result →
        CacheUse.kept? key uses = some result := by
    induction uses with
    | nil =>
      change (Entries.keys new.plans).Nodup ∧ ∀ key result, Entries.find? key new.plans = some result → _
      rw [empty]
      refine ⟨List.nodup_nil, fun _ _ found => ?_⟩
      cases found
    | cons use earlier ih =>
      obtain ⟨distinct, kept⟩ := ih
      cases use with
      | find other =>
        have same : (design.after new (.find other :: earlier)).plans = (design.after new earlier).plans :=
          plans_find? _ other
        rw [same]
        exact ⟨distinct, kept⟩
      | insert other given =>
        obtain ⟨excess, plans⟩ : ∃ excess, (design.after new (.insert other given :: earlier)).plans =
            (Entries.insert other given (design.after new earlier).plans).drop excess := ⟨_, rfl⟩
        have all := Entries.nodup_keys_insert distinct other given
        rw [plans]
        refine ⟨all.sublist ((List.drop_sublist _ _).map _), fun key result found => ?_⟩
        have found := Entries.find?_of_mem all (List.mem_of_mem_drop (Entries.mem_of_find? found))
        by_cases same : other = key
        · subst same
          rw [Entries.find?_insert_self] at found
          rw [CacheUse.kept?, if_pos rfl, found]
        · rw [Entries.find?_insert_of_ne (Ne.symm same)] at found
          rw [CacheUse.kept?, if_neg same, kept key result found]
      | clear =>
        refine ⟨List.nodup_nil, fun _ _ found => ?_⟩
        cases found
  exact fun uses key result found => (known uses).2 key result (find?_eq_some.1 found)

end PlanCache

/-! ## Compiling again -/

namespace Schema

/-- Compiling a request comes to a result and describes nothing more, here and in every registry that covers this one. -/
def Settled (s : Schema) (query : String) (operationName : Option String) (result : CompileOutcome) : Prop :=
  ∀ R, s.host.Covers s.registry R → outcome (GraphQL.compile s.options query operationName) R = (result, R)

variable {s t : Schema} {query : String} {operationName : Option String} {result : CompileOutcome}

theorem settled_compile (s : Schema) (query : String) (operationName : Option String) {r : Registry}
    (ran : outcome (GraphQL.compile s.options query operationName) s.registry = (result, r)) :
    s.host.Later s.registry r ∧ ({ s with registry := r } : Schema).Settled query operationName result := by
  have operations : s.options.operations.Within (s.host.growing s.registry) := (Host.schemaWithin_growing s).operations
  have carries := compile_carries Host.growing_firm operations trivial query operationName s.registry
    (.refl s.host s.registry)
  have later := carries.sound
  have again := carries.again
  rw [ran] at later again
  exact ⟨later, fun R covers => (again R covers).2⟩

theorem Settled.later (settled : s.Settled query operationName result) (same : t.options = s.options)
    (later : s.host.Later s.registry t.registry) : t.Settled query operationName result := by
  have host : t.host = s.host := congrArg (·.host) same
  unfold Settled
  rw [same, host]
  exact fun R covers => settled R (covers.after later)

/-- A request that is settled is compiled to its result again, and leaves the schema as it is. -/
theorem Settled.run_compile (settled : s.Settled query operationName result) :
    (compile query operationName).run s = (result, s) := by
  rw [Schema.run_compile, settled s.registry (.refl s.host s.registry)]

/-- A schema without a cache compiles every request. -/
theorem run_prepare_of_uncached (uncached : s.cache = none)
    (ran : (compile query operationName).run s = (result, t)) (uncached' : t.cache = none) :
    (prepare query operationName).run s = (result, t) := by
  have begins : (prepare query operationName).run s = _ := run_bind (lookup (PlanCache.key operationName query)) _ s
  rw [begins, run_lookup_none uncached]
  dsimp only
  rw [run_bind, ran]
  obtain ⟨_, _, _, _, _, _, _⟩ := t
  cases uncached'
  rfl

end Schema

/-! ## A schema with a cache of any design -/

/-- A schema that keeps plans in a cache of some design, and none in its own. -/
structure CachedSchema (design : CacheDesign) where
  schema : Schema
  cache : design.State

/-- What is asked of a schema until its requests are executed. -/
inductive PlanningCall where
  | describe (type : NamedType)
  | register (operation : OperationDeclaration)
  | registerScalar (scalar : ScalarDescriptor)
  | prepare (query : String) (operationName : Option String)

def PlanningCall.call : PlanningCall → SchemaCall
  | describe type => .describe type
  | register operation => .register operation
  | registerScalar scalar => .registerScalar scalar
  | prepare query operationName => .prepare query operationName

namespace CachedSchema

variable {design : CacheDesign}

/-- A computation on the schema. -/
def onSchema {α : Type} (f : SchemaM α) : StateM (CachedSchema design) α :=
  modifyGet fun t => ((f.run t.schema).1, { t with schema := (f.run t.schema).2 })

def lookup (key : String) : StateM (CachedSchema design) (Option CompileOutcome) :=
  modifyGet fun t => ((design.find? t.cache key).1, { t with cache := (design.find? t.cache key).2 })

def store (key : String) (result : CompileOutcome) : StateM (CachedSchema design) Unit :=
  modify fun t => { t with cache := design.insert t.cache key result }

def clear : StateM (CachedSchema design) Unit := modify fun t => { t with cache := design.clear t.cache }

/-- A registration, after which plans are dropped unless it is refused. -/
def register {α : Type} (registration : SchemaM (Except RegistrationError α)) :
    StateM (CachedSchema design) (Except RegistrationError α) := do
  match ← onSchema registration with
  | .error e => return .error e
  | .ok a => do
    clear
    return .ok a

/-- The plan of a request, from the cache if it is there. -/
def prepare (query : String) (operationName : Option String) : StateM (CachedSchema design) CompileOutcome := do
  let key := PlanCache.key operationName query
  match ← lookup key with
  | some result => return result
  | none => do
    let result ← onSchema (Schema.compile query operationName)
    store key result
    return result

def perform : PlanningCall → StateM (CachedSchema design) SchemaAnswer
  | .describe type => .described <$> onSchema (Schema.describe type)
  | .register operation => .registered <$> register (Schema.register operation)
  | .registerScalar scalar => .scalarRegistered <$> register (Schema.registerScalar scalar)
  | .prepare query operationName => .prepared <$> prepare query operationName

abbrev answer (t : CachedSchema design) (call : PlanningCall) : SchemaAnswer := ((perform call).run t).1

abbrev after (t : CachedSchema design) (call : PlanningCall) : CachedSchema design := ((perform call).run t).2

/-- The schema after calls, one after the other. -/
def afterAll (t : CachedSchema design) (calls : List PlanningCall) : CachedSchema design := calls.foldl after t

theorem run_bind {α β : Type} (m : StateM (CachedSchema design) α) (g : α → StateM (CachedSchema design) β)
    (t : CachedSchema design) : (m >>= g).run t = (g (m.run t).1).run (m.run t).2 := rfl

theorem run_onSchema {α : Type} (f : SchemaM α) (t : CachedSchema design) :
    (onSchema f).run t = ((f.run t.schema).1, { t with schema := (f.run t.schema).2 }) := rfl

theorem run_lookup (key : String) (t : CachedSchema design) :
    (lookup key).run t = ((design.find? t.cache key).1, { t with cache := (design.find? t.cache key).2 }) := rfl

/-! ## What the cache gives -/

/-- The cache gives nothing, or what requests among the calls come to. -/
structure Fresh (new : design.State) (calls : List PlanningCall) (t : CachedSchema design) : Prop where
  uncached : t.schema.cache = none
  settled : ∃ uses, t.cache = design.after new uses ∧ ∀ key result, CacheUse.kept? key uses = some result →
    ∃ query operationName, .prepare query operationName ∈ calls ∧ PlanCache.key operationName query = key ∧
      t.schema.Settled query operationName result

variable {new : design.State} {calls : List PlanningCall} {t : CachedSchema design}

/-- Types that are described make no difference. -/
theorem Fresh.later (fresh : t.Fresh new calls) {s : Schema} (uncached : s.cache = none)
    (same : s.options = t.schema.options) (later : t.schema.host.Later t.schema.registry s.registry) :
    Fresh new calls { t with schema := s } := by
  obtain ⟨uses, cache, settled⟩ := fresh.settled
  refine ⟨uncached, uses, cache, fun key result kept => ?_⟩
  obtain ⟨query, operationName, mem, named, settled⟩ := settled key result kept
  exact ⟨query, operationName, mem, named, settled.later same later⟩

/-- A registration that is refused only describes types, and any other drops the plans. -/
theorem Fresh.registered {α : Type} (fresh : t.Fresh new calls) {m : SchemaM (Except RegistrationError α)}
    (ran : (∃ e r, t.schema.host.Later t.schema.registry r ∧ m.run t.schema = (.error e, { t.schema with registry := r })) ∨
      ∃ a s, s.cache = none ∧ m.run t.schema = (.ok a, s)) :
    ((register m).run t).1 = (m.run t.schema).1 ∧ ((register m).run t).2.schema = (m.run t.schema).2 ∧
      ((register m).run t).2.Fresh new calls := by
  have begins : (register m).run t = _ := run_bind (onSchema m) _ t
  rw [begins, run_onSchema]
  obtain ⟨e, r, later, ran⟩ | ⟨a, s, uncached, ran⟩ := ran
  · rw [ran]
    exact ⟨rfl, rfl, fresh.later fresh.uncached rfl later⟩
  · rw [ran]
    obtain ⟨uses, cache, -⟩ := fresh.settled
    refine ⟨rfl, rfl, uncached, .clear :: uses, congrArg design.clear cache, fun _ _ kept => ?_⟩
    cases kept

/-- No two requests among the calls have one key. -/
def Separate (calls : List PlanningCall) : Prop :=
  ∀ query operationName query' operationName', .prepare query operationName ∈ calls →
    .prepare query' operationName' ∈ calls → PlanCache.key operationName query = PlanCache.key operationName' query' →
    query = query' ∧ operationName = operationName'

/-- What is looked up comes from requests among the calls. -/
theorem Fresh.looked (fresh : t.Fresh new calls) (key : String) :
    Fresh new calls { t with cache := (design.find? t.cache key).2 } := by
  obtain ⟨uses, cache, settled⟩ := fresh.settled
  exact ⟨fresh.uncached, .find key :: uses, congrArg (fun state => (design.find? state key).2) cache, settled⟩

theorem Fresh.stored (fresh : t.Fresh new calls) {query : String} {operationName : Option String}
    {result : CompileOutcome} (mem : .prepare query operationName ∈ calls)
    (settled : t.schema.Settled query operationName result) :
    Fresh new calls { t with cache := design.insert t.cache (PlanCache.key operationName query) result } := by
  obtain ⟨uses, cache, known⟩ := fresh.settled
  refine ⟨fresh.uncached, .insert (PlanCache.key operationName query) result :: uses,
    congrArg (design.insert · _ result) cache, fun key found kept => ?_⟩
  rw [CacheUse.kept?] at kept
  split at kept
  next same =>
    cases kept
    exact ⟨query, operationName, mem, same, settled⟩
  next => exact known key found kept

/-- A plan from the cache is the one that compiling comes to. -/
theorem Fresh.found (fresh : t.Fresh new calls) (truthful : design.Truthful new) (separate : Separate calls)
    {query : String} {operationName : Option String} {result : CompileOutcome}
    (mem : .prepare query operationName ∈ calls)
    (found : (design.find? t.cache (PlanCache.key operationName query)).1 = some result) :
    t.schema.Settled query operationName result := by
  obtain ⟨uses, cache, settled⟩ := fresh.settled
  rw [cache] at found
  obtain ⟨query', operationName', mem', same, settled⟩ := settled _ _ (truthful uses _ _ found)
  obtain ⟨rfl, rfl⟩ := separate query operationName query' operationName' mem mem' same.symm
  exact settled

theorem Fresh.prepared (fresh : t.Fresh new calls) (truthful : design.Truthful new) (separate : Separate calls)
    {query : String} {operationName : Option String} (mem : .prepare query operationName ∈ calls) :
    ((prepare query operationName).run t).1 = ((Schema.prepare query operationName).run t.schema).1 ∧
      ((prepare query operationName).run t).2.schema = ((Schema.prepare query operationName).run t.schema).2 ∧
      ((prepare query operationName).run t).2.Fresh new calls := by
  have looked := fresh.looked (PlanCache.key operationName query)
  have begins : (prepare query operationName).run t = _ := run_bind (lookup (PlanCache.key operationName query)) _ t
  rw [begins, run_lookup]
  dsimp only
  cases hit : (design.find? t.cache (PlanCache.key operationName query)).1 with
  | some result =>
    have settled := fresh.found truthful separate mem hit
    rw [Schema.run_prepare_of_uncached fresh.uncached settled.run_compile fresh.uncached]
    exact ⟨rfl, rfl, looked⟩
  | none =>
    cases ran : outcome (GraphQL.compile t.schema.options query operationName) t.schema.registry with
    | mk result r =>
      have compiled := Schema.run_compile t.schema query operationName
      rw [ran] at compiled
      obtain ⟨later, settled⟩ := t.schema.settled_compile query operationName ran
      have described : Fresh new calls { schema := { t.schema with registry := r }, cache := _ } :=
        looked.later fresh.uncached rfl later
      rw [Schema.run_prepare_of_uncached fresh.uncached compiled fresh.uncached]
      dsimp only
      rw [run_bind, run_onSchema, compiled]
      exact ⟨rfl, rfl, described.stored mem settled⟩

/-- One call comes to what it comes to without a cache. -/
theorem Fresh.step (fresh : t.Fresh new calls) (truthful : design.Truthful new) (separate : Separate calls)
    {call : PlanningCall} (mem : call ∈ calls) :
    t.answer call = t.schema.answer call.call ∧ (t.after call).schema = t.schema.after call.call ∧
      (t.after call).Fresh new calls := by
  have later (describes : call.call.Describes) := (Schema.after_later (s := t.schema) describes).1
  have cleared : t.schema.cache.map (·.clear) = none := by rw [fresh.uncached]; rfl
  cases call with
  | describe type =>
    obtain ⟨r, left⟩ : ∃ r, t.schema.after (.describe type) = { t.schema with registry := r } := ⟨_, rfl⟩
    have grows : t.schema.host.Later t.schema.registry (t.schema.after (.describe type)).registry :=
      later fun _ same => by cases same
    rw [left] at grows
    refine ⟨rfl, rfl, ?_⟩
    change Fresh new calls { t with schema := t.schema.after (.describe type) }
    rw [left]
    exact fresh.later fresh.uncached rfl grows
  | register operation =>
    have grows : t.schema.host.Later t.schema.registry ((Schema.register operation).run t.schema).2.registry :=
      later fun _ same => by cases same
    have registered : ((register (Schema.register operation)).run t).1 = _ ∧ _ ∧ _ := fresh.registered <| by
      obtain ⟨e, r, -, refused⟩ | ⟨d, r, -, added⟩ := t.schema.register_cases operation
      · rw [refused] at grows
        exact Or.inl ⟨e, r, grows, refused⟩
      · exact Or.inr ⟨d, _, cleared, added⟩
    obtain ⟨same, left, fresh⟩ := registered
    exact ⟨congrArg SchemaAnswer.registered same, left, fresh⟩
  | registerScalar scalar =>
    have registered : ((register (Schema.registerScalar scalar)).run t).1 = _ ∧ _ ∧ _ := fresh.registered <| by
      obtain ⟨e, refused⟩ | ⟨-, taken⟩ := t.schema.registerScalar_cases scalar
      · exact Or.inl ⟨e, t.schema.registry, .refl _ _, refused⟩
      · exact Or.inr ⟨(), _, cleared, taken⟩
    obtain ⟨same, left, fresh⟩ := registered
    exact ⟨congrArg SchemaAnswer.scalarRegistered same, left, fresh⟩
  | prepare query operationName =>
    obtain ⟨same, left, fresh⟩ := fresh.prepared truthful separate mem
    exact ⟨congrArg SchemaAnswer.prepared same, left, fresh⟩

theorem Fresh.run (fresh : t.Fresh new calls) (truthful : design.Truthful new) (separate : Separate calls)
    {asked : List PlanningCall} (mem : ∀ call ∈ asked, call ∈ calls) :
    (t.afterAll asked).schema = t.schema.afterAll (asked.map (·.call)) ∧ (t.afterAll asked).Fresh new calls := by
  induction asked generalizing t with
  | nil => exact ⟨rfl, fresh⟩
  | cons call rest ih =>
    obtain ⟨-, left, fresh⟩ := fresh.step truthful separate (mem call List.mem_cons_self)
    have rest := ih fresh fun call later => mem call (List.mem_cons_of_mem _ later)
    rw [left] at rest
    rw [List.map_cons, Schema.afterAll_cons]
    exact rest

theorem new_fresh (s : Schema) (new : design.State) (calls : List PlanningCall) :
    Fresh new calls { schema := { s with cache := none }, cache := new } :=
  ⟨rfl, [], rfl, fun _ _ kept => by cases kept⟩

/-- Whatever is registered, described and prepared before, a request is prepared to what compiling it comes to. So the
schema is the one that has no cache at all. -/
theorem afterAll_prepares (s : Schema) {new : design.State} (truthful : design.Truthful new)
    {earlier : List PlanningCall} {query : String} {operationName : Option String}
    (separate : Separate (earlier ++ [.prepare query operationName])) :
    let t : CachedSchema design := afterAll { schema := { s with cache := none }, cache := new } earlier
    t.schema = ({ s with cache := none } : Schema).afterAll (earlier.map (·.call)) ∧
      t.answer (.prepare query operationName) =
        .prepared (outcome (GraphQL.compile t.schema.options query operationName) t.schema.registry).1 := by
  intro t
  have begins := new_fresh s new (earlier ++ [.prepare query operationName])
  obtain ⟨left, fresh⟩ := begins.run truthful separate fun _ => List.mem_append_left _
  obtain ⟨same, -, -⟩ := fresh.step truthful separate (List.mem_append_right _ List.mem_cons_self)
  refine ⟨left, same.trans (Schema.answer_prepare fun cache kept => ?_)⟩
  rw [fresh.uncached] at kept
  cases kept

/-- Requests, one of them named, before and after their operation is registered. The cache keeps one plan. -/
theorem afterAll_prepares_best :
    let keeping : PlanCache := { capacity := some 1 }
    let earlier : List PlanningCall :=
      [.prepare GradeQuery.text none, .prepare GradeQuery.text (some "best"), .register GradeQuery.operation,
        .describe (.host 2), .prepare GradeQuery.text none, .registerScalar GradeQuery.points]
    let t : CachedSchema PlanCache.design :=
      afterAll { schema := { GradeQuery.schema with cache := none }, cache := keeping } earlier
    PlanCache.design.Truthful keeping ∧ Separate (earlier ++ [.prepare GradeQuery.text (some "best")]) ∧
      t.schema = ({ GradeQuery.schema with cache := none } : Schema).afterAll (earlier.map (·.call)) ∧
      t.answer (.prepare GradeQuery.text (some "best")) =
        .prepared (outcome (GraphQL.compile t.schema.options GradeQuery.text (some "best")) t.schema.registry).1 := by
  intro keeping earlier t
  have separate : Separate (earlier ++ [.prepare GradeQuery.text (some "best")]) := by
    intro query operationName query' operationName' mem mem' same
    simp only [earlier, List.cons_append, List.nil_append, List.mem_cons, List.not_mem_nil, PlanningCall.prepare.injEq,
      reduceCtorEq, or_false, false_or] at mem mem'
    rcases mem with ⟨rfl, rfl⟩ | ⟨rfl, rfl⟩ | ⟨rfl, rfl⟩ | ⟨rfl, rfl⟩ <;>
      rcases mem' with ⟨rfl, rfl⟩ | ⟨rfl, rfl⟩ | ⟨rfl, rfl⟩ | ⟨rfl, rfl⟩ <;>
      first | exact ⟨rfl, rfl⟩ | exact absurd same (by decide)
  have truthful : PlanCache.design.Truthful keeping := PlanCache.truthful rfl
  exact ⟨truthful, separate, afterAll_prepares GradeQuery.schema truthful separate⟩

/-! ## The cache of a schema -/

/-- The schema that keeps the plans itself. -/
def withPlans (t : CachedSchema PlanCache.design) : Schema := { t.schema with cache := some t.cache }

theorem run_register_withPlans (t : CachedSchema PlanCache.design) (operation : OperationDeclaration) :
    (Schema.register operation).run t.withPlans =
      (((register (Schema.register operation)).run t).1, ((register (Schema.register operation)).run t).2.withPlans) := by
  have begins : (register (Schema.register operation)).run t = _ := run_bind (onSchema (Schema.register operation)) _ t
  rw [begins, run_onSchema]
  obtain ⟨e, r, ran, refused⟩ | ⟨d, r, ran, added⟩ := t.schema.register_cases operation
  · obtain ⟨e', r', ran', refused'⟩ | ⟨d', r', ran', -⟩ := t.withPlans.register_cases operation
    · cases ran.symm.trans ran'
      rw [refused, refused']
      rfl
    · cases ran.symm.trans ran'
  · obtain ⟨e', r', ran', -⟩ | ⟨d', r', ran', added'⟩ := t.withPlans.register_cases operation
    · cases ran.symm.trans ran'
    · cases ran.symm.trans ran'
      rw [added, added']
      rfl

theorem run_registerScalar_withPlans (t : CachedSchema PlanCache.design) (scalar : ScalarDescriptor) :
    (Schema.registerScalar scalar).run t.withPlans =
      (((register (Schema.registerScalar scalar)).run t).1,
        ((register (Schema.registerScalar scalar)).run t).2.withPlans) := by
  have begins : (register (Schema.registerScalar scalar)).run t = _ := run_bind (onSchema (Schema.registerScalar scalar)) _ t
  have same : outcome (t.withPlans.host.registerScalar scalar) t.withPlans.registry =
    outcome (t.schema.host.registerScalar scalar) t.schema.registry := rfl
  rw [begins, run_onSchema, Schema.run_registerScalar, Schema.run_registerScalar, same]
  dsimp only
  cases outcome (t.schema.host.registerScalar scalar) t.schema.registry with
  | mk result r => cases result <;> rfl

theorem run_compile_withPlans (t : CachedSchema PlanCache.design) (query : String) (operationName : Option String) :
    (Schema.compile query operationName).run t.withPlans =
      (((onSchema (Schema.compile query operationName)).run t).1,
        ((onSchema (Schema.compile query operationName)).run t).2.withPlans) := by
  have options : t.withPlans.options = t.schema.options := rfl
  have registry : t.withPlans.registry = t.schema.registry := rfl
  rw [run_onSchema, Schema.run_compile, Schema.run_compile, options, registry]
  cases outcome (GraphQL.compile t.schema.options query operationName) t.schema.registry with
  | mk result r => rfl

theorem run_prepare_withPlans (t : CachedSchema PlanCache.design) (query : String) (operationName : Option String) :
    (Schema.prepare query operationName).run t.withPlans =
      (((prepare query operationName).run t).1, ((prepare query operationName).run t).2.withPlans) := by
  have begins : (prepare query operationName).run t = _ := run_bind (lookup (PlanCache.key operationName query)) _ t
  have begins' : (Schema.prepare query operationName).run t.withPlans = _ :=
    Schema.run_bind (Schema.lookup (PlanCache.key operationName query)) _ t.withPlans
  have looked : (Schema.lookup (PlanCache.key operationName query)).run t.withPlans =
      ((PlanCache.design.find? t.cache _).1, withPlans { t with cache := (PlanCache.design.find? t.cache _).2 }) :=
    Schema.run_lookup_some rfl _
  rw [begins, run_lookup, begins', looked]
  dsimp only
  cases (PlanCache.design.find? t.cache (PlanCache.key operationName query)).1 with
  | some result => rfl
  | none =>
    dsimp only
    rw [run_bind, Schema.run_bind, run_compile_withPlans]
    generalize (onSchema (Schema.compile query operationName)).run _ = compiled
    rfl

/-- A schema with a cache of its own answers as one that keeps its plans there. -/
theorem perform_withPlans (t : CachedSchema PlanCache.design) (call : PlanningCall) :
    call.call.perform.run t.withPlans = (t.answer call, (t.after call).withPlans) := by
  cases call with
  | describe type => rfl
  | register operation => exact congrArg (Prod.map SchemaAnswer.registered id) (t.run_register_withPlans operation)
  | registerScalar scalar => 
    exact congrArg (Prod.map SchemaAnswer.scalarRegistered id) (t.run_registerScalar_withPlans scalar)
  | prepare query operationName => 
    exact congrArg (Prod.map SchemaAnswer.prepared id) (t.run_prepare_withPlans query operationName)

theorem afterAll_withPlans (t : CachedSchema PlanCache.design) (calls : List PlanningCall) :
    t.withPlans.afterAll (calls.map (·.call)) = (t.afterAll calls).withPlans := by
  induction calls generalizing t with
  | nil => rfl
  | cons call rest ih =>
    rw [List.map_cons, Schema.afterAll_cons]
    change ((call.call.perform.run t.withPlans).2).afterAll _ = _
    rw [perform_withPlans]
    exact ih (t.after call)

end CachedSchema

/-- So the plans that a schema keeps never show. -/
theorem Schema.plans_unseen {s : Schema} {new : PlanCache} (cached : s.cache = some new) (empty : new.plans = [])
    {earlier : List PlanningCall} {query : String} {operationName : Option String}
    (separate : CachedSchema.Separate (earlier ++ [.prepare query operationName])) :
    let t := s.afterAll (earlier.map (·.call))
    t.answer (.prepare query operationName) =
      .prepared (outcome (GraphQL.compile t.options query operationName) t.registry).1 := by
  let t : CachedSchema PlanCache.design := ⟨{ s with cache := none }, new⟩
  have begins : s = t.withPlans := by
    obtain ⟨_, _, _, _, _, _, _⟩ := s
    cases cached
    rfl
  obtain ⟨-, prepared⟩ := CachedSchema.afterAll_prepares s (PlanCache.truthful empty) separate
  rw [begins, t.afterAll_withPlans]
  have answered := congrArg Prod.fst ((t.afterAll earlier).perform_withPlans (.prepare query operationName))
  exact answered.trans prepared

end GraphQL
