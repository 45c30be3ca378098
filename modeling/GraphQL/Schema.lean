import GraphQL.Execution.Events
import GraphQL.Plan.Cache
import GraphQL.Plan.Compile
import GraphQL.Request

/-!
# Schemas

A schema holds the registered operations and types that all requests share. Registering anything
clears the plan cache, because plans refer to what was registered. `Schema.prepare` looks a request up
in the cache and compiles it if it is not there.
-/

namespace GraphQL

structure Schema where
  host : Host
  config : Config := {}
  scorer : Scorer := Scorer.default
  registry : Registry := {}
  operations : OperationTable := {}
  cache : Option PlanCache := some { capacity := some 1000 }
  slots : Slots := { limit := 0 }

/-- Computations that use and change a schema. -/
abbrev SchemaM := StateM Schema

namespace Schema

/-- A schema without operations, with a cache of its own or the one that the configuration asks for. -/
def create (host : Host) (config : Config) (scorer : Scorer) (cache : Option PlanCache) : Schema :=
  let configured := if config.planCache.enabled then some { capacity := some config.planCache.limit } else none
  { host, config, scorer, cache := cache.or configured, slots := { limit := config.limits.maxConcurrentResolvers } }

/-- A computation on the registry. -/
def onRegistry {α : Type} (f : StateM Registry α) : SchemaM α := do
  let s ← get
  let (a, registry) := f.run s.registry
  set { s with registry }
  return a

def clearCache : SchemaM Unit := modify fun s => { s with cache := s.cache.map (·.clear) }

/-- The descriptor of a type. -/
def describe (type : NamedType) : SchemaM (Except RegistrationError TypeDescriptor) := do
  onRegistry ((← get).host.describe type).run

/-- Makes an operation available in place of any other of its kind and name. -/
def addOperation (operation : OperationDescriptor) : SchemaM Unit :=
  modify fun s => { s with operations := s.operations.insert operation }

/-- Describes an operation and makes it available; cached plans are dropped. -/
def register (operation : OperationDeclaration) : SchemaM (Except RegistrationError OperationDescriptor) := do
  match ← onRegistry (operation.describe (← get).host).run with
  | .error e => return .error e
  | .ok descriptor => do
    addOperation descriptor
    clearCache
    return .ok descriptor

/-- Registers a custom scalar for its type. -/
def registerScalar (scalar : ScalarDescriptor) : SchemaM (Except RegistrationError Unit) := do
  match ← onRegistry ((← get).host.registerScalar scalar).run with
  | .error e => return .error e
  | .ok () => do
    clearCache
    return .ok ()

/-! ## Preparing requests -/

/-- What the cache has for a key. -/
def lookup (key : String) : SchemaM (Option CompileOutcome) := do
  let s ← get
  match s.cache with
  | none => return none
  | some cache => do
    let (found, cache) := cache.find? key
    set { s with cache := some cache }
    return found

/-- Keeps an outcome in the cache. -/
def store (key : String) (outcome : CompileOutcome) : SchemaM Unit :=
  modify fun s => { s with cache := s.cache.map (·.insert key outcome) }

/-- Compiles a request against what is registered. -/
def compile (query : String) (operationName : Option String) : SchemaM CompileOutcome := do
  let s ← get
  let options : CompileOptions :=
    { host := s.host, operations := s.operations, scorer := s.scorer
      listSizeEstimate := s.config.limits.listSizeEstimate }
  onRegistry (GraphQL.compile options query operationName).run

/-- The plan of a request, from the cache if it is there. -/
def prepare (query : String) (operationName : Option String) : SchemaM CompileOutcome := do
  let key := PlanCache.key operationName query
  match ← lookup key with
  | some outcome => return outcome
  | none => do
    let outcome ← compile query operationName
    store key outcome
    return outcome

/-- The error for an operation of a kind that the entry point does not run. It names the first field. -/
def wrongEntryPoint (plan : Plan) (entryPoint : String) : CompileError :=
  let name := (plan.selection.head?.map (·.name)).or plan.name
  .wrongEntryPoint plan.kind (name.getD "") entryPoint

/-- The plan of a request of some kind, and its variables. -/
def planFor (request : Request) (entryPoint : String) (accepts : OperationKind → Bool) :
    SchemaM (Except ResponseError (Plan × Variables)) := do
  match ← prepare request.query request.operationName with
  | .error e => return .error e.toResponseError
  | .ok plan =>
    if !accepts plan.kind then return .error (wrongEntryPoint plan entryPoint).toResponseError
    else return (plan.coerceVariables request.variableValues).map fun values => (plan, values)

/-! ## Running requests -/

/-- What a request came to, and what it left behind. -/
structure Finished (α : Type) where
  result : Except Breakdown α
  journal : List JournalEntry := []
  /-- Whether the request was cancelled, before it began or by itself. -/
  cancelled : Bool

/-- The state in which an execution begins. -/
def initialState (schema : Schema) (cancelled : Bool) : ExecutionState :=
  { registry := schema.registry, slots := schema.slots, cancelled }

/-- Takes over what an execution did to the schema. -/
def commit (state : ExecutionState) : SchemaM Unit :=
  modify fun s => { s with registry := state.registry, slots := state.slots }

/-- The execution of a plan. -/
def execution (schema : Schema) (plan : Plan) (values : Variables) : Execution :=
  { host := schema.host, limits := schema.config.limits, plan, variableValues := values }

/-- Executes a query or mutation. -/
def execute (request : Request) (cancelled : Bool) : SchemaM (Finished Response) := do
  match ← planFor request "query" (· ≠ .subscription) with
  | .error e => return { result := .ok (Response.ofError e), cancelled }
  | .ok (plan, values) => do
    let s ← get
    let (result, state) := (s.execution plan values).execute (s.initialState cancelled)
    commit state
    return { result, journal := state.journal, cancelled := state.cancelled }

/-- Executes a query or mutation given as texts. -/
def executeText (query variableText : String) (cancelled : Bool) :
    SchemaM (Except RequestError (Finished Response)) := do
  match Request.ofTexts (← get).config.memory query variableText with
  | .error e => return .error e
  | .ok request => return .ok (← execute request cancelled)

/-- A subscription that has been opened. -/
structure Opened where
  plan : Plan
  variableValues : Variables
  source : EventSource

/-- Opens a subscription, or rejects the request. -/
def subscribe (request : Request) (cancelled : Bool) : SchemaM (Finished (Except ResponseError Opened)) := do
  match ← planFor request "subscription" (· = .subscription) with
  | .error e => return { result := .ok (.error e), cancelled }
  | .ok (plan, values) => do
    let s ← get
    let (source, state) := (s.execution plan values).subscribe.run.run (s.initialState cancelled)
    commit state
    let result := match source with
      | .ok source => .ok (.ok ⟨plan, values, source⟩)
      | .error (.error e) => .ok (.error e)
      | .error (.breakdown b) => .error b
    return { result, journal := state.journal, cancelled := state.cancelled }

/-- Executes an event of a subscription. -/
def executeEvent (plan : Plan) (values : Variables) (cancelled : Bool) (event : Resolved) :
    SchemaM (Except Breakdown Response) := do
  let s ← get
  let (result, state) := (s.execution plan values).executeEvent event (s.initialState cancelled)
  commit state
  return result

end Schema

end GraphQL
