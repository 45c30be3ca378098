import GraphQL.Proofs.Schema.Parameters
import GraphQL.Proofs.Schema.Foresight

/-!
# The order of arguments

Whatever was registered before, an operation comes to the same parameters in whatever order its arguments are written:
`Schema.arguments_unordered`. It matters in two cases, which `PlotQuery` shows. Of several arguments of one name, which
are accepted, a parameter is given the first and an input object the last; and a custom scalar that has taken
over the type of the parameter in struct mode is given the arguments as one object, as they are written.
-/

namespace GraphQL

/-- Every parameter is given one input value. -/
theorem OperationDescriptor.map_fst_bindArguments (operation : OperationDescriptor) (arguments : List (String × Value)) :
    (operation.bindArguments arguments).map (·.1) = operation.binding.types := by
  cases bound : operation.binding with
  | arguments params =>
    rw [bindArguments_params bound, List.map_map]
    rfl
  | struct type fields =>
    cases none : arguments.isEmpty && type.nullable with
    | true =>
      rw [bindArguments_absent bound none]
      rfl
    | false =>
      rw [bindArguments_struct bound none]
      rfl

namespace Schema

/-- Whatever calls lead to a schema, an operation that it has gives its resolver the same values, or refuses to call
it, in whatever order the arguments are written, those of one name aside. Each parameter of the resolver has exactly
one input value, in the order of the parameters. Only a custom scalar that has taken over the type of the parameter in
struct mode may make a difference. -/
theorem arguments_unordered (host : Host) (config : Config) (scorer : Scorer) (cache : Option PlanCache)
    (calls : List SchemaCall) {kind : OperationKind} {name : String} {operation : OperationDescriptor}
    (found : ((create host config scorer cache).afterAll calls).operations.find? kind name = some operation)
    {context : InputContext} (same : context.host = host) {r : Registry}
    (later : host.Later ((create host config scorer cache).afterAll calls).registry r)
    {arguments arguments' : List (String × Value)} (reordered : Entries.Reordered arguments arguments')
    (scalars : ∀ type fields id scalar, operation.binding = .struct type fields → type.namedType = .host id →
      ((create host config scorer cache).afterAll calls).registry.custom? id = some scalar → scalar.DisregardsOrder) :
    Concur (outcome (operation.parseArguments context arguments) r).1
        (outcome (operation.parseArguments context arguments') r).1 ∧
      ∃ o, .register o ∈ calls ∧ o.kind = kind ∧ o.name = name ∧ o.resolver = operation.resolver ∧
        (operation.bindArguments arguments).map (·.1) = o.params ∧
        (operation.bindArguments arguments').map (·.1) = o.params := by
  obtain ⟨o, mem, sameKind, sameName, declares⟩ :=
    (declared_create host config scorer cache).run .empty calls (fun _ => id) kind name operation found
  rw [host_afterAll] at declares
  refine ⟨?_, o, mem, sameKind, sameName, declares.resolver, ?_, ?_⟩
  · subst same
    refine (OperationDescriptor.parseArguments_reordered reordered fun type fields id bound named => ?_).results
    refine later.disregardsOrder ?_
    rcases declares.object type fields id bound named with takes | ⟨scalar, custom⟩
    · exact Or.inl takes
    · exact Or.inr ⟨scalar, custom, scalars type fields id scalar bound named custom⟩
  · rw [operation.map_fst_bindArguments, declares.params]
  · rw [operation.map_fst_bindArguments, declares.params]

end Schema

namespace PlotQuery

def int : TypeRef := .named (.builtin .int32) true

/-- An input object with two fields. -/
def point : HostType :=
  { hostName := "Point"
    description := { inputFields := [⟨"x", int, {}⟩, ⟨"y", int, {}⟩] }
    construct := .take "x" int fun x => .take "y" int fun y => .done (.ok [("x", x), ("y", y)]) }

def host : Host := { builtinName := BuiltinType.scalarName, types := [point] }

def schema : Schema := .create host {} .default none

def plot : OperationDeclaration :=
  { kind := .query, name := "plot", params := [.named (.host 0) false], output := int
    resolver := .field fun _ => .ok (.done (.ok .null)) }

/-- The operation takes the fields of a point. -/
def descriptor : OperationDescriptor :=
  { kind := .query, name := "plot", info := {}, output := int, mode := .struct
    binding := .struct (.named (.host 0) false) ["x", "y"], resolver := plot.resolver }

def pointDescriptor : TypeDescriptor := ⟨.host 0, "Point", none, .inputObject point.description.inputFields⟩

def intDescriptor : TypeDescriptor := ⟨.builtin .int32, "Int", none, .scalar (.builtin .int32)⟩

def described : Registry :=
  { descriptors := [(.host 0, pointDescriptor), (.builtin .int32, intDescriptor)], names := [("Point", .host 0)] }

/-- The schema after the operation was registered. -/
def registered : Schema :=
  { schema with
    registry := described
    operations := { query := [("plot", descriptor)] }
    cache := schema.cache.map (·.clear) }

theorem plot_described : outcome (plot.describe host) {} = (.ok descriptor, described) := by
  let begun : Registry := { descriptors := [(.host 0, pointDescriptor)], names := [("Point", .host 0)] }
  have number : outcome (host.describe (.builtin .int32)) begun = (.ok intDescriptor, described) := by
    with_unfolding_all rfl
  have input : outcome (host.describe (.host 0)) described = (.ok pointDescriptor, described) :=
    Host.describeWithin_cached rfl
  have reached : outcome (host.describeAll [] [.builtin .int32, .host 0]) begun = (.ok (), described) :=
    calc outcome (host.describeAll [] [.builtin .int32, .host 0]) begun
      _ = outcome (host.describeAll [.builtin .int32] [.host 0]) described :=
        Host.outcome_describeAll_fresh List.not_mem_nil (by decide) number _
      _ = outcome (host.describeAll [.host 0, .builtin .int32] [.builtin .int32, .builtin .int32]) described :=
        Host.outcome_describeAll_fresh (by decide) (by decide) input _
      _ = outcome (host.describeAll [.host 0, .builtin .int32] [.builtin .int32]) described :=
        Host.outcome_describeAll_seen (by decide) _
      _ = outcome (host.describeAll [.host 0, .builtin .int32] []) described := Host.outcome_describeAll_seen (by decide) _
      _ = (.ok (), described) := by rw [Host.describeAll, outcome_pure]
  calc outcome (plot.describe host) {}
    _ = outcome (host.describeAll [] [.builtin .int32, .host 0] >>= fun _ => pure descriptor) begun := by
      with_unfolding_all rfl
    _ = (.ok descriptor, described) := (outcome_bind_of_ok reached).trans (outcome_pure _ _)

theorem plot_registered : schema.afterAll [.register plot] = registered := by
  change ((Schema.register plot).run schema).2 = registered
  rw [schema.run_register_of_ok plot_described]
  rfl

def context : InputContext := { host, variableValues := [] }

def one : Value := .number (.integer 1)

def two : Value := .number (.integer 2)

/-- Arguments of different names may be exchanged. -/
theorem fields_exchanged :
    (schema.afterAll [.register plot]).operations.find? .query "plot" = some descriptor ∧
      Entries.Reordered [("x", one), ("y", two)] [("y", two), ("x", one)] ∧
      Concur (outcome (descriptor.parseArguments context [("x", one), ("y", two)]) described).1
        (outcome (descriptor.parseArguments context [("y", two), ("x", one)]) described).1 ∧
      ∃ o, .register o ∈ [SchemaCall.register plot] ∧ o.kind = .query ∧ o.name = "plot" ∧
        o.resolver = descriptor.resolver ∧
        (descriptor.bindArguments [("x", one), ("y", two)]).map (·.1) = o.params ∧
        (descriptor.bindArguments [("y", two), ("x", one)]).map (·.1) = o.params := by
  have found : (schema.afterAll [.register plot]).operations.find? .query "plot" = some descriptor := by
    rw [plot_registered]
    rfl
  have later : host.Later (schema.afterAll [.register plot]).registry described := by
    rw [plot_registered]
    exact .refl host described
  have reordered : Entries.Reordered [("x", one), ("y", two)] [("y", two), ("x", one)] :=
    .of_perm (by decide) (.swap _ _ _)
  refine ⟨found, reordered,
    Schema.arguments_unordered host {} .default none [.register plot] found rfl later reordered ?_⟩
  intro type fields id scalar bound named custom
  cases bound
  cases named
  have plain : (schema.afterAll [.register plot]).registry.custom? 0 = none := by
    rw [plot_registered]
    rfl
  cases plain.symm.trans custom

/-- A scalar for points that keeps what is written. -/
def dot : ScalarDescriptor :=
  { name := "Dot", description := none, type := .host 0, serialize := (·.leaf)
    parseVariable := fun c => .ok (.host (.mk 0 (.leaf c) [] []))
    parseLiteral := fun c => .ok (.host (.mk 0 (.leaf c) [] [])) }

/-- The registry after the scalar has taken over points. -/
def dotted : Registry :=
  { descriptors := [(.builtin .int32, intDescriptor)], scalars := [(.host 0, dot)], scalarNames := [("Dot", .host 0)] }

theorem dot_registered : schema.afterAll [.register plot, .registerScalar dot] =
    { registered with registry := dotted, cache := registered.cache.map (·.clear) } := by
  have first : schema.after (.register plot) = registered := plot_registered
  rw [Schema.afterAll_cons, first]
  with_unfolding_all rfl

/-- Another operation, in named mode. -/
def move : OperationDeclaration :=
  { kind := .query, name := "move", names := ["x"], params := [int], output := int
    resolver := .field fun _ => .ok (.done (.ok .null)) }

def moveDescriptor : OperationDescriptor :=
  { kind := .query, name := "move", info := {}, output := int, mode := .named, binding := .arguments [⟨"x", int⟩]
    resolver := move.resolver }

/-- The schema after it was registered. -/
def moving : Schema :=
  { schema with
    registry := { descriptors := [(.builtin .int32, intDescriptor)] }
    operations := { query := [("move", moveDescriptor)] }
    cache := schema.cache.map (·.clear) }

theorem move_described : outcome (move.describe host) {} = (.ok moveDescriptor, moving.registry) := by
  have number : outcome (host.describe (.builtin .int32)) moving.registry = (.ok intDescriptor, moving.registry) :=
    Host.describeWithin_cached rfl
  have reached : outcome (host.describeAll [] [.builtin .int32, .builtin .int32]) moving.registry =
      (.ok (), moving.registry) :=
    calc outcome (host.describeAll [] [.builtin .int32, .builtin .int32]) moving.registry
      _ = outcome (host.describeAll [.builtin .int32] [.builtin .int32]) moving.registry :=
        Host.outcome_describeAll_fresh List.not_mem_nil (by decide) number _
      _ = outcome (host.describeAll [.builtin .int32] []) moving.registry := Host.outcome_describeAll_seen (by decide) _
      _ = (.ok (), moving.registry) := by rw [Host.describeAll, outcome_pure]
  calc outcome (move.describe host) {}
    _ = outcome (host.describeAll [] [.builtin .int32, .builtin .int32] >>= fun _ => pure moveDescriptor)
        moving.registry := by with_unfolding_all rfl
    _ = (.ok moveDescriptor, moving.registry) := (outcome_bind_of_ok reached).trans (outcome_pure _ _)

theorem move_registered : schema.afterAll [.register move] = moving := by
  change ((Schema.register move).run schema).2 = moving
  rw [schema.run_register_of_ok move_described]
  rfl

/-! ## Where the order matters -/

/-- A field with two arguments, each of one letter and one digit. -/
def head (name : String) (first second : String × Value) : FieldHead :=
  ⟨⟨1, 3⟩, none, name, [⟨⟨⟨1, 8⟩, first.1⟩, ⟨⟨1, 11⟩, first.2⟩⟩, ⟨⟨⟨1, 14⟩, second.1⟩, ⟨⟨1, 17⟩, second.2⟩⟩], []⟩

def field (operation : OperationDescriptor) (arguments : List (String × Value)) : FieldPlan :=
  { responseKey := operation.name, aliased := false, name := operation.name, location := ⟨1, 3⟩, condition := none
    directives := [], arguments, target := .operation operation, type := int, complexity := 1, selection := [] }

def plan (operation : OperationDescriptor) (arguments : List (String × Value)) : Plan :=
  { kind := .query, name := none, variableDefinitions := [], selection := [field operation arguments] }

/-- Two requests call an operation with the same arguments in another order. Both are accepted, and the resolver is
called with different values. -/
structure Distinguishes (s : Schema) (operation : OperationDescriptor) (text text' : String)
    (arguments arguments' : List (String × Value)) : Prop where
  found : s.operations.find? operation.kind operation.name = some operation
  perm : arguments.Perm arguments'
  accepted : s.answer (.prepare text none) = .prepared (.ok (plan operation arguments))
  accepted' : s.answer (.prepare text' none) = .prepared (.ok (plan operation arguments'))
  differ : ∃ values values', (outcome (operation.parseArguments context arguments) s.registry).1 = .ok values ∧
    (outcome (operation.parseArguments context arguments') s.registry).1 = .ok values' ∧ values ≠ values'

/-- A request is accepted if its only field is. -/
theorem prepared {s : Schema} {operation : OperationDescriptor} {text : String} {first second : String × Value}
    (fresh : ∀ cache, s.cache = some cache → cache.plans = [])
    (parsed : Document.parse text = .ok
      { operations := .anonymous ⟨.start, .query, [], [.field (head operation.name first second) []]⟩, fragments := [] })
    (selected : ∀ select, outcome
      ((Compiler.mk s.options [] []).field (.root .query) none [] (head operation.name first second) false select)
        s.registry = (.ok (field operation [first, second]), s.registry)) :
    s.answer (.prepare text none) = .prepared (.ok (plan operation [first, second])) := by
  have collected : outcome ((Compiler.mk s.options [] []).collect [] (.root .query) none []
      [.field (head operation.name first second) []]) s.registry =
        (.ok (plan operation [first, second]).selection, s.registry) := by
    rw [Compiler.collect, Compiler.collect]
    exact outcome_bind_of_ok (selected _)
  have compiled : outcome (compile s.options text none) s.registry =
      (.ok (plan operation [first, second]), s.registry) := by
    unfold compile
    rw [parsed]
    exact outcome_bind_eq_ok.2 ⟨_, _, rfl, outcome_bind_eq_ok.2 ⟨_, _, collected, rfl⟩⟩
  rw [Schema.answer_prepare fun cache same => by rw [fresh cache same]; rfl]
  exact congrArg (SchemaAnswer.prepared ·.1) compiled

/-- Of two arguments of one name, a parameter of that name is given the first. -/
theorem move_distinguishes : Distinguishes (schema.afterAll [.register move]) moveDescriptor "\x7b move(x: 1, x: 2) \x7d"
    "\x7b move(x: 2, x: 1) \x7d" [("x", one), ("x", two)] [("x", two), ("x", one)] := by
  rw [move_registered]
  have fresh (cache : PlanCache) (same : moving.cache = some cache) : cache.plans = [] := by
    cases same
    rfl
  refine ⟨rfl, .swap _ _ _, ?_, ?_, [.int 1], [.int 2], ?_, ?_, fun same => by cases same⟩
  · exact prepared fresh (by with_unfolding_all rfl) fun _ => by with_unfolding_all rfl
  · exact prepared fresh (by with_unfolding_all rfl) fun _ => by with_unfolding_all rfl
  all_goals
    delta OperationDescriptor.parseArguments
    rw [InputContext.parse.eq_unfold]
    with_unfolding_all rfl

/-- An input object takes the last. -/
theorem plot_distinguishes : Distinguishes (schema.afterAll [.register plot]) descriptor "\x7b plot(x: 1, x: 2) \x7d"
    "\x7b plot(x: 2, x: 1) \x7d" [("x", one), ("x", two)] [("x", two), ("x", one)] := by
  rw [plot_registered]
  have fresh (cache : PlanCache) (same : registered.cache = some cache) : cache.plans = [] := by
    cases same
    rfl
  refine ⟨rfl, .swap _ _ _, ?_, ?_, [.host (inputObject 0 [("x", .int 2), ("y", .null)])],
    [.host (inputObject 0 [("x", .int 1), ("y", .null)])], ?_, ?_, fun same => by cases same⟩
  · exact prepared fresh (by with_unfolding_all rfl) fun _ => by with_unfolding_all rfl
  · exact prepared fresh (by with_unfolding_all rfl) fun _ => by with_unfolding_all rfl
  all_goals
    delta OperationDescriptor.parseArguments
    rw [InputContext.parse.eq_unfold, InputContext.parse.eq_unfold]
    with_unfolding_all rfl

/-- A custom scalar that has taken over an input object sees the order of its entries. -/
theorem dot_distinguishes : Distinguishes (schema.afterAll [.register plot, .registerScalar dot]) descriptor
    "\x7b plot(x: 1, y: 2) \x7d" "\x7b plot(y: 2, x: 1) \x7d" [("x", one), ("y", two)] [("y", two), ("x", one)] := by
  rw [dot_registered]
  have fresh (cache : PlanCache) (same : registered.cache.map (·.clear) = some cache) : cache.plans = [] := by
    cases same
    rfl
  refine ⟨rfl, .swap _ _ _, ?_, ?_, [.host (.mk 0 (.leaf (.object [("x", .int 1), ("y", .int 2)])) [] [])],
    [.host (.mk 0 (.leaf (.object [("y", .int 2), ("x", .int 1)])) [] [])], ?_, ?_, by simp⟩
  · exact prepared fresh (by with_unfolding_all rfl) fun _ => by with_unfolding_all rfl
  · exact prepared fresh (by with_unfolding_all rfl) fun _ => by with_unfolding_all rfl
  all_goals
    delta OperationDescriptor.parseArguments
    rw [InputContext.parse.eq_unfold]
    with_unfolding_all rfl

/-- In named mode and in struct mode the order of arguments of one name matters, and in struct mode, once a custom
scalar has taken over the type of the parameter, that of all arguments. -/
theorem order_matters :
    Distinguishes (schema.afterAll [.register move]) moveDescriptor "\x7b move(x: 1, x: 2) \x7d"
        "\x7b move(x: 2, x: 1) \x7d" [("x", one), ("x", two)] [("x", two), ("x", one)] ∧
      Distinguishes (schema.afterAll [.register plot]) descriptor "\x7b plot(x: 1, x: 2) \x7d"
        "\x7b plot(x: 2, x: 1) \x7d" [("x", one), ("x", two)] [("x", two), ("x", one)] ∧
      Distinguishes (schema.afterAll [.register plot, .registerScalar dot]) descriptor
        "\x7b plot(x: 1, y: 2) \x7d" "\x7b plot(y: 2, x: 1) \x7d" [("x", one), ("y", two)] [("y", two), ("x", one)] :=
  ⟨move_distinguishes, plot_distinguishes, dot_distinguishes⟩

end PlotQuery

end GraphQL
