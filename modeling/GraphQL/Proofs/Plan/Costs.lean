import GraphQL.Execution
import GraphQL.Proofs.Plan.Inlining
import Mathlib.Data.List.Induction

/-!
# What plans cost

The complexity of a plan is added and multiplied up in words that stop at the greatest one, node by node. With the
default scorer it is what unbounded numbers come to, cut off once at the end: `compile_costs`. `Compiler.Costs` says
what written selections cost, each fragment where it is spread; `FieldPlan.costs` is the same number of the fields that
they are compiled to.
-/

namespace GraphQL

/-! ## Totals -/

/-- The sum of the complexities of some fields, without an end to it. -/
def sumComplexity (fields : List FieldPlan) : Nat := fields.foldr (fun field total => field.complexity + total) 0

theorem sumComplexity_append (fields more : List FieldPlan) :
    sumComplexity (fields ++ more) = sumComplexity fields + sumComplexity more := by
  induction fields with
  | nil => exact (Nat.zero_add _).symm
  | cons field rest ih =>
    simp only [sumComplexity, List.cons_append, List.foldr_cons, Nat.add_assoc] at ih ⊢
    rw [ih]

theorem totalComplexity_concat (fields : List FieldPlan) (field : FieldPlan) :
    totalComplexity (fields ++ [field]) = saturatingAdd (totalComplexity fields) field.complexity := by
  rw [totalComplexity, List.foldl_append]
  rfl

/-- A total is the sum, up to the greatest word. -/
theorem totalComplexity_eq_min (fields : List FieldPlan) :
    totalComplexity fields = min maxWord (sumComplexity fields) := by
  induction fields using List.reverseRecOn with
  | nil => exact (Nat.min_zero _).symm
  | append_singleton fields field ih =>
    have last : sumComplexity [field] = field.complexity := by simp [sumComplexity]
    rw [totalComplexity_concat, ih, sumComplexity_append, last, saturatingAdd]
    omega

theorem totalComplexity_cons (field : FieldPlan) (rest : List FieldPlan) :
    totalComplexity (field :: rest) = saturatingAdd field.complexity (totalComplexity rest) := by
  have more : sumComplexity (field :: rest) = field.complexity + sumComplexity rest := rfl
  simp only [totalComplexity_eq_min, more, saturatingAdd]
  omega

theorem totalComplexity_append (fields more : List FieldPlan) :
    totalComplexity (fields ++ more) = saturatingAdd (totalComplexity fields) (totalComplexity more) := by
  simp only [totalComplexity_eq_min, sumComplexity_append, saturatingAdd]
  omega

/-- Where both parts are cut off first, the sum is cut off all the same. -/
theorem saturatingAdd_min (a b : Nat) : saturatingAdd (min maxWord a) (min maxWord b) = min maxWord (a + b) := by
  unfold saturatingAdd
  omega

/-- A product whose first factor is cut off before: no times that factor is nothing either way, and once or more often
it does not come back below the greatest word. -/
theorem saturatingMul_min (a b : Nat) : saturatingMul (min maxWord a) b = min maxWord (a * b) := by
  unfold saturatingMul
  rcases Nat.le_total a maxWord with within | beyond
  · rw [Nat.min_eq_right within]
  · rw [Nat.min_eq_left beyond]
    cases b with
    | zero => rfl
    | succ b =>
      have more : maxWord ≤ maxWord * (b + 1) := Nat.le_mul_of_pos_right _ (Nat.succ_pos b)
      have most : maxWord * (b + 1) ≤ a * (b + 1) := Nat.mul_le_mul_right _ beyond
      omega

/-! ## Costs -/

/-- How often a value of a type is expected to occur. -/
def TypeRef.multiplicity (type : TypeRef) (estimate : Nat) : Nat := if type.isList then estimate else 1

/-- What fields cost with all below them, in numbers without an end: `__typename` nothing, and any other field one more
than its selection, for each item of a list. -/
def FieldPlan.costs (estimate : Nat) : List FieldPlan → Nat
  | [] => 0
  | field :: rest =>
    (match field.target with
      | .typename => 0
      | _ => (1 + costs estimate field.selection) * field.type.multiplicity estimate) + costs estimate rest
termination_by fields => sizeOf fields
decreasing_by
  · have := field.sizeOf_selection_lt
    simp only [List.cons.sizeOf_spec]
    omega
  · simp only [List.cons.sizeOf_spec]
    omega

theorem FieldPlan.costs_append (estimate : Nat) (fields more : List FieldPlan) :
    costs estimate (fields ++ more) = costs estimate fields + costs estimate more := by
  induction fields with
  | nil => rw [List.nil_append, costs, Nat.zero_add]
  | cons field rest ih => rw [List.cons_append, costs, costs, ih, Nat.add_assoc]

/-- What a plan costs. -/
def Plan.cost (plan : Plan) (estimate : Nat) : Nat := FieldPlan.costs estimate plan.selection

/-- The parent below a type condition, in a registry with all types described. -/
inductive ParentType.Narrows (R : Registry) (parent : ParentType) : Option (Located String) → ParentType → Prop
  | plain : Narrows R parent none parent
  | same {on : Located String} (named : on.value = parent.name) : Narrows R parent (some on) parent
  | narrowed {on : Located String} {type : NamedType} {d : TypeDescriptor} (candidate : type ∈ parent.candidates)
    (known : R.find? type = some d) (named : d.name = on.value) : Narrows R parent (some on) (.described d)

namespace Compiler

/-- What selections cost as they are written, given the types that a registry describes. -/
inductive Costs (c : Compiler) (R : Registry) : ParentType → List Selection → Nat → Prop
  | nil {parent : ParentType} : Costs c R parent [] 0
  | typename {parent : ParentType} {head : FieldHead} {selection rest : List Selection} {n : Nat}
    (named : head.name = "__typename") (after : Costs c R parent rest n) :
    Costs c R parent (.field head selection :: rest) (0 + n)
  | field {parent : ParentType} {head : FieldHead} {selection rest : List Selection} {target : FieldTarget}
    {type : TypeRef} {d : TypeDescriptor} {below n : Nat} (named : head.name ≠ "__typename")
    (typed : c.target parent head = .ok (target, type)) (known : R.find? type.namedType = some d)
    (inner : Costs c R (.described d) selection below) (after : Costs c R parent rest n) :
    Costs c R parent (.field head selection :: rest)
      ((1 + below) * type.multiplicity c.options.listSizeEstimate + n)
  | spread {parent narrowed : ParentType} {location : Location} {name : String} {own : List Directive}
    {fragment : FragmentDefinition} {rest : List Selection} {first n : Nat}
    (found : Entries.find? name c.fragments = some fragment)
    (narrows : parent.Narrows R (some fragment.condition) narrowed) (inner : Costs c R narrowed fragment.selection first)
    (after : Costs c R parent rest n) : Costs c R parent (.spread location name own :: rest) (first + n)
  | inline {parent narrowed : ParentType} {on : Option (Located String)} {own : List Directive}
    {selection rest : List Selection} {first n : Nat} (narrows : parent.Narrows R on narrowed)
    (inner : Costs c R narrowed selection first) (after : Costs c R parent rest n) :
    Costs c R parent (.inline on own selection :: rest) (first + n)

variable {c : Compiler} {parent : ParentType} {condition : Option NamedType} {r r' R : Registry}

theorem Enters.narrows {on : Option (Located String)} {narrowed : ParentType} {concrete : Option NamedType}
    (enters : c.Enters parent condition r on narrowed concrete r') (later : c.options.host.Later r' R) :
    parent.Narrows R on narrowed := by
  cases enters with
  | plain => exact .plain
  | same named => exact .same named
  | narrowed candidate _ known named => exact .narrowed candidate (later.find? known) named

theorem Prepares.known {head : FieldHead} {own : List Condition} {target : FieldTarget} {type : TypeRef}
    {d : TypeDescriptor} (prepared : c.Prepares parent head r own target type d r')
    (later : c.options.host.Later r' R) : R.find? type.namedType = some d :=
  later.find? (Host.describe_caches prepared.described)

/-- Only the name of a type reads no data. -/
theorem target_typename {head : FieldHead} {target : FieldTarget} {type : TypeRef}
    (compiled : c.target parent head = .ok (target, type)) : target = .typename ↔ head.name = "__typename" := by
  unfold Compiler.target at compiled
  simp only at compiled
  split at compiled
  · next named =>
    split at compiled
    · cases compiled
    · cases compiled
      exact iff_of_true rfl named
  · next unnamed =>
    have reads : target ≠ .typename := by
      rintro rfl
      repeat' split at compiled
      all_goals cases compiled
    exact iff_of_false reads unnamed

/-- What a compiled field costs by its name and type, with the fields after it. -/
theorem costs_assemble {head : FieldHead} {target : FieldTarget} {type : TypeRef} {below others : List FieldPlan}
    {directives : List Condition} (estimate : Nat) (compiled : c.target parent head = .ok (target, type)) :
    FieldPlan.costs estimate (c.assemble parent condition directives head target type below :: others) =
      (if head.name = "__typename" then 0 else (1 + FieldPlan.costs estimate below) * type.multiplicity estimate) +
        FieldPlan.costs estimate others := by
  have reads := target_typename compiled
  rw [FieldPlan.costs]
  simp only [assemble]
  cases target with
  | typename => rw [if_pos (reads.1 rfl)]
  | _ => rw [if_neg fun named => by cases reads.2 named]

/-- The default scorer cuts the cost of a field off once more, after that of its selection. -/
theorem score_default (scorer : c.options.scorer = .default) {head : FieldHead} {target : FieldTarget} {type : TypeRef}
    {below : List FieldPlan} (compiled : c.target parent head = .ok (target, type))
    (total : totalComplexity below = min maxWord (FieldPlan.costs c.options.listSizeEstimate below)) :
    c.score parent head.name target type below =
      min maxWord (if head.name = "__typename" then 0
        else (1 + FieldPlan.costs c.options.listSizeEstimate below) * type.multiplicity c.options.listSizeEstimate) := by
  have reads := target_typename compiled
  have item : saturatingAdd 1 (totalComplexity below) =
      min maxWord (1 + FieldPlan.costs c.options.listSizeEstimate below) := by
    rw [total, ← saturatingAdd_min]
    rfl
  have scored : (if type.isList then saturatingMul (saturatingAdd 1 (totalComplexity below)) c.options.listSizeEstimate
      else saturatingAdd 1 (totalComplexity below)) = min maxWord
        ((1 + FieldPlan.costs c.options.listSizeEstimate below) * type.multiplicity c.options.listSizeEstimate) := by
    rw [item, saturatingMul_min, TypeRef.multiplicity]
    split
    · rfl
    · rw [Nat.mul_one]
  unfold score
  rw [scorer]
  by_cases named : head.name = "__typename"
  · rw [if_pos named, reads.2 named, Nat.min_zero]
  · rw [if_neg named, ← scored]
    cases target with
    | typename => exact absurd (reads.1 rfl) named
    | _ => rfl

/-- A field is compiled to one of the same cost. -/
theorem Costs.compiled {head : FieldHead} {selection rest : List Selection} {target : FieldTarget} {type : TypeRef}
    {d : TypeDescriptor} {below others : List FieldPlan} {directives : List Condition}
    (typed : c.target parent head = .ok (target, type)) (known : R.find? type.namedType = some d)
    (inner : c.Costs R (.described d) selection (FieldPlan.costs c.options.listSizeEstimate below))
    (after : c.Costs R parent rest (FieldPlan.costs c.options.listSizeEstimate others)) :
    c.Costs R parent (.field head selection :: rest) (FieldPlan.costs c.options.listSizeEstimate
      (c.assemble parent condition directives head target type below :: others)) := by
  rw [costs_assemble _ typed]
  split
  · next named => exact .typename named after
  · next unnamed => exact .field unnamed typed known inner after

/-- The fields that selections are compiled to cost what the selections do, in any registry from then on. -/
theorem Collects.costs {stack : List String} {directives : List Condition} {selections : List Selection}
    {fields : List FieldPlan} (collects : c.Collects stack parent condition directives selections r fields r')
    (later : c.options.host.Later r' R) :
    c.Costs R parent selections (FieldPlan.costs c.options.listSizeEstimate fields) := by
  induction collects with
  | nil =>
    rw [FieldPlan.costs]
    exact .nil
  | leaf prepared _ others ih =>
    refine .compiled prepared.target (prepared.known (others.later.trans later)) ?_ (ih later)
    rw [FieldPlan.costs]
    exact .nil
  | nested prepared _ _ inner _ others below ih =>
    have after := others.later.trans later
    exact .compiled prepared.target (prepared.known (inner.later.trans after)) (below after) (ih later)
  | spread found _ _ enters inner others first ih =>
    have after := others.later.trans later
    rw [FieldPlan.costs_append]
    exact .spread found (enters.narrows (inner.later.trans after)) (first after) (ih later)
  | inline _ enters inner others first ih =>
    have after := others.later.trans later
    rw [FieldPlan.costs_append]
    exact .inline (enters.narrows (inner.later.trans after)) (first after) (ih later)

/-- Cutting off at every field and in every sum comes to cutting off once. -/
theorem Collects.total (scorer : c.options.scorer = .default) {stack : List String}
    {directives : List Condition} {selections : List Selection} {fields : List FieldPlan}
    (collects : c.Collects stack parent condition directives selections r fields r') :
    totalComplexity fields = min maxWord (FieldPlan.costs c.options.listSizeEstimate fields) := by
  have nothing : totalComplexity [] = min maxWord (FieldPlan.costs c.options.listSizeEstimate []) := by
    rw [FieldPlan.costs]
    rfl
  have compiled {parent : ParentType} {condition : Option NamedType} {directives : List Condition} {head : FieldHead}
      {target : FieldTarget} {type : TypeRef} {below others : List FieldPlan}
      (typed : c.target parent head = .ok (target, type))
      (inner : totalComplexity below = min maxWord (FieldPlan.costs c.options.listSizeEstimate below))
      (after : totalComplexity others = min maxWord (FieldPlan.costs c.options.listSizeEstimate others)) :
      totalComplexity (c.assemble parent condition directives head target type below :: others) =
        min maxWord (FieldPlan.costs c.options.listSizeEstimate
          (c.assemble parent condition directives head target type below :: others)) := by
    rw [totalComplexity_cons, after, costs_assemble _ typed, ← saturatingAdd_min]
    exact congrArg (saturatingAdd · _) (score_default scorer typed inner)
  induction collects with
  | nil => exact nothing
  | leaf prepared _ _ ih => exact compiled prepared.target nothing ih
  | nested prepared _ _ _ _ _ below ih => exact compiled prepared.target below ih
  | spread _ _ _ _ _ _ first ih | inline _ _ _ _ first ih =>
    rw [totalComplexity_append, first, ih, saturatingAdd_min, FieldPlan.costs_append]

end Compiler

/-- With the default scorer, a plan has the complexity that its operation costs with all fragments in place, or the
greatest word where that is less. -/
theorem compile_costs {options : CompileOptions} {query : String} {operationName : Option String} {r r' : Registry}
    {plan : Plan} (scorer : options.scorer = .default)
    (compiled : outcome (compile options query operationName) r = (.ok plan, r')) :
    (∃ document name operation, Document.parse query = .ok document ∧
      document.operations.select operationName = .ok (name, operation) ∧
      Compiler.Costs ⟨options, document.fragments, operation.variableDefinitions.map (·.name)⟩ r' (.root operation.kind)
        operation.selection (plan.cost options.listSizeEstimate)) ∧
    plan.complexity = min maxWord (plan.cost options.listSizeEstimate) := by
  obtain ⟨document, parsed, ran⟩ := compile_eq_ok compiled
  obtain ⟨name, operation, selected, _, _, collects, _, _⟩ := compileDocument_eq_ok ran
  exact ⟨⟨document, name, operation, parsed, selected, collects.costs (.refl _ _)⟩, collects.total scorer⟩

/-! ## Friends

Users have friends, and lists are taken to be very long: the friends of all users are more than a word counts. -/

namespace FriendsQuery

def user : HostType :=
  { hostName := "User", description := { fields := [⟨"friends", .field, .list (.named (.host 0) true) true, .slice, {}⟩] } }

def host : Host := { builtinName := BuiltinType.scalarName, types := [user] }

def operation : OperationDescriptor :=
  { kind := .query, name := "users", info := {}, output := .list (.named (.host 0) true) true, mode := .positional
    binding := .arguments [], resolver := .field fun _ => .ok (.done (.ok (.list []))) }

/-- A list is estimated at 2 ^ 33 items. -/
def options : CompileOptions :=
  { host, operations := { query := [("users", operation)] }, scorer := .default, listSizeEstimate := 8589934592 }

def text : String :=
  "\x7b users \x7b ...Circle \x7d \x7d fragment Circle on User \x7b friends \x7b __typename \x7d \x7d"

def typename : Selection := .field ⟨⟨1, 61⟩, none, "__typename", [], []⟩ []

def circle : FragmentDefinition :=
  ⟨⟨1, 25⟩, "Circle", ⟨⟨1, 44⟩, "User"⟩, [.field ⟨⟨1, 51⟩, none, "friends", [], []⟩ [typename]]⟩

def selection : List Selection := [.field ⟨⟨1, 3⟩, none, "users", [], []⟩ [.spread ⟨1, 11⟩ "Circle" []]]

def registry : Registry := (outcome (host.describe (.builtin .string)) (outcome (host.describe (.host 0)) {}).2).2

def userType : TypeDescriptor :=
  { type := .host 0, name := "User", description := none
    kind := .object ⟨[], [⟨"friends", .field, .list (.named (.host 0) true) true, .slice, {}, 0, "User", []⟩]⟩ }

def typenameField : FieldPlan :=
  { responseKey := "__typename", aliased := false, name := "__typename", location := ⟨1, 61⟩, condition := none
    directives := [], arguments := [], target := .typename, type := .named (.builtin .string) false, complexity := 0
    selection := [] }

def friendsField : FieldPlan :=
  { responseKey := "friends", aliased := false, name := "friends", location := ⟨1, 51⟩, condition := none
    directives := [], arguments := [], target := .objectField userType 0, type := .list (.named (.host 0) true) true
    complexity := 8589934592, selection := [typenameField] }

def usersField : FieldPlan :=
  { responseKey := "users", aliased := false, name := "users", location := ⟨1, 3⟩, condition := none
    directives := [], arguments := [], target := .operation operation, type := .list (.named (.host 0) true) true
    complexity := maxWord, selection := [friendsField] }

def plan : Plan := { kind := .query, name := none, variableDefinitions := [], selection := [usersField] }

def compiler : Compiler := ⟨options, [("Circle", circle)], []⟩

theorem text_compiled : outcome (compile options text none) {} = (.ok plan, registry) := by
  have parsed : Document.parse text = .ok
      { operations := .anonymous ⟨.start, .query, [], selection⟩, fragments := [("Circle", circle)] } := by
    with_unfolding_all rfl
  have found : Entries.find? "Circle" compiler.fragments = some circle := rfl
  have collected : outcome (compiler.collect [] (.root .query) none [] selection) {} = (.ok [usersField], registry) := by
    rw [selection, Compiler.collect]
    simp only [Compiler.collect_spread found List.not_mem_nil, circle, typename, Compiler.collect]
    with_unfolding_all rfl
  unfold compile
  rw [parsed]
  exact outcome_bind_eq_ok.2 ⟨_, _, rfl, outcome_bind_eq_ok.2 ⟨_, _, collected, rfl⟩⟩

/-- The circle of all users costs more than the greatest word, which is the complexity of the plan. -/
theorem friends_cost : options.scorer = .default ∧ outcome (compile options text none) {} = (.ok plan, registry) ∧
    (∃ document name operation, Document.parse text = .ok document ∧
      document.operations.select none = .ok (name, operation) ∧
      Compiler.Costs ⟨options, document.fragments, operation.variableDefinitions.map (·.name)⟩ registry
        (.root operation.kind) operation.selection (8589934592 + 8589934592 * 8589934592)) ∧
    plan.complexity = maxWord := by
  have cost : plan.cost options.listSizeEstimate = 8589934592 + 8589934592 * 8589934592 := by
    simp only [Plan.cost, plan, usersField, friendsField, typenameField, FieldPlan.costs]
    decide
  have costs := @compile_costs options _ _ _ _ _ rfl text_compiled
  rw [cost] at costs
  exact ⟨rfl, text_compiled, costs.1, costs.2.trans (by decide)⟩

end FriendsQuery

end GraphQL
