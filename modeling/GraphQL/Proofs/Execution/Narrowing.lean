import GraphQL.Proofs.Execution.Answers
import Mathlib.Data.List.Forall2

/-!
# Fields under type conditions

Compiling narrows the parent of a selection fragment by fragment and leaves each field with one type,
that of the innermost condition around it. Executing compares this type with the concrete type of an
object. So a field under a condition is selected if and only if the condition names the concrete type.
That is what the condition asks for if it names an object; the fields under a condition that names an
interface or a union are selected for no object of another type, although it may be one of that type.
-/

namespace GraphQL

/-- The fields that are written in a selection, those of the fragments that it spreads in place, each with
the innermost type condition around it. -/
inductive Selection.Writes (fragments : Entries FragmentDefinition) :
    Option String → List Selection → List (Option String × FieldHead) → Prop
  | nil {on : Option String} : Writes fragments on [] []
  | field {on : Option String} {head : FieldHead} {selection rest : List Selection}
    {others : List (Option String × FieldHead)} (after : Writes fragments on rest others) :
    Writes fragments on (.field head selection :: rest) ((on, head) :: others)
  | spread {on : Option String} {location : Location} {name : String} {own : List Directive}
    {fragment : FragmentDefinition} {rest : List Selection} {first others : List (Option String × FieldHead)}
    (found : Entries.find? name fragments = some fragment)
    (inner : Writes fragments (some fragment.condition.value) fragment.selection first)
    (after : Writes fragments on rest others) :
    Writes fragments on (.spread location name own :: rest) (first ++ others)
  | inline {on : Option String} {type : Option (Located String)} {own : List Directive}
    {selection rest : List Selection} {first others : List (Option String × FieldHead)}
    (inner : Writes fragments ((type.map (·.value)).or on) selection first) (after : Writes fragments on rest others) :
    Writes fragments on (.inline type own selection :: rest) (first ++ others)

/-- The type that fields under a condition ask for: none as long as the condition is the name of the type
that is selected on, and else a described type of that name. -/
inductive Registry.Asks (r : Registry) (base : String) : Option String → Option NamedType → Prop
  | any {on : Option String} (own : ∀ name ∈ on, name = base) : Asks r base on none
  | only {d : TypeDescriptor} (known : r.find? d.type = some d) : Asks r base (some d.name) (some d.type)

namespace Registry.Asks

variable {r : Registry} {base : String} {on : Option String} {type : Option NamedType}

theorem later {host : Host} {r' : Registry} (asks : r.Asks base on type) (after : host.Later r r') :
    r'.Asks base on type := by
  cases asks with
  | any own => exact .any own
  | only known => exact .only (after.find? known)

/-- The name of the innermost type may be written again. -/
theorem again (asks : r.Asks base on type) : r.Asks base (some (on.getD base)) type := by
  cases asks with
  | any own =>
    refine .any fun name written => ?_
    cases on with
    | none => exact (Option.some.inj written).symm
    | some other =>
      cases written
      exact own other rfl
  | only known => exact .only known

end Registry.Asks

/-- A field of a plan is a written one and asks for the type of the condition around it. -/
structure FieldPlan.Stands (r : Registry) (base : String) (field : FieldPlan) (written : Option String × FieldHead) :
    Prop where
  name : field.name = written.2.name
  key : field.responseKey = written.2.responseKey
  asks : r.Asks base written.1 field.condition

theorem FieldPlan.Stands.later {host : Host} {r r' : Registry} {base : String} {field : FieldPlan}
    {written : Option String × FieldHead} (stands : field.Stands r base written) (after : host.Later r r') :
    field.Stands r' base written :=
  ⟨stands.name, stands.key, stands.asks.later after⟩

namespace Compiler

variable {c : Compiler} {parent narrowed : ParentType} {condition concrete : Option NamedType} {r r' : Registry}
  {base : String} {on : Option String}

/-- A fragment changes the type that is asked for together with the innermost condition. -/
theorem Enters.asks {type : Option (Located String)} (enters : c.Enters parent condition r type narrowed concrete r')
    (consistent : r.Consistent) (asks : r.Asks base on condition) (named : parent.name = on.getD base) :
    r'.Asks base ((type.map (·.value)).or on) concrete ∧
      narrowed.name = ((type.map (·.value)).or on).getD base := by
  cases enters with
  | plain => exact ⟨asks, named⟩
  | same repeated =>
    rw [Option.map_some, Option.some_or, repeated, named]
    exact ⟨asks.again, rfl⟩
  | narrowed _ later known called =>
    have own := (later.consistent consistent).find? known
    subst own
    rw [Option.map_some, Option.some_or, ← called]
    exact ⟨.only known, rfl⟩

variable {stack : List String} {directives : List Condition} {selections : List Selection} {fields : List FieldPlan}

/-- The fields compiled are those that are written, in their order, and each asks for the type of the
innermost condition around it. -/
theorem Collects.stands (collects : c.Collects stack parent condition directives selections r fields r') :
    ∀ {on : Option String}, r.Consistent → r.Asks base on condition → parent.name = on.getD base →
      ∃ written, Selection.Writes c.fragments on selections written ∧
        List.Forall₂ (FieldPlan.Stands r' base) fields written := by
  have weaken {fields : List FieldPlan} {written : List (Option String × FieldHead)} {r r' : Registry}
      (all : List.Forall₂ (FieldPlan.Stands r base) fields written) (after : c.options.host.Later r r') :
      List.Forall₂ (FieldPlan.Stands r' base) fields written := all.imp fun _ _ stands => stands.later after
  induction collects with
  | nil =>
    intro on _ _ _
    exact ⟨[], .nil, .nil⟩
  | leaf prepared _ after others =>
    intro on consistent asks named
    have grown := prepared.later
    obtain ⟨rest, writes, all⟩ := others (grown.consistent consistent) (asks.later grown) named
    exact ⟨_, .field writes, .cons ⟨rfl, rfl, asks.later (grown.trans after.later)⟩ all⟩
  | nested prepared _ _ inner _ after _ others =>
    intro on consistent asks named
    have grown := prepared.later.trans inner.later
    obtain ⟨rest, writes, all⟩ := others (grown.consistent consistent) (asks.later grown) named
    exact ⟨_, .field writes, .cons ⟨rfl, rfl, asks.later (grown.trans after.later)⟩ all⟩
  | spread found _ _ enters inner after first others =>
    intro on consistent asks named
    have grown := enters.later.trans inner.later
    obtain ⟨asks', named'⟩ := enters.asks consistent asks named
    obtain ⟨inside, writes, some⟩ := first (enters.later.consistent consistent) asks' named'
    obtain ⟨rest, writes', all⟩ := others (grown.consistent consistent) (asks.later grown) named
    exact ⟨_, .spread found writes writes', List.rel_append (weaken some after.later) all⟩
  | inline _ enters inner after first others =>
    intro on consistent asks named
    have grown := enters.later.trans inner.later
    obtain ⟨asks', named'⟩ := enters.asks consistent asks named
    obtain ⟨inside, writes, some⟩ := first (enters.later.consistent consistent) asks' named'
    obtain ⟨rest, writes', all⟩ := others (grown.consistent consistent) (asks.later grown) named
    exact ⟨_, .inline writes writes', List.rel_append (weaken some after.later) all⟩

end Compiler

namespace Registry

/-- Completing a value at a type comes to an object of a concrete type, through the members of unions. -/
inductive Reaches (r : Registry) : NamedType → HostValue → (unions : List NamedType) → TypeDescriptor → Prop
  | object {type : NamedType} {value : HostValue} {concrete : TypeDescriptor} (is : r.Concrete type value concrete) :
    Reaches r type value [] concrete
  | member {type inner : NamedType} {value part : HostValue} {d concrete : TypeDescriptor} {object : ObjectFields}
    {name : String} {nullable : Bool} {unions : List NamedType} (known : r.find? type = some d)
    (union : d.kind = .union object)
    (only : dereference d value = .ok (.member name (.named inner nullable) (.host part)))
    (rest : Reaches r inner part unions concrete) : Reaches r type value (type :: unions) concrete

/-- What an object of a concrete type is that was reached through unions. -/
inductive IsA (r : Registry) (unions : List NamedType) (concrete : NamedType) : NamedType → Prop
  | self : IsA r unions concrete concrete
  | implements {type : NamedType} {d : TypeDescriptor} {shape : InterfaceShape} {id : HostId}
    (known : r.find? type = some d) (kind : d.kind = .interface shape) (mem : id ∈ shape.implementors)
    (is : concrete = .host id) : IsA r unions concrete type
  | member {type : NamedType} (mem : type ∈ unions) : IsA r unions concrete type

variable {r : Registry} {type : NamedType} {value : HostValue} {unions : List NamedType} {concrete d : TypeDescriptor}

theorem Reaches.union (reaches : r.Reaches type value unions concrete) {other : NamedType} (mem : other ∈ unions) :
    ∃ d object, r.find? other = some d ∧ d.kind = .union object := by
  induction reaches with
  | object => cases mem
  | member known union _ _ ih =>
    rcases List.mem_cons.1 mem with rfl | mem
    · exact ⟨_, _, known, union⟩
    · exact ih mem

/-- An object is of no other object type. -/
theorem Reaches.isA_iff (reaches : r.Reaches type value unions concrete) {other : NamedType} {object : ObjectFields}
    (known : r.find? other = some d) (kind : d.kind = .object object) :
    r.IsA unions concrete.type other ↔ other = concrete.type := by
  constructor
  · rintro (_ | ⟨known', kind', -, -⟩ | mem)
    · rfl
    · rw [known] at known'
      cases known'
      rw [kind] at kind'
      cases kind'
    · obtain ⟨d', object', known', kind'⟩ := reaches.union mem
      rw [known] at known'
      cases known'
      rw [kind] at kind'
      cases kind'
  · rintro rfl
    exact .self

end Registry

/-- A selection on a union or interface is compiled to the fields written in it. Of these, an object has a
field under a type condition, if the directives keep it, if and only if the innermost condition around it
names the concrete type. Where that is an object type, the object has the field if and only if it is one. -/
theorem Execution.fields_narrowed {c : Compiler} {stack : List String} {base : TypeDescriptor}
    {selection : List Selection} {fields : List FieldPlan} {r r' : Registry} (reachable : c.options.host.Reachable r)
    (compiled : outcome (c.collect stack (.described base) none [] selection) r = (.ok fields, r')) :
    ∃ written, Selection.Writes c.fragments none selection written ∧
      List.Forall₂ (FieldPlan.Stands r' base.name) fields written ∧
      ∀ (x : Execution) (later : Registry) (type : NamedType) (value : HostValue) (unions : List NamedType)
        (concrete : TypeDescriptor) (kept : List FieldPlan), c.options.host.Later r' later →
        later.Reaches type value unions concrete → x.collect fields (some concrete.type) = .ok kept →
        ∀ (field : FieldPlan) (head : FieldHead) (on : String), (field, some on, head) ∈ fields.zip written →
          on ≠ base.name → x.isIncluded field = .ok true →
          ∃ d, later.find? d.type = some d ∧ d.name = on ∧ (field ∈ kept ↔ d.type = concrete.type) ∧
            ∀ object, d.kind = .object object → (field ∈ kept ↔ later.IsA unions concrete.type d.type) := by
  have collects := Compiler.collects_of_collect stack _ none [] selection compiled
  have asks : r.Asks base.name none none := .any fun _ none => by cases none
  obtain ⟨written, writes, all⟩ := collects.stands reachable.consistent asks rfl
  refine ⟨written, writes, all, ?_⟩
  intro x later type value unions concrete kept after reaches ran field head on pair other included
  have stands : field.Stands later base.name (some on, head) := (List.forall₂_zip all pair).later after
  obtain ⟨-, -, asks⟩ := stands
  cases asked : field.condition with
  | none =>
    rw [asked] at asks
    cases asks with
    | any own => exact absurd (own on rfl) other
  | some _ =>
    rw [asked] at asks
    cases asks with
    | @only d known =>
      have mem : field ∈ fields := (List.of_mem_zip pair).1
      have selects : field ∈ kept ↔ d.type = concrete.type := by
        rw [collect_eq_ok ran, selected, List.mem_filter, Bool.and_eq_true, keeps, included, appliesTo, asked]
        simp [mem]
      refine ⟨d, known, rfl, selects, ?_⟩
      intro object kind
      exact selects.trans (reaches.isA_iff known kind).symm

/-! ## Shapes

A shape is a union whose member is a node, an interface that accounts implement. The query asks a shape
for the identifier of a node. -/

namespace ShapeQuery

def shape : HostType :=
  { hostName := "Shape"
    description := { isUnion := true, fields := [⟨"node", .field, .named (.host 1) true, .pointer, {}⟩] } }

def node : HostType :=
  { hostName := "Node"
    description := { interfaceFields := [⟨"id", .named (.builtin .string) true, {}⟩], implementors := [2] } }

def account : HostType :=
  { hostName := "Account"
    description := { fields := [⟨"id", .field, .named (.builtin .string) true, .value, {}⟩] } }

def host : Host := { builtinName := BuiltinType.scalarName, types := [shape, node, account] }

def accountValue : HostValue := .mk 2 .none [("id", .ok (.const (.string "7")))] []

/-- The shape that the resolver of the operation returns. -/
def value : HostValue := .mk 0 .none [("node", .ok (.host accountValue))] []

def operation : OperationDescriptor :=
  { kind := .query, name := "shape", info := {}, output := .named (.host 0) true, mode := .positional
    binding := .arguments [], resolver := .field fun _ => .ok (.done (.ok (.host value))) }

def options : CompileOptions :=
  { host, operations := { query := [("shape", operation)] }, scorer := .default, listSizeEstimate := 10 }

/-- The types of the host, described one after the other. -/
def describeAll : RegistryM TypeDescriptor := do
  let _ ← host.describe (.host 0)
  let _ ← host.describe (.host 1)
  let _ ← host.describe (.host 2)
  host.describe (.builtin .string)

def types : Registry := (outcome describeAll {}).2

def shapeDescriptor : TypeDescriptor :=
  ⟨.host 0, "Shape", none, .union ⟨[], [⟨"node", .field, .named (.host 1) true, .pointer, {}, 0, "Shape", []⟩]⟩⟩

def nodeDescriptor : TypeDescriptor :=
  ⟨.host 1, "Node", none, .interface ⟨[⟨"id", .named (.builtin .string) true, {}⟩], [2]⟩⟩

def accountDescriptor : TypeDescriptor :=
  ⟨.host 2, "Account", none,
    .object ⟨[], [⟨"id", .field, .named (.builtin .string) true, .value, {}, 2, "Account", []⟩]⟩⟩

theorem types_reachable : host.Reachable types := by
  have next (type : NamedType) : host.Settles (host.describe type) := Host.describe_settles type
  have all : host.Settles describeAll :=
    (next (.host 0)).bind fun _ => (next (.host 1)).bind fun _ => (next (.host 2)).bind fun _ => next (.builtin .string)
  exact .described .empty (all {}).grows

theorem find_shape : types.find? (.host 0) = some shapeDescriptor := by with_unfolding_all rfl

theorem find_node : types.find? (.host 1) = some nodeDescriptor := by with_unfolding_all rfl

theorem find_account : types.find? (.host 2) = some accountDescriptor := by with_unfolding_all rfl

/-- The shape comes to an account, which is a node. -/
theorem value_reaches : types.Reaches (.host 0) value [.host 0] accountDescriptor :=
  .member find_shape rfl rfl (.object (.interface find_node rfl List.mem_cons_self find_account))

theorem account_isNode : types.IsA [.host 0] accountDescriptor.type (.host 1) :=
  .implements find_node rfl List.mem_cons_self rfl

def idHead : FieldHead := ⟨.start, none, "id", [], []⟩

/-- A selection of the identifier under type conditions, from the outermost on. -/
def under : List String → Selection
  | [] => .field idHead []
  | on :: rest => .inline (some ⟨.start, on⟩) [] [under rest]

def idField (condition : NamedType) (target : FieldTarget) : FieldPlan :=
  { responseKey := "id", aliased := false, name := "id", location := .start, condition := some condition
    directives := [], arguments := [], target, type := .named (.builtin .string) true, complexity := 1
    selection := [] }

/-- The identifier of a node, and that of an account. -/
def nodeId : FieldPlan := idField (.host 1) .interfaceField

def accountId : FieldPlan := idField (.host 2) (.objectField accountDescriptor 0)

def shapeField : FieldPlan :=
  { responseKey := "shape", aliased := false, name := "shape", location := .start, condition := none
    directives := [], arguments := [], target := .operation operation, type := .named (.host 0) true
    complexity := 2, selection := [nodeId] }

/-- The query asks for the identifier of a node. -/
def execution : Execution :=
  { host, limits := {}, variableValues := []
    plan := { kind := .query, name := none, variableDefinitions := [], selection := [shapeField] } }

def state : ExecutionState := { registry := types, slots := { limit := 0 }, cancelled := false }

/-- An account has the identifier that is selected under the name of its type. -/
theorem account_narrowed : host.Reachable types ∧
    outcome ((Compiler.mk options [] []).collect [] (.described shapeDescriptor) none [] [under ["Node", "Account"]])
      types = (.ok [accountId], types) ∧
    types.Reaches (.host 0) value [.host 0] accountDescriptor ∧
    execution.collect [accountId] (some (.host 2)) = .ok [accountId] ∧
    ∃ d, types.find? d.type = some d ∧ d.name = "Account" ∧ (accountId ∈ [accountId] ↔ d.type = .host 2) ∧
      ∀ object, d.kind = .object object → (accountId ∈ [accountId] ↔ types.IsA [.host 0] (.host 2) d.type) := by
  have compiled : outcome ((Compiler.mk options [] []).collect [] (.described shapeDescriptor) none []
      [under ["Node", "Account"]]) types = (.ok [accountId], types) := by
    simp only [Compiler.collect, under]
    with_unfolding_all rfl
  have collected : execution.collect [accountId] (some (.host 2)) = .ok [accountId] := by with_unfolding_all rfl
  have included : execution.isIncluded accountId = .ok true := rfl
  obtain ⟨written, writes, stands, each⟩ := Execution.fields_narrowed types_reachable compiled
  have all : written = [(some "Account", idHead)] := by
    simp only [under] at writes
    cases writes with
    | inline inner after =>
      cases after
      cases inner with
      | inline inner after =>
        cases after
        cases inner with
        | field after =>
          cases after
          rfl
  subst all
  have pair : (accountId, some "Account", idHead) ∈ [accountId].zip [(some "Account", idHead)] := List.mem_cons_self
  exact ⟨types_reachable, compiled, value_reaches, collected,
    each execution types (.host 0) value [.host 0] accountDescriptor [accountId] (.refl _ _) value_reaches collected
      accountId idHead "Account" pair (by decide) included⟩

/-- Whether a response has an object without fields for the shape, and no errors. -/
def isBare : Except Breakdown Response → Bool
  | .ok ⟨.object [("shape", .object [])], []⟩ => true
  | _ => false

/-- The identifier of a node is not selected for an account, although the account is a node. -/
theorem node_vanishes :
    outcome ((Compiler.mk options [] []).collect [] (.root .query) none []
      [.field ⟨.start, none, "shape", [], []⟩ [under ["Node"]]]) types = (.ok [shapeField], types) ∧
    host.Reachable state.registry ∧ types.Reaches (.host 0) value [.host 0] accountDescriptor ∧
    types.IsA [.host 0] accountDescriptor.type (.host 1) ∧
    (execution.execute state).1 = .ok ⟨.object [("shape", .object [])], []⟩ := by
  refine ⟨?_, types_reachable, value_reaches, account_isNode, ?_⟩
  · simp only [Compiler.collect, under]
    with_unfolding_all rfl
  · have rooted : execution.rootFields = .ok [shapeField] := by with_unfolding_all rfl
    have bare : isBare (execution.execute state).1 = true := by
      rw [Execution.execute_twice rooted rfl (by decide +kernel) (by decide +kernel) (by decide +kernel)]
      decide +kernel
    unfold isBare at bare
    split at bare
    · next answered => exact answered
    · cases bare

end ShapeQuery

end GraphQL
