import GraphQL.Proofs.Plan.Compiled
import GraphQL.Proofs.Plan.Occurrences
import GraphQL.Proofs.Registry.Places

/-!
# Plans are well formed

What executing relies on in a plan that was compiled from a text: variables are declared, root fields
are operations and the fields below them read objects or interfaces, tables of fields are not left, and
a selection is empty exactly where the type takes none. The text matters for the last part only: braces
hold at least one selection, and so a field whose type takes a selection has fields below it.
-/

namespace GraphQL

/-- What a field can read at the root of a plan and below it. The owner of an object field is an object
that is described in the registry. -/
inductive FieldPlan.Targets (r : Registry) (field : FieldPlan) : (root : Bool) → Prop
  | operation {operation : OperationDescriptor} (target : field.target = .operation operation)
    (accepts : ∀ argument ∈ field.arguments, argument.1 ∈ operation.argumentNames) : Targets r field true
  | objectField {owner : TypeDescriptor} {index : Nat} {type : NamedType} {object : ObjectFields}
    {declared : FieldDescriptor} (target : field.target = .objectField owner index)
    (known : r.find? type = some owner) (kind : owner.kind = .object object)
    (at' : object.fields[index]? = some declared) (named : declared.name = field.name) (bare : field.arguments = []) :
    Targets r field false
  | interfaceField (target : field.target = .interfaceField) (bare : field.arguments = []) : Targets r field false
  | typename (root : Bool) (target : field.target = .typename) (bare : field.arguments = []) : Targets r field root

/-- A field that can be executed, at the root or below it, and all fields below. -/
inductive FieldPlan.WellFormed (declared : List String) (r : Registry) : (root : Bool) → FieldPlan → Prop
  | intro {root : Bool} {field : FieldPlan} (targets : field.Targets r root)
    (arguments : ∀ argument ∈ field.arguments, argument.2.variableNames ⊆ declared)
    (directives : ∀ condition ∈ field.directives, condition.value.variableNames ⊆ declared)
    (leaf : ∃ d, r.find? field.type.namedType = some d ∧ (field.selection = [] ↔ isLeafType d field.type = true))
    (within : ∀ f ∈ field.selection, f.WellFormed declared r false) : WellFormed declared r root field

/-- A plan that can be executed with the types of a registry. -/
structure Plan.WellFormed (plan : Plan) (r : Registry) : Prop where
  fields : ∀ field ∈ plan.selection, field.WellFormed (plan.variableDefinitions.map (·.name)) r true
  single : plan.kind = .subscription → plan.selection.length = 1

namespace FieldPlan.WellFormed

variable {declared : List String} {r : Registry} {root : Bool} {field : FieldPlan}

theorem targets (wellFormed : field.WellFormed declared r root) : field.Targets r root := by
  cases wellFormed with
  | intro targets _ _ _ _ => exact targets

theorem within (wellFormed : field.WellFormed declared r root) :
    ∀ f ∈ field.selection, f.WellFormed declared r false := by
  cases wellFormed with
  | intro _ _ _ _ within => exact within

theorem later {host : Host} {r' : Registry} (wellFormed : field.WellFormed declared r root) (after : host.Later r r') :
    field.WellFormed declared r' root := by
  induction wellFormed with
  | intro targets arguments directives leaf _ ih =>
    obtain ⟨d, known, empty⟩ := leaf
    refine .intro ?_ arguments directives ⟨d, after.find? known, empty⟩ ih
    cases targets with
    | operation target accepts => exact .operation target accepts
    | objectField target known kind at' named bare => exact .objectField target (after.find? known) kind at' named bare
    | interfaceField target bare => exact .interfaceField target bare
    | typename _ target bare => exact .typename _ target bare

end FieldPlan.WellFormed

namespace ParentType

def isRoot : ParentType → Bool
  | root _ => true
  | described _ => false

/-- The parent is a root or described in a registry. -/
def Known (r : Registry) : ParentType → Prop
  | root _ => True
  | described d => ∃ type, r.find? type = some d

theorem known_described {r : Registry} {type : NamedType} {d : TypeDescriptor} (found : r.find? type = some d) :
    (described d).Known r :=
  ⟨type, found⟩

theorem Known.later {host : Host} {r r' : Registry} {parent : ParentType} (known : parent.Known r)
    (after : host.Later r r') : parent.Known r' := by
  cases parent with
  | root kind => trivial
  | described d =>
    obtain ⟨type, found⟩ := known
    exact ⟨type, after.find? found⟩

end ParentType

namespace Compiler

variable {c : Compiler} {parent narrowed : ParentType} {condition concrete : Option NamedType} {r r' : Registry}

theorem checkVariables_eq_ok {value : Located Value} (checked : c.checkVariables value = .ok ()) :
    value.value.variableNames ⊆ c.declared := by
  unfold checkVariables at checked
  split at checked
  · cases checked
  · next none =>
    intro name mem
    by_contra missing
    exact absurd (List.find?_eq_none.1 none name mem) (by simpa using missing)

theorem conditions_declared {directives : List Directive} {conditions : List Condition}
    (compiled : c.conditions directives = .ok conditions) :
    ∀ condition ∈ conditions, condition.value.variableNames ⊆ c.declared := by
  induction directives generalizing conditions with
  | nil =>
    cases compiled
    exact fun condition mem => absurd mem List.not_mem_nil
  | cons d rest ih =>
    obtain ⟨first, others, here, after, rfl⟩ := conditions_cons_eq_ok compiled
    obtain ⟨_, _, checked⟩ := condition_eq_ok here
    exact List.forall_mem_cons.2 ⟨checkVariables_eq_ok checked, ih after⟩

theorem Enters.isRoot {on : Option (Located String)} (enters : c.Enters parent condition r on narrowed concrete r') :
    narrowed.isRoot = parent.isRoot := by
  cases enters with
  | plain => rfl
  | same _ => rfl
  | narrowed candidate _ _ _ =>
    cases parent with
    | root kind => cases candidate
    | described d => rfl

theorem Enters.known {on : Option (Located String)} (enters : c.Enters parent condition r on narrowed concrete r')
    (known : parent.Known r) : narrowed.Known r' := by
  cases enters with
  | plain => exact known
  | same _ => exact known
  | narrowed _ _ found _ => exact ⟨_, found⟩

section

variable {stack : List String} {directives : List Condition} {selections : List Selection} {fields : List FieldPlan}

/-- Selections that are filled have fields, wherever those are written. -/
theorem Collects.ne_nil (collects : c.Collects stack parent condition directives selections r fields r')
    (fragments : ∀ entry ∈ c.fragments, Selection.FilledAll entry.2.selection)
    (filled : Selection.FilledAll selections) : fields ≠ [] := by
  induction collects with
  | nil => exact absurd rfl filled.1
  | leaf _ _ _ _ => exact List.cons_ne_nil _ _
  | nested _ _ _ _ _ _ _ _ => exact List.cons_ne_nil _ _
  | spread found _ _ _ _ _ first _ =>
    have some := first (fragments _ (Entries.mem_of_find? found))
    exact List.append_ne_nil_of_left_ne_nil some _
  | inline _ _ _ _ first _ =>
    cases filled.2 _ List.mem_cons_self with
    | inline _ _ some within => exact List.append_ne_nil_of_left_ne_nil (first ⟨some, within⟩) _

end

/-- What a field reads, as far as its parent is known. -/
theorem target_targets {directives : List Condition} {head : FieldHead} {target : FieldTarget} {type : TypeRef}
    {selection : List FieldPlan} (known : parent.Known r) (compiled : c.target parent head = .ok (target, type)) :
    (c.assemble parent condition directives head target type selection).Targets r parent.isRoot := by
  unfold Compiler.target at compiled
  simp only at compiled
  split at compiled
  · split at compiled
    · cases compiled
    · next bare =>
      cases compiled
      exact .typename _ rfl (by rw [assemble, bare]; rfl)
  · split at compiled
    · split at compiled
      · cases compiled
      · next operation _ =>
        split at compiled
        · cases compiled
        · next none =>
          cases compiled
          refine .operation rfl ?_
          intro argument mem
          obtain ⟨written, there, rfl⟩ := List.mem_map.1 mem
          have accepted := List.find?_eq_none.1 none written there
          simpa using accepted
    · split at compiled
      · cases compiled
      · next d _ bare =>
        have bare : (c.assemble (.described d) condition directives head target type selection).arguments = [] := by
          rw [assemble, bare]
          rfl
        split at compiled
        · next object kind =>
          split at compiled
          · next index declared position found =>
            cases compiled
            obtain ⟨of, known⟩ := known
            have named : declared.name = head.name := by simpa using List.find?_some found
            exact .objectField rfl known kind (getElem?_position position found) named bare
          · cases compiled
        · split at compiled
          · cases compiled
            exact .interfaceField rfl bare
          · cases compiled
        · cases compiled

/-- A field is well formed if those below it are, and there are some unless its type takes none. -/
theorem Prepares.wellFormed {head : FieldHead} {directives own : List Condition} {target : FieldTarget} {type : TypeRef}
    {d : TypeDescriptor} {below : List FieldPlan} {later : Registry}
    (prepared : c.Prepares parent head r own target type d r') (known : parent.Known r)
    (inherited : ∀ condition ∈ directives, condition.value.variableNames ⊆ c.declared)
    (after : c.options.host.Later r' later) (empty : below = [] ↔ isLeafType d type = true)
    (within : ∀ f ∈ below, f.WellFormed c.declared later false) :
    (c.assemble parent condition (directives ++ own) head target type below).WellFormed c.declared later
      parent.isRoot := by
  have found : later.find? type.namedType = some d := after.find? (Host.describe_caches prepared.described)
  refine .intro ?_ ?_ ?_ ⟨d, found, empty⟩ within
  · exact target_targets (known.later (prepared.later.trans after)) prepared.target
  · intro argument mem
    obtain ⟨written, there, rfl⟩ := List.mem_map.1 mem
    exact checkVariables_eq_ok (prepared.arguments written there)
  · exact List.forall_mem_append.2 ⟨inherited, conditions_declared prepared.conditions⟩

theorem Collects.wellFormed {stack : List String} {directives : List Condition} {selections : List Selection}
    {fields : List FieldPlan} (collects : c.Collects stack parent condition directives selections r fields r')
    (fragments : ∀ entry ∈ c.fragments, Selection.FilledAll entry.2.selection)
    (filled : ∀ s ∈ selections, s.Filled) (known : parent.Known r)
    (inherited : ∀ condition ∈ directives, condition.value.variableNames ⊆ c.declared) {later : Registry}
    (after : c.options.host.Later r' later) : ∀ f ∈ fields, f.WellFormed c.declared later parent.isRoot := by
  have joined {directives own : List Condition} {written : List Directive}
      (before : ∀ condition ∈ directives, condition.value.variableNames ⊆ c.declared)
      (checked : c.conditions written = .ok own) :
      ∀ condition ∈ directives ++ own, condition.value.variableNames ⊆ c.declared :=
    List.forall_mem_append.2 ⟨before, conditions_declared checked⟩
  induction collects generalizing later with
  | nil => exact fun f mem => absurd mem List.not_mem_nil
  | leaf prepared leaf others ih =>
    have rest := ih (List.forall_mem_cons.1 filled).2 (known.later prepared.later) inherited after
    refine List.forall_mem_cons.2 ⟨prepared.wellFormed known inherited (others.later.trans after) ?_ ?_, rest⟩
    · exact ⟨fun _ => leaf, fun _ => rfl⟩
    · exact fun f mem => absurd mem List.not_mem_nil
  | nested prepared composite written inner _ others below ih =>
    obtain ⟨ofField, ofRest⟩ := List.forall_mem_cons.1 filled
    have rest := ih ofRest (known.later (prepared.later.trans inner.later)) inherited after
    cases ofField with
    | field _ within =>
      have some := inner.ne_nil fragments ⟨written, within⟩
      have described := ParentType.known_described (Host.describe_caches prepared.described)
      have inside := below within described (fun condition mem => absurd mem List.not_mem_nil) (others.later.trans after)
      have grown := inner.later.trans (others.later.trans after)
      refine List.forall_mem_cons.2 ⟨prepared.wellFormed known inherited grown ⟨fun none => ?_, fun leaf => ?_⟩ inside, rest⟩
      · exact absurd none some
      · rw [composite] at leaf
        cases leaf
  | spread found _ checked enters inner others first ih =>
    have grown := enters.later.trans inner.later
    have rest := ih (List.forall_mem_cons.1 filled).2 (known.later grown) inherited after
    have ofFragment := (fragments _ (Entries.mem_of_find? found)).2
    have inside := first ofFragment (enters.known known) (joined inherited checked) (others.later.trans after)
    rw [enters.isRoot] at inside
    exact List.forall_mem_append.2 ⟨inside, rest⟩
  | inline checked enters inner others first ih =>
    have grown := enters.later.trans inner.later
    obtain ⟨ofFragment, ofRest⟩ := List.forall_mem_cons.1 filled
    have rest := ih ofRest (known.later grown) inherited after
    cases ofFragment with
    | inline _ _ _ within =>
      have inside := first within (enters.known known) (joined inherited checked) (others.later.trans after)
      rw [enters.isRoot] at inside
      exact List.forall_mem_append.2 ⟨inside, rest⟩

end Compiler

/-- A plan compiled from a document that selects something everywhere is well formed. -/
theorem compileDocument_wellFormed {options : CompileOptions} {document : Document} {operationName : Option String}
    {registry registry' : Registry} {plan : Plan} (filled : document.Filled)
    (ran : outcome (compileDocument options document operationName) registry = (.ok plan, registry')) :
    plan.WellFormed registry' := by
  obtain ⟨name, operation, selected, _, declares, collects, _, single⟩ := compileDocument_eq_ok ran
  have written := filled.operations operation (Operations.mem_all_of_select selected)
  have fields := collects.wellFormed filled.fragments written.2 trivial
    (fun condition mem => absurd mem List.not_mem_nil) (.refl _ _)
  rw [← declares] at fields
  exact ⟨fields, single⟩

/-- A plan compiled from a text is well formed. -/
theorem compile_wellFormed {options : CompileOptions} {query : String} {operationName : Option String}
    {registry registry' : Registry} {plan : Plan}
    (ran : outcome (compile options query operationName) registry = (.ok plan, registry')) :
    plan.WellFormed registry' := by
  obtain ⟨document, parsed, ran⟩ := compile_eq_ok ran
  exact compileDocument_wellFormed (Document.parse_filled parsed) ran

end GraphQL
