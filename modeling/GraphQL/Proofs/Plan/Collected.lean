import GraphQL.Plan.Compile
import GraphQL.Proofs.Document.Filled
import GraphQL.Proofs.Registry.Settled

/-!
# What compiling a selection comes to

`Compiler.Collects` says what a selection is compiled to when nothing fails: which fields, from which
registry and to which. It has one rule for each way in which a selection can begin, and the rules name
every check that was passed on the way. `collects_of_collect` is the only induction on the measure of
`Compiler.collect`; what is true of all plans is proved from the rules.
-/

namespace GraphQL

/-- Checking every member of a list. -/
theorem outcome_forM_lift_eq_ok {ε σ α : Type} {f : α → Except ε Unit} {items : List α} {s t : σ} {u : Unit} :
    outcome (items.forM fun a => (liftM (f a) : ExceptT ε (StateM σ) Unit)) s = (.ok u, t) ↔
      (∀ a ∈ items, f a = .ok ()) ∧ s = t := by
  induction items with
  | nil =>
    constructor
    · intro ran
      cases ran
      exact ⟨fun a mem => absurd mem List.not_mem_nil, rfl⟩
    · rintro ⟨-, rfl⟩
      rfl
  | cons a rest ih =>
    have unfolded : outcome ((a :: rest).forM fun a => (liftM (f a) : ExceptT ε (StateM σ) Unit)) s =
        outcome (liftM (f a) >>= fun _ => rest.forM fun a => (liftM (f a) : ExceptT ε (StateM σ) Unit)) s := rfl
    rw [unfolded, outcome_bind_eq_ok]
    constructor
    · rintro ⟨_, _, first, others⟩
      obtain ⟨passed, rfl⟩ := outcome_lift_eq_ok.1 first
      obtain ⟨all, rfl⟩ := ih.1 others
      exact ⟨List.forall_mem_cons.2 ⟨passed, all⟩, rfl⟩
    · rintro ⟨all, rfl⟩
      obtain ⟨passed, all⟩ := List.forall_mem_cons.1 all
      exact ⟨(), s, outcome_lift_eq_ok.2 ⟨passed, rfl⟩, ih.2 ⟨all, rfl⟩⟩

/-- A description that succeeds as part of a compilation. -/
theorem outcome_inPlan_eq_ok {α : Type} {x : RegistryM α} {r r' : Registry} {a : α} :
    outcome x.inPlan r = (.ok a, r') ↔ outcome x r = (.ok a, r') := by
  unfold RegistryM.inPlan
  rw [outcome_adapt]
  cases ran : outcome x r with
  | mk result u =>
    cases result with
    | ok b =>
      change (Except.ok b, u) = (Except.ok a, r') ↔ _
      rw [Prod.mk.injEq, Prod.mk.injEq, Except.ok.injEq, Except.ok.injEq]
    | error e =>
      constructor
      · intro failed
        cases failed
      · intro failed
        cases failed

namespace Compiler

/-- The field of a plan for a written field whose target, type and selection are known. -/
def assemble (c : Compiler) (parent : ParentType) (condition : Option NamedType) (directives : List Condition)
    (head : FieldHead) (target : FieldTarget) (type : TypeRef) (selection : List FieldPlan) : FieldPlan :=
  { responseKey := head.responseKey
    aliased := head.aliasName.isSome
    name := head.name
    location := head.location
    condition
    directives
    arguments := head.arguments.map fun argument => (argument.name.value, argument.value.value)
    target
    type
    complexity := c.score parent head.name target type selection
    selection }

/-- What compiling a field finds out before it looks at the selection: the directives of the field, its
target and type, and the descriptor of the type. -/
structure Prepares (c : Compiler) (parent : ParentType) (head : FieldHead) (r : Registry) (own : List Condition)
    (target : FieldTarget) (type : TypeRef) (d : TypeDescriptor) (r' : Registry) : Prop where
  conditions : c.conditions head.directives = .ok own
  arguments : ∀ argument ∈ head.arguments, c.checkVariables argument.value = .ok ()
  target : c.target parent head = .ok (target, type)
  described : outcome (c.options.host.describe type.namedType) r = (.ok d, r')

/-- The parent and concrete type below a fragment. They stay what they are without a type condition and
under the name of the parent itself; else the condition names one of the types that the parent can be. -/
inductive Enters (c : Compiler) (parent : ParentType) (condition : Option NamedType) (r : Registry) :
    Option (Located String) → ParentType → Option NamedType → Registry → Prop
  | plain : Enters c parent condition r none parent condition r
  | same {on : Located String} (named : on.value = parent.name) : Enters c parent condition r (some on) parent condition r
  | narrowed {on : Located String} {type : NamedType} {d : TypeDescriptor} {r' : Registry}
    (candidate : type ∈ parent.candidates) (later : c.options.host.Later r r') (known : r'.find? type = some d)
    (named : d.name = on.value) : Enters c parent condition r (some on) (.described d) (some d.type) r'

/-- The fields that a selection is compiled to, and the registry that is left. -/
inductive Collects (c : Compiler) :
    List String → ParentType → Option NamedType → List Condition → List Selection → Registry → List FieldPlan →
      Registry → Prop
  | nil {stack : List String} {parent : ParentType} {condition : Option NamedType} {directives : List Condition}
    {r : Registry} : Collects c stack parent condition directives [] r [] r
  | leaf {stack : List String} {parent : ParentType} {condition : Option NamedType} {directives own : List Condition}
    {head : FieldHead} {rest : List Selection} {target : FieldTarget} {type : TypeRef} {d : TypeDescriptor}
    {others : List FieldPlan} {r r₁ r' : Registry} (prepared : c.Prepares parent head r own target type d r₁)
    (leaf : isLeafType d type = true) (after : Collects c stack parent condition directives rest r₁ others r') :
    Collects c stack parent condition directives (.field head [] :: rest) r
      (c.assemble parent condition (directives ++ own) head target type [] :: others) r'
  | nested {stack : List String} {parent : ParentType} {condition : Option NamedType} {directives own : List Condition}
    {head : FieldHead} {selection rest : List Selection} {target : FieldTarget} {type : TypeRef} {d : TypeDescriptor}
    {below others : List FieldPlan} {r r₁ r₂ r' : Registry} (prepared : c.Prepares parent head r own target type d r₁)
    (composite : isLeafType d type = false) (written : selection ≠ [])
    (inner : Collects c stack (.described d) none [] selection r₁ below r₂) (distinct : firstDuplicate [] below = none)
    (after : Collects c stack parent condition directives rest r₂ others r') :
    Collects c stack parent condition directives (.field head selection :: rest) r
      (c.assemble parent condition (directives ++ own) head target type below :: others) r'
  | spread {stack : List String} {parent narrowed : ParentType} {condition concrete : Option NamedType}
    {directives conditions : List Condition} {location : Location} {name : String} {own : List Directive}
    {fragment : FragmentDefinition} {rest : List Selection} {first others : List FieldPlan} {r r₁ r₂ r' : Registry}
    (found : Entries.find? name c.fragments = some fragment) (outside : name ∉ stack)
    (checked : c.conditions own = .ok conditions)
    (enters : c.Enters parent condition r (some fragment.condition) narrowed concrete r₁)
    (inner : Collects c (name :: stack) narrowed concrete (directives ++ conditions) fragment.selection r₁ first r₂)
    (after : Collects c stack parent condition directives rest r₂ others r') :
    Collects c stack parent condition directives (.spread location name own :: rest) r (first ++ others) r'
  | inline {stack : List String} {parent narrowed : ParentType} {condition concrete : Option NamedType}
    {directives conditions : List Condition} {on : Option (Located String)} {own : List Directive}
    {selection rest : List Selection} {first others : List FieldPlan} {r r₁ r₂ r' : Registry}
    (checked : c.conditions own = .ok conditions) (enters : c.Enters parent condition r on narrowed concrete r₁)
    (inner : Collects c stack narrowed concrete (directives ++ conditions) selection r₁ first r₂)
    (after : Collects c stack parent condition directives rest r₂ others r') :
    Collects c stack parent condition directives (.inline on own selection :: rest) r (first ++ others) r'

section

variable {c : Compiler} {parent : ParentType} {condition : Option NamedType} {r r' : Registry}

theorem Prepares.later {head : FieldHead} {own : List Condition} {target : FieldTarget} {type : TypeRef}
    {d : TypeDescriptor} (prepared : c.Prepares parent head r own target type d r') : c.options.host.Later r r' :=
  (Host.describe_settles _).later prepared.described

theorem Enters.later {narrowed : ParentType} {concrete : Option NamedType} {on : Option (Located String)}
    (enters : c.Enters parent condition r on narrowed concrete r') : c.options.host.Later r r' := by
  cases enters with
  | plain => exact .refl _ _
  | same _ => exact .refl _ _
  | narrowed _ later _ _ => exact later

/-- Compiling describes types on the way. -/
theorem Collects.later {stack : List String} {directives : List Condition} {selections : List Selection}
    {fields : List FieldPlan} (collects : c.Collects stack parent condition directives selections r fields r') :
    c.options.host.Later r r' := by
  induction collects with
  | nil => exact .refl _ _
  | leaf prepared _ _ others => exact prepared.later.trans others
  | nested prepared _ _ _ _ _ below others => exact (prepared.later.trans below).trans others
  | spread _ _ _ enters _ _ first others => exact (enters.later.trans first).trans others
  | inline _ enters _ _ first others => exact (enters.later.trans first).trans others

end

section

variable {c : Compiler} {parent : ParentType} {condition : Option NamedType} {r r' : Registry}

/-- A type that is found by its name is one of those searched. -/
theorem findNamed_eq_ok {name : String} {types : List NamedType} {found : Option TypeDescriptor}
    (ran : outcome (c.findNamed name types) r = (.ok found, r')) :
    c.options.host.Later r r' ∧ ∀ d ∈ found, d.name = name ∧ ∃ type ∈ types, r'.find? type = some d := by
  induction types generalizing r with
  | nil =>
    cases ran
    exact ⟨.refl _ _, fun d mem => by cases mem⟩
  | cons type rest ih =>
    rw [findNamed] at ran
    obtain ⟨d, r₁, described, ran⟩ := outcome_bind_eq_ok.1 ran
    rw [outcome_inPlan_eq_ok] at described
    have grown := (Host.describe_settles type).later described
    split at ran
    · next named =>
      cases ran
      refine ⟨grown, ?_⟩
      intro d' mem
      cases mem
      exact ⟨named, type, List.mem_cons_self, Host.describe_caches described⟩
    · obtain ⟨more, all⟩ := ih ran
      refine ⟨grown.trans more, ?_⟩
      intro d' mem
      obtain ⟨named, type', mem', known⟩ := all d' mem
      exact ⟨named, type', List.mem_cons_of_mem _ mem', known⟩

theorem enters_of_narrow {on : Located String} {narrowed : ParentType × Option NamedType}
    (ran : outcome (c.narrow parent on condition) r = (.ok narrowed, r')) :
    c.Enters parent condition r (some on) narrowed.1 narrowed.2 r' := by
  unfold narrow at ran
  split at ran
  · next named =>
    cases ran
    exact .same named
  · obtain ⟨found, r₁, searched, ran⟩ := outcome_bind_eq_ok.1 ran
    obtain ⟨later, all⟩ := findNamed_eq_ok searched
    cases found with
    | none => cases ran
    | some d =>
      cases ran
      obtain ⟨named, type, candidate, known⟩ := all d rfl
      exact .narrowed candidate later known named

/-- What a compiled field was prepared with; it has a selection if and only if its type takes one. -/
theorem field_eq_ok {inherited : List Condition} {head : FieldHead} {hasSelection : Bool}
    {select : TypeDescriptor → CompileM (List FieldPlan)} {field : FieldPlan}
    (compiled : outcome (c.field parent condition inherited head hasSelection select) r = (.ok field, r')) :
    ∃ own target type d r₁ below, c.Prepares parent head r own target type d r₁ ∧
      field = c.assemble parent condition (inherited ++ own) head target type below ∧
      ((isLeafType d type = true ∧ hasSelection = false ∧ below = [] ∧ r₁ = r') ∨
        (isLeafType d type = false ∧ hasSelection = true ∧ outcome (select d) r₁ = (.ok below, r'))) := by
  unfold Compiler.field at compiled
  obtain ⟨own, _, checked, compiled⟩ := outcome_bind_eq_ok.1 compiled
  obtain ⟨conditions, rfl⟩ := outcome_lift_eq_ok.1 checked
  obtain ⟨_, _, checked, compiled⟩ := outcome_bind_eq_ok.1 compiled
  obtain ⟨arguments, rfl⟩ := outcome_forM_lift_eq_ok.1 checked
  obtain ⟨⟨target, type⟩, _, checked, compiled⟩ := outcome_bind_eq_ok.1 compiled
  obtain ⟨targeted, rfl⟩ := outcome_lift_eq_ok.1 checked
  obtain ⟨d, r₁, described, compiled⟩ := outcome_bind_eq_ok.1 compiled
  have prepared : c.Prepares parent head r own target type d r₁ :=
    ⟨conditions, arguments, targeted, outcome_inPlan_eq_ok.1 described⟩
  simp only at compiled
  split at compiled
  · next leaf =>
    split at compiled
    · cases compiled
    · next bare =>
      cases compiled
      exact ⟨own, target, type, d, r', [], prepared, rfl, Or.inl ⟨leaf, eq_false_of_ne_true bare, rfl, rfl⟩⟩
  · next composite =>
    split at compiled
    · next has =>
      obtain ⟨below, _, selected, compiled⟩ := outcome_bind_eq_ok.1 compiled
      cases compiled
      exact ⟨own, target, type, d, r₁, below, prepared, rfl, Or.inr ⟨eq_false_of_ne_true composite, has, selected⟩⟩
    · cases compiled

theorem distinct_eq_ok {fields kept : List FieldPlan} (checked : outcome (distinct parent fields) r = (.ok kept, r')) :
    firstDuplicate [] kept = none ∧ kept = fields ∧ r = r' := by
  unfold distinct at checked
  split at checked
  · cases checked
  · next unique =>
    cases checked
    exact ⟨unique, rfl, rfl⟩

/-- A selection that compiles was compiled by the rules. -/
theorem collects_of_collect (stack : List String) (parent : ParentType) (condition : Option NamedType)
    (directives : List Condition) (selections : List Selection) {fields : List FieldPlan} {r r' : Registry}
    (ran : outcome (c.collect stack parent condition directives selections) r = (.ok fields, r')) :
    c.Collects stack parent condition directives selections r fields r' := by
  cases written : selections with
  | nil =>
    rw [written, collect] at ran
    cases ran
    exact .nil
  | cons first rest =>
    cases first with
    | field head selection =>
      rw [written, collect] at ran
      obtain ⟨plan, r₁, compiled, ran⟩ := outcome_bind_eq_ok.1 ran
      obtain ⟨others, r₂, collected, ran⟩ := outcome_bind_eq_ok.1 ran
      cases ran
      have after := collects_of_collect stack parent condition directives rest collected
      obtain ⟨own, target, type, d, r₃, below, prepared, rfl, chosen⟩ := field_eq_ok compiled
      obtain ⟨leaf, bare, rfl, rfl⟩ | ⟨composite, has, selected⟩ := chosen
      · have empty : selection = [] := by simpa using bare
        subst empty
        exact .leaf prepared leaf after
      · obtain ⟨all, _, inner, checked⟩ := outcome_bind_eq_ok.1 selected
        obtain ⟨unique, rfl, rfl⟩ := distinct_eq_ok checked
        have nonempty : selection ≠ [] := by simpa using has
        have inner := collects_of_collect stack (.described d) none [] selection inner
        exact .nested prepared composite nonempty inner unique after
    | spread location name own =>
      rw [written, collect] at ran
      split at ran
      · cases ran
      · next fragment found =>
        split at ran
        · cases ran
        · next outside =>
          obtain ⟨conditions, _, passed, ran⟩ := outcome_bind_eq_ok.1 ran
          obtain ⟨checked, rfl⟩ := outcome_lift_eq_ok.1 passed
          obtain ⟨⟨narrowed, concrete⟩, _, narrows, ran⟩ := outcome_bind_eq_ok.1 ran
          obtain ⟨first, _, inner, ran⟩ := outcome_bind_eq_ok.1 ran
          obtain ⟨others, _, collected, ran⟩ := outcome_bind_eq_ok.1 ran
          cases ran
          have inner := collects_of_collect (name :: stack) narrowed concrete (directives ++ conditions)
            fragment.selection inner
          have after := collects_of_collect stack parent condition directives rest collected
          exact .spread found outside checked (enters_of_narrow narrows) inner after
    | inline on own selection =>
      rw [written, collect] at ran
      obtain ⟨conditions, _, passed, ran⟩ := outcome_bind_eq_ok.1 ran
      obtain ⟨checked, rfl⟩ := outcome_lift_eq_ok.1 passed
      have ends {narrowed : ParentType} {concrete : Option NamedType} {r₁ : Registry}
          (enters : c.Enters parent condition r on narrowed concrete r₁)
          (ran : outcome (do
            let inner ← c.collect stack narrowed concrete (directives ++ conditions) selection
            return inner ++ (← c.collect stack parent condition directives rest)) r₁ = (.ok fields, r')) :
          c.Collects stack parent condition directives (.inline on own selection :: rest) r fields r' := by
        obtain ⟨first, _, inner, ran⟩ := outcome_bind_eq_ok.1 ran
        obtain ⟨others, _, collected, ran⟩ := outcome_bind_eq_ok.1 ran
        cases ran
        have inner := collects_of_collect stack narrowed concrete (directives ++ conditions) selection inner
        have after := collects_of_collect stack parent condition directives rest collected
        exact .inline checked enters inner after
      cases on with
      | none => exact ends .plain ran
      | some type =>
        obtain ⟨⟨narrowed, concrete⟩, _, narrows, ran⟩ := outcome_bind_eq_ok.1 ran
        exact ends (enters_of_narrow narrows) ran
termination_by (c.remaining stack, sizeOf selections)
decreasing_by
  · exact Prod.Lex.right _ (by simp only [written, List.cons.sizeOf_spec]; omega)
  · exact Prod.Lex.right _ (by simp only [written, List.cons.sizeOf_spec, Selection.field.sizeOf_spec]; omega)
  · exact Prod.Lex.left _ _ (remaining_cons_lt ‹_› ‹_›)
  · exact Prod.Lex.right _ (by simp only [written, List.cons.sizeOf_spec]; omega)
  · exact Prod.Lex.right _ (by simp only [written, List.cons.sizeOf_spec, Selection.inline.sizeOf_spec]; omega)
  · exact Prod.Lex.right _ (by simp only [written, List.cons.sizeOf_spec]; omega)

end

end Compiler

/-- An operation that is selected is one of the document. -/
theorem Operations.mem_all_of_select {operations : Operations} {operationName name : Option String}
    {operation : OperationDefinition} (selected : operations.select operationName = .ok (name, operation)) :
    operation ∈ operations.all := by
  unfold Operations.select at selected
  split at selected
  · cases selected
    exact List.mem_singleton_self _
  · cases selected
  · next entries key =>
    split at selected
    · next found =>
      cases selected
      exact List.mem_map.2 ⟨_, Entries.mem_of_find? found, rfl⟩
    · cases selected
  · cases selected
  · cases selected
    exact List.mem_singleton_self _
  · cases selected

/-- What a compiled plan was made of: an operation of the document, and the fields that its selection is
compiled to at the root. -/
theorem compileDocument_eq_ok {options : CompileOptions} {document : Document} {operationName : Option String}
    {r r' : Registry} {plan : Plan}
    (ran : outcome (compileDocument options document operationName) r = (.ok plan, r')) :
    ∃ name operation, document.operations.select operationName = .ok (name, operation) ∧
      plan.kind = operation.kind ∧ plan.variableDefinitions = operation.variableDefinitions ∧
      Compiler.Collects ⟨options, document.fragments, operation.variableDefinitions.map (·.name)⟩ []
        (.root operation.kind) none [] operation.selection r plan.selection r' ∧
      firstDuplicate [] plan.selection = none ∧ (plan.kind = .subscription → plan.selection.length = 1) := by
  unfold compileDocument at ran
  obtain ⟨⟨name, operation⟩, _, found, ran⟩ := outcome_bind_eq_ok.1 ran
  obtain ⟨selected, rfl⟩ := outcome_lift_eq_ok.1 found
  obtain ⟨fields, _, collected, ran⟩ := outcome_bind_eq_ok.1 ran
  obtain ⟨selection, _, checked, made⟩ := outcome_bind_eq_ok.1 ran
  obtain ⟨unique, rfl, rfl⟩ := Compiler.distinct_eq_ok checked
  have collects := Compiler.collects_of_collect _ _ _ _ _ collected
  simp only at made
  split at made
  · cases made
  · next counted =>
    cases made
    have single : operation.kind = .subscription → selection.length = 1 := by simpa using counted
    exact ⟨name, operation, selected, rfl, rfl, collects, unique, single⟩

/-- Compiling a text is compiling the document that it is parsed to. -/
theorem compile_eq_ok {options : CompileOptions} {query : String} {operationName : Option String} {r r' : Registry}
    {plan : Plan} (ran : outcome (compile options query operationName) r = (.ok plan, r')) :
    ∃ document, Document.parse query = .ok document ∧
      outcome (compileDocument options document operationName) r = (.ok plan, r') := by
  unfold compile at ran
  split at ran
  · cases ran
  · next document parsed => exact ⟨document, parsed, ran⟩

theorem compile_later {options : CompileOptions} {query : String} {operationName : Option String} {r r' : Registry}
    {plan : Plan} (ran : outcome (compile options query operationName) r = (.ok plan, r')) :
    options.host.Later r r' := by
  obtain ⟨document, _, ran⟩ := compile_eq_ok ran
  obtain ⟨_, _, _, _, _, collects, _, _⟩ := compileDocument_eq_ok ran
  exact collects.later

end GraphQL
