import GraphQL.Proofs.Schema.Calls
import Mathlib.Data.List.Forall2

/-!
# A query that selects what a subscription selects

Of one selection a subscription and a query make the same plan, but for the operations that answer the root fields.
What is selected below a root field is the same if both operations have the same type. Both are compiled where all types
are described that they name, so that neither adds to the registry.
-/

namespace GraphQL

/-- What is described stays so, so that describing types never leads back. -/
theorem Host.Later.antisymm {host : Host} {r r' : Registry} (later : host.Later r r') (back : host.Later r' r) :
    r = r' := by
  cases later with
  | refl => rfl
  | @tail u _ before step =>
    obtain ⟨d, step⟩ := step
    have cached : r'.find? d.type = some d := by rw [step.put, Registry.find?_put_self]
    cases step.fresh.symm.trans (Host.Later.find? before (back.find? cached))

/-- The root field of a query and that of a subscription with the same selection. -/
structure FieldPlan.Twins (options : CompileOptions) (field field' : FieldPlan) : Prop where
  same : field' =
    { field with
      target := field'.target, type := field'.type, complexity := field'.complexity, selection := field'.selection }
  operation : ∀ operation, field.target = .operation operation →
    options.operations.find? .subscription field.name = some operation ∧ field.type = operation.output ∧
      ∃ operation', options.operations.find? .query field.name = some operation' ∧
        field'.target = .operation operation' ∧ field'.type = operation'.output
  selection : field'.type = field.type → field'.selection = field.selection

namespace Compiler

variable {c : Compiler} {R r : Registry}

/-- What a root field is answered by. -/
theorem target_root {kind : OperationKind} {head : FieldHead} {target : FieldTarget} {type : TypeRef}
    (targeted : c.target (.root kind) head = .ok (target, type)) :
    head.name = "__typename" ∧ target = .typename ∨ head.name ≠ "__typename" ∧
      ∃ operation, c.options.operations.find? kind head.name = some operation ∧ target = .operation operation ∧
        type = operation.output := by
  unfold Compiler.target at targeted
  simp only at targeted
  split at targeted
  · next named =>
    split at targeted
    · cases targeted
    · cases targeted
      exact Or.inl ⟨named, rfl⟩
  · next named =>
    refine Or.inr ⟨named, ?_⟩
    split at targeted
    · cases targeted
    · next operation found =>
      split at targeted
      · cases targeted
      · cases targeted
        exact ⟨operation, found, rfl, rfl⟩

/-- A field that is compiled where nothing is left to describe. -/
theorem field_steady {parent : ParentType} {condition : Option NamedType} {inherited : List Condition} {head : FieldHead}
    {stack : List String} {selection : List Selection} {field : FieldPlan}
    (compiled : outcome (c.field parent condition inherited head (!selection.isEmpty) fun d =>
      c.collect stack (.described d) none [] selection >>= distinct (.described d)) R = (.ok field, r))
    (back : c.options.host.Later r R) :
    r = R ∧ ∃ own target type d below, c.Prepares parent head R own target type d R ∧
      field = c.assemble parent condition (inherited ++ own) head target type below ∧
      (isLeafType d type = true ∧ below = [] ∨ isLeafType d type = false ∧
        outcome (c.collect stack (.described d) none [] selection >>= distinct (.described d)) R = (.ok below, R)) := by
  obtain ⟨own, target, type, d, r₁, below, prepared, assembled, chosen⟩ := field_eq_ok compiled
  obtain ⟨leaf, -, bare, rfl⟩ | ⟨composite, -, selected⟩ := chosen
  · cases prepared.later.antisymm back
    exact ⟨rfl, own, target, type, d, below, prepared, assembled, Or.inl ⟨leaf, bare⟩⟩
  · obtain ⟨all, r₂, inner, checked⟩ := outcome_bind_eq_ok.1 selected
    obtain ⟨-, -, rfl⟩ := distinct_eq_ok checked
    have grows := (collects_of_collect _ _ _ _ _ inner).later
    cases prepared.later.antisymm (grows.trans back)
    cases grows.antisymm back
    exact ⟨rfl, own, target, type, d, below, prepared, assembled, Or.inr ⟨composite, selected⟩⟩

/-- Root fields of one written field. -/
theorem field_twins {condition : Option NamedType} {inherited : List Condition} {head : FieldHead}
    {stack : List String} {selection : List Selection} {field field' : FieldPlan} {r' : Registry}
    (compiled : outcome (c.field (.root .subscription) condition inherited head (!selection.isEmpty) fun d =>
      c.collect stack (.described d) none [] selection >>= distinct (.described d)) R = (.ok field, r))
    (compiled' : outcome (c.field (.root .query) condition inherited head (!selection.isEmpty) fun d =>
      c.collect stack (.described d) none [] selection >>= distinct (.described d)) R = (.ok field', r'))
    (back : c.options.host.Later r R) (back' : c.options.host.Later r' R) :
    field.Twins c.options field' := by
  obtain ⟨-, own, target, type, d, below, prepared, rfl, chosen⟩ := field_steady compiled back
  obtain ⟨-, own', target', type', d', below', prepared', rfl, chosen'⟩ := field_steady compiled' back'
  cases prepared.conditions.symm.trans prepared'.conditions
  refine ⟨rfl, fun operation is => ?_, fun same => ?_⟩
  · have is : target = .operation operation := is
    rcases target_root prepared.target with ⟨-, other⟩ | ⟨named, operation, found, rfl, rfl⟩
    · cases is.symm.trans other
    · cases is
      rcases target_root prepared'.target with ⟨named', -⟩ | ⟨-, operation', found', rfl, rfl⟩
      · exact absurd named' named
      · exact ⟨found, rfl, operation', found', rfl, rfl⟩
  · have same : type' = type := same
    subst same
    cases prepared.described.symm.trans prepared'.described
    change below' = below
    rcases chosen with ⟨leaf, rfl⟩ | ⟨composite, selected⟩
    · rcases chosen' with ⟨-, rfl⟩ | ⟨composite', -⟩
      · rfl
      · cases leaf.symm.trans composite'
    · rcases chosen' with ⟨leaf', -⟩ | ⟨-, selected'⟩
      · cases composite.symm.trans leaf'
      · cases selected.symm.trans selected'
        rfl

/-- A subscription and a query cannot both be narrowed by a type condition at the root. -/
theorem narrow_apart {on : Located String} {condition : Option NamedType} {narrowed narrowed' : ParentType × Option NamedType}
    {s s' r' : Registry} (ran : outcome (c.narrow (.root .subscription) on condition) s = (.ok narrowed, r))
    (ran' : outcome (c.narrow (.root .query) on condition) s' = (.ok narrowed', r')) : False := by
  have named {kind : OperationKind} {narrowed : ParentType × Option NamedType} {s r : Registry}
      (ran : outcome (c.narrow (.root kind) on condition) s = (.ok narrowed, r)) : on.value = kind.rootTypeName := by
    unfold narrow at ran
    split at ran
    · assumption
    · obtain ⟨found, _, searched, ran⟩ := outcome_bind_eq_ok.1 ran
      cases searched
      cases ran
  exact absurd ((named ran).symm.trans (named ran')) (by decide)

/-- Root selections of a subscription and a query. -/
theorem collect_twins (stack : List String) (condition : Option NamedType) (directives : List Condition)
    (selections : List Selection) {fields fields' : List FieldPlan} {r r' : Registry}
    (ran : outcome (c.collect stack (.root .subscription) condition directives selections) R = (.ok fields, r))
    (ran' : outcome (c.collect stack (.root .query) condition directives selections) R = (.ok fields', r'))
    (back : c.options.host.Later r R) (back' : c.options.host.Later r' R) :
    r = R ∧ r' = R ∧ List.Forall₂ (FieldPlan.Twins c.options) fields fields' := by
  cases written : selections with
  | nil =>
    rw [written, collect] at ran ran'
    cases ran
    cases ran'
    exact ⟨rfl, rfl, .nil⟩
  | cons first rest =>
    cases first with
    | field head selection =>
      rw [written, collect] at ran ran'
      obtain ⟨field, r₁, compiled, ran⟩ := outcome_bind_eq_ok.1 ran
      obtain ⟨others, r₂, collected, ran⟩ := outcome_bind_eq_ok.1 ran
      cases ran
      obtain ⟨field', r₁', compiled', ran'⟩ := outcome_bind_eq_ok.1 ran'
      obtain ⟨others', r₂', collected', ran'⟩ := outcome_bind_eq_ok.1 ran'
      cases ran'
      have after := (collects_of_collect _ _ _ _ _ collected).later.trans back
      have after' := (collects_of_collect _ _ _ _ _ collected').later.trans back'
      have twins := field_twins compiled compiled' after after'
      rw [(field_steady compiled after).1] at collected
      rw [(field_steady compiled' after').1] at collected'
      obtain ⟨left, left', rest⟩ := collect_twins stack condition directives rest collected collected' back back'
      exact ⟨left, left', .cons twins rest⟩
    | spread location name own =>
      rw [written, collect] at ran ran'
      split at ran
      · cases ran
      · next fragment found =>
        split at ran
        · cases ran
        · next fresh =>
          obtain ⟨_, _, _, ran⟩ := outcome_bind_eq_ok.1 ran
          obtain ⟨_, _, narrows, _⟩ := outcome_bind_eq_ok.1 ran
          split at ran'
          · cases ran'
          · next fragment' found' =>
            cases found.symm.trans found'
            rw [dif_neg fresh] at ran'
            obtain ⟨_, _, _, ran'⟩ := outcome_bind_eq_ok.1 ran'
            obtain ⟨_, _, narrows', _⟩ := outcome_bind_eq_ok.1 ran'
            exact (narrow_apart narrows narrows').elim
    | inline on own selection =>
      rw [written, collect] at ran ran'
      obtain ⟨conditions, _, passed, ran⟩ := outcome_bind_eq_ok.1 ran
      obtain ⟨checked, rfl⟩ := outcome_lift_eq_ok.1 passed
      obtain ⟨conditions', _, passed', ran'⟩ := outcome_bind_eq_ok.1 ran'
      obtain ⟨checked', rfl⟩ := outcome_lift_eq_ok.1 passed'
      cases checked.symm.trans checked'
      cases on with
      | some type =>
        obtain ⟨_, _, narrows, _⟩ := outcome_bind_eq_ok.1 ran
        obtain ⟨_, _, narrows', _⟩ := outcome_bind_eq_ok.1 ran'
        exact (narrow_apart narrows narrows').elim
      | none =>
        obtain ⟨_, _, narrows, ran⟩ := outcome_bind_eq_ok.1 ran
        cases narrows
        obtain ⟨_, _, narrows', ran'⟩ := outcome_bind_eq_ok.1 ran'
        cases narrows'
        obtain ⟨inner, r₁, first, ran⟩ := outcome_bind_eq_ok.1 ran
        obtain ⟨others, r₂, collected, ran⟩ := outcome_bind_eq_ok.1 ran
        cases ran
        obtain ⟨inner', r₁', first', ran'⟩ := outcome_bind_eq_ok.1 ran'
        obtain ⟨others', r₂', collected', ran'⟩ := outcome_bind_eq_ok.1 ran'
        cases ran'
        have after := (collects_of_collect _ _ _ _ _ collected).later.trans back
        have after' := (collects_of_collect _ _ _ _ _ collected').later.trans back'
        obtain ⟨left, left', twins⟩ := collect_twins stack condition (directives ++ conditions) selection first first'
          after after'
        rw [left] at collected
        rw [left'] at collected'
        obtain ⟨left, left', rest⟩ := collect_twins stack condition directives rest collected collected' back back'
        exact ⟨left, left', List.rel_append twins rest⟩
termination_by sizeOf selections
decreasing_by
  all_goals simp only [written, List.cons.sizeOf_spec, Selection.inline.sizeOf_spec]; omega

end Compiler

/-- A query selects what a subscription selects, in the same places and with the same fragments and variables. -/
structure Document.Parallel (document document' : Document) (name name' : Option String)
    (operation operation' : OperationDefinition) : Prop where
  subscription : ∃ shown, document.operations.select name = .ok (shown, operation)
  query : ∃ shown, document'.operations.select name' = .ok (shown, operation')
  kind : operation.kind = .subscription
  same : operation' = { operation with kind := .query, location := operation'.location }
  fragments : document'.fragments = document.fragments

variable {options : CompileOptions} {document document' : Document} {name name' : Option String}

/-- What a plan selects is what its operation is compiled to. -/
theorem compileDocument_collected {operation : OperationDefinition} {r r' : Registry} {plan : Plan}
    (selected : ∃ shown, document.operations.select name = .ok (shown, operation))
    (ran : outcome (compileDocument options document name) r = (.ok plan, r')) :
    outcome (Compiler.collect ⟨options, document.fragments, operation.variableDefinitions.map (·.name)⟩ []
      (.root operation.kind) none [] operation.selection) r = (.ok plan.selection, r') := by
  obtain ⟨shown, selected⟩ := selected
  unfold compileDocument at ran
  obtain ⟨⟨_, _⟩, _, found, ran⟩ := outcome_bind_eq_ok.1 ran
  obtain ⟨same, rfl⟩ := outcome_lift_eq_ok.1 found
  cases selected.symm.trans same
  obtain ⟨fields, _, collected, ran⟩ := outcome_bind_eq_ok.1 ran
  obtain ⟨selection, _, checked, made⟩ := outcome_bind_eq_ok.1 ran
  obtain ⟨-, rfl, rfl⟩ := Compiler.distinct_eq_ok checked
  simp only at made
  split at made
  · cases made
  · cases made
    exact collected

/-- Where all is described, compiling comes to the same plan again and describes nothing more. -/
theorem compileDocument_again {r r' R : Registry} {plan : Plan}
    (ran : outcome (compileDocument options document name) r = (.ok plan, r')) (covers : options.host.Covers r' R) :
    outcome (compileDocument options document name) R = (.ok plan, R) := by
  have operations : options.operations.Within (options.host.growing r) :=
    fun _ _ operation _ => ⟨Host.readsWithin_growing operation, trivial⟩
  have again := (compileDocument_carries Host.growing_firm operations trivial document name r (.refl options.host r)).again R
  rw [ran] at again
  exact (again covers).2

/-- A subscription and a query in parallel have one root field each, and the two are alike. -/
theorem Document.Parallel.twins {operation operation' : OperationDefinition}
    (parallel : document.Parallel document' name name' operation operation') {r r' s s' R : Registry} {plan plan' : Plan}
    (ran : outcome (compileDocument options document name) r = (.ok plan, r'))
    (ran' : outcome (compileDocument options document' name') s = (.ok plan', s'))
    (covers : options.host.Covers r' R) (covers' : options.host.Covers s' R) :
    ∃ field field', plan.selection = [field] ∧ plan'.selection = [field'] ∧ field.Twins options field' := by
  obtain ⟨shown, selected⟩ := parallel.subscription
  have collected := compileDocument_collected parallel.subscription (compileDocument_again ran covers)
  have collected' := compileDocument_collected parallel.query (compileDocument_again ran' covers')
  rw [parallel.same, parallel.fragments] at collected'
  rw [parallel.kind] at collected
  obtain ⟨-, -, twins⟩ := Compiler.collect_twins [] none [] operation.selection collected collected' (.refl _ R)
    (.refl _ R)
  have one : plan.selection.length = 1 := by
    obtain ⟨_, _, found, kind, -, -, -, single⟩ := compileDocument_eq_ok ran
    cases selected.symm.trans found
    exact single (kind.trans parallel.kind)
  obtain ⟨field, is⟩ := List.length_eq_one_iff.1 one
  obtain ⟨field', is'⟩ := List.length_eq_one_iff.1 (twins.length_eq.symm.trans one)
  rw [is, is'] at twins
  exact ⟨field, field', is, is', (List.forall₂_cons.1 twins).1⟩

end GraphQL
