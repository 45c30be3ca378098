import GraphQL.Proofs.Footing.Values
import GraphQL.Proofs.Plan.Compiled

/-!
# Compiling on a footing

Compiling describes the types of the fields that are selected and, where a type condition narrows a selection,
the types that it may narrow it to. They are the types of operations and those that described types refer to, so a
footing that covers the operations carries it, and the plan is of types that are covered.
-/

namespace GraphQL

open Footing

variable {f : Footing}

/-- A type is refused, if the error comes from describing one. -/
def CompileError.Within (f : Footing) (e : CompileError) : Prop := ∀ refused, e = .registration refused → f.refuses refused

/-- An operation takes and gives types that are covered. -/
structure OperationDescriptor.Within (f : Footing) (operation : OperationDescriptor) : Prop where
  reads : operation.ReadsWithin f
  output : f.covers operation.output.namedType

theorem OperationDescriptor.Within.mono {g : Footing} {operation : OperationDescriptor} (widens : f.Widens g)
    (within : operation.Within f) : operation.Within g :=
  ⟨within.reads.mono widens, widens _ within.output⟩

/-- Every operation takes and gives types that are covered. -/
def OperationTable.Within (f : Footing) (operations : OperationTable) : Prop :=
  ∀ kind name operation, operations.find? kind name = some operation → operation.Within f

namespace ParentType

/-- The types that a selection may go on to are covered. -/
def Within (f : Footing) : ParentType → Prop
  | root _ => True
  | described descriptor => ∀ type ∈ descriptor.references, f.covers type

theorem Within.candidates {parent : ParentType} (within : parent.Within f) : ∀ type ∈ parent.candidates, f.covers type := by
  cases parent with
  | root kind => exact List.forall_mem_nil _
  | described descriptor =>
    intro type mem
    refine within type ?_
    unfold ParentType.candidates at mem
    unfold TypeDescriptor.references
    split at mem
    · cases mem
    · next same =>
      cases same
      split at mem
      · next object kind =>
        rw [kind]
        exact mem
      · next shape kind =>
        rw [kind]
        exact List.mem_append_right _ mem
      · cases mem

end ParentType

/-- What does not fail because a type cannot be described. -/
def Undescribed {α : Type} (result : Except CompileError α) : Prop := ∀ e, result ≠ .error (.registration e)

theorem Undescribed.bind {α β : Type} {result : Except CompileError α} {next : α → Except CompileError β}
    (first : Undescribed result) (rest : ∀ a, Undescribed (next a)) : Undescribed (result >>= next) := by
  cases result with
  | error e => exact fun refused failed => first refused (congrArg Except.error (Except.error.inj failed))
  | ok a => exact rest a

theorem undescribed_ok {α : Type} (a : α) : Undescribed (.ok a : Except CompileError α) := fun _ failed => by cases failed

theorem undescribed_mapM {α β : Type} {g : α → Except CompileError β} (each : ∀ a, Undescribed (g a)) (items : List α) :
    Undescribed (items.mapM g) := by
  induction items with
  | nil => exact undescribed_ok _
  | cons a rest ih =>
    rw [List.mapM_cons]
    exact (each a).bind fun b => ih.bind fun bs => undescribed_ok _

theorem carries_undescribed {α : Type} {result : Except CompileError α} (plain : Undescribed result) :
    f.Carries (liftM result : CompileM α) (fun a => result = .ok a) (CompileError.Within f) := by
  refine carries_lift (fun a ok => ok) fun e failed refused same => ?_
  rw [same] at failed
  exact absurd failed (plain refused)

namespace Compiler

variable {c : Compiler} {parent : ParentType} {condition : Option NamedType}

theorem checkVariables_undescribed (value : Located Value) : Undescribed (c.checkVariables value) := by
  intro e failed
  unfold checkVariables at failed
  split at failed <;> cases failed

theorem condition_undescribed (d : Directive) : Undescribed (c.condition d) := by
  unfold Compiler.condition
  simp only
  split
  · refine (undescribed_ok _).bind fun make => ?_
    split
    · exact fun e failed => by cases failed
    · exact (checkVariables_undescribed _).bind fun _ => undescribed_ok _
  · refine (undescribed_ok _).bind fun make => ?_
    split
    · exact fun e failed => by cases failed
    · exact (checkVariables_undescribed _).bind fun _ => undescribed_ok _
  · exact fun e failed => by cases failed

theorem conditions_undescribed (directives : List Directive) : Undescribed (c.conditions directives) :=
  undescribed_mapM condition_undescribed directives

theorem target_undescribed (parent : ParentType) (head : FieldHead) : Undescribed (c.target parent head) := by
  intro e failed
  unfold Compiler.target at failed
  simp only at failed
  split at failed
  · split at failed <;> cases failed
  · split at failed
    · split at failed
      · cases failed
      · split at failed <;> cases failed
    · split at failed
      · cases failed
      · split at failed
        · split at failed <;> cases failed
        · split at failed <;> cases failed
        · cases failed

theorem distinct_carries {fields : List FieldPlan} (within : ∀ field ∈ fields, field.Within f) :
    f.Carries (distinct parent fields) (fun kept => ∀ field ∈ kept, field.Within f) (CompileError.Within f) := by
  unfold distinct
  split
  · exact carries_throw fun _ same => by cases same
  · exact carries_pure within

section

variable (operations : c.options.operations.Within f) (text : f.covers (.builtin .string))

include operations text

/-- What a field reads is covered, and so is its type. -/
theorem target_within {parent : ParentType} (within : parent.Within f) {head : FieldHead} {target : FieldTarget}
    {type : TypeRef} (targeted : c.target parent head = .ok (target, type)) :
    target.Within f ∧ f.covers type.namedType := by
  unfold Compiler.target at targeted
  simp only at targeted
  split at targeted
  · split at targeted
    · cases targeted
    · cases targeted
      exact ⟨trivial, text⟩
  · split at targeted
    · split at targeted
      · cases targeted
      · next operation found =>
        have covered := operations _ _ _ found
        split at targeted
        · cases targeted
        · cases targeted
          exact ⟨covered.reads, covered.output⟩
    · next d =>
      split at targeted
      · cases targeted
      · split at targeted
        · next object kind =>
          split at targeted
          · next index declared position found =>
            cases targeted
            have fields : d.objectFields? = some object := by rw [TypeDescriptor.objectFields?, kind]
            exact ⟨within, within _ (TypeDescriptor.mem_references fields (List.mem_of_find?_eq_some found))⟩
          · cases targeted
        · next shape kind =>
          split at targeted
          · next declared found =>
            cases targeted
            refine ⟨trivial, within _ ?_⟩
            unfold TypeDescriptor.references
            rw [kind]
            exact List.mem_append_left _ (List.mem_map.2 ⟨declared, List.mem_of_find?_eq_some found, rfl⟩)
          · cases targeted
        · cases targeted

end

section

variable (firm : f.Firm c.options.host) (operations : c.options.operations.Within f)
  (text : f.covers (.builtin .string))

include firm

theorem describe_carries {type : NamedType} (covered : f.covers type) :
    f.Carries (c.options.host.describe type).inPlan (fun d => ∀ other ∈ d.references, f.covers other)
      (CompileError.Within f) := by
  refine ((firm.describes covered).mono (fun _ fits => fits.references) fun _ refused => refused).adapt _ ?_
  rintro e refused _ ⟨⟩
  exact refused

theorem findNamed_carries (name : String) : ∀ types : List NamedType, (∀ type ∈ types, f.covers type) →
    f.Carries (c.findNamed name types) (fun found => ∀ d, found = some d → ∀ other ∈ d.references, f.covers other)
      (CompileError.Within f)
  | [], _ => carries_pure fun _ none => by cases none
  | type :: rest, covered => by
    obtain ⟨here, others⟩ := List.forall_mem_cons.1 covered
    rw [findNamed]
    refine (describe_carries firm here).bind fun d within => ?_
    split
    · refine carries_pure fun _ found => ?_
      cases found
      exact within
    · exact findNamed_carries name rest others

theorem narrow_carries {parent : ParentType} (within : parent.Within f) (on : Located String)
    (current : Option NamedType) :
    f.Carries (c.narrow parent on current) (fun narrowed => narrowed.1.Within f) (CompileError.Within f) := by
  unfold narrow
  split
  · exact carries_pure within
  · refine (findNamed_carries firm on.value parent.candidates within.candidates).bind fun found each => ?_
    cases found with
    | some d => exact carries_pure (each d rfl)
    | none => exact carries_throw fun _ same => by cases same

include operations text

theorem field_carries {parent : ParentType} (within : parent.Within f) (inherited : List Condition) (head : FieldHead)
    (hasSelection : Bool) {select : TypeDescriptor → CompileM (List FieldPlan)}
    (selects : ∀ d : TypeDescriptor, (∀ other ∈ d.references, f.covers other) →
      f.Carries (select d) (fun fields => ∀ field ∈ fields, field.Within f) (CompileError.Within f)) :
    f.Carries (c.field parent condition inherited head hasSelection select) (FieldPlan.Within f)
      (CompileError.Within f) := by
  have checked : f.Carries (head.arguments.forM fun argument => (c.checkVariables argument.value : CompileM Unit))
      (fun _ => True) (CompileError.Within f) :=
    carries_forM head.arguments fun argument _ =>
      (carries_undescribed (checkVariables_undescribed _)).mono (fun _ _ => trivial) fun _ within => within
  unfold Compiler.field
  refine (carries_undescribed (conditions_undescribed _)).bind fun own _ => checked.then_ ?_
  refine (carries_undescribed (target_undescribed parent head)).bind fun targeted found => ?_
  obtain ⟨target, type⟩ := targeted
  obtain ⟨reads, covered⟩ := target_within operations text within found
  refine (describe_carries firm covered).bind fun d references => ?_
  have ends (below : List FieldPlan) (each : ∀ field ∈ below, field.Within f) :
      (c.assemble parent condition (inherited ++ own) head target type below).Within f := .intro covered reads each
  simp only
  split
  · split
    · exact carries_throw fun _ same => by cases same
    · exact carries_pure (ends [] (List.forall_mem_nil _))
  · split
    · exact (selects d references).bind fun below each => carries_pure (ends below each)
    · exact carries_throw fun _ same => by cases same

/-- Selections on covered types are compiled to fields on covered types. -/
theorem collect_carries (stack : List String) {parent : ParentType} (within : parent.Within f)
    (condition : Option NamedType) (directives : List Condition) (selections : List Selection) :
    f.Carries (c.collect stack parent condition directives selections) (fun fields => ∀ field ∈ fields, field.Within f)
      (CompileError.Within f) := by
  cases written : selections with
  | nil =>
    rw [collect]
    exact carries_pure (List.forall_mem_nil _)
  | cons first rest =>
    have after := collect_carries stack within condition directives rest
    have joins {inner : CompileM (List FieldPlan)}
        (carries : f.Carries inner (fun fields => ∀ field ∈ fields, field.Within f) (CompileError.Within f)) :
        f.Carries (do return (← inner) ++ (← c.collect stack parent condition directives rest))
          (fun fields => ∀ field ∈ fields, field.Within f) (CompileError.Within f) :=
      carries.bind fun first each => after.bind fun others each' => carries_pure (List.forall_mem_append.2 ⟨each, each'⟩)
    cases first with
    | field head selection =>
      rw [collect]
      have selects (d : TypeDescriptor) (references : ∀ other ∈ d.references, f.covers other) :
          f.Carries (c.collect stack (.described d) none [] selection >>= distinct (.described d))
            (fun fields => ∀ field ∈ fields, field.Within f) (CompileError.Within f) :=
        have below : (ParentType.described d).Within f := references
        (collect_carries stack below none [] selection).bind fun _ each => distinct_carries each
      exact (field_carries firm operations text within directives head (!selection.isEmpty) selects).bind
        fun field here => after.bind fun others each => carries_pure (List.forall_mem_cons.2 ⟨here, each⟩)
    | spread location name own =>
      rw [collect]
      split
      · exact carries_throw fun _ same => by cases same
      · next fragment found =>
        split
        · exact carries_throw fun _ same => by cases same
        · next outside =>
          refine (carries_undescribed (conditions_undescribed _)).bind fun conditions _ => ?_
          refine (narrow_carries firm within fragment.condition condition).bind fun narrowed below => ?_
          exact joins (collect_carries (name :: stack) below narrowed.2 (directives ++ conditions) fragment.selection)
    | inline on own selection =>
      rw [collect]
      refine (carries_undescribed (conditions_undescribed _)).bind fun conditions _ => ?_
      cases on with
      | none => exact joins (collect_carries stack within condition (directives ++ conditions) selection)
      | some type =>
        refine (narrow_carries firm within type condition).bind fun narrowed below => ?_
        exact joins (collect_carries stack below narrowed.2 (directives ++ conditions) selection)
termination_by (c.remaining stack, sizeOf selections)
decreasing_by
  · exact Prod.Lex.right _ (by simp only [List.cons.sizeOf_spec]; omega)
  · exact Prod.Lex.right _ (by simp only [List.cons.sizeOf_spec, Selection.field.sizeOf_spec]; omega)
  · exact Prod.Lex.left _ _ (remaining_cons_lt ‹_› ‹_›)
  · exact Prod.Lex.right _ (by simp only [List.cons.sizeOf_spec, Selection.inline.sizeOf_spec]; omega)
  · exact Prod.Lex.right _ (by simp only [List.cons.sizeOf_spec, Selection.inline.sizeOf_spec]; omega)

end

end Compiler

theorem Operations.select_undescribed (operations : Operations) (operationName : Option String) :
    Undescribed (operations.select operationName) := by
  intro e failed
  unfold Operations.select at failed
  split at failed
  · cases failed
  · cases failed
  · split at failed <;> cases failed
  · cases failed
  · cases failed
  · cases failed

section

variable {options : CompileOptions} (firm : f.Firm options.host) (operations : options.operations.Within f)
  (text : f.covers (.builtin .string))

include firm operations text

theorem compileDocument_carries (document : Document) (operationName : Option String) :
    f.Carries (compileDocument options document operationName) (Plan.Within f) (CompileError.Within f) := by
  unfold compileDocument
  refine (carries_undescribed (document.operations.select_undescribed operationName)).bind fun selected _ => ?_
  obtain ⟨name, operation⟩ := selected
  have root : (ParentType.root operation.kind).Within f := trivial
  refine (Compiler.collect_carries firm operations text [] root none [] operation.selection).bind fun all each => ?_
  refine (Compiler.distinct_carries each).bind fun fields each => ?_
  simp only
  split
  · exact carries_throw_bind fun _ same => by cases same
  · exact carries_pure each

/-- On a firm footing that covers the operations requests compile to plans on covered types, or a type is refused. -/
theorem compile_carries (query : String) (operationName : Option String) :
    f.Carries (compile options query operationName) (Plan.Within f) (CompileError.Within f) := by
  unfold compile
  split
  · exact carries_throw fun _ same => by cases same
  · exact compileDocument_carries firm operations text _ _

end

end GraphQL
