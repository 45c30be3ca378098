import GraphQL.Proofs.Plan.Failures
import GraphQL.Proofs.Plan.Nesting

/-!
# Fragments that spread themselves

An operation leads to the fragments that it spreads, and to those that these spread in turn. Compiling fails for a
fragment that spreads itself only if the operation leads to one, and if it succeeds then all fragments to which the
operation leads are defined and none of them comes back to itself. Compiling ends either way: calls nest no deeper
than `Document.nesting`.
-/

namespace GraphQL

/-- Some spreads lead to a fragment: it is spread, or a fragment to which they lead spreads it. -/
def LeadTo (fragments : Entries FragmentDefinition) (spreads : List String) (name : String) : Prop :=
  ∃ first ∈ spreads, Relation.ReflTransGen (Spreads fragments) first name

/-- Some spreads lead to a fragment that comes back to itself. -/
def OnCycle (fragments : Entries FragmentDefinition) (spreads : List String) (name : String) : Prop :=
  LeadTo fragments spreads name ∧ Relation.TransGen (Spreads fragments) name name

section

variable {fragments : Entries FragmentDefinition} {name : String}

theorem leadTo_nil : ¬LeadTo fragments [] name := by
  rintro ⟨first, mem, -⟩
  cases mem

theorem leadTo_append {spreads others : List String} :
    LeadTo fragments (spreads ++ others) name ↔ LeadTo fragments spreads name ∨ LeadTo fragments others name := by
  unfold LeadTo
  simp only [List.mem_append, or_and_right, exists_or]

/-- A fragment leads to itself, and to all to which its selection leads. -/
theorem leadTo_singleton {outer : String} {fragment : FragmentDefinition}
    (found : Entries.find? outer fragments = some fragment) :
    LeadTo fragments [outer] name ↔ name = outer ∨ LeadTo fragments (Selection.spreadsAll fragment.selection) name := by
  constructor
  · rintro ⟨first, mem, path⟩
    cases List.mem_singleton.1 mem
    rcases Relation.ReflTransGen.cases_head path with rfl | ⟨next, ⟨fragment', found', mem⟩, path⟩
    · exact Or.inl rfl
    · rw [found] at found'
      cases found'
      exact Or.inr ⟨next, mem, path⟩
  · rintro (rfl | ⟨next, mem, path⟩)
    · exact ⟨name, List.mem_singleton_self _, .refl⟩
    · exact ⟨outer, List.mem_singleton_self _, .head ⟨fragment, found, mem⟩ path⟩

theorem LeadTo.inside {spreads : List String} {inner : String} {fragment : FragmentDefinition}
    (leads : LeadTo fragments spreads name) (found : Entries.find? name fragments = some fragment)
    (mem : inner ∈ Selection.spreadsAll fragment.selection) : LeadTo fragments spreads inner := by
  obtain ⟨first, root, path⟩ := leads
  exact ⟨first, root, path.tail ⟨fragment, found, mem⟩⟩

/-- A fragment comes back to itself if its selection leads to it. -/
theorem leadTo_of_cycle {fragment : FragmentDefinition} (found : Entries.find? name fragments = some fragment)
    (cycle : Relation.TransGen (Spreads fragments) name name) :
    LeadTo fragments (Selection.spreadsAll fragment.selection) name := by
  obtain ⟨next, ⟨fragment', found', mem⟩, path⟩ := Relation.TransGen.head'_iff.1 cycle
  rw [found] at found'
  cases found'
  exact ⟨next, mem, path⟩

end

namespace Compiler

variable {c : Compiler}

/-! ## What has been compiled -/

/-- The fragments to which a compiled selection leads are defined, are not being compiled around it, and do not come
back to themselves. -/
theorem Collects.leads {stack : List String} {parent : ParentType} {condition : Option NamedType}
    {directives : List Condition} {selections : List Selection} {fields : List FieldPlan} {r r' : Registry}
    (collects : c.Collects stack parent condition directives selections r fields r') {name : String}
    (leads : LeadTo c.fragments (Selection.spreadsAll selections) name) :
    (∃ fragment, Entries.find? name c.fragments = some fragment) ∧ name ∉ stack ∧
      ¬Relation.TransGen (Spreads c.fragments) name name := by
  induction collects with
  | nil => exact absurd leads leadTo_nil
  | leaf _ _ _ others => exact others leads
  | nested _ _ _ _ _ _ below others => exact (leadTo_append.1 leads).elim below others
  | spread found outside _ _ _ _ within others =>
    rcases leadTo_append.1 leads with here | after
    · rcases (leadTo_singleton found).1 here with rfl | inside
      · refine ⟨⟨_, found⟩, outside, fun cycle => ?_⟩
        exact (within (leadTo_of_cycle found cycle)).2.1 List.mem_cons_self
      · obtain ⟨defined, outside, acyclic⟩ := within inside
        exact ⟨defined, fun mem => outside (List.mem_cons_of_mem _ mem), acyclic⟩
    · exact others after
  | inline _ _ _ _ within others => exact (leadTo_append.1 leads).elim within others

/-! ## How compiling fails

A fragment cycle is reported at a spread and nowhere else. -/

/-- If the error is that a fragment references itself, then something holds of that fragment. -/
def Blames (cyclic : String → Prop) (e : CompileError) : Prop :=
  ∀ name location, e = .fragmentCycle name location → cyclic name

variable {within : CompileError → Prop}

/-- A fragment that is reported is on a cycle: the roots lead to all that is spread, and so does every fragment
around, of which the one that is reported is one. -/
theorem collectTo_fails (ofSelection : ∀ e : CompileError, e.OfSelection → within e) {roots : List String}
    (ofCycle : ∀ name location, OnCycle c.fragments roots name → within (.fragmentCycle name location)) (depth : Nat)
    (stack : List String) (parent : ParentType) (condition : Option NamedType) (directives : List Condition)
    (selections : List Selection)
    (led : ∀ name ∈ Selection.spreadsAll selections, LeadTo c.fragments roots name)
    (around : ∀ outer ∈ stack, ∀ name ∈ Selection.spreadsAll selections,
      Relation.TransGen (Spreads c.fragments) outer name) :
    FailsOnly within (c.collectTo (fun _ _ _ _ _ => pure []) depth stack parent condition directives selections) := by
  have conditional (own : List Directive) : FailsOnly within (liftM (c.conditions own) : CompileM (List Condition)) :=
    failsOnly_lift fun e failed => ofSelection e (conditions_fails failed)
  have narrowing (parent : ParentType) (on : Located String) (current : Option NamedType) :=
    (narrow_fails (c := c) parent on current).mono ofSelection
  induction depth generalizing stack parent condition directives selections with
  | zero => exact failsOnly_pure _
  | succ depth ih =>
    cases selections with
    | nil => exact failsOnly_pure _
    | cons first rest =>
      rw [Selection.spreadsAll] at led around
      have others (parent : ParentType) (condition : Option NamedType) (directives : List Condition) :=
        ih stack parent condition directives rest (fun name mem => led name (List.mem_append_right _ mem))
          fun outer open' name mem => around outer open' name (List.mem_append_right _ mem)
      cases first with
      | field head selection =>
        rw [Selection.spreads] at led around
        have inside (type : TypeDescriptor) :=
          ih stack (.described type) none [] selection (fun name mem => led name (List.mem_append_left _ mem))
            fun outer open' name mem => around outer open' name (List.mem_append_left _ mem)
        rw [collectTo]
        refine (field_fails ofSelection fun type => (inside type).bind fun _ => ?_).bind fun _ => ?_
        · exact (distinct_fails _ _).mono ofSelection
        exact (others parent condition directives).bind fun _ => failsOnly_pure _
      | spread location name own =>
        rw [Selection.spreads] at led around
        have here : name ∈ [name] ++ Selection.spreadsAll rest := List.mem_append_left _ (List.mem_singleton_self _)
        rw [collectTo]
        cases found : Entries.find? name c.fragments with
        | none => exact failsOnly_throw (ofSelection (.unknownFragment name location) trivial)
        | some fragment =>
          simp only
          by_cases again : name ∈ stack
          · rw [if_pos again]
            exact failsOnly_throw (ofCycle name location ⟨led name here, around name again name here⟩)
          · rw [if_neg again]
            have inside (narrowed : ParentType) (concrete : Option NamedType) (within : List Condition) :=
              ih (name :: stack) narrowed concrete within fragment.selection
                (fun inner mem => (led name here).inside found mem) (by
                  intro outer open' inner mem
                  have step : Spreads c.fragments name inner := ⟨fragment, found, mem⟩
                  rcases List.mem_cons.1 open' with rfl | open'
                  · exact .single step
                  · exact .tail (around outer open' name here) step)
            refine (conditional own).bind fun conditions => ?_
            refine (narrowing parent fragment.condition condition).bind fun narrowed => ?_
            refine (inside narrowed.1 narrowed.2 (directives ++ conditions)).bind fun _ => ?_
            exact (others parent condition directives).bind fun _ => failsOnly_pure _
      | inline on own selection =>
        rw [Selection.spreads] at led around
        have inside (narrowed : ParentType) (concrete : Option NamedType) (within : List Condition) :=
          ih stack narrowed concrete within selection (fun name mem => led name (List.mem_append_left _ mem))
            fun outer open' name mem => around outer open' name (List.mem_append_left _ mem)
        have ends (narrowed : ParentType × Option NamedType) (within : List Condition) :=
          (inside narrowed.1 narrowed.2 within).bind fun inner =>
            (others parent condition directives).bind fun after => failsOnly_pure (inner ++ after)
        rw [collectTo]
        refine (conditional own).bind fun conditions => ?_
        cases on with
        | none => exact ends (parent, condition) (directives ++ conditions)
        | some type =>
          exact (narrowing parent type condition).bind fun narrowed => ends narrowed (directives ++ conditions)

end Compiler

/-- Once its operation is selected, a document fails in a selection, or at a fragment on a cycle to which the
operation leads. -/
theorem compileDocument_fails {options : CompileOptions} {document : Document} {operationName name : Option String}
    {operation : OperationDefinition} {within : CompileError → Prop}
    (selected : document.operations.select operationName = .ok (name, operation))
    (ofSelection : ∀ e : CompileError, e.OfSelection → within e)
    (ofCycle : ∀ fragment location, OnCycle document.fragments (Selection.spreadsAll operation.selection) fragment →
      within (.fragmentCycle fragment location)) :
    FailsOnly within (compileDocument options document operationName) := by
  rw [← compileDocumentTo_eq (fun _ _ _ _ _ => pure []) options (Nat.le_refl _) operationName]
  unfold compileDocumentTo
  rw [selected, lift_ok_bind]
  have collected (declared : List String) :=
    Compiler.collectTo_fails (c := ⟨options, document.fragments, declared⟩) ofSelection ofCycle document.nesting []
      (.root operation.kind) none [] operation.selection (fun name mem => ⟨name, mem, .refl⟩)
      fun outer open' => absurd open' List.not_mem_nil
  refine (collected _).bind fun _ => ((Compiler.distinct_fails _ _).mono ofSelection).bind fun selection => ?_
  split
  · have several := ofSelection (.subscriptionRootFields (name.getD "<anonymous>") selection.length operation.location)
    exact (failsOnly_throw (several trivial)).bind fun _ => failsOnly_pure _
  · exact failsOnly_pure _

/-- A fragment cycle that is reported is one to which the operation leads. -/
theorem compileDocument_blames {options : CompileOptions} {document : Document} {operationName name : Option String}
    {operation : OperationDefinition} (selected : document.operations.select operationName = .ok (name, operation)) :
    FailsOnly (Compiler.Blames (OnCycle document.fragments (Selection.spreadsAll operation.selection)))
      (compileDocument options document operationName) := by
  refine compileDocument_fails selected ?_ ?_
  · rintro e ofSelection fragment location rfl
    exact ofSelection.elim
  · rintro fragment location onCycle _ _ ⟨⟩
    exact onCycle

/-- Compiling ends, with nothing called beyond the nesting of the document. It reports a fragment cycle only for a
fragment on a cycle to which the selected operation leads, and if it succeeds, then all fragments to which that
operation leads are defined and none is on a cycle. -/
theorem compileDocument_acyclic (options : CompileOptions) (document : Document) (operationName : Option String) :
    (∀ beyond depth, document.nesting ≤ depth →
      compileDocumentTo beyond depth options document operationName = compileDocument options document operationName) ∧
    (∀ r r' fragment location,
      outcome (compileDocument options document operationName) r = (.error (.fragmentCycle fragment location), r') →
      ∃ name operation, document.operations.select operationName = .ok (name, operation) ∧
        OnCycle document.fragments (Selection.spreadsAll operation.selection) fragment) ∧
    ∀ r r' plan, outcome (compileDocument options document operationName) r = (.ok plan, r') →
      ∃ name operation, document.operations.select operationName = .ok (name, operation) ∧
        ∀ fragment, LeadTo document.fragments (Selection.spreadsAll operation.selection) fragment →
          (Entries.find? fragment document.fragments).isSome ∧
          ¬Relation.TransGen (Spreads document.fragments) fragment fragment := by
  refine ⟨fun beyond depth enough => compileDocumentTo_eq beyond options enough operationName, ?_, ?_⟩
  · intro r r' fragment location failed
    cases selected : document.operations.select operationName with
    | error e =>
      rw [compileDocument_unselected selected] at failed
      cases failed
      obtain ⟨_, _, other⟩ | ⟨_, other | other⟩ := Operations.select_fails selected <;> cases other
    | ok found =>
      obtain ⟨name, operation⟩ := found
      exact ⟨name, operation, rfl, compileDocument_blames selected r r' _ failed fragment location rfl⟩
  · intro r r' plan ran
    obtain ⟨name, operation, selected, _, _, collects, _, _⟩ := compileDocument_eq_ok ran
    refine ⟨name, operation, selected, ?_⟩
    intro fragment leads
    obtain ⟨⟨definition, found⟩, -, acyclic⟩ := collects.leads leads
    exact ⟨Option.isSome_iff_exists.2 ⟨definition, found⟩, acyclic⟩

end GraphQL
