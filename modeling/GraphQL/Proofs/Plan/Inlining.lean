import GraphQL.Proofs.Plan.Compiled
import GraphQL.Proofs.Plan.Occurrences
import GraphQL.Proofs.Registry.Growth

/-!
# Fragments are inlined

Spreading a fragment is the same as writing its selection in place, under its type condition and with
the directives of the spread. `Document.inlined` writes all selections of a document like this, and
compiling does not see the difference: it gives the same plan or fails with the same error. Where the
selections have no spreads left, the fields of a plan can be read off them in order, each with the
directives around it and its own.
-/

namespace GraphQL

namespace Selection

/-- Selections with every spread replaced by the selection of the fragment in place. A fragment that is
not defined, or is one of the stack of those that are being replaced, stays as it is. -/
def inlined (fragments : Entries FragmentDefinition) (stack : List String) : List Selection → List Selection
  | [] => []
  | .field head selection :: rest =>
    .field head (inlined fragments stack selection) :: inlined fragments stack rest
  | .spread location name own :: rest =>
    match _hf : Entries.find? name fragments with
    | none => .spread location name own :: inlined fragments stack rest
    | some fragment =>
      if _hs : name ∈ stack then .spread location name own :: inlined fragments stack rest
      else
        .inline (some fragment.condition) own (inlined fragments (name :: stack) fragment.selection) ::
          inlined fragments stack rest
  | .inline on own selection :: rest =>
    .inline on own (inlined fragments stack selection) :: inlined fragments stack rest
termination_by selections => (((Entries.keys fragments).filter (· ∉ stack)).length, sizeOf selections)
decreasing_by
  · exact Prod.Lex.right _ (by simp only [List.cons.sizeOf_spec, Selection.field.sizeOf_spec]; omega)
  · exact Prod.Lex.right _ (by simp only [List.cons.sizeOf_spec]; omega)
  · exact Prod.Lex.right _ (by simp only [List.cons.sizeOf_spec]; omega)
  · exact Prod.Lex.right _ (by simp only [List.cons.sizeOf_spec]; omega)
  · exact Prod.Lex.left _ _ (filter_notMem_cons_lt (Entries.mem_keys_of_find? _hf) _hs)
  · exact Prod.Lex.right _ (by simp only [List.cons.sizeOf_spec]; omega)
  · exact Prod.Lex.right _ (by simp only [List.cons.sizeOf_spec, Selection.inline.sizeOf_spec]; omega)
  · exact Prod.Lex.right _ (by simp only [List.cons.sizeOf_spec]; omega)

end Selection

/-- One fragment spreads another. -/
def Spreads (fragments : Entries FragmentDefinition) (outer inner : String) : Prop :=
  ∃ fragment, Entries.find? outer fragments = some fragment ∧ inner ∈ Selection.spreadsAll fragment.selection

namespace Operations

/-- The operations with their definitions changed. -/
def map (f : OperationDefinition → OperationDefinition) : Operations → Operations
  | .anonymous operation => .anonymous (f operation)
  | .named operations => .named (operations.map fun entry => (entry.1, f entry.2))

end Operations

namespace Document

/-- The selections of the operations and fragments of a document. -/
def selections (document : Document) : List (List Selection) :=
  document.operations.all.map (·.selection) ++ document.fragments.map (·.2.selection)

/-- The document with every spread replaced, in its operations and in its fragments. -/
def inlined (document : Document) : Document :=
  { operations := document.operations.map fun operation =>
      { operation with selection := Selection.inlined document.fragments [] operation.selection }
    fragments := document.fragments.map fun entry =>
      (entry.1, { entry.2 with selection := Selection.inlined document.fragments [] entry.2.selection }) }

/-- A document whose spreads are all of defined fragments, none of which comes back to itself. -/
structure Inlinable (document : Document) : Prop where
  defined : ∀ selections ∈ document.selections, ∀ name ∈ Selection.spreadsAll selections,
    Entries.contains name document.fragments = true
  acyclic : ∀ name, ¬Relation.TransGen (Spreads document.fragments) name name

end Document

/-! ## Replacing spreads -/

section

variable {fragments : Entries FragmentDefinition}

/-- Selections that may be met while the fragments of a stack are being replaced: what they spread is
defined, and is spread by each fragment of the stack in turn. -/
structure Reached (fragments : Entries FragmentDefinition) (stack : List String) (selections : List Selection) :
    Prop where
  defined : ∀ name ∈ Selection.spreadsAll selections, Entries.contains name fragments = true
  within : ∀ outer ∈ stack, ∀ name ∈ Selection.spreadsAll selections, Relation.TransGen (Spreads fragments) outer name

namespace Reached

variable {stack : List String} {selection : Selection} {selections others : List Selection}

/-- Of what is met, every part that spreads nothing else is met too. -/
theorem part (reached : Reached fragments stack selections) {part : List Selection}
    (sub : ∀ name ∈ Selection.spreadsAll part, name ∈ Selection.spreadsAll selections) :
    Reached fragments stack part :=
  ⟨fun name mem => reached.defined name (sub name mem), fun outer open' name mem =>
    reached.within outer open' name (sub name mem)⟩

theorem tail (reached : Reached fragments stack (selection :: others)) : Reached fragments stack others := by
  apply reached.part
  intro name mem
  rw [Selection.spreadsAll]
  exact List.mem_append_right _ mem

theorem below (reached : Reached fragments stack (selection :: others))
    (inside : selection.spreads = Selection.spreadsAll selections) : Reached fragments stack selections := by
  apply reached.part
  intro name mem
  rw [Selection.spreadsAll, inside]
  exact List.mem_append_left _ mem

end Reached

/-- The selection of a fragment is met once the fragment is: it is defined, and not being replaced. -/
theorem Reached.fragment {document : Document} (inlinable : document.Inlinable) {stack : List String}
    {location : Location} {name : String} {own : List Directive} {rest : List Selection}
    (reached : Reached document.fragments stack (.spread location name own :: rest)) :
    ∃ fragment, Entries.find? name document.fragments = some fragment ∧ name ∉ stack ∧
      Reached document.fragments (name :: stack) fragment.selection := by
  have here : name ∈ Selection.spreadsAll (.spread location name own :: rest) := by
    simp [Selection.spreadsAll, Selection.spreads]
  obtain ⟨fragment, found⟩ := Option.isSome_iff_exists.1 (reached.defined name here)
  have outside : name ∉ stack := fun open' => inlinable.acyclic name (reached.within name open' name here)
  have listed : fragment.selection ∈ document.selections := by
    refine List.mem_append_right _ (List.mem_map.2 ⟨(name, fragment), Entries.mem_of_find? found, rfl⟩)
  refine ⟨fragment, found, outside, inlinable.defined _ listed, ?_⟩
  intro outer open' inner mem
  have step : Spreads document.fragments name inner := ⟨fragment, found, mem⟩
  rcases List.mem_cons.1 open' with rfl | open'
  · exact .single step
  · exact .tail (reached.within outer open' name here) step

theorem Reached.start {document : Document} (inlinable : document.Inlinable) {selections : List Selection}
    (mem : selections ∈ document.selections) : Reached document.fragments [] selections :=
  ⟨inlinable.defined selections mem, fun _ open' => absurd open' List.not_mem_nil⟩

theorem isEmpty_inlined (stack : List String) (selections : List Selection) :
    (Selection.inlined fragments stack selections).isEmpty = selections.isEmpty := by
  cases selections with
  | nil => rw [Selection.inlined]
  | cons first rest =>
    cases first with
    | field head selection => rw [Selection.inlined]; rfl
    | inline on own selection => rw [Selection.inlined]; rfl
    | spread location name own =>
      rw [Selection.inlined]
      split
      · rfl
      · split <;> rfl

/-- Where all spreads can be replaced, none are left. -/
theorem spreadsAll_inlined {document : Document} (inlinable : document.Inlinable) (stack : List String)
    (selections : List Selection) (reached : Reached document.fragments stack selections) :
    Selection.spreadsAll (Selection.inlined document.fragments stack selections) = [] := by
  fun_induction Selection.inlined document.fragments stack selections with
  | case1 => rfl
  | case2 stack head selection rest inside others =>
    rw [Selection.spreadsAll, Selection.spreads, inside (reached.below rfl), others reached.tail, List.nil_append]
  | case3 stack location name own rest missing =>
    obtain ⟨fragment, found, _⟩ := reached.fragment inlinable
    rw [missing] at found
    cases found
  | case4 stack location name own rest fragment found open' =>
    obtain ⟨_, _, outside, _⟩ := reached.fragment inlinable
    exact absurd open' outside
  | case5 stack location name own rest fragment found outside inside others =>
    obtain ⟨fragment', found', _, inner⟩ := reached.fragment inlinable
    rw [found] at found'
    cases found'
    rw [Selection.spreadsAll, Selection.spreads, inside inner, others reached.tail, List.nil_append]
  | case6 stack on own selection rest inside others =>
    rw [Selection.spreadsAll, Selection.spreads, inside (reached.below rfl), others reached.tail, List.nil_append]

namespace Compiler

variable {c : Compiler} (other : Entries FragmentDefinition)

theorem conditions_fragments (directives : List Directive) :
    ({ c with fragments := other } : Compiler).conditions directives = c.conditions directives := rfl

theorem findNamed_fragments (name : String) (types : List NamedType) :
    ({ c with fragments := other } : Compiler).findNamed name types = c.findNamed name types := by
  induction types with
  | nil => rfl
  | cons type rest ih => rw [findNamed, findNamed, ih]

theorem narrow_fragments (parent : ParentType) (on : Located String) (current : Option NamedType) :
    ({ c with fragments := other } : Compiler).narrow parent on current = c.narrow parent on current := by
  rw [narrow, narrow, findNamed_fragments]

theorem field_fragments (parent : ParentType) (condition : Option NamedType) (inherited : List Condition)
    (head : FieldHead) (hasSelection : Bool) (select : TypeDescriptor → CompileM (List FieldPlan)) :
    ({ c with fragments := other } : Compiler).field parent condition inherited head hasSelection select =
      c.field parent condition inherited head hasSelection select := rfl

/-- What compiling the spread of a fragment comes to if the fragment is not being compiled already. -/
theorem collect_spread {stack : List String} {parent : ParentType} {condition : Option NamedType}
    {directives : List Condition} {location : Location} {name : String} {own : List Directive}
    {rest : List Selection} {fragment : FragmentDefinition} (found : Entries.find? name c.fragments = some fragment)
    (outside : name ∉ stack) :
    c.collect stack parent condition directives (.spread location name own :: rest) = do
      let within := directives ++ (← c.conditions own)
      let (narrowed, concrete) ← c.narrow parent fragment.condition condition
      let inner ← c.collect (name :: stack) narrowed concrete within fragment.selection
      return inner ++ (← c.collect stack parent condition directives rest) := by
  rw [collect]
  split
  · next missing =>
    rw [found] at missing
    cases missing
  · next other found' =>
    rw [found] at found'
    cases found'
    rw [dif_neg outside]

/-- Compiling selections comes to the same when their spreads are replaced, whatever fragments there are then. -/
theorem collect_inlined {document : Document} (inlinable : document.Inlinable) (same : c.fragments = document.fragments)
    (stack : List String) (selections : List Selection) (reached : Reached document.fragments stack selections)
    (open' : List String) (parent : ParentType) (condition : Option NamedType) (directives : List Condition) :
    ({ c with fragments := other } : Compiler).collect open' parent condition directives
        (Selection.inlined document.fragments stack selections) =
      c.collect stack parent condition directives selections := by
  fun_induction Selection.inlined document.fragments stack selections
      generalizing open' parent condition directives with
  | case1 => rw [collect, collect]
  | case2 stack head selection rest inside others =>
    rw [collect, collect, isEmpty_inlined, field_fragments]
    simp only [inside (reached.below rfl), others reached.tail]
  | case3 stack location name own rest missing =>
    obtain ⟨fragment, found, _⟩ := reached.fragment inlinable
    rw [missing] at found
    cases found
  | case4 stack location name own rest fragment found within =>
    obtain ⟨_, _, outside, _⟩ := reached.fragment inlinable
    exact absurd within outside
  | case5 stack location name own rest fragment found outside inside others =>
    obtain ⟨fragment', found', _, inner⟩ := reached.fragment inlinable
    rw [found] at found'
    cases found'
    rw [collect_spread (same ▸ found) outside, collect]
    simp only [conditions_fragments, narrow_fragments, inside inner, others reached.tail]
  | case6 stack on own selection rest inside others =>
    rw [collect, collect]
    cases on with
    | none => simp only [conditions_fragments, inside (reached.below rfl), others reached.tail]
    | some type =>
      simp only [conditions_fragments, narrow_fragments, inside (reached.below rfl), others reached.tail]

end Compiler

theorem Operations.select_map (operations : Operations) (f : OperationDefinition → OperationDefinition)
    (operationName : Option String) :
    (operations.map f).select operationName =
      (operations.select operationName).map fun selected => (selected.1, f selected.2) := by
  cases operations with
  | anonymous operation => cases operationName <;> rfl
  | named operations =>
    cases operationName with
    | none =>
      cases operations with
      | nil => rfl
      | cons entry rest => cases rest <;> rfl
    | some name =>
      have found : Entries.find? name (operations.map fun entry => (entry.1, f entry.2)) =
          (Entries.find? name operations).map f := by
        induction operations with
        | nil => rfl
        | cons entry rest ih =>
          obtain ⟨key, operation⟩ := entry
          rw [List.map_cons, Entries.find?, Entries.find?]
          split
          · rfl
          · exact ih
      rw [Operations.map, Operations.select, Operations.select, found]
      cases Entries.find? name operations <;> rfl

theorem Operations.all_map (operations : Operations) (f : OperationDefinition → OperationDefinition) :
    (operations.map f).all = operations.all.map f := by
  cases operations with
  | anonymous operation => rfl
  | named entries => simp [Operations.map, Operations.all]

/-- Compiling a document comes to the same, a plan or an error, when its spreads are replaced. -/
theorem compileDocument_inlined {document : Document} (inlinable : document.Inlinable) (options : CompileOptions)
    (operationName : Option String) :
    compileDocument options document.inlined operationName = compileDocument options document operationName := by
  unfold compileDocument Document.inlined
  rw [Operations.select_map]
  cases selected : document.operations.select operationName with
  | error e => rfl
  | ok found =>
    obtain ⟨name, operation⟩ := found
    have mem : operation.selection ∈ document.selections :=
      List.mem_append_left _ (List.mem_map.2 ⟨operation, Operations.mem_all_of_select selected, rfl⟩)
    have same (other : Entries FragmentDefinition) := Compiler.collect_inlined other
      (c := ⟨options, document.fragments, operation.variableDefinitions.map (·.name)⟩) inlinable rfl []
      operation.selection (.start inlinable mem) [] (.root operation.kind) none []
    simp only [Except.map, lift_ok_bind, same]

theorem spreadsAll_of_mem_inlined {document : Document} (inlinable : document.Inlinable) :
    ∀ selections ∈ document.inlined.selections, Selection.spreadsAll selections = [] := by
  have replaced {selections : List Selection} (mem : selections ∈ document.selections) :
      Selection.spreadsAll (Selection.inlined document.fragments [] selections) = [] :=
    spreadsAll_inlined inlinable [] selections (.start inlinable mem)
  intro selections mem
  rcases List.mem_append.1 mem with ofOperation | ofFragment
  · obtain ⟨operation, listed, rfl⟩ := List.mem_map.1 ofOperation
    rw [Document.inlined, Operations.all_map] at listed
    obtain ⟨original, there, rfl⟩ := List.mem_map.1 listed
    exact replaced (List.mem_append_left _ (List.mem_map.2 ⟨original, there, rfl⟩))
  · obtain ⟨entry, listed, rfl⟩ := List.mem_map.1 ofFragment
    obtain ⟨original, there, rfl⟩ := List.mem_map.1 listed
    exact replaced (List.mem_append_right _ (List.mem_map.2 ⟨original, there, rfl⟩))

/-- Spreads can be replaced by what they spread. In the document where they all are, nothing is left to
spread, and compiling gives the same plan or error. The fields of a plan are those that are written in it,
in order, with the directives around and on them, which alone decide which fields are kept. -/
theorem fragments_inlined {document : Document} (inlinable : document.Inlinable) (options : CompileOptions)
    (operationName : Option String) :
    (∀ selections ∈ document.inlined.selections, Selection.spreadsAll selections = []) ∧
    compileDocument options document operationName = compileDocument options document.inlined operationName ∧
    (∀ query, Document.parse query = .ok document →
      compile options query operationName = compileDocument options document.inlined operationName) ∧
    (∀ registry plan registry',
      outcome (compileDocument options document operationName) registry = (.ok plan, registry') →
        ∃ name operation, document.inlined.operations.select operationName = .ok (name, operation) ∧
          List.Forall₂ FieldPlan.Mirrors plan.selection (Selection.occurrencesAll [] operation.selection)) ∧
    ∀ (x : Execution) (field : FieldPlan), (∀ condition ∈ field.directives, (x.flag condition.value).isSome = true) →
      (∃ keep, x.isIncluded field = .ok keep ∧ (keep = true ↔ x.Wants field)) ∧
      ∀ selection concrete fields, field ∈ selection → x.collect selection concrete = .ok fields →
        (field ∈ fields ↔ Execution.appliesTo field concrete = true ∧ x.Wants field) := by
  have same := compileDocument_inlined inlinable options operationName
  have plain := spreadsAll_of_mem_inlined inlinable
  refine ⟨plain, same.symm, ?_, ?_, ?_⟩
  · intro query parsed
    unfold compile
    rw [parsed, same]
  · intro registry plan registry' ran
    rw [← same] at ran
    obtain ⟨name, operation, selected, _, _, collects, _⟩ := compileDocument_eq_ok ran
    have mem : operation.selection ∈ document.inlined.selections :=
      List.mem_append_left _ (List.mem_map.2 ⟨operation, Operations.mem_all_of_select selected, rfl⟩)
    exact ⟨name, operation, selected, collects.mirrors [] (plain _ mem) rfl⟩
  · intro x field flags
    exact ⟨Execution.isIncluded_iff_wants flags, fun _ _ _ mem ran => Execution.mem_collect_iff flags mem ran⟩

end

/-! ## A document with spreads

The query for a node in a fragment, which another fragment spreads, which the operation spreads under a
directive. -/

namespace SpreadQuery

def directive : Directive := ⟨.start, "include", [⟨⟨.start, "if"⟩, ⟨.start, .boolean true⟩⟩]⟩

def outer : FragmentDefinition := ⟨.start, "Outer", ⟨.start, "Query"⟩, [.spread .start "Inner" []]⟩

def inner : FragmentDefinition :=
  ⟨.start, "Inner", ⟨.start, "Query"⟩,
    [.field ⟨.start, none, "node", [], []⟩ [.field ⟨.start, none, "id", [], []⟩ []]]⟩

def document : Document :=
  { operations := .anonymous ⟨.start, .query, [], [.spread .start "Outer" [directive]]⟩
    fragments := [("Outer", outer), ("Inner", inner)] }

def nodeField : FieldPlan :=
  { responseKey := "node", aliased := false, name := "node", location := .start, condition := none
    directives := [.includeIf (.boolean true)], arguments := [], target := .operation NodeQuery.operation
    type := .named (.host 0) true, complexity := 2, selection := [NodeQuery.idField] }

def compiler : Compiler := ⟨NodeQuery.options, document.fragments, []⟩

def plan : Plan := { NodeQuery.plan with selection := [nodeField] }

theorem spreads_eq {one other : String} (spreads : Spreads document.fragments one other) :
    one = "Outer" ∧ other = "Inner" := by
  obtain ⟨fragment, found, mem⟩ := spreads
  have listed := Entries.mem_of_find? found
  simp only [document, List.mem_cons, List.not_mem_nil, or_false, Prod.mk.injEq] at listed
  obtain ⟨rfl, rfl⟩ | ⟨rfl, rfl⟩ := listed
  · simpa [outer, Selection.spreadsAll, Selection.spreads] using mem
  · simp [inner, Selection.spreadsAll, Selection.spreads] at mem

theorem inlinable : document.Inlinable := by
  constructor
  · decide
  · intro name cycle
    obtain ⟨_, first, _⟩ := Relation.TransGen.head'_iff.1 cycle
    obtain ⟨_, _, last⟩ := Relation.TransGen.tail'_iff.1 cycle
    have start : name = "Outer" := (spreads_eq first).1
    have ends : name = "Inner" := (spreads_eq last).2
    rw [start] at ends
    exact absurd ends (by decide)

/-- The registry that compiling leaves. -/
def registry : Registry :=
  (outcome (NodeQuery.host.describe (.builtin .string)) (outcome (NodeQuery.host.describe (.host 0)) {}).2).2

theorem plan_compiled : outcome (compileDocument NodeQuery.options document none) {} = (.ok plan, registry) := by
  have foundOuter : Entries.find? "Outer" compiler.fragments = some outer := rfl
  have foundInner : Entries.find? "Inner" compiler.fragments = some inner := rfl
  have checked : compiler.conditions [directive] = .ok [.includeIf (.boolean true)] := by with_unfolding_all rfl
  have ofInner : outcome (compiler.collect ["Inner", "Outer"] (.root .query) none [.includeIf (.boolean true)]
      inner.selection) {} = (.ok [nodeField], registry) := by
    simp only [inner, Compiler.collect]
    with_unfolding_all rfl
  have ofOuter : outcome (compiler.collect ["Outer"] (.root .query) none [.includeIf (.boolean true)]
      outer.selection) {} = (.ok [nodeField], registry) := by
    rw [outer, Compiler.collect_spread foundInner (by decide), Compiler.collect]
    exact outcome_bind_eq_ok.2 ⟨_, _, rfl, outcome_bind_eq_ok.2 ⟨_, _, rfl,
      outcome_bind_eq_ok.2 ⟨_, _, ofInner, rfl⟩⟩⟩
  have collected : outcome (compiler.collect [] (.root .query) none [] [.spread .start "Outer" [directive]]) {} =
      (.ok [nodeField], registry) := by
    rw [Compiler.collect_spread foundOuter (by decide), Compiler.collect, checked]
    exact outcome_bind_eq_ok.2 ⟨_, _, rfl, outcome_bind_eq_ok.2 ⟨_, _, rfl,
      outcome_bind_eq_ok.2 ⟨_, _, ofOuter, rfl⟩⟩⟩
  exact outcome_bind_eq_ok.2 ⟨_, _, rfl, outcome_bind_eq_ok.2 ⟨_, _, collected, rfl⟩⟩

/-- The document without its spreads is compiled to the same plan, whose field has the directive of the
spread around it and is kept. -/
theorem outer_inlined :
    document.Inlinable ∧
    compileDocument NodeQuery.options document none = compileDocument NodeQuery.options document.inlined none ∧
    (∃ name operation, document.inlined.operations.select none = .ok (name, operation) ∧
      List.Forall₂ FieldPlan.Mirrors plan.selection (Selection.occurrencesAll [] operation.selection)) ∧
    ∃ keep, (Execution.mk NodeQuery.host {} plan []).isIncluded nodeField = .ok keep ∧
      (keep = true ↔ (Execution.mk NodeQuery.host {} plan []).Wants nodeField) := by
  obtain ⟨_, same, _, mirrors, kept⟩ := fragments_inlined inlinable NodeQuery.options none
  have flags : ∀ condition ∈ nodeField.directives,
      ((Execution.mk NodeQuery.host {} plan []).flag condition.value).isSome = true := by
    intro condition mem
    cases List.mem_singleton.1 mem
    rfl
  exact ⟨inlinable, same, mirrors {} plan registry plan_compiled, (kept _ nodeField flags).1⟩

end SpreadQuery

end GraphQL
