import GraphQL.Proofs.Plan.Inlining

/-!
# How deep compiling nests

Compiling a selection goes into the fragments that it spreads, and from these into others. `Compiler.collectTo`
is that recursion with nothing known of its end: calls nest to a given depth, and what a deeper call would do is
left open. A document with few fragments and short selections is compiled within few calls, `Document.nesting`, so
that beyond these nothing is ever called: whatever is put there, `compileDocumentTo` compiles as `compileDocument`.
-/

namespace GraphQL

namespace Selection

mutual

/-- How many selections are written, those inside included. -/
def count : Selection → Nat
  | .field _ selection => countAll selection + 1
  | .spread .. => 1
  | .inline _ _ selection => countAll selection + 1

def countAll : List Selection → Nat
  | [] => 0
  | selection :: rest => count selection + countAll rest

end

end Selection

namespace Compiler

/-- A way to flatten selections into fields, as `collect` does. -/
abbrev Collector :=
  List String → ParentType → Option NamedType → List Condition → List Selection → CompileM (List FieldPlan)

/-- Flattens selections as long as calls nest no deeper than given; what a deeper call does is left open. -/
def collectTo (c : Compiler) (beyond : Collector) : Nat → Collector
  | 0, stack, parent, condition, directives, selections => beyond stack parent condition directives selections
  | _ + 1, _, _, _, _, [] => return []
  | depth + 1, stack, parent, condition, directives, .field head selection :: rest => do
    let select (type : TypeDescriptor) : CompileM (List FieldPlan) := do
      distinct (.described type) (← c.collectTo beyond depth stack (.described type) none [] selection)
    let first ← c.field parent condition directives head (!selection.isEmpty) select
    return first :: (← c.collectTo beyond depth stack parent condition directives rest)
  | depth + 1, stack, parent, condition, directives, .spread location name own :: rest =>
    match Entries.find? name c.fragments with
    | none => throw (.unknownFragment name location)
    | some fragment =>
      if name ∈ stack then throw (.fragmentCycle name location)
      else do
        let within := directives ++ (← c.conditions own)
        let (narrowed, concrete) ← c.narrow parent fragment.condition condition
        let inner ← c.collectTo beyond depth (name :: stack) narrowed concrete within fragment.selection
        return inner ++ (← c.collectTo beyond depth stack parent condition directives rest)
  | depth + 1, stack, parent, condition, directives, .inline on own selection :: rest => do
    let within := directives ++ (← c.conditions own)
    let (narrowed, concrete) ← match on with
      | some type => c.narrow parent type condition
      | none => pure (parent, condition)
    let inner ← c.collectTo beyond depth stack narrowed concrete within selection
    return inner ++ (← c.collectTo beyond depth stack parent condition directives rest)

variable {c : Compiler} {beyond : Collector}

/-- A fragment that is not defined cannot be spread. -/
theorem collect_missing {stack : List String} {parent : ParentType} {condition : Option NamedType}
    {directives : List Condition} {location : Location} {name : String} {own : List Directive}
    {rest : List Selection} (missing : Entries.find? name c.fragments = none) :
    c.collect stack parent condition directives (.spread location name own :: rest) =
      throw (.unknownFragment name location) := by
  rw [collect]
  split
  · rfl
  · next found =>
    rw [missing] at found
    cases found

/-- Nor can one that is being compiled already. -/
theorem collect_again {stack : List String} {parent : ParentType} {condition : Option NamedType}
    {directives : List Condition} {location : Location} {name : String} {own : List Directive}
    {rest : List Selection} {fragment : FragmentDefinition} (found : Entries.find? name c.fragments = some fragment)
    (inside : name ∈ stack) :
    c.collect stack parent condition directives (.spread location name own :: rest) =
      throw (.fragmentCycle name location) := by
  rw [collect]
  split
  · next missing =>
    rw [found] at missing
    cases missing
  · rw [dif_pos inside]

/-- Calls nest no deeper than the fragments outside the stack and the length of selections allow. -/
theorem collectTo_eq {most : Nat} (bounded : ∀ entry ∈ c.fragments, Selection.countAll entry.2.selection ≤ most)
    {depth : Nat} (stack : List String) (parent : ParentType) (condition : Option NamedType)
    (directives : List Condition) (selections : List Selection)
    (enough : c.remaining stack * (most + 1) + Selection.countAll selections < depth) :
    c.collectTo beyond depth stack parent condition directives selections =
      c.collect stack parent condition directives selections := by
  induction depth generalizing stack parent condition directives selections with
  | zero => omega
  | succ depth ih =>
    cases selections with
    | nil => rw [collectTo, collect]
    | cons first rest =>
      rw [Selection.countAll] at enough
      cases first with
      | field head selection =>
        rw [Selection.count] at enough
        have inside (type : TypeDescriptor) := ih stack (.described type) none [] selection (by omega)
        have after := ih stack parent condition directives rest (by omega)
        rw [collectTo, collect]
        simp only [inside, after]
      | spread location name own =>
        rw [Selection.count] at enough
        have after := ih stack parent condition directives rest (by omega)
        cases found : Entries.find? name c.fragments with
        | none => rw [collectTo, collect_missing found, found]
        | some fragment =>
          by_cases inside : name ∈ stack
          · rw [collectTo, collect_again found inside, found]
            exact if_pos inside
          · have short : Selection.countAll fragment.selection ≤ most :=
              bounded (name, fragment) (Entries.mem_of_find? found)
            have fewer : (c.remaining (name :: stack) + 1) * (most + 1) ≤ c.remaining stack * (most + 1) :=
              Nat.mul_le_mul_right _ (remaining_cons_lt found inside)
            rw [Nat.add_mul] at fewer
            have below (narrowed : ParentType) (concrete : Option NamedType) (within : List Condition) :=
              ih (name :: stack) narrowed concrete within fragment.selection (by omega)
            rw [collectTo, collect_spread found inside, found]
            simp only [if_neg inside, below, after]
      | inline on own selection =>
        rw [Selection.count] at enough
        have inside (narrowed : ParentType) (concrete : Option NamedType) (within : List Condition) :=
          ih stack narrowed concrete within selection (by omega)
        have after := ih stack parent condition directives rest (by omega)
        rw [collectTo, collect]
        cases on with
        | none => simp only [inside, after]
        | some type => simp only [inside, after]

end Compiler

namespace Document

/-- The length of the longest selection of an operation or fragment. -/
def longest (document : Document) : Nat :=
  document.selections.foldr (fun selections most => max (Selection.countAll selections) most) 0

/-- How deep calls nest at most while an operation of the document is compiled. -/
def nesting (document : Document) : Nat := (document.fragments.length + 1) * (document.longest + 1)

theorem countAll_le_longest {document : Document} {selections : List Selection}
    (mem : selections ∈ document.selections) : Selection.countAll selections ≤ document.longest := by
  unfold longest
  generalize document.selections = all at mem
  induction all with
  | nil => cases mem
  | cons first rest ih =>
    rw [List.foldr_cons]
    rcases List.mem_cons.1 mem with rfl | mem
    · exact Nat.le_max_left _ _
    · exact Nat.le_trans (ih mem) (Nat.le_max_right _ _)

end Document

/-- Compiles an operation of a document by calls that nest no deeper than given. -/
def compileDocumentTo (beyond : Compiler.Collector) (depth : Nat) (options : CompileOptions) (document : Document)
    (operationName : Option String) : CompileM Plan := do
  let (name, operation) ← document.operations.select operationName
  let compiler : Compiler :=
    { options, fragments := document.fragments, declared := operation.variableDefinitions.map (·.name) }
  let root := ParentType.root operation.kind
  let selection ← Compiler.distinct root (← compiler.collectTo beyond depth [] root none [] operation.selection)
  if operation.kind = .subscription && selection.length ≠ 1 then
    throw (.subscriptionRootFields (name.getD "<anonymous>") selection.length operation.location)
  return { kind := operation.kind, name, variableDefinitions := operation.variableDefinitions, selection }

/-- Whatever a call beyond the nesting of the document would do, it is never made. -/
theorem compileDocumentTo_eq (beyond : Compiler.Collector) {depth : Nat} (options : CompileOptions)
    {document : Document} (enough : document.nesting ≤ depth) (operationName : Option String) :
    compileDocumentTo beyond depth options document operationName = compileDocument options document operationName := by
  unfold compileDocumentTo compileDocument
  cases selected : document.operations.select operationName with
  | error e => rfl
  | ok found =>
    obtain ⟨name, operation⟩ := found
    have short : Selection.countAll operation.selection ≤ document.longest :=
      Document.countAll_le_longest
        (List.mem_append_left _ (List.mem_map.2 ⟨operation, Operations.mem_all_of_select selected, rfl⟩))
    have bounded : ∀ entry ∈ document.fragments, Selection.countAll entry.2.selection ≤ document.longest :=
      fun entry mem => Document.countAll_le_longest (List.mem_append_right _ (List.mem_map.2 ⟨entry, mem, rfl⟩))
    have all (declared : List String) : (Compiler.mk options document.fragments declared).remaining [] =
        document.fragments.length := by
      simp [Compiler.remaining, Entries.keys]
    have deep (declared : List String) : (Compiler.mk options document.fragments declared).remaining [] *
        (document.longest + 1) + Selection.countAll operation.selection < depth := by
      rw [all]
      rw [Document.nesting, Nat.add_mul] at enough
      omega
    have same (declared : List String) :
        (Compiler.mk options document.fragments declared).collectTo beyond depth [] (.root operation.kind) none []
          operation.selection =
        (Compiler.mk options document.fragments declared).collect [] (.root operation.kind) none []
          operation.selection :=
      Compiler.collectTo_eq bounded [] (.root operation.kind) none [] operation.selection (deep declared)
    simp only [lift_ok_bind, same]

end GraphQL
