import GraphQL.Document.Parser
import GraphQL.Proofs.Sequencing

/-!
# Written selections are filled

Braces hold at least one selection, so only the selection of a field can be empty, which then has no
braces at all. `Parser.Gives` says what holds of every result of a parser; it is kept by all ways of
putting parsers together, recursion included, because that goes on at cursors with less text left.
-/

namespace GraphQL

namespace Parser

variable {α β : Type} {P : α → Prop} {Q : β → Prop}

/-- Every result of the parser has a property. -/
def Gives (p : Parser α) (P : α → Prop) : Prop :=
  ∀ (c : Cursor) (m : Misses) (a : α) (c' : Cursor), (p c m).1 = some (a, c') → P a

/-- Of most parsers nothing needs to be known. -/
theorem gives_any (p : Parser α) : p.Gives fun _ => True := fun _ _ _ _ _ => trivial

theorem gives_pure {a : α} (holds : P a) : (pure a : Parser α).Gives P := by
  intro c m b c' ran
  cases ran
  exact holds

theorem Gives.bind {p : Parser α} {f : α → Parser β} (first : p.Gives P) (next : ∀ a, P a → (f a).Gives Q) :
    (p >>= f).Gives Q := by
  intro c m b c' ran
  simp only [Bind.bind] at ran
  split at ran
  · next a middle misses ranFirst =>
    have holds : P a := first c m a middle (by rw [ranFirst])
    exact next a holds middle misses b c' ran
  · cases ran

/-- A step of which nothing needs to be known. -/
theorem Gives.after {p : Parser α} {f : α → Parser β} (next : ∀ a, (f a).Gives Q) : (p >>= f).Gives Q :=
  (gives_any p).bind fun a _ => next a

theorem Gives.map {p : Parser α} {f : α → β} (first : p.Gives P) (holds : ∀ a, P a → Q (f a)) : (f <$> p).Gives Q :=
  first.bind fun a ofA => gives_pure (holds a ofA)

theorem Gives.orElse {p q : Parser α} (first : p.Gives P) (second : q.Gives P) : (p <|> q).Gives P := by
  intro c m a c' ran
  simp only [HOrElse.hOrElse, OrElse.orElse, Alternative.orElse] at ran
  split at ran
  · next misses ranFirst => exact second c misses a c' ran
  · next found => exact first c m a c' ran

theorem Gives.partHere {p : Parser α} {part : GrammarPart} (inner : p.Gives P) : (partHere part p).Gives P := by
  intro c m a c' ran
  unfold Parser.partHere at ran
  cases ranInner : p c m with
  | mk result misses =>
    rw [ranInner] at ran
    cases result with
    | none => cases ran
    | some found => exact inner c m a c' (by rw [ranInner]; exact ran)

theorem Gives.part {p : Parser α} {part : GrammarPart} (inner : p.Gives P) : (Parser.part part p).Gives P :=
  Gives.after fun _ => inner.partHere

theorem Gives.optional {p : Parser α} (inner : p.Gives P) : (optional p).Gives fun found => ∀ a ∈ found, P a := by
  refine Gives.orElse (inner.map fun a holds => ?_) (gives_pure ?_)
  · intro b mem
    cases mem
    exact holds
  · intro b mem
    cases mem

theorem Gives.many {p : Parser α} (inner : p.Gives P) : Gives (many p) fun all => ∀ a ∈ all, P a := by
  intro c
  induction left : c.rest.length using Nat.strongRecOn generalizing c with
  | ind length ih =>
    intro m all c' ran
    rw [Parser.many] at ran
    cases ranFirst : p c m with
    | mk result misses =>
      rw [ranFirst] at ran
      cases result with
      | none =>
        cases ran
        exact fun a mem => absurd mem List.not_mem_nil
      | some found =>
        obtain ⟨a, middle⟩ := found
        have holds : P a := inner c m a middle (by rw [ranFirst])
        simp only at ran
        split at ran
        · next less =>
          cases ranRest : Parser.many p middle misses with
          | mk result missed =>
            rw [ranRest] at ran
            obtain ⟨⟨others, last⟩, more, eq⟩ := Option.map_eq_some_iff.1 ran
            cases eq
            have rest := ih _ (left ▸ less) middle rfl misses others last (by rw [ranRest]; exact more)
            exact List.forall_mem_cons.2 ⟨holds, rest⟩
        · cases ran
          exact List.forall_mem_singleton.2 holds

theorem Gives.many1 {p : Parser α} (inner : p.Gives P) : (many1 p).Gives fun all => all ≠ [] ∧ ∀ a ∈ all, P a := by
  refine inner.bind fun first holds => ?_
  refine Gives.bind inner.many fun others rest => ?_
  exact gives_pure ⟨List.cons_ne_nil first others, List.forall_mem_cons.2 ⟨holds, rest⟩⟩

/-- A property of the results of a parser defined in terms of itself: it has it if it has it wherever less
text is left. -/
theorem gives_fix {f : (β → Parser α) → β → Parser α}
    (each : ∀ inner : β → Parser α, (∀ b, (inner b).Gives P) → ∀ b, (f inner b).Gives P) (b : β) :
    Gives (Parser.fix f b) P := by
  intro c
  induction left : c.rest.length using Nat.strongRecOn generalizing b c with
  | ind length ih =>
    intro m a c' ran
    rw [Parser.fix] at ran
    refine each _ ?_ b c m a c' ran
    intro b' middle misses a' last again
    simp only at again
    split at again
    · next less => exact ih _ (left ▸ less) b' middle rfl misses a' last again
    · cases again

end Parser

/-- A selection in which every fragment in place holds a selection, at any depth. -/
inductive Selection.Filled : Selection → Prop
  | field (head : FieldHead) {selection : List Selection} (within : ∀ s ∈ selection, s.Filled) :
    Filled (.field head selection)
  | spread (location : Location) (name : String) (own : List Directive) : Filled (.spread location name own)
  | inline (on : Option (Located String)) (own : List Directive) {selection : List Selection} (some : selection ≠ [])
    (within : ∀ s ∈ selection, s.Filled) : Filled (.inline on own selection)

def Operations.all : Operations → List OperationDefinition
  | .anonymous operation => [operation]
  | .named operations => operations.map (·.2)

/-- Selections of which there are some, all of them filled. -/
def Selection.FilledAll (selections : List Selection) : Prop := selections ≠ [] ∧ ∀ s ∈ selections, s.Filled

/-- A document whose operations and fragments select something everywhere. -/
structure Document.Filled (document : Document) : Prop where
  operations : ∀ operation ∈ document.operations.all, Selection.FilledAll operation.selection
  fragments : ∀ entry ∈ document.fragments, Selection.FilledAll entry.2.selection

namespace Document

open Parser

/-- One selection is filled if those inside it are. -/
theorem selectionWith_filled {selection : Nat → Parser Selection} (inner : ∀ n, (selection n).Gives Selection.Filled)
    (remaining : Nat) : (selectionWith selection remaining).Gives Selection.Filled := by
  have nested : Gives (part .selectionSet do
      let _ ← token "\x7b"
      checkNesting remaining
      let all ← many1 (selection (remaining - 1))
      let _ ← token "\x7d"
      return all) Selection.FilledAll := by
    apply Gives.part
    refine Gives.after fun _ => Gives.after fun _ => ?_
    exact (inner (remaining - 1)).many1.bind fun all filled => Gives.after fun _ => gives_pure filled
  unfold selectionWith
  apply Gives.part
  apply Gives.orElse
  · apply Gives.part
    refine Gives.after fun head => ?_
    refine nested.optional.bind fun written filled => gives_pure ?_
    cases written with
    | none => exact .field head fun s mem => absurd mem List.not_mem_nil
    | some selection => exact .field head (filled selection rfl).2
  · apply Gives.orElse
    · apply Gives.part
      refine Gives.after fun _ => Gives.after fun condition => Gives.after fun directives => ?_
      refine nested.bind fun selection filled => gives_pure ?_
      exact .inline condition directives filled.1 filled.2
    · apply Gives.part
      refine Gives.after fun location => Gives.after fun _ => Gives.after fun fragment => ?_
      exact Gives.after fun directives => gives_pure (.spread location fragment.value directives)

theorem selectionSet_filled : selectionSet.Gives Selection.FilledAll := by
  have one : Gives (fix selectionWith maxNesting) Selection.Filled :=
    gives_fix (fun selection inner => selectionWith_filled inner) maxNesting
  apply Gives.part
  refine Gives.after fun _ => ?_
  exact one.many1.bind fun all filled => Gives.after fun _ => gives_pure filled

/-- A definition that selects something everywhere. -/
def Definition.Filled : Definition → Prop
  | .operation _ definition => Selection.FilledAll definition.selection
  | .fragment definition => Selection.FilledAll definition.selection

theorem operation_filled : operation.Gives fun o => Selection.FilledAll o.2.selection := by
  apply Gives.part
  refine Gives.after fun location => ?_
  apply Gives.orElse
  · apply Gives.part
    refine Gives.after fun _ => Gives.after fun _ => Gives.after fun _ => Gives.after fun _ => ?_
    exact selectionSet_filled.bind fun _ filled => gives_pure filled
  · exact selectionSet_filled.bind fun _ filled => gives_pure filled

theorem fragment_filled : fragment.Gives fun definition => Selection.FilledAll definition.selection := by
  apply Gives.part
  refine Gives.after fun _ => Gives.after fun _ => Gives.after fun _ => Gives.after fun _ => ?_
  exact selectionSet_filled.bind fun _ filled => gives_pure filled

theorem definition_filled : definition.Gives Definition.Filled := by
  apply Gives.part
  apply Gives.orElse
  · exact operation_filled.map fun _ filled => filled
  · exact fragment_filled.map fun _ filled => filled

/-- What is known of definitions holds of all that a text has. -/
theorem definitions_gives {P : Definition → Prop} (each : definition.Gives P) {text : String} {all : List Definition}
    (read : definitions text = .ok all) : ∀ d ∈ all, P d := by
  have whole : wholeText.Gives fun all => ∀ d ∈ all, P d :=
    each.many1.bind fun all holds => Gives.after fun _ => gives_pure holds.2
  unfold definitions at read
  split at read
  · cases read
  · next found last _ ran =>
    split at read
    · cases read
    · cases read
      exact whole _ _ all last (by rw [ran])

/-- A definition is added at the end of its kind: operations without a name stay alone, and no name comes twice. -/
theorem Draft.add_cases {draft draft' : Draft} {d : Definition} (added : draft.add d = .ok draft') :
    (∃ definition, d = .operation none definition ∧ draft.operations = none ∧
      draft' = { draft with operations := some (.anonymous definition) }) ∨
    (∃ name definition others, d = .operation (some name) definition ∧
      (draft.operations = none ∧ others = [] ∨ draft.operations = some (.named others)) ∧
      Entries.find? name others = none ∧
      draft' = { draft with operations := some (.named (others ++ [(name, definition)])) }) ∨
    ∃ definition, d = .fragment definition ∧ Entries.find? definition.name draft.fragments = none ∧
      draft' = { draft with fragments := draft.fragments ++ [(definition.name, definition)] } := by
  unfold Draft.add at added
  split at added
  · next definition =>
    split at added
    · next before =>
      cases added
      exact Or.inl ⟨definition, rfl, before, rfl⟩
    · cases added
    · cases added
  · next name definition =>
    split at added
    · cases added
    · next others before =>
      split at added
      · cases added
      · next unused =>
        cases added
        exact Or.inr (Or.inl ⟨name, definition, others, rfl, Or.inr before, unused, rfl⟩)
    · next before =>
      cases added
      exact Or.inr (Or.inl ⟨name, definition, [], rfl, Or.inl ⟨before, rfl⟩, rfl, rfl⟩)
  · next definition =>
    split at added
    · cases added
    · next unused =>
      cases added
      exact Or.inr (Or.inr ⟨definition, rfl, unused, rfl⟩)

/-- What every addition keeps holds of a draft after all of them. -/
theorem Draft.foldlM_keeps {P : Definition → Prop} {I : Draft → Prop}
    (step : ∀ draft d draft', I draft → P d → draft.add d = .ok draft' → I draft') {all : List Definition}
    {draft draft' : Draft} (holds : I draft) (each : ∀ d ∈ all, P d) (added : all.foldlM Draft.add draft = .ok draft') :
    I draft' := by
  induction all generalizing draft with
  | nil =>
    cases added
    exact holds
  | cons d rest ih =>
    rw [List.foldlM_cons] at added
    obtain ⟨next, first, added⟩ := except_bind_eq_ok.1 added
    obtain ⟨ofD, each⟩ := List.forall_mem_cons.1 each
    exact ih (step draft d next holds ofD first) each added

/-- A document is a draft to which its definitions were added. -/
theorem parse_keeps {P : Definition → Prop} {I : Draft → Prop} (each : definition.Gives P)
    (step : ∀ draft d draft', I draft → P d → draft.add d = .ok draft' → I draft') (empty : I {}) {text : String}
    {document : Document} (parsed : parse text = .ok document) :
    ∃ draft, draft.operations = some document.operations ∧ draft.fragments = document.fragments ∧ I draft := by
  unfold parse at parsed
  obtain ⟨all, read, parsed⟩ := except_bind_eq_ok.1 parsed
  obtain ⟨draft, added, parsed⟩ := except_bind_eq_ok.1 parsed
  have holds := Draft.foldlM_keeps step empty (definitions_gives each read) added
  split at parsed
  · next operations eq =>
    cases parsed
    exact ⟨draft, eq, rfl, holds⟩
  · cases parsed

/-- The parts of a document select something everywhere. -/
structure Draft.Filled (draft : Draft) : Prop where
  operations : ∀ operations, draft.operations = some operations →
    ∀ operation ∈ operations.all, Selection.FilledAll operation.selection
  fragments : ∀ entry ∈ draft.fragments, Selection.FilledAll entry.2.selection

theorem Draft.empty_filled : Draft.Filled {} := by
  constructor
  · intro operations eq
    cases eq
  · exact fun entry mem => absurd mem List.not_mem_nil

theorem Draft.Filled.add {draft draft' : Draft} {d : Definition} (filled : draft.Filled) (ofD : d.Filled)
    (added : draft.add d = .ok draft') : draft'.Filled := by
  obtain ⟨definition, rfl, -, rfl⟩ | ⟨name, definition, others, rfl, before, -, rfl⟩ | ⟨definition, rfl, -, rfl⟩ :=
    add_cases added
  · refine ⟨?_, filled.fragments⟩
    intro operations eq
    cases eq
    exact List.forall_mem_singleton.2 ofD
  · refine ⟨?_, filled.fragments⟩
    intro operations eq
    cases eq
    rw [Operations.all, List.map_append]
    refine List.forall_mem_append.2 ⟨?_, List.forall_mem_singleton.2 ofD⟩
    rcases before with ⟨-, rfl⟩ | before
    · exact fun operation mem => absurd mem List.not_mem_nil
    · exact filled.operations _ before
  · refine ⟨filled.operations, ?_⟩
    exact List.forall_mem_append.2 ⟨filled.fragments, List.forall_mem_singleton.2 ofD⟩

/-- A text that is a document selects something wherever it has braces. -/
theorem parse_filled {text : String} {document : Document} (parsed : parse text = .ok document) :
    document.Filled := by
  obtain ⟨draft, operations, fragments, filled⟩ :=
    parse_keeps definition_filled (fun draft d _ filled ofD => filled.add ofD) Draft.empty_filled parsed
  exact ⟨filled.operations document.operations operations, fragments ▸ filled.fragments⟩

end Document

end GraphQL
