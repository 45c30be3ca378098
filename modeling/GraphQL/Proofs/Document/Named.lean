import GraphQL.Proofs.Document.Filled

/-!
# The names of operations

An operation has no name or one of the grammar, which is never empty and has no spacing in it. So there are names that
no document can have an operation for.
-/

namespace GraphQL

/-- A letter or underscore, followed by letters, digits and underscores. -/
def IsName (text : String) : Prop :=
  ∃ first rest, text.toList = first :: rest ∧ isNameStart first = true ∧ ∀ c ∈ rest, isNameChar c = true

variable {name : String}

theorem IsName.ne_empty (named : IsName name) : name ≠ "" := by
  rintro rfl
  obtain ⟨first, rest, chars, -, -⟩ := named
  cases chars

theorem isNameChar_of_start {c : Char} (start : isNameStart c = true) : isNameChar c = true := by
  unfold isNameStart at start
  unfold isNameChar Char.isAlphanum
  rcases Bool.or_eq_true_iff.1 start with letter | underscore
  · rw [letter, Bool.true_or, Bool.true_or]
  · rw [underscore, Bool.or_true]

theorem IsName.no_line_break (named : IsName name) : '\n' ∉ name.toList := by
  obtain ⟨first, rest, chars, start, others⟩ := named
  rw [chars]
  intro mem
  have ofBreak : isNameChar '\n' = true := by
    rcases List.mem_cons.1 mem with rfl | mem
    · exact isNameChar_of_start start
    · exact others '\n' mem
  exact absurd ofBreak (by decide)

namespace Parser

theorem nameText_isName : nameText.Gives IsName := by
  intro c m text c' ran
  simp only [nameText, step] at ran
  split at ran
  · next first rest _ =>
    split at ran
    · next start =>
      cases ran
      exact ⟨first, rest.takeWhile isNameChar, String.toList_ofList, start, List.all_eq_true.1 List.all_takeWhile⟩
    · cases ran
  · cases ran

theorem name_isName : Parser.name.Gives fun read => IsName read.value :=
  Gives.after fun _ => nameText_isName.partHere.bind fun _ named => gives_pure named

end Parser

/-- The names under which a document has operations. -/
def Operations.names : Operations → List String
  | .anonymous _ => []
  | .named operations => Entries.keys operations

namespace Document

open Parser

/-- A definition without a name, or with one of the grammar. -/
def Definition.Named : Definition → Prop
  | .operation name _ => ∀ text ∈ name, IsName text
  | .fragment _ => True

theorem operation_named : operation.Gives fun o => ∀ text ∈ o.1, IsName text := by
  apply Gives.part
  refine Gives.after fun location => Gives.orElse ?_ (Gives.after fun _ => gives_pure ?_)
  · apply Gives.part
    refine Gives.after fun kind => name_isName.optional.bind fun called named => ?_
    refine Gives.after fun _ => Gives.after fun _ => Gives.after fun _ => gives_pure ?_
    intro text mem
    obtain ⟨read, same, rfl⟩ := Option.map_eq_some_iff.1 mem
    exact named read same
  · intro text mem
    cases mem

theorem definition_named : definition.Gives Definition.Named := by
  apply Gives.part
  apply Gives.orElse
  · exact operation_named.map fun _ named => named
  · exact (gives_any fragment).map fun _ _ => trivial

/-- The operations of a draft have names of the grammar. -/
def Draft.Named (draft : Draft) : Prop :=
  ∀ operations, draft.operations = some operations → ∀ name ∈ operations.names, IsName name

theorem Draft.Named.add {draft draft' : Draft} {d : Definition} (named : draft.Named) (ofD : d.Named)
    (added : draft.add d = .ok draft') : draft'.Named := by
  obtain ⟨definition, rfl, -, rfl⟩ | ⟨name, definition, others, rfl, before, -, rfl⟩ | ⟨definition, rfl, -, rfl⟩ :=
    add_cases added
  · intro operations eq
    cases eq
    exact fun _ mem => absurd mem List.not_mem_nil
  · intro operations eq
    cases eq
    rw [Operations.names, Entries.keys, List.map_append]
    refine List.forall_mem_append.2 ⟨?_, List.forall_mem_singleton.2 (ofD name rfl)⟩
    rcases before with ⟨-, rfl⟩ | before
    · exact fun _ mem => absurd mem List.not_mem_nil
    · exact named _ before
  · exact named

/-- The operations of a document have names of the grammar. -/
theorem parse_named {text : String} {document : Document} (parsed : parse text = .ok document) :
    ∀ name ∈ document.operations.names, IsName name := by
  have empty : Draft.Named {} := by
    intro operations eq
    cases eq
  obtain ⟨draft, operations, -, named⟩ :=
    parse_keeps definition_named (fun draft d _ named ofD => named.add ofD) empty parsed
  exact named document.operations operations

end Document

end GraphQL
