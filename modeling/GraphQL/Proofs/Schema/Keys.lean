import GraphQL.Proofs.Document.Named
import GraphQL.Proofs.Plan.Cycles
import GraphQL.Proofs.Schema.Caching

/-!
# Requests under one key

A key is the name of the operation that is asked for, a line break and the text. A missing name counts as an empty one,
and nothing keeps a name from having line breaks. So different requests can have one key, and one of them then asks
for an operation under a name that no document has. If the texts are documents, the requests are compiled to different
results, and what is kept of the one is wrong for the other: `keys_separate`.
-/

namespace GraphQL

/-! ## What compiling tells of the request -/

section

variable {options : CompileOptions} {query : String} {operationName : Option String} {name : String} {r : Registry}

/-- An operation that is asked for by name is among those of the document. -/
theorem Operations.select_some {operations : Operations} {found : Option String × OperationDefinition}
    (selected : operations.select (some name) = .ok found) : name ∈ operations.names := by
  cases operations with
  | anonymous operation => cases selected
  | named operations =>
    rw [Operations.select] at selected
    split at selected
    · next found => exact Entries.mem_keys_of_find? found
    · cases selected

/-- A document is not refused as a text, and the only operation that is reported is the one asked for. -/
theorem compileDocument_asked (options : CompileOptions) (document : Document) (operationName : Option String) :
    FailsOnly (fun e => (∀ fault, e ≠ .document fault) ∧ ∀ name, e = .unknownOperation name → operationName = some name)
      (compileDocument options document operationName) := by
  cases selected : document.operations.select operationName with
  | error unselected =>
    intro r r' e failed
    rw [compileDocument_unselected selected] at failed
    cases failed
    rcases Operations.select_fails selected with ⟨name, asked, rfl⟩ | ⟨-, rfl | rfl⟩
    · refine ⟨by rintro _ ⟨⟩, ?_⟩
      rintro _ ⟨⟩
      exact asked
    · exact ⟨by rintro _ ⟨⟩, by rintro _ ⟨⟩⟩
    · exact ⟨by rintro _ ⟨⟩, by rintro _ ⟨⟩⟩
  | ok found =>
    obtain ⟨name, operation⟩ := found
    refine compileDocument_fails selected (fun e ofSelection => ⟨?_, ?_⟩) fun fragment location _ => ?_
    · rintro _ rfl
      exact ofSelection
    · rintro _ rfl
      exact ofSelection.elim
    · exact ⟨by rintro _ ⟨⟩, by rintro _ ⟨⟩⟩

/-- Only a text that is no document is refused as one. -/
theorem compile_eq_document {fault : DocumentError}
    (failed : (outcome (compile options query operationName) r).1 = .error (.document fault)) :
    Document.parse query = .error fault := by
  cases parsed : Document.parse query with
  | error e =>
    rw [compile_unparsed parsed] at failed
    cases failed
    rfl
  | ok document =>
    rw [compile_parsed parsed] at failed
    exact absurd rfl (((compileDocument_asked options document operationName).of_fst failed).1 fault)

/-- The operation that is reported as unknown is the one asked for. -/
theorem compile_eq_unknown
    (failed : (outcome (compile options query operationName) r).1 = .error (.unknownOperation name)) :
    operationName = some name := by
  cases parsed : Document.parse query with
  | error e =>
    rw [compile_unparsed parsed] at failed
    cases failed
  | ok document =>
    rw [compile_parsed parsed] at failed
    exact ((compileDocument_asked options document operationName).of_fst failed).2 name rfl

/-- An operation is unknown under a name that is none of the grammar, whatever else the document says. -/
theorem compile_misnamed {document : Document} (parsed : Document.parse query = .ok document)
    (misnamed : ¬IsName name) (options : CompileOptions) (r : Registry) :
    outcome (compile options query (some name)) r = (.error (.unknownOperation name), r) := by
  rw [compile_parsed parsed]
  cases selected : document.operations.select (some name) with
  | ok found => exact absurd (Document.parse_named parsed name (Operations.select_some selected)) misnamed
  | error e =>
    rw [compileDocument_unselected selected]
    rcases Operations.select_fails selected with ⟨other, asked, rfl⟩ | ⟨missing, -⟩
    · cases asked
      rfl
    · cases missing

end

/-! ## Keys -/

/-- Requests that are one and the same, or whose texts are no documents for the same reason. -/
def Interchangeable (query query' : String) (operationName operationName' : Option String) : Prop :=
  query = query' ∧ operationName = operationName' ∨
    ∃ e, Document.parse query = .error e ∧ Document.parse query' = .error e

variable {query query' : String} {operationName operationName' : Option String}

theorem Interchangeable.symm (same : Interchangeable query query' operationName operationName') :
    Interchangeable query' query operationName' operationName := by
  rcases same with ⟨rfl, rfl⟩ | ⟨e, unparsed, unparsed'⟩
  · exact Or.inl ⟨rfl, rfl⟩
  · exact Or.inr ⟨e, unparsed', unparsed⟩

/-- The name is missing, or there is something in it and no line break. -/
def PlainName (operationName : Option String) : Prop := ∀ name ∈ operationName, name ≠ "" ∧ '\n' ∉ name.toList

theorem IsName.plain {name : String} (named : IsName name) : PlainName (some name) := by
  rintro _ ⟨⟩
  exact ⟨named.ne_empty, named.no_line_break⟩

namespace PlanCache

theorem toList_key (operationName : Option String) (query : String) :
    (key operationName query).toList = (operationName.getD "").toList ++ '\n' :: query.toList := by
  rw [key, String.toList_append, String.toList_append, List.append_assoc]
  rfl

/-- A name without line breaks is what comes before the first one in the key. -/
theorem takeWhile_key (plain : PlainName operationName) (query : String) :
    (key operationName query).toList.takeWhile (· ≠ '\n') = (operationName.getD "").toList := by
  have inside : ∀ c ∈ (operationName.getD "").toList, decide (c ≠ '\n') = true := by
    rintro c mem
    refine decide_eq_true ?_
    rintro rfl
    cases operationName with
    | none => exact absurd mem List.not_mem_nil
    | some name => exact (plain name rfl).2 mem
  rw [toList_key, List.takeWhile_append_of_pos inside, List.takeWhile_cons_of_neg (by decide), List.append_nil]

/-- Under one name, keys are the same only for one text. -/
theorem key_inj_right (same : key operationName query = key operationName query') : query = query' := by
  rw [← String.toList_inj, toList_key, toList_key] at same
  exact String.toList_inj.1 (List.cons.inj (List.append_cancel_left same)).2

theorem key_inj (same : key operationName query = key operationName' query') (plain : PlainName operationName)
    (plain' : PlainName operationName') : query = query' ∧ operationName = operationName' := by
  have names : operationName.getD "" = operationName'.getD "" := by
    rw [← String.toList_inj, ← takeWhile_key plain query, ← takeWhile_key plain' query', same]
  have alike : operationName = operationName' := by
    cases operationName with
    | none =>
      cases operationName' with
      | none => rfl
      | some name => exact absurd names.symm (plain' name rfl).1
    | some name =>
      cases operationName' with
      | none => exact absurd names (plain name rfl).1
      | some name' => exact congrArg some names
  subst alike
  exact ⟨key_inj_right same, rfl⟩

end PlanCache

namespace Schema

variable {s : Schema} {cache : PlanCache}

/-- What is kept under the key is taken for the result, whatever request it came from. -/
theorem run_prepare_of_kept (cached : s.cache = some cache) {result : CompileOutcome}
    (kept : Entries.find? (PlanCache.key operationName query) cache.plans = some result) :
    ((prepare query operationName).run s).1 = result := by
  have begins : (prepare query operationName).run s = _ := run_bind (lookup (PlanCache.key operationName query)) _ s
  have found := PlanCache.find?_eq_some.2 kept
  rw [begins, run_lookup_some cached]
  dsimp only
  rw [found]
  dsimp only
  rw [StateT.run_pure]
  rfl

/-- A request of which nothing is kept is compiled, and its result is kept. -/
theorem run_prepare_of_absent (cached : s.cache = some cache)
    (absent : Entries.find? (PlanCache.key operationName query) cache.plans = none) {result : CompileOutcome}
    {r : Registry} (ran : outcome (GraphQL.compile s.options query operationName) s.registry = (result, r)) :
    let missed : PlanCache := { cache with log := .miss :: cache.log }
    (prepare query operationName).run s =
      (result, { s with registry := r, cache := some (missed.insert (PlanCache.key operationName query) result) }) := by
  intro missed
  have begins : (prepare query operationName).run s = _ := run_bind (lookup (PlanCache.key operationName query)) _ s
  have compiled : (compile query operationName).run { s with cache := some missed } =
      (result, { s with registry := r, cache := some missed }) := by
    have same : ({ s with cache := some missed } : Schema).options = s.options := rfl
    rw [run_compile, same, ran]
  rw [begins, run_lookup_some cached, PlanCache.find?_of_absent absent]
  dsimp only
  rw [run_bind, compiled]
  rfl

/-- Requests under one key, of which the second has a name that is none of the grammar. -/
theorem interchangeable_of_misnamed {name : String}
    (same : PlanCache.key operationName query = PlanCache.key (some name) query') (misnamed : ¬IsName name)
    (equal : ((compile query operationName).run s).1 = ((compile query' (some name)).run s).1) :
    Interchangeable query query' operationName (some name) := by
  rw [run_compile, run_compile] at equal
  dsimp only at equal
  cases parsed : Document.parse query' with
  | error e =>
    rw [compile_unparsed parsed] at equal
    exact Or.inr ⟨e, compile_eq_document equal, parsed⟩
  | ok document =>
    rw [compile_misnamed parsed misnamed] at equal
    obtain rfl : operationName = some name := compile_eq_unknown equal
    exact Or.inl ⟨PlanCache.key_inj_right same, rfl⟩

/-- Requests under one key are compiled to one result only if they are interchangeable. -/
theorem compile_eq_iff (s : Schema)
    (same : PlanCache.key operationName query = PlanCache.key operationName' query') :
    ((compile query operationName).run s).1 = ((compile query' operationName').run s).1 ↔
      Interchangeable query query' operationName operationName' := by
  constructor
  · intro equal
    by_cases plain : PlainName operationName
    · by_cases plain' : PlainName operationName'
      · exact Or.inl (PlanCache.key_inj same plain plain')
      · cases operationName' with
        | none => exact absurd (fun _ mem => absurd mem (by rintro ⟨⟩)) plain'
        | some name => exact interchangeable_of_misnamed same (fun named => plain' named.plain) equal
    · cases operationName with
      | none => exact absurd (fun _ mem => absurd mem (by rintro ⟨⟩)) plain
      | some name =>
        exact (interchangeable_of_misnamed same.symm (fun named => plain named.plain) equal.symm).symm
  · rintro (⟨rfl, rfl⟩ | ⟨e, unparsed, unparsed'⟩)
    · rfl
    · rw [run_compile, run_compile, compile_unparsed unparsed, compile_unparsed unparsed']

/-- Requests under one key are compiled to one result if and only if they are interchangeable. If they are not, the one
that is prepared later gets what is kept of the other and not what it would be compiled to. Where no name is empty or
has a line break, a key stands for one request. -/
theorem keys_separate (s : Schema)
    (same : PlanCache.key operationName query = PlanCache.key operationName' query') :
    (((compile query operationName).run s).1 = ((compile query' operationName').run s).1 ↔
      Interchangeable query query' operationName operationName') ∧
    (∀ cache, s.cache = some cache → Entries.find? (PlanCache.key operationName query) cache.plans = none →
      let t := ((prepare query operationName).run s).2
      ((prepare query' operationName').run t).1 = ((compile query operationName).run s).1 ∧
      (((prepare query' operationName').run t).1 = ((compile query' operationName').run t).1 ↔
        Interchangeable query query' operationName operationName')) ∧
    (PlainName operationName → PlainName operationName' → query = query' ∧ operationName = operationName') := by
  refine ⟨compile_eq_iff s same, fun cache cached absent => ?_, PlanCache.key_inj same⟩
  intro t
  cases ran : outcome (GraphQL.compile s.options query operationName) s.registry with
  | mk result r =>
    have compiled : ((compile query operationName).run s).1 = result := by rw [run_compile, ran]
    have left : t = { s with registry := r, cache := some (PlanCache.insert _ _ result) } :=
      congrArg Prod.snd (run_prepare_of_absent cached absent ran)
    have kept : ((prepare query' operationName').run t).1 = result := by
      rw [left]
      refine run_prepare_of_kept rfl ?_
      rw [← same]
      exact PlanCache.find?_insert_self absent result
    -- What is described meanwhile makes no difference to the first request.
    have again : ((compile query operationName).run t).1 = result := by
      obtain ⟨-, settled⟩ := s.settled_compile query operationName ran
      have settled : t.Settled query operationName result := settled.later (by rw [left]; rfl) (by rw [left]; exact .refl _ _)
      rw [settled.run_compile]
    refine ⟨kept.trans compiled.symm, ?_⟩
    rw [kept, ← again]
    exact compile_eq_iff t same

end Schema

/-! ## A name that is there and empty -/

namespace TypenameQuery

def text : String := "\x7b __typename \x7d"

def schema : Schema := .create { builtinName := BuiltinType.scalarName, types := [] } {} .default none

def plan : Plan :=
  { kind := .query, name := none, variableDefinitions := []
    selection := [
      { responseKey := "__typename", aliased := false, name := "__typename", location := ⟨1, 3⟩, condition := none
        directives := [], arguments := [], target := .typename, type := .named (.builtin .string) false, complexity := 0
        selection := [] }] }

def document : Document :=
  ⟨.anonymous ⟨.start, .query, [], [.field ⟨⟨1, 3⟩, none, "__typename", [], []⟩ []]⟩, []⟩

theorem text_parsed : Document.parse text = .ok document := by with_unfolding_all rfl

def registry : Registry := (outcome (schema.host.describe (.builtin .string)) {}).2

theorem text_compiled : outcome (compile schema.options text none) schema.registry = (.ok plan, registry) := by
  have collected : outcome (Compiler.collect ⟨schema.options, [], []⟩ [] (.root .query) none []
      [.field ⟨⟨1, 3⟩, none, "__typename", [], []⟩ []]) schema.registry = (.ok plan.selection, registry) := by
    simp only [Compiler.collect]
    with_unfolding_all rfl
  rw [compile_parsed text_parsed]
  exact outcome_bind_eq_ok.2 ⟨_, _, rfl, outcome_bind_eq_ok.2 ⟨_, _, collected, rfl⟩⟩

/-- The operation without a name answers to the empty one as well once it has been prepared, and not before. -/
theorem blank_served :
    PlanCache.key none text = PlanCache.key (some "") text ∧
    ((Schema.compile text none).run schema).1 = .ok plan ∧
    ((Schema.compile text (some "")).run schema).1 = .error (.unknownOperation "") ∧
    ((Schema.prepare text (some "")).run ((Schema.prepare text none).run schema).2).1 = .ok plan := by
  refine ⟨rfl, ?_, ?_, ?_⟩
  · rw [Schema.run_compile, text_compiled]
  · rw [Schema.run_compile, compile_misnamed text_parsed fun named => named.ne_empty rfl]
  · rw [Schema.run_prepare_of_absent rfl rfl text_compiled]
    exact Schema.run_prepare_of_kept rfl (PlanCache.find?_insert_self rfl _)

def named : String := "query x \x7b __typename \x7d"

def commented : String := "# \n" ++ named

/-- A comment before the text that is taken for a part of the name. -/
theorem comment_named :
    let t := ((Schema.prepare commented (some "x")).run schema).2
    PlanCache.key (some "x") commented = PlanCache.key (some "x\n# ") named ∧
    ((Schema.prepare named (some "x\n# ")).run t).1 ≠ ((Schema.compile named (some "x\n# ")).run t).1 := by
  intro t
  have same : PlanCache.key (some "x") commented = PlanCache.key (some "x\n# ") named := by decide
  have parsed : Document.parse named =
      .ok ⟨.named [("x", ⟨.start, .query, [], [.field ⟨⟨1, 11⟩, none, "__typename", [], []⟩ []]⟩)], []⟩ := by
    with_unfolding_all rfl
  have apart : ¬Interchangeable commented named (some "x") (some "x\n# ") := by
    rintro (⟨texts, -⟩ | ⟨e, -, unparsed⟩)
    · exact absurd texts (by decide)
    · rw [parsed] at unparsed
      cases unparsed
  obtain ⟨-, served, -⟩ := Schema.keys_separate schema same
  exact ⟨same, fun equal => apart ((served _ rfl rfl).2.1 equal)⟩

end TypenameQuery

end GraphQL
