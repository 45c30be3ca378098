import GraphQL.Plan.Compile
import GraphQL.Proofs.Sequencing

/-!
# How compiling fails

Every error of a request says which part of compiling it comes from. The steps inside a selection share one class,
`CompileError.OfSelection`; what is left over are the text itself, the choice of its operation, and fragments that
spread themselves, each with one place where it is reported.
-/

namespace GraphQL

/-- Errors of compiling a selection, fragments that reference themselves aside. -/
def CompileError.OfSelection : CompileError → Prop
  | document _ | unknownOperation _ | ambiguousOperation | missingOperation | fragmentCycle .. | wrongEntryPoint .. => False
  | _ => True

/-- An operation that is asked for by name is reported under that name. -/
theorem Operations.select_fails {operations : Operations} {operationName : Option String} {e : CompileError}
    (failed : operations.select operationName = .error e) :
    (∃ name, operationName = some name ∧ e = .unknownOperation name) ∨
      operationName = none ∧ (e = .missingOperation ∨ e = .ambiguousOperation) := by
  unfold Operations.select at failed
  split at failed
  · cases failed
  · next name =>
    cases failed
    exact Or.inl ⟨name, rfl, rfl⟩
  · next name =>
    split at failed
    · cases failed
    · cases failed
      exact Or.inl ⟨name, rfl, rfl⟩
  · cases failed
    exact Or.inr ⟨rfl, Or.inl rfl⟩
  · cases failed
  · cases failed
    exact Or.inr ⟨rfl, Or.inr rfl⟩

/-- Without an operation nothing is compiled. -/
theorem compileDocument_unselected {options : CompileOptions} {document : Document} {operationName : Option String}
    {e : CompileError} (selected : document.operations.select operationName = .error e) (r : Registry) :
    outcome (compileDocument options document operationName) r = (.error e, r) := by
  unfold compileDocument
  rw [selected]
  rfl

/-- Without a document no operation is selected. -/
theorem compile_unparsed {query : String} {e : DocumentError} (unparsed : Document.parse query = .error e)
    (options : CompileOptions) (operationName : Option String) (r : Registry) :
    outcome (compile options query operationName) r = (.error (.document e), r) := by
  unfold compile
  rw [unparsed]
  rfl

theorem compile_parsed {query : String} {document : Document} (parsed : Document.parse query = .ok document)
    (options : CompileOptions) (operationName : Option String) :
    compile options query operationName = compileDocument options document operationName := by
  unfold compile
  rw [parsed]

namespace Compiler

variable {c : Compiler} {e : CompileError}

theorem checkVariables_fails {value : Located Value} (failed : c.checkVariables value = .error e) : e.OfSelection := by
  unfold checkVariables at failed
  split at failed
  · cases failed
    trivial
  · cases failed

theorem condition_fails {d : Directive} (failed : c.condition d = .error e) : e.OfSelection := by
  have missing : (CompileError.missingDirectiveArgument d.name d.location).OfSelection := trivial
  have read (make : Value → Condition) (argument : Argument)
      (failed : (do c.checkVariables argument.value; return make argument.value.value : Except CompileError Condition) =
        .error e) : e.OfSelection := by
    rcases except_bind_eq_error.1 failed with undeclared | ⟨_, _, made⟩
    · exact checkVariables_fails undeclared
    · cases made
  unfold Compiler.condition at failed
  simp only at failed
  split at failed
  · split at failed
    · cases failed
      exact missing
    · exact read .skipIf _ failed
  · split at failed
    · cases failed
      exact missing
    · exact read .includeIf _ failed
  · cases failed
    trivial

theorem conditions_fails {directives : List Directive} (failed : c.conditions directives = .error e) :
    e.OfSelection := by
  unfold conditions at failed
  induction directives with
  | nil => cases failed
  | cons d rest ih =>
    rw [List.mapM_cons] at failed
    rcases except_bind_eq_error.1 failed with here | ⟨_, _, failed⟩
    · exact condition_fails here
    · rcases except_bind_eq_error.1 failed with after | ⟨_, _, made⟩
      · exact ih after
      · cases made

theorem target_fails {parent : ParentType} {head : FieldHead} (failed : c.target parent head = .error e) :
    e.OfSelection := by
  unfold target at failed
  simp only at failed
  repeat' split at failed
  all_goals
    cases failed
    try trivial

theorem describe_fails (type : NamedType) :
    FailsOnly CompileError.OfSelection (c.options.host.describe type).inPlan := by
  have anyhow : FailsOnly (fun _ => True) (c.options.host.describe type) := fun _ _ _ _ => trivial
  exact anyhow.adapt fun _ _ => trivial

theorem findNamed_fails (name : String) (types : List NamedType) :
    FailsOnly CompileError.OfSelection (c.findNamed name types) := by
  induction types with
  | nil => exact failsOnly_pure _
  | cons type rest ih =>
    rw [findNamed]
    refine (describe_fails type).bind fun descriptor => ?_
    split
    · exact failsOnly_pure _
    · exact ih

theorem narrow_fails (parent : ParentType) (on : Located String) (current : Option NamedType) :
    FailsOnly CompileError.OfSelection (c.narrow parent on current) := by
  unfold narrow
  split
  · exact failsOnly_pure _
  · refine (findNamed_fails on.value parent.candidates).bind fun found => ?_
    cases found with
    | none => exact failsOnly_throw trivial
    | some descriptor => exact failsOnly_pure _

theorem distinct_fails (parent : ParentType) (fields : List FieldPlan) :
    FailsOnly CompileError.OfSelection (distinct parent fields) := by
  unfold distinct
  split
  · exact failsOnly_throw trivial
  · exact failsOnly_pure _

/-- A field fails by itself, or the selection below it does. -/
theorem field_fails {within : CompileError → Prop} (ofSelection : ∀ e : CompileError, e.OfSelection → within e)
    {parent : ParentType} {condition : Option NamedType} {inherited : List Condition} {head : FieldHead}
    {hasSelection : Bool} {select : TypeDescriptor → CompileM (List FieldPlan)}
    (below : ∀ type, FailsOnly within (select type)) :
    FailsOnly within (c.field parent condition inherited head hasSelection select) := by
  unfold field
  refine (failsOnly_lift fun e failed => ofSelection e (conditions_fails failed)).bind fun own => ?_
  have checked (argument : Argument) : FailsOnly within (liftM (c.checkVariables argument.value) : CompileM Unit) :=
    failsOnly_lift fun e failed => ofSelection e (checkVariables_fails failed)
  refine (failsOnly_forM _ fun argument _ => checked argument).bind fun _ => ?_
  refine (failsOnly_lift fun e failed => ofSelection e (target_fails failed)).bind fun found => ?_
  refine ((describe_fails _).mono ofSelection).bind fun descriptor => ?_
  split
  · split
    · have unexpected := ofSelection (.unexpectedSelection head.name descriptor.name head.location) trivial
      exact (failsOnly_throw unexpected).bind fun _ => failsOnly_pure _
    · exact failsOnly_pure _
  · split
    · exact (below descriptor).bind fun _ => failsOnly_pure _
    · have missing := ofSelection (.missingSelection head.name descriptor.name head.location) trivial
      exact (failsOnly_throw missing).bind fun _ => failsOnly_pure _

end Compiler

end GraphQL
