import GraphQL.Proofs.Footing.Rules
import GraphQL.Proofs.Input.ByType

/-!
# Reading input on a footing

Reading an input value describes the type that it is read at and, for an input object, the types at which its
construction takes fields. Where those are covered, a firm footing carries the reading.
-/

namespace GraphQL

open Footing

variable {f : Footing} {context : InputContext}

/-- A construction reads its fields one after the other. -/
theorem Construction.run_bears {values : Variables} {bound : Nat} (typeName : String) (pos : 0 < bound)
    {parse : TypeRef → (value : InputValue) → value.weight values < bound → InputM Resolved}
    (each : ∀ type value smaller, f.Reads type → f.Bears (parse type value smaller)) {construction : Construction}
    (takes : construction.TakesWithin f.Reads) (fields : LighterFields values bound) :
    f.Bears (construction.run typeName pos parse fields) := by
  induction takes generalizing fields with
  | done result =>
    cases result with
    | ok built => exact bears_pure _
    | error failure => exact bears_throw _
  | take there _ ih => exact (each _ _ _ there).bind fun field _ => ih field _
  | ifGiven _ ih => exact ih _ _
  | typeName _ ih => exact ih _ _

namespace InputContext

theorem parseObject_bears (id : HostId) (typeName : String) (value : InputValue)
    {parse : TypeRef → (field : InputValue) →
      field.weight context.variableValues < value.weight context.variableValues → InputM Resolved}
    (each : ∀ type field smaller, f.Reads type → f.Bears (parse type field smaller))
    (takes : (context.host.construction id).TakesWithin f.Reads) :
    f.Bears (context.parseObject id typeName value parse) := by
  unfold parseObject
  split
  · exact bears_throw _
  · apply (Construction.run_bears typeName _ each takes _).bind
    rintro ⟨built, left⟩ -
    cases left with
    | nil => exact bears_pure _
    | cons name rest => exact bears_throw _

theorem parseDescribed_bears (id : HostId) (d : TypeDescriptor) (value : InputValue)
    {parse : TypeRef → (field : InputValue) →
      field.weight context.variableValues < value.weight context.variableValues → InputM Resolved}
    (each : ∀ type field smaller, f.Reads type → f.Bears (parse type field smaller))
    (fits : f.Fits context.host (.host id) d) : f.Bears (context.parseDescribed id d value parse) := by
  cases missing : value.isMissing with
  | true =>
    rw [parseDescribed_missing missing]
    exact bears_throw _
  | false =>
    by_cases object : ∃ fields, d.kind = .inputObject fields
    · obtain ⟨fields, kind⟩ := object
      rw [parseDescribed_object missing kind]
      have takes := fits.takes id rfl fields kind
      exact (parseObject_bears id d.name value each takes).bind fun _ _ => (bears_lift _).bind fun _ _ => bears_pure _
    · rw [parseDescribed_leaf missing fun fields kind => object ⟨fields, kind⟩]
      exact (bears_lift _).bind fun _ _ => (bears_lift _).bind fun _ _ => bears_pure _

/-- A firm footing carries the reading of a value at a type that it covers. -/
theorem parse_bears (firm : f.Firm context.host) (type : TypeRef) (value : InputValue) :
    f.Reads type → f.Bears (context.parse type value) := by
  intro reads
  by_cases missing : (type.nullable && (value.resolve context.variableValues).isMissing) = true
  · rw [parse_null missing]
    exact bears_pure _
  have given : context.Given type.nullable value := Bool.eq_false_iff.2 missing
  cases type with
  | named name nullable =>
    change context.Given nullable value at given
    cases name with
    | builtin builtin =>
      rw [parse_builtin given]
      exact bears_lift _
    | host id =>
      rw [parse_host given]
      have described : f.Carries (context.host.describe (.host id)).inInput (f.Fits context.host (.host id)) fun _ => True :=
        (firm.describes (reads id rfl)).adapt _ fun _ _ => trivial
      refine described.bind fun d fits => parseDescribed_bears id d _ ?_ fits
      intro inner field smaller reads
      exact parse_bears firm inner field reads
  | list item nullable =>
    cases absent : (value.resolve context.variableValues).isMissing with
    | true =>
      have strict : nullable = false := by simpa [Given, TypeRef.nullable, absent] using given
      subst strict
      rw [parse_noList absent]
      exact bears_throw _
    | false =>
      rw [parse_list absent]
      refine Carries.map _ (bears_mapM fun entry mem => ?_) fun _ _ => trivial
      exact parse_bears firm item entry reads
  | map item nullable =>
    change context.Given nullable value at given
    rw [parse_map given]
    exact bears_throw _
termination_by (value.weight context.variableValues, type.depth)
decreasing_by
  · rw [InputValue.weight_resolve] at smaller
    exact Prod.Lex.left _ _ smaller
  · subst_vars
    exact InputValue.lex_toList mem (Nat.lt_succ_self _)

end InputContext

/-- The types of the parameters of an operation may be read. -/
def OperationDescriptor.ReadsWithin (operation : OperationDescriptor) (f : Footing) : Prop :=
  match operation.binding with
  | .struct type _ => f.Reads type
  | .arguments params => ∀ param ∈ params, f.Reads param.type

theorem OperationDescriptor.ReadsWithin.mono {g : Footing} {operation : OperationDescriptor} (widens : f.Widens g)
    (reads : operation.ReadsWithin f) : operation.ReadsWithin g := by
  unfold ReadsWithin at reads ⊢
  split at reads
  · exact fun id of => widens _ (reads id of)
  · exact fun param mem id of => widens _ (reads param mem id of)

/-- A firm footing carries the reading of arguments. -/
theorem OperationDescriptor.parseArguments_bears (firm : f.Firm context.host) {operation : OperationDescriptor}
    (reads : operation.ReadsWithin f) (arguments : List (String × Value)) :
    f.Bears (operation.parseArguments context arguments) := by
  refine bears_mapM fun entry mem => ?_
  obtain ⟨type, value⟩ := entry
  refine InputContext.parse_bears firm type value ?_
  unfold ReadsWithin at reads
  unfold bindArguments at mem
  cases bound : operation.binding with
  | struct whole fields =>
    rw [bound] at reads mem
    simp only at mem
    split at mem
    · cases List.mem_singleton.1 mem
      exact reads
    · cases List.mem_singleton.1 mem
      exact reads
  | arguments params =>
    rw [bound] at reads mem
    obtain ⟨param, there, made⟩ := List.mem_map.1 mem
    have same : type = param.type := by
      split at made <;> cases made <;> rfl
    exact same ▸ reads param there

end GraphQL
