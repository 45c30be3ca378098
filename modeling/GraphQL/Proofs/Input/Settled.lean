import GraphQL.Proofs.Input.ByType
import GraphQL.Proofs.Registry.Settled

/-!
# Reading input settles

Reading an input value describes the host types that it meets and does nothing else to the registry, so
it comes to the same value or error in every later registry.
-/

namespace GraphQL

/-- While input is read, types are described as ever. -/
theorem RegistryM.outcome_inInput_eq_ok {α : Type} {m : RegistryM α} {a : α} {r r' : Registry} :
    outcome m.inInput r = (.ok a, r') ↔ outcome m r = (.ok a, r') := by
  rw [RegistryM.inInput, outcome_adapt]
  cases outcome m r with
  | mk result s =>
    cases result with
    | error e =>
      constructor
      · intro same
        cases same
      · intro same
        cases same
    | ok b =>
      constructor
      · intro same
        cases same
        rfl
      · intro same
        cases same
        rfl

variable {context : InputContext}

/-- A construction reads its fields one after the other. -/
theorem Construction.run_settles {values : Variables} {bound : Nat} {host : Host} (typeName : String) (pos : 0 < bound)
    {parse : TypeRef → (value : InputValue) → value.weight values < bound → InputM Resolved}
    (each : ∀ type value smaller, host.Settles (parse type value smaller)) (construction : Construction)
    (fields : LighterFields values bound) : host.Settles (construction.run typeName pos parse fields) := by
  induction construction generalizing fields with
  | done result =>
    cases result with
    | ok built => exact Host.repeats_pure _
    | error failure => exact Host.repeats_throw _
  | take name type next ih => exact (each _ _ _).bind fun field => ih field _
  | ifGiven name next ih => exact ih _ _
  | typeName next ih => exact ih _ _

namespace InputContext

theorem parseObject_settles (id : HostId) (typeName : String) (value : InputValue)
    {parse : TypeRef → (field : InputValue) →
      field.weight context.variableValues < value.weight context.variableValues → InputM Resolved}
    (each : ∀ type field smaller, context.host.Settles (parse type field smaller)) :
    context.host.Settles (context.parseObject id typeName value parse) := by
  unfold parseObject
  split
  · exact Host.repeats_throw _
  · apply (Construction.run_settles typeName _ each _ _).bind
    rintro ⟨built, left⟩
    cases left with
    | nil => exact Host.repeats_pure _
    | cons name rest => exact Host.repeats_throw _

theorem parseDescribed_settles (id : HostId) (d : TypeDescriptor) (value : InputValue)
    {parse : TypeRef → (field : InputValue) →
      field.weight context.variableValues < value.weight context.variableValues → InputM Resolved}
    (each : ∀ type field smaller, context.host.Settles (parse type field smaller)) :
    context.host.Settles (context.parseDescribed id d value parse) := by
  unfold parseDescribed
  split
  · exact Host.repeats_throw _
  · split
    · exact (parseObject_settles id d.name value each).bind fun _ => (Host.repeats_lift _).bind fun _ =>
        Host.repeats_pure _
    · exact (Host.repeats_lift _).bind fun _ => (Host.repeats_lift _).bind fun _ => (Host.repeats_lift _).bind fun _ =>
        Host.repeats_pure _

/-- Reading a value at a type comes to the same in every later registry. -/
theorem parse_settles (type : TypeRef) (value : InputValue) : context.host.Settles (context.parse type value) := by
  by_cases missing : (type.nullable && (value.resolve context.variableValues).isMissing) = true
  · rw [parse_null missing]
    exact Host.repeats_pure _
  have given : context.Given type.nullable value := Bool.eq_false_iff.2 missing
  cases type with
  | named name nullable =>
    change context.Given nullable value at given
    cases name with
    | builtin builtin =>
      rw [parse_builtin given]
      exact Host.repeats_lift _
    | host id =>
      rw [parse_host given]
      refine ((Host.describe_settles _).adapt _).bind fun d => parseDescribed_settles id d _ ?_
      intro inner field smaller
      exact parse_settles inner field
  | list item nullable =>
    cases absent : (value.resolve context.variableValues).isMissing with
    | true =>
      have strict : nullable = false := by simpa [Given, TypeRef.nullable, absent] using given
      subst strict
      rw [parse_noList absent]
      exact Host.repeats_throw _
    | false =>
      rw [parse_list absent]
      refine (Host.repeats_mapM _ fun entry mem => ?_).map _
      exact parse_settles item entry
  | map item nullable =>
    change context.Given nullable value at given
    rw [parse_map given]
    exact Host.repeats_throw _
termination_by (value.weight context.variableValues, type.depth)
decreasing_by
  · rw [InputValue.weight_resolve] at smaller
    exact Prod.Lex.left _ _ smaller
  · exact InputValue.lex_toList mem (Nat.lt_succ_self _)

end InputContext

/-- Reading the arguments of an operation comes to the same in every later registry. -/
theorem OperationDescriptor.parseArguments_settles (context : InputContext) (operation : OperationDescriptor)
    (arguments : List (String × Value)) : context.host.Settles (operation.parseArguments context arguments) :=
  Host.repeats_mapM _ fun _ _ => InputContext.parse_settles _ _

end GraphQL
