import GraphQL.Proofs.Input.Settled

/-!
# Values that are read alike

Two input values, each under an assignment of variables, are read alike if all that reading looks at is alike:
whether they are missing, what constants they are, their items and their fields. `InputContext.Likeness` asks this
of a relation between values, type by type, and `Likeness.parse` concludes by the recursion of parsing that related
values come to the same value or error.
-/

namespace GraphQL

/-- The computations come to the same in all registries of a kind. -/
def InputM.Same {α : Type} (known : Registry → Prop) (m m' : InputM α) : Prop :=
  ∀ r, known r → outcome m r = outcome m' r

namespace InputM

variable {α β : Type} {host : Host} {known : Registry → Prop}

theorem same_refl (m : InputM α) : Same known m m := fun _ _ => rfl

theorem Same.bind {m m' : InputM α} {f f' : α → InputM β} (first : Same known m m')
    (next : ∀ a r r', known r → outcome m r = (.ok a, r') → outcome (f a) r' = outcome (f' a) r') :
    Same known (m >>= f) (m' >>= f') := by
  intro r here
  rw [outcome_bind, outcome_bind, ← first r here]
  cases ran : outcome m r with
  | mk result r' =>
    cases result with
    | error failure => rfl
    | ok a => exact next a r r' here ran

theorem Same.map {m m' : InputM α} (same : Same known m m') (f : α → β) : Same known (f <$> m) (f <$> m') := by
  rw [← bind_pure_comp, ← bind_pure_comp]
  exact same.bind fun _ _ _ _ _ => rfl

theorem Same.mapM (later : ∀ r r', known r → host.Later r r' → known r') {κ κ' : Type} {items : List κ}
    {items' : List κ'} {f : κ → InputM α} {f' : κ' → InputM α}
    (each : List.Forall₂ (fun a b => Same known (f a) (f' b)) items items') (settles : ∀ a ∈ items, host.Settles (f a)) :
    Same known (items.mapM f) (items'.mapM f') := by
  induction each with
  | nil => exact same_refl _
  | cons first _ ih =>
    obtain ⟨settled, others⟩ := List.forall_mem_cons.1 settles
    rw [List.mapM_cons, List.mapM_cons]
    refine first.bind fun a r r' here ran => ?_
    rw [outcome_bind, outcome_bind, ih others r' (later r r' here (settled.later ran))]

end InputM

/-- The same input under another assignment of variables. -/
def InputContext.assigning (context : InputContext) (values : Variables) : InputContext :=
  { context with variableValues := values }

/-- A construction finds in two lists of fields what is alike at the types at which it takes it, and asks nothing
that is answered differently. -/
def Construction.Alike (like : TypeRef → InputValue → InputValue → Prop) :
    Construction → List (String × InputValue) → List (String × InputValue) → Prop
  | done (.ok _), entries, entries' => Entries.keys entries = Entries.keys entries'
  | done (.error _), _, _ => True
  | take name type next, entries, entries' =>
    like type ((Entries.find? name entries).getD .absent) ((Entries.find? name entries').getD .absent) ∧
      ∀ r, (next r).Alike like (Entries.erase name entries) (Entries.erase name entries')
  | ifGiven name next, entries, entries' =>
    Entries.contains name entries = Entries.contains name entries' ∧
      ∀ given, (next given).Alike like entries entries'
  | typeName next, entries, entries' => ∀ name, (next name).Alike like entries entries'

/-- A construction may take the field of a name at a type. -/
inductive Construction.Takes (name : String) (type : TypeRef) : Construction → Prop
  | here {next : Resolved → Construction} : Takes name type (.take name type next)
  | take {name' : String} {type' : TypeRef} {next : Resolved → Construction} (field : Resolved)
    (takes : Takes name type (next field)) : Takes name type (.take name' type' next)
  | ifGiven {name' : String} {next : Bool → Construction} (given : Bool) (takes : Takes name type (next given)) :
    Takes name type (.ifGiven name' next)
  | typeName {next : String → Construction} (typeName : String) (takes : Takes name type (next typeName)) :
    Takes name type (.typeName next)

/-- A construction finds alike what is related at all types at which it may take it. -/
theorem Construction.alike_of_keyed {like : TypeRef → InputValue → InputValue → Prop} {construction : Construction}
    (absent : ∀ name type, construction.Takes name type → like type .absent .absent)
    {entries entries' : List (String × InputValue)}
    (keyed : Entries.Keyed (fun name a b => ∀ type, construction.Takes name type → like type a b) entries entries') :
    construction.Alike like entries entries' := by
  induction construction generalizing entries entries' with
  | done result =>
    cases result with
    | ok built => exact keyed.keys.symm
    | error failure => trivial
  | take name type next ih =>
    constructor
    · obtain ⟨none, none'⟩ | ⟨v, v', some, some', related⟩ := keyed.find? name
      · rw [none, none']
        exact absent name type .here
      · rw [some, some']
        exact related type .here
    · intro field
      refine ih field (fun name type takes => absent name type (.take field takes)) ?_
      exact (keyed.erase name).imp fun _ _ related =>
        related.imp_right fun each type takes => each type (.take field takes)
  | ifGiven name next ih =>
    refine ⟨keyed.contains name, fun given => ?_⟩
    refine ih given (fun name type takes => absent name type (.ifGiven given takes)) ?_
    exact keyed.imp fun _ _ related => related.imp_right fun each type takes => each type (.ifGiven given takes)
  | typeName next ih =>
    intro typeName
    refine ih typeName (fun name type takes => absent name type (.typeName typeName takes)) ?_
    exact keyed.imp fun _ _ related => related.imp_right fun each type takes => each type (.typeName typeName takes)

namespace InputContext

/-- Related values look alike at the types at which they are related, the second under an assignment of its own, in
all registries of a kind. -/
structure Likeness (context : InputContext) (values : Variables) (known : Registry → Prop)
    (like : TypeRef → InputValue → InputValue → Prop) : Prop where
  later : ∀ r r', known r → context.host.Later r r' → known r'
  missing : ∀ {type a b}, like type a b →
    (b.resolve values).isMissing = (a.resolve context.variableValues).isMissing
  builtin : ∀ {builtin nullable a b}, like (.named (.builtin builtin) nullable) a b → context.Given nullable a →
    (b.resolve values).toConst? values = (a.resolve context.variableValues).toConst? context.variableValues
  items : ∀ {item nullable a b}, like (.list item nullable) a b →
    (a.resolve context.variableValues).isMissing = false →
      List.Forall₂ (like item) ((a.resolve context.variableValues).toList context.variableValues)
        ((b.resolve values).toList values)
  leaf : ∀ {id nullable a b r d}, like (.named (.host id) nullable) a b → known r → r.find? (.host id) = some d →
    (∀ fields, d.kind ≠ .inputObject fields) → (a.resolve context.variableValues).isMissing = false →
      (context.assigning values).readLeaf id d (b.resolve values) =
        context.readLeaf id d (a.resolve context.variableValues)
  fields : ∀ {id nullable a b r d declared}, like (.named (.host id) nullable) a b → known r →
    r.find? (.host id) = some d → d.kind = .inputObject declared →
    (a.resolve context.variableValues).isMissing = false →
      (∃ message, (a.resolve context.variableValues).toFields context.variableValues = .error message ∧
        (b.resolve values).toFields values = .error message) ∨
      ∃ entries entries', (a.resolve context.variableValues).toFields context.variableValues = .ok entries ∧
        (b.resolve values).toFields values = .ok entries' ∧
        (context.host.construction id).Alike like entries entries'

section

variable {context : InputContext} {values : Variables} {known : Registry → Prop}
  {like : TypeRef → InputValue → InputValue → Prop} {a b : InputValue}

/-- A construction that takes like values builds the same. -/
theorem Likeness.run (likeness : context.Likeness values known like) {typeName : String} {bound bound' : Nat}
    (pos : 0 < bound) (pos' : 0 < bound')
    (each : ∀ type a b, a.weight context.variableValues < bound → like type a b →
      InputM.Same known (context.parse type a) ((context.assigning values).parse type b))
    (construction : Construction) (fields : LighterFields context.variableValues bound)
    (fields' : LighterFields values bound') (alike : construction.Alike like fields.1 fields'.1) :
    InputM.Same known (construction.run typeName pos (fun type value _ => context.parse type value) fields)
      (construction.run typeName pos' (fun type value _ => (context.assigning values).parse type value) fields') := by
  induction construction generalizing fields fields' with
  | done result =>
    cases result with
    | ok built =>
      rw [Construction.run, Construction.run, show Entries.keys fields.1 = Entries.keys fields'.1 from alike]
      exact InputM.same_refl _
    | error failure => exact InputM.same_refl _
  | take name type next ih =>
    refine (each type _ _ (fields.weight_take name pos) alike.1).bind fun field r r' here ran => ?_
    exact ih field (fields.erase name) (fields'.erase name) (alike.2 field) r'
      (likeness.later r r' here ((parse_settles _ _).later ran))
  | ifGiven name next ih =>
    rw [Construction.run, Construction.run, ← alike.1]
    exact ih _ _ _ (alike.2 _)
  | typeName next ih => exact ih _ _ _ (alike _)

/-- At host types, values are read alike if their fields are. -/
theorem Likeness.parse_host (likeness : context.Likeness values known like) {id : HostId} {nullable : Bool}
    (alike : like (.named (.host id) nullable) a b) (given : context.Given nullable a)
    (given' : (context.assigning values).Given nullable b)
    (each : ∀ type field field', field.weight context.variableValues < a.weight context.variableValues →
      like type field field' → InputM.Same known (context.parse type field) ((context.assigning values).parse type field')) :
    InputM.Same known (context.parse (.named (.host id) nullable) a)
      ((context.assigning values).parse (.named (.host id) nullable) b) := by
  rw [InputContext.parse_host given, InputContext.parse_host given']
  refine (InputM.same_refl _).bind fun d r r' here ran => ?_
  have described := RegistryM.outcome_inInput_eq_ok.1 ran
  have grows : context.host.Later r r' := (context.host.describe_settles _).later described
  have cached : r'.find? (.host id) = some d := Host.describe_caches described
  have here' := likeness.later r r' here grows
  suffices same : InputM.Same known
      (context.parseDescribed id d (a.resolve context.variableValues) fun type field _ => context.parse type field)
      ((context.assigning values).parseDescribed id d (b.resolve values)
        fun type field _ => (context.assigning values).parse type field) from same r' here'
  have missing := likeness.missing alike
  cases absent : (a.resolve context.variableValues).isMissing with
  | true =>
    rw [parseDescribed_missing absent, parseDescribed_missing (missing.trans absent)]
    exact InputM.same_refl _
  | false =>
    by_cases kind : ∀ fields, d.kind ≠ .inputObject fields
    · rw [parseDescribed_leaf absent kind, parseDescribed_leaf (missing.trans absent) kind,
        likeness.leaf alike here' cached kind absent]
      exact InputM.same_refl _
    · obtain ⟨declared, kind⟩ : ∃ declared, d.kind = .inputObject declared := by simpa using kind
      rw [parseDescribed_object absent kind, parseDescribed_object (missing.trans absent) kind]
      refine InputM.Same.bind ?_ fun _ _ _ _ _ => rfl
      obtain ⟨message, failed, failed'⟩ | ⟨entries, entries', found, found', alike⟩ :=
        likeness.fields alike here' cached kind absent
      · rw [parseObject_none failed, parseObject_none failed']
        exact InputM.same_refl _
      · rw [parseObject_some found, parseObject_some found']
        refine InputM.Same.bind ?_ fun _ _ _ _ _ => rfl
        rw [← InputValue.weight_resolve a] at each
        exact likeness.run _ _ each _ _ _ alike

/-- Values that look alike are read alike. -/
theorem Likeness.parse (likeness : context.Likeness values known like) {type : TypeRef} {a b : InputValue}
    (alike : like type a b) :
    InputM.Same known (context.parse type a) ((context.assigning values).parse type b) := by
  have same := likeness.missing alike
  by_cases missing : (type.nullable && (a.resolve context.variableValues).isMissing) = true
  · have missing' : (type.nullable && (b.resolve (context.assigning values).variableValues).isMissing) = true := by
      rw [← missing]
      exact congrArg _ same
    rw [parse_null missing, parse_null missing']
    exact InputM.same_refl _
  have given : context.Given type.nullable a := Bool.eq_false_iff.2 missing
  have given' : (context.assigning values).Given type.nullable b := (congrArg _ same).trans given
  cases type with
  | named name nullable =>
    change context.Given nullable a at given
    change (context.assigning values).Given nullable b at given'
    cases name with
    | builtin builtin =>
      rw [parse_builtin given, parse_builtin given']
      exact fun r _ => congrArg (fun c => outcome (liftM (builtin.parse c)) r) (likeness.builtin alike given).symm
    | host id =>
      exact likeness.parse_host alike given given' fun type field field' smaller alike =>
        likeness.parse alike
  | list item nullable =>
    cases absent : (a.resolve context.variableValues).isMissing with
    | true =>
      have strict : nullable = false := by simpa [Given, TypeRef.nullable, absent] using given
      subst strict
      rw [parse_noList absent, parse_noList (same.trans absent)]
      exact InputM.same_refl _
    | false =>
      rw [parse_list absent, parse_list (same.trans absent)]
      have each (entry entry' : InputValue)
          (mem : entry ∈ (a.resolve context.variableValues).toList context.variableValues) (alike : like item entry entry') :
          InputM.Same known (context.parse item entry) ((context.assigning values).parse item entry') :=
        likeness.parse alike
      have items := (List.forall₂_and_left _ _).2 ⟨fun _ mem => mem, likeness.items alike absent⟩
      refine InputM.Same.map (InputM.Same.mapM likeness.later (items.imp fun entry entry' alike => ?_) ?_) _
      · exact each entry entry' alike.1 alike.2
      · exact fun entry _ => parse_settles item entry
  | map item nullable =>
    change context.Given nullable a at given
    change (context.assigning values).Given nullable b at given'
    rw [parse_map given, parse_map given']
    exact InputM.same_refl _
termination_by (a.weight context.variableValues, type.depth)
decreasing_by
  · exact Prod.Lex.left _ _ smaller
  · subst_vars
    exact InputValue.lex_toList mem (Nat.lt_succ_self _)

/-- Arguments are read alike if what each parameter is given is. -/
theorem Likeness.arguments (likeness : context.Likeness values known like) {operation : OperationDescriptor}
    {arguments arguments' : List (String × Value)}
    (alike : List.Forall₂ (fun part part' => part'.1 = part.1 ∧ like part.1 part.2 part'.2)
      (operation.bindArguments arguments) (operation.bindArguments arguments')) :
    InputM.Same known (operation.parseArguments context arguments)
      (operation.parseArguments (context.assigning values) arguments') := by
  refine InputM.Same.mapM likeness.later (alike.imp fun part part' alike => ?_) fun _ _ => parse_settles _ _
  obtain ⟨type, a⟩ := part
  obtain ⟨type', b⟩ := part'
  obtain ⟨rfl, alike⟩ := alike
  exact likeness.parse alike

end

end InputContext

end GraphQL
