import GraphQL.Proofs.Input.Settled

/-!
# Reading and validating

`InputContext.parse` reads an input value and validates what it reads in one recursion. The two can be told
apart: `InputContext.Reads` says what is read from a value when nothing is validated, and lists the values of
host types that are read, each after those that it contains. `Host.vet` then validates a list of values one
after the other. `Reads.vetted` says that parsing is reading and then vetting: it fails with the first value of
the list that is not valid, or else comes to what was read.
-/

namespace GraphQL

/-- The description of a host type, given the types of a registry. -/
def InputContext.described (context : InputContext) (R : Registry) (id : HostId) : Except Failure TypeDescriptor :=
  (outcome (context.host.describe (.host id)).inInput R).1

/-- What is read at a time. -/
inductive Portion where
  | value (type : TypeRef) (value : InputValue)
  /-- Values one after the other, as of a list or of arguments. -/
  | sequence (parts : List (TypeRef × InputValue))
  /-- The fields of an input object that a construction takes. -/
  | fields (typeName : String) (construction : Construction) (entries : List (String × InputValue))

/-- What a portion is read as: of fields, those of the value that is built and the names left over. -/
abbrev Portion.Result : Portion → Type
  | value .. => Resolved
  | sequence _ => List Resolved
  | fields .. => Entries Resolved × List String

/-- What is read from a portion, given the types of a registry, when nothing is validated. The values of host types
that are read are listed in order, a value after those that it contains. -/
inductive InputContext.Reads (context : InputContext) (R : Registry) :
    (portion : Portion) → List HostValue → Except Failure portion.Result → Prop
  | missing {type : TypeRef} {value : InputValue}
    (missing : (type.nullable && (value.resolve context.variableValues).isMissing) = true) :
    Reads context R (.value type value) [] (.ok .null)
  | builtin {builtin : BuiltinType} {nullable : Bool} {value : InputValue} (given : context.Given nullable value) :
    Reads context R (.value (.named (.builtin builtin) nullable) value) []
      (builtin.parse ((value.resolve context.variableValues).toConst? context.variableValues))
  | map {item : TypeRef} {nullable : Bool} {value : InputValue} (given : context.Given nullable value) :
    Reads context R (.value (.map item nullable) value) [] (.error (.message "a map cannot be used as an input type"))
  | noList {item : TypeRef} {value : InputValue}
    (missing : (value.resolve context.variableValues).isMissing = true) :
    Reads context R (.value (.list item false) value) [] (.error (.message "expected a list, found null"))
  | list {item : TypeRef} {nullable : Bool} {value : InputValue} {hosts : List HostValue}
    {read : Except Failure (List Resolved)} (given : (value.resolve context.variableValues).isMissing = false)
    (items : Reads context R (.sequence
      (((value.resolve context.variableValues).toList context.variableValues).map fun entry => (item, entry))) hosts read) :
    Reads context R (.value (.list item nullable) value) hosts (read.map .list)
  | undescribed {id : HostId} {nullable : Bool} {value : InputValue} {failure : Failure}
    (given : context.Given nullable value) (failed : context.described R id = .error failure) :
    Reads context R (.value (.named (.host id) nullable) value) [] (.error failure)
  | noValue {id : HostId} {value : InputValue} {d : TypeDescriptor} (described : context.described R id = .ok d)
    (missing : (value.resolve context.variableValues).isMissing = true) :
    Reads context R (.value (.named (.host id) false) value) []
      (.error (.message s!"expected a value of type {d.name}, found null"))
  | misfit {id : HostId} {nullable : Bool} {value : InputValue} {d : TypeDescriptor} {failure : Failure}
    (described : context.described R id = .ok d) (given : (value.resolve context.variableValues).isMissing = false)
    (leaf : ∀ fields, d.kind ≠ .inputObject fields)
    (failed : context.readLeaf id d (value.resolve context.variableValues) = .error failure) :
    Reads context R (.value (.named (.host id) nullable) value) [] (.error failure)
  | leaf {id : HostId} {nullable : Bool} {value : InputValue} {d : TypeDescriptor} {read : HostValue}
    (described : context.described R id = .ok d) (given : (value.resolve context.variableValues).isMissing = false)
    (leaf : ∀ fields, d.kind ≠ .inputObject fields)
    (parsed : context.readLeaf id d (value.resolve context.variableValues) = .ok read) :
    Reads context R (.value (.named (.host id) nullable) value) [read] (.ok (.host read))
  | noObject {id : HostId} {nullable : Bool} {value : InputValue} {d : TypeDescriptor} {declared : List TypedItem}
    {message : String} (described : context.described R id = .ok d)
    (given : (value.resolve context.variableValues).isMissing = false) (kind : d.kind = .inputObject declared)
    (failed : (value.resolve context.variableValues).toFields context.variableValues = .error message) :
    Reads context R (.value (.named (.host id) nullable) value) [] (.error (.message message))
  | unbuilt {id : HostId} {nullable : Bool} {value : InputValue} {d : TypeDescriptor} {declared : List TypedItem}
    {entries : List (String × InputValue)} {hosts : List HostValue} {failure : Failure}
    (described : context.described R id = .ok d) (given : (value.resolve context.variableValues).isMissing = false)
    (kind : d.kind = .inputObject declared)
    (found : (value.resolve context.variableValues).toFields context.variableValues = .ok entries)
    (failed : Reads context R (.fields d.name (context.host.construction id) entries) hosts (.error failure)) :
    Reads context R (.value (.named (.host id) nullable) value) hosts (.error failure)
  | leftOver {id : HostId} {nullable : Bool} {value : InputValue} {d : TypeDescriptor} {declared : List TypedItem}
    {entries : List (String × InputValue)} {hosts : List HostValue} {built : Entries Resolved} {name : String}
    {others : List String} (described : context.described R id = .ok d)
    (given : (value.resolve context.variableValues).isMissing = false) (kind : d.kind = .inputObject declared)
    (found : (value.resolve context.variableValues).toFields context.variableValues = .ok entries)
    (taken : Reads context R (.fields d.name (context.host.construction id) entries) hosts (.ok (built, name :: others))) :
    Reads context R (.value (.named (.host id) nullable) value) hosts
      (.error (.message s!"unknown field {name} for input object {d.name}"))
  | object {id : HostId} {nullable : Bool} {value : InputValue} {d : TypeDescriptor} {declared : List TypedItem}
    {entries : List (String × InputValue)} {hosts : List HostValue} {built : Entries Resolved}
    (described : context.described R id = .ok d) (given : (value.resolve context.variableValues).isMissing = false)
    (kind : d.kind = .inputObject declared)
    (found : (value.resolve context.variableValues).toFields context.variableValues = .ok entries)
    (taken : Reads context R (.fields d.name (context.host.construction id) entries) hosts (.ok (built, []))) :
    Reads context R (.value (.named (.host id) nullable) value) (hosts ++ [inputObject id built])
      (.ok (.host (inputObject id built)))
  | nil : Reads context R (.sequence []) [] (.ok [])
  | stop {type : TypeRef} {value : InputValue} {rest : List (TypeRef × InputValue)} {hosts : List HostValue}
    {failure : Failure} (first : Reads context R (.value type value) hosts (.error failure)) :
    Reads context R (.sequence ((type, value) :: rest)) hosts (.error failure)
  | cons {type : TypeRef} {value : InputValue} {rest : List (TypeRef × InputValue)} {hosts more : List HostValue}
    {r : Resolved} {others : Except Failure (List Resolved)} (first : Reads context R (.value type value) hosts (.ok r))
    (next : Reads context R (.sequence rest) more others) :
    Reads context R (.sequence ((type, value) :: rest)) (hosts ++ more) (others.map (r :: ·))
  | done {typeName : String} {entries : List (String × InputValue)} {result : Except Failure (Entries Resolved)} :
    Reads context R (.fields typeName (.done result) entries) []
      (result.map fun built => (built, Entries.keys entries))
  | untaken {typeName name : String} {type : TypeRef} {next : Resolved → Construction}
    {entries : List (String × InputValue)} {hosts : List HostValue} {failure : Failure}
    (first : Reads context R (.value type ((Entries.find? name entries).getD .absent)) hosts (.error failure)) :
    Reads context R (.fields typeName (.take name type next) entries) hosts (.error failure)
  | take {typeName name : String} {type : TypeRef} {next : Resolved → Construction}
    {entries : List (String × InputValue)} {hosts more : List HostValue} {r : Resolved}
    {built : Except Failure (Entries Resolved × List String)}
    (first : Reads context R (.value type ((Entries.find? name entries).getD .absent)) hosts (.ok r))
    (rest : Reads context R (.fields typeName (next r) (Entries.erase name entries)) more built) :
    Reads context R (.fields typeName (.take name type next) entries) (hosts ++ more) built
  | ifGiven {typeName name : String} {next : Bool → Construction} {entries : List (String × InputValue)}
    {hosts : List HostValue} {built : Except Failure (Entries Resolved × List String)}
    (rest : Reads context R (.fields typeName (next (Entries.contains name entries)) entries) hosts built) :
    Reads context R (.fields typeName (.ifGiven name next) entries) hosts built
  | typeName {typeName : String} {next : String → Construction} {entries : List (String × InputValue)}
    {hosts : List HostValue} {built : Except Failure (Entries Resolved × List String)}
    (rest : Reads context R (.fields typeName (next typeName) entries) hosts built) :
    Reads context R (.fields typeName (.typeName next) entries) hosts built

/-! ## Vetting -/

/-- Validates values one after the other: the first failure, or else what is given. -/
def Host.vet {α : Type} (host : Host) : List HostValue → Except Failure α → Except Failure α
  | [], read => read
  | value :: rest, read =>
    match host.validate value.type value with
    | .ok _ => host.vet rest read
    | .error failure => .error failure

namespace Host

variable {α β : Type} {host : Host}

theorem vet_append (hosts more : List HostValue) (read : Except Failure α) :
    host.vet (hosts ++ more) read = host.vet hosts (host.vet more read) := by
  induction hosts with
  | nil => rfl
  | cons value rest ih =>
    rw [List.cons_append, vet, vet]
    split
    · exact ih
    · rfl

/-- What is done with what was read is done after the vetting. -/
theorem vet_bind (hosts : List HostValue) (read : Except Failure α) (f : α → Except Failure β) :
    (host.vet hosts read >>= f) = host.vet hosts (read >>= f) := by
  induction hosts with
  | nil => rfl
  | cons value rest ih =>
    rw [vet, vet]
    split
    · exact ih
    · rfl

theorem vet_map (hosts : List HostValue) (read : Except Failure α) (f : α → β) :
    (host.vet hosts read).map f = host.vet hosts (read.map f) := by
  induction hosts with
  | nil => rfl
  | cons value rest ih =>
    rw [vet, vet]
    split
    · exact ih
    · rfl

theorem vet_eq_ok {hosts : List HostValue} {read : Except Failure α} {a : α} :
    host.vet hosts read = .ok a ↔ read = .ok a ∧ ∀ value ∈ hosts, host.validate value.type value = .ok () := by
  induction hosts with
  | nil => simp [vet]
  | cons value rest ih =>
    rw [vet, List.forall_mem_cons]
    split
    · next valid =>
      rw [ih, valid]
      simp
    · next failure invalid => simp [invalid]

end Host

/-- Wherever the computation begins, it comes to a result if all types that it describes are in a registry. -/
def InputM.Gives {α : Type} (host : Host) (R : Registry) (m : InputM α) (result : Except Failure α) : Prop :=
  ∀ r, host.Covers (outcome m r).2 R → (outcome m r).1 = result

namespace InputM

variable {α β : Type} {host : Host} {R : Registry}

theorem gives_pure (a : α) : Gives host R (pure a) (.ok a) := fun _ _ => rfl

theorem gives_throw (failure : Failure) : Gives host R (throw failure : InputM α) (.error failure) := fun _ _ => rfl

theorem gives_lift (result : Except Failure α) : Gives host R (liftM result) result :=
  fun r _ => by rw [outcome_lift]

theorem Gives.bind {m : InputM α} {f : α → InputM β} {result : Except Failure α} {w : α → Except Failure β}
    (first : Gives host R m result) (next : ∀ a, result = .ok a → Gives host R (f a) (w a))
    (settles : ∀ a, host.Settles (f a)) : Gives host R (m >>= f) (result >>= w) := by
  intro r covers
  have given := first r
  rw [outcome_bind] at covers ⊢
  cases ran : outcome m r with
  | mk found t =>
    rw [ran] at covers given
    cases found with
    | error failure =>
      rw [← given covers]
      rfl
    | ok a =>
      have same : Except.ok a = result := given (covers.after (settles a t).grows)
      rw [← same]
      exact next a same.symm t covers

theorem Gives.map {m : InputM α} {result : Except Failure α} (gives : Gives host R m result) (f : α → β) :
    Gives host R (f <$> m) (result.map f) := by
  rw [← bind_pure_comp]
  have mapped := gives.bind (w := fun a => .ok (f a)) (fun a _ => gives_pure (f a)) fun a => Host.repeats_pure (f a)
  cases result <;> exact mapped

/-- What settles comes to the same everywhere. -/
theorem gives_settled {m : InputM α} (settles : host.Settles m) : Gives host R m (outcome m R).1 := by
  intro r covers
  rw [(settles r).again R covers (Or.inr ⟨trivial, fun _ mem => absurd mem List.not_mem_nil⟩)]

/-- What fails to be read stops the reading. -/
theorem Gives.stop {m : InputM α} {f : α → InputM β} {hosts : List HostValue} {failure : Failure}
    (gives : Gives host R m (host.vet hosts (.error failure))) (settles : ∀ a, host.Settles (f a)) :
    Gives host R (m >>= f) (host.vet hosts (.error failure)) := by
  have stopped := gives.bind (w := fun _ => .error failure) (fun a came => by cases (Host.vet_eq_ok.1 came).1) settles
  rwa [Host.vet_bind] at stopped

/-- After what is read, the reading goes on once that is vetted. -/
theorem Gives.goesOn {m : InputM α} {f : α → InputM β} {hosts : List HostValue} {a : α} {w : Except Failure β}
    (gives : Gives host R m (host.vet hosts (.ok a))) (next : Gives host R (f a) w)
    (settles : ∀ a, host.Settles (f a)) : Gives host R (m >>= f) (host.vet hosts w) := by
  have gone := gives.bind (w := fun _ => w) (fun b came => by cases (Host.vet_eq_ok.1 came).1; exact next) settles
  rwa [Host.vet_bind] at gone

end InputM

namespace InputContext

variable {context : InputContext} {R : Registry} {id : HostId} {nullable : Bool} {value : InputValue}
  {d : TypeDescriptor}

theorem given_of_some (given : (value.resolve context.variableValues).isMissing = false) :
    context.Given nullable value := by
  simp [Given, given]

theorem type_of_readLeaf {read : HostValue} (parsed : context.readLeaf id d value = .ok read) : read.type = id := by
  obtain ⟨r, _, expected⟩ := except_bind_eq_ok.1 parsed
  unfold expectType at expected
  split at expected
  · split at expected
    · next same =>
      cases expected
      exact same
    · cases expected
  · cases expected

theorem gives_described (id : HostId) :
    InputM.Gives context.host R (context.host.describe (.host id)).inInput (context.described R id) :=
  InputM.gives_settled ((Host.describe_settles _).adapt _)

/-- A value of a host type that is described is read as the type says. -/
theorem gives_host {result : Except Failure Resolved} (given : context.Given nullable value)
    (described : context.described R id = .ok d)
    (reads : InputM.Gives context.host R (context.parseDescribed id d (value.resolve context.variableValues)
      fun type field _ => context.parse type field) result) :
    InputM.Gives context.host R (context.parse (.named (.host id) nullable) value) result := by
  rw [parse_host given]
  have first := @gives_described context R id
  rw [described] at first
  refine first.bind (w := fun _ => result) (fun d' same => ?_) fun d' => ?_
  · cases same
    exact reads
  · exact parseDescribed_settles id d' _ fun type field _ => parse_settles type field

/-- What is read at a host type is validated last. -/
theorem gives_validated {m : InputM HostValue} {hosts : List HostValue} {read : Except Failure HostValue}
    (gives : InputM.Gives context.host R m (context.host.vet hosts read)) (typed : ∀ v, read = .ok v → v.type = id) :
    InputM.Gives context.host R (do
      let v ← m
      context.host.validate id v
      return Resolved.host v) (context.host.vet hosts (read >>= fun v => context.host.vet [v] (.ok (.host v)))) := by
  rw [← Host.vet_bind]
  refine gives.bind (fun v came => ?_) fun v => (Host.repeats_lift _).bind fun _ => Host.repeats_pure _
  have same := typed v (Host.vet_eq_ok.1 came).1
  have valid := (@InputM.gives_lift _ context.host R (context.host.validate id v)).bind
    (w := fun _ => .ok (Resolved.host v)) (fun _ _ => InputM.gives_pure _) fun _ => Host.repeats_pure _
  rw [Host.vet, Host.vet, same]
  cases checked : context.host.validate id v <;> rw [checked] at valid <;> exact valid

/-! ## Parsing is reading and vetting -/

/-- What parsing a portion comes to. -/
def Parses (context : InputContext) (R : Registry) :
    (portion : Portion) → Except Failure portion.Result → Prop
  | .value type value => InputM.Gives context.host R (context.parse type value)
  | .sequence parts => InputM.Gives context.host R (parts.mapM fun part => context.parse part.1 part.2)
  | .fields typeName construction entries => fun result =>
    ∀ bound (pos : 0 < bound) light, InputM.Gives context.host R
      (construction.run typeName pos (fun type value _ => context.parse type value)
        (⟨entries, light⟩ : LighterFields context.variableValues bound)) result

theorem run_settles (typeName : String) {bound : Nat} (pos : 0 < bound) (construction : Construction)
    (fields : LighterFields context.variableValues bound) :
    context.host.Settles (construction.run typeName pos (fun type value _ => context.parse type value) fields) :=
  construction.run_settles typeName pos (fun type value _ => parse_settles type value) fields

theorem type_of_objectOf {typeName : String} {taken : Entries Resolved × List String} {v : HostValue}
    (made : objectOf id typeName taken = .ok v) : v.type = id := by
  obtain ⟨built, left⟩ := taken
  cases left with
  | nil =>
    cases made
    rfl
  | cons name others => cases made

/-- An input object is made of the fields that its construction takes. -/
theorem gives_object {declared : List TypedItem} {entries : List (String × InputValue)} {hosts : List HostValue}
    {taken : Except Failure (Entries Resolved × List String)} (described : context.described R id = .ok d)
    (given : (value.resolve context.variableValues).isMissing = false) (kind : d.kind = .inputObject declared)
    (found : (value.resolve context.variableValues).toFields context.variableValues = .ok entries)
    (takes : context.Parses R (.fields d.name (context.host.construction id) entries) (context.host.vet hosts taken)) :
    InputM.Gives context.host R (context.parse (.named (.host id) nullable) value)
      (context.host.vet hosts
        ((taken >>= objectOf id d.name) >>= fun v => context.host.vet [v] (.ok (Resolved.host v)))) := by
  refine gives_host (given_of_some given) described ?_
  rw [parseDescribed_object given kind, parseObject_some found]
  refine gives_validated ?_ fun v made => ?_
  · rw [← Host.vet_bind]
    exact (takes _ _ _).bind (fun taken _ => InputM.gives_lift _) fun _ => Host.repeats_lift _
  · obtain ⟨_, _, made⟩ := except_bind_eq_ok.1 made
    exact type_of_objectOf made

/-- Whatever is read, parsing comes to the first value of it that is not valid, or else to what was read. -/
theorem Reads.vetted {portion : Portion} {hosts : List HostValue} {read : Except Failure portion.Result}
    (reads : context.Reads R portion hosts read) : context.Parses R portion (context.host.vet hosts read) := by
  induction reads with
  | missing missing =>
    change InputM.Gives _ _ _ _
    rw [parse_null missing]
    exact InputM.gives_pure _
  | builtin given =>
    change InputM.Gives _ _ _ _
    rw [parse_builtin given]
    exact InputM.gives_lift _
  | map given =>
    change InputM.Gives _ _ _ _
    rw [parse_map given]
    exact InputM.gives_throw _
  | noList missing =>
    change InputM.Gives _ _ _ _
    rw [parse_noList missing]
    exact InputM.gives_throw _
  | list given _ ih =>
    change InputM.Gives _ _ _ _ at ih ⊢
    rw [List.mapM_map] at ih
    rw [parse_list given, ← Host.vet_map]
    exact ih.map _
  | @undescribed _ _ _ failure given failed =>
    change InputM.Gives _ _ _ _
    rw [parse_host given]
    have first := @gives_described context R ‹_›
    rw [failed] at first
    exact first.bind (w := fun _ => .error failure) (fun _ came => by cases came)
      fun d => parseDescribed_settles _ d _ fun type field _ => parse_settles type field
  | noValue described missing =>
    refine gives_host rfl described ?_
    rw [parseDescribed_missing missing]
    exact InputM.gives_throw _
  | misfit described given leaf failed =>
    refine gives_host (given_of_some given) described ?_
    rw [parseDescribed_leaf given leaf, failed]
    exact @gives_validated _ _ _ _ [] _ (InputM.gives_lift (.error _)) fun _ came => by cases came
  | leaf described given leaf parsed =>
    refine gives_host (given_of_some given) described ?_
    rw [parseDescribed_leaf given leaf, parsed]
    refine @gives_validated _ _ _ _ [] _ (InputM.gives_lift (.ok _)) fun _ came => ?_
    cases came
    exact type_of_readLeaf parsed
  | noObject described given kind failed =>
    refine gives_host (given_of_some given) described ?_
    rw [parseDescribed_object given kind, parseObject_none failed]
    exact @gives_validated _ _ _ _ [] _ (InputM.gives_throw _) fun _ came => by cases came
  | unbuilt described given kind found _ ih => exact gives_object described given kind found ih
  | leftOver described given kind found _ ih => exact gives_object described given kind found ih
  | object described given kind found _ ih =>
    rw [Host.vet_append]
    exact gives_object described given kind found ih
  | nil => exact InputM.gives_pure []
  | stop _ ih =>
    change InputM.Gives _ _ (List.mapM _ (_ :: _)) _
    rw [List.mapM_cons]
    exact ih.stop fun _ => (Host.repeats_mapM _ fun _ _ => parse_settles _ _).bind fun _ => Host.repeats_pure _
  | cons _ _ first ih =>
    change InputM.Gives _ _ (List.mapM _ (_ :: _)) _
    rw [List.mapM_cons, Host.vet_append, ← Host.vet_map]
    refine first.goesOn ?_ fun _ =>
      (Host.repeats_mapM _ fun _ _ => parse_settles _ _).bind fun _ => Host.repeats_pure _
    rw [bind_pure_comp]
    exact ih.map _
  | @done _ _ result =>
    intro bound pos light
    cases result with
    | ok built => exact InputM.gives_pure _
    | error failure => exact InputM.gives_throw _
  | untaken _ ih =>
    intro bound pos light
    exact ih.stop fun r => run_settles _ _ _ _
  | take _ _ first ih =>
    intro bound pos light
    rw [Host.vet_append]
    exact first.goesOn (ih bound pos _) fun r => run_settles _ _ _ _
  | ifGiven _ ih =>
    intro bound pos light
    exact ih bound pos light
  | typeName _ ih =>
    intro bound pos light
    exact ih bound pos light

/-! ## Everything can be read -/

end InputContext

/-- What is read of the arguments of an operation, each parameter in turn. -/
def OperationDescriptor.Reads (operation : OperationDescriptor) (context : InputContext) (R : Registry)
    (arguments : List (String × Value)) (hosts : List HostValue) (read : Except Failure (List Resolved)) : Prop :=
  context.Reads R (.sequence (operation.bindArguments arguments)) hosts read

namespace OperationDescriptor

variable {operation : OperationDescriptor} {context : InputContext} {arguments : List (String × Value)}

/-- Arguments are parsed by reading them and vetting what was read. -/
theorem Reads.parses {R : Registry} {hosts : List HostValue} {read : Except Failure (List Resolved)}
    (reads : operation.Reads context R arguments hosts read) {r : Registry}
    (covers : context.host.Covers (outcome (operation.parseArguments context arguments) r).2 R) :
    (outcome (operation.parseArguments context arguments) r).1 = context.host.vet hosts read :=
  InputContext.Reads.vetted reads r covers

end OperationDescriptor

end GraphQL
