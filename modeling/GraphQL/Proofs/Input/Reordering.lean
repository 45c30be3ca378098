import GraphQL.Proofs.Input.Settled
import GraphQL.Proofs.Registry.Declared

/-!
# Arguments in another order

Arguments are found by their names, and so are the fields that a construction takes: in which order they are written
makes no difference, as long as those of one name stay in their order. The leftover fields are not found by name, but
whether there are any is the same, and an error either way. Only a custom scalar that is given all arguments
as one object may look at the order of its entries. `OperationDescriptor.parseArguments_reordered` says so.
-/

namespace GraphQL

/-- Both come to the same value, or both fail. -/
inductive Concur {ε α : Type} : Except ε α → Except ε α → Prop
  | success (a : α) : Concur (.ok a) (.ok a)
  | failure (e e' : ε) : Concur (.error e) (.error e')

namespace Concur

variable {ε α β : Type}

theorem refl : ∀ result : Except ε α, Concur result result
  | .ok a => .success a
  | .error e => .failure e e

theorem bind {first first' : Except ε α} (concur : Concur first first') (next : α → Except ε β) :
    Concur (first >>= next) (first' >>= next) := by
  cases concur with
  | success a => exact refl _
  | failure e e' => exact .failure e e'

end Concur

/-- From a registry both computations come to the same value, or both fail, and they describe the same types. -/
structure InputM.ConcurAt {α : Type} (r : Registry) (m m' : InputM α) : Prop where
  results : Concur (outcome m r).1 (outcome m' r).1
  registries : (outcome m r).2 = (outcome m' r).2

namespace InputM.ConcurAt

variable {α β : Type} {r : Registry} {m m' : InputM α}

theorem refl (m : InputM α) (r : Registry) : ConcurAt r m m := ⟨.refl _, rfl⟩

theorem lift {result result' : Except Failure α} (concur : Concur result result') (r : Registry) :
    ConcurAt r (liftM result) (liftM result') := by
  constructor
  · rw [outcome_lift, outcome_lift]
    exact concur
  · rw [outcome_lift, outcome_lift]

theorem bind {f f' : α → InputM β} (first : ConcurAt r m m')
    (next : ∀ a r', outcome m r = (.ok a, r') → ConcurAt r' (f a) (f' a)) : ConcurAt r (m >>= f) (m' >>= f') := by
  obtain ⟨results, registries⟩ := first
  cases ran : outcome m r with
  | mk result s =>
    cases ran' : outcome m' r with
    | mk result' s' =>
      rw [ran, ran'] at results registries
      cases registries
      cases results with
      | success a =>
        obtain ⟨results, registries⟩ := next a s ran
        constructor
        · rwa [outcome_bind_of_ok ran, outcome_bind_of_ok ran']
        · rwa [outcome_bind_of_ok ran, outcome_bind_of_ok ran']
      | failure e e' =>
        constructor
        · rw [outcome_bind_of_error ran, outcome_bind_of_error ran']
          exact .failure e e'
        · rw [outcome_bind_of_error ran, outcome_bind_of_error ran']

theorem map (concur : ConcurAt r m m') (f : α → β) : ConcurAt r (f <$> m) (f <$> m') := by
  rw [← bind_pure_comp, ← bind_pure_comp]
  exact concur.bind fun a r' _ => refl _ r'

end InputM.ConcurAt

/-- A custom scalar reads literal objects that have the same entries in another order alike. -/
def ScalarDescriptor.DisregardsOrder (scalar : ScalarDescriptor) : Prop :=
  ∀ entries entries', (Entries.keys entries).Nodup → entries.Perm entries' →
    Concur (scalar.parseLiteral (.object entries)) (scalar.parseLiteral (.object entries'))

/-- A type is read as an input object, or by a custom scalar to which the order of entries makes no difference. -/
def Host.DisregardsOrder (host : Host) (r : Registry) (id : HostId) : Prop :=
  host.TakesFields r id ∨ ∃ scalar, r.custom? id = some scalar ∧ scalar.DisregardsOrder

theorem Host.Later.disregardsOrder {host : Host} {r r' : Registry} {id : HostId} (later : host.Later r r')
    (disregards : host.DisregardsOrder r id) : host.DisregardsOrder r' id := by
  rcases disregards with takes | ⟨scalar, custom, disregards⟩
  · exact Or.inl (later.takesFields takes)
  · exact Or.inr ⟨scalar, (later.custom? id).trans custom, disregards⟩

namespace InputContext

variable {context : InputContext} {entries entries' : List (String × InputValue)}

/-! ## Input objects -/

/-- Whether fields are left over does not depend on their order. -/
theorem objectOf_reordered (id : HostId) (typeName : String) (built : Entries Resolved)
    (reordered : Entries.Reordered entries entries') :
    Concur (objectOf id typeName (built, Entries.keys entries)) (objectOf id typeName (built, Entries.keys entries')) := by
  have perm := reordered.perm.map Prod.fst
  change Concur (objectOf id typeName (built, entries.map Prod.fst)) (objectOf id typeName (built, entries'.map Prod.fst))
  cases left : entries.map Prod.fst with
  | nil =>
    rw [left] at perm
    rw [perm.nil_eq]
    exact .refl _
  | cons name rest =>
    cases left' : entries'.map Prod.fst with
    | nil =>
      rw [left, left'] at perm
      exact absurd perm.eq_nil (List.cons_ne_nil _ _)
    | cons name' rest' => exact .failure _ _

/-- A construction takes its fields by name. -/
theorem run_reordered (id : HostId) (typeName : String) {bound bound' : Nat} (pos : 0 < bound) (pos' : 0 < bound')
    (construction : Construction) (fields : LighterFields context.variableValues bound)
    (fields' : LighterFields context.variableValues bound') (reordered : Entries.Reordered fields.1 fields'.1)
    (r : Registry) :
    InputM.ConcurAt r
      (construction.run typeName pos (fun type value _ => context.parse type value) fields >>= fun taken =>
        liftM (objectOf id typeName taken))
      (construction.run typeName pos' (fun type value _ => context.parse type value) fields' >>= fun taken =>
        liftM (objectOf id typeName taken)) := by
  induction construction generalizing fields fields' r with
  | done result =>
    cases result with
    | ok built => exact .lift (objectOf_reordered id typeName built reordered) r
    | error failure => exact .refl _ r
  | take name type next ih =>
    rw [Construction.run, Construction.run, bind_assoc, bind_assoc, ← reordered.find? name]
    exact (InputM.ConcurAt.refl _ r).bind fun field r' _ =>
      ih field (fields.erase name) (fields'.erase name) (reordered.erase name) r'
  | ifGiven name next ih =>
    rw [Construction.run, Construction.run, ← reordered.contains name]
    exact ih _ fields fields' reordered r
  | typeName next ih => exact ih _ fields fields' reordered r

/-! ## Custom scalars -/

theorem toConstFields_eq (values : Variables) (entries : List (String × InputValue)) :
    InputValue.toConstFields values entries =
      entries.filterMap fun entry => (entry.2.toConst? values).map fun c => (entry.1, c) := by
  induction entries with
  | nil => rfl
  | cons entry rest ih =>
    rw [InputValue.toConstFields, List.filterMap_cons, ih]
    cases entry.2.toConst? values <;> rfl

theorem keys_toConstFields_sublist (values : Variables) (entries : List (String × InputValue)) :
    (Entries.keys (InputValue.toConstFields values entries)).Sublist (Entries.keys entries) := by
  induction entries with
  | nil => exact .refl _
  | cons entry rest ih =>
    rw [InputValue.toConstFields]
    split
    · exact ih.cons_cons _
    · exact ih.cons _

/-- What a custom scalar is given has its entries in another order as well. -/
theorem readLeaf_reordered {id : HostId} {d : TypeDescriptor} {scalar : ScalarDescriptor}
    (custom : d.kind = .scalar (.custom scalar)) (disregards : scalar.DisregardsOrder)
    (distinct : (Entries.keys entries).Nodup) (reordered : Entries.Reordered entries entries') :
    Concur (context.readLeaf id d (.fields entries)) (context.readLeaf id d (.fields entries')) := by
  have given (entries : List (String × InputValue)) : parseLeaf context id d (.fields entries) =
      scalar.parseLiteral (.object (InputValue.toConstFields context.variableValues entries)) := by
    unfold parseLeaf
    rw [custom]
    rfl
  unfold readLeaf
  rw [given, given]
  refine (disregards _ _ (distinct.sublist (keys_toConstFields_sublist _ _)) ?_).bind _
  rw [toConstFields_eq, toConstFields_eq]
  exact reordered.perm.filterMap _

/-! ## Types -/

/-- At a host type that is described, entries in another order are read alike. -/
theorem parseDescribed_reordered {id : HostId} {d : TypeDescriptor} {r : Registry}
    (disregards : context.host.DisregardsOrder r id) (cached : r.find? (.host id) = some d)
    (distinct : (Entries.keys entries).Nodup) (reordered : Entries.Reordered entries entries') :
    InputM.ConcurAt r
      (context.parseDescribed id d (.fields entries) fun type field _ => context.parse type field)
      (context.parseDescribed id d (.fields entries') fun type field _ => context.parse type field) := by
  rcases disregards with takes | ⟨scalar, custom, disregards⟩
  · obtain ⟨declared, kind⟩ := takes.kind cached
    rw [parseDescribed_object rfl kind, parseDescribed_object rfl kind]
    refine InputM.ConcurAt.bind ?_ fun read r' _ => .refl _ r'
    rw [parseObject_some (rfl : (InputValue.fields entries).toFields context.variableValues = .ok entries),
      parseObject_some (rfl : (InputValue.fields entries').toFields context.variableValues = .ok entries')]
    exact run_reordered id d.name _ _ _ _ _ reordered r
  · have kind : d.kind = .scalar (.custom scalar) := by
      rw [Registry.custom?, cached] at custom
      simp only at custom
      unfold TypeKind.custom? at custom
      split at custom
      · next descriptor same => rw [same, Option.some.inj custom]
      · cases custom
    have leaf (fields : List TypedItem) : d.kind ≠ .inputObject fields := by simp [kind]
    rw [parseDescribed_leaf rfl leaf, parseDescribed_leaf rfl leaf]
    refine InputM.ConcurAt.bind ?_ fun read r' _ => .refl _ r'
    exact .lift (readLeaf_reordered kind disregards distinct reordered) r

/-- Entries in another order are read alike at any type. -/
theorem parse_reordered (type : TypeRef) {r : Registry}
    (disregards : ∀ id, type.namedType = .host id → context.host.DisregardsOrder r id)
    (distinct : (Entries.keys entries).Nodup) (reordered : Entries.Reordered entries entries') :
    InputM.ConcurAt r (context.parse type (.fields entries)) (context.parse type (.fields entries')) := by
  have given (nullable : Bool) (entries : List (String × InputValue)) : context.Given nullable (.fields entries) :=
    Bool.and_false nullable
  induction type with
  | named name nullable =>
    cases name with
    | builtin builtin =>
      rw [parse_builtin (given _ _), parse_builtin (given _ _)]
      refine .lift ?_ r
      cases builtin <;> exact .failure _ _
    | host id =>
      rw [parse_host (given _ _), parse_host (given _ _)]
      refine (InputM.ConcurAt.refl _ r).bind fun d r' ran => ?_
      have described := RegistryM.outcome_inInput_eq_ok.1 ran
      have later : context.host.Later r r' := (context.host.describe_settles _).later described
      exact parseDescribed_reordered (later.disregardsOrder (disregards id rfl)) (Host.describe_caches described)
        distinct reordered
  | list item nullable ih =>
    rw [parse_list rfl, parse_list rfl]
    refine InputM.ConcurAt.map ?_ _
    change InputM.ConcurAt r ([InputValue.fields entries].mapM _) ([InputValue.fields entries'].mapM _)
    rw [List.mapM_cons, List.mapM_cons]
    exact (ih disregards).bind fun read r' _ => .refl _ r'
  | map item nullable =>
    rw [parse_map (given _ _), parse_map (given _ _)]
    exact .refl _ r

end InputContext

/-! ## Arguments -/

/-- Arguments in another order give the parameters the same values, or both fail, if in struct mode the order makes no
difference to the type of the parameter. -/
theorem OperationDescriptor.parseArguments_reordered {operation : OperationDescriptor} {context : InputContext}
    {r : Registry} {arguments arguments' : List (String × Value)} (reordered : Entries.Reordered arguments arguments')
    (disregards : ∀ type fields id, operation.binding = .struct type fields → type.namedType = .host id →
      context.host.DisregardsOrder r id) :
    InputM.ConcurAt r (operation.parseArguments context arguments) (operation.parseArguments context arguments') := by
  unfold parseArguments
  cases bound : operation.binding with
  | arguments params =>
    have same : operation.bindArguments arguments = operation.bindArguments arguments' := by
      rw [bindArguments_params bound, bindArguments_params bound]
      exact List.map_congr_left fun param _ => by rw [reordered.find?]
    rw [same]
    exact .refl _ r
  | struct type fields =>
    have empty : arguments.isEmpty = arguments'.isEmpty := reordered.perm.isEmpty_eq
    cases none : arguments.isEmpty && type.nullable with
    | true =>
      rw [bindArguments_absent bound none, bindArguments_absent bound (empty ▸ none)]
      exact .refl _ r
    | false =>
      rw [bindArguments_struct bound none, bindArguments_struct bound (empty ▸ none), List.mapM_cons, List.mapM_cons]
      refine InputM.ConcurAt.bind ?_ fun read r' _ => .refl _ r'
      refine InputContext.parse_reordered type (disregards type fields · bound) ?_ (reordered.ofList.map InputValue.literal)
      rw [Entries.keys, List.map_map]
      exact Entries.nodup_keys_ofList arguments

end GraphQL
