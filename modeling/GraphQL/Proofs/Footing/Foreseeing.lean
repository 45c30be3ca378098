import GraphQL.Proofs.Footing.Schemas
import GraphQL.Proofs.Registry.Declared
import GraphQL.Proofs.Registry.Foretold

/-!
# The footing of what is foretold

Where the descriptors of some types are foretold and refer only to such types, computations that describe no others
come to the same in every registry that has these descriptors, whatever else it has. They fail to describe a type
only if another type has the name of a custom scalar.
-/

namespace GraphQL

open Footing HoldsRegistry Registry

namespace Host

/-- Input objects take only values of the types that their fields are declared with. -/
def TakesDeclared (host : Host) : Prop :=
  ∀ (id : HostId) (type : HostType), host.types[id]? = some type → declaredKinds type.description = ["input object"] →
    type.construct.TakesWithin fun taken => ∀ other, taken.namedType = .host other →
      .host other ∈ type.description.inputFields.map (·.type.namedType)

/-- Registries that describing types leads to from a given one, where some types are foretold; those that have the
descriptors of these types stand in for them. -/
def foreseeing (host : Host) (start : Registry) (types : NamedType → Prop) : Footing where
  sound r := host.Later start r ∧ (start.Unclaimed → r.Unclaimed)
  standsIn r R := start.Unclaimed ∧ (∀ type, R.scalar? type = r.scalar? type) ∧
    ∀ type d, types type → start.foretold? type = some d → R.find? type = some d
  covers := types
  refuses _ := ¬start.Unclaimed

/-- What is foretold of more types is a wider footing. -/
theorem foreseeing_widens {host host' : Host} {r r' : Registry} {types types' : NamedType → Prop}
    (more : ∀ type, types type → types' type) : (host.foreseeing r types).Widens (host'.foreseeing r' types') := more

variable {host : Host} {r : Registry} {types : NamedType → Prop}

/-- An input object has the fields that its type declares. -/
theorem Reachable.inputObject (reachable : host.Reachable r) {id : HostId} {d : TypeDescriptor}
    (cached : r.find? (.host id) = some d) {fields : List TypedItem} (kind : d.kind = .inputObject fields) :
    ∃ type, host.types[id]? = some type ∧ declaredKinds type.description = ["input object"] ∧
      fields = type.description.inputFields := by
  suffices all : ∀ entry ∈ r.descriptors, ∀ id fields, entry.1 = NamedType.host id →
      entry.2.kind = .inputObject fields →
      ∃ type, host.types[id]? = some type ∧ declaredKinds type.description = ["input object"] ∧
        fields = type.description.inputFields from
    all _ (Entries.mem_of_find? cached) id fields rfl kind
  refine reachable.all fun r d _ made id fields of kind => ?_
  rcases made.builds of with ⟨scalar, -, custom⟩ | ⟨-, type, known, builds⟩
  · rw [custom] at kind
    cases kind
  · rw [kind] at builds
    cases builds with
    | inputObject declared => exact ⟨type, known, declared, rfl⟩

variable (reachable : host.Reachable r) (closed : r.Closed types) (declared : host.TakesDeclared)

include reachable closed declared

theorem fits_foreseeing {type : NamedType} (here : types type) {d : TypeDescriptor} (foretold : r.foretold? type = some d) :
    (host.foreseeing r types).Fits host type d := by
  obtain ⟨e, foretold', references⟩ := closed type here
  rw [foretold] at foretold'
  cases foretold'
  refine ⟨references, ?_⟩
  rintro id rfl fields kind
  rcases foretold?_cases foretold with cached | ⟨-, ⟨scalar, -, rfl⟩ | ⟨-, b, of, -⟩⟩
  · obtain ⟨type, known, input, rfl⟩ := reachable.inputObject cached kind
    have construction : host.construction id = type.construct := by rw [Host.construction, known]
    rw [construction]
    refine (declared id type known input).mono fun taken within other of => ?_
    refine references _ ?_
    unfold TypeDescriptor.references
    rw [kind]
    exact within other of
  · cases kind
  · cases of

/-- What is foretold of closed types is a firm footing. -/
theorem foreseeing_firm : (host.foreseeing r types).Firm host where
  scalar? standsIn type := standsIn.2.1 type
  describes {type} here := by
    rintro s ⟨later, unclaimed⟩
    obtain ⟨d, foretold, -⟩ := closed type here
    have fits := fits_foreseeing reachable closed declared here foretold
    have foretold' : s.foretold? type = some d := later.foretold? foretold
    have coherent : s.Coherent := later.coherent reachable.coherent
    have grows : host.Later s (outcome (host.describe type) s).2 := (describe_settles type s).grows
    have again (R : Registry) (standsIn : (host.foreseeing r types).standsIn (outcome (host.describe type) s).2 R) :
        (host.foreseeing r types).standsIn s R ∧ outcome (host.describe type) R = (.ok d, R) := by
      obtain ⟨free, scalars, cached⟩ := standsIn
      refine ⟨⟨free, fun type => ?_, cached⟩, describeWithin_cached (cached type d here foretold)⟩
      rw [scalars, grows.scalar?]
    have succeeds {t : Registry} (ran : outcome (host.describe type) s = (.ok d, t)) (kept : s.Unclaimed → t.Unclaimed) :
        (host.foreseeing r types).CarriesAt (host.describe type) ((host.foreseeing r types).Fits host type)
          (host.foreseeing r types).refuses s := by
      rw [ran] at grows again
      refine ⟨?_, fun e same => ?_, fun e same => ?_, ?_⟩ <;> rw [ran] at *
      · exact ⟨Later.trans later grows, fun free => kept (unclaimed free)⟩
      · cases same
        exact fits
      · cases same
      · exact again
    rcases @describe_foretold host _ _ _ foretold' with ran | ⟨fresh, ran | ⟨claimed, e, ran⟩⟩
    · exact succeeds ran id
    · exact succeeds ran fun free => free.put coherent fresh foretold'
    · have refused : ¬r.Unclaimed := fun free => claimed (unclaimed free)
      refine ⟨?_, fun e same => ?_, fun _ _ => refused, fun R standsIn => absurd standsIn.1 refused⟩ <;> rw [ran] at *
      · exact ⟨later, unclaimed⟩
      · cases same

end Host

/-! ## Operations -/

/-- The types of the parameters. -/
def Binding.types : Binding → List TypeRef
  | struct type _ => [type]
  | .arguments params => params.map (·.type)

/-- The types that an operation takes and gives. -/
def OperationDescriptor.types (operation : OperationDescriptor) : List TypeRef :=
  operation.output :: operation.binding.types

/-- An operation is within a footing that covers the builtin types if and only if its types are covered. -/
theorem OperationDescriptor.within_iff {f : Footing} (builtin : ∀ b, f.covers (.builtin b))
    (operation : OperationDescriptor) :
    operation.Within f ↔ ∀ type ∈ operation.types, f.covers type.namedType := by
  have read {type : TypeRef} : f.Reads type ↔ f.covers type.namedType := by
    constructor
    · intro reads
      cases named : type.namedType with
      | builtin b => exact builtin b
      | host id => exact reads id named
    · exact fun covered id named => named ▸ covered
  have reads : operation.ReadsWithin f ↔ ∀ type ∈ operation.binding.types, f.covers type.namedType := by
    unfold ReadsWithin Binding.types
    cases operation.binding with
    | struct type fields => simp only [List.forall_mem_singleton, read]
    | arguments params => simp only [List.forall_mem_map, read]
  rw [OperationDescriptor.types, List.forall_mem_cons, ← reads]
  exact ⟨fun within => ⟨within.output, within.reads⟩, fun types => ⟨types.2, types.1⟩⟩

namespace OperationDeclaration

variable {o : OperationDeclaration} {host : Host} {r r' : Registry} {operation : OperationDescriptor}

/-- Arguments are read as the types of the parameters, in order. -/
theorem types_of_bind {fields : Option (List String)} {mode : ParamMode} {binding : Binding}
    (single : ∀ names, fields = some names → ∃ param, o.params = [param]) (bound : o.bind fields mode = .ok binding) :
    binding.types = o.params := by
  unfold bind at bound
  cases mode <;> simp only at bound
  case struct =>
    split at bound
    · cases bound
    · split at bound
      · next names param rest params =>
        cases bound
        obtain ⟨only, params'⟩ := single names rfl
        cases params.symm.trans params'
        exact params.symm
      · cases bound
  case named =>
    split at bound
    · cases bound
    · next same =>
      rw [ne_eq, not_not] at same
      split at bound
      · cases bound
      · cases bound
        change (o.names.zipWith Param.mk o.params).map (·.type) = o.params
        rw [← List.map_uncurry_zip_eq_zipWith, List.map_map]
        exact List.map_snd_zip (Nat.le_of_eq same.symm)
  all_goals
    split at bound
    · cases bound
    · cases bound
      change (o.params.mapIdx fun i type => (⟨s!"arg{i + 1}", type⟩ : Param)).map (·.type) = o.params
      exact List.ext_getElem (by simp) fun i _ _ => by simp

/-- How an operation that is described comes from its declaration: the type of its only parameter, if it has one
that is no list, is described to find whether it is an input object, then the arguments are bound, and then all types
that the operation leads to are described. -/
theorem describe_eq_ok (ran : outcome (o.describe host) r = (.ok operation, r')) :
    ∃ fields r₁ binding, host.Later r r₁ ∧
      (∀ names, fields = some names →
        ∃ param, o.params = [param] ∧ ∀ id, param.namedType = .host id → host.TakesFields r₁ id) ∧
      o.bind fields (o.resolveMode fields.isSome) = .ok binding ∧
      outcome (host.ensureReachable (o.params ++ [o.output])) r₁ = (.ok (), r') ∧
      operation =
        { kind := o.kind, name := o.name, info := o.info, output := o.output, mode := o.resolveMode fields.isSome,
          binding, resolver := o.resolver } := by
  unfold describe at ran
  extract_lets rest settled at ran
  have looked {param : TypeRef} {fields : Option (List String)} {r₁ : Registry}
      (ran : outcome (inputObjectFields? host param) r = (.ok fields, r₁)) :
      host.Later r r₁ ∧ ∀ names, fields = some names → ∀ id, param.namedType = .host id → host.TakesFields r₁ id := by
    obtain ⟨d, r₂, described, ran⟩ := outcome_bind_eq_ok.1 ran
    have later : host.Later r r₂ := (Host.describe_settles _).later described
    split at ran
    · next declared kind =>
      cases ran
      refine ⟨later, fun _ _ id named => ?_⟩
      rw [Host.TakesFields, ← named, Host.describe_caches described]
      exact ⟨declared, kind⟩
    · cases ran
      exact ⟨later, fun names same => by cases same⟩
  obtain ⟨fields, r₁, later, input, ran⟩ : ∃ fields r₁, host.Later r r₁ ∧
      (∀ names, fields = some names →
        ∃ param, o.params = [param] ∧ ∀ id, param.namedType = .host id → host.TakesFields r₁ id) ∧
      outcome (rest fields) r₁ = (.ok operation, r') := by
    split at ran
    · cases ran
    · dsimp only [settled] at ran
      split at ran
      · next param params =>
        split at ran
        · exact ⟨none, r, .refl host r, fun _ same => absurd same (Option.some_ne_none _).symm, ran⟩
        · obtain ⟨fields, r₁, found, ran⟩ := outcome_bind_eq_ok.1 ran
          obtain ⟨later, takes⟩ := looked found
          exact ⟨fields, r₁, later, fun names same => ⟨param, params, takes names same⟩, ran⟩
      · exact ⟨none, r, .refl host r, fun _ same => absurd same (Option.some_ne_none _).symm, ran⟩
  obtain ⟨binding, r₂, lifted, ran⟩ := outcome_bind_eq_ok.1 ran
  obtain ⟨bound, rfl⟩ := outcome_lift_eq_ok.1 lifted
  obtain ⟨done, r₃, reached, ran⟩ := outcome_bind_eq_ok.1 ran
  cases ran
  exact ⟨fields, _, binding, later, input, bound, reached, rfl⟩

/-- Whatever a described operation leads to is foretold. -/
theorem closes (reachable : host.Reachable r) (ran : outcome (o.describe host) r = (.ok operation, r')) :
    ∃ types, r'.Closed types ∧ ∀ type ∈ operation.types, types type.namedType := by
  obtain ⟨fields, r₁, binding, later, input, bound, reached, rfl⟩ := describe_eq_ok ran
  obtain ⟨types, closed, roots⟩ := Host.describeAll_closes (.described reachable later) reached
  have params : binding.types = o.params :=
    types_of_bind (fun names same => (input names same).imp fun _ => And.left) bound
  refine ⟨types, closed, fun type mem => roots _ ?_⟩
  apply List.mem_reverse.2
  apply List.mem_map_of_mem
  rcases List.mem_cons.1 mem with rfl | mem
  · exact List.mem_append_right _ List.mem_cons_self
  · exact List.mem_append_left _ (params ▸ mem)

end OperationDeclaration

/-- An operation that is added is found in place of the one of its kind and name. -/
theorem OperationTable.find?_insert (table : OperationTable) (operation : OperationDescriptor) (kind : OperationKind)
    (name : String) :
    (table.insert operation).find? kind name =
      if kind = operation.kind ∧ name = operation.name then some operation else table.find? kind name := by
  have entries : (table.insert operation).ofKind kind =
      if kind = operation.kind then Entries.insert operation.name operation (table.ofKind kind) else table.ofKind kind := by
    unfold insert
    cases operation.kind <;> cases kind <;> rfl
  rw [find?, entries]
  by_cases sameKind : kind = operation.kind
  · rw [if_pos sameKind]
    by_cases sameName : name = operation.name
    · rw [if_pos ⟨sameKind, sameName⟩, sameName, Entries.find?_insert_self]
    · rw [if_neg fun same => sameName same.2, Entries.find?_insert_of_ne sameName]
      rfl
  · rw [if_neg sameKind, if_neg fun same => sameKind same.1]
    rfl

end GraphQL
