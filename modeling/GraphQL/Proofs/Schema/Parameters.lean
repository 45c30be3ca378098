import GraphQL.Proofs.Input.Reordering
import GraphQL.Proofs.Schema.Calls
import GraphQL.Proofs.Footing.Foreseeing

/-!
# Parameters of registered operations

The operations of a schema are those that were registered, and each has the parameters that its declaration gives it.
An operation in struct mode has one, and its type is an input object, unless a custom scalar has taken over the type.
-/

namespace GraphQL

/-! ## Operations stay -/

/-- The computation leaves the operations of a schema as they are. -/
def SchemaM.SparesOperations {α : Type} (m : SchemaM α) : Prop := ∀ s : Schema, (m.run s).2.operations = s.operations

namespace SchemaM

variable {α β : Type} {m : SchemaM α}

theorem spares_pure (a : α) : SparesOperations (pure a : SchemaM α) := fun _ => rfl

theorem SparesOperations.bind {g : α → SchemaM β} (first : m.SparesOperations) (next : ∀ a, (g a).SparesOperations) :
    (m >>= g).SparesOperations := fun s => (next _ _).trans (first s)

theorem SparesOperations.map (spares : m.SparesOperations) (f : α → β) : (f <$> m).SparesOperations := fun s => spares s

theorem spares_get {g : Schema → SchemaM α} (each : ∀ s, (g s).SparesOperations) : (get >>= g).SparesOperations :=
  fun s => each s s

theorem spares_onRegistry (f : StateM Registry α) : (Schema.onRegistry f).SparesOperations := fun _ => rfl

end SchemaM

namespace Schema

open SchemaM

theorem lookup_spares (key : String) : (lookup key).SparesOperations := by
  intro s
  cases cached : s.cache with
  | none => rw [run_lookup_none cached]
  | some cache => rw [run_lookup_some cached]

theorem prepare_spares (query : String) (operationName : Option String) :
    (prepare query operationName).SparesOperations := by
  refine (lookup_spares _).bind fun found => ?_
  cases found with
  | some outcome => exact spares_pure _
  | none => exact (spares_get fun s => spares_onRegistry _).bind fun outcome => fun _ => rfl

theorem planFor_spares (request : Request) (entryPoint : String) (accepts : OperationKind → Bool) :
    (planFor request entryPoint accepts).SparesOperations := by
  refine (prepare_spares _ _).bind fun outcome => ?_
  cases outcome with
  | error e => exact spares_pure _
  | ok plan =>
    simp only
    split
    · exact spares_pure _
    · exact spares_pure _

theorem execute_spares (request : Request) (cancelled : Bool) : (execute request cancelled).SparesOperations := by
  refine (planFor_spares _ _ _).bind fun planned => ?_
  cases planned with
  | error e => exact spares_pure _
  | ok planned => exact fun _ => rfl

theorem executeText_spares (query variableText : String) (cancelled : Bool) :
    (executeText query variableText cancelled).SparesOperations := by
  refine spares_get fun s => ?_
  split
  · exact spares_pure _
  · exact (execute_spares _ _).bind fun finished => spares_pure _

theorem subscribe_spares (request : Request) (cancelled : Bool) : (subscribe request cancelled).SparesOperations := by
  refine (planFor_spares _ _ _).bind fun planned => ?_
  cases planned with
  | error e => exact spares_pure _
  | ok planned => exact fun _ => rfl

end Schema

theorem SchemaCall.operations_after {call : SchemaCall} (other : ∀ o, call ≠ .register o) (s : Schema) :
    (s.after call).operations = s.operations := by
  cases call with
  | describe type => rfl
  | register o => exact absurd rfl (other o)
  | registerScalar scalar =>
    rw [Schema.after, Schema.perform_registerScalar]
  | prepare query operationName => exact (Schema.prepare_spares query operationName).map SchemaAnswer.prepared s
  | execute request cancelled => exact (Schema.execute_spares request cancelled).map SchemaAnswer.executed s
  | executeText query variableText cancelled =>
    exact (Schema.executeText_spares query variableText cancelled).map SchemaAnswer.textExecuted s
  | subscribe request cancelled => exact (Schema.subscribe_spares request cancelled).map SchemaAnswer.subscribed s
  | event plan values cancelled value => rfl

/-! ## Types of parameters -/

section

variable {host : Host} {r r' : Registry} {id : HostId}

/-- The type is read as an input object or by a custom scalar. -/
def Host.TakesObjects (host : Host) (r : Registry) (id : HostId) : Prop :=
  host.TakesFields r id ∨ ∃ scalar, r.custom? id = some scalar

namespace Host.TakesObjects

theorem later (later : host.Later r r') (takes : host.TakesObjects r id) : host.TakesObjects r' id := by
  rcases takes with fields | ⟨scalar, custom⟩
  · exact Or.inl (later.takesFields fields)
  · exact Or.inr ⟨scalar, (later.custom? id).trans custom⟩

theorem takeOver (distinct : (Entries.keys r.descriptors).Nodup) (scalar : ScalarDescriptor)
    (takes : host.TakesObjects r id) : host.TakesObjects (r.takeOver scalar) id := by
  by_cases same : NamedType.host id = scalar.type
  · refine Or.inr ⟨scalar, ?_⟩
    rw [Registry.custom?, Registry.find?_takeOver distinct, if_pos same, Registry.scalar?_takeOver, if_pos same]
  · have custom : (r.takeOver scalar).custom? id = r.custom? id := by
      rw [Registry.custom?, Registry.custom?, Registry.find?_takeOver distinct, if_neg same, Registry.scalar?_takeOver,
        if_neg same]
    rcases takes with fields | ⟨scalar', custom'⟩
    · refine Or.inl ?_
      rwa [TakesFields, Registry.find?_takeOver distinct, if_neg same, Registry.scalar?_takeOver, if_neg same]
    · exact Or.inr ⟨scalar', custom.trans custom'⟩

end Host.TakesObjects

end

/-! ## Declarations -/

/-- The operation is the declared one, with its resolver and the types of its parameters in order. In struct mode its
only parameter is an input object, or is read by a custom scalar. -/
structure OperationDeclaration.Declares (o : OperationDeclaration) (host : Host) (r : Registry)
    (operation : OperationDescriptor) : Prop where
  kind : o.kind = operation.kind
  name : o.name = operation.name
  resolver : o.resolver = operation.resolver
  params : operation.binding.types = o.params
  object : ∀ type fields id, operation.binding = .struct type fields → type.namedType = .host id →
    host.TakesObjects r id

namespace OperationDeclaration

variable {o : OperationDeclaration} {host : Host} {r r' : Registry} {operation : OperationDescriptor}

/-- Only an input object is bound in struct mode. -/
theorem fields_of_bind_struct {fields : Option (List String)} {mode : ParamMode} {type : TypeRef} {names : List String}
    (bound : o.bind fields mode = .ok (.struct type names)) : fields = some names := by
  unfold bind at bound
  cases mode <;> simp only at bound
  case struct =>
    split at bound
    · cases bound
    · split at bound
      · cases bound
        rfl
      · cases bound
  case named =>
    split at bound
    · cases bound
    · split at bound
      · cases bound
      · cases bound
  all_goals
    split at bound
    · cases bound
    · cases bound

theorem declares_of_describe (ran : outcome (o.describe host) r = (.ok operation, r')) : o.Declares host r' operation := by
  obtain ⟨fields, r₁, binding, -, input, bound, reached, rfl⟩ := describe_eq_ok ran
  have params : binding.types = o.params :=
    types_of_bind (fun names same => (input names same).imp fun _ => And.left) bound
  have later : host.Later r₁ r' := by
    have firm : (host.growing r₁).Firm host := Host.growing_firm
    obtain ⟨grows, -⟩ := Host.describeAll_bears firm (fun _ => trivial) [] _ r₁ (Host.Later.refl host r₁)
    rwa [show outcome (host.describeAll [] _) r₁ = (.ok (), r') from reached] at grows
  refine ⟨rfl, rfl, rfl, params, fun type names id same named => ?_⟩
  have same : binding = .struct type names := same
  subst same
  obtain ⟨param, only, takes⟩ := input names (fields_of_bind_struct bound)
  cases params.trans only
  exact Or.inl (later.takesFields (takes id named))

theorem Declares.later (declares : o.Declares host r operation) (later : host.Later r r') : o.Declares host r' operation :=
  { declares with object := fun type fields id bound named => (declares.object type fields id bound named).later later }

theorem Declares.takeOver (declares : o.Declares host r operation) (distinct : (Entries.keys r.descriptors).Nodup)
    (scalar : ScalarDescriptor) : o.Declares host (r.takeOver scalar) operation :=
  { declares with
    object := fun type fields id bound named => (declares.object type fields id bound named).takeOver distinct scalar }

end OperationDeclaration

/-- Every operation of the schema is one of some declarations, and is found by the kind and name that it declares. -/
def Schema.Declared (s : Schema) (among : OperationDeclaration → Prop) : Prop :=
  ∀ kind name operation, s.operations.find? kind name = some operation →
    ∃ o, among o ∧ o.kind = kind ∧ o.name = name ∧ o.Declares s.host s.registry operation

namespace Schema

variable {s : Schema} {among : OperationDeclaration → Prop}

/-- A call that registers no operation keeps those that there are. -/
theorem Declared.keeps (declared : s.Declared among) (reachable : s.host.Reachable s.registry) {call : SchemaCall}
    (other : ∀ o, call ≠ .register o) : (s.after call).Declared among := by
  intro kind name operation found
  rw [call.operations_after other] at found
  obtain ⟨o, mem, sameKind, sameName, declares⟩ := declared kind name operation found
  refine ⟨o, mem, sameKind, sameName, ?_⟩
  rw [host_after]
  rcases call.registers_or_describes with ⟨scalar, rfl⟩ | describes
  · rw [registry_registerScalar]
    rcases s.host.registerScalar_cases scalar s.registry with ⟨e, refused⟩ | ⟨-, registered⟩
    · rwa [refused]
    · rw [registered]
      exact declares.takeOver reachable.distinct.descriptors scalar
  · exact declares.later (after_later describes).1

/-- A call keeps the operations that there are, and may add the one that it declares. -/
theorem Declared.step (declared : s.Declared among) (reachable : s.host.Reachable s.registry) (call : SchemaCall)
    (new : ∀ o, call = .register o → among o) : (s.after call).Declared among := by
  by_cases registers : ∃ o, call = .register o
  · obtain ⟨o, rfl⟩ := registers
    have later : s.host.Later s.registry (s.after (.register o)).registry :=
      (after_later fun scalar same => by cases same).1
    change s.host.Later s.registry ((register o).run s).2.registry at later
    change ((register o).run s).2.Declared among
    rcases s.register_cases o with ⟨e, r, -, refused⟩ | ⟨d, r, ran, added⟩
    · rw [refused] at later ⊢
      intro kind name operation found
      obtain ⟨o', mem, sameKind, sameName, declares⟩ := declared kind name operation found
      exact ⟨o', mem, sameKind, sameName, declares.later later⟩
    · rw [added] at later ⊢
      intro kind name operation found
      have found : (s.operations.insert d).find? kind name = some operation := found
      rw [OperationTable.find?_insert] at found
      split at found
      · next here =>
        cases found
        have declares := OperationDeclaration.declares_of_describe ran
        exact ⟨o, new o rfl, declares.kind.trans here.1.symm, declares.name.trans here.2.symm, declares⟩
      · obtain ⟨o', mem, sameKind, sameName, declares⟩ := declared kind name operation found
        exact ⟨o', mem, sameKind, sameName, declares.later later⟩
  · exact declared.keeps reachable fun o same => registers ⟨o, same⟩

theorem Declared.run (declared : s.Declared among) (reachable : s.host.Reachable s.registry) (calls : List SchemaCall)
    (new : ∀ o, .register o ∈ calls → among o) : (s.afterAll calls).Declared among := by
  induction calls generalizing s with
  | nil => exact declared
  | cons call rest ih =>
    rw [afterAll_cons]
    have next := reachable_after reachable call
    rw [← host_after s call] at next
    refine ih (declared.step reachable call ?_) next fun o mem => new o (List.mem_cons_of_mem _ mem)
    rintro o rfl
    exact new o List.mem_cons_self

theorem declared_create (host : Host) (config : Config) (scorer : Scorer) (cache : Option PlanCache) :
    (create host config scorer cache).Declared among := by
  intro kind name operation found
  cases kind <;> cases found

end Schema

end GraphQL
