import GraphQL.Proofs.Registry.Building
import GraphQL.Proofs.Registry.Tables

/-!
# Enumerations

A type that is described as an enumeration has the values that it declares, under names that differ, and no custom
scalar. `Host.Ready` says of a type of the application that it is one, whether it is described already or not, and
of a builtin type nothing but that the registry is one the application leads to.
-/

namespace GraphQL

namespace Host

variable {host : Host} {r r' : Registry} {id : HostId} {d : TypeDescriptor} {values : List EnumValue}

/-- The values that a type of the application declares as an enumeration. -/
def enumValues (host : Host) (id : HostId) : List EnumValue :=
  (host.types[id]?.map (·.description.enumValues)).getD []

theorem nodup_of_checkNames {typeName kind : String} {seen names : List String}
    (checked : checkNames typeName kind seen names = .ok ()) : names.Nodup ∧ ∀ name ∈ names, name ∉ seen := by
  induction names generalizing seen with
  | nil => exact ⟨.nil, List.forall_mem_nil _⟩
  | cons name rest ih =>
    rw [checkNames] at checked
    split at checked
    · cases checked
    · split at checked
      · cases checked
      · next fresh =>
        obtain ⟨nodup, apart⟩ := ih checked
        refine ⟨List.nodup_cons.2 ⟨fun mem => apart name mem List.mem_cons_self, nodup⟩, List.forall_mem_cons.2 ⟨fresh, ?_⟩⟩
        exact fun other mem seen => apart other mem (List.mem_cons_of_mem _ seen)

/-- The names of an enumeration that is described differ. -/
theorem enumNames_of_build {type : HostType} (built : outcome (build lookUp id type) r = (.ok d, r'))
    (declared : declaredKinds type.description = ["enum"]) : (type.description.enumValues.map (·.name)).Nodup := by
  unfold build at built
  simp only at built
  split at built
  · cases built
  · split at built
    · next none => exact absurd (declared.symm.trans none) (by decide)
    · next other => exact absurd (declared.symm.trans other) (by decide)
    · obtain ⟨_, _, checked, _⟩ := outcome_bind_eq_ok.1 built
      exact (nodup_of_checkNames (outcome_lift_eq_ok.1 checked).1).1
    · next other => exact absurd (declared.symm.trans other) (by decide)
    · next other => exact absurd (declared.symm.trans other) (by decide)
    · next other _ => exact absurd (declared.symm.trans other) (by decide)
    · cases built

theorem Makes.enum (made : host.Makes r d) (of : d.type = .host id) (kind : d.kind = .enum values) :
    values = host.enumValues id ∧ (values.map (·.name)).Nodup := by
  cases made with
  | scalar => cases kind
  | builtin => cases kind
  | host _ known built of' =>
    cases of.symm.trans of'
    have builds := builds_of_build built
    rw [kind] at builds
    cases builds with
    | enum declared =>
      refine ⟨?_, enumNames_of_build built declared⟩
      rw [enumValues, List.getElem?_eq_getElem known]
      rfl

/-- An enumeration that is described has the declared values under different names, and no custom scalar. -/
theorem Reachable.enum (reachable : host.Reachable r) (cached : r.find? (.host id) = some d)
    (kind : d.kind = .enum values) :
    values = host.enumValues id ∧ (values.map (·.name)).Nodup ∧ r.scalar? (.host id) = none := by
  have each : ∀ entry ∈ r.descriptors, ∀ id values, entry.1 = .host id → entry.2.kind = .enum values →
      values = host.enumValues id ∧ (values.map (·.name)).Nodup :=
    reachable.all fun _ _ _ made _ _ of kind => made.enum of kind
  obtain ⟨declared, distinct⟩ := each _ (Entries.mem_of_find? cached) id values rfl kind
  refine ⟨declared, distinct, ?_⟩
  cases registered : r.scalar? (.host id) with
  | none => rfl
  | some scalar =>
    rw [reachable.coherent.custom registered cached] at kind
    cases kind

theorem Makes.builtin_kind (made : host.Makes r d) {b : BuiltinType} (of : d.type = .builtin b) :
    ∃ kind, d.kind = .scalar kind := by
  cases made with
  | scalar => exact ⟨_, rfl⟩
  | builtin => exact ⟨_, rfl⟩
  | host _ _ _ of' => cases of.symm.trans of'

/-- A builtin type is a scalar. -/
theorem Reachable.builtin (reachable : host.Reachable r) {b : BuiltinType} (cached : r.find? (.builtin b) = some d) :
    ∃ kind, d.kind = .scalar kind := by
  have each : ∀ entry ∈ r.descriptors, ∀ b, entry.1 = .builtin b → ∃ kind, entry.2.kind = .scalar kind :=
    reachable.all fun _ _ _ made _ of => made.builtin_kind of
  exact each _ (Entries.mem_of_find? cached) b rfl

/-- In a registry that the application leads to, a type of the application is described as an enumeration. -/
structure Ready (host : Host) (r : Registry) (type : NamedType) : Prop where
  reachable : host.Reachable r
  described : ∀ id, type = .host id → ∃ d values, (outcome (host.describe type) r).1 = .ok d ∧ d.kind = .enum values

theorem outcome_insert_builtin (d : TypeDescriptor) {b : BuiltinType} (of : d.type = .builtin b) (r : Registry) :
    ∃ found r', outcome (host.insert d) r = (.ok found, r') := by
  rw [outcome_insert]
  split
  · exact ⟨_, _, rfl⟩
  · rw [Registry.rival?, of]
    exact ⟨_, _, rfl⟩

/-- Describing a builtin type never fails. -/
theorem outcome_describe_builtin (b : BuiltinType) (r : Registry) :
    ∃ d r', outcome (host.describe (.builtin b)) r = (.ok d, r') := by
  unfold describe
  rw [outcome_describeWithin]
  split
  · exact ⟨_, _, rfl⟩
  · split
    · exact outcome_insert_builtin _ rfl r
    · exact outcome_insert_builtin _ rfl r

/-- Describing the type succeeds, and it can be described again. -/
theorem Ready.succeeds {type : NamedType} (ready : host.Ready r type) :
    ∃ d r', outcome (host.describe type) r = (.ok d, r') ∧ host.Ready r' type ∧
      (∀ b, type = .builtin b → ∃ kind, d.kind = .scalar kind) ∧
      ∀ id, type = .host id → d.type = .host id ∧ d.kind = .enum (host.enumValues id) ∧
        ((host.enumValues id).map (·.name)).Nodup ∧ r'.scalar? type = none := by
  obtain ⟨d, r', ran⟩ : ∃ d r', outcome (host.describe type) r = (.ok d, r') := by
    cases type with
    | builtin b => exact outcome_describe_builtin b r
    | host id =>
      obtain ⟨d, _, ok, -⟩ := ready.described id rfl
      exact ⟨d, _, Prod.ext ok rfl⟩
  have reachable := ready.reachable.described ((describe_settles type).later ran)
  have cached := describeWithin_caches ran
  have again : outcome (host.describe type) r' = (.ok d, r') := by
    unfold describe
    rw [outcome_describeWithin, cached]
  have kinds (id : HostId) (is : type = .host id) : ∃ values, d.kind = .enum values := by
    obtain ⟨d', values, ok, kind⟩ := ready.described id is
    rw [ran] at ok
    cases ok
    exact ⟨values, kind⟩
  refine ⟨d, r', ran, ⟨reachable, fun id is => ?_⟩, fun b is => ?_, fun id is => ?_⟩
  · obtain ⟨values, kind⟩ := kinds id is
    exact ⟨d, values, by rw [again], kind⟩
  · subst is
    exact reachable.builtin cached
  · obtain ⟨values, kind⟩ := kinds id is
    subst is
    obtain ⟨rfl, distinct, plain⟩ := reachable.enum cached kind
    exact ⟨reachable.consistent _ (Entries.mem_of_find? cached), kind, distinct, plain⟩

end Host

end GraphQL
