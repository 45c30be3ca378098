import GraphQL.Execution.Completion
import GraphQL.Proofs.Execution.Conformance
import GraphQL.Proofs.Footing.Input

/-!
# Completing values on a footing

A value is completed by its declared type and the selection of its field. What is described on the way are the
types of the fields and what their descriptors refer to. Where those are covered, a firm footing carries the
completion, and the response is the same with every registry that stands in.
-/

namespace GraphQL

open Footing

/-- What a field reads is of types that are covered. -/
def FieldTarget.Within (f : Footing) : FieldTarget → Prop
  | .operation called => called.ReadsWithin f
  | .objectField owner _ => ∀ type ∈ owner.references, f.covers type
  | .interfaceField | .typename => True

theorem FieldTarget.Within.mono {f g : Footing} {target : FieldTarget} (widens : f.Widens g) (within : target.Within f) :
    target.Within g := by
  cases target with
  | operation called => exact OperationDescriptor.ReadsWithin.mono widens within
  | objectField owner index => exact fun type mem => widens type (within type mem)
  | interfaceField => trivial
  | typename => trivial

/-- The types that a field and its selection name are covered. -/
inductive FieldPlan.Within (f : Footing) : FieldPlan → Prop
  | intro {field : FieldPlan} (type : f.covers field.type.namedType) (target : field.target.Within f)
    (selection : ∀ inner ∈ field.selection, inner.Within f) : Within f field

namespace FieldPlan.Within

variable {f : Footing} {field : FieldPlan}

theorem type (within : field.Within f) : f.covers field.type.namedType := by
  cases within with
  | intro type _ _ => exact type

theorem target (within : field.Within f) : field.target.Within f := by
  cases within with
  | intro _ target _ => exact target

theorem selection (within : field.Within f) : ∀ inner ∈ field.selection, inner.Within f := by
  cases within with
  | intro _ _ selection => exact selection

theorem mono {g : Footing} (widens : f.Widens g) (within : field.Within f) : field.Within g := by
  induction within with
  | intro type target _ ih => exact .intro (widens _ type) (FieldTarget.Within.mono widens target) ih

end FieldPlan.Within

/-- The selection of a plan is of types that are covered. -/
def Plan.Within (f : Footing) (plan : Plan) : Prop := ∀ field ∈ plan.selection, field.Within f

theorem Plan.Within.mono {f g : Footing} {plan : Plan} (widens : f.Widens g) (within : plan.Within f) : plan.Within g :=
  fun field mem => (within field mem).mono widens

/-- The types of the fields of an object or union are among those that it refers to. -/
theorem TypeDescriptor.mem_references {d : TypeDescriptor} {object : ObjectFields} (fields : d.objectFields? = some object)
    {declared : FieldDescriptor} (mem : declared ∈ object.fields) : declared.type.namedType ∈ d.references := by
  unfold objectFields? at fields
  unfold references
  split at fields
  · next kind =>
    cases fields
    rw [kind]
    exact List.mem_map.2 ⟨declared, mem, rfl⟩
  · next kind =>
    cases fields
    rw [kind]
    exact List.mem_map.2 ⟨declared, mem, rfl⟩
  · cases fields

namespace Execution

variable {x : Execution} {f : Footing}

/-! ## Leaves -/

theorem leafOf_bears (firm : f.Firm x.host) (d : TypeDescriptor) (value : Resolved) : f.Bears (x.leafOf d value) := by
  unfold leafOf
  refine carries_get (fun r => bears_lift _) fun r R standsIn => ?_
  have same : x.serializeNamed R d value = x.serializeNamed r d value := by
    unfold serializeNamed
    split
    · rfl
    · rfl
    · rw [firm.scalar? standsIn]
      rfl
    · rfl
    · rfl
  exact congrArg liftM same

theorem serializeSingle_bears (firm : f.Firm x.host) {type : NamedType} (covered : f.covers type) (value : Resolved) :
    f.Bears (x.serializeSingle type value) := by
  unfold serializeSingle
  have described : f.Bears (ExceptT.adapt (fun e : RegistrationError => ({ message := e.message } : HostError))
      (x.host.describe type)) := (firm.describes covered).bears.adapt _ fun _ _ => trivial
  exact described.bind fun d _ => leafOf_bears firm d value

mutual

theorem serialize_bears (firm : f.Firm x.host) : ∀ (value : Resolved) (type : TypeRef), f.covers type.namedType →
    f.Bears (x.serialize type value)
  | .null, _, _ => bears_pure _
  | .map entries, .map item _, covered => by
    rw [serialize]
    exact (serializeEntries_bears firm entries item covered).bind fun _ _ => bears_pure _
  | .map entries, .named named _, covered => serializeSingle_bears firm covered (.map entries)
  | .map _, .list .., _ => bears_throw _
  | .list items, .list item _, covered => by
    rw [serialize]
    exact (serializeItems_bears firm items item covered).bind fun _ _ => bears_pure _
  | .list items, .named named _, covered => serializeSingle_bears firm covered (.list items)
  | .list _, .map .., _ => bears_throw _
  | .const c, .named named _, covered => serializeSingle_bears firm covered (.const c)
  | .const _, .list .., _ => bears_throw _
  | .const _, .map .., _ => bears_throw _
  | .host value, .named named _, covered => serializeSingle_bears firm covered (.host value)
  | .host _, .list .., _ => bears_throw _
  | .host _, .map .., _ => bears_throw _

theorem serializeItems_bears (firm : f.Firm x.host) : ∀ (items : List Resolved) (type : TypeRef),
    f.covers type.namedType → f.Bears (x.serializeItems type items)
  | [], _, _ => bears_pure _
  | item :: rest, type, covered => by
    rw [serializeItems]
    exact (serialize_bears firm item type covered).bind fun _ _ =>
      (serializeItems_bears firm rest type covered).bind fun _ _ => bears_pure _

theorem serializeEntries_bears (firm : f.Firm x.host) : ∀ (entries : List (String × Resolved)) (type : TypeRef),
    f.covers type.namedType → f.Bears (x.serializeEntries type entries)
  | [], _, _ => bears_pure _
  | (key, value) :: rest, type, covered => by
    rw [serializeEntries]
    exact (serialize_bears firm value type covered).bind fun _ _ =>
      (serializeEntries_bears firm rest type covered).bind fun _ _ => bears_pure _

end

theorem completeLeaf_bears {leaf : LeafM Const} (bears : f.Bears leaf) (field : FieldPlan) (path : ErrorPath) :
    f.Bears (completeLeaf leaf field path) := by
  refine bears.onRegistry.bind fun result _ => ?_
  cases result with
  | ok c => exact bears_pure _
  | error e => exact bears_fieldError _ _ _ _

/-! ## Objects -/

section

variable {value : HostValue} {finish : Finish value}

/-- What is read from a value is completed on the footing where its type is covered. -/
def Finish.BearsWithin (f : Footing) (finish : Finish value) : Prop :=
  ∀ type resolved smaller field path depth, f.covers type.namedType → field.Within f →
    f.Bears (finish type resolved smaller field path depth)

theorem readField_bears (bears : Finish.BearsWithin f finish) (object : ObjectFields) {declared : FieldDescriptor}
    (covered : f.covers declared.type.namedType) {field : FieldPlan} (within : field.Within f) (path : ErrorPath)
    (depth : Nat) : f.Bears (readField object declared value field path depth finish) := by
  unfold readField
  split
  · exact bears_throw _
  · exact bears_fieldError _ _ _ _
  · refine (bears_note _).then_ ?_
    split
    · exact bears _ _ _ _ _ _ covered within
    · exact bears_hostError _ _ _ _
    · exact bears_fieldError _ _ _ _

theorem resolveField_bears (bears : Finish.BearsWithin f finish) {d : TypeDescriptor}
    (references : ∀ type ∈ d.references, f.covers type) {field : FieldPlan} (within : field.Within f) (path : ErrorPath)
    (depth : Nat) : f.Bears (x.resolveField d value field path depth finish) := by
  unfold resolveField
  refine bears_checkCancelled.then_ (Carries.then_ (carries_ofExcept fun _ _ => trivial) ?_)
  have target := within.target
  split
  · exact bears_pure _
  · next owner index read =>
    rw [read] at target
    split
    · next object fields =>
      split
      · next declared there =>
        have covered := target _ (TypeDescriptor.mem_references fields (List.mem_of_getElem? there))
        exact readField_bears bears object covered within path depth
      · exact bears_throw _
    · exact bears_throw _
  · split
    · next object fields =>
      split
      · next declared found =>
        have covered := references _ (TypeDescriptor.mem_references fields (List.mem_of_find?_eq_some found))
        exact readField_bears bears object covered within path depth
      · exact bears_fieldError _ _ _ _
    · exact bears_fieldError _ _ _ _
  · exact bears_throw _

theorem resolveObject_bears (bears : Finish.BearsWithin f finish) {d : TypeDescriptor}
    (references : ∀ type ∈ d.references, f.covers type) {parent : FieldPlan} (within : parent.Within f) (path : ErrorPath)
    (depth : Nat) : f.Bears (x.resolveObject d value parent path depth finish) := by
  unfold resolveObject
  have selected : f.Carries (ExecM.ofExcept (x.collect parent.selection (some d.type)))
      (fun fields => ∀ field ∈ fields, field.Within f) fun _ => True :=
    carries_ofExcept fun fields collected field mem => within.selection field (mem_of_collect collected mem)
  refine selected.bind fun fields each => ?_
  refine (bears_mapM fun field mem => ?_).bind fun _ _ => bears_pure _
  exact (resolveField_bears bears references (each field mem) _ _).bind fun _ _ => bears_pure _

/-! ## Values -/

/-- Describing a type that is covered gives a descriptor that fits. -/
theorem describe_carries (firm : f.Firm x.host) {type : NamedType} (covered : f.covers type) :
    f.Carries (x.describe type)
      (fun result => (∀ d, result = .ok d → f.Fits x.host type d) ∧ ∀ e, result = .error e → f.refuses e) fun _ => True :=
  (firm.describes covered).onRegistry

theorem completePlain_bears (firm : f.Firm x.host) {type : NamedType} (covered : f.covers type) (value : Resolved)
    (field : FieldPlan) (path : ErrorPath) : f.Bears (x.completePlain type value field path) := by
  refine (describe_carries firm covered).bind fun result _ => ?_
  cases result with
  | error e => exact bears_fieldError _ _ _ _
  | ok d =>
    simp only
    split
    · exact completeLeaf_bears (leafOf_bears firm d value) field path
    · exact completeLeaf_bears (leafOf_bears firm d value) field path
    all_goals exact bears_fieldError _ _ _ _

theorem completeHost_bears (firm : f.Firm x.host) (bears : Finish.BearsWithin f finish) {type : NamedType}
    (covered : f.covers type) {field : FieldPlan} (within : field.Within f) (path : ErrorPath) (depth : Nat) :
    f.Bears (x.completeHost type value field path depth finish) := by
  refine (describe_carries firm covered).bind fun result known => ?_
  cases result with
  | error e => exact bears_fieldError _ _ _ _
  | ok d =>
    have references := (known.1 d rfl).references
    simp only
    split
    · exact completeLeaf_bears (leafOf_bears firm d _) field path
    · exact completeLeaf_bears (leafOf_bears firm d _) field path
    · exact resolveObject_bears bears references within path depth
    · next object kind =>
      split
      · next name member r single =>
        refine bears _ _ _ _ _ _ ?_ within
        obtain ⟨members, declared, kind', mem, rfl⟩ := mem_of_dereference single
        have fields : d.objectFields? = some members := by rw [TypeDescriptor.objectFields?, kind']
        exact references _ (TypeDescriptor.mem_references fields mem)
      · exact resolveObject_bears bears references within path depth
      · exact bears_throw _
      · exact bears_fieldError _ _ _ _
    · next shape kind =>
      split
      · next implements =>
        have implementor : f.covers (.host value.type) := by
          refine references _ ?_
          rw [TypeDescriptor.references, kind]
          exact List.mem_append_right _ (List.mem_map.2 ⟨value.type, by simpa using implements, rfl⟩)
        refine (describe_carries firm implementor).bind fun result known => ?_
        cases result with
        | error e => exact bears_fieldError _ _ _ _
        | ok concrete => exact resolveObject_bears bears (known.1 concrete rfl).references within path depth
      · exact bears_fieldError _ _ _ _
    · exact bears_fieldError _ _ _ _

end

/-- A firm footing carries the completion of a value by a type and field that are covered. -/
theorem complete_bears (firm : f.Firm x.host) (type : TypeRef) (value : Resolved) (field : FieldPlan) (path : ErrorPath)
    (depth : Nat) (covered : f.covers type.namedType) (within : field.Within f) :
    f.Bears (x.complete type value field path depth) := by
  by_cases missing : value = .null
  · subst missing
    rw [complete]
    exact bears_pure _
  cases type with
  | map item nullable =>
    rw [complete]
    · exact completeLeaf_bears (serialize_bears firm _ _ covered) field path
    · exact missing
  | list item nullable =>
    cases value with
    | list items =>
      rw [complete]
      refine (bears_mapM fun entry _ => ?_).bind fun _ _ => bears_pure _
      exact complete_bears firm item entry.1.1 field _ depth covered within
    | null => exact absurd rfl missing
    | const _ | map _ | host _ =>
      rw [complete]
      · exact bears_fieldError _ _ _ _
      · exact missing
      · simp
  | named type nullable =>
    cases value with
    | host value =>
      rw [complete]
      refine completeHost_bears firm ?_ covered within path depth
      exact fun type r smaller field path depth covered within => complete_bears firm type r field path depth covered within
    | null => exact absurd rfl missing
    | const _ | list _ | map _ =>
      rw [complete]
      · exact completePlain_bears firm covered _ field path
      · exact missing
      · simp
termination_by sizeOf value
decreasing_by
  · simp only [Resolved.host.sizeOf_spec]
    omega
  · have := List.sizeOf_lt_of_mem (QueryLimits.mem_of_mem_keepItems entry.1.2)
    simp only [Resolved.list.sizeOf_spec]
    omega

end Execution

end GraphQL
