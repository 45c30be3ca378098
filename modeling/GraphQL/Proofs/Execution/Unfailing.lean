import GraphQL.Proofs.Execution.Guarded
import GraphQL.Proofs.Plan.WellFormed

/-!
# Completing well-formed fields

Where a well-formed field is completed, the states that the engine should never reach are not reached:
a field reads from an object that has it, and no path leaves the steps of its type. What may still end
the execution are guards, directives without a Boolean, a cancellation, and a union of which the getter
of a member panics. That getter belongs to a value that is part of what is completed.
-/

namespace GraphQL

/-! ## Parts of values -/

namespace Resolved

/-- What completing a value may go on with. -/
inductive Part : Resolved → Resolved → Prop
  | item {items : List Resolved} {r : Resolved} (mem : r ∈ items) : Part r (.list items)
  | read {value : HostValue} {name : String} {r : Resolved} (got : value.read name = .ok r) : Part r (.host value)
  | embedded {value inner : HostValue} (mem : some inner ∈ value.embedded) : Part (.host inner) (.host value)

/-- The value is a part of another, or of one of its parts, or the value itself. -/
def Within : Resolved → Resolved → Prop := Relation.ReflTransGen Part

theorem Part.within {part whole : Resolved} (part' : part.Part whole) : part.Within whole := .single part'

theorem Within.trans {inner part whole : Resolved} (first : inner.Within part) (then' : part.Within whole) :
    inner.Within whole :=
  Relation.ReflTransGen.trans first then'

end Resolved

theorem EmbedStep.follow_within {step : EmbedStep} {value inner : HostValue} (follows : step.follow value = some inner) :
    Resolved.Within (.host inner) (.host value) := by
  unfold follow at follows
  split at follows
  · split at follows
    · next found eq =>
      split at follows
      · cases follows
        exact Resolved.Part.within (.embedded (List.mem_of_getElem? eq))
      · cases follows
    · cases follows
  · cases follows

namespace ObjectFields

theorem walk_within {object : ObjectFields} {name : String} {path : List Nat} {value inner : HostValue}
    (walked : object.walk name path value = .ok inner) : Resolved.Within (.host inner) (.host value) := by
  induction path generalizing value with
  | nil =>
    cases walked
    exact .refl
  | cons place rest ih =>
    rw [walk] at walked
    split at walked
    · cases walked
    · split at walked
      · next follows => exact (ih walked).trans (EmbedStep.follow_within follows)
      · split at walked <;> cases walked

/-- A path within the steps is not walked out of range. -/
theorem walk_inRange {object : ObjectFields} {name : String} {path : List Nat} {value : HostValue}
    (places : ∀ place ∈ path, place < object.steps.length) (field : String) :
    object.walk name path value ≠ .error (.outOfRange field) := by
  induction path generalizing value with
  | nil =>
    intro out
    cases out
  | cons place rest ih =>
    obtain ⟨first, others⟩ := List.forall_mem_cons.1 places
    rw [walk, List.getElem?_eq_getElem first]
    simp only
    split
    · exact ih others
    · split
      · intro out
        cases out
      · intro out
        cases out

end ObjectFields

theorem FieldDescriptor.read_within {declared : FieldDescriptor} {value : HostValue} {r : Resolved}
    (got : declared.read value = .ok r) : r.Within (.host value) := by
  unfold read at got
  split at got
  · exact Resolved.Part.within (.read got)
  · cases got

/-! ## Panics of unions -/

theorem setMembers_within {typeName : String} {value : HostValue} {fields : List FieldDescriptor}
    {set : List (FieldDescriptor × Resolved)} (ok : setMembers typeName value fields = .ok set) :
    ∀ member ∈ set, member.2.Within (.host value) := by
  induction fields generalizing set with
  | nil =>
    cases ok
    exact fun member mem => absurd mem List.not_mem_nil
  | cons field rest ih =>
    rw [setMembers] at ok
    split at ok
    · cases ok
    · cases ok
    · next resolved got =>
      cases more : setMembers typeName value rest with
      | error e =>
        rw [more] at ok
        cases ok
      | ok others =>
        rw [more] at ok
        cases ok
        split
        · exact ih more
        · exact List.forall_mem_cons.2 ⟨FieldDescriptor.read_within got, ih more⟩

theorem setMembers_panic {typeName message : String} {value : HostValue} {fields : List FieldDescriptor}
    (failed : setMembers typeName value fields = .error (.panic message)) :
    ∃ field ∈ fields, field.read value = .error (.panic message) := by
  induction fields with
  | nil => cases failed
  | cons field rest ih =>
    rw [setMembers] at failed
    split at failed
    · cases failed
    · next raised =>
      cases failed
      exact ⟨field, List.mem_cons_self, raised⟩
    · cases more : setMembers typeName value rest with
      | ok others =>
        rw [more] at failed
        cases failed
      | error e =>
        rw [more] at failed
        cases failed
        obtain ⟨other, mem, raised⟩ := ih more
        exact ⟨other, List.mem_cons_of_mem _ mem, raised⟩

theorem dereference_within {d : TypeDescriptor} {value : HostValue} {name : String} {type : TypeRef} {r : Resolved}
    (only : dereference d value = .ok (.member name type r)) : r.Within (.host value) := by
  unfold dereference at only
  split at only
  · split at only
    · cases only
    · cases only
    · next sets =>
      cases only
      exact setMembers_within sets _ List.mem_cons_self
    · cases only
  · cases only

theorem dereference_panic {d : TypeDescriptor} {value : HostValue} {message : String}
    (failed : dereference d value = .error (.panic message)) :
    ∃ object, d.kind = .union object ∧ ∃ field ∈ object.fields, field.read value = .error (.panic message) := by
  unfold dereference at failed
  split at failed
  · next object kind =>
    split at failed
    · next sets =>
      cases failed
      exact ⟨object, kind, setMembers_panic sets⟩
    · cases failed
    · cases failed
    · cases failed
  · cases failed

/-- The descriptor of a type in some registry that the engine comes to. -/
def Host.Knows (host : Host) (type : NamedType) (d : TypeDescriptor) : Prop :=
  ∃ r, host.Reachable r ∧ r.find? type = some d

theorem Host.Knows.grounded {host : Host} {type : NamedType} {d : TypeDescriptor} (known : host.Knows type d) :
    d.Grounded := by
  obtain ⟨r, reachable, found⟩ := known
  exact reachable.grounded _ (Entries.mem_of_find? found)

namespace Execution

/-- A part of the value panics with a message where it is taken for a union: the getter of a member does. -/
def Panics (x : Execution) (value : Resolved) (message : String) : Prop :=
  ∃ part type d object, Resolved.Within (.host part) value ∧ x.host.Knows type d ∧ d.kind = .union object ∧
    ∃ field ∈ object.fields, field.read part = .error (.panic message)

variable {x : Execution}

theorem Panics.within {part whole : Resolved} {message : String} (panics : x.Panics part message)
    (within : part.Within whole) : x.Panics whole message := by
  obtain ⟨inner, type, d, object, below, rest⟩ := panics
  exact ⟨inner, type, d, object, below.trans within, rest⟩

/-- Completing a value, or a part of it, ends with nothing worse than a panic of a union in it. -/
abbrev Safe (x : Execution) (value : Resolved) {α : Type} (m : ExecM α) : Prop :=
  ExecM.Fails x.host (Abort.Ordinary (x.Panics value)) m

theorem Safe.within {part whole : Resolved} {α : Type} {m : ExecM α} (safe : x.Safe part m)
    (within : part.Within whole) : x.Safe whole m :=
  safe.weaken fun _ ordinary => ordinary.mono fun _ panics => panics.within within

/-! ## Values -/

theorem describe_knows {fails : Abort → Prop} (type : NamedType) :
    ExecM.Guarded x.host fails (x.describe type) fun result => ∀ d, result = .ok d → x.host.Knows type d := by
  refine (ExecM.guarded_onRegistry (Host.describe_settles type)).mono ?_
  rintro result ⟨r, r', reachable, ran⟩ d rfl
  exact ⟨r', reachable, Host.describe_caches ran⟩

theorem completeLeaf_safe {leaf : LeafM Const} (settles : x.host.Settles leaf) {value : Resolved} (field : FieldPlan)
    (path : ErrorPath) : x.Safe value (completeLeaf leaf field path) := by
  refine (ExecM.guarded_onRegistry settles).bind fun result _ => ?_
  cases result with
  | ok c => exact ExecM.guarded_pure trivial
  | error e => exact ExecM.guarded_fieldError _ _ _ _

/-- Fields that can be executed below the root, their owners being described by the rules. -/
def Executable (x : Execution) (fields : List FieldPlan) : Prop :=
  ∃ declared r, x.host.Reachable r ∧ ∀ field ∈ fields, field.WellFormed declared r false

theorem Executable.below {fields : List FieldPlan} (executable : x.Executable fields) {field : FieldPlan}
    (mem : field ∈ fields) : x.Executable field.selection := by
  obtain ⟨declared, r, reachable, each⟩ := executable
  exact ⟨declared, r, reachable, (each field mem).within⟩

/-- What is read from a value is completed safely. -/
def FinishSafe (x : Execution) {whole : HostValue} (finish : Finish whole) : Prop :=
  ∀ type value smaller field path depth, x.Executable field.selection →
    x.Safe value (finish type value smaller field path depth)

section

variable {value : HostValue} {finish : Finish value} (safe : x.FinishSafe finish)

include safe

theorem readField_safe {object : ObjectFields} {declared : FieldDescriptor} (grounded : object.Grounded)
    (mem : declared ∈ object.fields) {field : FieldPlan} (executable : x.Executable field.selection) (path : ErrorPath)
    (depth : Nat) : x.Safe (.host value) (readField object declared value field path depth finish) := by
  unfold readField
  split
  · next out => exact absurd out (ObjectFields.walk_inRange (grounded declared mem) _)
  · exact ExecM.guarded_fieldError _ _ _ _
  · next target reached =>
    refine (ExecM.guarded_note _).bind fun _ _ => ?_
    split
    · next resolved got =>
      have within := (FieldDescriptor.read_within got).trans (ObjectFields.walk_within reached)
      exact Safe.within (safe _ _ _ _ _ _ executable) within
    · exact ExecM.guarded_hostError _ _ _ _
    · exact ExecM.guarded_fieldError _ _ _ _

theorem resolveField_safe {d : TypeDescriptor} (grounded : d.Grounded) {fields : List FieldPlan}
    (executable : x.Executable fields) {field : FieldPlan} (mem : field ∈ fields) (path : ErrorPath) (depth : Nat) :
    x.Safe (.host value) (x.resolveField d value field path depth finish) := by
  have below := executable.below mem
  obtain ⟨_, r, reachable, each⟩ := executable
  have missing : x.Safe (.host value) (resolveField.missing d field path) := ExecM.guarded_fieldError _ _ _ _
  unfold resolveField
  refine ExecM.guarded_checkCancelled.bind fun _ _ => (ExecM.guarded_guard field _).bind fun _ _ => ?_
  cases (each field mem).targets with
  | @objectField owner _ _ object _ target known kind at' _ _ =>
    have has : owner.objectFields? = some object := by rw [TypeDescriptor.objectFields?, kind]
    have owned := reachable.grounded _ (Entries.mem_of_find? known) _ has
    rw [target]
    simp only [has, at']
    exact readField_safe safe owned (List.mem_of_getElem? at') below path depth
  | interfaceField target _ =>
    rw [target]
    simp only
    split
    · next object has =>
      split
      · next declared named =>
        exact readField_safe safe (grounded object has) (List.mem_of_find?_eq_some named) below path depth
      · exact missing
    · exact missing
  | typename _ target _ =>
    rw [target]
    exact ExecM.guarded_pure trivial

theorem resolveObject_safe {d : TypeDescriptor} (grounded : d.Grounded) {parent : FieldPlan}
    (executable : x.Executable parent.selection) (path : ErrorPath) (depth : Nat) :
    x.Safe (.host value) (x.resolveObject d value parent path depth finish) := by
  unfold resolveObject
  have selection : ExecM.Guarded x.host (Abort.Ordinary (x.Panics (.host value)))
      (ExecM.ofExcept (x.collect parent.selection (some d.type)))
      fun fields => x.collect parent.selection (some d.type) = .ok fields :=
    ExecM.guarded_ofExcept (fun _ => id) fun _ => collect_ordinary
  refine selection.bind fun fields selected => ?_
  have each : ∀ field ∈ fields, field ∈ parent.selection := by
    rw [collect_eq_ok selected]
    exact fun field mem => List.mem_of_mem_filter mem
  refine (ExecM.guarded_mapM fun field mem => ?_).bind fun _ _ => ExecM.guarded_pure trivial
  exact (resolveField_safe safe grounded executable (each field mem) _ _).bind fun _ _ => ExecM.guarded_pure trivial

theorem completeHost_safe (type : NamedType) {field : FieldPlan} (executable : x.Executable field.selection)
    (path : ErrorPath) (depth : Nat) :
    x.Safe (.host value) (x.completeHost type value field path depth finish) := by
  unfold completeHost
  refine (describe_knows type).bind fun result known => ?_
  cases result with
  | error e => exact ExecM.guarded_fieldError _ _ _ _
  | ok d =>
    have known := known d rfl
    simp only
    split
    · exact completeLeaf_safe (leafOf_settles d _) _ _
    · exact completeLeaf_safe (leafOf_settles d _) _ _
    · exact resolveObject_safe safe known.grounded executable path depth
    · split
      · next only => exact Safe.within (safe _ _ _ _ _ _ executable) (dereference_within only)
      · exact resolveObject_safe safe known.grounded executable path depth
      · next message failed =>
        obtain ⟨object, union, member⟩ := dereference_panic failed
        exact ExecM.guarded_throw (.crash ⟨value, type, d, object, .refl, known, union, member⟩)
      · exact ExecM.guarded_fieldError _ _ _ _
    · split
      · refine (describe_knows _).bind fun result known => ?_
        cases result with
        | error e => exact ExecM.guarded_fieldError _ _ _ _
        | ok concrete => exact resolveObject_safe safe (known concrete rfl).grounded executable path depth
      · exact ExecM.guarded_fieldError _ _ _ _
    · exact ExecM.guarded_fieldError _ _ _ _

end

theorem completePlain_safe (type : NamedType) (value : Resolved) (field : FieldPlan) (path : ErrorPath) :
    x.Safe value (x.completePlain type value field path) := by
  unfold completePlain
  refine (describe_knows type).bind fun result _ => ?_
  cases result with
  | error e => exact ExecM.guarded_fieldError _ _ _ _
  | ok d =>
    simp only
    split
    · exact completeLeaf_safe (leafOf_settles d _) _ _
    · exact completeLeaf_safe (leafOf_settles d _) _ _
    all_goals exact ExecM.guarded_fieldError _ _ _ _

/-- Completing a value for a well-formed field fails only as `Abort.Ordinary` says. -/
theorem complete_safe (type : TypeRef) (value : Resolved) (field : FieldPlan) (path : ErrorPath) (depth : Nat)
    (executable : x.Executable field.selection) : x.Safe value (x.complete type value field path depth) := by
  by_cases missing : value = .null
  · subst missing
    rw [complete]
    exact ExecM.guarded_pure trivial
  cases type with
  | map item nullable =>
    rw [complete]
    · exact completeLeaf_safe (serialize_settles value _) _ _
    · exact missing
  | list item nullable =>
    cases value with
    | list items =>
      rw [complete]
      have one (entry : { r // r ∈ x.limits.keepItems items } × Nat) :
          x.Safe (.list items) (x.complete item entry.1.1 field (path.index entry.2) depth) := by
        have part : entry.1.1.Part (.list items) := .item (QueryLimits.mem_of_mem_keepItems entry.1.2)
        exact Safe.within (complete_safe item entry.1.1 field _ depth executable) part.within
      exact (ExecM.guarded_mapM fun entry _ => one entry).bind fun _ _ => ExecM.guarded_pure trivial
    | null => exact absurd rfl missing
    | const _ | map _ | host _ =>
      rw [complete]
      · exact ExecM.guarded_fieldError _ _ _ _
      · exact missing
      · simp
  | named type nullable =>
    cases value with
    | host value =>
      rw [complete]
      refine completeHost_safe (fun type r smaller field path depth executable => ?_) type executable path depth
      exact complete_safe type r field path depth executable
    | null => exact absurd rfl missing
    | const _ | list _ | map _ =>
      rw [complete]
      · exact completePlain_safe type _ field path
      · exact missing
      · simp
termination_by sizeOf value
decreasing_by
  · simp only [Resolved.host.sizeOf_spec]
    omega
  · have := List.sizeOf_lt_of_mem (QueryLimits.mem_of_mem_keepItems entry.1.2)
    simp only [Resolved.list.sizeOf_spec]
    omega

end Execution

end GraphQL
