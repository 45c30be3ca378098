import GraphQL.Proofs.Execution.Rendering

/-!
# Completing renders

Completing a value gives what `Renders` says, whatever the state of the execution, and gives it again
in every later registry: `complete_yields`. The proof follows the definitions, with one lemma for each
function; values shrink on the way down, which the last of them uses.
-/

namespace GraphQL

namespace Execution

variable {x : Execution}

/-! ## Leaves -/

theorem serializeNamed_covers {r R : Registry} (covers : x.host.Covers r R) (descriptor : TypeDescriptor)
    (value : Resolved) : x.serializeNamed R descriptor value = x.serializeNamed r descriptor value := by
  cases value with
  | host value => rw [serializeNamed, serializeNamed, covers.scalar?]
  | _ => rfl

theorem leafOf_settles (descriptor : TypeDescriptor) (value : Resolved) :
    x.host.Settles (x.leafOf descriptor value) := by
  refine Host.repeats_get (fun r => Host.repeats_lift _) ?_
  intro _ _ covers
  rw [serializeNamed_covers covers]

theorem serializeSingle_settles (type : NamedType) (value : Resolved) :
    x.host.Settles (x.serializeSingle type value) :=
  ((Host.describe_settles type).adapt _).bind fun descriptor => leafOf_settles descriptor value

mutual

theorem serialize_settles : ∀ (value : Resolved) (type : TypeRef), x.host.Settles (x.serialize type value)
  | .null, _ => Host.repeats_pure _
  | .map entries, .map item _ => (serializeEntries_settles entries item).bind fun _ => Host.repeats_pure _
  | .map _, .named type _ => serializeSingle_settles type _
  | .map _, .list .. => Host.repeats_throw _
  | .list items, .list item _ => (serializeItems_settles items item).bind fun _ => Host.repeats_pure _
  | .list _, .named type _ => serializeSingle_settles type _
  | .list _, .map .. => Host.repeats_throw _
  | .const _, .named type _ => serializeSingle_settles type _
  | .const _, .list .. => Host.repeats_throw _
  | .const _, .map .. => Host.repeats_throw _
  | .host _, .named type _ => serializeSingle_settles type _
  | .host _, .list .. => Host.repeats_throw _
  | .host _, .map .. => Host.repeats_throw _

theorem serializeItems_settles : ∀ (items : List Resolved) (type : TypeRef), x.host.Settles (x.serializeItems type items)
  | [], _ => Host.repeats_pure _
  | item :: rest, type => (serialize_settles item type).bind fun _ =>
    (serializeItems_settles rest type).bind fun _ => Host.repeats_pure _

theorem serializeEntries_settles : ∀ (entries : List (String × Resolved)) (type : TypeRef),
    x.host.Settles (x.serializeEntries type entries)
  | [], _ => Host.repeats_pure _
  | (_, value) :: rest, type => (serialize_settles value type).bind fun _ =>
    (serializeEntries_settles rest type).bind fun _ => Host.repeats_pure _

end

/-! ## Values -/

/-- The computation gives what the response has for a subject at a path. -/
abbrev Completes (x : Execution) (m : ExecM ResponseValue) (subject : Subject) (path : ErrorPath) : Prop :=
  ExecM.Yields x.host m fun r v es => Renders x r subject path v es

/-- An error at its path nulls a subject, which the whole response never is. -/
theorem pushError_completes {subject : Subject} {e : ResponseError} {path : ErrorPath} (inner : subject ≠ .response)
    (placed : e.path = some path) : x.Completes (ExecM.pushError e) subject path := by
  apply ExecM.yields_pushError.mono
  rintro r v es ⟨rfl, rfl⟩
  exact .failed inner placed

theorem fieldError_completes {subject : Subject} (message : String) (code : ErrorCode) (field : FieldPlan)
    (path : ErrorPath) (inner : subject ≠ .response := by simp) :
    x.Completes (ExecM.fieldError message code field path) subject path :=
  pushError_completes inner rfl

theorem hostError_completes {subject : Subject} (e : HostError) (code : ErrorCode) (field : FieldPlan)
    (path : ErrorPath) (inner : subject ≠ .response := by simp) :
    x.Completes (ExecM.hostError e code field path) subject path :=
  pushError_completes inner rfl

/-- Describing a type gives its cached descriptor, if it gives one, and no error of the response. -/
theorem describe_yields (type : NamedType) :
    ExecM.Yields x.host (x.describe type) fun r result es =>
      es = [] ∧ ∀ d, result = .ok d → r.find? type = some d := by
  apply (ExecM.yields_onRegistry (Host.describe_settles type)).mono
  rintro r result es ⟨empty, again⟩
  refine ⟨empty, ?_⟩
  intro d ok
  subst ok
  exact Host.describe_caches again

/-- What is completed with the descriptor of a type. -/
theorem describe_completes {type : NamedType} {f : Except RegistrationError TypeDescriptor → ExecM ResponseValue}
    {subject : Subject} {path : ErrorPath}
    (failed : ∀ e, x.Completes (f (.error e)) subject path)
    (found : ∀ d, ExecM.Yields x.host (f (.ok d)) fun r v es =>
      r.find? type = some d → Renders x r subject path v es) :
    x.Completes (x.describe type >>= f) subject path := by
  apply (describe_yields type).bind
  intro result
  cases result with
  | error e =>
    apply (failed e).mono
    rintro r v es shown before ⟨rfl, -⟩
    exact shown
  | ok d =>
    apply (found d).mono
    rintro r v es shown before ⟨rfl, known⟩
    exact shown (known d rfl)

theorem completeLeaf_yields {leaf : LeafM Const} (settles : x.host.Settles leaf) {field : FieldPlan} {type : TypeRef}
    {value : Resolved} {path : ErrorPath} :
    ExecM.Yields x.host (completeLeaf leaf field path) fun r v es =>
      r.IsLeaf type → Renders x r (.value field type value) path v es := by
  apply (ExecM.yields_onRegistry settles).bind
  intro result
  cases result with
  | error e =>
    have wrong : x.Completes (ExecM.fieldError e.message .resolverError field path) (.value field type value) path :=
      fieldError_completes _ _ _ _
    apply wrong.mono
    rintro r v es shown before ⟨rfl, -⟩ _
    exact shown
  | ok c =>
    apply ExecM.yields_pure
    rintro r before ⟨rfl, -⟩ kind
    exact .leaf kind

/-! Reading a field, by what navigating and the getter come to. -/

section

variable {object : ObjectFields} {declared : FieldDescriptor} {value owner : HostValue} (field : FieldPlan)
  (path : ErrorPath) (depth : Nat) (finish : Finish value)

theorem readField_lost {e : NavigationError} (lost : object.navigate declared value = .error e) :
    readField object declared value field path depth finish =
      match e with
      | .outOfRange _ => ExecM.abort .internal
      | e => ExecM.fieldError e.message .navigationError field path := by
  unfold readField
  split
  · next lost' =>
    cases lost.symm.trans lost'
    rfl
  · next other lost' =>
    cases lost.symm.trans lost'
    cases e with
    | outOfRange name => exact absurd rfl (other name)
    | _ => rfl
  · next reached => cases lost.symm.trans reached

theorem readField_got {r : Resolved} (reached : object.navigate declared value = .ok owner)
    (got : declared.read owner = .ok r) : ∃ smaller, readField object declared value field path depth finish =
      (ExecM.note (.read path declared.name) >>= fun _ => finish declared.type r smaller field path depth) := by
  refine ⟨Nat.lt_of_lt_of_le (FieldDescriptor.sizeOf_read_lt got) (ObjectFields.sizeOf_navigate_le reached), ?_⟩
  unfold readField
  split
  · next lost => cases reached.symm.trans lost
  · next lost => cases reached.symm.trans lost
  · next reached' =>
    cases reached.symm.trans reached'
    congr 1
    funext _
    split
    · next got' =>
      cases got.symm.trans got'
      rfl
    · next failed => cases got.symm.trans failed
    · next failed => cases got.symm.trans failed

theorem readField_failed {failure : Failure} (reached : object.navigate declared value = .ok owner)
    (failed : declared.read owner = .error failure) : readField object declared value field path depth finish =
      (ExecM.note (.read path declared.name) >>= fun _ =>
        match failure with
        | .error e => ExecM.hostError e .resolverError field path
        | .panic message =>
          ExecM.fieldError s!"field {declared.name} panicked: {message}" .internalServerError field path) := by
  unfold readField
  split
  · next lost => cases reached.symm.trans lost
  · next lost => cases reached.symm.trans lost
  · next reached' =>
    cases reached.symm.trans reached'
    congr 1
    funext _
    split
    · next got => cases failed.symm.trans got
    · next failed' =>
      cases failed.symm.trans failed'
      rfl
    · next failed' =>
      cases failed.symm.trans failed'
      rfl

end

/-- What is read from a value is completed as it renders. -/
def FinishCompletes (x : Execution) {whole : HostValue} (finish : Finish whole) : Prop :=
  ∀ type value smaller field path depth,
    x.Completes (finish type value smaller field path depth) (.value field type value) path

theorem dereference_eq_unchanged {d : TypeDescriptor} {object : ObjectFields} (union : d.kind = .union object)
    {value other : HostValue} : dereference d value ≠ .ok (.unchanged other) := by
  unfold dereference
  rw [union]
  simp only
  split <;> simp

section

variable {value : HostValue} {finish : Finish value} (completes : x.FinishCompletes finish)

include completes

theorem readField_completes {object : ObjectFields} {declared : FieldDescriptor} {concrete : TypeDescriptor}
    {field : FieldPlan} (reads : field.Reads concrete object declared) (path : ErrorPath) (depth : Nat) :
    x.Completes (readField object declared value field path depth finish) (.field field concrete value) path := by
  unfold readField
  split
  · exact ExecM.yields_throw _
  · exact fieldError_completes _ _ _ _
  · next owner reached =>
    refine ExecM.Yields.after (ExecM.yields_note _) ?_
    split
    · next resolved got =>
      exact (completes _ _ _ _ _ _).mono fun _ _ _ shown => .read reads reached got shown
    · exact hostError_completes _ _ _ _
    · exact fieldError_completes _ _ _ _

theorem resolveField_completes (concrete : TypeDescriptor) (field : FieldPlan) (path : ErrorPath) (depth : Nat) :
    x.Completes (x.resolveField concrete value field path depth finish) (.field field concrete value) path := by
  have missing : x.Completes (resolveField.missing concrete field path) (.field field concrete value) path :=
    fieldError_completes _ _ _ _
  unfold resolveField
  refine ExecM.Yields.after ExecM.yields_checkCancelled ?_
  refine ExecM.Yields.after (ExecM.yields_ofExcept fun _ _ _ => rfl) ?_
  split
  · next target => exact ExecM.yields_pure fun _ => .typename target
  · next owner index target =>
    split
    · next object has =>
      split
      · next declared at' => exact readField_completes completes (.objectField target has at') path depth
      · exact ExecM.yields_throw _
    · exact ExecM.yields_throw _
  · next target =>
    split
    · next object has =>
      split
      · next declared named => exact readField_completes completes (.interfaceField target has named) path depth
      · exact missing
    · exact missing
  · exact ExecM.yields_throw _

omit completes in
/-- An object has the fields that its selection comes to, in their order, with the errors of each. -/
theorem resolveObject_each {concrete : TypeDescriptor} {parent : FieldPlan} {path : ErrorPath} {depth : Nat}
    {each : FieldPlan → Registry → ResponseValue → List ResponseError → Prop}
    (one : ∀ field : FieldPlan, ExecM.Yields x.host
      (x.resolveField concrete value field (path.field field.responseKey) (depth + 1) finish) (each field)) :
    ExecM.Yields x.host (x.resolveObject concrete value parent path depth finish) fun r data es =>
      ∃ fields values, ∃ errors : List (List ResponseError),
        x.collect parent.selection (some concrete.type) = .ok fields ∧ values.length = fields.length ∧
        errors.length = fields.length ∧ data = .object (keyed fields values) ∧ es = errors.flatten ∧
        ∀ (i : Nat) field v own, fields[i]? = some field → values[i]? = some v → errors[i]? = some own →
          each field r v own := by
  unfold resolveObject
  have selection : ExecM.Yields x.host (ExecM.ofExcept (x.collect parent.selection (some concrete.type)))
      fun _ fields es => es = [] ∧ x.collect parent.selection (some concrete.type) = .ok fields :=
    ExecM.yields_ofExcept fun fields selected _ => ⟨rfl, selected⟩
  apply selection.bind
  intro fields
  have entry (field : FieldPlan) : ExecM.Yields x.host
      (do
        let path := path.field field.responseKey
        return (field.responseKey, ← x.resolveField concrete value field path (depth + 1) finish))
      fun r entry es => entry.1 = field.responseKey ∧ each field r entry.2 es := by
    apply (one field).bind
    intro v
    refine ExecM.yields_pure fun r before shown => ⟨rfl, ?_⟩
    rw [List.append_nil]
    exact shown
  apply (ExecM.yields_mapM fields fun field _ => entry field).bind
  intro entries
  apply ExecM.yields_pure
  rintro r all ⟨errors, flat, results, counts, holds⟩ before ⟨empty, selected⟩
  have zipped : entries = keyed fields (entries.map (·.2)) := by
    apply eq_keyed results
    intro i f entry hf he
    have bound : i < errors.length := by
      rw [counts]
      exact (List.getElem?_eq_some_iff.1 hf).1
    exact (holds i f entry errors[i] hf he (List.getElem?_eq_getElem bound)).1
  subst empty flat
  refine ⟨fields, entries.map (·.2), errors, selected, ?_, counts, ?_, ?_, fun i f v own hf hv ho => ?_⟩
  · rw [List.length_map, results]
  · rw [← zipped]
  · rw [List.nil_append, List.append_nil]
  · rw [List.getElem?_map, Option.map_eq_some_iff] at hv
    obtain ⟨entry, at', rfl⟩ := hv
    exact (holds i f entry own hf at' ho).2

theorem resolveObject_yields (type : NamedType) (nullable : Bool) (concrete : TypeDescriptor) (parent : FieldPlan)
    (path : ErrorPath) (depth : Nat) :
    ExecM.Yields x.host (x.resolveObject concrete value parent path depth finish) fun r v es =>
      r.Concrete type value concrete →
        Renders x r (.value parent (.named type nullable) (.host value)) path v es := by
  have one (field : FieldPlan) :=
    resolveField_completes completes concrete field (path.field field.responseKey) (depth + 1)
  apply (resolveObject_each one).mono
  rintro r data es ⟨fields, values, errors, selected, results, counts, rfl, rfl, each⟩ is
  exact .object is selected results counts each

theorem completeHost_completes (type : NamedType) (nullable : Bool) (field : FieldPlan) (path : ErrorPath)
    (depth : Nat) :
    x.Completes (x.completeHost type value field path depth finish) (.value field (.named type nullable) (.host value))
      path := by
  unfold completeHost
  apply describe_completes (fun e => fieldError_completes _ _ _ _)
  intro d
  have leaf (is : d.isLeaf = true) : ExecM.Yields x.host (completeLeaf (x.leafOf d (.host value)) field path)
      fun r v es => r.find? type = some d → Renders x r (.value field (.named type nullable) (.host value)) path v es :=
    (completeLeaf_yields (leafOf_settles d _)).mono fun r v es shown known => shown (.named nullable known is)
  have wrong (message : String) (code : ErrorCode) : ExecM.Yields x.host (ExecM.fieldError message code field path)
      fun r v es => r.find? type = some d → Renders x r (.value field (.named type nullable) (.host value)) path v es :=
    (fieldError_completes message code field path).mono fun r v es shown _ => shown
  simp only
  split
  · next kind => exact leaf (by rw [TypeDescriptor.isLeaf, kind])
  · next kind => exact leaf (by rw [TypeDescriptor.isLeaf, kind])
  · next kind =>
    exact (resolveObject_yields completes type nullable d field path depth).mono fun r v es shown known =>
      shown (.object known kind)
  · next kind =>
    split
    · next only =>
      exact (completes _ _ _ _ _ _).mono fun r v es shown known => .member known only shown
    · next unchanged => exact absurd unchanged (dereference_eq_unchanged kind)
    · exact ExecM.yields_throw _
    · exact wrong _ _
  · next shape kind =>
    split
    · next implements =>
      apply (describe_yields _).bind
      intro result
      cases result with
      | error e =>
        apply (wrong _ _).mono
        rintro r v es shown before ⟨rfl, -⟩ known
        exact shown known
      | ok concrete =>
        refine (resolveObject_yields completes type nullable concrete field path depth).mono
          fun r v es shown before described known => ?_
        obtain ⟨rfl, of⟩ := described
        exact shown (.interface known kind (List.contains_iff_mem.1 implements) (of concrete rfl))
    · exact wrong _ _
  · exact wrong _ _

end

theorem completePlain_completes (type : NamedType) (nullable : Bool) (value : Resolved) (field : FieldPlan)
    (path : ErrorPath) :
    x.Completes (x.completePlain type value field path) (.value field (.named type nullable) value) path := by
  unfold completePlain
  apply describe_completes (fun e => fieldError_completes _ _ _ _)
  intro d
  have leaf (is : d.isLeaf = true) : ExecM.Yields x.host (completeLeaf (x.leafOf d value) field path)
      fun r v es => r.find? type = some d → Renders x r (.value field (.named type nullable) value) path v es :=
    (completeLeaf_yields (leafOf_settles d _)).mono fun r v es shown known => shown (.named nullable known is)
  have wrong (message : String) (code : ErrorCode) : ExecM.Yields x.host (ExecM.fieldError message code field path)
      fun r v es => r.find? type = some d → Renders x r (.value field (.named type nullable) value) path v es :=
    (fieldError_completes message code field path).mono fun r v es shown _ => shown
  simp only
  split
  · next kind => exact leaf (by rw [TypeDescriptor.isLeaf, kind])
  · next kind => exact leaf (by rw [TypeDescriptor.isLeaf, kind])
  · exact wrong _ _
  · exact wrong _ _
  · exact wrong _ _
  · exact wrong _ _

/-- Completing a value gives what the response has for it, and again in every later registry. -/
theorem complete_yields (type : TypeRef) (value : Resolved) (field : FieldPlan) (path : ErrorPath) (depth : Nat) :
    x.Completes (x.complete type value field path depth) (.value field type value) path := by
  have leaf (item : TypeRef) (nullable : Bool) (value : Resolved) :
      x.Completes (completeLeaf (x.serialize (.map item nullable) value) field path)
        (.value field (.map item nullable) value) path :=
    (completeLeaf_yields (serialize_settles value _)).mono fun _ _ _ shown => shown (.map item nullable)
  by_cases missing : value = .null
  · subst missing
    rw [complete]
    exact ExecM.yields_pure fun _ => .null
  cases type with
  | map item nullable =>
    rw [complete]
    · exact leaf item nullable value
    · exact missing
  | list item nullable =>
    cases value with
    | list items =>
      rw [complete]
      have one (entry : { r // r ∈ x.limits.keepItems items } × Nat) :
          ExecM.Yields x.host (x.complete item entry.1.1 field (path.index entry.2) depth) fun r v es =>
            Renders x r (.value field item entry.1.1) (path.index entry.2) v es :=
        complete_yields item entry.1.1 field (path.index entry.2) depth
      apply (ExecM.yields_mapM _ fun entry _ => one entry).bind
      intro values
      apply ExecM.yields_pure
      rintro r all ⟨errors, rfl, results, counts, each⟩
      rw [List.append_nil]
      rw [List.length_zipIdx, List.length_attach] at results counts
      refine .list results counts ?_
      intro i value v es hi hv he
      have kept : (x.limits.keepItems items).attach.zipIdx[i]? = some (⟨value, List.mem_of_getElem? hi⟩, i) := by
        obtain ⟨bound, rfl⟩ := List.getElem?_eq_some_iff.1 hi
        rw [List.getElem?_zipIdx, List.getElem?_attach]
        simp [bound]
      exact each i _ v es kept hv he
    | null => exact absurd rfl missing
    | const _ | map _ | host _ =>
      rw [complete]
      · exact fieldError_completes _ _ _ _
      · exact missing
      · simp
  | named type nullable =>
    cases value with
    | host value =>
      rw [complete]
      refine completeHost_completes (fun type r smaller field path depth => ?_) type nullable field path depth
      exact complete_yields type r field path depth
    | null => exact absurd rfl missing
    | const _ | list _ | map _ =>
      rw [complete]
      · exact completePlain_completes type nullable _ field path
      · exact missing
      · simp
termination_by sizeOf value
decreasing_by
  · simp only [Resolved.host.sizeOf_spec]
    omega
  · have := List.sizeOf_lt_of_mem (QueryLimits.mem_of_mem_keepItems entry.1.2)
    simp only [Resolved.list.sizeOf_spec]
    omega

/-! A list is completed item by item, each with its place. -/

theorem mapM_attach_zipIdx {α β : Type} (items : List α) (f : α → Nat → ExecM β) :
    (items.attach.zipIdx.mapM fun entry => f entry.1.1 entry.2) = items.zipIdx.mapM fun entry => f entry.1 entry.2 := by
  have unattached : items.zipIdx = items.attach.zipIdx.map fun entry => (entry.1.1, entry.2) := by
    conv => lhs; rw [← List.attach_map_subtype_val items, List.zipIdx_map]
    rfl
  rw [unattached, List.mapM_map]
  rfl

theorem complete_list (x : Execution) (item : TypeRef) (nullable : Bool) (items : List Resolved) (field : FieldPlan)
    (path : ErrorPath) (depth : Nat) :
    x.complete (.list item nullable) (.list items) field path depth = (do
      let values ← (x.limits.keepItems items).zipIdx.mapM fun entry =>
        x.complete item entry.1 field (path.index entry.2) depth
      return .list values) := by
  rw [complete, ← mapM_attach_zipIdx (x.limits.keepItems items) fun r i => x.complete item r field (path.index i) depth]

end Execution

end GraphQL
