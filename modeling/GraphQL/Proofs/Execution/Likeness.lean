import GraphQL.Proofs.Execution.Completing
import GraphQL.Proofs.Execution.Pacing
import GraphQL.Proofs.Execution.Unfailing

/-!
# Values that are completed alike

A likeness relates values, type by type, so that completing cannot tell them apart: related values have one
form, the items of related lists that a response keeps are related, related host values have the same type and
related parts, and leaves are serialized alike. From this, completing related values goes on alike:
`Likeness.complete_follows`. What the getter of a field that the engine knows comes to is related at the type of
the field; other getters are never called.
-/

namespace GraphQL

/-- One constructor made both values. -/
inductive Resolved.SameForm : Resolved → Resolved → Prop
  | null : SameForm .null .null
  | const (c : Const) : SameForm (.const c) (.const c)
  | list (items items' : List Resolved) : SameForm (.list items) (.list items')
  | map (entries entries' : List (String × Resolved)) : SameForm (.map entries) (.map entries')
  | host (value value' : HostValue) : SameForm (.host value) (.host value')

theorem Resolved.SameForm.refl (value : Resolved) : value.SameForm value := by
  cases value with
  | null => exact .null
  | const c => exact .const c
  | list items => exact .list items items
  | map entries => exact .map entries entries
  | host value => exact .host value value

theorem Resolved.SameForm.eq_null {value value' : Resolved} (form : value.SameForm value') (null : value' = .null) :
    value = .null := by
  subst null
  cases form
  rfl

/-- The field belongs to an object or union that the engine comes to know. -/
def Host.Offers (host : Host) (declared : FieldDescriptor) : Prop :=
  ∃ type d object, host.Knows type d ∧ d.objectFields? = some object ∧ declared ∈ object.fields

/-- What is made of the host values of a type: the serializers of scalars that were registered or described for it. -/
inductive Registry.Serializes (r : Registry) (type : NamedType) : (HostValue → Const) → Prop
  | registered {scalar : ScalarDescriptor} (found : r.scalar? type = some scalar) : Serializes r type scalar.serialize
  | custom {named : NamedType} {d : TypeDescriptor} {scalar : ScalarDescriptor} (found : r.find? named = some d)
    (kind : d.kind = .scalar (.custom scalar)) (of : type = scalar.type) : Serializes r type scalar.serialize
  | host {named : NamedType} {d : TypeDescriptor} {codec : ScalarCodec} (found : r.find? named = some d)
    (kind : d.kind = .scalar (.host codec)) (of : type = d.type) : Serializes r type codec.serialize

namespace Execution

theorem isEnumValue_of_content {value value' : HostValue} (type : value'.type = value.type)
    (content : value'.content = value.content) (named : NamedType) :
    isEnumValue named value' = isEnumValue named value := by
  obtain ⟨id, content', fields, embedded⟩ := value
  obtain ⟨id', _, fields', embedded'⟩ := value'
  cases type
  cases content
  funext candidate
  cases content' <;> rfl

/-- Host values of one type and content that no serializer for the type tells apart are serialized alike. -/
theorem serializeNamed_of_content {x : Execution} {r r' : Registry} {named : NamedType} {d : TypeDescriptor}
    (described : r'.find? named = some d) {value value' : HostValue} (type : value'.type = value.type)
    (content : value'.content = value.content)
    (serialized : ∀ serialize, r.Serializes (.host value.type) serialize ∨ r'.Serializes (.host value.type) serialize →
      serialize value' = serialize value) :
    x.serializeNamed r d (.host value') = x.serializeNamed r d (.host value) := by
  rw [serializeNamed, serializeNamed, type]
  split
  · next scalar found => rw [serialized _ (Or.inl (.registered found))]
  · unfold serializeHost serializeWith
    rw [type, isEnumValue_of_content type content]
    split
    · next scalar kind =>
      split
      · next of => rw [serialized _ (Or.inr (.custom described kind of))]
      · rfl
    · next codec kind =>
      split
      · next of => rw [serialized _ (Or.inr (.host described kind of))]
      · rfl
    · rfl
    · rfl

end Execution

theorem Pace.Describes.knows {host : Host} {pace : Pace host} {type : NamedType} {d : TypeDescriptor}
    (describes : pace.Describes type d) : host.Knows type d := by
  obtain ⟨r, known, found⟩ := describes
  exact ⟨r, pace.reachable known, found⟩

/-- A relation of values that completing cannot tell apart, at the pace of two executions. -/
structure Execution.Likeness (x : Execution) where
  pace : Pace x.host
  values : TypeRef → Resolved → Resolved → Prop
  hosts : HostValue → HostValue → Prop
  form : ∀ {type value value'}, values type value value' → value.SameForm value'
  isNil : ∀ {type value value'}, values type value value' → value'.isNil = value.isNil
  held : ∀ {type value value'}, values type (.host value) (.host value') → hosts value value'
  items : ∀ {item nullable items items'}, values (.list item nullable) (.list items) (.list items') →
    List.Forall₂ (values item) (x.limits.keepItems items) (x.limits.keepItems items')
  map : ∀ {item nullable value value' r}, values (.map item nullable) value value' → pace.knows r →
    outcome (x.serialize (.map item nullable) value') r = outcome (x.serialize (.map item nullable) value) r
  leaf : ∀ {type value value' r named d}, values type value value' → pace.knows r → pace.Describes named d →
    x.serializeNamed r d value' = x.serializeNamed r d value
  type : ∀ {value value'}, hosts value value' → value'.type = value.type
  embedded : ∀ {value value'}, hosts value value' → List.Forall₂ (Option.Rel hosts) value.embedded value'.embedded
  reads : ∀ {value value' declared}, hosts value value' → x.host.Offers declared →
    pace.Reads (values declared.type) (declared.read value) (declared.read value')

namespace Execution.Likeness

variable {x : Execution} {l : x.Likeness}

/-! ## Host values -/

section

variable {value value' : HostValue} (alike : l.hosts value value')

include alike

theorem follow (step : EmbedStep) : Option.Rel l.hosts (step.follow value) (step.follow value') := by
  unfold EmbedStep.follow
  rw [l.type alike]
  split
  · have found := forall₂_getElem? (l.embedded alike) step.index
    revert found
    generalize value.embedded[step.index]? = inner
    generalize value'.embedded[step.index]? = inner'
    rintro ((inner | _) | _)
    · simp only
      rw [l.type inner]
      split
      · exact .some inner
      · exact .none
    · exact .none
    · exact .none
  · exact .none

omit alike in
theorem walk {object : ObjectFields} {name : String} (path : List Nat) {value value' : HostValue}
    (alike : l.hosts value value') : Corresponds l.hosts (object.walk name path value) (object.walk name path value') := by
  induction path generalizing value value' with
  | nil => exact .ended alike
  | cons place rest ih =>
    rw [ObjectFields.walk, ObjectFields.walk]
    cases object.steps[place]? with
    | none => exact .failed _
    | some step =>
      simp only
      have follows := l.follow alike step
      revert follows
      generalize step.follow value = inner
      generalize step.follow value' = inner'
      rintro (inner | _)
      · exact ih inner
      · cases step.kind <;> exact .failed _

/-- What is set of a union, unless a getter panics where the other comes to null. -/
theorem setMembers (typeName : String) {fields : List FieldDescriptor} (offered : ∀ field ∈ fields, x.host.Offers field) :
    l.pace.forgives ∧ (∃ message, GraphQL.setMembers typeName value fields = .error (.panic message)) ∨
      Corresponds (List.Forall₂ fun member member' => member'.1 = member.1 ∧ l.values member.1.type member.2 member'.2)
        (GraphQL.setMembers typeName value fields) (GraphQL.setMembers typeName value' fields) := by
  induction fields with
  | nil => exact Or.inr (.ended .nil)
  | cons field rest ih =>
    obtain ⟨here, others⟩ := List.forall_mem_cons.1 offered
    have reading := l.reads alike here
    rw [GraphQL.setMembers, GraphQL.setMembers]
    revert reading
    generalize field.read value = read
    generalize field.read value' = read'
    rintro (failure | holds | forgives)
    · cases failure with
      | error e => exact Or.inr (.failed _)
      | panic message => exact Or.inr (.failed _)
    · obtain ⟨forgives, message, panicked⟩ | others := ih others
      · refine Or.inl ⟨forgives, message, ?_⟩
        simp only
        rw [panicked]
        rfl
      · refine Or.inr (others.map fun set set' each => ?_)
        rw [l.isNil holds]
        split
        · exact each
        · exact .cons ⟨rfl, holds⟩ each
    · exact Or.inl ⟨forgives, _, rfl⟩

/-- What values of a union are replaced by. -/
inductive Dereferences (l : x.Likeness) : Dereferenced → Dereferenced → Prop
  | unchanged {value value' : HostValue} (alike : l.hosts value value') :
    Dereferences l (.unchanged value) (.unchanged value')
  | member {name : String} {type : TypeRef} {value value' : Resolved} (alike : l.values type value value') :
    Dereferences l (.member name type value) (.member name type value')

theorem dereference {type : NamedType} {d : TypeDescriptor} (known : x.host.Knows type d) :
    l.pace.forgives ∧ (∃ message, GraphQL.dereference d value = .error (.panic message)) ∨
      Corresponds (Dereferences l) (GraphQL.dereference d value) (GraphQL.dereference d value') := by
  unfold GraphQL.dereference
  cases kind : d.kind with
  | union object =>
    have offered (field : FieldDescriptor) (mem : field ∈ object.fields) : x.host.Offers field :=
      ⟨type, d, object, known, by rw [TypeDescriptor.objectFields?, kind], mem⟩
    simp only
    obtain ⟨forgives, message, panicked⟩ | sets := l.setMembers alike d.name offered
    · exact Or.inl ⟨forgives, message, by rw [panicked]⟩
    · right
      revert sets
      generalize GraphQL.setMembers d.name value object.fields = set
      generalize GraphQL.setMembers d.name value' object.fields = set'
      rintro (e | holds)
      · exact .failed e
      · have names := map_eq_of_forall₂ holds fun member member' same => congrArg FieldDescriptor.name same.1
        cases holds with
        | nil => exact .failed _
        | @cons first first' _ _ same others =>
          obtain ⟨field, resolved⟩ := first
          obtain ⟨field', resolved'⟩ := first'
          obtain ⟨rfl, holds⟩ := same
          cases others with
          | nil => exact .ended (.member holds)
          | cons =>
            simp only
            rw [names]
            exact .failed _
  | _ => exact Or.inr (.ended (.unchanged alike))

end

end Execution.Likeness

/-! ## Fields -/

/-- Fields that a value is completed alike for. -/
structure FieldPlan.Resembles (field field' : FieldPlan) : Prop where
  name : field'.name = field.name
  location : field'.location = field.location
  selection : field'.selection = field.selection

theorem FieldPlan.Resembles.refl (field : FieldPlan) : field.Resembles field := ⟨rfl, rfl, rfl⟩

namespace Execution

variable {x : Execution} {field field' : FieldPlan}

section

variable {pace : Pace x.host}

theorem fieldError_follows (resembles : field.Resembles field') (message : String) (code : ErrorCode)
    (path : ErrorPath) :
    ExecM.Follows pace Eq (ExecM.fieldError message code field path) (ExecM.fieldError message code field' path) := by
  unfold ExecM.fieldError
  rw [resembles.location]
  exact ExecM.follows_pushError _

theorem hostError_follows (resembles : field.Resembles field') (e : HostError) (code : ErrorCode) (path : ErrorPath) :
    ExecM.Follows pace Eq (ExecM.hostError e code field path) (ExecM.hostError e code field' path) := by
  unfold ExecM.hostError
  rw [resembles.location]
  exact ExecM.follows_pushError _

theorem completeLeaf_follows {leaf leaf' : LeafM Const} (resembles : field.Resembles field') (path : ErrorPath)
    (each : ∀ r, pace.knows r → outcome leaf' r = outcome leaf r ∧ x.host.Later r (outcome leaf r).2) :
    ExecM.Follows pace Eq (completeLeaf leaf field path) (completeLeaf leaf' field' path) := by
  unfold completeLeaf
  have same : ExecM.Follows pace Eq (ExecM.onRegistry leaf.run) (ExecM.onRegistry leaf'.run) :=
    ExecM.follows_onRegistry fun r known => by
      obtain ⟨same, later⟩ := each r known
      exact ⟨by rw [same], by rw [same], later⟩
  refine same.bind fun result _ eq => ?_
  subst eq
  cases result with
  | ok c => exact ExecM.follows_pure rfl
  | error e => exact fieldError_follows resembles _ _ _

/-- Describing a type is alike in two executions. -/
theorem describe_follows (type : NamedType) :
    ExecM.Follows pace (fun result result' => result' = result ∧ ∀ d, result = .ok d → pace.Describes type d)
      (x.describe type) (x.describe type) := by
  refine ExecM.follows_onRegistry fun r known => ?_
  have settles : x.host.Settles (x.host.describe type) := Host.describe_settles type
  have later := (settles r).grows
  exact ⟨⟨rfl, fun d ok => ⟨_, pace.later known later, Host.describe_caches (Prod.ext ok rfl)⟩⟩, rfl, later⟩

end

/-- What a value of a union is completed to: what it is replaced by decides. -/
def completeUnion (x : Execution) (d : TypeDescriptor) (value : HostValue) (field : FieldPlan) (path : ErrorPath)
    (depth : Nat) (finish : Finish value) : ExecM ResponseValue :=
  match hd : GraphQL.dereference d value with
  | .ok (.member _ type r) => finish type r (sizeOf_dereference_lt hd) field path depth
  | .ok (.unchanged _) => x.resolveObject d value field path depth finish
  | .error (.panic message) => throw (.breakdown (.crash message))
  | .error e => ExecM.fieldError e.message .resolverError field path

section

variable {d : TypeDescriptor} {value : HostValue} (field : FieldPlan) (path : ErrorPath) (depth : Nat)
  (finish : Finish value)

theorem completeUnion_member {name : String} {type : TypeRef} {r : Resolved}
    (got : GraphQL.dereference d value = .ok (.member name type r)) :
    ∃ smaller, x.completeUnion d value field path depth finish = finish type r smaller field path depth := by
  refine ⟨sizeOf_dereference_lt got, ?_⟩
  unfold completeUnion
  split
  · next got' =>
    cases got.symm.trans got'
    rfl
  all_goals
    next got' => cases got.symm.trans got'

theorem completeUnion_failed {failure : UnionError} (failed : GraphQL.dereference d value = .error failure) :
    x.completeUnion d value field path depth finish =
      match failure with
      | .panic message => throw (.breakdown (.crash message))
      | e => ExecM.fieldError e.message .resolverError field path := by
  unfold completeUnion
  split
  · next got => cases failed.symm.trans got
  · next got => cases failed.symm.trans got
  · next failed' =>
    cases failed.symm.trans failed'
    rfl
  · next other failed' =>
    cases failed.symm.trans failed'
    cases failure with
    | panic message => exact absurd rfl (other message)
    | _ => rfl

end

/-- What is read from two values is completed alike. -/
structure FinishFollows (l : x.Likeness) {value value' : HostValue} (finish : Finish value) (finish' : Finish value') :
    Prop where
  values : ∀ type r r' smaller smaller' field field' path depth, l.values type r r' → field.Resembles field' →
    x.Executable field.selection →
      ExecM.Follows l.pace Eq (finish type r smaller field path depth) (finish' type r' smaller' field' path depth)
  null : ∀ type smaller field path depth, finish' type .null smaller field path depth = pure .null

namespace Likeness

variable {l : x.Likeness}

section

variable {value value' : HostValue} (alike : l.hosts value value') {finish : Finish value} {finish' : Finish value'}
  (follows : FinishFollows l finish finish')

include alike follows

/-- A getter that panics nulls the field with an error, and is followed by one that gives null. -/
theorem readField_follows (object : ObjectFields) {declared : FieldDescriptor} (offered : x.host.Offers declared)
    (resembles : field.Resembles field') (executable : x.Executable field.selection) (path : ErrorPath) (depth : Nat) :
    ExecM.Follows l.pace Eq (readField object declared value field path depth finish)
      (readField object declared value' field' path depth finish') := by
  have walked : Corresponds l.hosts (object.navigate declared value) (object.navigate declared value') :=
    l.walk declared.path alike
  cases reached : object.navigate declared value with
  | error e =>
    rw [reached] at walked
    rw [readField_lost _ _ _ _ reached, readField_lost _ _ _ _ walked.of_error]
    cases e with
    | outOfRange _ => exact ExecM.follows_throw _
    | _ => exact fieldError_follows resembles _ _ _
  | ok owner =>
    rw [reached] at walked
    obtain ⟨owner', reached', inner⟩ := walked.of_ok
    have reading := l.reads inner offered
    cases read : declared.read owner with
    | error failure =>
      rw [read] at reading
      rw [readField_failed _ _ _ _ reached read]
      cases read' : declared.read owner' with
      | error failure' =>
        rw [read'] at reading
        cases reading
        rw [readField_failed _ _ _ _ reached' read']
        refine (ExecM.follows_note _ _).bind fun _ _ _ => ?_
        cases failure with
        | error e => exact hostError_follows resembles _ _ _
        | panic message => exact fieldError_follows resembles _ _ _
      | ok r' =>
        rw [read'] at reading
        cases reading with
        | panicked forgives =>
          obtain ⟨smaller, null⟩ := readField_got field' path depth finish' reached' read'
          rw [null, follows.null]
          exact (ExecM.follows_note _ _).bind fun _ _ _ => ExecM.pushError_follows_null forgives _
    | ok r =>
      rw [read] at reading
      obtain ⟨r', read', alike'⟩ := reading.of_ok
      obtain ⟨smaller, eq⟩ := readField_got field path depth finish reached read
      obtain ⟨smaller', eq'⟩ := readField_got field' path depth finish' reached' read'
      rw [eq, eq']
      exact (ExecM.follows_note _ _).bind fun _ _ _ => follows.values _ _ _ _ _ _ _ _ _ alike' resembles executable

theorem resolveField_follows {type : NamedType} {d : TypeDescriptor} (known : x.host.Knows type d)
    {fields : List FieldPlan} (executable : x.Executable fields) {field : FieldPlan} (mem : field ∈ fields)
    (path : ErrorPath) (depth : Nat) :
    ExecM.Follows l.pace Eq (x.resolveField d value field path depth finish)
      (x.resolveField d value' field path depth finish') := by
  have below := executable.below mem
  obtain ⟨_, r, reachable, each⟩ := executable
  have missing : ExecM.Follows l.pace Eq (resolveField.missing d field path) (resolveField.missing d field path) :=
    fieldError_follows (.refl field) _ _ _
  unfold resolveField
  refine ExecM.follows_checkCancelled.bind fun _ _ _ => (ExecM.follows_ofExcept _).bind fun _ _ _ => ?_
  cases (each field mem).targets with
  | typename _ target _ =>
    rw [target]
    exact ExecM.follows_pure rfl
  | @objectField owner _ type object declared target found kind at' _ _ =>
    have has : owner.objectFields? = some object := by rw [TypeDescriptor.objectFields?, kind]
    have offered : x.host.Offers declared := ⟨type, owner, object, ⟨r, reachable, found⟩, has, List.mem_of_getElem? at'⟩
    rw [target]
    simp only [has, at']
    exact readField_follows alike follows object offered (.refl field) below path depth
  | interfaceField target _ =>
    rw [target]
    simp only
    cases has : d.objectFields? with
    | none => exact missing
    | some object =>
      simp only
      cases named : object.find? field.name with
      | none => exact missing
      | some declared =>
        have offered : x.host.Offers declared := ⟨type, d, object, known, has, List.mem_of_find?_eq_some named⟩
        exact readField_follows alike follows object offered (.refl field) below path depth

theorem resolveObject_follows {type : NamedType} {d : TypeDescriptor} (known : x.host.Knows type d)
    (resembles : field.Resembles field') (executable : x.Executable field.selection) (path : ErrorPath) (depth : Nat) :
    ExecM.Follows l.pace Eq (x.resolveObject d value field path depth finish)
      (x.resolveObject d value' field' path depth finish') := by
  unfold resolveObject
  rw [resembles.selection]
  cases selected : x.collect field.selection (some d.type) with
  | error e => exact ExecM.follows_throw _
  | ok fields =>
    have each : ∀ field' ∈ fields, field' ∈ field.selection := by
      rw [collect_eq_ok selected]
      exact fun field' mem => List.mem_of_mem_filter mem
    have entries : ExecM.Follows l.pace (List.Forall₂ Eq)
        (fields.mapM fun field => do
          let path := path.field field.responseKey
          return (field.responseKey, ← x.resolveField d value field path (depth + 1) finish))
        (fields.mapM fun field => do
          let path := path.field field.responseKey
          return (field.responseKey,
            ← x.resolveField d value' field path (depth + 1) finish')) := by
      refine ExecM.follows_mapM (List.forall₂_same.2 fun field mem => ?_)
      refine (resolveField_follows alike follows known executable (each field mem) _ _).bind fun v _ eq => ?_
      subst eq
      exact ExecM.follows_pure rfl
    refine entries.bind fun all all' same => ?_
    rw [List.forall₂_eq_eq_eq] at same
    subst same
    exact ExecM.follows_pure rfl

end

theorem leafOf_follows {type : TypeRef} {named : NamedType} {d : TypeDescriptor} (described : l.pace.Describes named d)
    {value value' : Resolved} (alike : l.values type value value') (resembles : field.Resembles field')
    (path : ErrorPath) :
    ExecM.Follows l.pace Eq (completeLeaf (x.leafOf d value) field path)
      (completeLeaf (x.leafOf d value') field' path) := by
  have comes (value : Resolved) (r : Registry) : outcome (x.leafOf d value) r = (x.serializeNamed r d value, r) := by
    unfold leafOf
    rw [outcome_bind, outcome_get]
    exact outcome_lift _ _
  refine completeLeaf_follows resembles path fun r known => ?_
  rw [comes, comes, l.leaf alike known described]
  exact ⟨rfl, .refl _ _⟩

theorem completeUnion_follows {value value' : HostValue} (alike : l.hosts value value') {finish : Finish value}
    {finish' : Finish value'} (follows : FinishFollows l finish finish') {type : NamedType} {d : TypeDescriptor}
    (known : x.host.Knows type d) {object : ObjectFields} (kind : d.kind = .union object)
    (resembles : field.Resembles field') (executable : x.Executable field.selection) (path : ErrorPath) (depth : Nat) :
    ExecM.Follows l.pace Eq (x.completeUnion d value field path depth finish)
      (x.completeUnion d value' field' path depth finish') := by
  obtain ⟨forgives, message, panicked⟩ | same := l.dereference alike known
  · rw [completeUnion_failed _ _ _ _ panicked]
    exact ExecM.follows_crash forgives _ _
  · cases reached : GraphQL.dereference d value with
    | ok replaced =>
      rw [reached] at same
      obtain ⟨_, reached', related⟩ := same.of_ok
      cases related with
      | unchanged => exact absurd reached (dereference_eq_unchanged kind)
      | member inner =>
        obtain ⟨smaller, eq⟩ := completeUnion_member field path depth finish reached
        obtain ⟨smaller', eq'⟩ := completeUnion_member field' path depth finish' reached'
        rw [eq, eq']
        exact follows.values _ _ _ _ _ _ _ _ _ inner resembles executable
    | error failure =>
      rw [reached] at same
      rw [completeUnion_failed _ _ _ _ reached, completeUnion_failed _ _ _ _ same.of_error]
      cases failure with
      | panic message => exact ExecM.follows_throw _
      | _ => exact fieldError_follows resembles _ _ _

theorem completeHost_follows {value value' : HostValue} {ref : TypeRef} (alike : l.values ref (.host value) (.host value'))
    {finish : Finish value} {finish' : Finish value'} (follows : FinishFollows l finish finish') (type : NamedType)
    (resembles : field.Resembles field') (executable : x.Executable field.selection) (path : ErrorPath) (depth : Nat) :
    ExecM.Follows l.pace Eq (x.completeHost type value field path depth finish)
      (x.completeHost type value' field' path depth finish') := by
  have held := l.held alike
  unfold completeHost
  refine (describe_follows type).bind fun _ result described => ?_
  obtain ⟨rfl, described⟩ := described
  cases result with
  | error e => exact fieldError_follows resembles _ _ _
  | ok d =>
    have described := described d rfl
    have leaf := leafOf_follows described alike resembles path
    have object {type : NamedType} {d : TypeDescriptor} (described : l.pace.Describes type d) :=
      resolveObject_follows held follows described.knows resembles executable path depth
    simp only
    cases kind : d.kind with
    | scalar _ => exact leaf
    | enum _ => exact leaf
    | object _ => exact object described
    | union object =>
      exact completeUnion_follows held follows described.knows kind resembles executable path depth
    | interface shape =>
      simp only
      rw [l.type held]
      split
      · refine (describe_follows _).bind fun _ result described => ?_
        obtain ⟨rfl, described⟩ := described
        cases result with
        | error e => exact fieldError_follows resembles _ _ _
        | ok concrete => exact object (described concrete rfl)
      · exact fieldError_follows resembles _ _ _
    | inputObject _ => exact fieldError_follows resembles _ _ _

theorem completePlain_follows {ref : TypeRef} {value value' : Resolved} (alike : l.values ref value value')
    (type : NamedType) (resembles : field.Resembles field') (path : ErrorPath) :
    ExecM.Follows l.pace Eq (x.completePlain type value field path) (x.completePlain type value' field' path) := by
  unfold completePlain
  refine (describe_follows type).bind fun _ result described => ?_
  obtain ⟨rfl, described⟩ := described
  cases result with
  | error e => exact fieldError_follows resembles _ _ _
  | ok d =>
    have leaf := leafOf_follows (described d rfl) alike resembles path
    have unexpected : ExecM.Follows l.pace Eq (unexpected d field path) (unexpected d field' path) := by
      unfold Execution.unexpected
      rw [resembles.name]
      exact fieldError_follows resembles _ _ _
    simp only
    cases d.kind with
    | scalar _ => exact leaf
    | enum _ => exact leaf
    | object _ => exact unexpected
    | union _ => exact unexpected
    | interface _ => exact unexpected
    | inputObject _ => exact fieldError_follows resembles _ _ _

/-- Completing related values comes to the same, unless the first crashes where the second goes on. -/
theorem complete_follows (type : TypeRef) {value value' : Resolved} (alike : l.values type value value')
    {field field' : FieldPlan} (resembles : field.Resembles field') (executable : x.Executable field.selection)
    (path : ErrorPath) (depth : Nat) :
    ExecM.Follows l.pace Eq (x.complete type value field path depth) (x.complete type value' field' path depth) := by
  have form := l.form alike
  by_cases missing : value = .null
  · subst missing
    cases form
    rw [complete, complete]
    exact ExecM.follows_pure rfl
  have missing' : value' ≠ .null := fun null => missing (form.eq_null null)
  cases type with
  | map item nullable =>
    rw [complete, complete]
    · refine completeLeaf_follows resembles path fun r known => ?_
      exact ⟨l.map alike known, (serialize_settles value _ r).grows⟩
    · exact missing'
    · exact missing
  | list item nullable =>
    have mismatch (message : String) : ExecM.Follows l.pace Eq (ExecM.fieldError message .resolverError field path)
        (ExecM.fieldError message .resolverError field' path) := fieldError_follows resembles _ _ _
    cases form with
    | null => exact absurd rfl missing
    | list items items' =>
      rw [complete, complete]
      have values : ExecM.Follows l.pace (List.Forall₂ Eq)
          ((x.limits.keepItems items).attach.zipIdx.mapM fun entry =>
            x.complete item entry.1.1 field (path.index entry.2) depth)
          ((x.limits.keepItems items').attach.zipIdx.mapM fun entry =>
            x.complete item entry.1.1 field' (path.index entry.2) depth) := by
        have kept := l.items alike
        refine ExecM.follows_mapM (List.forall₂_iff_get.2 ⟨?_, fun i bound bound' => ?_⟩)
        · rw [List.length_zipIdx, List.length_zipIdx, List.length_attach, List.length_attach, kept.length_eq]
        · simp only [List.get_eq_getElem, List.getElem_zipIdx, List.getElem_attach, Nat.zero_add]
          rw [List.length_zipIdx, List.length_attach] at bound bound'
          have among : (x.limits.keepItems items).get ⟨i, bound⟩ ∈ items :=
            QueryLimits.mem_of_mem_keepItems (List.get_mem _ _)
          exact complete_follows item (kept.get bound bound') resembles executable (path.index i) depth
      refine values.bind fun all all' same => ?_
      rw [List.forall₂_eq_eq_eq] at same
      subst same
      exact ExecM.follows_pure rfl
    | const _ | map _ _ | host _ _ =>
      rw [complete, complete]
      · rw [resembles.name]
        exact mismatch _
      all_goals simp
  | named type nullable =>
    cases form with
    | null => exact absurd rfl missing
    | host value value' =>
      rw [complete, complete]
      refine completeHost_follows alike ⟨?_, ?_⟩ type resembles executable path depth
      · intro type r r' smaller _ field field' path depth alike resembles executable
        exact complete_follows type alike resembles executable path depth
      · intro type _ field path depth
        rw [complete]
    | const _ | list _ _ | map _ _ =>
      rw [complete, complete]
      · exact completePlain_follows alike type resembles path
      all_goals simp
termination_by sizeOf value
decreasing_by
  · subst_vars
    simp only [Resolved.host.sizeOf_spec]
    omega
  · subst_vars
    have := List.sizeOf_lt_of_mem among
    simp only [Resolved.list.sizeOf_spec]
    omega

end Likeness

end Execution

end GraphQL
