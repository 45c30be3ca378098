import GraphQL.Proofs.Execution.Shortening

/-!
# Completing under other limits

Completing a value under other limits gives what it gave before, shortened: `complete_retells`. The proof
follows the definitions, with one lemma for each function, as `Completing` does for one execution.
-/

namespace GraphQL

namespace Execution

variable {x : Execution} {R : Registry} {w : Leeway} {limits' : QueryLimits}

/-! ## Selections -/

theorem holds_under (field : FieldPlan) (conditions : List Condition) :
    (x.under limits').holds field conditions = x.holds field conditions := by
  induction conditions with
  | nil => rfl
  | cons condition rest ih =>
    rw [holds, holds, ih]
    rfl

theorem included_under (concrete : Option NamedType) (selection : List FieldPlan) :
    (x.under limits').included concrete selection = x.included concrete selection := by
  induction selection with
  | nil => rfl
  | cons field rest ih => rw [included, included, ih, isIncluded, isIncluded, holds_under]

theorem collect_permits (guides : x.limits.Guides w limits') (selection : List FieldPlan)
    (concrete : Option NamedType) :
    w.Permits (x.collect selection concrete) ((x.under limits').collect selection concrete) := by
  unfold collect
  rw [included_under]
  refine Leeway.Permits.bind (.same _) fun fields _ => ?_
  cases fields with
  | nil => exact .same _
  | cons first rest => exact (guides.fields first _).bind fun _ _ => .same _

/-! ## Values -/

/-- The second computation comes to what the first has for a subject, shortened. -/
abbrev Retells (x : Execution) (R : Registry) (w : Leeway) (m m' : ExecM ResponseValue) (subject : Subject) : Prop :=
  ExecM.Reproduces x.host R w m m' fun v v' => Shortens x R w.kept subject v v'

theorem pushError_retells {subject : Subject} {e : ResponseError} {path : ErrorPath} (kept : path.isKept w.kept = true)
    (placed : e.path = some path) : x.Retells R w (ExecM.pushError e) (ExecM.pushError e) subject := by
  have here : e.isKept w.kept = true := by rw [ResponseError.isKept, placed, Option.all_some, kept]
  refine (ExecM.reproduces_pushError here).mono ?_
  rintro _ _ ⟨rfl, rfl⟩
  exact .null

section

variable {subject : Subject} {path : ErrorPath} (kept : path.isKept w.kept = true)

include kept

theorem fieldError_retells (message : String) (code : ErrorCode) (field : FieldPlan) :
    x.Retells R w (ExecM.fieldError message code field path) (ExecM.fieldError message code field path) subject :=
  pushError_retells kept rfl

theorem hostError_retells (e : HostError) (code : ErrorCode) (field : FieldPlan) :
    x.Retells R w (ExecM.hostError e code field path) (ExecM.hostError e code field path) subject :=
  pushError_retells kept rfl

/-- The constant of a leaf is cut as its type says. -/
theorem completeLeaf_retells {leaf : LeafM Const} (settles : x.host.Settles leaf) (type : TypeRef) (value : Resolved)
    (field : FieldPlan) :
    ExecM.Reproduces x.host R w (completeLeaf leaf field path) (completeLeaf (type.cut w.kept <$> leaf) field path)
      fun v v' => R.IsLeaf type → Shortens x R w.kept (.value field type value) v v' := by
  refine (ExecM.reproduces_onRegistry settles (type.cut w.kept)).bind (fun result => ?_) fun result _ same => ?_
  · cases result with
    | ok c => exact ExecM.grows_pure _
    | error e => exact fun _ => .refl _ _
  · obtain ⟨rfl, -⟩ := same
    cases result with
    | ok c => exact ExecM.reproduces_pure fun kind => .leaf kind
    | error e => exact (fieldError_retells kept e.message .resolverError field).mono fun _ _ shortens _ => shortens

end

/-- A scalar or an enum of a known type. -/
theorem namedLeaf_retells {d : TypeDescriptor} (is : d.isLeaf = true) (type : NamedType) (nullable : Bool)
    (value : Resolved) (field : FieldPlan) {path : ErrorPath} (kept : path.isKept w.kept = true) :
    ExecM.Reproduces x.host R w (completeLeaf (x.leafOf d value) field path)
      (completeLeaf (x.leafOf d value) field path) fun v v' =>
        R.find? type = some d → Shortens x R w.kept (.value field (.named type nullable) value) v v' := by
  have uncut : (TypeRef.named type nullable).cut w.kept <$> x.leafOf d value = x.leafOf d value := id_map _
  have retells := completeLeaf_retells (R := R) kept (leafOf_settles (x := x) d value) (.named type nullable) value field
  rw [uncut] at retells
  exact retells.mono fun _ _ shortens known => shortens (.named nullable known is)

/-- What is completed with the descriptor of a type, which is cached then. -/
theorem describe_reproduces {type : NamedType} {f f' : Except RegistrationError TypeDescriptor → ExecM ResponseValue}
    {rel : ResponseValue → ResponseValue → Prop}
    (failed : ∀ e, ExecM.Reproduces x.host R w (f (.error e)) (f' (.error e)) rel)
    (found : ∀ d, ExecM.Reproduces x.host R w (f (.ok d)) (f' (.ok d)) fun v v' => R.find? type = some d → rel v v') :
    ExecM.Reproduces x.host R w (x.describe type >>= f) (x.describe type >>= f') rel := by
  have settles : x.host.Settles (x.host.describe type) := Host.describe_settles type
  have mapped := ExecM.reproduces_onRegistry (R := R) (w := w) settles id
  rw [id_map] at mapped
  refine mapped.bind (fun result => ?_) fun result result' same => ?_
  · cases result with
    | error e => exact (failed e).grows
    | ok d => exact (found d).grows
  · obtain ⟨rfl, again⟩ := same
    cases result with
    | error e => exact failed e
    | ok d => exact (found d).mono fun _ _ holds => holds (Host.describe_caches again)

/-- What is read from a value is completed alike at every place that is kept. -/
def FinishRetells (x : Execution) (R : Registry) (w : Leeway) {whole : HostValue} (finish finish' : Finish whole) : Prop :=
  ∀ type value smaller (field : FieldPlan) path depth, path.isKept w.kept = true →
    x.Retells R w (finish type value smaller field path depth) (finish' type value smaller field path depth)
      (.value field type value)

theorem isKept_field {path : ErrorPath} (kept : path.isKept w.kept = true) (key : String) :
    (path.field key).isKept w.kept = true := by
  unfold ErrorPath.isKept ErrorPath.field
  rw [List.all_append]
  exact Bool.and_eq_true_iff.2 ⟨kept, rfl⟩

theorem isKept_index {path : ErrorPath} (kept : path.isKept w.kept = true) {i : Nat} (less : w.kept = 0 ∨ i < w.kept) :
    (path.index i).isKept w.kept = true := by
  unfold ErrorPath.isKept ErrorPath.index
  rw [List.all_append]
  exact Bool.and_eq_true_iff.2 ⟨kept, by simpa using less⟩

theorem isKept_beyond {path rest : ErrorPath} {n i : Nat} (some : n ≠ 0) (beyond : n ≤ i) :
    (path.index i ++ rest).isKept n = false := by
  unfold ErrorPath.isKept ErrorPath.index
  rw [List.all_append, List.all_append]
  simp [some, Nat.not_lt.2 beyond]

section

variable (guides : x.limits.Guides w limits') {value : HostValue} {finish finish' : Finish value}
  (retells : x.FinishRetells R w finish finish')

include retells

theorem readField_retells {object : ObjectFields} {declared : FieldDescriptor} {concrete : TypeDescriptor}
    {field : FieldPlan} (reads : field.Reads concrete object declared) {path : ErrorPath}
    (kept : path.isKept w.kept = true) (depth : Nat) :
    x.Retells R w (readField object declared value field path depth finish)
      (readField object declared value field path depth finish') (.field field concrete value) := by
  cases reached : object.navigate declared value with
  | error e =>
    rw [readField_lost _ _ _ _ reached, readField_lost _ _ _ _ reached]
    cases e with
    | outOfRange _ => exact ExecM.reproduces_throw _
    | _ => exact fieldError_retells kept _ _ _
  | ok owner =>
    cases got : declared.read owner with
    | error failure =>
      rw [readField_failed _ _ _ _ reached got, readField_failed _ _ _ _ reached got]
      refine (ExecM.reproduces_note _).then_ ?_
      cases failure with
      | error e => exact hostError_retells kept _ _ _
      | panic message => exact fieldError_retells kept _ _ _
    | ok r =>
      obtain ⟨smaller, eq⟩ := readField_got field path depth finish reached got
      obtain ⟨_, eq'⟩ := readField_got field path depth finish' reached got
      rw [eq, eq']
      refine (ExecM.reproduces_note _).then_ ?_
      exact (retells _ _ smaller field path depth kept).mono fun _ _ shortens => .read reads reached got shortens

include guides

theorem resolveField_retells (d : TypeDescriptor) (field : FieldPlan) {path : ErrorPath}
    (kept : path.isKept w.kept = true) (depth : Nat) :
    x.Retells R w (x.resolveField d value field path depth finish)
      ((x.under limits').resolveField d value field path depth finish') (.field field d value) := by
  have missing : x.Retells R w (resolveField.missing d field path) (resolveField.missing d field path)
      (.field field d value) := fieldError_retells kept _ _ _
  unfold resolveField
  refine ExecM.reproduces_checkCancelled.then_ ((ExecM.reproduces_ofExcept (guides.depth field depth)).then_ ?_)
  cases target : field.target with
  | operation operation => exact ExecM.reproduces_throw _
  | typename => exact ExecM.reproduces_pure (.typename target)
  | objectField owner index =>
    simp only
    cases has : owner.objectFields? with
    | none => exact ExecM.reproduces_throw _
    | some object =>
      simp only
      cases at' : object.fields[index]? with
      | none => exact ExecM.reproduces_throw _
      | some declared => exact readField_retells retells (.objectField target has at') kept depth
  | interfaceField =>
    simp only
    cases has : d.objectFields? with
    | none => exact missing
    | some object =>
      simp only
      cases named : object.find? field.name with
      | none => exact missing
      | some declared => exact readField_retells retells (.interfaceField target has named) kept depth

theorem resolveObject_retells (type : NamedType) (nullable : Bool) (concrete : TypeDescriptor) (parent : FieldPlan)
    {path : ErrorPath} (kept : path.isKept w.kept = true) (depth : Nat) :
    ExecM.Reproduces x.host R w (x.resolveObject concrete value parent path depth finish)
      ((x.under limits').resolveObject concrete value parent path depth finish') fun v v' =>
        R.Concrete type value concrete → Shortens x R w.kept (.value parent (.named type nullable) (.host value)) v v' := by
  unfold resolveObject
  refine (ExecM.reproduces_ofExcept (collect_permits guides parent.selection (some concrete.type))).bind_same
    fun fields => ?_
  have entry (field : FieldPlan) : ExecM.Reproduces x.host R w
      (do
        let path := path.field field.responseKey
        return (field.responseKey, ← x.resolveField concrete value field path (depth + 1) finish))
      (do
        let path := path.field field.responseKey
        return (field.responseKey, ← (x.under limits').resolveField concrete value field path (depth + 1) finish'))
      fun entry entry' => entry.1 = field.responseKey ∧ entry'.1 = field.responseKey ∧
        Shortens x R w.kept (.field field concrete value) entry.2 entry'.2 :=
    (resolveField_retells guides retells concrete field (isKept_field kept _) (depth + 1)).map fun _ _ shortens =>
      ⟨rfl, rfl, shortens⟩
  refine (ExecM.reproduces_mapM fun field _ => entry field).map fun entries entries' related selected is => ?_
  obtain ⟨count, count', each⟩ := related
  have at' {fields : List FieldPlan} {entries : List (String × ResponseValue)} {i : Nat} {f : FieldPlan}
      (count : entries.length = fields.length) (hf : fields[i]? = some f) : ∃ entry, entries[i]? = some entry :=
    ⟨_, List.getElem?_eq_getElem (count ▸ (List.getElem?_eq_some_iff.1 hf).1)⟩
  have zipped : entries = keyed fields (entries.map (·.2)) := eq_keyed count fun i f entry hf he => by
    obtain ⟨entry', he'⟩ := at' count' hf
    exact (each i f entry entry' hf he he').1
  have zipped' : entries' = keyed fields (entries'.map (·.2)) := eq_keyed count' fun i f entry' hf he' => by
    obtain ⟨entry, he⟩ := at' count hf
    exact (each i f entry entry' hf he he').2.1
  rw [zipped, zipped']
  refine .object is selected (by rw [List.length_map, count]) (by rw [List.length_map, count']) ?_
  intro i f v v' hf hv hv'
  rw [List.getElem?_map, Option.map_eq_some_iff] at hv hv'
  obtain ⟨entry, he, rfl⟩ := hv
  obtain ⟨entry', he', rfl⟩ := hv'
  exact (each i f entry entry' hf he he').2.2

theorem completeHost_retells (type : NamedType) (nullable : Bool) (field : FieldPlan) {path : ErrorPath}
    (kept : path.isKept w.kept = true) (depth : Nat) :
    x.Retells R w (x.completeHost type value field path depth finish)
      ((x.under limits').completeHost type value field path depth finish')
      (.value field (.named type nullable) (.host value)) := by
  unfold completeHost
  refine describe_reproduces (fun e => fieldError_retells kept _ _ _) fun d => ?_
  have wrong (message : String) (code : ErrorCode) : ExecM.Reproduces x.host R w
      (ExecM.fieldError message code field path) (ExecM.fieldError message code field path) fun v v' =>
        R.find? type = some d → Shortens x R w.kept (.value field (.named type nullable) (.host value)) v v' :=
    (fieldError_retells kept message code field).mono fun _ _ shortens _ => shortens
  have leaf (is : d.isLeaf = true) := namedLeaf_retells (x := x) (R := R) is type nullable (.host value) field kept
  simp only
  cases kind : d.kind with
  | scalar _ => exact leaf (by rw [TypeDescriptor.isLeaf, kind])
  | enum _ => exact leaf (by rw [TypeDescriptor.isLeaf, kind])
  | object _ =>
    exact (resolveObject_retells guides retells type nullable d field kept depth).mono fun _ _ shortens known =>
      shortens (.object known kind)
  | union _ =>
    simp only
    split
    · next only =>
      exact (retells _ _ _ field path depth kept).mono fun _ _ shortens known =>
        .member known only shortens
    · next unchanged => exact absurd unchanged (dereference_eq_unchanged kind)
    · exact ExecM.reproduces_throw _
    · exact wrong _ _
  | interface shape =>
    simp only
    split
    · next implements =>
      refine describe_reproduces (fun e => wrong _ _) fun concrete => ?_
      refine (resolveObject_retells guides retells type nullable concrete field kept depth).mono
        fun _ _ shortens of known => ?_
      exact shortens (.interface known kind (List.contains_iff_mem.1 implements) of)
    · exact wrong _ _
  | inputObject _ => exact wrong _ _

end

theorem completePlain_retells (type : NamedType) (nullable : Bool) (value : Resolved) (field : FieldPlan)
    {path : ErrorPath} (kept : path.isKept w.kept = true) :
    x.Retells R w (x.completePlain type value field path) ((x.under limits').completePlain type value field path)
      (.value field (.named type nullable) value) := by
  unfold completePlain
  refine describe_reproduces (fun e => fieldError_retells kept _ _ _) fun d => ?_
  have wrong (message : String) (code : ErrorCode) : ExecM.Reproduces x.host R w
      (ExecM.fieldError message code field path) (ExecM.fieldError message code field path) fun v v' =>
        R.find? type = some d → Shortens x R w.kept (.value field (.named type nullable) value) v v' :=
    (fieldError_retells kept message code field).mono fun _ _ shortens _ => shortens
  have leaf (is : d.isLeaf = true) := namedLeaf_retells (x := x) (R := R) is type nullable value field kept
  simp only
  cases kind : d.kind with
  | scalar _ => exact leaf (by rw [TypeDescriptor.isLeaf, kind])
  | enum _ => exact leaf (by rw [TypeDescriptor.isLeaf, kind])
  | object _ => exact wrong _ _
  | union _ => exact wrong _ _
  | interface _ => exact wrong _ _
  | inputObject _ => exact wrong _ _

/-! ## Lists -/

/-- What the items that are left out come to is not kept, and may fail. -/
theorem beyond_conducts (guides : x.limits.Guides w limits') (item : TypeRef) (items : List Resolved) (field : FieldPlan)
    (path : ErrorPath) (depth : Nat) :
    ExecM.Conducts x.host (.leftOut w)
      (((beyond w.kept items).zipIdx (upTo w.kept items).length).mapM fun entry =>
        x.complete item entry.1 field (path.index entry.2) depth)
      fun all => all.length = (beyond w.kept items).length := by
  refine (ExecM.conducts_mapM fun entry mem => ?_).mono fun all count => by rw [count, List.length_zipIdx]
  obtain ⟨limited, after⟩ := of_mem_beyond mem
  refine (complete_conducts item entry.1 field (path.index entry.2) depth).weaken ⟨?_, ?_, fun _ _ => trivial⟩
  · exact fun abort _ => guides.cuts limited abort
  · rintro e ⟨rest, placed⟩
    change e.isKept w.kept = false
    rw [ResponseError.isKept, placed, Option.all_some, isKept_beyond limited after]

/-- Items that are completed alike make lists alike, but for those that are left out. -/
theorem completeList_retells (guides : x.limits.Guides w limits') (item : TypeRef) (nullable : Bool)
    (items : List Resolved) (field : FieldPlan) {path : ErrorPath} (kept : path.isKept w.kept = true) (depth : Nat)
    (retells : ∀ r ∈ items, ∀ {path : ErrorPath}, path.isKept w.kept = true →
      x.Retells R w (x.complete item r field path depth) ((x.under limits').complete item r field path depth)
        (.value field item r)) :
    x.Retells R w (x.complete (.list item nullable) (.list items) field path depth)
      ((x.under limits').complete (.list item nullable) (.list items) field path depth)
      (.value field (.list item nullable) (.list items)) := by
  rw [complete_list, complete_list]
  change x.Retells R w _ (do
    let values ← (limits'.keepItems items).zipIdx.mapM fun entry =>
      (x.under limits').complete item entry.1 field (path.index entry.2) depth
    return .list values) _
  rw [guides.items]
  generalize among : x.limits.keepItems items = whole at *
  have one (entry : Resolved × Nat) (mem : entry ∈ (upTo w.kept whole).zipIdx) :
      x.Retells R w (x.complete item entry.1 field (path.index entry.2) depth)
        ((x.under limits').complete item entry.1 field (path.index entry.2) depth) (.value field item entry.1) := by
    have at' := List.mem_zipIdx_iff_getElem?.1 mem
    refine retells entry.1 (@QueryLimits.mem_of_mem_keepItems _ x.limits _ _ ?_)
      (isKept_index kept (getElem?_of_upTo at').2)
    rw [among]
    exact mem_of_mem_upTo (List.mem_of_getElem? at')
  have places : whole.zipIdx = (upTo w.kept whole).zipIdx ++ (beyond w.kept whole).zipIdx (upTo w.kept whole).length := by
    conv => lhs; rw [← upTo_append_beyond w.kept whole, List.zipIdx_append, Nat.zero_add]
  rw [places, List.mapM_append]
  simp only [bind_assoc, pure_bind]
  refine (ExecM.reproduces_mapM one).leftOut (beyond_conducts guides item whole field path depth)
    fun first shortened others related count => ?_
  obtain ⟨count', count'', each⟩ := related
  rw [List.length_zipIdx] at count' count''
  have total : (first ++ others).length = whole.length := by
    rw [← upTo_append_beyond w.kept whole, List.length_append, List.length_append, count, count']
  refine .list (by rw [total, among]) (by rw [count'', length_upTo total]) fun i r v v' hr hv hv' => ?_
  have less : i < (upTo w.kept whole).length := count'' ▸ (List.getElem?_eq_some_iff.1 hv').1
  rw [among, ← upTo_append_beyond w.kept whole, List.getElem?_append_left less] at hr
  rw [List.getElem?_append_left (count' ▸ less)] at hv
  refine each i (r, i) v v' ?_ hv hv'
  rw [List.getElem?_zipIdx, hr, Option.map_some, Nat.zero_add]

/-! ## Values of any type -/

/-- Under other limits a value is completed to the same, shortened, with the errors of what is kept. -/
theorem complete_retells (guides : x.limits.Guides w limits') (type : TypeRef) (value : Resolved) (field : FieldPlan)
    {path : ErrorPath} (kept : path.isKept w.kept = true) (depth : Nat) :
    x.Retells R w (x.complete type value field path depth) ((x.under limits').complete type value field path depth)
      (.value field type value) := by
  by_cases missing : value = .null
  · subst missing
    rw [complete, complete]
    exact ExecM.reproduces_pure .null
  cases type with
  | map item nullable =>
    rw [complete, complete, serialize_under guides]
    · exact (completeLeaf_retells kept (serialize_settles value _) (.map item nullable) value field).mono
        fun _ _ shortens => shortens (.map item nullable)
    all_goals exact missing
  | list item nullable =>
    cases value with
    | list items =>
      refine completeList_retells guides item nullable items field kept depth fun r mem _ kept => ?_
      have smaller := List.sizeOf_lt_of_mem mem
      exact complete_retells guides item r field kept depth
    | null => exact absurd rfl missing
    | const _ | map _ | host _ =>
      rw [complete, complete]
      · exact fieldError_retells kept _ _ _
      all_goals simp
  | named type nullable =>
    cases value with
    | host value =>
      rw [complete, complete]
      refine completeHost_retells guides (fun type r smaller field path depth kept => ?_) type nullable field kept depth
      exact complete_retells guides type r field kept depth
    | null => exact absurd rfl missing
    | const _ | list _ | map _ =>
      rw [complete, complete]
      · exact completePlain_retells type nullable _ field kept
      all_goals simp
termination_by sizeOf value
decreasing_by
  · simp only [Resolved.host.sizeOf_spec]
    omega
  · simp only [Resolved.list.sizeOf_spec]
    omega

end Execution

end GraphQL
