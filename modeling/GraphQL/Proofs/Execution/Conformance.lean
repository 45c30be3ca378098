import GraphQL.Proofs.Execution.Answers

/-!
# The shape of responses

The value of a field conforms to its type: null always does, lists conform item by item, maps, scalars
and enums are constants, an object has the fields of its selection, and a union has one of its members.
The type of a field is the one it was compiled with, except where it is selected on an interface: there
the type that decides is the one that the concrete type declares, because an implementor need only have
the fields of the interface, of whatever types.
-/

namespace GraphQL

/-- A response value conforms to a type for a field, given the types of the fields of objects. -/
inductive Conforms (x : Execution) (r : Registry) (typeOf : TypeDescriptor → FieldPlan → TypeRef) :
    FieldPlan → TypeRef → ResponseValue → Prop
  | null {field : FieldPlan} {type : TypeRef} : Conforms x r typeOf field type .null
  | leaf {field : FieldPlan} {type : TypeRef} {c : Const} (kind : r.IsLeaf type) :
    Conforms x r typeOf field type (.const c)
  | list {field : FieldPlan} {item : TypeRef} {nullable : Bool} {values : List ResponseValue}
    (each : ∀ v ∈ values, Conforms x r typeOf field item v) :
    Conforms x r typeOf field (.list item nullable) (.list values)
  | member {field : FieldPlan} {type : NamedType} {nullable : Bool} {d : TypeDescriptor} {object : ObjectFields}
    {member : FieldDescriptor} {v : ResponseValue} (known : r.find? type = some d) (kind : d.kind = .union object)
    (mem : member ∈ object.fields) (inner : Conforms x r typeOf field member.type v) :
    Conforms x r typeOf field (.named type nullable) v
  | object {field : FieldPlan} {type : NamedType} {nullable : Bool} {value : HostValue} {concrete : TypeDescriptor}
    {fields : List FieldPlan} {values : List ResponseValue} (is : r.Concrete type value concrete)
    (selected : fields = x.selected field.selection (some concrete.type)) (results : values.length = fields.length)
    (each : ∀ (i : Nat) f v, fields[i]? = some f → values[i]? = some v →
      Conforms x r typeOf f (typeOf concrete f) v) :
    Conforms x r typeOf field (.named type nullable) (.object (keyed fields values))

/-- The type with which a field was compiled. -/
def compiledType (_ : TypeDescriptor) (field : FieldPlan) : TypeRef := field.type

/-- The type that a field has on a concrete type: for the field of an interface, the type that the
concrete type declares for it, and otherwise the type with which it was compiled. -/
def declaredType (concrete : TypeDescriptor) (field : FieldPlan) : TypeRef :=
  match field.target with
  | .interfaceField =>
    match concrete.objectFields?.bind (·.find? field.name) with
    | some declared => declared.type
    | none => field.type
  | _ => field.type

/-- The data are an object with the selected root fields, whose values conform to their types. -/
def Execution.WellShaped (x : Execution) (r : Registry) (typeOf : TypeDescriptor → FieldPlan → TypeRef)
    (data : ResponseValue) : Prop :=
  ∃ (fields : List FieldPlan) (values : List ResponseValue), fields = x.selected x.plan.selection none ∧
    values.length = fields.length ∧ data = .object (keyed fields values) ∧
    ∀ (i : Nat) f v, fields[i]? = some f → values[i]? = some v → Conforms x r typeOf f f.type v

variable {x : Execution} {r : Registry}

/-- What is shown for a subject has the shape that its type asks for. -/
def Subject.Shapes (x : Execution) (r : Registry) : Subject → ResponseValue → Prop
  | .response, v => x.WellShaped r declaredType v
  | .root f, v => Conforms x r declaredType f f.type v
  | .value f type _, v => Conforms x r declaredType f type v
  | .field f concrete _, v => Conforms x r declaredType f (declaredType concrete f) v

theorem mem_of_setMembers {typeName : String} {value : HostValue} {fields : List FieldDescriptor}
    {set : List (FieldDescriptor × Resolved)} (ok : setMembers typeName value fields = .ok set) :
    ∀ member ∈ set, member.1 ∈ fields := by
  induction fields generalizing set with
  | nil =>
    cases ok
    exact fun member mem => absurd mem List.not_mem_nil
  | cons field rest ih =>
    rw [setMembers] at ok
    split at ok
    · cases ok
    · cases ok
    · cases more : setMembers typeName value rest with
      | error e =>
        rw [more] at ok
        cases ok
      | ok others =>
        rw [more] at ok
        simp only [Except.map, Except.ok.injEq] at ok
        intro member mem
        subst ok
        split at mem
        · exact List.mem_cons_of_mem _ (ih more member mem)
        · rcases List.mem_cons.1 mem with rfl | mem
          · exact List.mem_cons_self
          · exact List.mem_cons_of_mem _ (ih more member mem)

/-- A union stands for one of its fields. -/
theorem mem_of_dereference {d : TypeDescriptor} {value : HostValue} {name : String} {type : TypeRef} {set : Resolved}
    (only : dereference d value = .ok (.member name type set)) :
    ∃ object member, d.kind = .union object ∧ member ∈ object.fields ∧ member.type = type := by
  unfold dereference at only
  split at only
  · next object kind =>
    split at only
    · cases only
    · cases only
    · next field resolved sets =>
      cases only
      exact ⟨object, field, kind, mem_of_setMembers sets _ List.mem_cons_self, rfl⟩
    · cases only
  · cases only

/-- The declared field that is read has the type of the field on the concrete type. -/
theorem FieldPlan.Reads.type {field : FieldPlan} {concrete : TypeDescriptor} {object : ObjectFields}
    {declared : FieldDescriptor} (reads : field.Reads concrete object declared)
    (typed : field.target.Typed field.type) : declaredType concrete field = declared.type := by
  unfold declaredType
  cases reads with
  | objectField target has at' =>
    rw [target] at typed ⊢
    simp only
    generalize field.type = type at typed
    cases typed with
    | objectField has' at'' =>
      rw [has] at has'
      cases has'
      rw [at'] at at''
      cases at''
      rfl
  | interfaceField target has named =>
    rw [target, has]
    simp only [Option.bind_some, named]

theorem isLeaf_typename {field : FieldPlan} (target : field.target = .typename)
    (typed : field.target.Typed field.type) : r.IsLeaf field.type := by
  rw [target] at typed
  generalize field.type = type at typed
  cases typed with
  | typename => exact .builtin .string false

theorem Renders.shapes {subject : Subject} {path : ErrorPath} {v : ResponseValue} {es : List ResponseError}
    (shown : Renders x r subject path v es) (sound : subject.Sound x) : subject.Shapes x r v := by
  induction shown with
  | @failed subject _ _ inner _ =>
    cases subject with
    | response => exact absurd rfl inner
    | _ => exact .null
  | null => exact .null
  | leaf kind => exact .leaf kind
  | @list field item nullable items path values errors results counts each ih =>
    refine .list ?_
    intro v mem
    obtain ⟨i, hv⟩ := List.getElem?_of_mem mem
    have kept : i < (x.limits.keepItems items).length := results ▸ (List.getElem?_eq_some_iff.1 hv).1
    have own : i < errors.length := counts ▸ kept
    exact ih i _ v _ (List.getElem?_eq_getElem kept) hv (List.getElem?_eq_getElem own) sound
  | member known only _ ih =>
    obtain ⟨object, member, kind, mem, rfl⟩ := mem_of_dereference only
    exact .member known kind mem (ih sound)
  | @object field type nullable value path d fields values errors is selected results counts each ih =>
    refine .object is (Execution.collect_eq_ok selected) results ?_
    intro i f v hf hv
    have own : i < errors.length := counts ▸ (List.getElem?_eq_some_iff.1 hf).1
    have below := FieldPlan.Sound.within sound f (Execution.mem_of_collect selected (List.mem_of_getElem? hf))
    exact ih i f v _ hf hv (List.getElem?_eq_getElem own) below
  | typename target =>
    rw [Subject.Shapes, declaredType, target]
    exact Conforms.leaf (isLeaf_typename target sound.typed)
  | read reads _ _ _ ih =>
    have inner := ih sound
    rw [Subject.Shapes, reads.type (FieldPlan.Sound.typed sound)]
    exact inner
  | rootTypename target => exact .leaf (isLeaf_typename target sound.typed)
  | resolved _ ih => exact ih sound
  | @response fields values errors all selected results counts each any ih =>
    refine ⟨fields, values, Execution.collect_eq_ok selected, results, rfl, ?_⟩
    intro i f v hf hv
    have own : i < errors.length := counts ▸ (List.getElem?_eq_some_iff.1 hf).1
    have below := Plan.Sound.fields sound f (Execution.mem_of_collect selected (List.mem_of_getElem? hf))
    exact ih i f v _ hf hv (List.getElem?_eq_getElem own) below

/-- Every response that is no abort is well shaped, fields of interfaces having the types that the
concrete types declare for them. -/
theorem Execution.responses_conform {state : ExecutionState} (compiled : x.plan.Compiled) (fresh : state.errors = []) :
    x.Ensures state fun response registry => x.WellShaped registry declaredType response.data :=
  ensures compiled fresh fun _ _ _ _ shown => shown.shapes compiled.sound

namespace NodeQuery

theorem node_conforms : plan.Compiled ∧ state.errors = [] ∧
    execution.Ensures state fun response registry => execution.WellShaped registry declaredType response.data :=
  ⟨plan_compiled, rfl, Execution.responses_conform (x := execution) plan_compiled rfl⟩

/-- The data have a list as the identifier of the node, in a registry in which nodes are an interface. -/
def showsList : Except Breakdown Response × ExecutionState → Bool
  | (.ok ⟨.object [("node", .object [("id", .list _)])], []⟩, final) =>
    match final.registry.find? (.builtin .string), final.registry.find? (.host 0) with
    | none, some ⟨_, _, _, .interface _⟩ => true
    | _, _ => false
  | _ => false

/-- The identifier of a node was compiled as a string, and the response has a list. -/
theorem compiled_types_not_shown : plan.Compiled ∧ host.Reachable state.registry ∧ state.errors = [] ∧
    ∃ response final, execution.execute state = (.ok response, final) ∧ response.errors = [] ∧
      ¬execution.WellShaped final.registry compiledType response.data := by
  refine ⟨plan_compiled, .empty, rfl, ?_⟩
  have shown : showsList (execution.execute state) = true := by
    rw [execute_eq]
    decide +kernel
  cases ran : execution.execute state with
  | mk result final =>
    rw [ran] at shown
    unfold showsList at shown
    split at shown
    · next items final eq =>
      cases eq
      split at shown
      · next d name text shape string node =>
        refine ⟨_, final, rfl, rfl, ?_⟩
        rintro ⟨fields, values, selected, results, data, each⟩
        have roots : fields = [nodeField] := selected
        subst roots
        obtain ⟨v, rfl⟩ := List.length_eq_one_iff.1 results
        cases data
        have conforms : Conforms execution final.registry compiledType nodeField (.named (.host 0) true)
          (.object [("id", .list items)]) := each 0 nodeField _ rfl rfl
        generalize built : ResponseValue.object [("id", .list items)] = v at conforms
        cases conforms with
        | null | leaf => cases built
        | member known kind _ _ =>
          rw [node] at known
          cases known
          cases kind
        | @object _ _ _ _ concrete fields values is selected results each =>
          have below : fields = [idField] := selected
          subst below
          obtain ⟨w, rfl⟩ := List.length_eq_one_iff.1 results
          cases built
          have conforms : Conforms execution final.registry compiledType idField (.named (.builtin .string) true)
            (.list items) := each 0 idField _ rfl rfl
          cases conforms with
          | member known _ _ _ =>
            rw [string] at known
            cases known
      · cases shown
    · cases shown

end NodeQuery

end GraphQL
