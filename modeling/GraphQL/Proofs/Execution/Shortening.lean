import GraphQL.Proofs.Execution.Reproducing

/-!
# Shortened values

An execution that keeps fewer items of each list completes a value to the same data, shortened: `Shortens`
goes through data and types together, so that lists at declared list positions are cut, inside maps as well,
and lists that are constants of scalars are not. `complete_retells` says so of an execution under any
limits whose guards agree with those of another, or fail in the latter with an excuse.
-/

namespace GraphQL

section

variable {α : Type} {n : Nat}

@[simp] theorem upTo_zero (items : List α) : upTo 0 items = items := rfl

/-- The items after the first ones. -/
def beyond (n : Nat) (items : List α) : List α := if n = 0 then [] else items.drop n

theorem upTo_append_beyond (n : Nat) (items : List α) : upTo n items ++ beyond n items = items := by
  unfold upTo beyond
  split
  · rw [List.append_nil]
  · exact List.take_append_drop n items

theorem length_upTo {items : List α} {others : List β} (count : items.length = others.length) :
    (upTo n items).length = (upTo n others).length := by
  unfold upTo
  split
  · exact count
  · rw [List.length_take, List.length_take, count]

theorem mem_of_mem_upTo {items : List α} {a : α} (mem : a ∈ upTo n items) : a ∈ items := by
  rw [← upTo_append_beyond n items]
  exact List.mem_append_left _ mem

/-- The places of the items after the first ones. -/
theorem of_mem_beyond {items : List α} {entry : α × Nat}
    (mem : entry ∈ (beyond n items).zipIdx (upTo n items).length) : n ≠ 0 ∧ n ≤ entry.2 := by
  have after := List.le_snd_of_mem_zipIdx mem
  have some : 0 < (beyond n items).length := List.length_pos_of_mem (List.fst_mem_of_mem_zipIdx mem)
  unfold beyond upTo at *
  split at some
  · cases some
  · next limited =>
    rw [if_neg limited, List.length_take] at after
    rw [List.length_drop] at some
    exact ⟨limited, by omega⟩

theorem getElem?_of_upTo {items : List α} {i : Nat} {a : α} (at' : (upTo n items)[i]? = some a) :
    items[i]? = some a ∧ (n = 0 ∨ i < n) := by
  unfold upTo at at'
  split at at'
  · next none => exact ⟨at', Or.inl none⟩
  · rw [List.getElem?_take] at at'
    split at at'
    · next less => exact ⟨at', Or.inr less⟩
    · cases at'

end

/-! ## Constants -/

/-- A constant with the lists that its type has cut to so many items. -/
def TypeRef.cut (n : Nat) : TypeRef → Const → Const
  | .list item _, .list items => .list (upTo n (items.map (item.cut n)))
  | .map value _, .object entries => .object (entries.map fun entry => (entry.1, value.cut n entry.2))
  | _, c => c

namespace TypeRef

@[simp] theorem cut_null (n : Nat) (type : TypeRef) : type.cut n .null = .null := by cases type <;> rfl

theorem cut_zero (type : TypeRef) (c : Const) : type.cut 0 c = c := by
  induction type generalizing c with
  | named type nullable => rfl
  | list item nullable ih =>
    cases c with
    | list items =>
      rw [cut, upTo_zero]
      exact congrArg Const.list (List.map_id'' (fun c => ih c) items)
    | _ => rfl
  | map value nullable ih =>
    cases c with
    | object entries =>
      rw [cut]
      exact congrArg Const.object (List.map_id'' (fun entry => congrArg (Prod.mk entry.1) (ih entry.2)) entries)
    | _ => rfl

end TypeRef

/-- The limits of a second execution beside those of a first. -/
structure QueryLimits.Guides (w : Leeway) (limits limits' : QueryLimits) : Prop where
  depth : ∀ (field : FieldPlan) depth,
    w.Permits (field.guard (limits.checkDepth depth)) (field.guard (limits'.checkDepth depth))
  fields : ∀ (field : FieldPlan) count,
    w.Permits (field.guard (limits.checkFields count)) (field.guard (limits'.checkFields count))
  complexity : ∀ (field : FieldPlan) complexity,
    w.Permits (field.guard (limits.checkComplexity complexity)) (field.guard (limits'.checkComplexity complexity))
  items : ∀ {α : Type} (items : List α), limits'.keepItems items = upTo w.kept (limits.keepItems items)
  /-- Where items are left out, the first execution may fail because of them. -/
  cuts : w.kept ≠ 0 → ∀ abort, w.excuse abort

/-- Limits guide themselves, with or without excuses. -/
theorem QueryLimits.guides_self (excuse : Abort → Prop) (limits : QueryLimits) : limits.Guides (.excusing excuse) limits :=
  ⟨fun _ _ => .same _, fun _ _ => .same _, fun _ _ => .same _, fun _ => rfl, fun some => absurd rfl some⟩

namespace Execution

/-- The execution under other limits. -/
def under (x : Execution) (limits : QueryLimits) : Execution := { x with limits }

variable {x : Execution} {w : Leeway} {limits' : QueryLimits}

/-! ## Leaves -/

mutual

/-- Lists inside maps are cut after they are serialized. -/
theorem serialize_under (guides : x.limits.Guides w limits') : ∀ (value : Resolved) (type : TypeRef),
    (x.under limits').serialize type value = type.cut w.kept <$> x.serialize type value
  | .null, type => by
    rw [serialize, serialize, map_pure, TypeRef.cut_null]
  | .map entries, .map item nullable => by
    rw [serialize, serialize, serializeEntries_under guides entries item, map_bind, bind_map_left]
    refine congrArg (x.serializeEntries item entries >>= ·) (funext fun all => ?_)
    rw [map_pure, TypeRef.cut, Entries.ofList_map]
  | .map entries, .named type nullable => (id_map _).symm
  | .map entries, .list .. => rfl
  | .list items, .list item nullable => by
    rw [serialize, serialize, serializeItems_under guides items item, map_bind, bind_map_left]
    refine congrArg (x.serializeItems item items >>= ·) (funext fun all => ?_)
    rw [map_pure, TypeRef.cut]
    change pure (Const.list (limits'.keepItems _)) = _
    rw [guides.items]
    unfold QueryLimits.keepItems
    split
    · rw [List.map_take]
    · rfl
  | .list _, .named .. => (id_map _).symm
  | .list _, .map .. => rfl
  | .const _, .named .. => (id_map _).symm
  | .const _, .list .. => rfl
  | .const _, .map .. => rfl
  | .host _, .named .. => (id_map _).symm
  | .host _, .list .. => rfl
  | .host _, .map .. => rfl

theorem serializeItems_under (guides : x.limits.Guides w limits') : ∀ (items : List Resolved) (type : TypeRef),
    (x.under limits').serializeItems type items = List.map (type.cut w.kept) <$> x.serializeItems type items
  | [], type => by rw [serializeItems, serializeItems, map_pure, List.map_nil]
  | item :: rest, type => by
    rw [serializeItems, serializeItems, serialize_under guides item type, serializeItems_under guides rest type]
    simp only [map_bind, bind_map_left, map_pure, List.map_cons]

theorem serializeEntries_under (guides : x.limits.Guides w limits') :
    ∀ (entries : List (String × Resolved)) (type : TypeRef),
    (x.under limits').serializeEntries type entries =
        List.map (fun entry => (entry.1, type.cut w.kept entry.2)) <$> x.serializeEntries type entries
  | [], type => by rw [serializeEntries, serializeEntries, map_pure, List.map_nil]
  | (key, value) :: rest, type => by
    rw [serializeEntries, serializeEntries, serialize_under guides value type, serializeEntries_under guides rest type]
    simp only [map_bind, bind_map_left, map_pure, List.map_cons]

end

end Execution

/-! ## Data -/

/-- What a first execution has for a subject, and what a second has that keeps so many items of each list. -/
inductive Shortens (x : Execution) (r : Registry) (n : Nat) : Subject → ResponseValue → ResponseValue → Prop
  | null {subject : Subject} : Shortens x r n subject .null .null
  | leaf {field : FieldPlan} {type : TypeRef} {value : Resolved} {c : Const} (kind : r.IsLeaf type) :
    Shortens x r n (.value field type value) (.const c) (.const (type.cut n c))
  | list {field : FieldPlan} {item : TypeRef} {nullable : Bool} {items : List Resolved}
    {values values' : List ResponseValue} (results : values.length = (x.limits.keepItems items).length)
    (results' : values'.length = (upTo n values).length)
    (each : ∀ (i : Nat) value v v', (x.limits.keepItems items)[i]? = some value → values[i]? = some v →
      values'[i]? = some v' → Shortens x r n (.value field item value) v v') :
    Shortens x r n (.value field (.list item nullable) (.list items)) (.list values) (.list values')
  | member {field : FieldPlan} {type : NamedType} {nullable : Bool} {value : HostValue} {d : TypeDescriptor}
    {name : String} {memberType : TypeRef} {set : Resolved} {v v' : ResponseValue} (known : r.find? type = some d)
    (only : dereference d value = .ok (.member name memberType set))
    (inner : Shortens x r n (.value field memberType set) v v') :
    Shortens x r n (.value field (.named type nullable) (.host value)) v v'
  | object {field : FieldPlan} {type : NamedType} {nullable : Bool} {value : HostValue} {concrete : TypeDescriptor}
    {fields : List FieldPlan} {values values' : List ResponseValue} (is : r.Concrete type value concrete)
    (selected : x.collect field.selection (some concrete.type) = .ok fields) (results : values.length = fields.length)
    (results' : values'.length = fields.length)
    (each : ∀ (i : Nat) f v v', fields[i]? = some f → values[i]? = some v → values'[i]? = some v' →
      Shortens x r n (.field f concrete value) v v') :
    Shortens x r n (.value field (.named type nullable) (.host value)) (.object (keyed fields values))
      (.object (keyed fields values'))
  | typename {field : FieldPlan} {concrete : TypeDescriptor} {value : HostValue} (target : field.target = .typename) :
    Shortens x r n (.field field concrete value) (.const (.string concrete.name)) (.const (.string concrete.name))
  | read {field : FieldPlan} {concrete : TypeDescriptor} {value owner : HostValue} {object : ObjectFields}
    {declared : FieldDescriptor} {resolved : Resolved} {v v' : ResponseValue}
    (reads : field.Reads concrete object declared) (reached : object.navigate declared value = .ok owner)
    (got : declared.read owner = .ok resolved) (inner : Shortens x r n (.value field declared.type resolved) v v') :
    Shortens x r n (.field field concrete value) v v'
  | rootTypename {field : FieldPlan} (target : field.target = .typename) :
    Shortens x r n (.root field) (.const (.string x.plan.kind.rootTypeName)) (.const (.string x.plan.kind.rootTypeName))
  | resolved {field : FieldPlan} {value : Resolved} {v v' : ResponseValue}
    (inner : Shortens x r n (.value field field.type value) v v') : Shortens x r n (.root field) v v'
  | response {fields : List FieldPlan} {values values' : List ResponseValue}
    (selected : x.collect x.plan.selection none = .ok fields) (results : values.length = fields.length)
    (results' : values'.length = fields.length)
    (each : ∀ (i : Nat) f v v', fields[i]? = some f → values[i]? = some v → values'[i]? = some v' →
      Shortens x r n (.root f) v v') :
    Shortens x r n .response (.object (keyed fields values)) (.object (keyed fields values'))

theorem eq_of_each {α β : Type} {keys : List α} {values values' : List β} (count : values.length = keys.length)
    (count' : values'.length = keys.length)
    (each : ∀ (i : Nat) k v v', keys[i]? = some k → values[i]? = some v → values'[i]? = some v' → v = v') :
    values = values' := by
  refine List.ext_getElem (count.trans count'.symm) fun i bound bound' => ?_
  have at' := List.getElem?_eq_getElem (count ▸ bound)
  exact each i _ _ _ at' (List.getElem?_eq_getElem bound) (List.getElem?_eq_getElem bound')

/-- Where all items are kept, the data are the same. -/
theorem Shortens.eq {x : Execution} {r : Registry} {subject : Subject} {v v' : ResponseValue}
    (shortens : Shortens x r 0 subject v v') : v = v' := by
  induction shortens with
  | null => rfl
  | @leaf _ type _ c _ => rw [type.cut_zero]
  | list results results' _ ih =>
    rw [upTo_zero] at results'
    rw [eq_of_each results (results'.trans results) ih]
  | object _ _ results results' _ ih | response _ results results' _ ih => rw [eq_of_each results results' ih]
  | typename _ | rootTypename _ => rfl
  | member _ _ _ ih | read _ _ _ _ ih | resolved _ ih => exact ih

end GraphQL
