import GraphQL.Proofs.Execution.Likeness
import GraphQL.Proofs.Footing.Values
import GraphQL.Proofs.Registry.Navigation

/-!
# Lists that are cut

A response keeps no more items of a list than the limit allows. A value is recut if other items stand beyond the
limit in some of its lists, at any depth: in lists of the declared type, in the lists of maps, in what the getters
of declared fields return. `Execution.Recut` goes along the type, since only lists at the place of a list are cut.
Completing a list cuts it first. A list inside a map is serialized as a whole and cut afterwards, so there the
items that are cut must be serialized without a failure, and without describing a type: `Execution.Spares`.
Under these conditions completing cannot tell the two values apart: `Execution.recutting`.
-/

namespace GraphQL

/-- The items of a list that a response does not keep. -/
def QueryLimits.cutItems {α : Type} (limits : QueryLimits) (items : List α) : List α :=
  items.drop (limits.keepItems items).length

namespace QueryLimits

variable {α : Type} (limits : QueryLimits)

theorem keepItems_append_cutItems (items : List α) : limits.keepItems items ++ limits.cutItems items = items := by
  unfold cutItems keepItems
  split
  · rw [List.length_take]
    by_cases short : items.length ≤ limits.maxArraySize
    · rw [List.take_of_length_le short, Nat.min_eq_right short, List.drop_length, List.append_nil]
    · rw [Nat.min_eq_left (Nat.le_of_not_le short), List.take_append_drop]
  · rw [List.drop_length, List.append_nil]

/-- What comes of the items is cut at the same place. -/
theorem keepItems_append {β : Type} {items : List α} {kept cut : List β} (count : kept.length = (limits.keepItems items).length)
    (count' : cut.length = (limits.cutItems items).length) : limits.keepItems (kept ++ cut) = kept := by
  unfold cutItems keepItems at *
  split
  · next limited =>
    rw [if_pos limited, List.length_take] at count
    rw [if_pos limited, List.length_drop, List.length_take] at count'
    by_cases short : items.length ≤ limits.maxArraySize
    · have empty : cut = [] := List.eq_nil_of_length_eq_zero (by omega)
      rw [empty, List.append_nil, List.take_of_length_le (by omega)]
    · rw [List.take_append_of_le_length (by omega), List.take_of_length_le (by omega)]
  · next unlimited =>
    rw [if_neg unlimited, List.length_drop, Nat.sub_self] at count'
    rw [List.eq_nil_of_length_eq_zero count', List.append_nil]

theorem isEmpty_of_keepItems {items items' : List α}
    (count : (limits.keepItems items').length = (limits.keepItems items).length) : items'.isEmpty = items.isEmpty := by
  rw [Bool.eq_iff_iff, List.isEmpty_iff, List.isEmpty_iff, ← List.length_eq_zero_iff, ← List.length_eq_zero_iff]
  unfold keepItems at count
  split at count
  · rw [List.length_take, List.length_take] at count
    omega
  · rw [count]

end QueryLimits

namespace Host

/-- Tables of fields are those of types of the application. -/
theorem Reachable.host_of_objectFields {host : Host} {r : Registry} (reachable : host.Reachable r) :
    ∀ entry ∈ r.descriptors, ∀ object, entry.2.objectFields? = some object → ∃ id, entry.1 = .host id := by
  refine reachable.all fun r d _ made object has => ?_
  cases made with
  | scalar => cases has
  | builtin => cases has
  | host _ _ _ of => exact ⟨_, of⟩

/-- A field of an object or union is declared by its owner. -/
theorem Offers.declared {host : Host} {field : FieldDescriptor} (offered : host.Offers field) :
    { field with path := [] } ∈ host.declared field.owner := by
  obtain ⟨type, d, object, ⟨r, reachable, found⟩, table, mem⟩ := offered
  have entry := Entries.mem_of_find? found
  obtain ⟨id, same⟩ := reachable.host_of_objectFields _ entry object table
  obtain ⟨-, flat⟩ := reachable.flattens _ entry id object same table
  obtain ⟨o, seen, locates⟩ := flat.exists_occurrence mem
  obtain ⟨-, own⟩ := leads_of_mem_level (mem_visible.1 seen).1
  have owner : field.owner = o.field.owner := by rw [locates.declared]
  have plain : { field with path := [] } = o.field := by
    rw [locates.declared, ← (owner_path_of_declared own).2]
  rw [plain, owner]
  exact own

end Host

/-- Nothing is described anew: the types that are covered are leaves that the registry knows. -/
def Registry.fixed (r : Registry) : Footing where
  sound := (· = r)
  standsIn before after := after = before
  covers type := ∃ d, r.find? type = some d ∧ d.isLeaf = true
  refuses _ := False

theorem Registry.fixed_firm (r : Registry) (host : Host) : r.fixed.Firm host where
  scalar? same type := by rw [same]
  describes {type} := by
    rintro ⟨d, found, leaf⟩ before rfl
    have cached : outcome (host.describe type) before = (.ok d, before) := Host.describeWithin_cached found
    refine ⟨congrArg Prod.snd cached, fun d' ok => ?_, fun e failed => ?_, fun R same => ?_⟩
    · rw [cached] at ok
      cases ok
      unfold TypeDescriptor.isLeaf at leaf
      refine ⟨fun other mem => ?_, fun _ _ fields kind => ?_⟩
      · unfold TypeDescriptor.references at mem
        cases kind : d.kind with
        | scalar _ | enum _ =>
          rw [kind] at mem
          cases mem
        | _ =>
          rw [kind] at leaf
          cases leaf
      · rw [kind] at leaf
        cases leaf
    · rw [cached] at failed
      cases failed
    · rw [cached] at same ⊢
      cases same
      exact ⟨rfl, cached⟩

/-! ## Values -/

namespace Execution

section

variable (x : Execution) (r : Registry)

/-- Once the items that are kept are serialized, the others are serialized without a failure, and describe no
type any more. -/
def Spares (item : TypeRef) (items : List Resolved) : Prop :=
  ∀ {before after kept}, x.host.Later r before →
    outcome (x.serializeItems item (x.limits.keepItems items)) before = (.ok kept, after) →
      ∃ cut, outcome (x.serializeItems item (x.limits.cutItems items)) after = (.ok cut, after)

/-- The leaf with other items beyond the limit in some of the lists inside its maps, where those that are cut are
spared. The registry is that at the start. -/
inductive RecutLeaf : TypeRef → Resolved → Resolved → Prop
  | same {type : TypeRef} (value : Resolved) : RecutLeaf type value value
  | list {item : TypeRef} {nullable : Bool} {items items' : List Resolved}
    (count : (x.limits.keepItems items').length = (x.limits.keepItems items).length)
    (each : ∀ a a', (a, a') ∈ (x.limits.keepItems items).zip (x.limits.keepItems items') → RecutLeaf item a a')
    (spared : x.Spares r item items) (spared' : x.Spares r item items') :
    RecutLeaf (.list item nullable) (.list items) (.list items')
  | map {item : TypeRef} {nullable : Bool} {entries entries' : List (String × Resolved)}
    (count : entries'.length = entries.length) (keys : ∀ a a', (a, a') ∈ entries.zip entries' → a'.1 = a.1)
    (each : ∀ a a', (a, a') ∈ entries.zip entries' → RecutLeaf item a.2 a'.2) :
    RecutLeaf (.map item nullable) (.map entries) (.map entries')

mutual

/-- The value with other items beyond the limit in some of its lists. -/
inductive Recut : TypeRef → Resolved → Resolved → Prop
  | same {type : TypeRef} (value : Resolved) : Recut type value value
  | list {item : TypeRef} {nullable : Bool} {items items' : List Resolved}
    (count : (x.limits.keepItems items').length = (x.limits.keepItems items).length)
    (each : ∀ a a', (a, a') ∈ (x.limits.keepItems items).zip (x.limits.keepItems items') → Recut item a a') :
    Recut (.list item nullable) (.list items) (.list items')
  | leaf {item : TypeRef} {nullable : Bool} {value value' : Resolved}
    (recut : x.RecutLeaf r (.map item nullable) value value') : Recut (.map item nullable) value value'
  | host {type : TypeRef} {value value' : HostValue} (recut : RecutHost value value') :
    Recut type (.host value) (.host value')

/-- The host value with recut values in place of what some getters of declared fields return. Where its type is a
scalar, the serializer is given the whole value and must not tell. -/
inductive RecutHost : HostValue → HostValue → Prop
  | same (value : HostValue) : RecutHost value value
  | made {value value' : HostValue} (type : value'.type = value.type) (content : value'.content = value.content)
    (reads : ∀ declared ∈ x.host.declared value.type,
      RecutReading declared.type (value.read declared.name) (value'.read declared.name))
    (embedded : List.Forall₂ RecutEmbedded value.embedded value'.embedded)
    (serialized : ∀ later serialize, x.host.Later r later → later.Serializes (.host value.type) serialize →
      serialize value' = serialize value) :
    RecutHost value value'

/-- What host code comes to, with a recut value. -/
inductive RecutReading : TypeRef → Except Failure Resolved → Except Failure Resolved → Prop
  | same {type : TypeRef} (reading : Except Failure Resolved) : RecutReading type reading reading
  | read {type : TypeRef} {value value' : Resolved} (recut : Recut type value value') :
    RecutReading type (.ok value) (.ok value')

/-- The value that is embedded, if there is one, with what its getters return recut. -/
inductive RecutEmbedded : Option HostValue → Option HostValue → Prop
  | missing : RecutEmbedded none none
  | inner {value value' : HostValue} (recut : RecutHost value value') : RecutEmbedded (some value) (some value')

end

end

variable {x : Execution} {r : Registry}

theorem eq_of_mem_zip_self {α : Type} {items : List α} {a a' : α} (mem : (a, a') ∈ items.zip items) : a' = a := by
  have same : List.Forall₂ Eq items items := List.forall₂_refl items
  exact (List.forall₂_zip same mem).symm

section

variable {item : TypeRef} {nullable : Bool} {items items' : List Resolved}
  (same : x.limits.keepItems items' = x.limits.keepItems items)

include same

/-- Lists of which the same items are kept. -/
theorem Recut.of_keepItems : x.Recut r (.list item nullable) (.list items) (.list items') := by
  refine .list (by rw [same]) fun a a' mem => ?_
  rw [same] at mem
  cases eq_of_mem_zip_self mem
  exact .same a

theorem RecutLeaf.of_keepItems (spared : x.Spares r item items) (spared' : x.Spares r item items') :
    x.RecutLeaf r (.list item nullable) (.list items) (.list items') := by
  refine .list (by rw [same]) (fun a a' mem => ?_) spared spared'
  rw [same] at mem
  cases eq_of_mem_zip_self mem
  exact .same a

end

/-! ### Leaves -/

theorem serializeItems_append (item : TypeRef) (items items' : List Resolved) :
    x.serializeItems item (items ++ items') = (do
      let kept ← x.serializeItems item items
      return kept ++ (← x.serializeItems item items')) := by
  induction items with
  | nil => rw [List.nil_append, serializeItems, pure_bind]; simp only [List.nil_append, bind_pure]
  | cons first rest ih =>
    rw [List.cons_append, serializeItems, serializeItems, ih]
    simp only [bind_assoc, pure_bind, List.cons_append]

theorem length_serializeItems {item : TypeRef} {items : List Resolved} {before after : Registry} {all : List Const}
    (ran : outcome (x.serializeItems item items) before = (.ok all, after)) : all.length = items.length := by
  induction items generalizing before all with
  | nil =>
    cases ran
    rfl
  | cons first rest ih =>
    rw [serializeItems] at ran
    obtain ⟨_, _, -, ran⟩ := outcome_bind_eq_ok.1 ran
    obtain ⟨others, _, ran', ended⟩ := outcome_bind_eq_ok.1 ran
    cases ended
    rw [List.length_cons, List.length_cons, ih ran']

/-- Of a list whose cut items are spared, only the items that are kept count. -/
theorem Spares.outcome_serialize {item : TypeRef} {items : List Resolved} (spared : x.Spares r item items)
    {nullable : Bool} {before : Registry} (later : x.host.Later r before) :
    outcome (x.serialize (.list item nullable) (.list items)) before =
      outcome (x.serializeItems item (x.limits.keepItems items) >>= fun kept => pure (.list kept)) before := by
  have whole : x.serialize (.list item nullable) (.list items) = (do
      let kept ← x.serializeItems item (x.limits.keepItems items)
      let cut ← x.serializeItems item (x.limits.cutItems items)
      return .list (x.limits.keepItems (kept ++ cut))) := by
    rw [serialize, ← x.limits.keepItems_append_cutItems items, serializeItems_append]
    simp only [bind_assoc, pure_bind, x.limits.keepItems_append_cutItems items]
  rw [whole, outcome_bind, outcome_bind]
  cases ran : outcome (x.serializeItems item (x.limits.keepItems items)) before with
  | mk result after =>
    cases result with
    | error e => rfl
    | ok kept =>
      obtain ⟨cut, ran'⟩ := spared later ran
      simp only
      rw [outcome_bind_of_ok ran', x.limits.keepItems_append (length_serializeItems ran) (length_serializeItems ran')]

/-- Where the type is described, items that are serialized at all are spared. -/
theorem Spares.of_described {item : TypeRef} {items : List Resolved} {d : TypeDescriptor}
    (found : r.find? item.namedType = some d) (leaf : d.isLeaf = true)
    (each : ∀ a ∈ x.limits.cutItems items, ∀ later, x.host.Later r later →
      ∃ c, (outcome (x.serialize item a) later).1 = .ok c) : x.Spares r item items := by
  intro before after kept later ran
  have grown := (serializeItems_settles (x := x) (x.limits.keepItems items) item before).grows
  rw [ran] at grown
  have reached : x.host.Later r after := later.trans grown
  have described : after.fixed.covers item.namedType := ⟨d, reached.find? found, leaf⟩
  revert each
  generalize x.limits.cutItems items = cut
  intro each
  induction cut with
  | nil => exact ⟨[], rfl⟩
  | cons a rest ih =>
    obtain ⟨c, ok⟩ := each a List.mem_cons_self after reached
    obtain ⟨cs, ran'⟩ := ih fun a mem => each a (List.mem_cons_of_mem _ mem)
    have still : (outcome (x.serialize item a) after).2 = after :=
      (serialize_bears (after.fixed_firm x.host) a item described after rfl).sound
    refine ⟨c :: cs, ?_⟩
    rw [serializeItems, outcome_bind_of_ok (Prod.ext ok still), outcome_bind_of_ok ran']
    rfl

theorem outcome_serializeItems_congr {item : TypeRef} {items items' : List Resolved}
    (each : List.Forall₂ (fun a a' => ∀ before, x.host.Later r before →
      outcome (x.serialize item a') before = outcome (x.serialize item a) before) items items')
    {before : Registry} (later : x.host.Later r before) :
    outcome (x.serializeItems item items') before = outcome (x.serializeItems item items) before := by
  induction each generalizing before with
  | nil => rfl
  | @cons a a' _ _ first _ ih =>
    have grown := (serialize_settles (x := x) a item before).grows
    rw [serializeItems, serializeItems, outcome_bind, outcome_bind, first before later]
    revert grown
    cases outcome (x.serialize item a) before with
    | mk result after =>
      intro grown
      cases result with
      | error e => rfl
      | ok c =>
        simp only
        rw [outcome_bind, outcome_bind, ih (later.trans grown)]

theorem outcome_serializeEntries_congr {item : TypeRef} {entries entries' : List (String × Resolved)}
    (each : List.Forall₂ (fun a a' : String × Resolved => a'.1 = a.1 ∧ ∀ before, x.host.Later r before →
      outcome (x.serialize item a'.2) before = outcome (x.serialize item a.2) before) entries entries')
    {before : Registry} (later : x.host.Later r before) :
    outcome (x.serializeEntries item entries') before = outcome (x.serializeEntries item entries) before := by
  induction each generalizing before with
  | nil => rfl
  | @cons a a' _ _ first _ ih =>
    obtain ⟨key, value⟩ := a
    obtain ⟨key', value'⟩ := a'
    obtain ⟨rfl, first⟩ := first
    have grown := (serialize_settles (x := x) value item before).grows
    rw [serializeEntries, serializeEntries, outcome_bind, outcome_bind, first before later]
    revert grown
    cases outcome (x.serialize item value) before with
    | mk result after =>
      intro grown
      cases result with
      | error e => rfl
      | ok c =>
        simp only
        rw [outcome_bind, outcome_bind, ih (later.trans grown)]

/-- A recut leaf is serialized alike. -/
theorem RecutLeaf.outcome_serialize {type : TypeRef} {value value' : Resolved} (recut : x.RecutLeaf r type value value')
    {before : Registry} (later : x.host.Later r before) :
    outcome (x.serialize type value') before = outcome (x.serialize type value) before := by
  induction recut generalizing before with
  | same => rfl
  | list count _ spared spared' ih =>
    rw [spared.outcome_serialize later, spared'.outcome_serialize later, outcome_bind, outcome_bind]
    rw [outcome_serializeItems_congr (List.forall₂_iff_zip.2 ⟨count.symm, fun {a a'} mem before later => ?_⟩) later]
    exact ih a a' mem later
  | map count keys _ ih =>
    rw [serialize, serialize, outcome_bind, outcome_bind]
    rw [outcome_serializeEntries_congr (List.forall₂_iff_zip.2 ⟨count.symm, fun {a a'} mem => ?_⟩) later]
    exact ⟨keys a a' mem, fun before later => ih a a' mem later⟩

/-! ### Parts -/

namespace Recut

variable {type : TypeRef} {value value' : Resolved}

theorem form (recut : x.Recut r type value value') : value.SameForm value' := by
  cases recut with
  | same => exact .refl value
  | list => exact .list _ _
  | host => exact .host _ _
  | leaf recut =>
    cases recut with
    | same => exact .refl value
    | map => exact .map _ _

theorem isNil (recut : x.Recut r type value value') : value'.isNil = value.isNil := by
  cases recut with
  | same => rfl
  | list count => exact x.limits.isEmpty_of_keepItems count
  | host => rfl
  | leaf recut =>
    cases recut with
    | same => rfl
    | map count =>
      unfold Resolved.isNil
      simp only
      rw [Bool.eq_iff_iff, List.isEmpty_iff, List.isEmpty_iff, ← List.length_eq_zero_iff, ← List.length_eq_zero_iff, count]

theorem held {value value' : HostValue} (recut : x.Recut r type (.host value) (.host value')) :
    x.RecutHost r value value' := by
  cases recut with
  | same => exact .same value
  | host recut => exact recut
  | leaf recut =>
    cases recut
    exact .same value

theorem items {item : TypeRef} {nullable : Bool} {items items' : List Resolved}
    (recut : x.Recut r (.list item nullable) (.list items) (.list items')) :
    List.Forall₂ (x.Recut r item) (x.limits.keepItems items) (x.limits.keepItems items') := by
  cases recut with
  | same => exact List.forall₂_same.2 fun a _ => .same a
  | list count each => exact List.forall₂_iff_zip.2 ⟨count.symm, fun {a a'} mem => each a a' mem⟩

theorem outcome_serialize {item : TypeRef} {nullable : Bool} (recut : x.Recut r (.map item nullable) value value')
    {before : Registry} (later : x.host.Later r before) :
    outcome (x.serialize (.map item nullable) value') before = outcome (x.serialize (.map item nullable) value) before := by
  cases recut with
  | same => rfl
  | host => rfl
  | leaf recut => exact recut.outcome_serialize later

end Recut

namespace RecutHost

variable {value value' : HostValue}

theorem type (recut : x.RecutHost r value value') : value'.type = value.type := by
  cases recut with
  | same => rfl
  | made type => exact type

theorem content (recut : x.RecutHost r value value') : value'.content = value.content := by
  cases recut with
  | same => rfl
  | made _ content => exact content

theorem serialized (recut : x.RecutHost r value value') {later : Registry} {serialize : HostValue → Const}
    (after : x.host.Later r later) (serializes : later.Serializes (.host value.type) serialize) :
    serialize value' = serialize value := by
  cases recut with
  | same => rfl
  | made _ _ _ _ serialized => exact serialized later serialize after serializes

theorem embedded (recut : x.RecutHost r value value') :
    List.Forall₂ (Option.Rel (x.RecutHost r)) value.embedded value'.embedded := by
  cases recut with
  | same =>
    refine List.forall₂_same.2 fun embedded _ => ?_
    cases embedded with
    | none => exact .none
    | some inner => exact .some (.same inner)
  | made _ _ _ embedded =>
    refine embedded.imp fun inner inner' recut => ?_
    cases recut with
    | missing => exact .none
    | inner recut => exact .some recut

theorem reads (recut : x.RecutHost r value value') {declared : FieldDescriptor} (offered : x.host.Offers declared) :
    x.RecutReading r declared.type (declared.read value) (declared.read value') := by
  have own := offered.declared
  unfold FieldDescriptor.read
  rw [recut.type]
  split
  · next owner =>
    cases recut with
    | same => exact .same _
    | made _ _ reads => exact reads { declared with path := [] } (owner ▸ own)
  · exact .same _

end RecutHost

theorem serializeNamed_recut {type : TypeRef} {value value' : Resolved} (recut : x.Recut r type value value')
    {before later : Registry} (after : x.host.Later r before) (after' : x.host.Later r later) {named : NamedType}
    {d : TypeDescriptor} (described : later.find? named = some d) :
    x.serializeNamed before d value' = x.serializeNamed before d value := by
  cases recut with
  | same => rfl
  | list => rfl
  | host recut =>
    refine serializeNamed_of_content described recut.type recut.content fun serialize serializes => ?_
    rcases serializes with registered | described
    · exact recut.serialized after registered
    · exact recut.serialized after' described
  | leaf recut => cases recut <;> rfl

end Execution

/-- Both executions know at least the types of a registry, and have the same errors. -/
def Host.exact (host : Host) {r : Registry} (reachable : host.Reachable r) : Pace host where
  knows := host.Later r
  reachable := reachable.described
  later := .trans
  errors es es' := es' = es
  push e same := congrArg (· ++ [e]) same
  forgives := False
  forgive := False.elim

theorem Execution.RecutReading.reads {x : Execution} {r : Registry} (reachable : x.host.Reachable r) {type : TypeRef}
    {reading reading' : Except Failure Resolved} (recut : x.RecutReading r type reading reading') :
    (x.host.exact reachable).Reads (x.Recut r type) reading reading' := by
  cases recut with
  | same =>
    cases reading with
    | ok value => exact .read (.same value)
    | error failure => exact .failed failure
  | read recut => exact .read recut

/-- The likeness of recut values. -/
def Execution.recutting (x : Execution) {r : Registry} (reachable : x.host.Reachable r) : x.Likeness where
  pace := x.host.exact reachable
  values := x.Recut r
  hosts := x.RecutHost r
  form := Recut.form
  isNil := Recut.isNil
  held := Recut.held
  items := Recut.items
  map recut later := recut.outcome_serialize later
  leaf recut after described := by
    obtain ⟨later, after', found⟩ := described
    exact serializeNamed_recut recut after after' found
  type := RecutHost.type
  embedded := RecutHost.embedded
  reads recut offered := (recut.reads offered).reads reachable

end GraphQL
