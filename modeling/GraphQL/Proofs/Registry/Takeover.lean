import GraphQL.Proofs.Entries
import GraphQL.Proofs.Sequencing

/-!
# Custom scalars that take over their types

Registering a custom scalar either is refused, and the registry stays as it was, or the scalar takes over its
type: the descriptor of the type is evicted, together with the name it took, and the type is described as the
scalar when it is needed next. `Host.registerScalar_cases` says so once; what it asks of a scalar is
`Registry.Accepts`.
-/

namespace GraphQL

namespace Registry

/-- The registry without the descriptor of a type and the names that the type took. -/
def evict (registry : Registry) (type : NamedType) : Registry :=
  { registry with
    descriptors := Entries.erase type registry.descriptors
    names := registry.names.filter fun (_, other) => other ≠ type }

/-- The registry in which a custom scalar has taken over its type. -/
def takeOver (registry : Registry) (scalar : ScalarDescriptor) : Registry :=
  let registry := if (registry.find? scalar.type).isSome then registry.evict scalar.type else registry
  { registry with
    scalars := Entries.insert scalar.type scalar registry.scalars
    scalarNames := Entries.insert scalar.name scalar.type registry.scalarNames }

/-- What a custom scalar has to fulfil in order to be registered. -/
structure Accepts (registry : Registry) (scalar : ScalarDescriptor) : Prop where
  foreign : ∃ id, scalar.type = .host id
  valid : (!isValidName scalar.name || isBuiltinName scalar.name) = false
  unnamed : Entries.find? scalar.name registry.scalarNames = none
  plain : registry.scalar? scalar.type = none
  free : ∀ other, Entries.find? scalar.name registry.names = some other → other = scalar.type

variable {registry : Registry} {scalar : ScalarDescriptor}

/-- Where the type has no descriptor, there is nothing to evict. -/
theorem takeOver_of_fresh (fresh : registry.find? scalar.type = none) :
    registry.takeOver scalar =
      { registry with
        scalars := Entries.insert scalar.type scalar registry.scalars
        scalarNames := Entries.insert scalar.name scalar.type registry.scalarNames } := by
  simp [takeOver, fresh]

theorem takeOver_of_cached {d : TypeDescriptor} (cached : registry.find? scalar.type = some d) :
    registry.takeOver scalar =
      { registry.evict scalar.type with
        scalars := Entries.insert scalar.type scalar registry.scalars
        scalarNames := Entries.insert scalar.name scalar.type registry.scalarNames } := by
  simp [takeOver, cached, evict]

theorem scalars_takeOver : (registry.takeOver scalar).scalars = Entries.insert scalar.type scalar registry.scalars := by
  cases cached : registry.find? scalar.type with
  | none => rw [takeOver_of_fresh cached]
  | some d => rw [takeOver_of_cached cached]

theorem scalar?_takeOver (type : NamedType) :
    (registry.takeOver scalar).scalar? type = if type = scalar.type then some scalar else registry.scalar? type := by
  rw [scalar?, scalars_takeOver]
  split
  · next same =>
    rw [same]
    exact Entries.find?_insert_self _ _ _
  · next ne => exact Entries.find?_insert_of_ne ne _ _

theorem scalarName_takeOver (name : String) :
    Entries.find? name (registry.takeOver scalar).scalarNames =
      if name = scalar.name then some scalar.type else Entries.find? name registry.scalarNames := by
  have names : (registry.takeOver scalar).scalarNames =
      Entries.insert scalar.name scalar.type registry.scalarNames := by
    cases cached : registry.find? scalar.type with
    | none => rw [takeOver_of_fresh cached]
    | some d => rw [takeOver_of_cached cached]
  rw [names]
  split
  · next same =>
    rw [same]
    exact Entries.find?_insert_self _ _ _
  · next ne => exact Entries.find?_insert_of_ne ne _ _

/-- Only the descriptor of the type itself is evicted. -/
theorem find?_takeOver (distinct : (Entries.keys registry.descriptors).Nodup) (type : NamedType) :
    (registry.takeOver scalar).find? type = if type = scalar.type then none else registry.find? type := by
  cases cached : registry.find? scalar.type with
  | none =>
    rw [takeOver_of_fresh cached]
    change registry.find? type = _
    split
    · next same => rw [same, cached]
    · rfl
  | some d =>
    rw [takeOver_of_cached cached]
    change Entries.find? type (Entries.erase scalar.type registry.descriptors) = _
    split
    · next same =>
      rw [same]
      exact Entries.find?_erase_self distinct _
    · next ne => exact Entries.find?_erase_of_ne ne _

theorem mem_of_takeOver {entry : NamedType × TypeDescriptor} (mem : entry ∈ (registry.takeOver scalar).descriptors) :
    entry ∈ registry.descriptors := by
  cases cached : registry.find? scalar.type with
  | none =>
    rw [takeOver_of_fresh cached] at mem
    exact mem
  | some d =>
    rw [takeOver_of_cached cached] at mem
    exact Entries.mem_of_mem_erase mem

end Registry

/-- Registering a custom scalar is refused, with the registry as it was, or the scalar takes over its type. -/
theorem Host.registerScalar_cases (host : Host) (scalar : ScalarDescriptor) (r : Registry) :
    (∃ e, outcome (host.registerScalar scalar) r = (.error e, r)) ∨
      r.Accepts scalar ∧ outcome (host.registerScalar scalar) r = (.ok (), r.takeOver scalar) := by
  unfold registerScalar
  extract_lets hostName register named
  cases type : scalar.type with
  | builtin b => exact Or.inl ⟨.builtinScalarOverride hostName, rfl⟩
  | host id =>
    -- the checks, in the order in which they are made
    show (∃ e, outcome (named ()) r = (.error e, r)) ∨
      r.Accepts scalar ∧ outcome (named ()) r = (.ok (), r.takeOver scalar)
    dsimp -zeta only [named]
    split
    · exact Or.inl ⟨_, rfl⟩
    · next valid =>
      dsimp -zeta only [register]
      rw [outcome_bind, outcome_get]
      dsimp -zeta only
      extract_lets replaced store unrivalled untyped
      split
      · exact Or.inl ⟨_, rfl⟩
      · next unnamed =>
        dsimp -zeta only [untyped]
        split
        · exact Or.inl ⟨_, rfl⟩
        · next plain =>
          have accepts (free : ∀ other, Entries.find? scalar.name r.names = some other → other = scalar.type) :
              r.Accepts scalar :=
            { foreign := ⟨id, type⟩
              valid := by simpa using valid
              unnamed := by simpa [Entries.contains] using unnamed
              plain := by simpa [Entries.contains, Registry.scalar?] using plain
              free }
          dsimp -zeta only [unrivalled]
          split
          · next other taken =>
            split
            · exact Or.inl ⟨_, rfl⟩
            · next same =>
              rw [ne_eq, not_not] at same
              refine Or.inr ⟨accepts fun other' taken' => ?_, rfl⟩
              rw [taken, Option.some.injEq] at taken'
              rw [← taken', same]
          · next untaken => exact Or.inr ⟨accepts fun other taken => absurd taken (untaken other), rfl⟩

/-- Whether a custom scalar is registered, or why it is refused, depends on three lookups. -/
theorem Host.registerScalar_congr (host : Host) {scalar : ScalarDescriptor} {r r' : Registry}
    (named : Entries.contains scalar.name r'.scalarNames = Entries.contains scalar.name r.scalarNames)
    (typed : Entries.contains scalar.type r'.scalars = Entries.contains scalar.type r.scalars)
    (taken : Entries.find? scalar.name r'.names = Entries.find? scalar.name r.names) :
    (outcome (host.registerScalar scalar) r').1 = (outcome (host.registerScalar scalar) r).1 := by
  unfold registerScalar
  extract_lets hostName register checked
  cases type : scalar.type with
  | builtin b => rfl
  | host id =>
    show (outcome (checked ()) r').1 = (outcome (checked ()) r).1
    dsimp -zeta only [checked]
    split
    · rfl
    · dsimp -zeta only [register]
      rw [outcome_bind, outcome_get, outcome_bind, outcome_get]
      simp only
      rw [named, typed, taken]
      split
      · rfl
      · split
        · rfl
        · split
          · split
            · rfl
            · rfl
          · rfl

end GraphQL
