import GraphQL.Proofs.Registry.Foretold

/-!
# All that is referred to

Registering an operation describes its types, the types that these refer to, and so on. `Host.describeAllTo` is the
loop that does so, with a stack of types to describe and those seen before, and nothing known of its end: it takes a
given number of steps and what comes after them is left open. It ends, because what is described refers to finitely
many types; afterwards every type that the first ones involve is cached, or one of them could not be described.
-/

namespace GraphQL

/-- A reference names a type, within lists and maps, and nullable or not. -/
inductive TypeRef.Names : TypeRef → NamedType → Prop
  | named (type : NamedType) (nullable : Bool) : Names (.named type nullable) type
  | list {item : TypeRef} {type : NamedType} (names : Names item type) (nullable : Bool) :
    Names (.list item nullable) type
  | map {value : TypeRef} {type : NamedType} (names : Names value type) (nullable : Bool) :
    Names (.map value nullable) type

/-- A descriptor refers to the types of its fields, and that of an interface to its implementors. -/
inductive TypeDescriptor.RefersTo (d : TypeDescriptor) : NamedType → Prop
  | objectField {object : ObjectFields} {field : FieldDescriptor} {type : NamedType} (kind : d.kind = .object object)
    (mem : field ∈ object.fields) (names : field.type.Names type) : RefersTo d type
  | unionField {object : ObjectFields} {field : FieldDescriptor} {type : NamedType} (kind : d.kind = .union object)
    (mem : field ∈ object.fields) (names : field.type.Names type) : RefersTo d type
  | interfaceField {shape : InterfaceShape} {field : TypedItem} {type : NamedType} (kind : d.kind = .interface shape)
    (mem : field ∈ shape.fields) (names : field.type.Names type) : RefersTo d type
  | implementor {shape : InterfaceShape} {id : HostId} (kind : d.kind = .interface shape)
    (mem : id ∈ shape.implementors) : RefersTo d (.host id)
  | inputField {fields : List TypedItem} {field : TypedItem} {type : NamedType} (kind : d.kind = .inputObject fields)
    (mem : field ∈ fields) (names : field.type.Names type) : RefersTo d type

theorem TypeRef.names_iff {ref : TypeRef} {type : NamedType} : ref.Names type ↔ ref.namedType = type := by
  constructor
  · intro names
    induction names with
    | named => rfl
    | list _ _ ih => exact ih
    | map _ _ ih => exact ih
  · rintro rfl
    induction ref with
    | named type nullable => exact .named type nullable
    | list item nullable ih => exact .list ih nullable
    | map value nullable ih => exact .map ih nullable

/-- The references of a descriptor are the types to which it refers. -/
theorem TypeDescriptor.refersTo_iff {d : TypeDescriptor} {type : NamedType} :
    d.RefersTo type ↔ type ∈ d.references := by
  unfold TypeDescriptor.references
  constructor
  · intro refers
    cases refers with
    | objectField kind mem names | unionField kind mem names | inputField kind mem names =>
      rw [kind]
      exact List.mem_map.2 ⟨_, mem, TypeRef.names_iff.1 names⟩
    | interfaceField kind mem names =>
      rw [kind]
      exact List.mem_append_left _ (List.mem_map.2 ⟨_, mem, TypeRef.names_iff.1 names⟩)
    | implementor kind mem =>
      rw [kind]
      exact List.mem_append_right _ (List.mem_map_of_mem mem)
  · intro listed
    split at listed
    · next object kind =>
      obtain ⟨field, mem, named⟩ := List.mem_map.1 listed
      exact .objectField kind mem (TypeRef.names_iff.2 named)
    · next object kind =>
      obtain ⟨field, mem, named⟩ := List.mem_map.1 listed
      exact .unionField kind mem (TypeRef.names_iff.2 named)
    · next shape kind =>
      rcases List.mem_append.1 listed with listed | listed
      · obtain ⟨field, mem, named⟩ := List.mem_map.1 listed
        exact .interfaceField kind mem (TypeRef.names_iff.2 named)
      · obtain ⟨id, mem, rfl⟩ := List.mem_map.1 listed
        exact .implementor kind mem
    · next fields kind =>
      obtain ⟨field, mem, named⟩ := List.mem_map.1 listed
      exact .inputField kind mem (TypeRef.names_iff.2 named)
    · exact absurd listed List.not_mem_nil
    · exact absurd listed List.not_mem_nil

namespace Registry

/-- A type is described and refers to another. -/
def Refers (r : Registry) (type other : NamedType) : Prop := ∃ d, r.find? type = some d ∧ d.RefersTo other

/-- The types that some references name, those to which these refer, and so on. -/
def Involves (r : Registry) (roots : List TypeRef) (type : NamedType) : Prop :=
  ∃ root ∈ roots, ∃ first, root.Names first ∧ Relation.ReflTransGen r.Refers first type

end Registry

namespace Host

variable {host : Host} {r r' : Registry} {roots : List TypeRef} {type : NamedType} {d : TypeDescriptor}

theorem Later.involves (later : host.Later r r') (involves : r.Involves roots type) : r'.Involves roots type := by
  obtain ⟨root, mem, first, names, path⟩ := involves
  have wider : r.Refers ≤ r'.Refers := by
    rintro _ _ ⟨d, cached, refers⟩
    exact ⟨d, later.find? cached, refers⟩
  exact ⟨root, mem, first, names, Relation.ReflTransGen.mono wider _ _ path⟩

/-! ## The loop ends -/

/-- Describes the types of a stack and all they refer to, as long as steps last; what comes after is left open. -/
def describeAllTo (host : Host) (beyond : List NamedType → List NamedType → RegistryM Unit) :
    Nat → List NamedType → List NamedType → RegistryM Unit
  | 0, seen, stack => beyond seen stack
  | _ + 1, _, [] => return ()
  | steps + 1, seen, type :: rest =>
    if type ∈ seen then host.describeAllTo beyond steps seen rest
    else do
      let descriptor ← host.describe type
      host.describeAllTo beyond steps (type :: seen) (descriptor.references.reverse ++ rest)

/-- More types were seen, of which the application has none and which are described. -/
structure SeesMore (host : Host) (r : Registry) (seen more : List NamedType) : Prop where
  all : ∀ type ∈ seen, type ∈ more
  others : ∀ type ∈ more, type ∈ seen ∨ type ∉ host.allTypes ∧ ∃ d, r.find? type = some d

namespace SeesMore

variable {seen more : List NamedType}

theorem later (sees : host.SeesMore r seen more) (later : host.Later r r') : host.SeesMore r' seen more where
  all := sees.all
  others type mem := (sees.others type mem).imp_right (And.imp_right fun h => h.imp fun _ => later.find?)

/-- A type of the application is seen by both. -/
theorem cons (sees : host.SeesMore r seen more) (type : NamedType) : host.SeesMore r (type :: seen) (type :: more) where
  all := List.forall_mem_cons.2 ⟨List.mem_cons_self, fun other mem => List.mem_cons_of_mem _ (sees.all other mem)⟩
  others := List.forall_mem_cons.2
    ⟨Or.inl List.mem_cons_self, fun other mem => (sees.others other mem).imp_left (List.mem_cons_of_mem _)⟩

/-- Another type need not be. -/
theorem extra (sees : host.SeesMore r seen more) (cached : r.find? type = some d) (unknown : type ∉ host.allTypes) :
    host.SeesMore r seen (type :: more) where
  all other mem := List.mem_cons_of_mem _ (sees.all other mem)
  others := List.forall_mem_cons.2 ⟨Or.inr ⟨unknown, d, cached⟩, sees.others⟩

end SeesMore

/-- If something holds after enough steps, then what it implies one step later does too. -/
theorem enough_succ {Rest : Type} {P Q : Rest → Nat → Prop}
    (ends : ∃ steps, ∀ beyond enough, steps ≤ enough → P beyond enough)
    (step : ∀ beyond fewer, P beyond fewer → Q beyond (fewer + 1)) :
    ∃ steps, ∀ beyond enough, steps ≤ enough → Q beyond enough := by
  obtain ⟨steps, ends⟩ := ends
  refine ⟨steps + 1, fun beyond enough le => ?_⟩
  obtain ⟨fewer, rfl⟩ : ∃ fewer, enough = fewer + 1 := ⟨enough - 1, by omega⟩
  exact step beyond fewer (ends beyond fewer (by omega))

/-- After finitely many steps nothing is left to do, and what was done is what `describeAll` does. -/
theorem describeAllTo_ends (seen stack more : List NamedType) {r : Registry} (reachable : host.Reachable r)
    (sees : host.SeesMore r seen more) :
    ∃ steps, ∀ beyond enough, steps ≤ enough →
      outcome (host.describeAllTo beyond enough more stack) r = outcome (host.describeAll seen stack) r := by
  have atOnce : ∃ steps, ∀ (beyond : List NamedType → List NamedType → RegistryM Unit) (enough : Nat),
      steps ≤ enough → True := ⟨0, fun _ _ _ => trivial⟩
  fun_induction Host.describeAll host seen stack generalizing more r with
  | case1 seen => exact enough_succ atOnce fun beyond fewer _ => rfl
  | case2 seen type rest known ih =>
    refine enough_succ (ih more reachable sees) fun beyond fewer ends => ?_
    rw [describeAllTo, if_pos (sees.all type known)]
    exact ends
  | case3 seen type rest fresh below ih =>
    by_cases twice : type ∈ more
    · -- a type that the application does not have, which is found described
      obtain ⟨unknown, d, cached⟩ := (sees.others type twice).resolve_left fresh
      have found : outcome (host.describe type) r = (.ok d, r) := describeWithin_cached cached
      refine enough_succ (ih more reachable sees) fun beyond fewer ends => ?_
      rw [describeAllTo, if_pos twice, outcome_bind_of_ok found, dif_neg unknown]
      exact ends
    · cases ran : outcome (host.describe type) r with
      | mk result r₁ =>
        have later : host.Later r r₁ := (describe_settles type).later ran
        cases result with
        | error e =>
          refine enough_succ atOnce fun beyond fewer _ => ?_
          rw [describeAllTo, if_neg twice, outcome_bind_of_error ran, outcome_bind_of_error ran]
        | ok d =>
          have reachable₁ : host.Reachable r₁ := .described reachable later
          have cached : r₁.find? type = some d := describe_caches ran
          by_cases known : type ∈ host.allTypes
          · refine enough_succ (below d known (type :: more) reachable₁ ((sees.later later).cons type))
              fun beyond fewer ends => ?_
            rw [describeAllTo, if_neg twice, outcome_bind_of_ok ran, outcome_bind_of_ok ran, dif_pos known]
            exact ends
          · refine enough_succ (ih (type :: more) reachable₁ ((sees.later later).extra cached known))
              fun beyond fewer ends => ?_
            rw [describeAllTo, if_neg twice, outcome_bind_of_ok ran, outcome_bind_of_ok ran, dif_neg known]
            rw [reachable₁.references_unknown cached known]
            exact ends

/-! ## What it comes to -/

/-- What halfway is described and refers to what was seen is in the end all that is involved. -/
theorem Halfway.caches {seen : List NamedType} (halfway : Halfway r seen [])
    (covered : ∀ root ∈ roots, root.namedType ∈ seen ∨ r.Bare root.namedType) (involves : r.Involves roots type) :
    type ∈ seen ∨ r.Bare type := by
  obtain ⟨root, mem, first, names, path⟩ := involves
  induction path with
  | refl => exact TypeRef.names_iff.1 names ▸ covered root mem
  | tail _ refers ih =>
    obtain ⟨d, cached, refers⟩ := refers
    have listed := TypeDescriptor.refersTo_iff.1 refers
    rcases ih with here | ⟨d', cached', none⟩
    · obtain ⟨d', cached', references⟩ := halfway _ here
      cases cached.symm.trans cached'
      exact (references _ listed).imp_right fun waiting => waiting.resolve_left List.not_mem_nil
    · cases cached.symm.trans cached'
      rw [none] at listed
      exact absurd listed List.not_mem_nil

/-- A failure is that of describing one of the types that are involved. -/
theorem describeAll_blames (seen stack : List NamedType) {r r' : Registry} {e : RegistrationError}
    (involved : ∀ type ∈ stack, r.Involves roots type)
    (failed : outcome (host.describeAll seen stack) r = (.error e, r')) :
    ∃ type, r'.Involves roots type ∧ outcome (host.describe type) r' = (.error e, r') := by
  fun_induction Host.describeAll host seen stack generalizing r with
  | case1 seen => cases failed
  | case2 seen type rest known ih => exact ih (List.forall_mem_cons.1 involved).2 failed
  | case3 seen type rest fresh below ih =>
    obtain ⟨here, others⟩ := List.forall_mem_cons.1 involved
    cases ran : outcome (host.describe type) r with
    | mk result r₁ =>
      have later : host.Later r r₁ := (describe_settles type).later ran
      cases result with
      | error e' =>
        rw [outcome_bind_of_error ran] at failed
        cases failed
        have settles : host.Settles (host.describe type) := describe_settles type
        have again := (settles r).again r'
        rw [ran] at again
        exact ⟨type, later.involves here, again (.refl host r') (Or.inr ⟨trivial, List.forall_mem_nil _⟩)⟩
      | ok d =>
        rw [outcome_bind_of_ok ran] at failed
        have others' : ∀ other ∈ rest, r₁.Involves roots other := fun other mem => later.involves (others other mem)
        split at failed
        · next known =>
          refine below d known (List.forall_mem_append.2 ⟨fun other mem => ?_, others'⟩) failed
          obtain ⟨root, mem', first, names, path⟩ := later.involves here
          have refers := TypeDescriptor.refersTo_iff.2 (List.mem_reverse.1 mem)
          exact ⟨root, mem', first, names, path.tail ⟨d, describe_caches ran, refers⟩⟩
        · exact ih others' failed

/-- Describing all types that some references involve ends. If it succeeds then each of these types is cached, and if
it fails then with the error with which one of them is described. -/
theorem ensureReachable_involves (reachable : host.Reachable r) (roots : List TypeRef) :
    (∃ steps, ∀ beyond enough, steps ≤ enough →
      outcome (host.describeAllTo beyond enough [] (roots.map (·.namedType)).reverse) r =
        outcome (host.ensureReachable roots) r) ∧
    (∀ r', outcome (host.ensureReachable roots) r = (.ok (), r') →
      ∀ type, r'.Involves roots type → ∃ d, r'.find? type = some d) ∧
    ∀ e r', outcome (host.ensureReachable roots) r = (.error e, r') →
      ∃ type, r'.Involves roots type ∧ outcome (host.describe type) r' = (.error e, r') := by
  refine ⟨?_, ?_, ?_⟩
  · exact describeAllTo_ends [] _ [] reachable ⟨fun _ => id, fun _ mem => absurd mem List.not_mem_nil⟩
  · intro r' ran type involves
    obtain ⟨-, seen, halfway, -, all⟩ := describeAll_halfway [] _ reachable (List.forall_mem_nil _) ran
    have covered : ∀ root ∈ roots, root.namedType ∈ seen ∨ r'.Bare root.namedType :=
      fun root mem => all _ (List.mem_reverse.2 (List.mem_map_of_mem mem))
    rcases halfway.caches covered involves with here | ⟨d, cached, -⟩
    · obtain ⟨d, cached, -⟩ := halfway type here
      exact ⟨d, cached⟩
    · exact ⟨d, cached⟩
  · intro e r' failed
    refine describeAll_blames [] _ (fun type mem => ?_) failed
    obtain ⟨root, listed, rfl⟩ := List.mem_map.1 (List.mem_reverse.1 mem)
    exact ⟨root, listed, _, TypeRef.names_iff.2 rfl, .refl⟩

end Host

/-! ## Types that refer to each other -/

namespace PetOwner

def pet : HostType :=
  { hostName := "Pet", description := { fields := [⟨"owner", .field, .named (.host 1) true, .pointer, {}⟩] } }

def owner : HostType :=
  { hostName := "Owner"
    description := { fields := [⟨"pets", .field, .list (.map (.named (.host 0) false) true) false, .slice, {}⟩] } }

def host : Host := { builtinName := fun b => b.scalarName, types := [pet, owner] }

def petDescriptor : TypeDescriptor :=
  ⟨.host 0, "Pet", none, .object ⟨[], [⟨"owner", .field, .named (.host 1) true, .pointer, {}, 0, "Pet", []⟩]⟩⟩

def petDescribed : Registry :=
  { descriptors := [(.host 0, petDescriptor)], names := [("Pet", .host 0)] }

def registry : Registry := (outcome (host.describe (.host 1)) petDescribed).2

/-- From pets the description goes on to their owners, and from these back to pets. -/
theorem pets_described :
    outcome (host.ensureReachable [.list (.named (.host 0) true) true]) {} = (.ok (), registry) := by
  have first : outcome (host.describe (.host 0)) {} = (.ok petDescriptor, petDescribed) := by with_unfolding_all rfl
  have second : outcome (host.describe (.host 1)) petDescribed =
      (.ok ⟨.host 1, "Owner", none, .object ⟨[],
        [⟨"pets", .field, .list (.map (.named (.host 0) false) true) false, .slice, {}, 1, "Owner", []⟩]⟩⟩, registry) := by
    with_unfolding_all rfl
  calc outcome (host.describeAll [] [.host 0]) {}
    _ = outcome (host.describeAll [.host 0] [.host 1]) petDescribed :=
      Host.outcome_describeAll_fresh List.not_mem_nil (by decide) first _
    _ = outcome (host.describeAll [.host 1, .host 0] [.host 0]) registry :=
      Host.outcome_describeAll_fresh (by decide) (by decide) second _
    _ = outcome (host.describeAll [.host 1, .host 0] []) registry := Host.outcome_describeAll_seen (by decide) _
    _ = (.ok (), registry) := by rw [Host.describeAll, outcome_pure]

theorem owner_cached : ∃ d, registry.find? (.host 1) = some d := by
  have cached : registry.find? (.host 0) = some petDescriptor := by with_unfolding_all rfl
  have refers : registry.Refers (.host 0) (.host 1) :=
    ⟨petDescriptor, cached, .objectField rfl List.mem_cons_self (.named _ _)⟩
  have involved : registry.Involves [.list (.named (.host 0) true) true] (.host 1) :=
    ⟨_, List.mem_cons_self, .host 0, .list (.named _ _) _, .single refers⟩
  exact (Host.ensureReachable_involves .empty _).2.1 registry pets_described _ involved

end PetOwner

end GraphQL
