import GraphQL.Proofs.Footing.Rules
import GraphQL.Proofs.Registry.Tables

/-!
# Descriptors that can be foretold

A type that is described already, or has a custom scalar, or is builtin, need not be built from its declaration: its
descriptor is foretold. Registering an operation describes all types that it leads to, so these are closed under what
their foretold descriptors refer to, and stay so, whatever is described or taken over later. What may still fail is
that another type has the name of a custom scalar.
-/

namespace GraphQL

/-- The descriptor of a builtin type. -/
def BuiltinType.descriptor (b : BuiltinType) : TypeDescriptor := ⟨.builtin b, b.scalarName, none, .scalar (.builtin b)⟩

namespace Registry

/-- The descriptor of a type that has no custom scalar and is not described, if it needs no declaration. -/
def builtin? : NamedType → Option TypeDescriptor
  | .builtin b => some b.descriptor
  | .host _ => none

/-- The descriptor that a type has, or gets without its declaration. -/
def foretold? (r : Registry) (type : NamedType) : Option TypeDescriptor :=
  (r.find? type).or (((r.scalar? type).map (·.descriptor type)).or (builtin? type))

/-- No type has the name of a custom scalar that is registered for another. -/
def Unclaimed (r : Registry) : Prop :=
  ∀ type scalar other, r.scalar? type = some scalar → Entries.find? scalar.name r.names = some other → other = type

/-- The descriptors of some types are foretold, and refer only to such types. -/
def Closed (r : Registry) (types : NamedType → Prop) : Prop :=
  ∀ type, types type → ∃ d, r.foretold? type = some d ∧ ∀ other ∈ d.references, types other

/-- A type that is described and refers to nothing. -/
def Bare (r : Registry) (type : NamedType) : Prop := ∃ d, r.find? type = some d ∧ d.references = []

variable {r r' : Registry} {type : NamedType} {d : TypeDescriptor}

theorem foretold?_of_cached (cached : r.find? type = some d) : r.foretold? type = some d := by
  rw [foretold?, cached, Option.some_or]

theorem foretold?_builtin (r : Registry) (b : BuiltinType) : ∃ d, r.foretold? (.builtin b) = some d := by
  unfold foretold?
  cases r.find? (.builtin b) with
  | some d => exact ⟨d, rfl⟩
  | none =>
    cases r.scalar? (.builtin b) with
    | some scalar => exact ⟨scalar.descriptor _, rfl⟩
    | none => exact ⟨b.descriptor, rfl⟩

/-- A foretold descriptor is cached, or is that of a custom scalar or a builtin type. -/
theorem foretold?_cases (foretold : r.foretold? type = some d) :
    r.find? type = some d ∨ r.find? type = none ∧
      ((∃ scalar, r.scalar? type = some scalar ∧ d = scalar.descriptor type) ∨
        r.scalar? type = none ∧ ∃ b, type = .builtin b ∧ d = b.descriptor) := by
  unfold foretold? at foretold
  cases cached : r.find? type with
  | some e =>
    rw [cached, Option.some_or] at foretold
    exact Or.inl foretold
  | none =>
    rw [cached, Option.none_or] at foretold
    refine Or.inr ⟨rfl, ?_⟩
    cases registered : r.scalar? type with
    | some scalar =>
      rw [registered] at foretold
      cases foretold
      exact Or.inl ⟨scalar, rfl, rfl⟩
    | none =>
      rw [registered] at foretold
      cases type with
      | builtin b =>
        cases foretold
        exact Or.inr ⟨rfl, b, rfl, rfl⟩
      | host id => cases foretold

/-- What a type that is not described is foretold is what is made for it. -/
theorem makes_of_foretold {host : Host} (fresh : r.find? type = none) (foretold : r.foretold? type = some d) :
    host.Makes r d ∧ d.type = type := by
  rcases foretold?_cases foretold with cached | ⟨-, ⟨scalar, registered, rfl⟩ | ⟨plain, b, rfl, rfl⟩⟩
  · rw [fresh] at cached
    cases cached
  · exact ⟨.scalar registered, rfl⟩
  · exact ⟨.builtin plain, rfl⟩

theorem foretold?_takeOver {scalar : ScalarDescriptor} (distinct : r.Distinct) (type : NamedType) :
    (r.takeOver scalar).foretold? type =
      if type = scalar.type then some (scalar.descriptor type) else r.foretold? type := by
  unfold foretold?
  rw [find?_takeOver distinct.descriptors, scalar?_takeOver]
  split
  · rfl
  · rfl

/-- A custom scalar that takes over its type refers to nothing. -/
theorem Closed.takeOver {types : NamedType → Prop} (closed : r.Closed types) (distinct : r.Distinct)
    (scalar : ScalarDescriptor) : (r.takeOver scalar).Closed types := by
  intro type here
  rw [foretold?_takeOver distinct]
  split
  · exact ⟨_, rfl, List.forall_mem_nil _⟩
  · exact closed type here

theorem Closed.or {types types' : NamedType → Prop} (closed : r.Closed types) (closed' : r.Closed types') :
    r.Closed fun type => types type ∨ types' type := by
  rintro type (here | here)
  · obtain ⟨d, foretold, references⟩ := closed type here
    exact ⟨d, foretold, fun other mem => Or.inl (references other mem)⟩
  · obtain ⟨d, foretold, references⟩ := closed' type here
    exact ⟨d, foretold, fun other mem => Or.inr (references other mem)⟩

/-- Where no custom scalar has a rival, a descriptor that is foretold finds its name free. -/
theorem Unclaimed.free (unclaimed : r.Unclaimed) (fresh : r.find? type = none) (foretold : r.foretold? type = some d) :
    r.rival? d = none := by
  refine rival?_eq_none.2 fun name takes other taken => ?_
  rcases foretold?_cases foretold with cached | ⟨-, ⟨scalar, registered, rfl⟩ | ⟨-, b, rfl, rfl⟩⟩
  · rw [fresh] at cached
    cases cached
  · obtain ⟨id, of, named⟩ := TypeDescriptor.takes?_eq_some.1 takes
    subst named
    exact unclaimed type scalar other registered taken
  · cases takes

theorem Unclaimed.put (unclaimed : r.Unclaimed) (coherent : r.Coherent) (fresh : r.find? type = none)
    (foretold : r.foretold? type = some d) : (r.put d).Unclaimed := by
  intro type' scalar' other registered' taken
  rw [scalar?_put] at registered'
  rw [names_put] at taken
  split at taken
  · next takes =>
    cases taken
    rcases foretold?_cases foretold with cached | ⟨-, ⟨scalar, registered, rfl⟩ | ⟨-, b, rfl, rfl⟩⟩
    · rw [fresh] at cached
      cases cached
    · obtain ⟨id, of, named⟩ := TypeDescriptor.takes?_eq_some.1 takes
      exact coherent.scalar_unique registered registered' named
    · cases takes
  · exact unclaimed type' scalar' other registered' taken

end Registry

namespace Host

open Registry

variable {host : Host} {r r' : Registry} {type : NamedType} {d : TypeDescriptor}

/-- What is foretold of a type stays so when types are described, that type among them. -/
theorem Extends.foretold? {e : TypeDescriptor} (step : host.Extends r r' e) (foretold : r.foretold? type = some d) :
    r'.foretold? type = some d := by
  by_cases here : type = e.type
  · subst here
    obtain ⟨made, of⟩ : host.Makes r d ∧ d.type = e.type := makes_of_foretold step.fresh foretold
    rw [step.made.unique made of, step.put]
    exact foretold?_of_cached (find?_put_self r e)
  · rw [step.put, Registry.foretold?, find?_put_of_ne r here, scalar?_put]
    exact foretold

theorem Later.foretold? (later : host.Later r r') (foretold : r.foretold? type = some d) : r'.foretold? type = some d := by
  induction later with
  | refl => exact foretold
  | tail _ step ih =>
    obtain ⟨e, step⟩ := step
    exact step.foretold? ih

theorem Later.closed (later : host.Later r r') {types : NamedType → Prop} (closed : r.Closed types) :
    r'.Closed types := by
  intro type here
  obtain ⟨d, foretold, references⟩ := closed type here
  exact ⟨d, later.foretold? foretold, references⟩

/-- Names that are taken stay taken, so that a rival of a custom scalar stays one. -/
theorem Later.unclaimed (later : host.Later r r') (unclaimed : r'.Unclaimed) : r.Unclaimed := by
  intro type scalar other registered taken
  exact unclaimed type scalar other (later.scalar? type ▸ registered) (later.findName taken)

/-- A type whose descriptor is foretold is described as that, unless a custom scalar has a rival. -/
theorem describe_foretold (foretold : r.foretold? type = some d) :
    outcome (host.describe type) r = (.ok d, r) ∨
      r.find? type = none ∧ (outcome (host.describe type) r = (.ok d, r.put d) ∨
        ¬r.Unclaimed ∧ ∃ e, outcome (host.describe type) r = (.error e, r)) := by
  cases fresh : r.find? type with
  | some e =>
    rw [foretold?_of_cached fresh] at foretold
    cases foretold
    exact Or.inl (describeWithin_cached fresh)
  | none =>
    refine Or.inr ⟨rfl, ?_⟩
    have inserts : outcome (host.describe type) r = outcome (host.insert d) r := by
      unfold describe
      rw [outcome_describeWithin, fresh]
      rcases foretold?_cases foretold with cached | ⟨-, ⟨scalar, registered, rfl⟩ | ⟨plain, b, rfl, rfl⟩⟩
      · rw [fresh] at cached
        cases cached
      · rw [registered]
        rfl
      · rw [plain]
        rfl
    obtain ⟨-, of⟩ : host.Makes r d ∧ d.type = type := makes_of_foretold fresh foretold
    rw [inserts, outcome_insert, of, fresh]
    cases rival : r.rival? d with
    | none => exact Or.inl rfl
    | some other =>
      refine Or.inr ⟨fun unclaimed => ?_, _, rfl⟩
      rw [unclaimed.free fresh foretold] at rival
      cases rival

/-- Where no custom scalar has a rival, all types whose descriptors are foretold can be described, one after the other. -/
theorem Reachable.foretold (reachable : host.Reachable r) (unclaimed : r.Unclaimed) :
    ∃ R, host.Later r R ∧ ∀ type d, r.foretold? type = some d → R.find? type = some d := by
  suffices all : ∀ candidates : List NamedType, ∃ R, host.Later r R ∧ R.Unclaimed ∧
      ∀ type ∈ candidates, ∀ d, r.foretold? type = some d → R.find? type = some d by
    obtain ⟨R, later, -, cached⟩ :=
      all (Entries.keys r.descriptors ++ (Entries.keys r.scalars ++ BuiltinType.all.map .builtin))
    refine ⟨R, later, fun type d foretold => cached type ?_ d foretold⟩
    rcases foretold?_cases foretold with described | ⟨-, ⟨scalar, registered, -⟩ | ⟨-, b, rfl, -⟩⟩
    · exact List.mem_append_left _ (Entries.mem_keys_of_find? described)
    · exact List.mem_append_right _ (List.mem_append_left _ (Entries.mem_keys_of_find? registered))
    · have known : b ∈ BuiltinType.all := by cases b <;> decide
      exact List.mem_append_right _ (List.mem_append_right _ (List.mem_map_of_mem known))
  intro candidates
  induction candidates with
  | nil => exact ⟨r, .refl host r, unclaimed, List.forall_mem_nil _⟩
  | cons type rest ih =>
    obtain ⟨R, later, unclaimed, cached⟩ := ih
    cases foretold : r.foretold? type with
    | none =>
      refine ⟨R, later, unclaimed, List.forall_mem_cons.2 ⟨fun d same => ?_, cached⟩⟩
      rw [foretold] at same
      cases same
    | some d =>
      have foretold' : R.foretold? type = some d := later.foretold? foretold
      have succeeds {R' : Registry} (ran : outcome (host.describe type) R = (.ok d, R')) (unclaimed' : R'.Unclaimed) :
          ∃ R, host.Later r R ∧ R.Unclaimed ∧
            ∀ other ∈ type :: rest, ∀ d, r.foretold? other = some d → R.find? other = some d := by
        have later' : host.Later R R' := (describe_settles type).later ran
        refine ⟨R', later.trans later', unclaimed', List.forall_mem_cons.2 ⟨fun e same => ?_, ?_⟩⟩
        · cases foretold.symm.trans same
          exact describe_caches ran
        · exact fun other mem e same => later'.find? (cached other mem e same)
      rcases describe_foretold foretold' with ran | ⟨fresh, ran | ⟨claimed, -⟩⟩
      · exact succeeds ran unclaimed
      · exact succeeds ran (unclaimed.put (later.coherent reachable.coherent) fresh foretold')
      · exact absurd unclaimed claimed

/-! ## Describing all that is referred to -/

/-- A type that was seen is not described again. -/
theorem outcome_describeAll_seen {seen : List NamedType} (known : type ∈ seen) (rest : List NamedType) :
    outcome (host.describeAll seen (type :: rest)) r = outcome (host.describeAll seen rest) r := by
  rw [Host.describeAll, dif_pos known]

/-- Another type is described, and then all that it refers to. -/
theorem outcome_describeAll_fresh {seen : List NamedType} (fresh : type ∉ seen) (known : type ∈ host.allTypes)
    (described : outcome (host.describe type) r = (.ok d, r')) (rest : List NamedType) :
    outcome (host.describeAll seen (type :: rest)) r =
      outcome (host.describeAll (type :: seen) (d.references.reverse ++ rest)) r' := by
  rw [Host.describeAll, dif_neg fresh, outcome_bind, described]
  simp only [dif_pos known]

/-- Only types of the application refer to others. -/
theorem Reachable.references (reachable : host.Reachable r) :
    ∀ entry ∈ r.descriptors, (∃ id, entry.1 = .host id ∧ id < host.types.length) ∨ entry.2.references = [] := by
  refine reachable.all fun r d _ made => ?_
  cases made with
  | scalar _ => exact Or.inr rfl
  | builtin _ => exact Or.inr rfl
  | @host id _ _ known _ of => exact Or.inl ⟨id, of, known⟩

/-- A type that the application does not have refers to none, though a custom scalar may be registered for it. -/
theorem Reachable.references_unknown (reachable : host.Reachable r) (cached : r.find? type = some d)
    (unknown : type ∉ host.allTypes) : d.references = [] := by
  refine (reachable.references (type, d) (Entries.mem_of_find? cached)).resolve_left ?_
  rintro ⟨id, rfl, known⟩
  exact unknown (List.mem_append_right _ (List.mem_map_of_mem (List.mem_range.2 known)))

/-- Builtin types are foretold and refer to nothing. -/
theorem Reachable.closed_builtin (reachable : host.Reachable r) : r.Closed fun type => ∃ b, type = .builtin b := by
  rintro type ⟨b, rfl⟩
  obtain ⟨d, foretold⟩ := foretold?_builtin r b
  refine ⟨d, foretold, ?_⟩
  have none : d.references = [] := by
    rcases foretold?_cases foretold with cached | ⟨-, ⟨scalar, -, rfl⟩ | ⟨-, b, -, rfl⟩⟩
    · refine (reachable.references (.builtin b, d) (Entries.mem_of_find? cached)).resolve_left ?_
      rintro ⟨id, of, -⟩
      cases of
    · rfl
    · rfl
  rw [none]
  exact List.forall_mem_nil _

/-- The types that were seen are described, and what they refer to was seen, is about to be, or refers to nothing. -/
def Halfway (r : Registry) (seen stack : List NamedType) : Prop :=
  ∀ type ∈ seen, ∃ d, r.find? type = some d ∧ ∀ other ∈ d.references, other ∈ seen ∨ other ∈ stack ∨ r.Bare other

theorem Later.bare (later : host.Later r r') (bare : r.Bare type) : r'.Bare type := by
  obtain ⟨d, cached, none⟩ := bare
  exact ⟨d, later.find? cached, none⟩

theorem Halfway.later {seen stack : List NamedType} (halfway : Halfway r seen stack) (later : host.Later r r') :
    Halfway r' seen stack := by
  intro type here
  obtain ⟨d, cached, references⟩ := halfway type here
  exact ⟨d, later.find? cached, fun other mem => (references other mem).imp_right (Or.imp_right later.bare)⟩

/-- A type that was seen already, or refers to nothing, is done with. -/
theorem Halfway.pop {seen rest : List NamedType} (halfway : Halfway r seen (type :: rest))
    (done : type ∈ seen ∨ r.Bare type) : Halfway r seen rest := by
  intro type' here
  obtain ⟨d, cached, references⟩ := halfway type' here
  refine ⟨d, cached, fun other mem => ?_⟩
  rcases references other mem with known | waiting | bare
  · exact Or.inl known
  · rcases List.mem_cons.1 waiting with rfl | waiting
    · exact done.imp_right Or.inr
    · exact Or.inr (Or.inl waiting)
  · exact Or.inr (Or.inr bare)

/-- A type that is described now was seen, and all that it refers to is about to be. -/
theorem Halfway.push {seen rest : List NamedType} (halfway : Halfway r seen (type :: rest))
    (cached : r.find? type = some d) : Halfway r (type :: seen) (d.references.reverse ++ rest) := by
  refine List.forall_mem_cons.2 ⟨⟨d, cached, fun other mem => ?_⟩, fun type' here => ?_⟩
  · exact Or.inr (Or.inl (List.mem_append_left _ (List.mem_reverse.2 mem)))
  · obtain ⟨e, cached', references⟩ := halfway type' here
    refine ⟨e, cached', fun other mem => ?_⟩
    rcases references other mem with known | waiting | bare
    · exact Or.inl (List.mem_cons_of_mem _ known)
    · rcases List.mem_cons.1 waiting with rfl | waiting
      · exact Or.inl List.mem_cons_self
      · exact Or.inr (Or.inl (List.mem_append_right _ waiting))
    · exact Or.inr (Or.inr bare)

/-- In the end the types that were seen and those that refer to nothing are closed. -/
theorem Halfway.closed {seen : List NamedType} (halfway : Halfway r seen []) :
    r.Closed fun type => type ∈ seen ∨ r.Bare type := by
  rintro type (here | ⟨d, cached, none⟩)
  · obtain ⟨d, cached, references⟩ := halfway type here
    refine ⟨d, foretold?_of_cached cached, fun other mem => ?_⟩
    rcases references other mem with known | absent | bare
    · exact Or.inl known
    · exact absurd absent List.not_mem_nil
    · exact Or.inr bare
  · refine ⟨d, foretold?_of_cached cached, fun other mem => ?_⟩
    rw [none] at mem
    exact absurd mem List.not_mem_nil

/-- Once all types of a stack are described, nothing is about to be, and each of them was seen or refers to nothing. -/
theorem describeAll_halfway (seen stack : List NamedType) {r r' : Registry} (reachable : host.Reachable r)
    (halfway : Halfway r seen stack) (ran : outcome (host.describeAll seen stack) r = (.ok (), r')) :
    host.Later r r' ∧ ∃ seen', Halfway r' seen' [] ∧ (∀ type ∈ seen, type ∈ seen') ∧
      ∀ type ∈ stack, type ∈ seen' ∨ r'.Bare type := by
  fun_induction Host.describeAll host seen stack generalizing r with
  | case1 seen =>
    cases ran
    exact ⟨.refl host _, seen, halfway, fun _ => id, List.forall_mem_nil _⟩
  | case2 seen type rest known ih =>
    obtain ⟨later, seen', halfway', all, others⟩ := ih reachable (halfway.pop (Or.inl known)) ran
    exact ⟨later, seen', halfway', all, List.forall_mem_cons.2 ⟨Or.inl (all type known), others⟩⟩
  | case3 seen type rest fresh below ih =>
    obtain ⟨d, r₁, described, ran⟩ := outcome_bind_eq_ok.1 ran
    have later : host.Later r r₁ := (describe_settles type).later described
    have reachable₁ : host.Reachable r₁ := .described reachable later
    have cached : r₁.find? type = some d := describe_caches described
    split at ran
    · next known =>
      obtain ⟨later', seen', halfway', all, others⟩ := below d known reachable₁ ((halfway.later later).push cached) ran
      obtain ⟨here, all⟩ := List.forall_mem_cons.1 all
      refine ⟨later.trans later', seen', halfway', all, List.forall_mem_cons.2 ⟨Or.inl here, fun other mem => ?_⟩⟩
      exact others other (List.mem_append_right _ mem)
    · next unknown =>
      have bare : r₁.Bare type := ⟨d, cached, reachable₁.references_unknown cached unknown⟩
      obtain ⟨later', seen', halfway', all, others⟩ := ih reachable₁ ((halfway.later later).pop (Or.inr bare)) ran
      exact ⟨later.trans later', seen', halfway', all, List.forall_mem_cons.2 ⟨Or.inr (later'.bare bare), others⟩⟩

/-- Describing all types of a stack, and all that they refer to, closes them. -/
theorem describeAll_closes {stack : List NamedType} (reachable : host.Reachable r)
    (ran : outcome (host.describeAll [] stack) r = (.ok (), r')) :
    ∃ types, r'.Closed types ∧ ∀ type ∈ stack, types type := by
  obtain ⟨-, seen, halfway, -, all⟩ := describeAll_halfway [] stack reachable (List.forall_mem_nil _) ran
  exact ⟨_, halfway.closed, all⟩

end Host

end GraphQL
