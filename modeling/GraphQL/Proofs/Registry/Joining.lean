import GraphQL.Proofs.Registry.Settled

/-!
# Describing types together

What two ways of describing types come to from one registry, one registry can say: `Host.joins`. All that
stands against it is a name that the two give to different types. The order in which the types are described
does not matter, because what makes a descriptor makes the same one wherever all is known that it builds on.
-/

namespace GraphQL

/-- The name that a descriptor takes. Only types of the application take one. -/
def TypeDescriptor.takes? (d : TypeDescriptor) : Option String :=
  match d.type with
  | .builtin _ => none
  | .host _ => some d.name

theorem TypeDescriptor.takes?_eq_some {d : TypeDescriptor} {name : String} :
    d.takes? = some name ↔ ∃ id, d.type = .host id ∧ d.name = name := by
  unfold takes?
  cases d.type with
  | builtin b => simp
  | host id => simp

namespace Registry

/-- No name stands for different types in the two registries. -/
def Agree (r r' : Registry) : Prop :=
  ∀ name type type', Entries.find? name r.names = some type → Entries.find? name r'.names = some type' → type = type'

variable {r : Registry} {d e : TypeDescriptor}

theorem Alike.symm {r r' : Registry} (alike : r.Alike r') : r'.Alike r :=
  ⟨fun type => (alike.find? type).symm, fun name => (alike.findName name).symm, alike.scalars.symm⟩

theorem Alike.trans {r r' r'' : Registry} (first : r.Alike r') (second : r'.Alike r'') : r.Alike r'' :=
  ⟨fun type => (second.find? type).trans (first.find? type),
    fun name => (second.findName name).trans (first.findName name), second.scalars.trans first.scalars⟩

theorem find?_put (r : Registry) (d : TypeDescriptor) (type : NamedType) :
    (r.put d).find? type = if type = d.type then some d else r.find? type := by
  split
  · next same => rw [same, find?_put_self]
  · next ne => exact find?_put_of_ne r ne

theorem names_put (r : Registry) (d : TypeDescriptor) (name : String) :
    Entries.find? name (r.put d).names =
      if d.takes? = some name then some d.type else Entries.find? name r.names := by
  unfold put TypeDescriptor.takes?
  cases kind : d.type with
  | builtin b => rfl
  | host id =>
    by_cases same : d.name = name
    · subst same
      simp [Entries.find?_insert_self]
    · simp [same, Entries.find?_insert_of_ne (Ne.symm same)]

theorem rival?_eq_some {other : NamedType} :
    r.rival? d = some other ↔
      ∃ name, d.takes? = some name ∧ Entries.find? name r.names = some other ∧ other ≠ d.type := by
  unfold rival? TypeDescriptor.takes?
  cases kind : d.type with
  | builtin b => simp
  | host id => simp [Option.filter_eq_some_iff]

theorem rival?_eq_none :
    r.rival? d = none ↔
      ∀ name, d.takes? = some name → ∀ other, Entries.find? name r.names = some other → other = d.type := by
  constructor
  · intro free name takes other taken
    refine Decidable.byContradiction fun ne => ?_
    rw [rival?_eq_some.2 ⟨name, takes, taken, ne⟩] at free
    cases free
  · intro own
    cases rival : r.rival? d with
    | none => rfl
    | some other =>
      obtain ⟨name, takes, taken, ne⟩ := rival?_eq_some.1 rival
      exact absurd (own name takes other taken) ne

theorem Alike.put {r r' : Registry} (alike : r.Alike r') (d : TypeDescriptor) : (r.put d).Alike (r'.put d) where
  find? type := by rw [find?_put, find?_put, alike.find?]
  findName name := by rw [names_put, names_put, alike.findName]
  scalars := by rw [scalars_put, scalars_put, alike.scalars]

/-- Where the second of two descriptors finds its name free after the first, they share none. -/
theorem takes?_ne (differ : e.type ≠ d.type) (free : (r.put e).rival? d = none) {name : String}
    (takes : d.takes? = some name) : e.takes? ≠ some name := by
  intro takes'
  exact differ (rival?_eq_none.1 free name takes e.type (by rw [names_put, if_pos takes']))

/-- Such descriptors come to the same in either order. -/
theorem put_comm (differ : e.type ≠ d.type) (free : (r.put e).rival? d = none) :
    ((r.put d).put e).Alike ((r.put e).put d) where
  find? type := by
    simp only [find?_put]
    by_cases here : type = d.type
    · rw [if_pos here, if_neg (here ▸ differ.symm), if_pos here]
    · simp only [if_neg here]
  findName name := by
    simp only [names_put]
    by_cases here : d.takes? = some name
    · rw [if_pos here, if_neg (takes?_ne differ free here), if_pos here]
    · simp only [if_neg here]
  scalars := by simp only [scalars_put]

theorem rival?_put (differ : e.type ≠ d.type) (free : (r.put e).rival? d = none) (free' : r.rival? e = none) :
    (r.put d).rival? e = none := by
  refine rival?_eq_none.2 fun name takes other taken => ?_
  rw [names_put] at taken
  split at taken
  · next takes' => exact absurd takes (takes?_ne differ free takes')
  · exact rival?_eq_none.1 free' name takes other taken

end Registry

namespace Host

variable {host : Host} {r r' R : Registry} {d e : TypeDescriptor}

theorem lookUp_repeats (id : HostId) : host.Repeats [] False (lookUp id) (lookUp id) := by
  intro r
  cases found : outcome (lookUp id) r with
  | mk result u =>
    cases result with
    | error e =>
      cases lookUp_eq_error found
      refine ⟨?_, fun _ _ mem => absurd mem List.not_mem_nil, fun R covers cond => ?_⟩ <;> rw [found] at *
      · exact .refl host r
      · obtain ⟨_, failed⟩ | ⟨impossible, -⟩ := cond
        · cases failed
        · exact impossible.elim
    | ok d =>
      obtain ⟨cached, rfl⟩ := lookUp_eq_ok.1 found
      refine ⟨?_, fun _ _ mem => absurd mem List.not_mem_nil, fun R covers cond => ?_⟩ <;> rw [found] at *
      · exact .refl host r
      · exact lookUp_eq_ok.2 ⟨covers.find? cached, rfl⟩

/-- What makes a descriptor makes it in every registry that covers this one. -/
theorem Makes.covers (makes : host.Makes r d) (covers : host.Covers r R) : host.Makes R d := by
  cases makes with
  | scalar registered => exact .scalar (by rw [covers.scalar?, registered])
  | builtin plain => exact .builtin (by rw [covers.scalar?, plain])
  | @host id _ plain known built of =>
    have looked (id : HostId) : host.Repeats [] False (lookUp id) (lookUp id) := lookUp_repeats id
    have again := (build_repeats looked id host.types[id] r).again R
    rw [built] at again
    exact .host (by rw [covers.scalar?, plain]) known (again covers (Or.inl ⟨d, rfl⟩)) of

/-- A registry makes no more than one descriptor of a type. -/
theorem Makes.unique (makes : host.Makes r d) (makes' : host.Makes r e) (same : e.type = d.type) : e = d := by
  cases makes with
  | scalar registered =>
    cases makes' with
    | scalar registered' =>
      cases same
      rw [registered] at registered'
      cases registered'
      rfl
    | builtin plain =>
      cases same
      rw [registered] at plain
      cases plain
    | host plain _ _ of =>
      rw [of] at same
      cases same
      rw [registered] at plain
      cases plain
  | builtin plain =>
    cases makes' with
    | scalar registered =>
      cases same
      rw [registered] at plain
      cases plain
    | builtin _ =>
      cases same
      rfl
    | host _ _ _ of =>
      rw [of] at same
      cases same
  | host plain _ built of =>
    cases makes' with
    | scalar registered =>
      cases same.trans of
      rw [registered] at plain
      cases plain
    | builtin _ => cases same.trans of
    | host _ _ built' of' =>
      cases of'.symm.trans (same.trans of)
      rw [built] at built'
      cases built'
      rfl

theorem Later.agree (later : host.Later r r') : r'.Agree r := fun _ _ _ taken taken' =>
  Option.some.inj (taken.symm.trans (later.findName taken'))

theorem Covers.alike (covers : host.Covers r R) (alike : R.Alike r') : host.Covers r r' := by
  obtain ⟨known, later, alike'⟩ := covers
  exact ⟨known, later, alike'.trans alike⟩

/-- A covering registry goes on to cover when one more type is described in it. -/
theorem Covers.extends (covers : host.Covers r R) (step : host.Extends R r' d) : host.Covers r r' := by
  obtain ⟨known, later, alike⟩ := covers
  have made : host.Makes known d := step.made.covers ⟨R, .refl host R, alike.symm⟩
  have fresh : known.find? d.type = none := (alike.find? d.type).symm.trans step.fresh
  have free : known.rival? d = none := (alike.rival? d).symm.trans step.free
  refine ⟨known.put d, later.trans (Relation.ReflTransGen.single ⟨d, made, fresh, free, rfl⟩), ?_⟩
  rw [step.put]
  exact alike.put d

theorem Extends.later (step : host.Extends r r' d) : host.Later r r' := Relation.ReflTransGen.single ⟨d, step⟩

/-- What is described first may be described last, or where it was described later. -/
theorem Extends.delayed (step : host.Extends r r' d) (later : host.Later r R) (free : R.rival? d = none) :
    (R.find? d.type = none → host.Covers r' (R.put d)) ∧ (R.find? d.type ≠ none → host.Covers r' R) := by
  induction later with
  | refl => exact ⟨fun _ => step.put ▸ .refl host _, fun cached => absurd step.fresh cached⟩
  | @tail u v before next ih =>
    obtain ⟨e, next⟩ := next
    have free' : u.rival? d = none := by
      cases rival : u.rival? d with
      | none => rfl
      | some other =>
        rw [next.later.rival? rival] at free
        cases free
    obtain ⟨absent, present⟩ := ih free'
    cases cached : u.find? d.type with
    | some d' =>
      have here : v.find? d.type = some d' := next.later.find? cached
      refine ⟨fun missing => ?_, fun _ => (present ?_).extends next⟩
      · rw [here] at missing
        cases missing
      · rw [cached]
        exact Option.some_ne_none d'
    | none =>
      have made : host.Makes u d := step.made.covers (Later.covers before)
      by_cases same : e.type = d.type
      · obtain rfl := made.unique next.made same
        rw [next.put]
        refine ⟨fun missing => ?_, fun _ => absent cached⟩
        rw [Registry.find?_put_self] at missing
        cases missing
      · refine ⟨fun _ => ?_, fun cached' => ?_⟩
        · rw [next.put] at free ⊢
          have put : host.Extends u (u.put d) d := ⟨made, cached, free', rfl⟩
          have both : host.Extends (u.put d) ((u.put d).put e) e :=
            ⟨next.made.covers put.later.covers, by rw [Registry.find?_put_of_ne u same, next.fresh],
              Registry.rival?_put same free next.free, rfl⟩
          exact ((absent cached).extends both).alike (Registry.put_comm same free)
        · rw [next.put, Registry.find?_put_of_ne u (Ne.symm same), cached] at cached'
          exact absurd rfl cached'

/-- Types described in two ways can be described together, and no others with them, unless the two give one name to
different types. -/
theorem joins_least {left right : Registry} (onLeft : host.Later r left) (onRight : host.Later r right)
    (agree : left.Agree right) :
    ∃ R, host.Covers left R ∧ host.Covers right R ∧
      (∀ type, R.find? type ≠ none → left.find? type ≠ none ∨ right.find? type ≠ none) ∧
      ∀ name type, Entries.find? name R.names = some type →
        Entries.find? name left.names = some type ∨ Entries.find? name right.names = some type := by
  suffices ∀ b, host.Later r b → host.Later b right → ∃ R, host.Covers left R ∧ host.Covers b R ∧
      (∀ type, R.find? type ≠ none → left.find? type ≠ none ∨ b.find? type ≠ none) ∧
      ∀ name type, Entries.find? name R.names = some type →
        Entries.find? name left.names = some type ∨ Entries.find? name b.names = some type from
    this right onRight (.refl host right)
  intro b before rest
  induction before with
  | refl =>
    exact ⟨left, .refl host left, Later.covers onLeft, fun _ cached => Or.inl cached, fun _ _ taken => Or.inl taken⟩
  | @tail u v before step ih =>
    obtain ⟨d, step⟩ := step
    obtain ⟨R, covers, covers', typed, named⟩ := ih (step.later.trans rest)
    have grown (type : NamedType) (cached : u.find? type ≠ none) : v.find? type ≠ none :=
      fun fresh => cached (step.later.find?_eq_none fresh)
    have free : R.rival? d = none := by
      refine Registry.rival?_eq_none.2 fun name takes other taken => ?_
      rcases named name other taken with foreign | own
      · have after : Entries.find? name v.names = some d.type := by rw [step.put, Registry.names_put, if_pos takes]
        exact agree name other d.type foreign (rest.findName after)
      · exact Registry.rival?_eq_none.1 step.free name takes other own
    obtain ⟨known, later, alike⟩ := covers'
    obtain ⟨absent, present⟩ := step.delayed later ((alike.rival? d).symm.trans free)
    cases cached : R.find? d.type with
    | some d' =>
      refine ⟨R, covers, (present ?_).alike alike, fun type here => (typed type here).imp_right (grown type),
        fun name type taken => (named name type taken).imp_right step.later.findName⟩
      rw [← alike.find?, cached]
      exact Option.some_ne_none d'
    | none =>
      have put : host.Extends R (R.put d) d := ⟨step.made.covers ⟨known, later, alike⟩, cached, free, rfl⟩
      refine ⟨R.put d, covers.extends put, (absent ?_).alike (alike.put d), fun type here => ?_, fun name type taken => ?_⟩
      · rw [← alike.find?, cached]
      · rw [Registry.find?_put] at here
        split at here
        · next same =>
          right
          rw [step.put, Registry.find?_put, if_pos same]
          exact Option.some_ne_none d
        · exact (typed type here).imp_right (grown type)
      · rw [Registry.names_put] at taken
        split at taken
        · next takes =>
          right
          rw [step.put, Registry.names_put, if_pos takes, taken]
        · exact (named name type taken).imp_right step.later.findName

theorem joins {left right : Registry} (onLeft : host.Later r left) (onRight : host.Later r right)
    (agree : left.Agree right) : ∃ R, host.Covers left R ∧ host.Covers right R := by
  obtain ⟨R, covers, covers', -⟩ := joins_least onLeft onRight agree
  exact ⟨R, covers, covers'⟩

end Host

end GraphQL
