import GraphQL.Proofs.Footing.Building

/-!
# Traces of descriptions

Two registries differ in a trace when some types are described in one of them only, and both go on to a registry
that has the types of either: `Registry.Joined`. A trace stays a trace when types are described in both, as long as
no name goes to one type here and to another there, and when a custom scalar takes over its type in both, as long as
no type of the trace is that type or builds on it.
-/

namespace GraphQL

namespace Registry

/-- The type is described in one of two registries only. -/
def Apart (r r' : Registry) (type : NamedType) : Prop := ¬(r.find? type = none ↔ r'.find? type = none)

/-- A registry that goes on from two others and has no types and names but theirs. -/
structure Joined (host : Host) (r r' R : Registry) : Prop where
  left : host.Covers r R
  right : host.Covers r' R
  types : ∀ type, R.find? type ≠ none → r.find? type ≠ none ∨ r'.find? type ≠ none
  names : ∀ name type, Entries.find? name R.names = some type →
    Entries.find? name r.names = some type ∨ Entries.find? name r'.names = some type
  distinct : R.Distinct
  coherent : R.Coherent

/-- The custom scalar is no concern of the types that are described in one of two registries only, and its name is
taken alike in both. -/
structure Unconcerned (host : Host) (r r' : Registry) (scalar : ScalarDescriptor) : Prop where
  types : ∀ type, Apart r r' type → type ≠ scalar.type ∧ host.Ignores type scalar.type
  name : Entries.find? scalar.name r'.names = Entries.find? scalar.name r.names

variable {host : Host} {r r' R : Registry}

theorem Apart.symm {type : NamedType} (apart : Apart r r' type) : Apart r' r type := fun same => apart same.symm

theorem Joined.symm (both : Joined host r r' R) : Joined host r' r R where
  left := both.right
  right := both.left
  types type here := (both.types type here).symm
  names name type taken := (both.names name type taken).symm
  distinct := both.distinct
  coherent := both.coherent

theorem Joined.of_later (later : host.Later r R) (distinct : R.Distinct) (coherent : R.Coherent) : Joined host r R R where
  left := later.covers
  right := .refl host R
  types _ := Or.inr
  names _ _ := Or.inr
  distinct := distinct
  coherent := coherent

/-- What the join has and one side does not have is apart. -/
theorem Joined.apart (joined : Joined host r r' R) {type : NamedType} (fresh : r.find? type = none)
    (described : R.find? type ≠ none) : Apart r r' type := by
  intro same
  have other := (joined.types type described).resolve_left (not_not_intro fresh)
  exact other (same.1 fresh)

end Registry

namespace Host

open Registry

variable {host : Host} {r r' R : Registry} {scalar : ScalarDescriptor}

/-! ## Describing types in both -/

/-- What goes on from a registry that goes on from another goes on from that. -/
theorem Covers.trans {known : Registry} (covers : host.Covers r known) (covers' : host.Covers known R) :
    host.Covers r R := by
  obtain ⟨more, later, alike⟩ := covers'
  suffices host.Covers r more from this.alike alike
  clear alike
  induction later with
  | refl => exact covers
  | tail _ step ih =>
    obtain ⟨d, step⟩ := step
    exact ih.extends step

/-- Where types are described on one side, under no name that another type has, both sides still go on to one
registry. -/
theorem joined_left {left : Registry} (both : Joined host r r' R) (onLeft : host.Later r left) (agree : left.Agree R)
    (distinct : left.Distinct) (coherent : left.Coherent) : ∃ R', Joined host left r' R' := by
  obtain ⟨known, later, alike⟩ := both.left
  have agree' : left.Agree known := by
    intro name type type' taken taken'
    rw [← alike.findName] at taken'
    exact agree name type type' taken taken'
  obtain ⟨more, ⟨R', later', alike'⟩, covers, typed, named⟩ := joins_least onLeft later agree'
  have right : host.Covers r' more := both.right.trans (Covers.trans ⟨R, .refl host R, alike.symm⟩ covers)
  refine ⟨R', later'.covers, right.alike alike'.symm, fun type here => ?_, fun name type taken => ?_,
    later'.distinct distinct, later'.coherent coherent⟩
  · rw [← alike'.find?] at here
    refine (typed type here).elim Or.inl fun here => ?_
    rw [← alike.find?] at here
    exact (both.types type here).imp_left fun described fresh => described (onLeft.find?_eq_none fresh)
  · rw [← alike'.findName] at taken
    refine (named name type taken).elim Or.inl fun taken => ?_
    rw [← alike.findName] at taken
    exact (both.names name type taken).imp_left onLeft.findName

/-- Where types are described on both sides, and no name goes to different types, the sides still go on to one
registry. -/
theorem joined_later {left right : Registry} (both : Joined host r r' R) (onLeft : host.Later r left)
    (onRight : host.Later r' right) (agree : left.Agree right) (reachable : host.Reachable left)
    (reachable' : host.Reachable right) : ∃ R', Joined host left right R' := by
  have first : left.Agree R := by
    intro name type type' taken taken'
    rcases both.names name type' taken' with own | other
    · exact Option.some.inj (taken.symm.trans (onLeft.findName own))
    · exact agree name type type' taken (onRight.findName other)
  obtain ⟨R₁, joined₁⟩ := joined_left both onLeft first reachable.distinct reachable.coherent
  have second : right.Agree R₁ := by
    intro name type type' taken taken'
    rcases joined₁.names name type' taken' with other | own
    · exact (agree name type' type other taken).symm
    · exact Option.some.inj (taken.symm.trans (onRight.findName own))
  obtain ⟨R', joined₂⟩ := joined_left joined₁.symm onRight second reachable'.distinct reachable'.coherent
  exact ⟨R', joined₂.symm⟩

end Host

/-! ## A custom scalar that takes over its type in both -/

namespace Registry

variable {host : Host} {r r' R : Registry} {scalar : ScalarDescriptor}

theorem Alike.takeOver (alike : r.Alike R) (distinct : r.Distinct) (coherent : r.Coherent) (distinct' : R.Distinct)
    (coherent' : R.Coherent) : (r.takeOver scalar).Alike (R.takeOver scalar) where
  find? type := by rw [find?_takeOver distinct.descriptors, find?_takeOver distinct'.descriptors, alike.find?]
  findName name := by rw [coherent.findName_takeOver distinct, coherent'.findName_takeOver distinct', alike.findName]
  scalars := by rw [scalars_takeOver, scalars_takeOver, alike.scalars]

/-- A descriptor of another type may be put before the scalar takes over, or after. -/
theorem takeOver_put {d : TypeDescriptor} (distinct : r.Distinct) (coherent : r.Coherent) (coherent' : (r.put d).Coherent)
    (ne : d.type ≠ scalar.type) : ((r.takeOver scalar).put d).Alike ((r.put d).takeOver scalar) where
  find? type := by
    rw [find?_takeOver (distinct.put d).descriptors, find?_put, find?_put, find?_takeOver distinct.descriptors]
    by_cases here : type = d.type
    · rw [if_pos here, if_pos here, if_neg (here ▸ ne)]
    · rw [if_neg here, if_neg here]
  findName name := by
    rw [coherent'.findName_takeOver (distinct.put d), names_put, names_put, coherent.findName_takeOver distinct]
    by_cases takes : d.takes? = some name
    · rw [if_pos takes, if_pos takes]
      exact Option.filter_some_pos (by simpa using ne)
    · rw [if_neg takes, if_neg takes]
  scalars := by rw [scalars_takeOver, scalars_put, scalars_put, scalars_takeOver]

end Registry

namespace Host

open Registry

variable {host : Host} {r r' R : Registry} {scalar : ScalarDescriptor}

/-- A type that is not taken over and does not build on the type that is can be described before or after. -/
theorem Extends.takeOver {d : TypeDescriptor} (step : host.Extends r r' d) (distinct : r.Distinct) (coherent : r.Coherent)
    (ne : d.type ≠ scalar.type) (ignores : host.Ignores d.type scalar.type) :
    host.Extends (r.takeOver scalar) ((r.takeOver scalar).put d) d where
  made := by
    refine step.made.elsewhere (fun type other => ?_) ?_ ignores
    · rw [find?_takeOver distinct.descriptors, if_neg other]
    · rw [scalar?_takeOver, if_neg ne]
  fresh := by rw [find?_takeOver distinct.descriptors, if_neg ne, step.fresh]
  free := by
    refine rival?_eq_none.2 fun name takes other taken => ?_
    rw [coherent.findName_takeOver distinct] at taken
    exact rival?_eq_none.1 step.free name takes other (Option.filter_eq_some_iff.1 taken).1
  put := rfl

/-- Registries still cover each other after a scalar has taken over its type in both, if what only the second has is
not that type and does not build on it. -/
theorem Covers.takeOver (covers : host.Covers r R) (distinct : r.Distinct) (coherent : r.Coherent)
    (distinct' : R.Distinct) (coherent' : R.Coherent)
    (apart : ∀ type, r.find? type = none → R.find? type ≠ none → type ≠ scalar.type ∧ host.Ignores type scalar.type) :
    host.Covers (r.takeOver scalar) (R.takeOver scalar) := by
  obtain ⟨known, later, alike⟩ := covers
  suffices host.Covers (r.takeOver scalar) (known.takeOver scalar) from
    this.alike (alike.takeOver (later.distinct distinct) (later.coherent coherent) distinct' coherent')
  replace apart : ∀ type, r.find? type = none → known.find? type ≠ none →
      type ≠ scalar.type ∧ host.Ignores type scalar.type :=
    fun type fresh here => apart type fresh (by rw [alike.find?]; exact here)
  clear alike
  induction later with
  | refl => exact .refl host _
  | @tail u v before step ih =>
    obtain ⟨d, step⟩ := step
    have uDistinct := Later.distinct before distinct
    have uCoherent := Later.coherent before coherent
    have covers := ih fun type fresh here => apart type fresh fun gone => here (step.later.find?_eq_none gone)
    have described : v.find? d.type ≠ none := by
      rw [step.put, find?_put_self]
      exact Option.some_ne_none d
    obtain ⟨ne, ignores⟩ := apart d.type (Later.find?_eq_none before step.fresh) described
    have next := covers.extends (step.takeOver uDistinct uCoherent ne ignores)
    have coherent' : (u.put d).Coherent := step.put ▸ uCoherent.described step
    rw [step.put]
    exact next.alike (takeOver_put uDistinct uCoherent coherent' ne)

end Host

namespace Registry

variable {host : Host} {r r' R : Registry} {scalar : ScalarDescriptor}

/-- Where the scalar is no concern of what one side has only, both sides go on to one registry after it has taken over
its type in both. -/
theorem Joined.takeOver (both : Joined host r r' R) (unconcerned : Unconcerned host r r' scalar)
    (reachable : host.Reachable r) (reachable' : host.Reachable r') (accepts : R.Accepts scalar) :
    Joined host (r.takeOver scalar) (r'.takeOver scalar) (R.takeOver scalar) where
  left := both.left.takeOver reachable.distinct reachable.coherent both.distinct both.coherent fun type fresh here =>
    unconcerned.types type (both.apart fresh here)
  right := both.right.takeOver reachable'.distinct reachable'.coherent both.distinct both.coherent
    fun type fresh here => unconcerned.types type (both.symm.apart fresh here).symm
  types type here := by
    rw [find?_takeOver both.distinct.descriptors] at here
    rw [find?_takeOver reachable.distinct.descriptors, find?_takeOver reachable'.distinct.descriptors]
    split at here
    · exact absurd rfl here
    · next ne =>
      rw [if_neg ne, if_neg ne]
      exact both.types type here
  names name type taken := by
    rw [both.coherent.findName_takeOver both.distinct, Option.filter_eq_some_iff] at taken
    rw [reachable.coherent.findName_takeOver reachable.distinct, reachable'.coherent.findName_takeOver reachable'.distinct,
      Option.filter_eq_some_iff, Option.filter_eq_some_iff]
    exact (both.names name type taken.1).imp (⟨·, taken.2⟩) (⟨·, taken.2⟩)
  distinct := both.distinct.takeOver scalar
  coherent := both.coherent.takeOver both.distinct accepts

/-- The names of custom scalars are given by the scalars. -/
theorem Coherent.scalarName_congr (coherent : R.Coherent) (coherent' : r.Coherent)
    (same : ∀ type, R.scalar? type = r.scalar? type) (name : String) :
    Entries.find? name R.scalarNames = Entries.find? name r.scalarNames := by
  refine Option.ext fun type => ?_
  rw [coherent.scalarNamed, coherent'.scalarNamed]
  simp only [same]

/-- A scalar that one side accepts the join accepts. -/
theorem Joined.accepts (both : Joined host r r' R) (unconcerned : Unconcerned host r r' scalar)
    (reachable : host.Reachable r) (accepts : r.Accepts scalar) : R.Accepts scalar where
  foreign := accepts.foreign
  valid := accepts.valid
  unnamed := by
    rw [both.coherent.scalarName_congr reachable.coherent fun type => both.left.scalar? type, accepts.unnamed]
  plain := by rw [both.left.scalar?, accepts.plain]
  free other taken := by
    rcases both.names _ _ taken with own | own
    · exact accepts.free other own
    · rw [unconcerned.name] at own
      exact accepts.free other own

/-- A scalar that is no concern of what one side has only is accepted on both sides or refused for one reason, and both
still go on to one registry. -/
theorem Joined.registerScalar (both : Joined host r r' R) (unconcerned : Unconcerned host r r' scalar)
    (reachable : host.Reachable r) (reachable' : host.Reachable r') :
    (outcome (host.registerScalar scalar) r').1 = (outcome (host.registerScalar scalar) r).1 ∧
      ∃ R', Joined host (outcome (host.registerScalar scalar) r).2 (outcome (host.registerScalar scalar) r').2 R' := by
  have scalars (type : NamedType) : r'.scalar? type = r.scalar? type :=
    (both.right.scalar? type).symm.trans (both.left.scalar? type)
  have same : (outcome (host.registerScalar scalar) r').1 = (outcome (host.registerScalar scalar) r).1 := by
    refine host.registerScalar_congr ?_ ?_ unconcerned.name
    · unfold Entries.contains
      rw [reachable'.coherent.scalarName_congr reachable.coherent scalars]
    · exact congrArg Option.isSome (scalars scalar.type)
  refine ⟨same, ?_⟩
  rcases host.registerScalar_cases scalar r with ⟨e, refused⟩ | ⟨accepts, registered⟩
  · rcases host.registerScalar_cases scalar r' with ⟨e', refused'⟩ | ⟨-, registered'⟩
    · rw [refused, refused']
      exact ⟨R, both⟩
    · rw [refused, registered'] at same
      cases same
  · rcases host.registerScalar_cases scalar r' with ⟨e', refused'⟩ | ⟨-, registered'⟩
    · rw [refused', registered] at same
      cases same
    · rw [registered, registered']
      exact ⟨_, both.takeOver unconcerned reachable reachable' (both.accepts unconcerned reachable accepts)⟩

end Registry

end GraphQL
