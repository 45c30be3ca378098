import GraphQL.Proofs.Registry.Repetition

/-!
# Describing settles

Describing a type repeats in every registry that covers the one it leaves, whether it gives a descriptor or an
error. The reason is that a type whose description failed can get a descriptor only in a registry in which the
description would have succeeded.
-/

namespace GraphQL

namespace Host

section

variable {host : Host} {stack inner : List HostId}

/-- A descriptor that is built has what its type declares, the default name if it declares none. -/
theorem build_eq {describe : HostId → RegistryM TypeDescriptor} {id : HostId} {type : HostType} {r r' : Registry}
    {d : TypeDescriptor} (built : outcome (build describe id type) r = (.ok d, r')) :
    ∃ kind, d = ⟨.host id, type.description.name.getD (defaultTypeName type.hostName),
      type.description.description, kind⟩ := by
  unfold build at built
  simp only at built
  split at built
  · cases built
  · split at built
    · cases built
    · obtain ⟨_, _, _, made⟩ := outcome_bind_eq_ok.1 built
      cases made
      exact ⟨_, rfl⟩
    · obtain ⟨_, _, _, made⟩ := outcome_bind_eq_ok.1 built
      cases made
      exact ⟨_, rfl⟩
    · obtain ⟨_, _, _, made⟩ := outcome_bind_eq_ok.1 built
      cases made
      exact ⟨_, rfl⟩
    · obtain ⟨_, _, _, made⟩ := outcome_bind_eq_ok.1 built
      cases made
      exact ⟨_, rfl⟩
    · cases built
      exact ⟨_, rfl⟩
    · cases built

theorem build_type {describe : HostId → RegistryM TypeDescriptor} {id : HostId} {type : HostType} {r r' : Registry}
    {d : TypeDescriptor} (built : outcome (build describe id type) r = (.ok d, r')) : d.type = .host id := by
  obtain ⟨_, rfl⟩ := build_eq built
  rfl

/-- What describing a type comes to, by whether it is cached, a custom scalar, builtin or of the host. -/
theorem outcome_describeWithin (stack : List HostId) (type : NamedType) (r : Registry) :
    outcome (host.describeWithin stack type) r =
      match r.find? type with
      | some d => (.ok d, r)
      | none =>
        match r.scalar? type with
        | some scalar => outcome (host.insert ⟨type, scalar.name, scalar.description, .scalar (.custom scalar)⟩) r
        | none =>
          match type with
          | .builtin b => outcome (host.insert ⟨.builtin b, b.scalarName, none, .scalar (.builtin b)⟩) r
          | .host id =>
            if id ∈ stack then (.error (.recursiveEmbedding (host.typeName (.host id))), r)
            else if known : id < host.types.length then
              outcome (build (fun target => host.describeWithin (id :: stack) (.host target)) id host.types[id] >>=
                host.insert) r
            else (.error (.unsupportedType "" "it is not a type of the application"), r) := by
  rw [describeWithin.eq_def, outcome_bind, outcome_get]
  simp only
  cases r.find? type with
  | some d => rfl
  | none =>
    cases r.scalar? type with
    | some scalar => rfl
    | none =>
      cases type with
      | builtin b => rfl
      | host id =>
        simp only
        split
        · rfl
        · split <;> rfl

/-- A description that makes descriptors of one type, in the registries that cover a given one: what it
makes is what the host makes of the type, and while it runs the types of the inner stack stay open. -/
structure Describes (host : Host) (stack inner : List HostId) (type : NamedType) (m : RegistryM TypeDescriptor)
    (r : Registry) : Prop where
  repeats : host.Repeats inner True m m
  opened : ∀ {r'}, Open inner r' → Open stack r'
  opens : ∀ {R}, host.Covers r R → Open stack R → R.find? type = none → Open inner R
  fresh : r.find? type = none → Open stack r → (outcome m r).2.find? type = none
  apart : Open stack r → ∀ id ∈ stack, type ≠ .host id
  makes : ∀ {r' r'' d}, host.Later r r' → outcome m r' = (.ok d, r'') → d.type = type ∧ host.Makes r'' d
  only : ∀ {r' d}, host.Later r r' → Open inner r' → host.Makes r' d → d.type = type → outcome m r' = (.ok d, r')

namespace Describes

variable {type : NamedType} {m : RegistryM TypeDescriptor} {r : Registry}

/-- A type that could not be given a descriptor stays without one. -/
theorem never (describes : host.Describes stack inner type m r) (uncached : r.find? type = none) {R : Registry}
    (covers : host.Covers (outcome m r).2 R) (opened : Open stack R)
    (failed : ∀ d, (outcome m r).1 = .ok d → (outcome m r).2.rival? d ≠ none) : R.find? type = none := by
  have grown : host.Later r (outcome m r).2 := (describes.repeats r).grows
  obtain ⟨last, after, alike⟩ := covers
  rw [alike.find?]
  suffices ∀ b, host.Later (outcome m r).2 b → host.Covers b R → b.find? type = none from
    this last after ⟨last, .refl host last, alike⟩
  intro b before rest
  induction before with
  | refl => exact describes.fresh uncached ((rest.after grown).opens opened)
  | @tail a b before step ih =>
    obtain ⟨d, step⟩ := step
    have next : host.Later a b := Relation.ReflTransGen.single ⟨d, step⟩
    have here : a.find? type = none := ih (rest.after next)
    rw [step.put]
    by_cases same : d.type = type
    · have opens : Open inner a :=
        describes.opens (grown.trans before).covers ((rest.after next).opens opened) here
      have now := describes.only (grown.trans before) opens step.made same
      have then' := (describes.repeats r).again a (Later.covers before) (Or.inr ⟨trivial, opens⟩)
      rw [then', Prod.mk.injEq] at now
      cases rival : (outcome m r).2.rival? d with
      | none => exact absurd rival (failed d now.1)
      | some other =>
        have clash := Later.rival? before rival
        rw [step.free] at clash
        cases clash
    · rw [Registry.find?_put_of_ne a (Ne.symm same)]
      exact here

/-- Caching what is made repeats, given that this is what happens wherever the type is not cached. -/
theorem insert_repeats (describes : host.Describes stack inner type m r) {whole : RegistryM TypeDescriptor}
    (uncached : r.find? type = none)
    (cached : ∀ {r' d}, r'.find? type = some d → outcome whole r' = (.ok d, r'))
    (otherwise : ∀ {R}, host.Covers r R → R.find? type = none → outcome whole R = outcome (m >>= host.insert) R) :
    host.RepeatsAt stack True whole whole r := by
  have grown : host.Later r (outcome m r).2 := (describes.repeats r).grows
  have leaves : Open stack r → Open stack (outcome m r).2 := fun opened =>
    describes.opened ((describes.repeats r).leaves (describes.opens (.refl host r) opened uncached))
  have again {R : Registry} (covers : host.Covers (outcome m r).2 R) (opened : Open stack R)
      (fresh : R.find? type = none) : outcome m R = ((outcome m r).1, R) :=
    (describes.repeats r).again R covers (Or.inr ⟨trivial, describes.opens (covers.after grown) opened fresh⟩)
  have ran : outcome whole r = outcome (m >>= host.insert) r := otherwise (.refl host r) uncached
  cases made : outcome m r with
  | mk result u =>
    rw [made] at grown leaves again
    cases result with
    | error e =>
      rw [outcome_bind, made] at ran
      refine ⟨?_, ?_, fun R covers cond => ?_⟩ <;> rw [ran] at *
      · exact grown
      · exact leaves
      · obtain ⟨_, failed⟩ | ⟨-, opened⟩ := cond
        · cases failed
        · have fresh := describes.never uncached (made ▸ covers) opened (by rw [made]; exact fun d h => by cases h)
          rw [otherwise (covers.after grown) fresh, outcome_bind, again covers opened fresh]
    | ok d =>
      obtain ⟨typed, makes⟩ := describes.makes (.refl host r) made
      rw [outcome_bind, made] at ran
      simp only [outcome_insert, typed] at ran
      cases there : u.find? type with
      | some existing =>
        rw [there] at ran
        refine ⟨?_, ?_, fun R covers cond => ?_⟩ <;> rw [ran] at *
        · exact grown
        · exact leaves
        · exact cached (covers.find? there)
      | none =>
        rw [there] at ran
        simp only at ran
        cases rival : u.rival? d with
        | some other =>
          rw [rival] at ran
          refine ⟨?_, ?_, fun R covers cond => ?_⟩ <;> rw [ran] at *
          · exact grown
          · exact leaves
          · obtain ⟨_, failed⟩ | ⟨-, opened⟩ := cond
            · cases failed
            · have fresh := describes.never uncached (made ▸ covers) opened (by
                rw [made]
                intro d' h
                cases h
                rw [rival]
                exact Option.some_ne_none other)
              rw [otherwise (covers.after grown) fresh, outcome_bind, again covers opened fresh]
              simp only [outcome_insert, typed, fresh, covers.rival? rival]
        | none =>
          rw [rival] at ran
          have found : (u.put d).find? type = some d := typed ▸ Registry.find?_put_self u d
          refine ⟨?_, ?_, fun R covers cond => ?_⟩ <;> rw [ran] at *
          · exact Relation.ReflTransGen.tail grown ⟨d, makes, typed ▸ there, rival, rfl⟩
          · intro opened id mem
            obtain ⟨fresh, plain⟩ := leaves opened id mem
            have ne : NamedType.host id ≠ d.type := fun same =>
              describes.apart opened id mem (typed.symm.trans same.symm)
            rw [Registry.find?_put_of_ne u ne, Registry.scalar?_put]
            exact ⟨fresh, plain⟩
          · exact cached (covers.find? found)

end Describes

theorem lookUp_eq_ok {id : HostId} {r r' : Registry} {d : TypeDescriptor} :
    outcome (lookUp id) r = (.ok d, r') ↔ r.find? (.host id) = some d ∧ r = r' := by
  unfold lookUp
  rw [outcome_bind, outcome_get]
  simp only
  cases r.find? (.host id) with
  | none => simp [outcome_throw]
  | some found => simp [outcome_pure]

theorem lookUp_eq_error {id : HostId} {r r' : Registry} {e : RegistrationError}
    (missing : outcome (lookUp id) r = (.error e, r')) : r = r' := by
  unfold lookUp at missing
  rw [outcome_bind, outcome_get] at missing
  simp only at missing
  split at missing
  · cases missing
  · cases missing
    rfl

theorem describeWithin_cached {type : NamedType} {r : Registry} {d : TypeDescriptor} (cached : r.find? type = some d) :
    outcome (host.describeWithin stack type) r = (.ok d, r) := by
  rw [outcome_describeWithin, cached]

/-- A descriptor that is returned is cached. -/
theorem insert_caches {d found : TypeDescriptor} {r r' : Registry}
    (inserted : outcome (host.insert d) r = (.ok found, r')) :
    r'.find? d.type = some found := by
  rw [outcome_insert] at inserted
  split at inserted
  · next cached =>
    cases inserted
    exact cached
  · split at inserted
    · cases inserted
    · cases inserted
      exact Registry.find?_put_self _ _

theorem describeWithin_caches {type : NamedType} {r r' : Registry} {d : TypeDescriptor}
    (described : outcome (host.describeWithin stack type) r = (.ok d, r')) : r'.find? type = some d := by
  rw [outcome_describeWithin] at described
  split at described
  · next cached =>
    cases described
    exact cached
  · split at described
    · exact insert_caches described
    · split at described
      · exact insert_caches described
      · split at described
        · cases described
        · split at described
          · obtain ⟨built, u, made, inserted⟩ := outcome_bind_eq_ok.1 described
            rw [← build_type made]
            exact insert_caches inserted
          · cases described

theorem describes_scalar {type : NamedType} {scalar : ScalarDescriptor} {r : Registry}
    (registered : r.scalar? type = some scalar) :
    host.Describes stack stack type (pure ⟨type, scalar.name, scalar.description, .scalar (.custom scalar)⟩) r where
  repeats := repeats_pure _
  opened := id
  opens _ opened _ := opened
  fresh uncached _ := uncached
  apart opened id mem same := by
    rw [same, (opened id mem).2] at registered
    cases registered
  makes later made := by
    cases made
    exact ⟨rfl, .scalar (by rw [later.scalar?, registered])⟩
  only {r' d} later _ made same := by
    subst same
    rw [← later.scalar?] at registered
    cases made with
    | scalar registered' =>
      rw [registered] at registered'
      cases registered'
      rfl
    | builtin plain =>
      rw [registered] at plain
      cases plain
    | host plain _ _ of =>
      rw [of, plain] at registered
      cases registered

theorem describes_builtin {b : BuiltinType} {r : Registry} (plain : r.scalar? (.builtin b) = none) :
    host.Describes stack stack (.builtin b) (pure ⟨.builtin b, b.scalarName, none, .scalar (.builtin b)⟩) r where
  repeats := repeats_pure _
  opened := id
  opens _ opened _ := opened
  fresh uncached _ := uncached
  apart _ id _ same := by cases same
  makes later made := by
    cases made
    exact ⟨rfl, .builtin (by rw [later.scalar?, plain])⟩
  only later _ made same := by
    cases made with
    | scalar registered =>
      cases same
      rw [later.scalar?, plain] at registered
      cases registered
    | builtin _ =>
      cases same
      rfl
    | host _ _ _ of =>
      rw [of] at same
      cases same

/-- A number that is no type of the application is never given a descriptor. -/
theorem describes_unknown {id : HostId} {r : Registry} (plain : r.scalar? (.host id) = none) (outside : id ∉ stack)
    (unknown : ¬id < host.types.length) (e : RegistrationError) :
    host.Describes stack stack (.host id) (throw e) r where
  repeats := repeats_throw e
  opened := fun opened => opened
  opens _ opened _ := opened
  fresh uncached _ := uncached
  apart _ target mem same := by
    cases same
    exact outside mem
  makes _ made := by cases made
  only later _ made same := by
    cases made with
    | scalar registered =>
      cases same
      rw [later.scalar?, plain] at registered
      cases registered
    | builtin _ => cases same
    | host _ known _ of =>
      rw [of] at same
      cases same
      exact absurd known unknown

/-- A type that was described is cached afterwards, so that looking it up is enough. -/
theorem lookUp_repeats_describeWithin {target : HostId}
    (described : host.Repeats stack True (host.describeWithin stack (.host target))
      (host.describeWithin stack (.host target))) :
    host.Repeats stack False (host.describeWithin stack (.host target)) (lookUp target) := by
  intro r
  obtain ⟨grows, leaves, -⟩ := described r
  refine ⟨grows, leaves, ?_⟩
  intro R covers cond
  obtain ⟨d, ok⟩ := cond.resolve_right fun h => h.1
  rw [ok]
  exact lookUp_eq_ok.2 ⟨covers.find? (describeWithin_caches (Prod.ext ok rfl)), rfl⟩

/-- Describing a type that can be looked up finds it. -/
theorem describeWithin_repeats_lookUp (target : HostId) :
    host.Repeats [] False (lookUp target) (host.describeWithin stack (.host target)) := by
  intro r
  cases found : outcome (lookUp target) r with
  | mk result u =>
    cases result with
    | error e =>
      cases lookUp_eq_error found
      refine ⟨?_, ?_, fun R covers cond => ?_⟩ <;> rw [found] at *
      · exact .refl host r
      · exact fun _ _ mem => absurd mem List.not_mem_nil
      · obtain ⟨_, failed⟩ | ⟨impossible, -⟩ := cond
        · cases failed
        · exact impossible.elim
    | ok d =>
      obtain ⟨cached, rfl⟩ := lookUp_eq_ok.1 found
      refine ⟨?_, ?_, fun R covers cond => ?_⟩ <;> rw [found] at *
      · exact .refl host r
      · exact fun _ _ mem => absurd mem List.not_mem_nil
      · exact describeWithin_cached (covers.find? cached)

theorem describes_build {id : HostId} {r : Registry} (plain : r.scalar? (.host id) = none) (outside : id ∉ stack)
    (known : id < host.types.length)
    (each : ∀ target, host.Repeats (id :: stack) True (host.describeWithin (id :: stack) (.host target))
      (host.describeWithin (id :: stack) (.host target))) :
    host.Describes stack (id :: stack) (.host id)
      (build (fun target => host.describeWithin (id :: stack) (.host target)) id host.types[id]) r where
  repeats := build_repeats each id _
  opened opened target mem := opened target (List.mem_cons_of_mem _ mem)
  opens covers opened fresh target mem := by
    rcases List.mem_cons.1 mem with rfl | mem
    · exact ⟨fresh, by rw [covers.scalar?, plain]⟩
    · exact opened target mem
  fresh uncached opened := by
    have open' : Open (id :: stack) r := by
      intro target mem
      rcases List.mem_cons.1 mem with rfl | mem
      · exact ⟨uncached, plain⟩
      · exact opened target mem
    exact ((build_repeats each id _ r).leaves open' id List.mem_cons_self).1
  apart _ target mem same := by
    cases same
    exact outside mem
  makes {r' r'' d} later built := by
    have looked (target : HostId) := lookUp_repeats_describeWithin (each target)
    have again := (build_repeats looked id host.types[id] r').again r''
    rw [built] at again
    have here := again (.refl host r'') (Or.inl ⟨d, rfl⟩)
    have grows := (build_repeats looked id host.types[id] r').grows
    rw [built] at grows
    have typed := build_type built
    exact ⟨typed, .host (by rw [(later.trans grows).scalar?, plain]) known here typed⟩
  only {r' d} later _ made same := by
    have described (target : HostId) :
        host.Repeats [] False (lookUp target) (host.describeWithin (id :: stack) (.host target)) :=
      describeWithin_repeats_lookUp target
    cases made with
    | scalar registered =>
      simp only at same
      subst same
      rw [later.scalar?, plain] at registered
      cases registered
    | builtin _ => cases same
    | host _ _ built of =>
      rw [of] at same
      cases same
      have again := (build_repeats described id host.types[id] r').again r'
      rw [built] at again
      exact again (.refl host r') (Or.inl ⟨d, rfl⟩)

theorem describeWithin_repeats (stack : List HostId) (type : NamedType) :
    host.Repeats stack True (host.describeWithin stack type) (host.describeWithin stack type) := by
  intro r
  cases uncached : r.find? type with
  | some d =>
    have ran : outcome (host.describeWithin stack type) r = (.ok d, r) := describeWithin_cached uncached
    refine ⟨?_, ?_, fun R covers _ => ?_⟩ <;> rw [ran] at *
    · exact .refl host r
    · exact id
    · exact describeWithin_cached (covers.find? uncached)
  | none =>
    cases scalar : r.scalar? type with
    | some s =>
      apply (describes_scalar scalar).insert_repeats uncached describeWithin_cached
      intro _ covers fresh
      rw [outcome_describeWithin, fresh, covers.scalar?, scalar]
      rfl
    | none =>
      cases type with
      | builtin b =>
        apply (describes_builtin scalar).insert_repeats uncached describeWithin_cached
        intro _ covers fresh
        rw [outcome_describeWithin, fresh, covers.scalar?, scalar]
        rfl
      | host id =>
        by_cases inside : id ∈ stack
        · have ran {r : Registry} (fresh : r.find? (.host id) = none) (plain : r.scalar? (.host id) = none) :
              outcome (host.describeWithin stack (.host id)) r =
                (.error (.recursiveEmbedding (host.typeName (.host id))), r) := by
            rw [outcome_describeWithin, fresh, plain]
            exact if_pos inside
          have here := ran uncached scalar
          refine ⟨?_, ?_, fun R covers cond => ?_⟩ <;> rw [here] at *
          · exact .refl host r
          · exact fun opened => opened
          · obtain ⟨_, failed⟩ | ⟨-, opened⟩ := cond
            · cases failed
            · obtain ⟨fresh, plain⟩ := opened id inside
              exact ran fresh plain
        · by_cases known : id < host.types.length
          · have each (target : HostId) := describeWithin_repeats (id :: stack) (.host target)
            refine (describes_build scalar inside known each).insert_repeats uncached describeWithin_cached
              fun covers fresh => ?_
            rw [outcome_describeWithin, fresh, covers.scalar?, scalar]
            simp only [if_neg inside, dif_pos known]
          · refine (describes_unknown scalar inside known (.unsupportedType "" "it is not a type of the application"))
              |>.insert_repeats uncached describeWithin_cached fun covers fresh => ?_
            rw [outcome_describeWithin, fresh, covers.scalar?, scalar]
            simp only [if_neg inside, dif_neg known]
            rfl
termination_by host.remaining stack
decreasing_by exact Host.remaining_cons_lt known inside

/-- What describing a type comes to, it comes to again in every registry that covers the one it leaves. -/
theorem describe_settles (type : NamedType) : host.Settles (host.describe type) := describeWithin_repeats [] type

theorem describe_caches {type : NamedType} {r r' : Registry} {d : TypeDescriptor}
    (described : outcome (host.describe type) r = (.ok d, r')) : r'.find? type = some d :=
  describeWithin_caches described

end

end Host

end GraphQL
