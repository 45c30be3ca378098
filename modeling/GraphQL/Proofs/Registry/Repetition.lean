import GraphQL.Proofs.Registry.Growth
import GraphQL.Proofs.Registry.Relating

/-!
# Computations that repeat

What a computation on the registry comes to, a result or an error, it may come to again in every registry
that covers the one it leaves, and then leave that as it is. `Host.Repeats` says this of any computation that
describes types, while the types of a stack are being described. It is kept by sequencing, so it holds
of the building of a descriptor as soon as it holds of the types that the descriptor embeds.
-/

namespace GraphQL

namespace Host

/-- The types of a stack are being described: they have no descriptor yet, and are no custom scalars. -/
def Open (stack : List HostId) (r : Registry) : Prop :=
  ∀ id ∈ stack, r.find? (.host id) = none ∧ r.scalar? (.host id) = none

theorem Covers.opens {host : Host} {stack : List HostId} {r R : Registry} (covers : host.Covers r R)
    (opened : Open stack R) : Open stack r := by
  intro id mem
  obtain ⟨fresh, plain⟩ := opened id mem
  rw [covers.scalar?] at plain
  exact ⟨covers.find?_eq_none fresh, plain⟩

section

variable {host : Host} {stack : List HostId} {total : Prop} {ε ε' α β : Type}

/-- The first computation only adds to the registry, and nothing for the types of a stack. The second comes to
the same in every registry that covers what it leaves, without adding to that: if the first succeeded, and also
if it failed provided that failures count and the types of the stack are still without descriptors. -/
structure RepeatsAt (host : Host) (stack : List HostId) (total : Prop) (m m' : ExceptT ε (StateM Registry) α)
    (r : Registry) : Prop where
  grows : host.Later r (outcome m r).2
  leaves : Open stack r → Open stack (outcome m r).2
  again : ∀ R, host.Covers (outcome m r).2 R →
    ((∃ a, (outcome m r).1 = .ok a) ∨ total ∧ Open stack R) → outcome m' R = ((outcome m r).1, R)

/-- The second computation repeats the first wherever that begins. -/
def Repeats (host : Host) (stack : List HostId) (total : Prop) (m m' : ExceptT ε (StateM Registry) α) : Prop :=
  ∀ r, host.RepeatsAt stack total m m' r

/-- The computation comes to the same in every registry that covers what it leaves, whether it succeeds or fails. -/
abbrev Settles (host : Host) (m : ExceptT ε (StateM Registry) α) : Prop := host.Repeats [] True m m

theorem Repeats.later {m m' : ExceptT ε (StateM Registry) α} (repeats : host.Repeats stack total m m') {r r' : Registry}
    {result : Except ε α} (ran : outcome m r = (result, r')) : host.Later r r' := by
  have grows := (repeats r).grows
  rwa [ran] at grows

theorem repeats_pure (a : α) : host.Repeats stack total (pure a : ExceptT ε (StateM Registry) α) (pure a) :=
  fun r => ⟨.refl host r, id, fun _ _ _ => rfl⟩

theorem repeats_throw (e : ε) : host.Repeats stack total (throw e : ExceptT ε (StateM Registry) α) (throw e) :=
  fun r => ⟨.refl host r, id, fun _ _ _ => rfl⟩

theorem repeats_throw_bind (e : ε) (f f' : α → ExceptT ε (StateM Registry) β) :
    host.Repeats stack total (throw e >>= f) (throw e >>= f') :=
  fun r => ⟨.refl host r, id, fun _ _ _ => rfl⟩

/-- Reading the registry repeats if what is done with it depends on nothing that is added. -/
theorem repeats_get {f : Registry → ExceptT ε (StateM Registry) α} (each : ∀ r, host.Repeats stack total (f r) (f r))
    (same : ∀ {r R}, host.Covers r R → f R = f r) : host.Repeats stack total (get >>= f) (get >>= f) := by
  intro r
  have ran (r : Registry) : outcome (get >>= f) r = outcome (f r) r := rfl
  obtain ⟨grows, leaves, again⟩ := each r r
  refine ⟨?_, ?_, fun R covers cond => ?_⟩ <;> rw [ran] at *
  · exact grows
  · exact leaves
  · rw [ran, same (covers.after grows)]
    exact again R covers cond

theorem repeats_lift (result : Except ε α) :
    host.Repeats stack total (liftM result : ExceptT ε (StateM Registry) α) (liftM result) := by
  intro r
  refine ⟨?_, ?_, fun R _ _ => ?_⟩ <;> rw [outcome_lift]
  · exact .refl host r
  · exact id
  · rw [outcome_lift]

theorem Repeats.bind {m m' : ExceptT ε (StateM Registry) α} {f f' : α → ExceptT ε (StateM Registry) β}
    (first : host.Repeats stack total m m') (next : ∀ a, host.Repeats stack total (f a) (f' a)) :
    host.Repeats stack total (m >>= f) (m' >>= f') := by
  intro r
  obtain ⟨grown, leaves, again⟩ := first r
  cases ran : outcome m r with
  | mk result u =>
    rw [ran] at grown leaves again
    cases result with
    | error e =>
      have whole : outcome (m >>= f) r = (.error e, u) := by rw [outcome_bind, ran]
      refine ⟨?_, ?_, fun R covers cond => ?_⟩ <;> rw [whole] at *
      · exact grown
      · exact leaves
      · have same := again R covers (cond.imp_left fun failed => ?_)
        · rw [outcome_bind, same]
        · obtain ⟨_, failed⟩ := failed
          cases failed
    | ok a =>
      have whole : outcome (m >>= f) r = outcome (f a) u := by rw [outcome_bind, ran]
      obtain ⟨grown', leaves', again'⟩ := next a u
      refine ⟨?_, ?_, fun R covers cond => ?_⟩ <;> rw [whole] at *
      · exact grown.trans grown'
      · exact leaves' ∘ leaves
      · rw [outcome_bind, again R (covers.after grown') (Or.inl ⟨a, rfl⟩)]
        exact again' R covers cond

theorem Repeats.map {m m' : ExceptT ε (StateM Registry) α} (f : α → β) (first : host.Repeats stack total m m') :
    host.Repeats stack total (f <$> m) (f <$> m') := by
  rw [← bind_pure_comp, ← bind_pure_comp]
  exact first.bind fun a => repeats_pure (f a)

theorem Repeats.adapt {m m' : ExceptT ε (StateM Registry) α} (f : ε → ε') (inner : host.Repeats stack total m m') :
    host.Repeats stack total (ExceptT.adapt f m) (ExceptT.adapt f m') := by
  intro r
  obtain ⟨grown, leaves, again⟩ := inner r
  refine ⟨?_, ?_, fun R covers cond => ?_⟩ <;> rw [outcome_adapt] at *
  · exact grown
  · exact leaves
  · have cond : (∃ a, (outcome m r).1 = .ok a) ∨ total ∧ Open stack R := by
      apply cond.imp_left
      rintro ⟨_, h⟩
      cases ran : (outcome m r).1 with
      | error e =>
        rw [ran] at h
        cases h
      | ok b => exact ⟨b, rfl⟩
    rw [outcome_adapt, again R covers cond]

theorem repeats_mapM {f f' : α → ExceptT ε (StateM Registry) β} :
    ∀ items : List α, (∀ a ∈ items, host.Repeats stack total (f a) (f' a)) →
      host.Repeats stack total (items.mapM f) (items.mapM f')
  | [], _ => by
    rw [List.mapM_nil, List.mapM_nil]
    exact repeats_pure []
  | a :: rest, each => by
    rw [List.mapM_cons, List.mapM_cons]
    exact (each a List.mem_cons_self).bind fun b =>
      (repeats_mapM rest fun c hc => each c (List.mem_cons_of_mem _ hc)).bind fun bs => repeats_pure (b :: bs)

theorem repeats_forM {f f' : α → ExceptT ε (StateM Registry) PUnit} :
    ∀ items : List α, (∀ a ∈ items, host.Repeats stack total (f a) (f' a)) →
      host.Repeats stack total (items.forM f) (items.forM f')
  | [], _ => repeats_pure _
  | a :: rest, each => by
    change host.Repeats stack total (f a >>= fun _ => rest.forM f) (f' a >>= fun _ => rest.forM f')
    exact (each a List.mem_cons_self).bind fun _ => repeats_forM rest fun c hc => each c (List.mem_cons_of_mem _ hc)

end

/-! ## Building descriptors -/

section

variable {host : Host} {stack : List HostId} {total : Prop} {describe describe' : HostId → RegistryM TypeDescriptor}

/-- Repetition is kept by the steps of building. -/
theorem relates_repeats : Relates fun α (x x' : RegistryM α) => host.Repeats stack total x x' where
  pure := repeats_pure
  fail e _ := repeats_throw_bind e
  lift result _ := repeats_lift result
  bind := Repeats.bind

theorem build_repeats (each : ∀ id, host.Repeats stack total (describe id) (describe' id)) (id : HostId)
    (type : HostType) :
    host.Repeats stack total (build describe id type) (build describe' id type) :=
  relates_repeats.build describe describe' id type fun part _ => each part

end

end Host

end GraphQL
