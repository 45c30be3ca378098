import GraphQL.Proofs.Execution.Effects

/-!
# What computations rest on

Requests describe types as they go, so what they come to depends on the registry. A `Footing` says in which
registries they run, which types they describe, and which other registries may stand in for theirs; it is firm
if describing those types comes to the same there. What a firm footing carries comes to the same in every
registry that stands in for the one it leaves: one lemma for each way of building a computation, whether it
works on a registry or on a state that holds one.
-/

namespace GraphQL

/-- A construction takes fields only at types that satisfy a condition. -/
inductive Construction.TakesWithin (within : TypeRef → Prop) : Construction → Prop
  | done (result : Except Failure (Entries Resolved)) : TakesWithin within (.done result)
  | take {name : String} {type : TypeRef} {next : Resolved → Construction} (there : within type)
    (rest : ∀ value, TakesWithin within (next value)) : TakesWithin within (.take name type next)
  | ifGiven {name : String} {next : Bool → Construction} (rest : ∀ given, TakesWithin within (next given)) :
    TakesWithin within (.ifGiven name next)
  | typeName {next : String → Construction} (rest : ∀ name, TakesWithin within (next name)) :
    TakesWithin within (.typeName next)

theorem Construction.TakesWithin.mono {within wider : TypeRef → Prop} {construction : Construction}
    (takes : construction.TakesWithin within) (imp : ∀ type, within type → wider type) :
    construction.TakesWithin wider := by
  induction takes with
  | done result => exact .done result
  | take there _ ih => exact .take (imp _ there) ih
  | ifGiven _ ih => exact .ifGiven ih
  | typeName _ ih => exact .typeName ih

/-- What computations that describe types rest on. -/
structure Footing where
  /-- The registries in which they run. -/
  sound : Registry → Prop
  /-- The second registry stands in for the first. -/
  standsIn : Registry → Registry → Prop
  /-- The types that they describe. -/
  covers : NamedType → Prop
  /-- How describing may fail. -/
  refuses : RegistrationError → Prop

/-- The second footing covers all types that the first covers. -/
def Footing.Widens (f g : Footing) : Prop := ∀ type, f.covers type → g.covers type

/-- States that hold a registry. -/
class HoldsRegistry (σ : Type) where
  registry : σ → Registry
  /-- The state with another registry. -/
  on : σ → Registry → σ

instance : HoldsRegistry Registry where
  registry r := r
  on _ R := R

instance : HoldsRegistry ExecutionState where
  registry s := s.registry
  on s R := { s with registry := R }

namespace Footing

open HoldsRegistry

section

variable {σ ε ε' α β : Type} [HoldsRegistry σ]

/-- From a state, the computation leaves a sound registry, its result or failure satisfies a condition, and with
every registry that stands in for the one it leaves it comes to the same and leaves that registry as it is. -/
structure CarriesAt (f : Footing) (m : ExceptT ε (StateM σ) α) (post : α → Prop) (fails : ε → Prop) (s : σ) : Prop where
  sound : f.sound (registry (outcome m s).2)
  gives : ∀ a, (outcome m s).1 = .ok a → post a
  fails : ∀ e, (outcome m s).1 = .error e → fails e
  again : ∀ R, f.standsIn (registry (outcome m s).2) R →
    f.standsIn (registry s) R ∧ outcome m (on s R) = ((outcome m s).1, on (outcome m s).2 R)

/-- The same of a computation that does not fail. -/
structure KeepsAt (f : Footing) (run : σ → β × σ) (s : σ) : Prop where
  sound : f.sound (registry (run s).2)
  again : ∀ R, f.standsIn (registry (run s).2) R →
    f.standsIn (registry s) R ∧ run (on s R) = ((run s).1, on (run s).2 R)

/-- The footing carries the computation wherever it begins. -/
def Carries (f : Footing) (m : ExceptT ε (StateM σ) α) (post : α → Prop) (fails : ε → Prop) : Prop :=
  ∀ s, f.sound (registry s) → f.CarriesAt m post fails s

/-- Nothing needs to be known of what the computation comes to. -/
abbrev Bears (f : Footing) (m : ExceptT ε (StateM σ) α) : Prop := f.Carries m (fun _ => True) fun _ => True

/-- A type of which input may be read: builtin ones are not described for it. -/
def Reads (f : Footing) (type : TypeRef) : Prop := ∀ id, type.namedType = .host id → f.covers (.host id)

/-- The descriptor of a type refers to types that are covered, and so does the construction of an input object. -/
structure Fits (f : Footing) (host : Host) (type : NamedType) (d : TypeDescriptor) : Prop where
  references : ∀ other ∈ d.references, f.covers other
  takes : ∀ id, type = .host id → ∀ fields, d.kind = .inputObject fields → (host.construction id).TakesWithin f.Reads

/-- Describing the types that are covered is carried, and a registry that stands in has the same custom scalars. -/
structure Firm (f : Footing) (host : Host) : Prop where
  scalar? {r R : Registry} (standsIn : f.standsIn r R) (type : NamedType) : R.scalar? type = r.scalar? type
  describes {type : NamedType} (covered : f.covers type) : f.Carries (host.describe type) (f.Fits host type) f.refuses

variable {f : Footing} {m : ExceptT ε (StateM σ) α} {post post' : α → Prop} {fails fails' : ε → Prop}

theorem CarriesAt.keeps {s : σ} (carries : f.CarriesAt m post fails s) : f.KeepsAt (outcome m) s :=
  ⟨carries.sound, carries.again⟩

/-- One computation after the other. -/
theorem KeepsAt.then_ {γ : Type} {run : σ → α × σ} {next : α → σ → γ × σ} {s : σ} (first : f.KeepsAt run s)
    (rest : f.KeepsAt (next (run s).1) (run s).2) : f.KeepsAt (fun s => next (run s).1 (run s).2) s := by
  refine ⟨rest.sound, fun R standsIn => ?_⟩
  obtain ⟨between, same⟩ := rest.again R standsIn
  obtain ⟨before, same'⟩ := first.again R between
  refine ⟨before, ?_⟩
  rw [same']
  exact same

theorem Carries.mono (carries : f.Carries m post fails) (imp : ∀ a, post a → post' a)
    (imp' : ∀ e, fails e → fails' e) : f.Carries m post' fails' := by
  intro s sound
  obtain ⟨kept, gives, fail, again⟩ := carries s sound
  exact ⟨kept, fun a ok => imp a (gives a ok), fun e error => imp' e (fail e error), again⟩

theorem Carries.bears (carries : f.Carries m post fails) : f.Bears m :=
  carries.mono (fun _ _ => trivial) fun _ _ => trivial

theorem carries_pure {a : α} (holds : post a) : f.Carries (pure a : ExceptT ε (StateM σ) α) post fails := by
  intro s sound
  refine ⟨sound, fun b ok => ?_, fun e error => ?_, fun R standsIn => ⟨standsIn, rfl⟩⟩
  · cases ok
    exact holds
  · cases error

theorem carries_throw {e : ε} (fail : fails e) : f.Carries (throw e : ExceptT ε (StateM σ) α) post fails := by
  intro s sound
  refine ⟨sound, fun b ok => ?_, fun e' error => ?_, fun R standsIn => ⟨standsIn, rfl⟩⟩
  · cases ok
  · cases error
    exact fail

theorem bears_pure (a : α) : f.Bears (pure a : ExceptT ε (StateM σ) α) := carries_pure trivial

theorem bears_throw (e : ε) : f.Bears (throw e : ExceptT ε (StateM σ) α) := carries_throw trivial

theorem Carries.bind {g : α → ExceptT ε (StateM σ) β} {post' : β → Prop} (first : f.Carries m post fails)
    (next : ∀ a, post a → f.Carries (g a) post' fails) : f.Carries (m >>= g) post' fails := by
  intro s sound
  obtain ⟨kept, gives, fail, again⟩ := first s sound
  cases ran : outcome m s with
  | mk result t =>
    rw [ran] at kept gives fail again
    cases result with
    | error e =>
      have whole : outcome (m >>= g) s = (.error e, t) := by rw [outcome_bind, ran]
      refine ⟨?_, ?_, ?_, ?_⟩ <;> rw [whole]
      · exact kept
      · intro b ok
        cases ok
      · intro e' error
        cases error
        exact fail e rfl
      · intro R standsIn
        obtain ⟨before, same⟩ := again R standsIn
        exact ⟨before, by rw [outcome_bind, same]⟩
    | ok a =>
      have whole : outcome (m >>= g) s = outcome (g a) t := by rw [outcome_bind, ran]
      obtain ⟨kept', gives', fail', again'⟩ := next a (gives a rfl) t kept
      refine ⟨?_, ?_, ?_, ?_⟩ <;> rw [whole]
      · exact kept'
      · exact gives'
      · exact fail'
      · intro R standsIn
        obtain ⟨between, same'⟩ := again' R standsIn
        obtain ⟨before, same⟩ := again R between
        exact ⟨before, by rw [outcome_bind, same]; exact same'⟩

/-- Nothing follows a failure. -/
theorem carries_throw_bind {e : ε} {g : α → ExceptT ε (StateM σ) β} {post' : β → Prop} (fail : fails e) :
    f.Carries (throw e >>= g) post' fails := by
  intro s sound
  refine ⟨sound, fun b ok => ?_, fun e' error => ?_, fun R standsIn => ⟨standsIn, rfl⟩⟩
  · cases ok
  · cases error
    exact fail

/-- What nothing needs to be known of before the rest. -/
theorem Carries.then_ {n : ExceptT ε (StateM σ) β} {post' : β → Prop} (first : f.Carries m post fails)
    (rest : f.Carries n post' fails) : f.Carries (m >>= fun _ => n) post' fails :=
  first.bind fun _ _ => rest

theorem Carries.map {post' : β → Prop} (g : α → β) (inner : f.Carries m post fails)
    (imp : ∀ a, post a → post' (g a)) : f.Carries (g <$> m) post' fails := by
  rw [← bind_pure_comp]
  exact inner.bind fun a holds => carries_pure (imp a holds)

theorem carries_lift {result : Except ε α} (holds : ∀ a, result = .ok a → post a)
    (fail : ∀ e, result = .error e → fails e) :
    f.Carries (liftM result : ExceptT ε (StateM σ) α) post fails := by
  cases result with
  | ok a => exact carries_pure (holds a rfl)
  | error e => exact carries_throw (fail e rfl)

theorem bears_lift (result : Except ε α) : f.Bears (liftM result : ExceptT ε (StateM σ) α) :=
  carries_lift (fun _ _ => trivial) fun _ _ => trivial

/-- What depends on the state is the same with a registry that stands in. -/
theorem carries_get {g : σ → ExceptT ε (StateM σ) α} (each : ∀ s, f.Carries (g s) post fails)
    (same : ∀ s R, f.standsIn (registry s) R → g (on s R) = g s) : f.Carries (get >>= g) post fails := by
  intro s sound
  have ran (s : σ) : outcome (get >>= g) s = outcome (g s) s := rfl
  obtain ⟨kept, gives, fail, again⟩ := each s s sound
  refine ⟨?_, ?_, ?_, ?_⟩ <;> rw [ran]
  · exact kept
  · exact gives
  · exact fail
  · intro R standsIn
    obtain ⟨before, again⟩ := again R standsIn
    refine ⟨before, ?_⟩
    rw [ran, same s R before, again]

/-- A change of the state that does not concern the registry. -/
theorem bears_modify {g : σ → σ} (keeps : ∀ s, registry (g s) = registry s) (same : ∀ s R, g (on s R) = on (g s) R) :
    f.Bears (modify g : ExceptT ε (StateM σ) Unit) := by
  intro s sound
  refine ⟨?_, fun _ _ => trivial, fun _ _ => trivial, fun R standsIn => ?_⟩
  · rw [outcome_modify, keeps]
    exact sound
  · rw [outcome_modify] at standsIn ⊢
    rw [keeps] at standsIn
    exact ⟨standsIn, by rw [outcome_modify, same]⟩

theorem Carries.adapt {fails' : ε' → Prop} (g : ε → ε') (inner : f.Carries m post fails)
    (imp : ∀ e, fails e → fails' (g e)) : f.Carries (ExceptT.adapt g m) post fails' := by
  intro s sound
  obtain ⟨kept, gives, fail, again⟩ := inner s sound
  refine ⟨?_, ?_, ?_, ?_⟩ <;> rw [outcome_adapt]
  · exact kept
  · intro a ok
    cases ran : (outcome m s).1 with
    | error e =>
      rw [ran] at ok
      cases ok
    | ok b =>
      rw [ran] at ok
      cases ok
      exact gives _ ran
  · intro e error
    cases ran : (outcome m s).1 with
    | error e' =>
      rw [ran] at error
      cases error
      exact imp e' (fail e' ran)
    | ok b =>
      rw [ran] at error
      cases error
  · intro R standsIn
    obtain ⟨before, same⟩ := again R standsIn
    exact ⟨before, by rw [outcome_adapt, same]⟩

theorem carries_mapM {κ : Type} {g : κ → ExceptT ε (StateM σ) β} {each : β → Prop} :
    ∀ items : List κ, (∀ k ∈ items, f.Carries (g k) each fails) →
      f.Carries (items.mapM g) (fun all => ∀ b ∈ all, each b) fails
  | [], _ => by
    rw [List.mapM_nil]
    exact carries_pure (List.forall_mem_nil _)
  | k :: rest, carries => by
    obtain ⟨first, others⟩ := List.forall_mem_cons.1 carries
    rw [List.mapM_cons]
    exact first.bind fun b holds => (carries_mapM rest others).bind fun bs all =>
      carries_pure (List.forall_mem_cons.2 ⟨holds, all⟩)

theorem carries_forM {κ : Type} {g : κ → ExceptT ε (StateM σ) Unit} :
    ∀ items : List κ, (∀ k ∈ items, f.Carries (g k) (fun _ => True) fails) →
      f.Carries (items.forM g) (fun _ => True) fails
  | [], _ => carries_pure trivial
  | k :: rest, carries => by
    obtain ⟨first, others⟩ := List.forall_mem_cons.1 carries
    exact Carries.then_ first (carries_forM rest others)

theorem bears_mapM {κ : Type} {g : κ → ExceptT ε (StateM σ) β} {items : List κ} (each : ∀ k ∈ items, f.Bears (g k)) :
    f.Bears (items.mapM g) :=
  (carries_mapM items each).bears

end

/-! ## Executions -/

section

variable {f : Footing} {ε α : Type} {post : α → Prop} {fails : ε → Prop}

/-- A computation on the registry as part of an execution. -/
theorem Carries.onRegistry {m : ExceptT ε (StateM Registry) α} (carries : f.Carries m post fails) :
    f.Carries (ExecM.onRegistry m.run)
      (fun result => (∀ a, result = .ok a → post a) ∧ ∀ e, result = .error e → fails e) fun _ => True := by
  intro s sound
  obtain ⟨kept, gives, fail, again⟩ := carries s.registry sound
  refine ⟨kept, fun result ok => ?_, fun _ _ => trivial, fun R standsIn => ?_⟩
  · cases ok
    exact ⟨gives, fail⟩
  · obtain ⟨before, same⟩ := again R standsIn
    refine ⟨before, ?_⟩
    change outcome m R = ((outcome m s.registry).1, R) at same
    rw [ExecM.outcome_onRegistry, ExecM.outcome_onRegistry]
    change ((.ok (outcome m R).1 : Except Abort _), ({ s with registry := (outcome m R).2 } : ExecutionState)) = _
    rw [same]
    rfl

theorem carries_ofExcept {result : Except ResponseError α} (holds : ∀ a, result = .ok a → post a) :
    f.Carries (ExecM.ofExcept result) post fun _ => True := by
  cases result with
  | ok a => exact carries_pure (holds a rfl)
  | error e => exact carries_throw trivial

theorem bears_checkCancelled : f.Bears ExecM.checkCancelled := by
  unfold ExecM.checkCancelled
  refine carries_get (fun s => ?_) fun _ _ _ => rfl
  split
  · exact carries_throw trivial
  · exact carries_pure trivial

theorem bears_note (event : ExecutionEvent) : f.Bears (ExecM.note event) :=
  bears_modify (fun _ => rfl) fun _ _ => rfl

theorem bears_pushError (e : ResponseError) : f.Bears (ExecM.pushError e) := by
  unfold ExecM.pushError
  refine Carries.then_ (bears_modify ?_ ?_) (carries_pure trivial)
  · exact fun _ => rfl
  · exact fun _ _ => rfl

theorem bears_fieldError (message : String) (code : ErrorCode) (field : FieldPlan) (path : ErrorPath) :
    f.Bears (ExecM.fieldError message code field path) := bears_pushError _

theorem bears_hostError (e : HostError) (code : ErrorCode) (field : FieldPlan) (path : ErrorPath) :
    f.Bears (ExecM.hostError e code field path) := bears_pushError _

end

end Footing

end GraphQL
