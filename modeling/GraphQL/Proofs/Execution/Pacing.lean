import GraphQL.Proofs.Execution.Effects
import Mathlib.Data.List.Forall2

/-!
# Executions that go on alike

Executing never looks at the errors it has collected. So two executions go on alike as long as they come
to the same values, even if one of them collects an error on the way and the other does not.
`ExecM.Follows` says this of two computations. A `Pace` says what the two have in common: what is known of the
registry, how the errors compare, and whether the first may panic where the second comes to null. That is what
catching a panic amounts to, since null with an error is followed by what follows null; only a panic that
nothing catches sets the two apart.
-/

namespace GraphQL

/-- Two results that correspond, or one and the same failure. -/
inductive Corresponds {ε α β : Type} (rel : α → β → Prop) : Except ε α → Except ε β → Prop
  | failed (e : ε) : Corresponds rel (.error e) (.error e)
  | ended {a : α} {b : β} (holds : rel a b) : Corresponds rel (.ok a) (.ok b)

namespace Corresponds

variable {ε α β α' β' : Type} {rel : α → β → Prop} {rel' : α' → β' → Prop}

theorem of_ok {a : α} {result : Except ε β} (corresponds : Corresponds rel (.ok a) result) :
    ∃ b, result = .ok b ∧ rel a b := by
  cases corresponds with
  | ended holds => exact ⟨_, rfl, holds⟩

theorem of_error {e : ε} {result : Except ε β} (corresponds : Corresponds rel (.error e) result) :
    result = .error e := by
  cases corresponds
  rfl

theorem refl (result : Except ε α) : Corresponds Eq result result := by
  cases result with
  | error e => exact .failed e
  | ok a => exact .ended rfl

theorem bind {f : α → Except ε α'} {g : β → Except ε β'} {result : Except ε α} {result' : Except ε β}
    (first : Corresponds rel result result') (next : ∀ a b, rel a b → Corresponds rel' (f a) (g b)) :
    Corresponds rel' (result >>= f) (result' >>= g) := by
  cases first with
  | failed e => exact .failed e
  | ended holds => exact next _ _ holds

theorem map {f : α → α'} {g : β → β'} {result : Except ε α} {result' : Except ε β}
    (corresponds : Corresponds rel result result') (each : ∀ a b, rel a b → rel' (f a) (g b)) :
    Corresponds rel' (result.map f) (result'.map g) := by
  cases corresponds with
  | failed e => exact .failed e
  | ended holds => exact .ended (each _ _ holds)

end Corresponds

theorem forall₂_getElem? {α β : Type} {rel : α → β → Prop} {as : List α} {bs : List β} (each : List.Forall₂ rel as bs)
    (i : Nat) : Option.Rel rel as[i]? bs[i]? := by
  induction each generalizing i with
  | nil => exact .none
  | cons first _ ih =>
    cases i with
    | zero => exact .some first
    | succ i => exact ih i

theorem map_eq_of_forall₂ {α β γ : Type} {rel : α → β → Prop} {as : List α} {bs : List β} {f : α → γ} {g : β → γ}
    (each : List.Forall₂ rel as bs) (same : ∀ a b, rel a b → g b = f a) : bs.map g = as.map f := by
  induction each with
  | nil => rfl
  | cons first _ ih => rw [List.map_cons, List.map_cons, same _ _ first, ih]

/-! ## Paces -/

/-- What two executions have in common that come to the same values. -/
structure Pace (host : Host) where
  /-- What is known of the registry, which is the same in both. -/
  knows : Registry → Prop
  reachable : ∀ {r}, knows r → host.Reachable r
  later : ∀ {r r'}, knows r → host.Later r r' → knows r'
  /-- How the errors that were collected compare. -/
  errors : List ResponseError → List ResponseError → Prop
  push : ∀ {es es'} (e : ResponseError), errors es es' → errors (es ++ [e]) (es' ++ [e])
  /-- The first execution may panic where the second comes to null. -/
  forgives : Prop
  forgive : forgives → ∀ {es es'} (e : ResponseError), errors es es' → errors (es ++ [e]) es'

/-- The type is described so in a registry that is known as the pace says. -/
def Pace.Describes {host : Host} (pace : Pace host) (type : NamedType) (d : TypeDescriptor) : Prop :=
  ∃ r, pace.knows r ∧ r.find? type = some d

/-- What host code comes to in both executions. -/
inductive Pace.Reads {host : Host} (pace : Pace host) (rel : Resolved → Resolved → Prop) :
    Except Failure Resolved → Except Failure Resolved → Prop
  | failed (failure : Failure) : Reads pace rel (.error failure) (.error failure)
  | read {value value' : Resolved} (holds : rel value value') : Reads pace rel (.ok value) (.ok value')
  | panicked (forgives : pace.forgives) {message : String} : Reads pace rel (.error (.panic message)) (.ok .null)

theorem Pace.Reads.of_ok {host : Host} {pace : Pace host} {rel : Resolved → Resolved → Prop} {value : Resolved}
    {reading : Except Failure Resolved} (reads : pace.Reads rel (.ok value) reading) :
    ∃ value', reading = .ok value' ∧ rel value value' := by
  cases reads with
  | read holds => exact ⟨_, rfl, holds⟩

/-- The state without what executing never looks at. -/
def ExecutionState.bare (s : ExecutionState) : ExecutionState := { s with errors := [], journal := [], events := [] }

/-- Two states that executing cannot tell apart. -/
structure ExecutionState.Paced {host : Host} (pace : Pace host) (s t : ExecutionState) : Prop where
  bare : s.bare = t.bare
  errors : pace.errors s.errors t.errors
  known : pace.knows s.registry

namespace ExecutionState.Paced

variable {host : Host} {pace : Pace host} {s t : ExecutionState}

theorem registry (paced : s.Paced pace t) : t.registry = s.registry :=
  (congrArg ExecutionState.registry paced.bare).symm

theorem slots (paced : s.Paced pace t) : t.slots = s.slots := (congrArg ExecutionState.slots paced.bare).symm

theorem cancelled (paced : s.Paced pace t) : t.cancelled = s.cancelled :=
  (congrArg ExecutionState.cancelled paced.bare).symm

theorem complexity (paced : s.Paced pace t) : t.complexity = s.complexity :=
  (congrArg ExecutionState.complexity paced.bare).symm

/-- A change of what executing looks at. -/
theorem change (paced : s.Paced pace t) (f : ExecutionState → ExecutionState)
    (same : ∀ u, (f u).bare = (f u.bare).bare) (quiet : ∀ u, (f u).errors = u.errors)
    (kept : ∀ u, (f u).registry = u.registry) : (f s).Paced pace (f t) where
  bare := by rw [same s, same t, paced.bare]
  errors := by
    rw [quiet, quiet]
    exact paced.errors
  known := by
    rw [kept]
    exact paced.known

end ExecutionState.Paced

namespace ExecM

section

variable {host : Host} {pace : Pace host} {α β α' β' : Type} {rel : α → β → Prop} {rel' : α' → β' → Prop}

/-- The first computation has crashed, or both have ended alike. -/
inductive Paces (pace : Pace host) (rel : α → β → Prop) :
    Except Abort α × ExecutionState → Except Abort β × ExecutionState → Prop
  | crashed (forgives : pace.forgives) {message : String} {s : ExecutionState}
    {other : Except Abort β × ExecutionState} : Paces pace rel (.error (.breakdown (.crash message)), s) other
  | failed {e : Abort} {s t : ExecutionState} (paced : s.Paced pace t) : Paces pace rel (.error e, s) (.error e, t)
  | ended {a : α} {b : β} {s t : ExecutionState} (holds : rel a b) (paced : s.Paced pace t) :
    Paces pace rel (.ok a, s) (.ok b, t)

/-- From states that cannot be told apart, the second computation ends like the first. -/
def Follows (pace : Pace host) (rel : α → β → Prop) (m : ExecM α) (m' : ExecM β) : Prop :=
  ∀ s t, s.Paced pace t → Paces pace rel (outcome m s) (outcome m' t)

theorem follows_pure {a : α} {b : β} (holds : rel a b) : Follows pace rel (pure a) (pure b) :=
  fun _ _ paced => .ended holds paced

theorem follows_throw (e : Abort) : Follows pace rel (throw e) (throw e) := fun _ _ paced => .failed paced

theorem follows_crash (forgives : pace.forgives) (message : String) (m' : ExecM β) :
    Follows pace rel (throw (.breakdown (.crash message))) m' :=
  fun _ _ _ => .crashed forgives

theorem Follows.bind {m : ExecM α} {m' : ExecM β} {f : α → ExecM α'} {f' : β → ExecM β'}
    (first : Follows pace rel m m') (next : ∀ a b, rel a b → Follows pace rel' (f a) (f' b)) :
    Follows pace rel' (m >>= f) (m' >>= f') := by
  intro s t paced
  have paces := first s t paced
  rw [outcome_bind, outcome_bind]
  cases ran : outcome m s with
  | mk result u =>
    cases ran' : outcome m' t with
    | mk result' u' =>
      rw [ran, ran'] at paces
      cases paces with
      | crashed forgives => exact .crashed forgives
      | failed paced => exact .failed paced
      | ended holds paced => exact next _ _ holds _ _ paced

theorem Follows.mono {m : ExecM α} {m' : ExecM β} {weaker : α → β → Prop} (follows : Follows pace rel m m')
    (imp : ∀ a b, rel a b → weaker a b) : Follows pace weaker m m' := by
  intro s t paced
  have paces := follows s t paced
  cases ran : outcome m s with
  | mk result u =>
    cases ran' : outcome m' t with
    | mk result' u' =>
      rw [ran, ran'] at paces
      cases paces with
      | crashed forgives => exact .crashed forgives
      | failed paced => exact .failed paced
      | ended holds paced => exact .ended (imp _ _ holds) paced

theorem follows_ofExcept (result : Except ResponseError α) : Follows pace Eq (ofExcept result) (ofExcept result) := by
  cases result with
  | error e => exact follows_throw _
  | ok a => exact follows_pure rfl

/-- What depends on the state only. -/
theorem follows_get {f : ExecutionState → ExecM α} {f' : ExecutionState → ExecM β}
    (each : ∀ s t, s.Paced pace t → Follows pace rel (f s) (f' t)) : Follows pace rel (get >>= f) (get >>= f') :=
  fun s t paced => each s t paced s t paced

theorem follows_modify (f : ExecutionState → ExecutionState) (same : ∀ u, (f u).bare = (f u.bare).bare)
    (quiet : ∀ u, (f u).errors = u.errors) (kept : ∀ u, (f u).registry = u.registry) :
    Follows pace (fun _ _ => True) (modify f : ExecM PUnit) (modify f : ExecM PUnit) :=
  fun _ _ paced => .ended trivial (paced.change f same quiet kept)

theorem follows_note (event event' : ExecutionEvent) : Follows pace (fun _ _ => True) (note event) (note event') :=
  fun _ _ paced => .ended trivial ⟨paced.bare, paced.errors, paced.known⟩

/-- An event of the second computation alone. -/
theorem Follows.noted {m : ExecM α} {m' : ExecM β} (follows : Follows pace rel m m') (event : ExecutionEvent) :
    Follows pace rel m (note event >>= fun _ => m') :=
  fun s t paced => follows s { t with events := event :: t.events } ⟨paced.bare, paced.errors, paced.known⟩

theorem follows_pushError (e : ResponseError) : Follows pace Eq (pushError e) (pushError e) :=
  fun _ _ paced => .ended rfl ⟨paced.bare, pace.push e paced.errors, paced.known⟩

/-- Null with an error goes on like null without. -/
theorem pushError_follows_null (forgives : pace.forgives) (e : ResponseError) :
    Follows pace Eq (pushError e) (pure .null) :=
  fun _ _ paced => .ended rfl ⟨paced.bare, pace.forgive forgives e paced.errors, paced.known⟩

theorem follows_checkCancelled : Follows pace Eq checkCancelled checkCancelled := by
  refine follows_get fun s t paced => ?_
  rw [paced.cancelled]
  split
  · exact follows_throw _
  · exact follows_pure rfl

/-- Two computations on the registry that do the same to it. -/
theorem follows_onRegistry {ε ε' : Type} {m : ExceptT ε (StateM Registry) α} {m' : ExceptT ε' (StateM Registry) β}
    {rel : Except ε α → Except ε' β → Prop}
    (each : ∀ r, pace.knows r → rel (outcome m r).1 (outcome m' r).1 ∧ (outcome m' r).2 = (outcome m r).2 ∧
      host.Later r (outcome m r).2) : Follows pace rel (onRegistry m.run) (onRegistry m'.run) := by
  intro s t paced
  rw [outcome_onRegistry, outcome_onRegistry, paced.registry]
  obtain ⟨holds, same, later⟩ := each s.registry paced.known
  refine .ended holds ⟨?_, paced.errors, pace.later paced.known later⟩
  rw [same]
  exact congrArg (fun u : ExecutionState => { u with registry := (outcome m s.registry).2 }) paced.bare

/-- Items one after the other. -/
theorem follows_mapM {γ γ' : Type} {f : γ → ExecM α} {f' : γ' → ExecM β} {items : List γ} {items' : List γ'}
    (each : List.Forall₂ (fun a a' => Follows pace rel (f a) (f' a')) items items') :
    Follows pace (List.Forall₂ rel) (items.mapM f) (items'.mapM f') := by
  induction each with
  | nil =>
    rw [List.mapM_nil, List.mapM_nil]
    exact follows_pure .nil
  | cons first _ ih =>
    rw [List.mapM_cons, List.mapM_cons]
    exact first.bind fun _ _ holds => ih.bind fun _ _ others => follows_pure (.cons holds others)

end

end ExecM

end GraphQL
