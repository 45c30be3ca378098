import GraphQL.Proofs.Execution.Conduct

/-!
# Executions that go the same way

An execution under other limits goes the same way as long as no guard sets them apart. `ExecM.Reproduces`
says this of two computations, one in each: if where the second begins all is described already that is so
where the first ends, the second ends like the first. `Leeway` bounds how they may differ: some failures of the
first are excused, and the second may keep fewer items of lists and the errors of those only. There is one
lemma for each way of building a computation.
-/

namespace GraphQL

/-- How an execution may differ from another. -/
structure Leeway where
  /-- The failures of the first after which the second may do anything. -/
  excuse : Abort → Prop
  /-- How many items of a list the second keeps; zero means all. -/
  kept : Nat

/-- Some failures are excused, and all items are kept. -/
def Leeway.excusing (excuse : Abort → Prop) : Leeway := ⟨excuse, 0⟩

/-- At most so many items of a list, or all if the number is zero. -/
def upTo {α : Type} (n : Nat) (items : List α) : List α := if n = 0 then items else items.take n

/-- Whether lists that keep so many items keep what the path leads to. -/
def ErrorPath.isKept (n : Nat) (path : ErrorPath) : Bool :=
  path.all fun
    | .key _ => true
    | .index i => n = 0 || i < n

/-- Whether lists that keep so many items keep the place of an error. -/
def ResponseError.isKept (n : Nat) (e : ResponseError) : Bool := e.path.all (·.isKept n)

theorem ErrorPath.isKept_zero (path : ErrorPath) : path.isKept 0 = true := by
  refine List.all_eq_true.2 fun segment _ => ?_
  cases segment <;> rfl

theorem ResponseError.isKept_zero (e : ResponseError) : e.isKept 0 = true := by
  unfold isKept
  cases e.path with
  | none => rfl
  | some path => exact path.isKept_zero

/-- Lists that keep all items keep all errors. -/
theorem filter_isKept_zero (errors : List ResponseError) : errors.filter (·.isKept 0) = errors :=
  List.filter_eq_self.2 fun e _ => e.isKept_zero

namespace Leeway

variable {α : Type} {w : Leeway}

/-- A check of the second execution beside that of the first. -/
inductive Permits (w : Leeway) : Except ResponseError α → Except ResponseError α → Prop
  | same (result : Except ResponseError α) : Permits w result result
  | excused {e : ResponseError} {other : Except ResponseError α} (excuse : w.excuse (.error e)) :
    Permits w (.error e) other

theorem Permits.bind {β : Type} {first first' : Except ResponseError α} {next next' : α → Except ResponseError β}
    (permits : w.Permits first first') (each : ∀ a, first = .ok a → w.Permits (next a) (next' a)) :
    w.Permits (first >>= next) (first' >>= next') := by
  cases permits with
  | excused excuse => exact .excused excuse
  | same =>
    cases first with
    | error e => exact .same _
    | ok a => exact each a rfl

end Leeway

/-- What the first execution does and the second leaves out: its errors are not kept, and it fails only with an
excuse. -/
def Conduct.leftOut (w : Leeway) : Conduct where
  fails := w.excuse
  collects e := e.isKept w.kept = false
  runs _ := True

namespace ExecM

section

variable {host : Host} {R : Registry} {w : Leeway} {α β α' β' ε : Type} {rel : α → β → Prop} {rel' : α' → β' → Prop}

/-- How the second computation has ended, from a state `t`, after the first from a state `s`. -/
inductive Retraces (w : Leeway) (rel : α → β → Prop) (s t : ExecutionState) :
    Except Abort α × ExecutionState → Except Abort β × ExecutionState → Prop
  | excused {abort : Abort} {s' : ExecutionState} {other : Except Abort β × ExecutionState} (excuse : w.excuse abort) :
    Retraces w rel s t (.error abort, s') other
  | failed {abort : Abort} {s' t' : ExecutionState} : Retraces w rel s t (.error abort, s') (.error abort, t')
  | came {a : α} {b : β} {registry : Registry} {errors : List ResponseError} {events events' : List ExecutionEvent}
    (holds : rel a b) :
    Retraces w rel s t (.ok a, s.after registry errors events)
      (.ok b, t.after t.registry (errors.filter (·.isKept w.kept)) events')

/-- The computation only adds to the registry. -/
def Grows (host : Host) (m : ExecM α) : Prop := ∀ s, host.Later s.registry (outcome m s).2.registry

/-- Where no request is cancelled, the second computation ends like the first if it begins with a registry that
covers the one of the first. -/
structure Reproduces (host : Host) (R : Registry) (w : Leeway) (m : ExecM α) (m' : ExecM β) (rel : α → β → Prop) :
    Prop where
  grows : Grows host m
  again : ∀ s t : ExecutionState, s.cancelled = false → t.cancelled = false → t.registry = R →
    host.Covers (outcome m s).2.registry R → Retraces w rel s t (outcome m s) (outcome m' t)

theorem Reproduces.mono {m : ExecM α} {m' : ExecM β} {weaker : α → β → Prop} (reproduces : Reproduces host R w m m' rel)
    (imp : ∀ a b, rel a b → weaker a b) : Reproduces host R w m m' weaker := by
  refine ⟨reproduces.grows, fun s t calm calm' types covers => ?_⟩
  cases ran : outcome m s with
  | mk result s' =>
    cases ran' : outcome m' t with
    | mk result' t' =>
      have retraces := reproduces.again s t calm calm' types covers
      rw [ran, ran'] at retraces
      cases retraces with
      | excused excuse => exact .excused excuse
      | failed => exact .failed
      | came holds => exact .came (imp _ _ holds)

theorem grows_bind {m : ExecM α} {f : α → ExecM α'} (first : Grows host m) (next : ∀ a, Grows host (f a)) :
    Grows host (m >>= f) := by
  intro s
  rw [outcome_bind]
  have grown := first s
  cases ran : outcome m s with
  | mk result u =>
    rw [ran] at grown
    cases result with
    | error abort => exact grown
    | ok a => exact Host.Later.trans grown (next a u)

theorem Reproduces.bind {m : ExecM α} {m' : ExecM β} {f : α → ExecM α'} {f' : β → ExecM β'}
    (first : Reproduces host R w m m' rel) (grows : ∀ a, Grows host (f a))
    (next : ∀ a b, rel a b → Reproduces host R w (f a) (f' b) rel') :
    Reproduces host R w (m >>= f) (m' >>= f') rel' := by
  refine ⟨grows_bind first.grows grows, fun s t calm calm' types covers => ?_⟩
  rw [outcome_bind] at covers
  rw [outcome_bind, outcome_bind]
  have retraces := first.again s t calm calm' types
  cases ran : outcome m s with
  | mk result u =>
    cases ran' : outcome m' t with
    | mk result' u' =>
      rw [ran, ran'] at retraces
      rw [ran] at covers
      have before : host.Covers u.registry R := by
        cases result with
        | error abort => exact covers
        | ok a => exact Host.Covers.after covers (grows a u)
      cases retraces before with
      | excused excuse => exact .excused excuse
      | failed => exact .failed
      | @came a b registry es evs evs' holds =>
        have retraces' := (next a b holds).again (s.after registry es evs)
          (t.after t.registry (es.filter (·.isKept w.kept)) evs') calm calm' types covers
        simp only
        cases ran : outcome (f a) (s.after registry es evs) with
        | mk result v =>
          cases ran' : outcome (f' b) (t.after t.registry (es.filter (·.isKept w.kept)) evs') with
          | mk result' v' =>
            rw [ran, ran'] at retraces'
            cases retraces' with
            | excused excuse => exact .excused excuse
            | failed => exact .failed
            | came holds =>
              rw [ExecutionState.after_after, ExecutionState.after_after, ← List.filter_append]
              exact .came holds

/-- What both go on with is the same, and something is known of it. -/
theorem Reproduces.bind_same {m m' : ExecM α} {known : α → Prop} {f : α → ExecM α'} {f' : α → ExecM β'}
    (first : Reproduces host R w m m' fun a b => b = a ∧ known a)
    (next : ∀ a, Reproduces host R w (f a) (f' a) fun c d => known a → rel' c d) :
    Reproduces host R w (m >>= f) (m' >>= f') rel' := by
  refine first.bind (fun a => (next a).grows) fun a b same => ?_
  obtain ⟨rfl, holds⟩ := same
  exact (next b).mono fun _ _ imp => imp holds

/-- A check before the rest. -/
theorem Reproduces.then_ {m m' : ExecM PUnit} {n : ExecM α} {n' : ExecM β} {any : PUnit → PUnit → Prop}
    (check : Reproduces host R w m m' any) (rest : Reproduces host R w n n' rel) :
    Reproduces host R w (m >>= fun _ => n) (m' >>= fun _ => n') rel :=
  check.bind (fun _ => rest.grows) fun _ _ _ => rest

theorem grows_pure (a : α) : Grows host (pure a) := fun _ => .refl _ _

theorem reproduces_pure {a : α} {b : β} (holds : rel a b) : Reproduces host R w (pure a) (pure b) rel := by
  refine ⟨grows_pure a, fun s t _ _ _ _ => ?_⟩
  have came : Retraces w rel s t (.ok a, s.after s.registry [] []) (.ok b, t.after t.registry [] []) := .came holds
  rwa [ExecutionState.after_nil, ExecutionState.after_nil] at came

theorem Reproduces.map {m : ExecM α} {m' : ExecM β} {f : α → α'} {f' : β → β'} (first : Reproduces host R w m m' rel)
    (imp : ∀ a b, rel a b → rel' (f a) (f' b)) :
    Reproduces host R w (m >>= fun a => pure (f a)) (m' >>= fun b => pure (f' b)) rel' :=
  first.bind (fun _ => grows_pure _) fun a b holds => reproduces_pure (imp a b holds)

theorem reproduces_throw (abort : Abort) : Reproduces host R w (throw abort : ExecM α) (throw abort : ExecM β) rel :=
  ⟨fun _ => .refl _ _, fun _ _ _ _ _ _ => .failed⟩

theorem reproduces_ofExcept {result result' : Except ResponseError α} (permits : w.Permits result result') :
    Reproduces host R w (ofExcept result) (ofExcept result') fun a b => b = a ∧ result = .ok a := by
  cases permits with
  | excused excuse => exact ⟨fun _ => .refl _ _, fun _ _ _ _ _ _ => .excused excuse⟩
  | same =>
    cases result with
    | error e => exact reproduces_throw _
    | ok a => exact reproduces_pure ⟨rfl, rfl⟩

theorem reproduces_checkCancelled : Reproduces host R w checkCancelled checkCancelled fun _ _ => True := by
  have grows : Grows host checkCancelled := by
    intro s
    rw [outcome_checkCancelled]
    split <;> exact .refl _ _
  refine ⟨grows, fun s t calm calm' types covers => ?_⟩
  have going (u : ExecutionState) (calm : u.cancelled = false) : outcome checkCancelled u = outcome (pure ()) u := by
    rw [outcome_checkCancelled, calm]
    rfl
  rw [going s calm] at covers ⊢
  rw [going t calm']
  exact (reproduces_pure trivial).again s t calm calm' types covers

theorem reproduces_note (event : ExecutionEvent) :
    Reproduces host R w (note event) (note event) fun _ _ => True := by
  have noted (u : ExecutionState) : outcome (note event) u = (.ok (), u.after u.registry [] [event]) := by
    simp [note, outcome_modify, ExecutionState.after]
  refine ⟨fun _ => .refl _ _, fun s t _ _ _ _ => ?_⟩
  have came : Retraces w (fun _ _ => True) s t (.ok (), s.after s.registry [] [event])
      (.ok (), t.after t.registry [] [event]) := .came trivial
  rwa [← noted, ← noted] at came

/-- An error at a place that is kept. -/
theorem reproduces_pushError {e : ResponseError} (kept : e.isKept w.kept = true) :
    Reproduces host R w (pushError e) (pushError e) fun v v' => v = .null ∧ v' = .null := by
  have pushed (u : ExecutionState) : outcome (pushError e) u = (.ok .null, u.after u.registry [e] []) := by
    simp only [ExecutionState.after, List.nil_append]
    rfl
  have only : [e].filter (·.isKept w.kept) = [e] := by rw [List.filter_cons_of_pos kept, List.filter_nil]
  refine ⟨fun _ => .refl _ _, fun s t _ _ _ _ => ?_⟩
  have came : Retraces w (fun v v' : ResponseValue => v = .null ∧ v' = .null) s t
      (.ok .null, s.after s.registry [e] []) (.ok .null, t.after t.registry ([e].filter (·.isKept w.kept)) []) :=
    .came ⟨rfl, rfl⟩
  rw [only] at came
  rw [pushed, pushed]
  exact came

/-- A computation on the registry that settles, and one that makes something of its result. -/
theorem reproduces_onRegistry {m : ExceptT ε (StateM Registry) α} (settles : host.Settles m) (f : α → β) :
    Reproduces host R w (onRegistry m.run) (onRegistry (f <$> m).run) fun result result' =>
      result' = result.map f ∧ outcome m R = (result, R) := by
  refine ⟨fun s => (settles s.registry).grows, fun s t _ _ types covers => ?_⟩
  rw [outcome_onRegistry] at covers
  have again : outcome m R = ((outcome m s.registry).1, R) :=
    (settles s.registry).again R covers (Or.inr ⟨trivial, fun _ mem => absurd mem List.not_mem_nil⟩)
  have mapped : outcome (f <$> m) R = ((outcome m s.registry).1.map f, R) := by
    rw [← bind_pure_comp, outcome_bind, again]
    cases (outcome m s.registry).1 <;> rfl
  have came : Retraces w (fun result result' => result' = result.map f ∧ outcome m R = (result, R)) s t
      (.ok (outcome m s.registry).1, s.after (outcome m s.registry).2 [] [])
      (.ok ((outcome m s.registry).1.map f), t.after t.registry [] []) := .came ⟨rfl, again⟩
  rw [outcome_onRegistry, outcome_onRegistry, types, mapped]
  simpa [ExecutionState.after, types] using came

/-- Item by item. -/
theorem reproduces_mapM {γ : Type} {f : γ → ExecM α} {f' : γ → ExecM β} {each : γ → α → β → Prop} {items : List γ}
    (one : ∀ c ∈ items, Reproduces host R w (f c) (f' c) (each c)) :
    Reproduces host R w (items.mapM f) (items.mapM f') fun all all' =>
      all.length = items.length ∧ all'.length = items.length ∧
        ∀ (i : Nat) c a b, items[i]? = some c → all[i]? = some a → all'[i]? = some b → each c a b := by
  induction items with
  | nil =>
    rw [List.mapM_nil, List.mapM_nil]
    exact reproduces_pure ⟨rfl, rfl, fun i c a b at' => by simp at at'⟩
  | cons c rest ih =>
    obtain ⟨first, more⟩ := List.forall_mem_cons.1 one
    rw [List.mapM_cons, List.mapM_cons]
    refine first.bind (fun a => grows_bind (ih more).grows fun as => grows_pure _) fun a b holds => ?_
    refine (ih more).map fun as bs rest => ?_
    obtain ⟨count, count', related⟩ := rest
    refine ⟨congrArg Nat.succ count, congrArg Nat.succ count', fun i c' a' b' hc ha hb => ?_⟩
    cases i with
    | zero =>
      cases hc
      cases ha
      cases hb
      exact holds
    | succ i => exact related i c' a' b' hc ha hb

/-- The second execution leaves out what the first does last. -/
theorem Reproduces.leftOut {m : ExecM α} {m' : ExecM β} {n : ExecM α'} {f : α → α' → β'} {f' : β → β'}
    {rel' : β' → β' → Prop} {post : α' → Prop} (first : Reproduces host R w m m' rel)
    (last : Conducts host (.leftOut w) n post) (imp : ∀ a b more, rel a b → post more → rel' (f a more) (f' b)) :
    Reproduces host R w (m >>= fun a => n >>= fun more => pure (f a more)) (m' >>= fun b => pure (f' b)) rel' := by
  have grows (a : α) : Grows host (n >>= fun more => pure (f a more)) := grows_bind last.grows fun _ => grows_pure _
  refine first.bind grows fun a b holds => ⟨grows a, fun s t _ _ _ _ => ?_⟩
  obtain ⟨registry, es, evs, eq, -, dropped, -, ends⟩ := last s
  have none : es.filter (·.isKept w.kept) = [] :=
    List.filter_eq_nil_iff.2 fun e mem kept => Bool.false_ne_true ((dropped e mem).symm.trans kept)
  rw [outcome_bind]
  cases ran : outcome n s with
  | mk result u =>
    rw [ran] at eq ends
    simp only at eq
    subst eq
    cases result with
    | error abort => exact .excused ends
    | ok more =>
      have came : Retraces w rel' s t (.ok (f a more), s.after registry es evs)
          (.ok (f' b), t.after t.registry (es.filter (·.isKept w.kept)) []) := .came (imp a b more holds ends)
      rw [none, ExecutionState.after_nil] at came
      exact came

end

end ExecM

end GraphQL
