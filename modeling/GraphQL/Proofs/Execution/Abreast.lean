import GraphQL.Proofs.Execution.Verdicts

/-!
# Executions abreast

Two executions under different limits, in which the same field takes its turn: `advance_abreast` says that it
gets equally far in both, takes the same slots and collects the same errors, but for those that the second
leaves out. Neither may be cancelled, the types of both must be in one registry, and the guards may set the
two apart only with an excuse. `ExecM.Abreast` has the rules.
-/

namespace GraphQL

/-- Two states that cannot be told apart as long as nothing is cancelled. -/
structure ExecutionState.Abreast (s t : ExecutionState) : Prop where
  slots : t.slots = s.slots
  complexity : t.complexity = s.complexity

namespace ExecM

section

variable {host : Host} {R : Registry} {w : Leeway} {α β α' β' ε : Type} {rel : α → β → Prop} {rel' : α' → β' → Prop}

/-- The computation only adds to the registry, and takes no cancellation back. -/
structure Onward (host : Host) (m : ExecM α) : Prop where
  grows : Grows host m
  calm : ∀ s, (outcome m s).2.cancelled = false → s.cancelled = false

theorem Conducts.onward {c : Conduct} {post : α → Prop} {m : ExecM α} (conducts : Conducts host c m post) :
    Onward host m := by
  refine ⟨conducts.grows, fun s calm => ?_⟩
  obtain ⟨registry, es, evs, eq, -⟩ := conducts s
  rw [eq] at calm
  exact calm

theorem Onward.bind {m : ExecM α} {f : α → ExecM β} (first : Onward host m) (next : ∀ a, Onward host (f a)) :
    Onward host (m >>= f) := by
  refine ⟨grows_bind first.grows fun a => (next a).grows, fun s calm => ?_⟩
  rw [outcome_bind] at calm
  cases ran : outcome m s with
  | mk result u =>
    rw [ran] at calm
    have before := first.calm s
    rw [ran] at before
    cases result with
    | error abort => exact before calm
    | ok a => exact before ((next a).calm u calm)

theorem onward_pure (a : α) : Onward host (pure a) := ⟨grows_pure a, fun _ => id⟩

theorem onward_throw (abort : Abort) : Onward host (throw abort : ExecM α) := ⟨fun _ => .refl _ _, fun _ => id⟩

theorem onward_modify {f : ExecutionState → ExecutionState} (registry : ∀ s, (f s).registry = s.registry)
    (calm : ∀ s, (f s).cancelled = false → s.cancelled = false) : Onward host (modify f : ExecM PUnit) := by
  refine ⟨fun s => ?_, calm⟩
  rw [outcome_modify]
  simp only
  rw [registry]
  exact .refl _ _

/-- How two computations have ended that began abreast. -/
inductive Meets (w : Leeway) (rel : α → β → Prop) (s t : ExecutionState) :
    Except Abort α × ExecutionState → Except Abort β × ExecutionState → Prop
  | excused {abort : Abort} {s' : ExecutionState} {other : Except Abort β × ExecutionState} (excuse : w.excuse abort) :
    Meets w rel s t (.error abort, s') other
  | failed {abort : Abort} {s' t' : ExecutionState} (abreast : s'.Abreast t') :
    Meets w rel s t (.error abort, s') (.error abort, t')
  | came {a : α} {b : β} {s' t' : ExecutionState} {es : List ResponseError} (holds : rel a b) (abreast : s'.Abreast t')
    (errors : s'.errors = s.errors ++ es) (errors' : t'.errors = t.errors ++ es.filter (·.isKept w.kept)) :
    Meets w rel s t (.ok a, s') (.ok b, t')

theorem Meets.rebase {s t u v : ExecutionState} {first : Except Abort α × ExecutionState}
    {second : Except Abort β × ExecutionState} (meets : Meets w rel s t first second) (errors : u.errors = s.errors)
    (errors' : v.errors = t.errors) : Meets w rel u v first second := by
  cases meets with
  | excused excuse => exact .excused excuse
  | failed abreast => exact .failed abreast
  | came holds abreast more more' => exact .came holds abreast (errors ▸ more) (errors' ▸ more')

/-- Where nothing is cancelled and the types of both are in one registry, the computations keep abreast. -/
structure Abreast (host : Host) (R : Registry) (w : Leeway) (m : ExecM α) (m' : ExecM β) (rel : α → β → Prop) :
    Prop where
  onward : Onward host m
  onward' : Onward host m'
  meets : ∀ s t : ExecutionState, s.Abreast t → (outcome m s).2.cancelled = false →
    (outcome m' t).2.cancelled = false → host.Covers (outcome m s).2.registry R →
    host.Covers (outcome m' t).2.registry R → Meets w rel s t (outcome m s) (outcome m' t)

theorem Abreast.bind {m : ExecM α} {m' : ExecM β} {f : α → ExecM α'} {f' : β → ExecM β'}
    (first : Abreast host R w m m' rel) (onward : ∀ a, Onward host (f a)) (onward' : ∀ b, Onward host (f' b))
    (next : ∀ a b, rel a b → Abreast host R w (f a) (f' b) rel') :
    Abreast host R w (m >>= f) (m' >>= f') rel' := by
  refine ⟨first.onward.bind onward, first.onward'.bind onward', fun s t abreast calm calm' covers covers' => ?_⟩
  rw [outcome_bind] at calm calm' covers covers' ⊢
  rw [outcome_bind]
  have meets := first.meets s t abreast
  cases ran : outcome m s with
  | mk result u =>
    cases ran' : outcome m' t with
    | mk result' v =>
      rw [ran] at calm covers meets
      rw [ran'] at calm' covers' meets
      have before : u.cancelled = false ∧ host.Covers u.registry R := by
        cases result with
        | error abort => exact ⟨calm, covers⟩
        | ok a => exact ⟨(onward a).calm u calm, Host.Covers.after covers ((onward a).grows u)⟩
      have before' : v.cancelled = false ∧ host.Covers v.registry R := by
        cases result' with
        | error abort => exact ⟨calm', covers'⟩
        | ok b => exact ⟨(onward' b).calm v calm', Host.Covers.after covers' ((onward' b).grows v)⟩
      cases meets before.1 before'.1 before.2 before'.2 with
      | excused excuse => exact .excused excuse
      | failed abreast => exact .failed abreast
      | @came a b _ _ es holds abreast errors errors' =>
        have meets' := (next a b holds).meets u v abreast calm calm' covers covers'
        simp only
        cases ran : outcome (f a) u with
        | mk result u' =>
          cases ran' : outcome (f' b) v with
          | mk result' v' =>
            rw [ran, ran'] at meets'
            cases meets' with
            | excused excuse => exact .excused excuse
            | failed abreast => exact .failed abreast
            | @came _ _ _ _ more holds abreast more_errors more_errors' =>
              refine @Meets.came _ _ _ _ _ _ _ _ _ _ (es ++ more) holds abreast ?_ ?_
              · rw [more_errors, errors, List.append_assoc]
              · rw [more_errors', errors', List.filter_append, List.append_assoc]

/-- What both go on with is the same. -/
theorem Abreast.bind_same {m m' : ExecM α} {f : α → ExecM α'} {f' : α → ExecM β'}
    (first : Abreast host R w m m' fun a b => b = a) (next : ∀ a, Abreast host R w (f a) (f' a) rel') :
    Abreast host R w (m >>= f) (m' >>= f') rel' := by
  refine first.bind (fun a => (next a).onward) (fun a => (next a).onward') fun a b same => ?_
  subst same
  exact next b

/-- A check before the rest. -/
theorem Abreast.then_ {m m' : ExecM PUnit} {n : ExecM α} {n' : ExecM β} {any : PUnit → PUnit → Prop}
    (check : Abreast host R w m m' any) (rest : Abreast host R w n n' rel) :
    Abreast host R w (m >>= fun _ => n) (m' >>= fun _ => n') rel :=
  check.bind (fun _ => rest.onward) (fun _ => rest.onward') fun _ _ _ => rest

theorem abreast_pure {a : α} {b : β} (holds : rel a b) : Abreast host R w (pure a) (pure b) rel :=
  ⟨onward_pure a, onward_pure b, fun _ _ abreast _ _ _ _ =>
    .came holds abreast (List.append_nil _).symm (List.append_nil _).symm⟩

theorem abreast_throw (abort : Abort) : Abreast host R w (throw abort : ExecM α) (throw abort : ExecM β) rel :=
  ⟨onward_throw abort, onward_throw abort, fun _ _ abreast _ _ _ _ => .failed abreast⟩

theorem onward_ofExcept (result : Except ResponseError α) : Onward host (ofExcept result) := by
  cases result with
  | error e => exact onward_throw _
  | ok a => exact onward_pure a

theorem abreast_ofExcept {result result' : Except ResponseError α} (permits : w.Permits result result') :
    Abreast host R w (ofExcept result) (ofExcept result') fun a b => b = a := by
  refine ⟨onward_ofExcept result, onward_ofExcept result', fun s t abreast _ _ _ _ => ?_⟩
  cases permits with
  | excused excuse => exact .excused excuse
  | same =>
    cases result with
    | error e => exact .failed abreast
    | ok a => exact .came rfl abreast (List.append_nil _).symm (List.append_nil _).symm

theorem abreast_checkCancelled : Abreast host R w checkCancelled checkCancelled fun _ _ => True := by
  have onward : Onward host checkCancelled := by
    refine ⟨fun s => ?_, fun s calm => ?_⟩
    · rw [outcome_checkCancelled]
      split <;> exact .refl _ _
    · rw [outcome_checkCancelled] at calm
      split at calm <;> exact calm
  refine ⟨onward, onward, fun s t abreast calm calm' _ _ => ?_⟩
  rw [outcome_checkCancelled, outcome_checkCancelled, onward.calm s calm, onward.calm t calm']
  exact .came trivial abreast (List.append_nil _).symm (List.append_nil _).symm

/-- A change that adds no errors. -/
theorem abreast_modify {f : ExecutionState → ExecutionState} (registry : ∀ s, (f s).registry = s.registry)
    (calm : ∀ s, (f s).cancelled = false → s.cancelled = false) (errors : ∀ s, (f s).errors = s.errors)
    (abreast : ∀ s t, s.Abreast t → (f s).Abreast (f t)) :
    Abreast host R w (modify f : ExecM PUnit) (modify f : ExecM PUnit) fun _ _ => True :=
  ⟨onward_modify registry calm, onward_modify registry calm, fun s t both _ _ _ _ =>
    .came trivial (abreast s t both) (by rw [errors, List.append_nil]) (by rw [errors, List.filter_nil, List.append_nil])⟩

/-- What depends on the state only. -/
theorem abreast_get {f : ExecutionState → ExecM α} {f' : ExecutionState → ExecM β} (onward : ∀ s, Onward host (f s))
    (onward' : ∀ t, Onward host (f' t))
    (each : ∀ s t, s.Abreast t → s.cancelled = false → t.cancelled = false → Abreast host R w (f s) (f' t) rel) :
    Abreast host R w (get >>= f) (get >>= f') rel := by
  refine ⟨⟨fun s => (onward s).grows s, fun s => (onward s).calm s⟩,
    ⟨fun t => (onward' t).grows t, fun t => (onward' t).calm t⟩, fun s t abreast calm calm' covers covers' => ?_⟩
  exact (each s t abreast ((onward s).calm s calm) ((onward' t).calm t calm')).meets s t abreast calm calm' covers covers'

/-- What is read from the registry is the same in both. -/
theorem abreast_onRegistry {m : ExceptT ε (StateM Registry) α} (settles : host.Settles m) :
    Abreast host R w (onRegistry m.run) (onRegistry m.run) fun result result' => result' = result := by
  have onward : Onward host (onRegistry m.run) := ⟨fun s => (settles s.registry).grows, fun _ => id⟩
  refine ⟨onward, onward, fun s t abreast _ _ covers covers' => ?_⟩
  rw [outcome_onRegistry] at covers covers' ⊢
  rw [outcome_onRegistry]
  have again (r : Registry) (covers : host.Covers (outcome m r).2 R) : (outcome m R).1 = (outcome m r).1 := by
    rw [(settles r).again R covers (Or.inr ⟨trivial, fun _ mem => absurd mem List.not_mem_nil⟩)]
  refine .came ?_ ⟨abreast.slots, abreast.complexity⟩ (List.append_nil _).symm (List.append_nil _).symm
  rw [← again _ covers, ← again _ covers']

theorem Retraces.of_error {s t s' : ExecutionState} {abort : Abort} {other : Except Abort β × ExecutionState}
    (retraces : Retraces w rel s t (.error abort, s') other) : w.excuse abort ∨ other.1 = .error abort := by
  cases retraces with
  | excused excuse => exact Or.inl excuse
  | failed => exact Or.inr rfl

theorem Retraces.of_ok {s t s' : ExecutionState} {a : α} {other : Except Abort β × ExecutionState}
    (retraces : Retraces w rel s t (.ok a, s') other) : ∃ b es, other.1 = .ok b ∧ s'.errors = s.errors ++ es ∧
      other.2.errors = t.errors ++ es.filter (·.isKept w.kept) := by
  cases retraces with
  | came holds => exact ⟨_, _, rfl, rfl, rfl⟩

/-- What reproduces in a registry keeps abreast. -/
theorem abreast_of_reproduces {m m' : ExecM α} {any same : α → α → Prop} {c c' : Conduct}
    (first : Reproduces host R w m m' any) (second : Reproduces host R (.excusing fun _ => False) m' m' same)
    (conducts : Keeps host c m) (conducts' : Keeps host c' m') :
    Abreast host R w m m' fun _ _ => True := by
  refine ⟨conducts.onward, conducts'.onward, fun s t abreast calm calm' covers covers' => ?_⟩
  -- both are compared with the second, begun with all types described
  have retraces := first.again s (.described R) (conducts.onward.calm s calm) rfl rfl covers
  have retraces' := second.again t (.described R) (conducts'.onward.calm t calm') rfl rfl covers'
  obtain ⟨registry, es, evs, eq, -⟩ := conducts s
  obtain ⟨registry', es', evs', eq', -⟩ := conducts' t
  have after : (outcome m s).2.Abreast (outcome m' t).2 := by
    rw [eq, eq']
    exact ⟨abreast.slots, abreast.complexity⟩
  generalize outcome m' (.described R) = common at retraces retraces'
  clear eq eq'
  cases ran : outcome m s with
  | mk result u =>
    cases ran' : outcome m' t with
    | mk result' v =>
      rw [ran] at retraces
      rw [ran'] at retraces'
      rw [ran, ran'] at after
      cases result with
      | error abort =>
        rcases retraces.of_error with excuse | ended
        · exact .excused excuse
        · cases result' with
          | error abort' =>
            cases ended.symm.trans (retraces'.of_error.resolve_left id)
            exact .failed after
          | ok b =>
            obtain ⟨_, _, ended', -⟩ := retraces'.of_ok
            cases ended.symm.trans ended'
      | ok a =>
        obtain ⟨_, es, ended, errors, left⟩ := retraces.of_ok
        cases result' with
        | error abort' => cases ended.symm.trans (retraces'.of_error.resolve_left id)
        | ok b =>
          obtain ⟨_, es', -, errors', left'⟩ := retraces'.of_ok
          have all : es'.filter (·.isKept 0) = es.filter (·.isKept w.kept) :=
            List.append_cancel_left (left'.symm.trans left)
          rw [filter_isKept_zero] at all
          exact .came trivial after errors (by rw [errors', all])

end

end ExecM

/-! ## Root fields -/

/-- The task without the value that it has come to. -/
def RootTask.shape : RootTask → RootTask
  | .done _ => .done .null
  | task => task

theorem RootTask.exists_done_of_shape {task : RootTask} {v : ResponseValue} (same : task.shape = (done v).shape) :
    ∃ v', task = .done v' := by
  cases task with
  | done v' => exact ⟨v', rfl⟩
  | _ => cases same

theorem RootTask.eq_of_shape {task task' : RootTask} (same : task'.shape = task.shape) (undone : task.value? = none) :
    task' = task := by
  cases task with
  | done v => cases undone
  | _ =>
    cases task' with
    | done v' => cases same
    | _ => exact same

namespace Execution

variable {x : Execution} {field : FieldPlan}

theorem onward_of_legs {m : ExecM RootTask} {stage : Stage}
    (legs : ∀ s, Legs x field (stage, s) (arrival m s)) : ExecM.Onward x.host m :=
  ⟨fun s => (legs s).grows, fun s calm => (legs s).calm calm⟩

theorem work_onward (work : Work Resolved) : ExecM.Onward x.host (x.work field work) :=
  onward_of_legs fun _ => work_legs work

theorem call_onward (operation : OperationDescriptor) (resolver : Resolver Resolved) :
    ExecM.Onward x.host (x.call field operation resolver) :=
  onward_of_legs fun _ => call_legs operation resolver

section

variable {s : ExecutionState} (operation : OperationDescriptor) (resolver : Resolver Resolved)
  (calm : s.cancelled = false)

include calm

theorem outcome_enter_full (full : s.slots.acquire? = none) :
    outcome (x.enter field operation resolver) s = (.ok .queued, s) := by
  rw [outcome_enter, if_neg (by simp [calm]), full]

theorem outcome_enter_free {slots : Slots} (free : s.slots.acquire? = some slots) :
    outcome (x.enter field operation resolver) s = outcome (x.call field operation resolver) { s with slots } := by
  rw [outcome_enter, if_neg (by simp [calm]), free]

end

theorem enter_onward (operation : OperationDescriptor) (resolver : Resolver Resolved) :
    ExecM.Onward x.host (x.enter field operation resolver) := by
  have called := @call_onward x field operation resolver
  refine ⟨fun s => ?_, fun s calm => ?_⟩
  · rw [outcome_enter]
    split
    · exact .refl _ _
    · split
      · exact .refl _ _
      · next slots _ => exact called.grows { s with slots }
  · rw [outcome_enter] at calm
    split at calm
    · exact calm
    · split at calm
      · exact calm
      · next slots _ => exact called.calm { s with slots } calm

section

variable {R : Registry} {w : Leeway} {limits' : QueryLimits} (guides : x.limits.Guides w limits')

/-- The tasks keep abreast, but for the values that they come to. -/
abbrev KeepsAbreast (x : Execution) (R : Registry) (w : Leeway) (m m' : ExecM RootTask) : Prop :=
  ExecM.Abreast x.host R w m m' fun task task' => task'.shape = task.shape

theorem abreast_releaseSlot : ExecM.Abreast x.host R w ExecM.releaseSlot ExecM.releaseSlot fun _ _ => True := by
  refine ExecM.abreast_modify (fun _ => rfl) (fun _ => id) (fun _ => rfl) fun s t abreast => ?_
  exact ⟨congrArg (Slots.release · 1) abreast.slots, abreast.complexity⟩

theorem abreast_note (event : ExecutionEvent) :
    ExecM.Abreast x.host R w (ExecM.note event) (ExecM.note event) fun _ _ => True :=
  ExecM.abreast_modify (fun _ => rfl) (fun _ => id) (fun _ => rfl) fun _ _ abreast => ⟨abreast.slots, abreast.complexity⟩

theorem onward_finish (v : ResponseValue) : ExecM.Onward x.host (field.finish v) :=
  (abreast_note (R := {}) (w := .excusing fun _ => False) (.finished field.responseKey)).onward.bind fun _ =>
    ExecM.onward_pure _

include guides

theorem answer_abreast (ending : Ending) (named : ending = .typename → field.target = .typename) :
    x.KeepsAbreast R w (x.answer field ending >>= field.finish) ((x.under limits').answer field ending >>= field.finish) := by
  have conducts := @answer_conducts x field ending
  have conducts' := @answer_conducts (x.under limits') field ending
  have again := answer_retells (x := x.under limits') (R := R) (limits'.guides_self fun _ => False) named
  refine (ExecM.abreast_of_reproduces (answer_retells guides named) again conducts conducts').bind onward_finish
    onward_finish fun v v' _ => ?_
  exact (abreast_note _).then_ (ExecM.abreast_pure rfl)

theorem released_abreast (ending : Ending) (called : ending ≠ .typename) :
    x.KeepsAbreast R w (ExecM.releaseSlot >>= fun _ => x.answer field ending >>= field.finish)
      (ExecM.releaseSlot >>= fun _ => (x.under limits').answer field ending >>= field.finish) :=
  abreast_releaseSlot.then_ (answer_abreast guides ending fun same => absurd same called)

theorem work_abreast (work : Work Resolved) :
    x.KeepsAbreast R w (x.work field work) ((x.under limits').work field work) := by
  induction work with
  | done result => exact released_abreast guides (.result result) (by simp)
  | pause next _ => exact ExecM.abreast_pure rfl
  | record entry next ih =>
    refine ExecM.Abreast.then_ (ExecM.abreast_modify (fun _ => rfl) (fun _ => id) (fun _ => rfl) ?_) ih
    exact fun _ _ abreast => ⟨abreast.slots, abreast.complexity⟩
  | cancel next ih =>
    refine ExecM.Abreast.then_ (ExecM.abreast_modify (fun _ => rfl) ?_ (fun _ => rfl) ?_) ih
    · exact fun _ calm => absurd calm (by simp)
    · exact fun _ _ abreast => ⟨abreast.slots, abreast.complexity⟩
  | awaitCancel next ih =>
    have onward (y : Execution) (cancelled : Bool) : ExecM.Onward y.host
        (if cancelled then y.work field next else return .working (.awaitCancel next)) := by
      split
      · exact work_onward next
      · exact ExecM.onward_pure _
    rw [Execution.work, Execution.work]
    refine ExecM.abreast_get (fun s => onward x s.cancelled) (fun t => onward (x.under limits') t.cancelled)
      fun s t _ calm calm' => ?_
    rw [calm, calm']
    exact ExecM.abreast_pure rfl
  | askCancelled next ih =>
    rw [Execution.work, Execution.work]
    refine ExecM.abreast_get (fun s => work_onward (x := x) (next s.cancelled))
      (fun t => work_onward (x := x.under limits') (next t.cancelled)) fun s t _ calm calm' => ?_
    rw [calm, calm']
    exact ih false

theorem call_abreast (operation : OperationDescriptor) (resolver : Resolver Resolved) :
    x.KeepsAbreast R w (x.call field operation resolver) ((x.under limits').call field operation resolver) := by
  unfold call
  refine (ExecM.abreast_onRegistry (OperationDescriptor.parseArguments_settles x.inputContext operation
    field.arguments)).bind_same fun result => ?_
  cases result with
  | error failure =>
    cases failure with
    | error e => exact released_abreast guides (.invalid e) (by simp)
    | panic message => exact released_abreast guides (.result (.error (.panic message))) (by simp)
  | ok arguments =>
    refine (abreast_note _).then_ ?_
    cases resolver arguments with
    | ok work => exact work_abreast guides work
    | error message => exact released_abreast guides (.result (.error (.panic message))) (by simp)

theorem enter_abreast (operation : OperationDescriptor) (resolver : Resolver Resolved) :
    x.KeepsAbreast R w (x.enter field operation resolver) ((x.under limits').enter field operation resolver) := by
  have called := @call_abreast x field R w limits' guides operation resolver
  refine ⟨enter_onward operation resolver, enter_onward (x := x.under limits') operation resolver,
    fun s t abreast calm calm' covers covers' => ?_⟩
  have before : s.cancelled = false := (enter_onward (x := x) operation resolver).calm s calm
  have before' : t.cancelled = false := (enter_onward (x := x.under limits') operation resolver).calm t calm'
  cases free : s.slots.acquire? with
  | none =>
    rw [outcome_enter_full operation resolver before free,
      outcome_enter_full operation resolver before' (by rw [abreast.slots, free])]
    exact .came rfl abreast (List.append_nil _).symm (List.append_nil _).symm
  | some slots =>
    rw [outcome_enter_free operation resolver before free] at calm covers ⊢
    rw [outcome_enter_free operation resolver before' (by rw [abreast.slots, free])] at calm' covers' ⊢
    have meets := called.meets { s with slots } { t with slots } ⟨rfl, abreast.complexity⟩ calm calm' covers covers'
    exact meets.rebase rfl rfl

theorem withResolver_abreast : x.KeepsAbreast R w (x.withResolver field (x.enter field))
    ((x.under limits').withResolver field ((x.under limits').enter field)) := by
  unfold withResolver
  cases target : field.target with
  | typename => exact answer_abreast guides .typename fun _ => target
  | operation operation =>
    simp only
    cases operation.resolver with
    | field resolver => exact enter_abreast guides operation resolver
    | stream _ => exact answer_abreast guides (.misplaced operation) (by simp)
  | objectField owner index => exact ExecM.abreast_throw _
  | interfaceField => exact ExecM.abreast_throw _

theorem addComplexity_abreast : ExecM.Abreast x.host R w (ExecM.addComplexity x.limits field)
    (ExecM.addComplexity limits' field) fun a b => b = a := by
  have counted : ExecM.Abreast x.host R w
      (modify fun s => { s with complexity := saturatingAdd s.complexity field.complexity } : ExecM PUnit)
      (modify fun s => { s with complexity := saturatingAdd s.complexity field.complexity } : ExecM PUnit)
      fun _ _ => True :=
    ExecM.abreast_modify (fun _ => rfl) (fun _ => id) (fun _ => rfl) fun s t abreast =>
      ⟨abreast.slots, congrArg (saturatingAdd · field.complexity) abreast.complexity⟩
  refine counted.then_ (ExecM.abreast_get (fun _ => ExecM.onward_ofExcept _) (fun _ => ExecM.onward_ofExcept _)
    fun s t abreast _ _ => ?_)
  rw [abreast.complexity]
  exact ExecM.abreast_ofExcept (guides.complexity field s.complexity)

theorem start_abreast : x.KeepsAbreast R w (x.start field) ((x.under limits').start field) := by
  have measured := @addComplexity_abreast x field R w limits' guides
  have rest := @withResolver_abreast x field R w limits' guides
  unfold start
  refine ExecM.abreast_checkCancelled.then_ ((ExecM.abreast_ofExcept (guides.depth field 1)).then_ ?_)
  cases field.target with
  | operation _ => exact measured.then_ rest
  | _ => exact rest

/-- A root field that is polled in both executions gets equally far in both. -/
theorem advance_abreast {task task' : RootTask} (same : task'.shape = task.shape) :
    x.KeepsAbreast R w (x.advance field task) ((x.under limits').advance field task') := by
  cases task with
  | done v =>
    obtain ⟨v', rfl⟩ := RootTask.exists_done_of_shape same
    exact ExecM.abreast_pure rfl
  | fresh =>
    rw [RootTask.eq_of_shape same rfl]
    exact start_abreast guides
  | queued =>
    rw [RootTask.eq_of_shape same rfl]
    exact withResolver_abreast guides
  | working work =>
    rw [RootTask.eq_of_shape same rfl]
    exact work_abreast guides work
  | failed abort =>
    rw [RootTask.eq_of_shape same rfl]
    exact ExecM.abreast_throw abort

end

end Execution

end GraphQL
