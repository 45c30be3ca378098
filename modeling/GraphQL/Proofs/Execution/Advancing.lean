import GraphQL.Execution.Run
import GraphQL.Proofs.Execution.Completing
import GraphQL.Proofs.Input.Settled

/-!
# What advancing a root field does

A root field holds a slot while its resolver works, and the resolver may cancel the request.
`ExecM.Advances` widens `ExecM.Yields` to computations that do this: they repeat in every lighter
execution, in which no more slots are taken, as long as nothing is cancelled. That is how a field is
advanced alone as it was among others.
-/

namespace GraphQL

/-- An execution that is not cancelled and in which no more slots are taken than in another. -/
structure ExecutionState.Lighter (t s : ExecutionState) : Prop where
  calm : t.cancelled = false
  limit : t.slots.limit = s.slots.limit
  taken : t.slots.taken ≤ s.slots.taken

namespace ExecM

variable {host : Host} {α β : Type}

/-- A step from a state to a result and another state: it has added errors, led to a later registry and
undone no cancellation. The result and errors satisfy a condition, and come again in every lighter
execution that has a registry as late, unless the step leaves the request cancelled. -/
def AdvancesAt (host : Host) (m : ExecM α) (post : Registry → α → List ResponseError → Prop) (s : ExecutionState)
    (a : α) (s' : ExecutionState) : Prop :=
  ∃ errors, s'.errors = s.errors ++ errors ∧ host.Later s.registry s'.registry ∧
    (s'.cancelled = false → s.cancelled = false) ∧
    (∀ later, host.Later s'.registry later → post later a errors) ∧
    ∀ t : ExecutionState, host.Later s'.registry t.registry → s'.cancelled = false → t.Lighter s →
      ∃ t', outcome m t = (.ok a, t') ∧ t'.errors = t.errors ++ errors ∧ t'.registry = t.registry ∧ t'.Lighter s'

/-- Wherever the computation ends with a result, it has taken such a step. -/
def Advances (host : Host) (m : ExecM α) (post : Registry → α → List ResponseError → Prop) : Prop :=
  ∀ s a s', outcome m s = (.ok a, s') → AdvancesAt host m post s a s'

variable {post : Registry → α → List ResponseError → Prop} {post' : Registry → β → List ResponseError → Prop}

theorem Yields.advances {m : ExecM α} (yields : Yields host m post) : Advances host m post := by
  intro s a s' ran
  obtain ⟨r, es, evs, rfl, grown, holds, again⟩ := yields s a s' ran
  refine ⟨es, rfl, grown, id, holds, fun t later _ lighter => ⟨_, again t later lighter.calm, rfl, rfl, ?_⟩⟩
  exact ⟨lighter.calm, lighter.limit, lighter.taken⟩

theorem Advances.mono {m : ExecM α} {weaker : Registry → α → List ResponseError → Prop}
    (advances : Advances host m post) (imp : ∀ r a es, post r a es → weaker r a es) : Advances host m weaker := by
  intro s a s' ran
  obtain ⟨es, eq, grown, mono, holds, again⟩ := advances s a s' ran
  exact ⟨es, eq, grown, mono, fun later h => imp _ _ _ (holds later h), again⟩

theorem Advances.bind {m : ExecM α} {f : α → ExecM β} (first : Advances host m post)
    (next : ∀ a, Advances host (f a) fun r b es => ∀ before, post r a before → post' r b (before ++ es)) :
    Advances host (m >>= f) post' := by
  intro s b s' ran
  obtain ⟨a, u, ran, ran'⟩ := outcome_bind_eq_ok.1 ran
  obtain ⟨es, eq, grown, mono, holds, again⟩ := first s a u ran
  obtain ⟨es', eq', grown', mono', holds', again'⟩ := next a u b s' ran'
  refine ⟨es ++ es', ?_, grown.trans grown', mono ∘ mono', ?_, fun t later calm lighter => ?_⟩
  · rw [eq', eq, List.append_assoc]
  · exact fun later h => holds' later h es (holds later (grown'.trans h))
  · obtain ⟨v, ran, errors, registry, lighter⟩ := again t (grown'.trans later) (mono' calm) lighter
    obtain ⟨t', ran', errors', registry', lighter⟩ := again' v (registry ▸ later) calm lighter
    refine ⟨t', outcome_bind_eq_ok.2 ⟨a, v, ran, ran'⟩, ?_, registry'.trans registry, lighter⟩
    rw [errors', errors, List.append_assoc]

/-- A step without a result before the rest. -/
theorem Advances.after {m : ExecM PUnit} {n : ExecM β} (step : Advances host m fun _ _ es => es = [])
    (rest : Advances host n post') : Advances host (m >>= fun _ => n) post' :=
  step.bind fun _ => rest.mono fun _ _ _ holds before empty => by
    subst empty
    exact holds

/-- A change of the state that keeps the errors and the registry. -/
theorem advances_modify {f : ExecutionState → ExecutionState} (errors : ∀ s, (f s).errors = s.errors)
    (registry : ∀ s, (f s).registry = s.registry) (mono : ∀ s, (f s).cancelled = false → s.cancelled = false)
    (lighter : ∀ s t : ExecutionState, (f s).cancelled = false → t.Lighter s → (f t).Lighter (f s)) :
    Advances host (modify f : ExecM PUnit) fun _ _ es => es = [] := by
  intro s a s' ran
  cases ran
  refine ⟨[], ?_, ?_, mono s, fun _ _ => rfl, fun t _ calm light => ⟨f t, rfl, ?_, registry t, lighter s t calm light⟩⟩
  · rw [errors, List.append_nil]
  · rw [registry]
    exact .refl host _
  · rw [errors, List.append_nil]

/-- What depends on whether the request is cancelled. -/
theorem advances_cancelled {f : Bool → ExecM α} (each : ∀ b, Advances host (f b) post) :
    Advances host (get >>= fun s => f s.cancelled) post := by
  intro s a s' ran
  obtain ⟨es, eq, grown, mono, holds, again⟩ := each s.cancelled s a s' ran
  refine ⟨es, eq, grown, mono, holds, ?_⟩
  intro t later calm lighter
  obtain ⟨t', ran', rest⟩ := again t later calm lighter
  refine ⟨t', ?_, rest⟩
  have same : t.cancelled = s.cancelled := lighter.calm.trans (mono calm).symm
  rw [outcome_bind, outcome_get]
  simp only
  rw [same]
  exact ran'

theorem advances_releaseSlot : Advances host releaseSlot fun _ _ es => es = [] :=
  advances_modify (fun _ => rfl) (fun _ => rfl) (fun _ => id) fun _ _ _ lighter =>
    ⟨lighter.calm, lighter.limit, Nat.sub_le_sub_right lighter.taken 1⟩

end ExecM

/-- What the response has for a task: a value once it is done, and no errors before. -/
def RootTask.Shows (x : Execution) (r : Registry) (field : FieldPlan) : RootTask → List ResponseError → Prop
  | .done v, es => Renders x r (.root field) field.rootPath v es
  | _, es => es = []

theorem RootTask.Shows.later {x : Execution} {r later : Registry} {field : FieldPlan} {task : RootTask}
    {es : List ResponseError} (shown : task.Shows x r field es) (after : x.host.Later r later) :
    task.Shows x later field es := by
  cases task with
  | done v => exact Renders.later shown after
  | _ => exact shown

namespace Execution

variable {x : Execution} {field : FieldPlan}

/-- The computation leaves a task with what the response has for it. -/
abbrev Moves (x : Execution) (field : FieldPlan) (m : ExecM RootTask) : Prop :=
  ExecM.Advances x.host m fun r task es => task.Shows x r field es

/-- A root field is finished with a value that the response has for it. -/
theorem finish_moves {m : ExecM ResponseValue} (completes : x.Completes m (.root field) field.rootPath) :
    x.Moves field (m >>= field.finish) := by
  refine ExecM.Yields.advances (completes.bind fun v => ?_)
  refine ExecM.Yields.after (ExecM.yields_note _) (ExecM.yields_pure fun r before shown => ?_)
  rw [List.append_nil]
  exact shown

theorem completeRoot_completes (result : Except Failure Resolved) :
    x.Completes (x.completeRoot field result) (.root field) field.rootPath := by
  cases result with
  | ok value => exact (complete_yields field.type value field field.rootPath 1).mono fun _ _ _ shown => .resolved shown
  | error failure =>
    cases failure with
    | error e => exact hostError_completes _ _ _ _
    | panic message => exact fieldError_completes _ _ _ _

theorem panicked_completes (message : String) :
    x.Completes (field.panicked message) (.root field) field.rootPath :=
  fieldError_completes _ _ _ _

/-- A resolver works for its field alone. -/
theorem work_moves (work : Work Resolved) : x.Moves field (x.work field work) := by
  induction work with
  | done result =>
    rw [Execution.work]
    exact ExecM.advances_releaseSlot.after (finish_moves (completeRoot_completes result))
  | pause next _ =>
    rw [Execution.work]
    exact ExecM.Yields.advances (ExecM.yields_pure fun _ => rfl)
  | record entry next ih =>
    rw [Execution.work]
    exact ExecM.Advances.after (ExecM.advances_modify (fun _ => rfl) (fun _ => rfl) (fun _ => id)
      fun _ _ _ lighter => ⟨lighter.calm, lighter.limit, lighter.taken⟩) ih
  | cancel next ih =>
    rw [Execution.work]
    refine ExecM.Advances.after (ExecM.advances_modify (fun _ => rfl) (fun _ => rfl) ?_ ?_) ih
    · intro s calm
      cases calm
    · intro s t calm
      cases calm
  | awaitCancel next ih =>
    rw [Execution.work]
    have either (cancelled : Bool) :
        x.Moves field (if cancelled then x.work field next else return .working (.awaitCancel next)) := by
      cases cancelled with
      | true => exact ih
      | false => exact ExecM.Yields.advances (ExecM.yields_pure fun _ => rfl)
    exact ExecM.advances_cancelled either
  | askCancelled next ih =>
    rw [Execution.work]
    exact ExecM.advances_cancelled fun cancelled => ih cancelled

/-- What the resolver of a field does from its call on, it does for its field alone. -/
theorem call_moves (operation : OperationDescriptor) (resolver : Resolver Resolved) :
    x.Moves field (x.call field operation resolver) := by
  have fails {m : ExecM ResponseValue} (completes : x.Completes m (.root field) field.rootPath) :
      x.Moves field (ExecM.releaseSlot >>= fun _ => m >>= field.finish) :=
    ExecM.advances_releaseSlot.after (finish_moves completes)
  have parses := (ExecM.yields_onRegistry
    (OperationDescriptor.parseArguments_settles x.inputContext operation field.arguments)).advances
  unfold call
  apply parses.bind
  intro result
  have then' {n : ExecM RootTask} (moves : x.Moves field n) : ExecM.Advances x.host n fun r task es =>
      ∀ before, (before = [] ∧ outcome (operation.parseArguments x.inputContext field.arguments) r = (result, r)) →
        task.Shows x r field (before ++ es) := by
    apply moves.mono
    rintro r task es shown before ⟨rfl, -⟩
    exact shown
  cases result with
  | error failure =>
    cases failure with
    | error e => exact then' (fails (hostError_completes _ _ _ _))
    | panic message => exact then' (fails (panicked_completes message))
  | ok arguments =>
    refine then' (ExecM.Advances.after (ExecM.yields_note _).advances ?_)
    split
    · exact work_moves _
    · exact fails (panicked_completes _)

/-- Where a slot is free, one is free in every lighter execution. -/
theorem acquire_lighter {s t : ExecutionState} {slots : Slots} (free : s.slots.acquire? = some slots)
    (lighter : t.Lighter s) :
    ∃ slots', t.slots.acquire? = some slots' ∧
      ({ t with slots := slots' } : ExecutionState).Lighter { s with slots } := by
  unfold Slots.acquire? at free ⊢
  obtain ⟨calm, limit, taken⟩ := lighter
  split at free
  · next available =>
    cases free
    have available' : (t.slots.limit = 0 || t.slots.taken < t.slots.limit) = true := by
      simp only [Bool.or_eq_true, decide_eq_true_eq] at available ⊢
      omega
    rw [if_pos available']
    exact ⟨_, rfl, calm, limit, Nat.succ_le_succ taken⟩
  · cases free

/-- Entering, by whether the wait for slots heeds a cancellation and whether a slot is free. -/
theorem outcome_enter (operation : OperationDescriptor) (resolver : Resolver Resolved) (s : ExecutionState) :
    outcome (x.enter field operation resolver) s =
      if s.slots.limit > 0 ∧ s.cancelled = true then (.error (.error .cancelled), s)
      else match s.slots.acquire? with
        | none => (.ok .queued, s)
        | some slots => outcome (x.call field operation resolver) { s with slots } := by
  have slot : outcome (do
      match (← get).slots.acquire? with
      | none => return .queued
      | some slots => do
        modify fun s => { s with slots }
        x.call field operation resolver) s =
      match s.slots.acquire? with
        | none => (.ok .queued, s)
        | some slots => outcome (x.call field operation resolver) { s with slots } := by
    rw [outcome_bind, outcome_get]
    simp only
    cases s.slots.acquire? <;> rfl
  unfold enter
  rw [outcome_bind, outcome_get]
  simp only
  by_cases limited : s.slots.limit > 0
  · by_cases cancelled : s.cancelled = true
    · rw [if_pos limited, if_pos ⟨limited, cancelled⟩, outcome_bind, ExecM.outcome_checkCancelled, if_pos cancelled]
    · rw [if_pos limited, if_neg (fun h => cancelled h.2), outcome_bind, ExecM.outcome_checkCancelled,
        if_neg cancelled]
      exact slot
  · rw [if_neg limited, if_neg (fun h => limited h.1)]
    exact slot

/-- A field that waits for a slot gets one if one is free, and otherwise waits on. -/
theorem enter_moves {operation : OperationDescriptor} {resolver : Resolver Resolved} {s s' : ExecutionState}
    {task : RootTask} (ran : outcome (x.enter field operation resolver) s = (.ok task, s')) :
    (task = .queued ∧ s' = s) ∨
      ExecM.AdvancesAt x.host (x.enter field operation resolver) (fun r task es => task.Shows x r field es) s task
        s' := by
  rw [outcome_enter] at ran
  split at ran
  · cases ran
  · split at ran
    · cases ran
      exact Or.inl ⟨rfl, rfl⟩
    · next slots free =>
      obtain ⟨es, eq, grown, mono, holds, again⟩ := call_moves operation resolver _ _ _ ran
      refine Or.inr ⟨es, eq, grown, mono, holds, ?_⟩
      intro t later calm lighter
      obtain ⟨slots', free', lighter'⟩ := acquire_lighter free lighter
      obtain ⟨t', ran', rest⟩ := again { t with slots := slots' } later calm lighter'
      refine ⟨t', ?_, rest⟩
      rw [outcome_enter, if_neg (fun h => by rw [lighter.calm] at h; cases h.2), free']
      exact ran'

/-- A field that has passed its guards is answered without a resolver, or waits for a slot. -/
theorem withResolver_moves {s s' : ExecutionState} {task : RootTask}
    (ran : outcome (x.withResolver field (x.enter field)) s = (.ok task, s')) :
    (task = .queued ∧ s' = s) ∨
      ExecM.AdvancesAt x.host (x.withResolver field (x.enter field)) (fun r task es => task.Shows x r field es) s task
        s' := by
  unfold withResolver at ran ⊢
  cases target : field.target with
  | typename =>
    rw [target] at ran
    simp only at ran ⊢
    have completes : x.Completes (pure (.const (.string x.plan.kind.rootTypeName))) (.root field) field.rootPath :=
      ExecM.yields_pure fun _ => .rootTypename target
    have moves := finish_moves completes
    rw [pure_bind] at moves
    exact Or.inr (moves _ _ _ ran)
  | operation operation =>
    rw [target] at ran
    simp only at ran ⊢
    cases resolver : operation.resolver with
    | field resolver =>
      rw [resolver] at ran
      exact enter_moves ran
    | stream resolver =>
      rw [resolver] at ran
      exact Or.inr (finish_moves (fieldError_completes _ _ _ _) _ _ _ ran)
  | objectField owner index =>
    rw [target] at ran
    cases ran
  | interfaceField =>
    rw [target] at ran
    cases ran

/-- The state once the complexity of a root field is added, which `__typename` has none of. -/
def counting (s : ExecutionState) (field : FieldPlan) : ExecutionState :=
  match field.target with
  | .operation _ => { s with complexity := saturatingAdd s.complexity field.complexity }
  | _ => s

/-- The guards that a root field passes when it starts. -/
structure Admits (x : Execution) (field : FieldPlan) (s : ExecutionState) : Prop where
  calm : s.cancelled = false
  depth : field.guard (x.limits.checkDepth 1) = .ok ()
  complexity : ∀ operation, field.target = .operation operation →
    field.guard (x.limits.checkComplexity (saturatingAdd s.complexity field.complexity)) = .ok ()

theorem outcome_addComplexity (limits : QueryLimits) (field : FieldPlan) (s : ExecutionState) :
    outcome (ExecM.addComplexity limits field) s =
      outcome (ExecM.ofExcept (field.guard (limits.checkComplexity (saturatingAdd s.complexity field.complexity))))
        { s with complexity := saturatingAdd s.complexity field.complexity } := rfl

theorem outcome_ofExcept_eq_ok {α : Type} {result : Except ResponseError α} {s s' : ExecutionState} {a : α} :
    outcome (ExecM.ofExcept result) s = (.ok a, s') ↔ result = .ok a ∧ s = s' := by
  cases result with
  | error e =>
    constructor
    · intro ran
      cases ran
    · rintro ⟨eq, -⟩
      cases eq
  | ok b =>
    change (Except.ok b, s) = (Except.ok a, s') ↔ _
    rw [Prod.mk.injEq]
    simp

theorem outcome_start {s : ExecutionState} (admits : x.Admits field s) :
    outcome (x.start field) s = outcome (x.withResolver field (x.enter field)) (counting s field) := by
  unfold start counting
  have calm : ¬s.cancelled = true := by
    rw [admits.calm]
    exact Bool.false_ne_true
  rw [outcome_bind, ExecM.outcome_checkCancelled, if_neg calm, admits.depth]
  cases target : field.target with
  | operation operation =>
    have passed : outcome (ExecM.addComplexity x.limits field) s =
        (.ok (), { s with complexity := saturatingAdd s.complexity field.complexity }) := by
      rw [outcome_addComplexity, admits.complexity operation target]
      rfl
    change outcome (ExecM.addComplexity x.limits field >>= fun _ => x.withResolver field (x.enter field)) s = _
    rw [outcome_bind, passed]
  | _ => rfl

theorem start_admits {s s' : ExecutionState} {task : RootTask} (ran : outcome (x.start field) s = (.ok task, s')) :
    x.Admits field s := by
  unfold start at ran
  obtain ⟨_, u, checked, ran⟩ := outcome_bind_eq_ok.1 ran
  obtain ⟨_, u', measured, ran⟩ := outcome_bind_eq_ok.1 ran
  rw [ExecM.outcome_checkCancelled] at checked
  obtain ⟨depth, rfl⟩ := outcome_ofExcept_eq_ok.1 measured
  split at checked
  · cases checked
  · next calm =>
    cases checked
    refine ⟨by simpa using calm, depth, ?_⟩
    intro operation target
    rw [target] at ran
    obtain ⟨_, u', counted, _⟩ := outcome_bind_eq_ok.1 ran
    rw [outcome_addComplexity] at counted
    exact (outcome_ofExcept_eq_ok.1 counted).1

/-- A field that has just started was admitted, and either waits or has moved on. -/
theorem start_moves {s s' : ExecutionState} {task : RootTask} (ran : outcome (x.start field) s = (.ok task, s')) :
    x.Admits field s ∧ ((task = .queued ∧ s' = counting s field) ∨
      ExecM.AdvancesAt x.host (x.withResolver field (x.enter field)) (fun r task es => task.Shows x r field es)
        (counting s field) task s') := by
  have admits := start_admits ran
  rw [outcome_start admits] at ran
  exact ⟨admits, withResolver_moves ran⟩

theorem counting_errors (s : ExecutionState) (field : FieldPlan) : (counting s field).errors = s.errors := by
  unfold counting
  cases field.target <;> rfl

theorem counting_registry (s : ExecutionState) (field : FieldPlan) : (counting s field).registry = s.registry := by
  unfold counting
  cases field.target <;> rfl

theorem counting_cancelled (s : ExecutionState) (field : FieldPlan) : (counting s field).cancelled = s.cancelled := by
  unfold counting
  cases field.target <;> rfl

/-- Advancing a field adds to its errors what the response then has for it. -/
theorem advance_shows {s s' : ExecutionState} {task task' : RootTask} {own : List ResponseError}
    (shown : task.Shows x s.registry field own) (ran : outcome (x.advance field task) s = (.ok task', s')) :
    ∃ es, s'.errors = s.errors ++ es ∧ x.host.Later s.registry s'.registry ∧
      task'.Shows x s'.registry field (own ++ es) := by
  cases task with
  | fresh =>
    cases shown
    obtain ⟨-, ⟨rfl, rfl⟩ | ⟨es, eq, grown, -, holds, -⟩⟩ := start_moves ran
    · rw [counting_errors, counting_registry]
      exact ⟨[], (List.append_nil _).symm, .refl _ _, rfl⟩
    · rw [counting_errors] at eq
      rw [counting_registry] at grown
      exact ⟨es, eq, grown, holds _ (.refl _ _)⟩
  | queued =>
    cases shown
    obtain ⟨rfl, rfl⟩ | ⟨es, eq, grown, -, holds, -⟩ := withResolver_moves ran
    · exact ⟨[], (List.append_nil _).symm, .refl _ _, rfl⟩
    · exact ⟨es, eq, grown, holds _ (.refl _ _)⟩
  | working work =>
    cases shown
    obtain ⟨es, eq, grown, -, holds, -⟩ := work_moves work _ _ _ ran
    exact ⟨es, eq, grown, holds _ (.refl _ _)⟩
  | done v =>
    cases ran
    refine ⟨[], (List.append_nil _).symm, .refl _ _, ?_⟩
    rw [List.append_nil]
    exact shown
  | failed abort => cases ran

end Execution

end GraphQL
