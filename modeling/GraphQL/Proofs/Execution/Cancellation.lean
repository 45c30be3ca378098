import GraphQL.Proofs.Execution.Crowds
import GraphQL.Subscription

/-!
# Cancellation

A request that is cancelled calls no host code any more: no resolver and no getter of an object field. A field
that is resolved looks at the cancellation first, and so does a root field when it starts and whenever it waits
for a slot; where slots are unlimited a root field that has started does not wait. `Heeds` says of a computation
that it calls nothing when the request is cancelled before it begins. Of an advance more is needed, because the
resolver that it calls may itself cancel the request: `advance_quiet`. From there it goes poll by poll, with
cancellations from outside in between.

Opening a subscription is the exception. It does not look at the cancellation at all, so that its resolver is
called even in a request that was cancelled before it began.
-/

namespace GraphQL

/-- Whether the event is a call of host code, and not the end of a root field. -/
def ExecutionEvent.isCall : ExecutionEvent → Bool
  | called .. | read .. => true
  | finished _ => false

/-- The resolvers and getters called so far, latest first. -/
def ExecutionState.calls (s : ExecutionState) : List ExecutionEvent := s.events.filter (·.isCall)

namespace ExecM

variable {α β : Type}

/-- Begun when the request is cancelled, the computation calls no host code. -/
def Heeds (m : ExecM α) : Prop :=
  ∀ s, s.cancelled = true → (outcome m s).2.calls = s.calls ∧ (outcome m s).2.cancelled = true

theorem heeds_pure (a : α) : Heeds (pure a) := fun _ cancelled => ⟨rfl, cancelled⟩

theorem heeds_throw (abort : Abort) : Heeds (throw abort : ExecM α) := fun _ cancelled => ⟨rfl, cancelled⟩

theorem Heeds.bind {m : ExecM α} {f : α → ExecM β} (first : Heeds m) (next : ∀ a, Heeds (f a)) :
    Heeds (m >>= f) := by
  intro s cancelled
  obtain ⟨same, cancelled'⟩ := first s cancelled
  rw [outcome_bind]
  cases ran : outcome m s with
  | mk result t =>
    rw [ran] at same cancelled'
    cases result with
    | error abort => exact ⟨same, cancelled'⟩
    | ok a =>
      obtain ⟨same', cancelled''⟩ := next a t cancelled'
      exact ⟨same'.trans same, cancelled''⟩

/-- Whatever looks at the cancellation first does nothing else. -/
theorem heeds_checked (f : PUnit → ExecM α) : Heeds (checkCancelled >>= f) := by
  intro s cancelled
  rw [outcome_bind, outcome_checkCancelled, if_pos cancelled]
  exact ⟨rfl, cancelled⟩

theorem heeds_ofExcept (result : Except ResponseError α) : Heeds (ofExcept result) := by
  cases result with
  | ok a => exact heeds_pure a
  | error e => exact heeds_throw (.error e)

theorem heeds_pushError (e : ResponseError) : Heeds (pushError e) := fun _ cancelled => ⟨rfl, cancelled⟩

theorem heeds_onRegistry (f : StateM Registry α) : Heeds (onRegistry f) := fun _ cancelled => ⟨rfl, cancelled⟩

theorem heeds_mapM {f : α → ExecM β} {items : List α} (each : ∀ a ∈ items, Heeds (f a)) : Heeds (items.mapM f) := by
  induction items with
  | nil =>
    rw [List.mapM_nil]
    exact heeds_pure []
  | cons a rest ih =>
    obtain ⟨first, others⟩ := List.forall_mem_cons.1 each
    rw [List.mapM_cons]
    exact first.bind fun _ => (ih others).bind fun _ => heeds_pure _

end ExecM

/-! ## Values -/

namespace Execution

variable {x : Execution}

theorem fieldError_heeds (message : String) (code : ErrorCode) (field : FieldPlan) (path : ErrorPath) :
    ExecM.Heeds (ExecM.fieldError message code field path) :=
  ExecM.heeds_pushError _

theorem completeLeaf_heeds (leaf : LeafM Const) (field : FieldPlan) (path : ErrorPath) :
    ExecM.Heeds (completeLeaf leaf field path) := by
  refine (ExecM.heeds_onRegistry _).bind fun result => ?_
  cases result with
  | ok c => exact ExecM.heeds_pure _
  | error e => exact fieldError_heeds _ _ _ _

theorem completePlain_heeds (type : NamedType) (value : Resolved) (field : FieldPlan) (path : ErrorPath) :
    ExecM.Heeds (x.completePlain type value field path) := by
  refine (ExecM.heeds_onRegistry _).bind fun result => ?_
  cases result with
  | error e => exact fieldError_heeds _ _ _ _
  | ok d =>
    simp only
    split
    · exact completeLeaf_heeds _ _ _
    · exact completeLeaf_heeds _ _ _
    all_goals exact fieldError_heeds _ _ _ _

section

variable {value : HostValue} {finish : Finish value}

/-- The fields of an object look at the cancellation before any getter is called. -/
theorem resolveObject_heeds (d : TypeDescriptor) (parent : FieldPlan) (path : ErrorPath) (depth : Nat) :
    ExecM.Heeds (x.resolveObject d value parent path depth finish) := by
  refine (ExecM.heeds_ofExcept _).bind fun fields => ?_
  exact (ExecM.heeds_mapM fun field _ => (ExecM.heeds_checked _).bind fun _ => ExecM.heeds_pure _).bind
    fun _ => ExecM.heeds_pure _

theorem completeHost_heeds
    (heeds : ∀ type value smaller field path depth, ExecM.Heeds (finish type value smaller field path depth))
    (type : NamedType) (field : FieldPlan) (path : ErrorPath) (depth : Nat) :
    ExecM.Heeds (x.completeHost type value field path depth finish) := by
  refine (ExecM.heeds_onRegistry _).bind fun result => ?_
  cases result with
  | error e => exact fieldError_heeds _ _ _ _
  | ok d =>
    simp only
    split
    · exact completeLeaf_heeds _ _ _
    · exact completeLeaf_heeds _ _ _
    · exact resolveObject_heeds d field path depth
    · split
      · exact heeds _ _ _ _ _ _
      · exact resolveObject_heeds d field path depth
      · exact ExecM.heeds_throw _
      · exact fieldError_heeds _ _ _ _
    · split
      · refine (ExecM.heeds_onRegistry _).bind fun result => ?_
        cases result with
        | error e => exact fieldError_heeds _ _ _ _
        | ok concrete => exact resolveObject_heeds concrete field path depth
      · exact fieldError_heeds _ _ _ _
    · exact fieldError_heeds _ _ _ _

end

/-- A value of a cancelled request is completed without a call of any getter. -/
theorem complete_heeds (type : TypeRef) (value : Resolved) (field : FieldPlan) (path : ErrorPath) (depth : Nat) :
    ExecM.Heeds (x.complete type value field path depth) := by
  by_cases missing : value = .null
  · subst missing
    rw [complete]
    exact ExecM.heeds_pure _
  cases type with
  | map item nullable =>
    rw [complete]
    · exact completeLeaf_heeds _ _ _
    · exact missing
  | list item nullable =>
    cases value with
    | list items =>
      rw [complete]
      refine (ExecM.heeds_mapM fun entry _ => ?_).bind fun _ => ExecM.heeds_pure _
      exact complete_heeds item entry.1.1 field _ depth
    | null => exact absurd rfl missing
    | const _ | map _ | host _ =>
      rw [complete]
      · exact fieldError_heeds _ _ _ _
      · exact missing
      · simp
  | named type nullable =>
    cases value with
    | host value =>
      rw [complete]
      exact completeHost_heeds (fun type r smaller field path depth => complete_heeds type r field path depth)
        type field path depth
    | null => exact absurd rfl missing
    | const _ | list _ | map _ =>
      rw [complete]
      · exact completePlain_heeds type _ field path
      · exact missing
      · simp
termination_by sizeOf value
decreasing_by
  · simp only [Resolved.host.sizeOf_spec]
    omega
  · have := List.sizeOf_lt_of_mem (QueryLimits.mem_of_mem_keepItems entry.1.2)
    simp only [Resolved.list.sizeOf_spec]
    omega

theorem shapeEvent_heeds (event : Resolved) : ExecM.Heeds (x.shapeEvent event) := by
  refine (ExecM.heeds_ofExcept _).bind fun fields => ?_
  cases fields with
  | nil => exact ExecM.heeds_pure _
  | cons field rest => exact ExecM.heeds_checked _

/-! ## Root fields -/

variable {field : FieldPlan} {s s' : ExecutionState}

theorem answer_heeds (ending : Ending) : ExecM.Heeds (x.answer field ending) := by
  cases ending with
  | typename => exact ExecM.heeds_pure _
  | misplaced operation => exact fieldError_heeds _ _ _ _
  | invalid e => exact ExecM.heeds_pushError _
  | result result =>
    cases result with
    | ok value => exact complete_heeds field.type value field field.rootPath 1
    | error failure =>
      cases failure with
      | error e => exact ExecM.heeds_pushError _
      | panic message => exact fieldError_heeds _ _ _ _

/-- Answering a root field does not cancel the request, so if it is cancelled then it was from the start. -/
theorem answer_quiet {ending : Ending} {result : Except Abort RootTask}
    (ran : outcome (x.answer field ending >>= field.finish) s = (result, s')) (cancelled : s'.cancelled = true) :
    s'.calls = s.calls := by
  rw [outcome_bind] at ran
  cases answered : outcome (x.answer field ending) s with
  | mk given t =>
    have heeds := @answer_heeds x field ending s
    obtain ⟨_, _, _, after, -⟩ := answer_after answered
    rw [answered] at ran heeds
    have same : t.cancelled = s.cancelled := by
      rw [after]
      rfl
    cases given with
    | ok v =>
      cases ran
      exact (heeds (same.symm.trans cancelled)).1
    | error abort =>
      cases ran
      exact (heeds (same.symm.trans cancelled)).1

/-- A resolver at work may cancel the request. If it does, what it returns is completed without a call. -/
theorem work_quiet (work : Work Resolved) {result : Except Abort RootTask}
    (ran : outcome (x.work field work) s = (result, s')) (cancelled : s'.cancelled = true) : s'.calls = s.calls := by
  induction work generalizing s with
  | done given =>
    have answered : outcome (x.answer field (.result given) >>= field.finish) s.released = (result, s') := ran
    exact answer_quiet (s := s.released) answered cancelled
  | pause next _ =>
    cases ran
    rfl
  | record entry next ih => exact @ih { s with journal := s.journal ++ [entry] } ran
  | cancel next ih => exact @ih { s with cancelled := true } ran
  | awaitCancel next ih =>
    rw [Execution.work, outcome_bind, outcome_get] at ran
    simp only at ran
    split at ran
    · exact ih ran
    · cases ran
      rfl
  | askCancelled next ih => exact ih s.cancelled ran

/-- Nothing was called, or only the resolver of the field. -/
def CallsOnly (field : FieldPlan) (s s' : ExecutionState) : Prop :=
  s'.calls = s.calls ∨
    ∃ operation arguments, s'.calls = .called field.responseKey operation arguments :: s.calls

theorem call_quiet {operation : OperationDescriptor} {resolver : Resolver Resolved} {result : Except Abort RootTask}
    (ran : outcome (x.call field operation resolver) s = (result, s')) (cancelled : s'.cancelled = true) :
    CallsOnly field s s' := by
  unfold call at ran
  rw [outcome_bind, ExecM.outcome_onRegistry] at ran
  cases read : outcome (operation.parseArguments x.inputContext field.arguments) s.registry with
  | mk given registry =>
    rw [read] at ran
    cases given with
    | error failure =>
      refine Or.inl ?_
      have answered : outcome (x.answer field (.ofFailure failure) >>= field.finish) { s with registry }.released =
          (result, s') := by
        cases failure with
        | error e => exact ran
        | panic message => exact ran
      exact answer_quiet (s := { s with registry }.released) answered cancelled
    | ok arguments =>
      refine Or.inr ⟨operation.name, arguments, ?_⟩
      simp only at ran
      cases called : resolver arguments with
      | ok work =>
        have works : outcome (x.work field work)
            ({ s with registry }.noting (.called field.responseKey operation.name arguments)) = (result, s') := by
          rw [called] at ran
          exact ran
        exact work_quiet work works cancelled
      | error message =>
        rw [called] at ran
        have answered : outcome (x.answer field (.result (.error (.panic message))) >>= field.finish)
            ({ s with registry }.noting (.called field.responseKey operation.name arguments)).released =
              (result, s') := ran
        exact answer_quiet
          (s := ({ s with registry }.noting (.called field.responseKey operation.name arguments)).released)
          answered cancelled

/-- Where slots are limited, no resolver is called once the request is cancelled. -/
theorem withResolver_quiet {result : Except Abort RootTask}
    (ran : outcome (x.withResolver field (x.enter field)) s = (result, s')) (cancelled : s'.cancelled = true) :
    s'.calls = s.calls ∨ (s.cancelled = false ∨ s.slots.limit = 0) ∧ CallsOnly field s s' := by
  unfold withResolver at ran
  cases target : field.target with
  | typename =>
    rw [target] at ran
    cases ran
    exact Or.inl rfl
  | operation operation =>
    rw [target] at ran
    simp only at ran
    cases calls : operation.resolver with
    | stream resolver =>
      rw [calls] at ran
      have answered : outcome (x.answer field (.misplaced operation) >>= field.finish) s = (result, s') := ran
      exact Or.inl (answer_quiet answered cancelled)
    | field resolver =>
      rw [calls] at ran
      simp only at ran
      rw [outcome_enter] at ran
      split at ran
      · cases ran
        exact Or.inl rfl
      · next goes =>
        split at ran
        · cases ran
          exact Or.inl rfl
        · next slots free =>
          refine Or.inr ⟨?_, call_quiet (s := { s with slots }) ran cancelled⟩
          cases calm : s.cancelled with
          | false => exact Or.inl rfl
          | true => exact Or.inr (Nat.eq_zero_of_not_pos fun limited => goes ⟨limited, calm⟩)
  | objectField owner index =>
    rw [target] at ran
    cases ran
    exact Or.inl rfl
  | interfaceField =>
    rw [target] at ran
    cases ran
    exact Or.inl rfl

theorem counting_calls (s : ExecutionState) (field : FieldPlan) : (counting s field).calls = s.calls := by
  unfold ExecutionState.calls
  rw [counting_events]

/-- A field that is not admitted ends at once. -/
theorem start_refused (refused : ¬x.Admits field s) : (outcome (x.start field) s).2.calls = s.calls := by
  have ended {abort : Abort} {t : ExecutionState} {there : Stage × ExecutionState}
      (legs : Legs x field (.task (.failed abort), t) there) : there.2 = t := by
    rcases legs.cases_head with rfl | ⟨_, leg, _⟩
    · rfl
    · cases leg
  have legs := @start_legs x field s
  rcases legs.cases_head with same | ⟨there, leg, rest⟩
  · exact congrArg (fun there => there.2.calls) same.symm
  · cases leg with
    | cancelled _ => exact congrArg ExecutionState.calls (ended rest)
    | tooDeep _ => exact congrArg ExecutionState.calls (ended rest)
    | tooComplex _ => exact (congrArg ExecutionState.calls (ended rest)).trans (counting_calls s field)
    | admitted admits => exact absurd admits refused

/-- An advance that ends when the request is cancelled calls nothing, unless the request was not cancelled before
and the resolver of the field is called, which may then have cancelled it. -/
theorem advance_quiet {task : RootTask} {result : Except Abort RootTask}
    (ran : outcome (x.advance field task) s = (result, s')) (cancelled : s'.cancelled = true)
    (limited : task = .queued → s.slots.limit ≠ 0) :
    s'.calls = s.calls ∨ s.cancelled = false ∧ task.isWaiting = true ∧ CallsOnly field s s' := by
  cases task with
  | fresh =>
    by_cases admits : x.Admits field s
    · have started : outcome (x.start field) s = (result, s') := ran
      rw [outcome_start admits] at started
      rw [← counting_calls s field]
      refine (withResolver_quiet started cancelled).imp_right fun called => ⟨admits.calm, rfl, ?_⟩
      have only := called.2
      unfold CallsOnly at only ⊢
      rwa [counting_calls] at only
    · have same := start_refused (x := x) admits
      rw [show outcome (x.start field) s = (result, s') from ran] at same
      exact Or.inl same
  | queued =>
    refine (withResolver_quiet ran cancelled).imp_right fun called => ⟨?_, rfl, called.2⟩
    exact called.1.resolve_right (limited rfl)
  | working work => exact Or.inl (work_quiet work ran cancelled)
  | done v =>
    cases ran
    exact Or.inl rfl
  | failed abort =>
    cases ran
    exact Or.inl rfl

end Execution

/-! ## Runs -/

/-- What may happen to a run: a field is polled, or the request is cancelled from outside. -/
inductive Move where
  | poll (i : Nat)
  | cancel

namespace Run

variable {x : Execution} {run : Run}

/-- The run once the request is cancelled. -/
def cancel (run : Run) : Run := { run with state := { run.state with cancelled := true } }

def move (x : Execution) (run : Run) : Move → Run
  | .poll i => run.poll x i
  | .cancel => run.cancel

/-- No field waits for a slot where slots are unlimited. -/
def Limited (run : Run) : Prop := ∀ entry ∈ run.tasks, entry.2 = .queued → run.state.slots.limit ≠ 0

theorem heed_limit (kind : OperationKind) (run : Run) : (heed kind run).state.slots.limit = run.state.slots.limit := by
  unfold heed
  split <;> rfl

theorem heed_calls (kind : OperationKind) (run : Run) : (heed kind run).state.calls = run.state.calls := by
  unfold heed
  split <;> rfl

theorem Poll.limit {run' : Run} (poll : Poll x run run') : run'.state.slots.limit = run.state.slots.limit := by
  cases poll with
  | idle => rfl
  | advance _ _ _ legs =>
    rw [heed_limit]
    exact legs.slots.1

theorem Limited.poll (limited : run.Limited) (i : Nat) : (run.poll x i).Limited := by
  intro entry mem queued
  rw [(poll_legs run i).limit]
  by_cases busy : run.aborted = none ∧ (∃ entry, run.tasks[i]? = some entry) ∧ run.isReady x.plan.kind i = true
  · obtain ⟨ongoing, ⟨⟨field, task⟩, at'⟩, ready⟩ := busy
    cases ran : outcome (x.advance field task) run.state with
    | mk result s =>
      have same : s.slots.limit = run.state.slots.limit := by
        have legs := @Execution.advance_legs x field task run.state
        rw [Execution.arrival, ran] at legs
        exact legs.slots.1
      rw [poll_eq ongoing at' ready ran, heed_tasks] at mem
      rcases List.mem_or_eq_of_mem_set mem with mem | rfl
      · exact limited entry mem queued
      · simp only at queued
        rcases Execution.advance_gains ran with gains | rests
        · rw [queued] at gains
          cases gains.1
        · have stays := rests.stays
          rw [queued] at stays
          cases stays with
          | waits waits =>
            cases waits with
            | slot full => exact same ▸ (acquire_eq_none.1 full).1
  · rw [poll_idle busy] at mem
    exact limited entry mem queued

theorem Limited.move (limited : run.Limited) (move : Move) : (run.move x move).Limited := by
  cases move with
  | poll i => exact limited.poll i
  | cancel => exact limited

theorem launch_limited (fields : List FieldPlan) (state : ExecutionState) : (launch fields state).Limited := by
  intro entry mem queued
  obtain ⟨field, _, rfl⟩ := List.mem_map.1 mem
  cases queued

theorem Limited.moves (limited : run.Limited) (moves : List Move) : (moves.foldl (Run.move x) run).Limited := by
  induction moves generalizing run with
  | nil => exact limited
  | cons move rest ih => exact ih (limited.move move)

theorem poll_cancelled (cancelled : run.state.cancelled = true) (i : Nat) : (run.poll x i).state.cancelled = true := by
  cases after : (run.poll x i).state.cancelled with
  | true => rfl
  | false => cases cancelled.symm.trans ((poll_legs run i).calm after)

/-- A poll after which the request is cancelled called nothing, unless it was this poll that cancelled it. -/
theorem Limited.poll_quiet (limited : run.Limited) {i : Nat} (cancelled : (run.poll x i).state.cancelled = true) :
    (run.poll x i).state.calls = run.state.calls ∨ run.state.cancelled = false ∧
      ∃ field task, run.tasks[i]? = some (field, task) ∧ task.isWaiting = true ∧
        Execution.CallsOnly field run.state (run.poll x i).state := by
  by_cases busy : run.aborted = none ∧ (∃ entry, run.tasks[i]? = some entry) ∧ run.isReady x.plan.kind i = true
  · obtain ⟨ongoing, ⟨⟨field, task⟩, at'⟩, ready⟩ := busy
    cases ran : outcome (x.advance field task) run.state with
    | mk result s =>
      rw [poll_eq ongoing at' ready ran] at cancelled ⊢
      unfold Execution.CallsOnly
      rw [heed_cancelled] at cancelled
      rw [heed_calls]
      refine (Execution.advance_quiet ran cancelled (limited _ (List.mem_of_getElem? at'))).imp_right ?_
      rintro ⟨calm, waiting, only⟩
      exact ⟨calm, field, task, at', waiting, only⟩
  · rw [poll_idle busy]
    exact Or.inl rfl

/-- What happens to a run that was cancelled calls nothing. -/
theorem Limited.move_quiet (limited : run.Limited) (cancelled : run.state.cancelled = true) (move : Move) :
    (run.move x move).state.cancelled = true ∧ (run.move x move).state.calls = run.state.calls := by
  cases move with
  | poll i =>
    refine ⟨poll_cancelled cancelled i, ?_⟩
    rcases limited.poll_quiet (poll_cancelled cancelled i) with same | ⟨calm, -⟩
    · exact same
    · cases calm.symm.trans cancelled
  | cancel => exact ⟨rfl, rfl⟩

theorem Limited.moves_quiet (limited : run.Limited) (cancelled : run.state.cancelled = true) (moves : List Move) :
    (moves.foldl (Run.move x) run).state.cancelled = true ∧
      (moves.foldl (Run.move x) run).state.calls = run.state.calls := by
  induction moves generalizing run with
  | nil => exact ⟨cancelled, rfl⟩
  | cons move rest ih =>
    obtain ⟨cancelled', same⟩ := limited.move_quiet (x := x) cancelled move
    obtain ⟨cancelled'', same'⟩ := ih (limited.move move) cancelled'
    exact ⟨cancelled'', same'.trans same⟩

end Run

/-! ## Subscriptions -/

namespace ExecM

variable {α β : Type}

/-- The computation calls no host code. -/
def Still (m : ExecM α) : Prop := ∀ s, (outcome m s).2.calls = s.calls

theorem still_pure (a : α) : Still (pure a) := fun _ => rfl

theorem still_throw (abort : Abort) : Still (throw abort : ExecM α) := fun _ => rfl

theorem still_ofExcept (result : Except ResponseError α) : Still (ofExcept result) := by
  cases result with
  | ok a => exact still_pure a
  | error e => exact still_throw (.error e)

theorem Still.bind {m : ExecM α} {f : α → ExecM β} (first : Still m) (next : ∀ a, Still (f a)) : Still (m >>= f) := by
  intro s
  have same := first s
  rw [outcome_bind]
  cases ran : outcome m s with
  | mk result t =>
    rw [ran] at same
    cases result with
    | error abort => exact same
    | ok a => exact (next a t).trans same

/-- The computation calls no host code but at most one resolver. -/
def CallsOne (m : ExecM α) : Prop :=
  ∀ s, (outcome m s).2.calls = s.calls ∨
    ∃ key operation arguments, (outcome m s).2.calls = .called key operation arguments :: s.calls

theorem Still.callsOne {m : ExecM α} (still : Still m) : CallsOne m := fun s => Or.inl (still s)

theorem Still.before {m : ExecM α} {f : α → ExecM β} (first : Still m) (next : ∀ a, CallsOne (f a)) :
    CallsOne (m >>= f) := by
  intro s
  have same := first s
  rw [outcome_bind]
  cases ran : outcome m s with
  | mk result t =>
    rw [ran] at same
    cases result with
    | error abort => exact Or.inl same
    | ok a =>
      rw [← same]
      exact next a t

theorem callsOne_note {key operation : String} {arguments : List Resolved} {m : ExecM α} (rest : Still m) :
    CallsOne (note (.called key operation arguments) >>= fun _ => m) :=
  fun s => Or.inr ⟨key, operation, arguments, rest (s.noting (.called key operation arguments))⟩

end ExecM

theorem Work.finish_still {α : Type} (work : Work α) : ExecM.Still work.finish := by
  induction work with
  | done result => exact ExecM.still_pure result
  | pause next ih => exact ih
  | record entry next ih => exact fun s => ih { s with journal := s.journal ++ [entry] }
  | cancel next ih => exact fun s => ih { s with cancelled := true }
  | awaitCancel next ih =>
    intro s
    rw [Work.finish, outcome_bind, outcome_get]
    simp only
    split
    · exact ih s
    · rfl
  | askCancelled next ih => exact fun s => ih s.cancelled s

namespace Execution

variable {x : Execution} {state : ExecutionState}

theorem openSource_callsOne (field : FieldPlan) (operation : OperationDescriptor) (resolver : Resolver EventSource) :
    ExecM.CallsOne (x.openSource field operation resolver) := by
  have read : ExecM.Still (ExecM.onRegistry (operation.parseArguments x.inputContext field.arguments).run) :=
    fun _ => rfl
  refine read.before fun result => ?_
  cases result with
  | error failure =>
    cases failure with
    | error e => exact (ExecM.still_throw _).callsOne
    | panic message => exact (ExecM.still_throw _).callsOne
  | ok arguments =>
    refine ExecM.callsOne_note ?_
    split
    · exact ExecM.still_throw _
    · refine (Work.finish_still _).bind fun result => ?_
      cases result with
      | error failure =>
        cases failure with
        | error e => exact ExecM.still_throw _
        | panic message => exact ExecM.still_throw _
      | ok source => exact ExecM.still_pure source

/-- Opening a subscription calls nothing but its resolver, and that once. -/
theorem subscribe_callsOne : ExecM.CallsOne x.subscribe := by
  refine (ExecM.still_ofExcept _).before fun _ => (ExecM.still_ofExcept _).before fun fields => ?_
  cases fields with
  | nil => exact (ExecM.still_throw _).callsOne
  | cons field rest =>
    have counted : ExecM.Still (ExecM.addComplexity x.limits field) := fun s =>
      ExecM.still_ofExcept (field.guard (x.limits.checkComplexity (saturatingAdd s.complexity field.complexity)))
        { s with complexity := saturatingAdd s.complexity field.complexity }
    refine (ExecM.still_ofExcept _).before fun _ => (ExecM.still_ofExcept _).before fun _ => counted.before fun _ => ?_
    split
    · split
      · exact openSource_callsOne _ _ _
      · exact (ExecM.still_throw _).callsOne
    · exact (ExecM.still_throw _).callsOne

end Execution

namespace ResponseStream

/-- A stream that was cancelled takes no event: what is left is to deliver what was executed before. -/
theorem step_cancelled {stream : ResponseStream} (cancelled : stream.cancelled = true) :
    ∃ next : Option ResponseStream, stream.step = pure next ∧
      ∀ n, next = some n → n.cancelled = true ∧ n.events = stream.events := by
  unfold step
  split
  · exact ⟨none, rfl, by simp⟩
  · split
    · refine ⟨_, rfl, ?_⟩
      split
      · rintro _ ⟨⟩
        exact ⟨cancelled, rfl⟩
      · simp
    · refine ⟨_, rfl, ?_⟩
      rintro _ ⟨⟩
      exact ⟨cancelled, rfl⟩
    · refine ⟨_, rfl, ?_⟩
      split
      · rintro _ ⟨⟩
        exact ⟨cancelled, by simp [stop, *]⟩
      · simp

theorem feed_cancelled {stream : ResponseStream} (cancelled : stream.cancelled = true) :
    ∃ fed, stream.feed = pure fed ∧ fed.events = stream.events := by
  obtain ⟨next, stepped, kept⟩ := step_cancelled cancelled
  rw [feed, stepped, pure_bind]
  cases next with
  | none => exact ⟨stream, rfl, rfl⟩
  | some n =>
    obtain ⟨cancelled', same⟩ := kept n rfl
    simp only
    split
    · obtain ⟨fed, ran, same'⟩ := feed_cancelled cancelled'
      exact ⟨fed, ran, same'.trans same⟩
    · exact ⟨n, rfl, same⟩
termination_by stream.stepsLeft

end ResponseStream

namespace Execution

variable {x : Execution} {state : ExecutionState}

/-- From the moment in which a request is cancelled it calls no host code. -/
structure HeedsCancellation (x : Execution) (state : ExecutionState) : Prop where
  /-- However polls and cancellations follow each other, what happens after a cancellation calls nothing. -/
  runs : ∀ fields (before after : List Move),
    (before.foldl (Run.move x) (Run.launch fields state)).state.cancelled = true →
      ((before ++ after).foldl (Run.move x) (Run.launch fields state)).state.calls =
        (before.foldl (Run.move x) (Run.launch fields state)).state.calls
  /-- A poll in which the request is cancelled from within calls nothing but, at first, the resolver of the field
  that is polled. -/
  cancels : ∀ fields (before : List Move) i,
    let run := before.foldl (Run.move x) (Run.launch fields state)
    run.state.cancelled = false → (run.poll x i).state.cancelled = true →
      (run.poll x i).state.calls = run.state.calls ∨
        ∃ field task operation arguments, run.tasks[i]? = some (field, task) ∧ task.isWaiting = true ∧
          (run.poll x i).state.calls = .called field.responseKey operation arguments :: run.state.calls
  /-- A request that was cancelled before it began calls nothing. -/
  execute : state.cancelled = true → (x.execute state).2.calls = state.calls
  executeEvent : state.cancelled = true → ∀ event, (x.executeEvent event state).2.calls = state.calls
  /-- Opening a subscription calls its resolver at most, and nothing after that. -/
  subscribe : (outcome x.subscribe state).2.calls = state.calls ∨
    ∃ key operation arguments, (outcome x.subscribe state).2.calls = .called key operation arguments :: state.calls
  /-- The stream of a subscription that was cancelled executes no event: feeding it changes nothing else. -/
  streams : ∀ stream : ResponseStream, stream.plan = x.plan → stream.cancelled = true →
    ∃ fed, stream.feed = pure fed ∧ fed.events = stream.events

theorem execute_heeds (cancelled : state.cancelled = true) : (x.execute state).2.calls = state.calls := by
  cases rooted : x.rootFields with
  | error e => rw [execute, rooted]
  | ok fields =>
    obtain ⟨polls, settled⟩ := Turn.settle_polls (x := x) (Turn.launch fields state)
    rw [execute_rooted rooted, settled]
    have quiet := (Run.launch_limited fields state).moves_quiet (x := x) cancelled (polls.map Move.poll)
    rw [List.foldl_map] at quiet
    exact quiet.2

/-- Queries, mutations and events heed a cancellation at every moment, in whatever order root fields are polled. -/
theorem cancellation_heeded : x.HeedsCancellation state where
  runs fields before after cancelled := by
    rw [List.foldl_append]
    exact (((Run.launch_limited fields state).moves before).moves_quiet cancelled after).2
  cancels fields before i := by
    intro run calm cancelled
    rcases ((Run.launch_limited fields state).moves before).poll_quiet cancelled with same | ⟨-, called⟩
    · exact Or.inl same
    · obtain ⟨field, task, at', waiting, same | ⟨operation, arguments, called⟩⟩ := called
      · exact Or.inl same
      · exact Or.inr ⟨field, task, operation, arguments, at', waiting, called⟩
  execute := execute_heeds
  executeEvent cancelled event := (shapeEvent_heeds event state cancelled).1
  subscribe := subscribe_callsOne state
  streams _ _ := ResponseStream.feed_cancelled

end Execution

/-! ## A subscription that is opened in vain -/

namespace TicksSubscription

def operation : OperationDescriptor :=
  { kind := .subscription, name := "ticks", info := {}, output := .named (.builtin .int32) true, mode := .positional
    binding := .arguments [], resolver := .stream fun _ => .ok (.done (.ok { events := [], staysOpen := false })) }

def options : CompileOptions :=
  { host := { builtinName := BuiltinType.scalarName, types := [] }
    operations := { subscription := [("ticks", operation)] }, scorer := .default, listSizeEstimate := 10 }

def field : FieldPlan :=
  { responseKey := "ticks", aliased := false, name := "ticks", location := .start, condition := none, directives := []
    arguments := [], target := .operation operation, type := operation.output, complexity := 1, selection := [] }

def execution : Execution :=
  { host := options.host, limits := {}, variableValues := []
    plan := { kind := .subscription, name := none, variableDefinitions := [], selection := [field] } }

/-- The request is cancelled before it begins. -/
def state : ExecutionState := { registry := {}, slots := { limit := 0 }, cancelled := true }

/-- The resolver of the subscription is called although the request was cancelled before it began. -/
theorem ticks_called : (outcome ((Compiler.mk options [] []).collect [] (.root .subscription) none []
      [.field ⟨.start, none, "ticks", [], []⟩ []]) {}).1 = .ok execution.plan.selection ∧
    state.cancelled = true ∧ state.calls = [] ∧
    (outcome execution.subscribe state).2.calls = [.called "ticks" "ticks" []] := by
  refine ⟨?_, rfl, rfl, ?_⟩
  · simp only [Compiler.collect]
    with_unfolding_all rfl
  · with_unfolding_all rfl

end TicksSubscription

end GraphQL
