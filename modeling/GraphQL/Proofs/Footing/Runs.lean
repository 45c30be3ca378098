import GraphQL.Proofs.Execution.Settling
import GraphQL.Proofs.Footing.Values

/-!
# Runs on a footing

The root fields of a request take turns, and every step of theirs is carried by a footing that covers the plan.
So a whole execution comes to the same with every registry that stands in for the one it leaves, in the same
number of rounds.
-/

namespace GraphQL

open Footing HoldsRegistry

theorem Work.finish_bears {f : Footing} {α : Type} (work : Work α) : f.Bears work.finish := by
  induction work with
  | done result => exact bears_pure _
  | pause next ih => exact ih
  | record entry next ih =>
    rw [Work.finish]
    exact Carries.then_ (bears_modify (fun _ => rfl) fun _ _ => rfl) ih
  | cancel next ih =>
    rw [Work.finish]
    exact Carries.then_ (bears_modify (fun _ => rfl) fun _ _ => rfl) ih
  | awaitCancel next ih =>
    rw [Work.finish]
    refine carries_get (fun s => ?_) fun _ _ _ => rfl
    split
    · exact ih
    · exact bears_throw _
  | askCancelled next ih =>
    rw [Work.finish]
    exact carries_get (fun s => ih s.cancelled) fun _ _ _ => rfl

namespace Execution

variable {x : Execution} {f : Footing} {field : FieldPlan}

/-! ## Root fields -/

theorem finish_bears (field : FieldPlan) (value : ResponseValue) : f.Bears (field.finish value) :=
  (bears_note _).bind fun _ _ => bears_pure _

theorem bears_releaseSlot : f.Bears ExecM.releaseSlot := bears_modify (fun _ => rfl) fun _ _ => rfl

theorem panicked_bears (field : FieldPlan) (message : String) : f.Bears (field.panicked message) :=
  bears_fieldError _ _ _ _

theorem completeRoot_bears (firm : f.Firm x.host) (within : field.Within f) (result : Except Failure Resolved) :
    f.Bears (x.completeRoot field result) := by
  cases result with
  | ok value => exact complete_bears firm _ value field _ 1 within.type within
  | error failure =>
    cases failure with
    | error e => exact bears_hostError _ _ _ _
    | panic message => exact panicked_bears field message

theorem work_bears (firm : f.Firm x.host) (within : field.Within f) (work : Work Resolved) :
    f.Bears (x.work field work) := by
  induction work with
  | done result =>
    rw [Execution.work]
    exact bears_releaseSlot.then_ ((completeRoot_bears firm within result).bind fun value _ => finish_bears field value)
  | pause next _ => exact bears_pure _
  | record entry next ih =>
    rw [Execution.work]
    exact Carries.then_ (bears_modify (fun _ => rfl) fun _ _ => rfl) ih
  | cancel next ih =>
    rw [Execution.work]
    exact Carries.then_ (bears_modify (fun _ => rfl) fun _ _ => rfl) ih
  | awaitCancel next ih =>
    rw [Execution.work]
    refine carries_get (fun s => ?_) fun _ _ _ => rfl
    split
    · exact ih
    · exact bears_pure _
  | askCancelled next ih =>
    rw [Execution.work]
    exact carries_get (fun s => ih s.cancelled) fun _ _ _ => rfl

theorem call_bears (firm : f.Firm x.host) (within : field.Within f) {operation : OperationDescriptor}
    (reads : operation.ReadsWithin f) (resolver : Resolver Resolved) : f.Bears (x.call field operation resolver) := by
  have read : f.Bears (operation.parseArguments x.inputContext field.arguments) :=
    @OperationDescriptor.parseArguments_bears f x.inputContext firm operation reads field.arguments
  refine read.onRegistry.bind fun result _ => ?_
  cases result with
  | error failure =>
    cases failure with
    | error e =>
      exact bears_releaseSlot.then_ ((bears_hostError _ _ _ _).bind fun value _ => finish_bears field value)
    | panic message =>
      exact bears_releaseSlot.then_ ((panicked_bears field message).bind fun value _ => finish_bears field value)
  | ok arguments =>
    refine (bears_note _).then_ ?_
    cases resolver arguments with
    | ok work => exact work_bears firm within work
    | error message =>
      exact bears_releaseSlot.then_ ((panicked_bears field message).bind fun value _ => finish_bears field value)

theorem enter_bears (firm : f.Firm x.host) (within : field.Within f) {operation : OperationDescriptor}
    (reads : operation.ReadsWithin f) (resolver : Resolver Resolved) : f.Bears (x.enter field operation resolver) := by
  unfold enter
  extract_lets slot
  have bears : f.Bears (slot ()) := by
    refine carries_get (fun s => ?_) fun _ _ _ => rfl
    split
    · exact bears_pure _
    · exact Carries.then_ (bears_modify (fun _ => rfl) fun _ _ => rfl) (call_bears firm within reads resolver)
  refine carries_get (fun s => ?_) fun _ _ _ => rfl
  split
  · exact bears_checkCancelled.then_ bears
  · exact bears

theorem withResolver_bears (firm : f.Firm x.host) (within : field.Within f) :
    f.Bears (x.withResolver field (x.enter field)) := by
  have target := within.target
  unfold withResolver
  split
  · exact finish_bears field _
  · next operation read =>
    rw [read] at target
    split
    · exact enter_bears firm within target _
    · exact (bears_fieldError _ _ _ _).bind fun value _ => finish_bears field value
  · exact bears_throw _
  · exact bears_throw _

theorem addComplexity_bears (limits : QueryLimits) (field : FieldPlan) : f.Bears (ExecM.addComplexity limits field) := by
  unfold ExecM.addComplexity
  refine Carries.then_ (bears_modify (fun _ => rfl) fun _ _ => rfl) ?_
  exact carries_get (fun s => carries_ofExcept fun _ _ => trivial) fun _ _ _ => rfl

theorem start_bears (firm : f.Firm x.host) (within : field.Within f) : f.Bears (x.start field) := by
  unfold start
  extract_lets rest
  have bears : f.Bears (rest ()) := withResolver_bears firm within
  refine bears_checkCancelled.then_ (Carries.then_ (carries_ofExcept fun _ _ => trivial) ?_)
  split
  · exact (addComplexity_bears x.limits field).then_ bears
  · exact bears

/-- A firm footing carries every step of a root field whose types it covers. -/
theorem advance_bears (firm : f.Firm x.host) (within : field.Within f) (task : RootTask) :
    f.Bears (x.advance field task) := by
  cases task with
  | fresh => exact start_bears firm within
  | queued => exact withResolver_bears firm within
  | working work => exact work_bears firm within work
  | done value => exact bears_pure _
  | failed abort => exact bears_throw _

/-! ## Subscriptions -/

theorem openSource_bears (firm : f.Firm x.host) (field : FieldPlan) {operation : OperationDescriptor}
    (reads : operation.ReadsWithin f) (resolver : Resolver EventSource) :
    f.Bears (x.openSource field operation resolver) := by
  have read : f.Bears (operation.parseArguments x.inputContext field.arguments) :=
    @OperationDescriptor.parseArguments_bears f x.inputContext firm operation reads field.arguments
  refine read.onRegistry.bind fun result _ => ?_
  cases result with
  | error failure =>
    cases failure with
    | error e => exact bears_throw _
    | panic message => exact bears_throw _
  | ok arguments =>
    refine (bears_note _).then_ ?_
    cases resolver arguments with
    | error message => exact bears_throw _
    | ok work =>
      refine (Work.finish_bears work).bind fun result _ => ?_
      cases result with
      | ok source => exact bears_pure _
      | error failure =>
        cases failure with
        | error e => exact bears_throw _
        | panic message => exact bears_throw _

theorem selected_carries (within : x.plan.Within f) :
    f.Carries (ExecM.ofExcept (x.collect x.plan.selection none)) (fun fields => ∀ field ∈ fields, field.Within f)
      fun _ => True :=
  carries_ofExcept fun _ collected field mem => within field (mem_of_collect collected mem)

theorem subscribe_bears (firm : f.Firm x.host) (within : x.plan.Within f) : f.Bears x.subscribe := by
  unfold subscribe
  refine Carries.then_ (carries_ofExcept fun _ _ => trivial) ((selected_carries within).bind fun fields each => ?_)
  cases fields with
  | nil => exact bears_throw _
  | cons field rest =>
    have target := (each field List.mem_cons_self).target
    refine Carries.then_ (carries_ofExcept fun _ _ => trivial) ?_
    refine Carries.then_ (carries_ofExcept fun _ _ => trivial) ((addComplexity_bears x.limits field).then_ ?_)
    split
    · next operation read =>
      rw [read] at target
      split
      · exact openSource_bears firm field target _
      · exact bears_throw _
    · exact bears_throw _

theorem shapeEvent_bears (firm : f.Firm x.host) (within : x.plan.Within f) (event : Resolved) :
    f.Bears (x.shapeEvent event) := by
  refine (selected_carries within).bind fun fields each => ?_
  cases fields with
  | nil => exact bears_pure _
  | cons field rest =>
    have here := each field List.mem_cons_self
    exact bears_checkCancelled.then_ ((complete_bears firm _ event field _ 1 here.type here).bind fun _ _ => bears_pure _)

end Execution

/-! ## Rounds -/

instance : HoldsRegistry Run where
  registry run := run.state.registry
  on run R := { run with state := { run.state with registry := R } }

instance : HoldsRegistry Turn where
  registry turn := turn.run.state.registry
  on turn R := { turn with run := on turn.run R }

/-- The root fields of a run are of types that are covered. -/
def Run.Within (f : Footing) (run : Run) : Prop := ∀ entry ∈ run.tasks, entry.1.Within f

section

variable {x : Execution} {f : Footing} {run : Run} {turn : Turn}

/-- A step leaves a sound registry and covered fields, and with every registry that stands in for the one it leaves
it is the same step. -/
structure Footing.Moves {σ : Type} [HoldsRegistry σ] (f : Footing) (within : σ → Prop) (step : σ → σ) (s : σ) :
    Prop where
  sound : f.sound (registry (step s))
  within : within (step s)
  again : ∀ R, f.standsIn (registry (step s)) R → f.standsIn (registry s) R ∧ step (on s R) = on (step s) R

theorem Footing.Moves.then_ {σ : Type} [HoldsRegistry σ] {within : σ → Prop} {step next : σ → σ} {s : σ}
    (first : f.Moves within step s) (rest : f.Moves within next (step s)) : f.Moves within (fun s => next (step s)) s := by
  refine ⟨rest.sound, rest.within, fun R standsIn => ?_⟩
  obtain ⟨between, same⟩ := rest.again R standsIn
  obtain ⟨before, same'⟩ := first.again R between
  exact ⟨before, by rw [same', same]⟩

theorem Run.heed_on (kind : OperationKind) (run : Run) (R : Registry) :
    (on run R : Run).heed kind = on (run.heed kind) R := by
  unfold heed
  rw [show (on run R : Run).failure? kind = run.failure? kind from rfl]
  cases run.failure? kind <;> rfl

theorem Run.poll_moves (firm : f.Firm x.host) (sound : f.sound run.state.registry) (within : run.Within f) (i : Nat) :
    f.Moves (Run.Within f) (fun run => run.poll x i) run := by
  by_cases busy : run.aborted = none ∧ (∃ entry, run.tasks[i]? = some entry) ∧ run.isReady x.plan.kind i = true
  · obtain ⟨ongoing, ⟨⟨field, task⟩, at'⟩, ready⟩ := busy
    have here : field.Within f := within _ (List.mem_of_getElem? at')
    obtain ⟨kept, -, -, again⟩ := Execution.advance_bears firm here task run.state sound
    cases ran : outcome (x.advance field task) run.state with
    | mk result s =>
      rw [ran] at kept again
      have polled : run.poll x i = _ := poll_eq ongoing at' ready ran
      have same : (run.poll x i).state.registry = s.registry := by rw [polled, heed_registry]
      refine ⟨?_, ?_, fun R standsIn => ?_⟩
      · change f.sound (run.poll x i).state.registry
        rw [same]
        exact kept
      · rw [polled]
        unfold Run.Within
        rw [heed_tasks]
        intro entry mem
        rcases List.mem_or_eq_of_mem_set mem with mem | rfl
        · exact within entry mem
        · exact here
      · change f.standsIn (run.poll x i).state.registry R at standsIn
        rw [same] at standsIn
        obtain ⟨before, same'⟩ := again R standsIn
        refine ⟨before, ?_⟩
        have polled' := @poll_eq x (on run R) i field task ongoing at' ready _ _ same'
        change (on run R : Run).poll x i = on (run.poll x i) R
        rw [polled', polled, ← heed_on]
        rfl
  · have idle : run.poll x i = run := poll_idle busy
    refine ⟨?_, ?_, fun R standsIn => ?_⟩
    · change f.sound (run.poll x i).state.registry
      rw [idle]
      exact sound
    · rw [idle]
      exact within
    · change f.standsIn (run.poll x i).state.registry R at standsIn
      rw [idle] at standsIn
      refine ⟨standsIn, ?_⟩
      have idle' : (on run R : Run).poll x i = on run R := poll_idle busy
      change (on run R : Run).poll x i = on (run.poll x i) R
      rw [idle', idle]

theorem Run.polls_move (firm : f.Firm x.host) (polls : List Nat) (sound : f.sound run.state.registry)
    (within : run.Within f) : f.Moves (Run.Within f) (fun run => polls.foldl (Run.poll x) run) run := by
  induction polls generalizing run with
  | nil => exact ⟨sound, within, fun R standsIn => ⟨standsIn, rfl⟩⟩
  | cons i rest ih =>
    have first := poll_moves firm sound within i
    exact first.then_ (ih first.sound first.within)

/-- The root fields of a turn are of types that are covered. -/
def Turn.Within (f : Footing) (turn : Turn) : Prop := turn.run.Within f

theorem Turn.polled_moves (firm : f.Firm x.host) (i : Nat) (rest : List Nat) (sound : f.sound turn.run.state.registry)
    (within : turn.Within f) : f.Moves (Turn.Within f) (polled x i rest) turn := by
  obtain ⟨kept, within, again⟩ := Run.poll_moves firm sound within i
  refine ⟨kept, within, fun R standsIn => ?_⟩
  obtain ⟨before, same⟩ := again R standsIn
  refine ⟨before, ?_⟩
  change (on turn R : Turn).run.poll x i = on (turn.run.poll x i) R at same
  unfold polled
  rw [same]
  rfl

theorem Turn.pollWoken_moves (firm : f.Firm x.host) (woken : List Nat) (sound : f.sound turn.run.state.registry)
    (within : turn.Within f) : f.Moves (Turn.Within f) (pollWoken x woken) turn := by
  induction woken generalizing turn with
  | nil => exact ⟨sound, within, fun R standsIn => ⟨standsIn, rfl⟩⟩
  | cons i rest ih =>
    have first := polled_moves firm i rest sound within
    exact first.then_ (ih first.sound first.within)

theorem Turn.pollAll_moves (firm : f.Firm x.host) (sound : f.sound turn.run.state.registry)
    (within : turn.Within f) : f.Moves (Turn.Within f) (pollAll x) turn := by
  obtain ⟨kept, within, again⟩ := Run.polls_move firm (List.range turn.run.tasks.length) sound within
  refine ⟨kept, within, fun R standsIn => ?_⟩
  obtain ⟨before, same⟩ := again R standsIn
  refine ⟨before, ?_⟩
  change (List.range turn.run.tasks.length).foldl (Run.poll x) (on turn R : Turn).run = _ at same
  change ({ on turn R with run := (List.range turn.run.tasks.length).foldl (Run.poll x) (on turn R : Turn).run } : Turn) = _
  rw [same]
  rfl

theorem Turn.moves_congr {within : Turn → Prop} {step step' : Turn → Turn} (moves : f.Moves within step turn)
    (same : ∀ R, step' (on turn R) = step (on turn R)) : f.Moves within step' turn := by
  have here : step' turn = step turn := same turn.run.state.registry
  obtain ⟨sound, kept, again⟩ := moves
  refine ⟨?_, ?_, fun R standsIn => ?_⟩
  · rw [here]
    exact sound
  · rw [here]
    exact kept
  · rw [here] at standsIn
    obtain ⟨before, again⟩ := again R standsIn
    exact ⟨before, by rw [same, here, again]⟩

/-- A footing that covers the fields carries a round. -/
theorem Turn.next_moves (firm : f.Firm x.host) (sound : f.sound turn.run.state.registry) (within : turn.Within f) :
    f.Moves (Turn.Within f) (next x) turn := by
  cases crowd : turn.run.isCrowd x.plan.kind with
  | false =>
    refine moves_congr (pollAll_moves firm sound within) fun R => ?_
    unfold next
    rw [show (on turn R : Turn).run.isCrowd x.plan.kind = false from crowd]
    rfl
  | true =>
    cases awake : turn.woken.isEmpty with
    | true =>
      have rested : f.Moves (Turn.Within f) (fun turn => { turn with resting := [] }) turn :=
        ⟨sound, within, fun R standsIn => ⟨standsIn, rfl⟩⟩
      refine moves_congr (rested.then_ (pollWoken_moves firm turn.resting sound within)) fun R => ?_
      unfold next
      rw [show (on turn R : Turn).run.isCrowd x.plan.kind = true from crowd,
        show (on turn R : Turn).woken.isEmpty = true from awake]
      rfl
    | false =>
      have taken : f.Moves (Turn.Within f) (fun turn => { turn with woken := [] }) turn :=
        ⟨sound, within, fun R standsIn => ⟨standsIn, rfl⟩⟩
      refine moves_congr (taken.then_ (pollWoken_moves firm turn.woken sound within)) fun R => ?_
      unfold next
      rw [show (on turn R : Turn).run.isCrowd x.plan.kind = true from crowd,
        show (on turn R : Turn).woken.isEmpty = false from awake]
      rfl

/-- Rounds come to the same in every registry that stands in for the one they leave. -/
theorem Turn.settle_moves (firm : f.Firm x.host) (sound : f.sound turn.run.state.registry) (within : turn.Within f) :
    f.sound (turn.settle x).state.registry ∧
      ∀ R, f.standsIn (turn.settle x).state.registry R →
        f.standsIn turn.run.state.registry R ∧ (on turn R : Turn).settle x = on (turn.settle x) R := by
  refine settle_induction (x := x)
    (motive := fun turn run => f.sound turn.run.state.registry → turn.Within f →
      f.sound run.state.registry ∧
        ∀ R, f.standsIn run.state.registry R →
          f.standsIn turn.run.state.registry R ∧ (on turn R : Turn).settle x = on run R)
    (fun turn idle sound within => ?_) (fun turn gains ih sound within => ?_) turn sound within
  · obtain ⟨kept, -, again⟩ := next_moves firm sound within
    refine ⟨kept, fun R standsIn => ?_⟩
    obtain ⟨before, same⟩ := again R standsIn
    refine ⟨before, ?_⟩
    rcases @settle_cases x (on turn R) with ⟨-, settled⟩ | ⟨gains, -⟩
    · rw [settled, same]
      rfl
    · rw [same] at gains
      exact absurd gains idle
  · obtain ⟨kept, within', again⟩ := next_moves firm sound within
    obtain ⟨kept', again'⟩ := ih kept within'
    refine ⟨kept', fun R standsIn => ?_⟩
    obtain ⟨between, same'⟩ := again' R standsIn
    obtain ⟨before, same⟩ := again R between
    refine ⟨before, ?_⟩
    rcases @settle_cases x (on turn R) with ⟨idle, -⟩ | ⟨-, settled⟩
    · rw [same] at idle
      exact absurd gains idle
    · rw [settled, same, same']

/-! ## Executions -/

namespace Execution

/-- What is executed comes to the same in every registry that stands in for the one that is left. -/
theorem execute_keeps (firm : f.Firm x.host) (within : x.plan.Within f) {state : ExecutionState}
    (sound : f.sound state.registry) : f.KeepsAt x.execute state := by
  cases rooted : x.rootFields with
  | error e =>
    have refused (state : ExecutionState) : x.execute state = (.ok (Response.ofError e), state) := by rw [execute, rooted]
    refine ⟨?_, fun R standsIn => ?_⟩
    · rw [refused]
      exact sound
    · rw [refused] at standsIn
      exact ⟨standsIn, by rw [refused, refused]⟩
  | ok fields =>
    have covered : (Turn.launch fields state).Within f := by
      intro entry mem
      obtain ⟨field, of, rfl⟩ := List.mem_map.1 mem
      exact within field (mem_of_collect (rootFields_eq_ok rooted).1 of)
    obtain ⟨kept, again⟩ := Turn.settle_moves firm sound covered
    refine ⟨?_, fun R standsIn => ?_⟩
    · rw [execute_rooted rooted]
      exact kept
    · rw [execute_rooted rooted] at standsIn ⊢
      obtain ⟨before, same⟩ := again R standsIn
      refine ⟨before, ?_⟩
      rw [execute_rooted rooted]
      change (respond ((on (Turn.launch fields state) R : Turn).settle x).data _, _) = _
      rw [show Turn.launch fields (on state R) = on (Turn.launch fields state) R from rfl, same]
      rfl

theorem subscribe_keeps (firm : f.Firm x.host) (within : x.plan.Within f) {state : ExecutionState}
    (sound : f.sound state.registry) : f.KeepsAt (outcome x.subscribe) state :=
  (subscribe_bears firm within state sound).keeps

theorem executeEvent_keeps (firm : f.Firm x.host) (within : x.plan.Within f) (event : Resolved) {state : ExecutionState}
    (sound : f.sound state.registry) : f.KeepsAt (x.executeEvent event) state := by
  obtain ⟨kept, -, -, again⟩ := shapeEvent_bears firm within event state sound
  refine ⟨kept, fun R standsIn => ?_⟩
  obtain ⟨before, same⟩ := again R standsIn
  refine ⟨before, ?_⟩
  have shaped (state : ExecutionState) : x.executeEvent event state =
      (respond (outcome (x.shapeEvent event) state).1 (outcome (x.shapeEvent event) state).2.errors,
        (outcome (x.shapeEvent event) state).2) := rfl
  rw [shaped, shaped, same]
  rfl

end Execution

end

end GraphQL
