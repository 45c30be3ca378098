import GraphQL.Proofs.Execution.Abreast
import GraphQL.Proofs.Execution.Crowds
import GraphQL.Proofs.Execution.Outlines
import GraphQL.Proofs.Execution.Serial

/-!
# Runs in lockstep

Which field takes its turn does not depend on the values that fields come to, so two executions that keep
abreast take all turns alike. `Run.shape` is what the turns depend on; runs of the same shape are polled alike,
and settle alike, unless the first fails with an excuse: `settle_lockstep`.
-/

namespace GraphQL

/-- The state without what the turns of fields do not depend on. -/
def ExecutionState.shape (s : ExecutionState) : ExecutionState :=
  { registry := {}, slots := s.slots, cancelled := s.cancelled, complexity := s.complexity }

/-- The run without what its turns do not depend on. -/
def Run.shape (run : Run) : Run where
  tasks := run.tasks.map fun entry => (entry.1, entry.2.shape)
  state := run.state.shape
  aborted := run.aborted

theorem RootTask.outline_shape (task : RootTask) : task.shape.outline = task.outline := by cases task <;> rfl

namespace Run

variable (run : Run)

/-- Turns do not depend on the values that fields come to. -/
theorem outline_shape : run.shape.outline = run.outline := by
  unfold outline outlines shape
  rw [List.map_map]
  exact congrArg (Run.mk · run.state.outline run.aborted)
    (List.map_congr_left fun entry _ => Prod.ext rfl entry.2.outline_shape)

/-! ## Polls -/

/-- A field has failed with an excuse. -/
def Broken (w : Leeway) (run : Run) : Prop := ∃ field abort, (field, .failed abort) ∈ run.tasks ∧ w.excuse abort

/-- Two runs have taken the same turns. -/
structure Lockstep (w : Leeway) (run run' : Run) : Prop where
  shape : run'.shape = run.shape
  errors : (∀ entry ∈ run.tasks, entry.2.abort? = none) → run'.state.errors = run.state.errors.filter (·.isKept w.kept)

variable {run} {run' : Run} {w : Leeway}

namespace Lockstep

variable (lockstep : run.Lockstep w run')

include lockstep

theorem aborted : run'.aborted = run.aborted :=
  show run'.shape.aborted = run.shape.aborted by rw [lockstep.shape]

theorem abreast : run.state.Abreast run'.state :=
  ⟨congrArg (fun run => run.state.slots) lockstep.shape, congrArg (fun run => run.state.complexity) lockstep.shape⟩

theorem outline : run'.outline = run.outline := by rw [← outline_shape, lockstep.shape, outline_shape]

theorem entry {i : Nat} {field : FieldPlan} {task : RootTask} (at' : run.tasks[i]? = some (field, task)) :
    ∃ task', run'.tasks[i]? = some (field, task') ∧ task'.shape = task.shape := by
  have same : run'.shape.tasks[i]? = run.shape.tasks[i]? := congrArg (fun run => run.tasks[i]?) lockstep.shape
  change (run'.tasks.map _)[i]? = (run.tasks.map _)[i]? at same
  rw [List.getElem?_map, List.getElem?_map, at', Option.map_some, Option.map_eq_some_iff] at same
  obtain ⟨⟨field', task'⟩, there, eq⟩ := same
  obtain ⟨rfl, shape⟩ := Prod.mk.inj eq
  exact ⟨task', there, shape⟩

theorem set (i : Nat) (field : FieldPlan) {task task' : RootTask} (same : task'.shape = task.shape)
    {s s' : ExecutionState} (abreast : s.Abreast s') (cancelled : s'.cancelled = s.cancelled) :
    Run.shape { run' with tasks := run'.tasks.set i (field, task'), state := s' } =
      Run.shape { run with tasks := run.tasks.set i (field, task), state := s } := by
  have tasks : run'.shape.tasks = run.shape.tasks := by rw [lockstep.shape]
  have state : s'.shape = s.shape := by
    unfold ExecutionState.shape
    rw [abreast.slots, abreast.complexity, cancelled]
  unfold Run.shape at tasks ⊢
  simp only at tasks
  simp only [List.map_set]
  rw [tasks, same, state, lockstep.aborted]

end Lockstep

theorem unfailed_of_set {tasks : List (FieldPlan × RootTask)} {i : Nat} {field : FieldPlan} {task task' : RootTask}
    (at' : tasks[i]? = some (field, task)) (unfailed : ∀ abort, task ≠ .failed abort)
    (others : ∀ entry ∈ tasks.set i (field, task'), entry.2.abort? = none) : ∀ entry ∈ tasks, entry.2.abort? = none := by
  intro entry mem
  obtain ⟨j, atj⟩ := List.getElem?_of_mem mem
  by_cases same : i = j
  · subst same
    cases at'.symm.trans atj
    cases task with
    | failed abort => exact absurd rfl (unfailed abort)
    | _ => rfl
  · exact others entry (List.mem_of_getElem? ((List.getElem?_set_ne same).trans atj))

theorem Poll.broken {x : Execution} (poll : Poll x run run') (broken : run.Broken w) : run'.Broken w := by
  cases poll with
  | idle => exact broken
  | @advance i field task task' s ongoing at' ready legs =>
    obtain ⟨f, abort, mem, excuse⟩ := broken
    obtain ⟨j, atj⟩ := List.getElem?_of_mem mem
    refine ⟨f, abort, ?_, excuse⟩
    rw [heed_tasks]
    by_cases same : i = j
    · subst same
      cases at'.symm.trans atj
      cases legs.ended (Or.inr rfl)
      exact List.mem_of_getElem? (List.getElem?_set_self (List.getElem?_eq_some_iff.1 at').1)
    · exact List.mem_of_getElem? ((List.getElem?_set_ne same).trans atj)

theorem polls_broken {x : Execution} (broken : run.Broken w) (polls : List Nat) :
    (polls.foldl (Run.poll x) run).Broken w := polls_keep (fun _ _ poll => poll.broken) broken polls

theorem heed_shape {kind : OperationKind} (same : run'.shape = run.shape) :
    (heed kind run').shape = (heed kind run).shape := by
  have outline : run'.outline = run.outline := by rw [← outline_shape, same, outline_shape]
  have given (run : Run) (abort : Abort) (count : Nat) :
      Run.shape { run with state := { run.state with slots := run.state.slots.release count }, aborted := some abort } =
        { run.shape with
            state := { run.shape.state with slots := run.shape.state.slots.release count }, aborted := some abort } :=
    rfl
  unfold heed
  rw [failure?_of_outline outline, slotsHeld_of_outline outline]
  split
  · exact same
  · rw [given, given, same]

/-- Neither run is cancelled, and the types of both are in one registry. -/
structure Joins (x : Execution) (R : Registry) (run run' : Run) : Prop where
  calm : run.state.cancelled = false
  calm' : run'.state.cancelled = false
  covers : x.host.Covers run.state.registry R
  covers' : x.host.Covers run'.state.registry R

section

variable {x : Execution} {R : Registry} {limits' : QueryLimits} (guides : x.limits.Guides w limits')

include guides

theorem Lockstep.poll (lockstep : run.Lockstep w run') (i : Nat)
    (joins : (run.poll x i).Joins x R (run'.poll (x.under limits') i)) :
    (run.poll x i).Lockstep w (run'.poll (x.under limits') i) ∨ (run.poll x i).Broken w := by
  have turn := busy_of_outline lockstep.outline x.plan.kind i
  by_cases busy : run.aborted = none ∧ (∃ entry, run.tasks[i]? = some entry) ∧ run.isReady x.plan.kind i = true
  · have busy' := turn.2 busy
    obtain ⟨ongoing, ⟨⟨field, task⟩, at'⟩, ready⟩ := busy
    obtain ⟨task', at'', same⟩ := lockstep.entry at'
    have meets := (@Execution.advance_abreast x field R w limits' guides _ _ same).meets run.state run'.state
      lockstep.abreast
    cases ran : outcome (x.advance field task) run.state with
    | mk result s =>
      cases ran' : outcome ((x.under limits').advance field task') run'.state with
      | mk result' s' =>
        have polled := poll_eq ongoing at' ready ran
        have polled' := poll_eq (x := x.under limits') busy'.1 at'' busy'.2.2 ran'
        obtain ⟨calm, calm', covers, covers'⟩ := joins
        rw [polled, heed_cancelled] at calm
        rw [polled', heed_cancelled] at calm'
        rw [polled, heed_registry] at covers
        rw [polled', heed_registry] at covers'
        rw [ran, ran'] at meets
        have bound : i < run.tasks.length := (List.getElem?_eq_some_iff.1 at').1
        have meets := meets calm calm' covers covers'
        have shaped (result result' : RootTask) (same : result'.shape = result.shape) (abreast : s.Abreast s') :
            Run.shape { run' with tasks := run'.tasks.set i (field, result'), state := s' } =
              Run.shape { run with tasks := run.tasks.set i (field, result), state := s } :=
          lockstep.set i field same abreast (calm'.trans calm.symm)
        rw [polled, polled']
        cases meets with
        | excused excuse =>
          refine Or.inr ⟨field, _, ?_, excuse⟩
          rw [heed_tasks]
          exact List.mem_set bound _
        | failed abreast =>
          refine Or.inl ⟨heed_shape (shaped _ _ rfl abreast), fun unfailed => ?_⟩
          rw [heed_tasks] at unfailed
          cases unfailed _ (List.mem_set bound _)
        | @came a b _ _ es holds abreast errors errors' =>
          refine Or.inl ⟨heed_shape (shaped _ _ holds abreast), fun unfailed => ?_⟩
          rw [heed_tasks] at unfailed
          have before := lockstep.errors (unfailed_of_set at' (fun abort failed => by subst failed; cases ran) unfailed)
          rw [heed_errors, heed_errors, errors, errors', before, List.filter_append]
  · rw [poll_idle busy, poll_idle (x := x.under limits') fun busy' => busy (turn.1 busy')]
    exact Or.inl lockstep

omit guides in
theorem Joins.before {polls polls' : List Nat}
    (joins : (polls.foldl (Run.poll x) run).Joins x R (polls'.foldl (Run.poll (x.under limits')) run')) :
    run.Joins x R run' where
  calm := polls_calm joins.calm
  calm' := polls_calm joins.calm'
  covers := joins.covers.after (polls_grow run polls)
  covers' := joins.covers'.after (polls_grow (x := x.under limits') run' polls')

theorem Lockstep.polls (lockstep : run.Lockstep w run') (polls : List Nat)
    (joins : (polls.foldl (Run.poll x) run).Joins x R (polls.foldl (Run.poll (x.under limits')) run')) :
    (polls.foldl (Run.poll x) run).Lockstep w (polls.foldl (Run.poll (x.under limits')) run') ∨
      (polls.foldl (Run.poll x) run).Broken w := by
  induction polls generalizing run run' with
  | nil => exact Or.inl lockstep
  | cons i rest ih =>
    rw [List.foldl_cons, List.foldl_cons] at joins ⊢
    rcases lockstep.poll guides i joins.before with lockstep | broken
    · exact ih lockstep joins
    · exact Or.inr (polls_broken broken rest)

end

end Run

/-! ## Turns -/

namespace Turn

/-- Two runs that have taken the same turns, and of which the same fields were woken. -/
structure Lockstep (w : Leeway) (turn turn' : Turn) : Prop where
  run : turn.run.Lockstep w turn'.run
  woken : turn'.woken = turn.woken
  resting : turn'.resting = turn.resting

section

variable {x : Execution} {R : Registry} {w : Leeway} {limits' : QueryLimits} {turn turn' : Turn}

theorem settle_next (turn : Turn) : ∃ polls : List Nat, turn.settle x = polls.foldl (Run.poll x) (turn.next x).run := by
  rcases settle_cases (x := x) turn with ⟨-, settled⟩ | ⟨-, settled⟩
  · exact ⟨[], settled⟩
  · obtain ⟨polls, polled⟩ := settle_polls (x := x) (turn.next x)
    exact ⟨polls, settled.trans polled⟩

variable (guides : x.limits.Guides w limits')

include guides

theorem Lockstep.pollWoken (lockstep : turn.Lockstep w turn') (woken : List Nat)
    (joins : (Turn.pollWoken x woken turn).run.Joins x R (Turn.pollWoken (x.under limits') woken turn').run) :
    (Turn.pollWoken x woken turn).Lockstep w (Turn.pollWoken (x.under limits') woken turn') ∨
      (Turn.pollWoken x woken turn).run.Broken w := by
  induction woken generalizing turn turn' with
  | nil => exact Or.inl lockstep
  | cons i rest ih =>
    rw [pollWoken_cons, pollWoken_cons] at joins ⊢
    have before : (turn.run.poll x i).Joins x R (turn'.run.poll (x.under limits') i) := by
      rw [pollWoken_polls, pollWoken_polls] at joins
      exact joins.before
    rcases lockstep.run.poll guides i before with polled | broken
    · refine ih ⟨polled, ?_, ?_⟩ joins
      · unfold Turn.polled
        simp only
        rw [Run.admitted_of_outline polled.outline, Run.gaveWay_of_outline polled.outline, lockstep.woken, lockstep.resting]
      · unfold Turn.polled
        simp only
        rw [Run.gaveWay_of_outline polled.outline, lockstep.resting]
    · refine Or.inr ?_
      rw [pollWoken_polls]
      exact Run.polls_broken broken rest

theorem Lockstep.next (lockstep : turn.Lockstep w turn')
    (joins : (turn.next x).run.Joins x R (turn'.next (x.under limits')).run) :
    (turn.next x).Lockstep w (turn'.next (x.under limits')) ∨ (turn.next x).run.Broken w := by
  have crowd : turn'.run.isCrowd (x.under limits').plan.kind = turn.run.isCrowd x.plan.kind := Run.isCrowd_of_outline lockstep.run.outline _
  have with' (woken resting : List Nat) :
      Turn.Lockstep w { turn with woken, resting } { turn' with woken, resting } := ⟨lockstep.run, rfl, rfl⟩
  unfold Turn.next at joins ⊢
  rw [crowd, lockstep.woken, lockstep.resting] at joins ⊢
  by_cases few : (!turn.run.isCrowd x.plan.kind) = true
  · rw [if_pos few] at joins ⊢
    rw [if_pos few] at joins ⊢
    unfold pollAll at joins ⊢
    rw [Run.length_of_outline lockstep.run.outline] at joins ⊢
    exact (lockstep.run.polls guides _ joins).imp_left fun polled => ⟨polled, lockstep.woken, lockstep.resting⟩
  · rw [if_neg few] at joins ⊢
    rw [if_neg few] at joins ⊢
    by_cases none : turn.woken.isEmpty = true
    · rw [if_pos none] at joins ⊢
      rw [if_pos none] at joins ⊢
      exact (with' turn.woken []).pollWoken guides turn.resting joins
    · rw [if_neg none] at joins ⊢
      rw [if_neg none] at joins ⊢
      exact (with' [] turn.resting).pollWoken guides turn.woken joins

/-- Runs in lockstep settle in lockstep, unless a field of the first fails with an excuse. -/
theorem Lockstep.settle (lockstep : turn.Lockstep w turn')
    (joins : (turn.settle x).Joins x R (turn'.settle (x.under limits'))) :
    (turn.settle x).Lockstep w (turn'.settle (x.under limits')) ∨ (turn.settle x).Broken w := by
  refine settle_induction (x := x)
    (motive := fun turn run => ∀ turn', turn.Lockstep w turn' → run.Joins x R (turn'.settle (x.under limits')) →
      run.Lockstep w (turn'.settle (x.under limits')) ∨ run.Broken w)
    (fun turn idle turn' lockstep joins => ?_) (fun turn gains settled turn' lockstep joins => ?_) turn turn' lockstep joins
  · obtain ⟨polls, polled⟩ := settle_next (x := x.under limits') turn'
    have before : (turn.next x).run.Joins x R (turn'.next (x.under limits')).run := by
      rw [polled] at joins
      exact @Run.Joins.before _ _ _ _ _ [] _ joins
    rcases lockstep.next guides before with after | broken
    · have idle' : ¬turn'.run.Gains (turn'.next (x.under limits')).run := fun gains =>
        idle ((Run.gains_of_outline lockstep.run.outline after.run.outline).1 gains)
      rcases settle_cases (x := x.under limits') turn' with ⟨-, settled⟩ | ⟨gains, -⟩
      · rw [settled]
        exact Or.inl after.run
      · exact absurd gains idle'
    · exact Or.inr broken
  · obtain ⟨polls, polled⟩ := settle_polls (x := x) (turn.next x)
    obtain ⟨polls', polled'⟩ := settle_next (x := x.under limits') turn'
    have before : (turn.next x).run.Joins x R (turn'.next (x.under limits')).run := by
      rw [polled, polled'] at joins
      exact joins.before
    rcases lockstep.next guides before with after | broken
    · have gains' := (Run.gains_of_outline lockstep.run.outline after.run.outline).2 gains
      rcases settle_cases (x := x.under limits') turn' with ⟨idle, -⟩ | ⟨-, same⟩
      · exact absurd gains' idle
      · rw [same] at joins ⊢
        exact settled (turn'.next (x.under limits')) after joins
    · refine Or.inr ?_
      rw [polled]
      exact Run.polls_broken broken polls

end

end Turn

end GraphQL
