import GraphQL.Proofs.Execution.Aborts
import GraphQL.Proofs.Execution.Legs
import GraphQL.Proofs.Execution.Trading

/-!
# Where a run settles

A poll gets a root field further or leaves it where it is, and then the field is finished, waits for a slot
when none is free, or waits for a cancellation. Rounds of polls end when nothing gets further, so that in the
end this is true of every field whose turn it is: `settle_rested`.
-/

namespace GraphQL

theorem foldr_add_set {α : Type} (f : α → Nat) {items : List α} {i : Nat} {a : α} (at' : items[i]? = some a) (b : α) :
    (items.set i b).foldr (fun item total => f item + total) 0 + f a =
      items.foldr (fun item total => f item + total) 0 + f b := by
  induction items generalizing i with
  | nil => cases at'
  | cons first rest ih =>
    cases i with
    | zero =>
      cases at'
      simp only [List.set_cons_zero, List.foldr_cons]
      omega
    | succ i =>
      have others := ih (i := i) at'
      simp only [List.set_cons_succ, List.foldr_cons]
      omega

theorem foldr_add_eq_zero {α : Type} {f : α → Nat} {items : List α} (none : ∀ item ∈ items, f item = 0) :
    items.foldr (fun item total => f item + total) 0 = 0 := by
  induction items with
  | nil => rfl
  | cons first rest ih =>
    rw [List.foldr_cons, none first List.mem_cons_self, ih fun item mem => none item (List.mem_cons_of_mem _ mem)]

namespace RootTask

/-- What holds a root field back. -/
inductive Waits (s : ExecutionState) : RootTask → Prop
  | slot (full : s.slots.acquire? = none) : Waits s .queued
  | cancellation {next : Work Resolved} (calm : s.cancelled = false) : Waits s (.working (.awaitCancel next))

/-- The field is finished or held back. -/
inductive Stays (s : ExecutionState) : RootTask → Prop
  | done {v : ResponseValue} : Stays s (.done v)
  | failed {abort : Abort} : Stays s (.failed abort)
  | waits {task : RootTask} (waits : task.Waits s) : Stays s task

/-- The field has got further: its resolver was called, or has fewer steps left. -/
def Gains (task task' : RootTask) : Prop :=
  task'.isWaiting = false ∧ (task.isWaiting = true ∨ task.isWaiting = false ∧ task'.size < task.size)

/-- Only the wait for a slot has begun. -/
def Lingers (task task' : RootTask) : Prop := task' = task ∨ task = .fresh ∧ task' = .queued

theorem Stays.same {s s' : ExecutionState} {task : RootTask} (stays : task.Stays s) (slots : s'.slots = s.slots)
    (cancelled : s'.cancelled = s.cancelled) : task.Stays s' := by
  cases stays with
  | done => exact .done
  | failed => exact .failed
  | waits waits =>
    cases waits with
    | slot full => exact .waits (.slot (slots ▸ full))
    | cancellation calm => exact .waits (.cancellation (cancelled ▸ calm))

end RootTask

/-- A field is left where it is, with the slots and the cancellation of the request. -/
structure Rests (task : RootTask) (s : ExecutionState) (task' : RootTask) (s' : ExecutionState) : Prop where
  stays : task'.Stays s'
  lingers : task.Lingers task'
  slots : s'.slots = s.slots
  cancelled : s'.cancelled = s.cancelled

namespace Execution

variable {x : Execution} {field : FieldPlan} {s s' : ExecutionState}

theorem work_size_le {work : Work Resolved} {task : RootTask} (ran : outcome (x.work field work) s = (.ok task, s')) :
    task.size ≤ work.size + 1 := by
  rcases work_shrinks work ran with ⟨rfl, -⟩ | smaller
  · exact Nat.le_refl _
  · exact Nat.le_of_lt smaller

/-- Work that is left as it is waits for a cancellation. -/
theorem work_waits {work : Work Resolved} (ran : outcome (x.work field work) s = (.ok (.working work), s')) :
    (RootTask.working work).Waits s := by
  -- the work that is left when a step was made is smaller, so no step was made
  have shorter (next : Work Resolved) (less : next.size < work.size) (u : ExecutionState)
      (ran : outcome (x.work field next) u = (.ok (.working work), s')) : False := by
    have bound : work.size + 1 ≤ next.size + 1 := work_size_le ran
    omega
  cases work with
  | done result =>
    obtain ⟨_, _, _, ran⟩ := outcome_bind_eq_ok.1 ran
    obtain ⟨_, _, _, finished⟩ := outcome_bind_eq_ok.1 ran
    cases finished
  | pause next =>
    have same : next = .pause next := RootTask.working.inj (Except.ok.inj (Prod.mk.inj ran).1)
    have := congrArg Work.size same
    simp [Work.size] at this
  | record entry next =>
    exact (shorter next (Nat.lt_succ_self _) { s with journal := s.journal ++ [entry] } ran).elim
  | cancel next =>
    exact (shorter next (Nat.lt_succ_self _) { s with cancelled := true } ran).elim
  | awaitCancel next =>
    refine .cancellation ?_
    rw [Execution.work, outcome_bind, outcome_get] at ran
    simp only at ran
    split at ran
    · exact (shorter next (Nat.lt_succ_self _) _ ran).elim
    · next calm => simpa using calm
  | askCancelled next =>
    have bound : (next s.cancelled).size < (Work.askCancelled next).size := by
      cases s.cancelled with
      | true => exact Nat.lt_succ_of_le (Nat.le_max_left _ _)
      | false => exact Nat.lt_succ_of_le (Nat.le_max_right _ _)
    exact (shorter _ bound _ ran).elim

/-- A field waits for a slot only when none is free. -/
theorem withResolver_full (ran : outcome (x.withResolver field (x.enter field)) s = (.ok .queued, s')) :
    s' = s ∧ s.slots.acquire? = none := by
  rcases withResolver_trades ran with ⟨-, rfl⟩ | ⟨called, -⟩
  · refine ⟨rfl, ?_⟩
    unfold withResolver at ran
    split at ran
    · cases ran
    · split at ran
      · rw [outcome_enter] at ran
        split at ran
        · cases ran
        · split at ran
          · assumption
          · next slots free => exact absurd (call_trades ran).1 id
      · obtain ⟨_, _, _, finished⟩ := outcome_bind_eq_ok.1 ran
        cases finished
    · cases ran
    · cases ran
  · exact called.elim

theorem withResolver_gains {result : Except Abort RootTask} (task : RootTask) (waiting : task.isWaiting = true)
    (ran : outcome (x.withResolver field (x.enter field)) s = (result, s')) :
    task.Gains (.ofResult result) ∨ (result = .ok .queued ∧ s' = s ∧ s.slots.acquire? = none) := by
  cases result with
  | error abort => exact Or.inl ⟨rfl, Or.inl waiting⟩
  | ok task' =>
    rcases withResolver_trades ran with ⟨rfl, -⟩ | ⟨called, -⟩
    · exact Or.inr ⟨rfl, withResolver_full ran⟩
    · exact Or.inl ⟨called.not_waiting, Or.inl waiting⟩

/-- An advance gets a field further, or leaves it where it is for a reason. -/
theorem advance_gains {task : RootTask} {result : Except Abort RootTask}
    (ran : outcome (x.advance field task) s = (result, s')) :
    task.Gains (.ofResult result) ∨ Rests task s (.ofResult result) s' := by
  cases task with
  | fresh =>
    cases result with
    | error abort => exact Or.inl ⟨rfl, Or.inl rfl⟩
    | ok task' =>
      have started : outcome (x.start field) s = (.ok task', s') := ran
      rw [outcome_start (start_admits started)] at started
      refine (withResolver_gains .fresh rfl started).imp_right ?_
      rintro ⟨same, rfl, full⟩
      cases same
      exact ⟨.waits (.slot full), Or.inr ⟨rfl, rfl⟩, counting_slots s field, counting_cancelled s field⟩
  | queued =>
    refine (withResolver_gains .queued rfl ran).imp_right ?_
    rintro ⟨rfl, rfl, full⟩
    exact ⟨.waits (.slot full), Or.inl rfl, rfl, rfl⟩
  | working work =>
    cases result with
    | error abort => exact Or.inl ⟨rfl, Or.inr ⟨rfl, Nat.succ_pos _⟩⟩
    | ok task' =>
      rcases work_shrinks work ran with ⟨rfl, rfl⟩ | smaller
      · exact Or.inr ⟨.waits (work_waits ran), Or.inl rfl, rfl, rfl⟩
      · exact Or.inl ⟨(work_trades work ran).1.not_waiting, Or.inr ⟨rfl, smaller⟩⟩
  | done v =>
    cases ran
    exact Or.inr ⟨.done, Or.inl rfl, rfl, rfl⟩
  | failed abort =>
    cases ran
    exact Or.inr ⟨.failed, Or.inl rfl, rfl, rfl⟩

/-- A field that was advanced has begun. -/
theorem advance_begun {task : RootTask} {result : Except Abort RootTask}
    (ran : outcome (x.advance field task) s = (result, s')) : RootTask.ofResult result ≠ .fresh := by
  intro fresh
  rcases advance_gains ran with gains | rests
  · rw [fresh] at gains
    cases gains.1
  · have stays := rests.stays
    rw [fresh] at stays
    cases stays with
    | waits waits => cases waits

end Execution

namespace Run

variable {x : Execution} {run run' run'' : Run}

/-! ## Polls -/

/-- The run has got further, in the measure by which rounds are repeated. -/
def Gains (run run' : Run) : Prop :=
  run'.waiting < run.waiting ∨ run'.waiting = run.waiting ∧ run'.size < run.size

instance (run run' : Run) : Decidable (run.Gains run') := inferInstanceAs (Decidable (_ ∨ _ ∧ _))

theorem Gains.trans (first : run.Gains run') (next : run'.Gains run'') : run.Gains run'' := by
  unfold Gains at *
  omega

/-- The run is where it was, but for fields whose wait has begun. -/
structure Holds (run run' : Run) : Prop where
  length : run'.tasks.length = run.tasks.length
  each : ∀ (i : Nat) field task, run.tasks[i]? = some (field, task) →
    ∃ task', run'.tasks[i]? = some (field, task') ∧ task.Lingers task'
  waiting : run'.waiting = run.waiting
  size : run'.size = run.size
  slots : run'.state.slots = run.state.slots
  cancelled : run'.state.cancelled = run.state.cancelled

theorem Holds.refl (run : Run) : run.Holds run :=
  ⟨rfl, fun _ _ task at' => ⟨task, at', Or.inl rfl⟩, rfl, rfl, rfl, rfl⟩

theorem lingers_trans {task task' task'' : RootTask} (first : task.Lingers task') (next : task'.Lingers task'') :
    task.Lingers task'' := by
  rcases first with rfl | ⟨rfl, rfl⟩
  · exact next
  · rcases next with rfl | ⟨absurd', _⟩
    · exact Or.inr ⟨rfl, rfl⟩
    · cases absurd'

theorem Holds.trans (first : run.Holds run') (next : run'.Holds run'') : run.Holds run'' where
  length := next.length.trans first.length
  each i field task at' := by
    obtain ⟨task', at', lingers⟩ := first.each i field task at'
    obtain ⟨task'', at'', lingers'⟩ := next.each i field task' at'
    exact ⟨task'', at'', lingers_trans lingers lingers'⟩
  waiting := next.waiting.trans first.waiting
  size := next.size.trans first.size
  slots := next.slots.trans first.slots
  cancelled := next.cancelled.trans first.cancelled

theorem Gains.holds (gains : run.Gains run') (holds : run'.Holds run'') : run.Gains run'' := by
  have := holds.waiting
  have := holds.size
  unfold Gains at *
  omega

theorem Holds.gains (holds : run.Holds run') (gains : run'.Gains run'') : run.Gains run'' := by
  have := holds.waiting
  have := holds.size
  unfold Gains at *
  omega

/-- What stays where it is stays in a run that holds. -/
theorem Holds.stays (holds : run.Holds run') {i : Nat} {field : FieldPlan} {task : RootTask}
    (at' : run.tasks[i]? = some (field, task)) (stays : task.Stays run.state) :
    run'.tasks[i]? = some (field, task) ∧ task.Stays run'.state := by
  obtain ⟨task', there, rfl | ⟨rfl, rfl⟩⟩ := holds.each i field task at'
  · exact ⟨there, stays.same holds.slots holds.cancelled⟩
  · cases stays with
    | waits waits => cases waits

theorem isReady_iff {kind : OperationKind} {i : Nat} : run.isReady kind i = true ↔
    kind ≠ .mutation ∨ ∀ (j : Nat) field task, j < i → run.tasks[j]? = some (field, task) → task.value?.isSome := by
  unfold isReady
  simp only [Bool.or_eq_true, decide_eq_true_eq, List.all_eq_true]
  refine or_congr_right ⟨fun all j field task less at' => ?_, fun all entry mem => ?_⟩
  · refine all (field, task) (List.mem_of_getElem? (i := j) ?_)
    rw [List.getElem?_take, if_pos less, at']
  · obtain ⟨j, at'⟩ := List.getElem?_of_mem mem
    rw [List.getElem?_take] at at'
    split at at'
    · next less => exact all j entry.1 entry.2 less at'
    · cases at'

theorem Holds.isReady (holds : run.Holds run') {kind : OperationKind} {i : Nat} :
    run'.isReady kind i = true ↔ run.isReady kind i = true := by
  rw [isReady_iff, isReady_iff]
  refine or_congr_right ⟨fun all j field task less at' => ?_, fun all j field task less at' => ?_⟩
  · obtain ⟨task', there, rfl | ⟨rfl, rfl⟩⟩ := holds.each j field task at'
    · exact all j field _ less there
    · cases all j field _ less there
  · have bound : j < run.tasks.length := by
      rw [← holds.length]
      exact (List.getElem?_eq_some_iff.1 at').1
    obtain ⟨task', at'', lingers⟩ := holds.each j _ _ (List.getElem?_eq_getElem bound)
    cases at'.symm.trans at''
    have done := all j _ _ less (List.getElem?_eq_getElem bound)
    rcases lingers with same | ⟨unbegun, _⟩
    · rw [same]
      exact done
    · rw [unbegun] at done
      cases done

section

variable {i : Nat} {field : FieldPlan} {task : RootTask} (task' : RootTask) (s : ExecutionState)
  (at' : run.tasks[i]? = some (field, task))

include at'

theorem waiting_set : waiting { run with tasks := run.tasks.set i (field, task'), state := s } =
    run.waiting - (if task.isWaiting then 1 else 0) + if task'.isWaiting then 1 else 0 := by
  obtain ⟨bound, here⟩ := List.getElem?_eq_some_iff.1 at'
  unfold waiting
  rw [List.countP_set bound, here]

theorem size_set : size { run with tasks := run.tasks.set i (field, task'), state := s } + task.size =
    run.size + task'.size :=
  foldr_add_set (fun entry => entry.2.size) at' (field, task')

theorem waiting_pos (waits : task.isWaiting = true) : 0 < run.waiting :=
  List.countP_pos_iff.2 ⟨_, List.mem_of_getElem? at', waits⟩

/-- A field that gets further takes its run further. -/
theorem gains_set (gains : task.Gains task') :
    run.Gains { run with tasks := run.tasks.set i (field, task'), state := s } := by
  have counted := waiting_set task' s at'
  have sized := size_set task' s at'
  obtain ⟨called, waited | ⟨begun, smaller⟩⟩ := gains
  · have := waiting_pos at' waited
    rw [called, waited] at counted
    simp only [if_true, Bool.false_eq_true, if_false] at counted
    exact Or.inl (by omega)
  · rw [called, begun] at counted
    simp only [Bool.false_eq_true, if_false] at counted
    exact Or.inr ⟨by omega, by omega⟩

/-- A field that stays where it is leaves its run where it was. -/
theorem holds_set {s} (rests : Rests task run.state task' s) :
    run.Holds { run with tasks := run.tasks.set i (field, task'), state := s } := by
  have counted := waiting_set task' s at'
  have sized := size_set task' s at'
  have bound : i < run.tasks.length := (List.getElem?_eq_some_iff.1 at').1
  refine ⟨List.length_set, fun j f t atj => ?_, ?_, ?_, rests.slots, rests.cancelled⟩
  · by_cases same : i = j
    · subst same
      cases at'.symm.trans atj
      exact ⟨task', List.getElem?_set_self bound, rests.lingers⟩
    · exact ⟨t, (List.getElem?_set_ne same).trans atj, Or.inl rfl⟩
  · rw [counted]
    rcases rests.lingers with rfl | ⟨rfl, rfl⟩
    · have := waiting_pos at'
      split
      · next waits =>
        have := this waits
        omega
      · omega
    · have := waiting_pos at' rfl
      simp only [RootTask.isWaiting, if_true]
      omega
  · rcases rests.lingers with rfl | ⟨rfl, rfl⟩
    · omega
    · simp only [RootTask.size] at sized
      omega

end

theorem heed_ongoing {kind : OperationKind} (ongoing : (heed kind run).aborted = none) : heed kind run = run := by
  unfold heed at ongoing ⊢
  split
  · rfl
  · next abort failed =>
    rw [failed] at ongoing
    cases ongoing

theorem poll_ongoing {i : Nat} (ongoing : (run.poll x i).aborted = none) : run.aborted = none := by
  cases ended : run.aborted with
  | none => rfl
  | some abort =>
    have idle : run.poll x i = run := poll_idle fun busy => by simp [ended] at busy
    rw [idle, ended] at ongoing
    cases ongoing

theorem polls_ongoing {polls : List Nat} (ongoing : (polls.foldl (Run.poll x) run).aborted = none) :
    run.aborted = none := by
  induction polls generalizing run with
  | nil => exact ongoing
  | cons i rest ih => exact poll_ongoing (ih ongoing)

/-- The field stays where it is, if it is its turn. -/
def Rested (x : Execution) (run : Run) (i : Nat) : Prop :=
  run.isReady x.plan.kind i = true → ∀ field task, run.tasks[i]? = some (field, task) → task.Stays run.state

theorem Holds.rested (holds : run.Holds run') {i : Nat} (rested : run.Rested x i) : run'.Rested x i := by
  intro ready field task' at''
  have bound : i < run.tasks.length := by
    rw [← holds.length]
    exact (List.getElem?_eq_some_iff.1 at'').1
  have at' := List.getElem?_eq_getElem bound
  obtain ⟨same, stays⟩ := holds.stays at' (rested (holds.isReady.1 ready) _ _ at')
  cases same.symm.trans at''
  exact stays

/-- A poll that leaves a run going gets it further, or finds that the field stays where it is. -/
theorem poll_gains {i : Nat} (ongoing : (run.poll x i).aborted = none) :
    run.Gains (run.poll x i) ∨ run.Holds (run.poll x i) ∧ (run.poll x i).Rested x i := by
  by_cases busy : run.aborted = none ∧ (∃ entry, run.tasks[i]? = some entry) ∧ run.isReady x.plan.kind i = true
  · obtain ⟨_, ⟨⟨field, task⟩, at'⟩, ready⟩ := busy
    cases ran : outcome (x.advance field task) run.state with
    | mk result s =>
      rw [poll_eq ‹_› at' ready ran] at ongoing ⊢
      rw [heed_ongoing ongoing]
      refine (Execution.advance_gains ran).imp (gains_set _ s at') fun rests => ⟨holds_set _ at' rests, ?_⟩
      intro _ f t atj
      rw [List.getElem?_set_self (List.getElem?_eq_some_iff.1 at').1] at atj
      cases atj
      exact rests.stays
  · have going := poll_ongoing ongoing
    rw [poll_idle busy]
    exact Or.inr ⟨.refl run, fun ready field task at' => absurd ⟨going, ⟨_, at'⟩, ready⟩ busy⟩

/-- So do polls one after the other. -/
theorem polls_gain {polls : List Nat} (ongoing : (polls.foldl (Run.poll x) run).aborted = none) :
    run.Gains (polls.foldl (Run.poll x) run) ∨
      run.Holds (polls.foldl (Run.poll x) run) ∧ ∀ i ∈ polls, (polls.foldl (Run.poll x) run).Rested x i := by
  induction polls generalizing run with
  | nil => exact Or.inr ⟨.refl run, fun _ mem => absurd mem List.not_mem_nil⟩
  | cons i rest ih =>
    rw [List.foldl_cons] at ongoing ⊢
    rcases ih ongoing with gains | ⟨holds, rested⟩
    · rcases poll_gains (polls_ongoing ongoing) with gained | ⟨held, _⟩
      · exact Or.inl (gained.trans gains)
      · exact Or.inl (held.gains gains)
    · rcases poll_gains (polls_ongoing ongoing) with gained | ⟨held, rested'⟩
      · exact Or.inl (gained.holds holds)
      · exact Or.inr ⟨held.trans holds, List.forall_mem_cons.2 ⟨holds.rested rested', rested⟩⟩

/-- The root fields of a run stay the same. -/
theorem Poll.fields (poll : Poll x run run') : run'.tasks.map (·.1) = run.tasks.map (·.1) := by
  cases poll with
  | idle => rfl
  | @advance i field task task' s ongoing at' ready legs =>
    have kept : (run.tasks.set i (field, task')).map (·.1) = run.tasks.map (·.1) := by
      obtain ⟨bound, here⟩ := List.getElem?_eq_some_iff.1 at'
      have bound' : i < (run.tasks.map (·.1)).length := by rwa [List.length_map]
      have same : (run.tasks.map (·.1))[i] = field := by rw [List.getElem_map, here]
      rw [List.map_set, ← same, List.set_getElem_self]
    unfold heed
    split <;> exact kept

theorem polls_fields (run : Run) (polls : List Nat) :
    (polls.foldl (Run.poll x) run).tasks.map (·.1) = run.tasks.map (·.1) := by
  induction polls generalizing run with
  | nil => rfl
  | cons i rest ih => exact (ih _).trans (poll_legs run i).fields

theorem polls_length (run : Run) (polls : List Nat) :
    (polls.foldl (Run.poll x) run).tasks.length = run.tasks.length := by
  have lengths := congrArg List.length (polls_fields (x := x) run polls)
  rwa [List.length_map, List.length_map] at lengths

theorem polls_isCrowd (kind : OperationKind) (run : Run) (polls : List Nat) :
    (polls.foldl (Run.poll x) run).isCrowd kind = run.isCrowd kind := by
  unfold isCrowd
  rw [polls_length]

end Run

/-! ## Rounds -/

namespace Turn

variable {x : Execution}

theorem settle_cases (turn : Turn) :
    (¬turn.run.Gains (turn.next x).run ∧ turn.settle x = (turn.next x).run) ∨
      (turn.run.Gains (turn.next x).run ∧ turn.settle x = (turn.next x).settle x) := by
  rw [settle]
  split
  · next less => exact Or.inr ⟨Or.inl less, rfl⟩
  · next more =>
    split
    · next less => exact Or.inr ⟨Or.inr less, rfl⟩
    · next same => exact Or.inl ⟨fun gains => gains.elim more same, rfl⟩

/-- So many rounds. -/
def rounds (x : Execution) : Nat → Turn → Turn
  | 0, turn => turn
  | n + 1, turn => rounds x n (turn.next x)

/-- So many rounds get the run further, and the next does not. -/
def SettlesIn (x : Execution) : Nat → Turn → Prop
  | 0, turn => ¬turn.run.Gains (turn.next x).run
  | n + 1, turn => turn.run.Gains (turn.next x).run ∧ SettlesIn x n (turn.next x)

instance decidableSettlesIn (x : Execution) : (n : Nat) → (turn : Turn) → Decidable (SettlesIn x n turn)
  | 0, turn => inferInstanceAs (Decidable ¬turn.run.Gains (turn.next x).run)
  | n + 1, turn =>
    have := decidableSettlesIn x n (turn.next x)
    inferInstanceAs (Decidable (turn.run.Gains (turn.next x).run ∧ SettlesIn x n (turn.next x)))

theorem SettlesIn.settle {n : Nat} {turn : Turn} (settles : turn.SettlesIn x n) :
    turn.settle x = (turn.rounds x (n + 1)).run := by
  induction n generalizing turn with
  | zero =>
    rcases settle_cases (x := x) turn with ⟨-, settled⟩ | ⟨gains, -⟩
    · exact settled
    · exact absurd gains settles
  | succ n ih =>
    rcases settle_cases (x := x) turn with ⟨idle, -⟩ | ⟨-, settled⟩
    · exact absurd settles.1 idle
    · exact settled.trans (ih settles.2)

/-- Rounds go on as long as they get the run further. -/
theorem settle_induction {motive : Turn → Run → Prop}
    (ended : ∀ turn, ¬turn.run.Gains (turn.next x).run → motive turn (turn.next x).run)
    (goes : ∀ turn, turn.run.Gains (turn.next x).run → motive (turn.next x) ((turn.next x).settle x) →
      motive turn ((turn.next x).settle x)) (turn : Turn) : motive turn (turn.settle x) := by
  rcases settle_cases (x := x) turn with ⟨idle, settled⟩ | ⟨gains, settled⟩
  · rw [settled]
    exact ended turn idle
  · rw [settled]
    exact goes turn gains (settle_induction ended goes (turn.next x))
termination_by (turn.run.waiting, turn.run.size)
decreasing_by
  rcases gains with less | ⟨same, less⟩
  · exact Prod.Lex.left _ _ less
  · rw [same]
    exact Prod.Lex.right _ less

/-- Fields that are no crowd are polled in rounds until each whose turn it is stays where it is. -/
theorem settle_rested (turn : Turn) (few : turn.run.isCrowd x.plan.kind = false)
    (ongoing : (turn.settle x).aborted = none) (i : Nat) : (turn.settle x).Rested x i := by
  have round (turn : Turn) (few : turn.run.isCrowd x.plan.kind = false) :
      (turn.next x).run = (List.range turn.run.tasks.length).foldl (Run.poll x) turn.run := by
    unfold next
    rw [few]
    rfl
  refine settle_induction (x := x)
    (motive := fun turn run => turn.run.isCrowd x.plan.kind = false → run.aborted = none → run.Rested x i)
    (fun turn idle few ongoing => ?_) (fun turn _ rested few => rested ?_) turn few ongoing
  · rw [round turn few] at idle ongoing ⊢
    obtain ⟨_, rested⟩ := (Run.polls_gain ongoing).resolve_left idle
    by_cases bound : i < turn.run.tasks.length
    · exact rested i (List.mem_range.2 bound)
    · intro _ field task at'
      have := (List.getElem?_eq_some_iff.1 at').1
      rw [Run.polls_length] at this
      exact absurd this bound
  · rw [round turn few, Run.polls_isCrowd, few]

end Turn

end GraphQL
