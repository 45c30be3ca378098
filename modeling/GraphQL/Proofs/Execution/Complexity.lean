import GraphQL.Proofs.Execution.Charges
import GraphQL.Proofs.Execution.Decided
import GraphQL.Proofs.Execution.Vetting

/-!
# Complexity

A request whose root fields are too complex together is aborted, and one whose are not never fails for its
complexity: the account of the request is the total of the fields charged, and in the end every root field is
charged unless one has failed. `complexity_guarded` says so of every sequence of polls and cancellations.

Before that, a resolver is called only after its own field was charged within the limit. Where the first failure
ends the run, as in a mutation or among few root fields, the whole account is within the limit as well. In a
crowd a failure counts only once all fields before it are finished: `called_beyond` is a run in which a field that
waited for a slot is called although the account has passed the limit.
-/

namespace GraphQL

/-! ## Calls -/

/-- A stage from which no resolver is called any more. -/
def Stage.Mute (field : FieldPlan) : Stage → Prop
  | .task t => t.isWaiting = true → field.isOperation = false
  | .entered .. => False
  | .ending _ => True

section

variable {x : Execution} {field : FieldPlan} {here there : Stage × ExecutionState} {key : String}

theorem Leg.mute (leg : Leg x field here there) (mute : here.1.Mute field) :
    there.1.Mute field ∧ there.2.callsFor key = here.2.callsFor key := by
  have rests {task : RootTask} (called : task.isWaiting = false) : (Stage.task task).Mute field := by
    intro waits
    cases called.symm.trans waits
  cases leg with
  | tooComplex _ => exact ⟨rests rfl, counting_callsFor _ _⟩
  | admitted _ => exact ⟨fun _ => mute rfl, counting_callsFor _ _⟩
  | enter target _ _ => cases (mute rfl).symm.trans (FieldPlan.isOperation_iff.2 ⟨_, target⟩)
  | unread _ | panicked _ _ | call _ _ => exact mute.elim
  | finish ran =>
    exact ⟨rests rfl, (ExecutionState.callsFor_noting_other rfl).trans (answer_views ran).1⟩
  | fail ran => exact ⟨rests rfl, (answer_views ran).1⟩
  | typename _ | misplaced _ _ | done => exact ⟨trivial, rfl⟩
  | _ => exact ⟨rests rfl, rfl⟩

theorem Legs.mute (legs : Legs x field here there) (mute : here.1.Mute field) :
    there.1.Mute field ∧ there.2.callsFor key = here.2.callsFor key := by
  induction legs with
  | refl => exact ⟨mute, rfl⟩
  | tail _ leg ih =>
    obtain ⟨mute', same⟩ := leg.mute ih.1
    exact ⟨mute', same.trans ih.2⟩

end

namespace Run

variable {x : Execution} {run : Run} {i : Nat} {key : String}

/-- A poll that calls a resolver advances the field of that resolver, which was still waiting for it. -/
theorem poll_called (called : (run.poll x i).state.callsFor key ≠ run.state.callsFor key) :
    ∃ field task task' s, run.aborted = none ∧ run.tasks[i]? = some (field, task) ∧
      run.isReady x.plan.kind i = true ∧ field.responseKey = key ∧ field.isOperation = true ∧ task.isWaiting = true ∧
      task' ≠ .fresh ∧ Legs x field (.task task, run.state) (.task task', s) ∧
      s.callsFor key ≠ run.state.callsFor key := by
  by_cases busy : run.aborted = none ∧ (∃ entry, run.tasks[i]? = some entry) ∧ run.isReady x.plan.kind i = true
  · obtain ⟨ongoing, ⟨⟨field, task⟩, at'⟩, ready⟩ := busy
    cases ran : outcome (x.advance field task) run.state with
    | mk result s =>
      have legs := @Execution.advance_legs x field task run.state
      rw [Execution.arrival, ran] at legs
      rw [poll_eq ongoing at' ready ran, heed_callsFor] at called
      have own : field.responseKey = key := Decidable.byContradiction fun other => called (legs.apart other).1
      have audible : ¬(Stage.task task).Mute field := fun mute => called (legs.mute mute).2
      obtain ⟨waits, operation⟩ := Classical.not_imp.1 audible
      exact ⟨field, task, .ofResult result, s, ongoing, at', ready, own, by simpa using operation, waits,
        Execution.advance_begun ran, legs, called⟩
  · rw [poll_idle busy] at called
    exact absurd rfl called

/-! ## Failures -/

/-- What polls and cancellations keep, all moves keep. -/
theorem moves_keep {holds : Run → Prop} (poll : ∀ run i, holds run → holds (run.poll x i))
    (cancel : ∀ run, holds run → holds run.cancel) (begins : holds run) (moves : List Move) :
    holds (moves.foldl (Run.move x) run) := by
  induction moves generalizing run with
  | nil => exact begins
  | cons move rest ih =>
    cases move with
    | poll i => exact ih (poll run i begins)
    | cancel => exact ih (cancel run begins)

theorem moves_heed (heeds : run.Heeds x.plan.kind) (moves : List Move) :
    (moves.foldl (Run.move x) run).Heeds x.plan.kind :=
  moves_keep (fun run i => (poll_legs run i).heeds) (fun _ heeds => heeds) heeds moves

theorem moves_limit (run : Run) (moves : List Move) :
    (moves.foldl (Run.move x) run).state.slots.limit = run.state.slots.limit :=
  @moves_keep x run (fun run' => run'.state.slots.limit = run.state.slots.limit)
    (fun run' i same => (poll_legs run' i).limit.trans same) (fun _ same => same) rfl moves

theorem moves_isCrowd (kind : OperationKind) (run : Run) (moves : List Move) :
    (moves.foldl (Run.move x) run).isCrowd kind = run.isCrowd kind := by
  have same : (moves.foldl (Run.move x) run).tasks.length = run.tasks.length :=
    @moves_keep x run (fun run' => run'.tasks.length = run.tasks.length)
      (fun run' i same => (polls_length run' [i]).trans same) (fun _ same => same) rfl moves
  unfold isCrowd
  rw [same]

/-- Where fields are no crowd, a run that goes on has no field that failed. -/
theorem Heeds.alive {kind : OperationKind} (heeds : run.Heeds kind) (few : run.isCrowd kind = false)
    (ongoing : run.aborted = none) : ∀ entry ∈ run.tasks, entry.2.abort? = none := by
  have none : run.failure? kind = none := heeds.symm.trans ongoing
  rw [failure?, few] at none
  exact List.findSome?_eq_none_iff.1 none

theorem done_of_firstUndone {tasks : List (FieldPlan × RootTask)} (none : firstUndone tasks = none)
    (ended : ∀ entry ∈ tasks, entry.2.value?.isSome ∨ entry.2.abort?.isSome) :
    ∀ entry ∈ tasks, entry.2.abort? = .none := by
  induction tasks with
  | nil => exact fun _ mem => absurd mem List.not_mem_nil
  | cons first rest ih =>
    obtain ⟨first', others⟩ := List.forall_mem_cons.1 ended
    obtain ⟨field, task⟩ := first
    cases task with
    | done v => exact List.forall_mem_cons.2 ⟨rfl, ih none others⟩
    | failed abort => cases none
    | _ => simp [RootTask.value?, RootTask.abort?] at first'

/-- When all fields have ended, a run that goes on has no field that failed. -/
theorem Heeds.done {kind : OperationKind} (heeds : run.Heeds kind) (ongoing : run.aborted = none)
    (ended : ∀ entry ∈ run.tasks, entry.2.value?.isSome ∨ entry.2.abort?.isSome) :
    ∀ entry ∈ run.tasks, entry.2.abort? = none := by
  cases crowd : run.isCrowd kind with
  | false => exact heeds.alive crowd ongoing
  | true =>
    have none : run.failure? kind = none := heeds.symm.trans ongoing
    rw [failure?, crowd, if_pos rfl, Option.or_eq_none_iff] at none
    exact done_of_firstUndone none.2 ended

/-- Nothing in a run has failed for its complexity. -/
structure Spared (run : Run) : Prop where
  aborted : ∀ abort, run.aborted = some abort → ¬abort.TooComplex
  failed : ∀ entry ∈ run.tasks, ∀ abort, entry.2 = .failed abort → ¬abort.TooComplex
  errors : ∀ e ∈ run.state.errors, ¬e.TooComplex

section

variable {operations charged : List FieldPlan} (tallied : run.Tallied x operations charged)

include tallied

/-- A run in which all fields have begun and none has failed is within the limit as a whole. -/
theorem Tallied.within (begun : ∀ entry ∈ run.tasks, entry.2 ≠ .fresh)
    (alive : ∀ entry ∈ run.tasks, entry.2.abort? = none) : totalComplexity operations ≤ x.limits.maxComplexity := by
  obtain ⟨all, kept⟩ := tallied.whole alive
  rw [due_begun begun, Nat.add_zero] at all
  exact Nat.le_trans (totalComplexity_le (Nat.le_of_eq all.symm)) kept

/-- What is charged never exceeds the total of all. -/
theorem Tallied.charged_le : totalComplexity charged ≤ totalComplexity operations :=
  totalComplexity_le (Nat.le_trans (Nat.le_add_right _ _) tallied.share)

theorem Tallied.spared (heeds : run.Heeds x.plan.kind)
    (within : totalComplexity operations ≤ x.limits.maxComplexity) : run.Spared := by
  have failed : ∀ entry ∈ run.tasks, ∀ abort, entry.2 = .failed abort → ¬abort.TooComplex := by
    intro entry mem abort same complex
    have beyond := tallied.failed entry mem abort same complex
    have := tallied.charged_le
    omega
  refine ⟨fun abort ended => ?_, failed, fun e mem => ?_⟩
  · obtain ⟨field, mem⟩ := failed_of_failure? (heeds.symm.trans ended)
    exact failed _ mem abort rfl
  · obtain absent | ⟨path, at'⟩ := tallied.placed e mem
    · cases absent
    · exact ResponseError.not_tooComplex_of_path at'

/-- When a resolver is called, its field was charged within the limit. So was all else unless the field waited, where
slots are limited, and some other field failed in the meantime. -/
theorem Tallied.called (limited : 0 < x.limits.maxComplexity) (waits : run.Limited)
    (called : (run.poll x i).state.callsFor key ≠ run.state.callsFor key) :
    run.aborted = none ∧ ∃ field task, run.tasks[i]? = some (field, task) ∧ field.responseKey = key ∧
      (∃ before after, charged ++ run.charges x (.poll i) = before ++ field :: after ∧
        totalComplexity (before ++ [field]) ≤ x.limits.maxComplexity) ∧
      ((run.state.slots.limit = 0 ∨ ∀ entry ∈ run.tasks, entry.2.abort? = none) →
        totalComplexity (charged ++ run.charges x (.poll i)) ≤ x.limits.maxComplexity) := by
  obtain ⟨field, task, task', s, ongoing, at', ready, own, operation, waiting, begun, legs, calls⟩ := poll_called called
  have mem := List.mem_of_getElem? at'
  rw [charges_poll ongoing at' ready]
  refine ⟨ongoing, field, task, at', own, ?_⟩
  cases task with
  | fresh =>
    cases legs.starts begun with
    | refused _ _ => exact absurd rfl calls
    | beyond _ _ => exact absurd (counting_callsFor _ _) calls
    | admitted admits _ =>
      have within := tallied.admitted limited admits operation
      rw [admits.charges, operation]
      exact ⟨⟨charged, [], rfl, within⟩, fun _ => within⟩
  | queued =>
    simp only [RootTask.isFresh, Bool.false_and, Bool.false_eq_true, if_false, List.append_nil]
    refine ⟨tallied.own _ mem operation (by simp) rfl, fun calm => ?_⟩
    obtain unlimited | alive := calm
    · exact absurd unlimited (waits _ mem rfl)
    · exact (tallied.whole alive).2
  | _ => cases waiting

end

end Run

/-! ## Requests -/

namespace Execution

variable {x : Execution} {state : ExecutionState}

/-- The root fields that call operations and that the directives keep. -/
def operations (x : Execution) : List FieldPlan := (x.selected x.plan.selection none).filter (·.isOperation)

theorem checkDepth_not_tooComplex {depth : Nat} {selection : List FieldPlan} {e : ResponseError}
    (failed : x.checkDepth depth selection = .error e) : ¬e.TooComplex := by
  fun_induction x.checkDepth depth selection with
  | case1 => cases failed
  | case2 depth field rest e' undecided =>
    cases failed
    exact ResponseError.not_tooComplex_of_code (holds_code undecided)
  | case3 depth field rest _ ih => exact ih failed
  | case4 depth field rest _ within among =>
    rcases except_bind_eq_error.1 failed with deep | ⟨_, _, failed⟩
    · exact field.not_tooComplex_of_guard deep fun _ _ => QueryLimits.guardWith_error fun _ _ _ _ => by simp
    · rcases except_bind_eq_error.1 failed with below | ⟨_, _, failed⟩
      · exact within below
      · exact among failed

theorem rootFields_not_tooComplex {e : ResponseError} (failed : x.rootFields = .error e) : ¬e.TooComplex := by
  have measured (other : (Abort.error e).Unmeasured) : ¬e.TooComplex := fun complex => other.complexity ⟨e, rfl, complex⟩
  unfold rootFields at failed
  rcases except_bind_eq_error.1 failed with deep | ⟨_, _, failed⟩
  · unfold checkPlanDepth at deep
    split at deep
    · cases deep
    · exact checkDepth_not_tooComplex deep
  · rcases except_bind_eq_error.1 failed with selected | ⟨fields, _, failed⟩
    · exact measured (collect_unmeasured selected)
    · rcases except_bind_eq_error.1 failed with many | ⟨_, _, failed⟩
      · exact measured (checkAliases_unmeasured many)
      · cases failed

/-- Taking turns is a sequence of moves without a cancellation. -/
theorem interleaves_moves {run : Run} (interleaved : x.Interleaves state run) :
    ∃ fields, x.rootFields = .ok fields ∧
      ∃ moves : List Move, run = moves.foldl (Run.move x) (Run.launch fields state) := by
  obtain ⟨fields, polls, rooted, rfl⟩ := interleaved
  refine ⟨fields, rooted, polls.map .poll, ?_⟩
  rw [List.foldl_map]
  rfl

/-- The complexity of a request is guarded, whatever moves there are. -/
structure ComplexityGuarded (x : Execution) (state : ExecutionState) : Prop where
  /-- The account is the total of the fields charged so far, which is at most that of all. -/
  account : ∀ fields, x.rootFields = .ok fields → ∀ moves : List Move,
    let run := moves.foldl (Run.move x) (Run.launch fields state)
    run.state.complexity = totalComplexity ((Run.launch fields state).charged x moves) ∧
      totalComplexity ((Run.launch fields state).charged x moves) ≤ totalComplexity x.operations
  /-- When a resolver is called, the fields charged up to its own are within the limit. So are all that are charged
  by then, unless slots are limited and another field of a crowd has failed. -/
  calls : ∀ fields, x.rootFields = .ok fields → ∀ (moves : List Move) i key,
    let run := moves.foldl (Run.move x) (Run.launch fields state)
    let charged := (Run.launch fields state).charged x (moves ++ [.poll i])
    (run.poll x i).state.callsFor key ≠ run.state.callsFor key →
      ∃ field task, run.tasks[i]? = some (field, task) ∧ field.responseKey = key ∧
        (∃ before after, charged = before ++ field :: after ∧
          totalComplexity (before ++ [field]) ≤ x.limits.maxComplexity) ∧
        ((Run.launch fields state).isCrowd x.plan.kind = false ∨ state.slots.limit = 0 ∨
          (∀ entry ∈ run.tasks, entry.2.abort? = none) → totalComplexity charged ≤ x.limits.maxComplexity)
  /-- A request that is too complex never comes to data, and is aborted at the latest when all fields have ended.
  Where they are no crowd it is aborted by the field that passes the limit, and waits for no other. -/
  exceeds : x.limits.maxComplexity < totalComplexity x.operations → ∀ fields, x.rootFields = .ok fields →
    ∀ moves : List Move,
    let run := moves.foldl (Run.move x) (Run.launch fields state)
    (∀ data, run.data ≠ .ok data) ∧
      ((∀ entry ∈ run.tasks, entry.2.value?.isSome ∨ entry.2.abort?.isSome) → run.aborted ≠ none) ∧
      ((Run.launch fields state).isCrowd x.plan.kind = false →
        x.limits.maxComplexity < totalComplexity ((Run.launch fields state).charged x moves) ∨
          (∀ entry ∈ run.tasks, entry.2 ≠ .fresh) → run.aborted ≠ none)
  /-- What executing it returns, if it returns, is an error without data. -/
  refuses : x.limits.maxComplexity < totalComplexity x.operations → ∀ response final,
    x.execute state = (.ok response, final) → ∃ e, response = .ofError e
  /-- A query that is no crowd does return: executing it comes to a run that is aborted. -/
  aborts : x.limits.maxComplexity < totalComplexity x.operations → x.plan.kind ≠ .mutation →
    ∀ fields, x.rootFields = .ok fields → (Run.launch fields state).isCrowd x.plan.kind = false →
      ∃ run abort, x.Interleaves state run ∧ run.aborted = some abort ∧
        x.execute state = (respond (.error abort) run.state.errors, run.state)
  /-- A request that is not too complex never fails for its complexity. -/
  within : totalComplexity x.operations ≤ x.limits.maxComplexity → ∀ fields, x.rootFields = .ok fields →
    ∀ moves : List Move,
    (moves.foldl (Run.move x) (Run.launch fields state)).Spared
  execute : totalComplexity x.operations ≤ x.limits.maxComplexity → ∀ response final,
    x.execute state = (.ok response, final) → ∀ e ∈ response.errors, ¬e.TooComplex

section

variable (limited : 0 < x.limits.maxComplexity) (unused : state.complexity = 0) (fresh : state.errors = [])

include limited unused fresh

theorem moves_tallied {fields : List FieldPlan} (rooted : x.rootFields = .ok fields) (moves : List Move) :
    (moves.foldl (Run.move x) (Run.launch fields state)).Tallied x x.operations
      ((Run.launch fields state).charged x moves) := by
  have tallied := (@Run.launch_tallied x fields state unused fresh).moves limited moves
  rwa [collect_eq_ok (rootFields_eq_ok rooted).1] at tallied ⊢

theorem not_within {fields : List FieldPlan} (rooted : x.rootFields = .ok fields)
    (beyond : x.limits.maxComplexity < totalComplexity x.operations) (moves : List Move)
    (alive : ∀ entry ∈ (moves.foldl (Run.move x) (Run.launch fields state)).tasks, entry.2.abort? = none) :
    ∃ entry ∈ (moves.foldl (Run.move x) (Run.launch fields state)).tasks, entry.2 = .fresh := by
  by_contra begun
  have within := (moves_tallied limited unused fresh rooted moves).within
    (fun entry mem unbegun => begun ⟨entry, mem, unbegun⟩) alive
  omega

theorem run_no_data {fields : List FieldPlan} (rooted : x.rootFields = .ok fields)
    (beyond : x.limits.maxComplexity < totalComplexity x.operations) (moves : List Move) (data : ResponseValue) :
    (moves.foldl (Run.move x) (Run.launch fields state)).data ≠ .ok data := by
  intro ended
  obtain ⟨-, done⟩ := Run.done_of_data ended
  obtain ⟨entry, mem, unbegun⟩ := not_within limited unused fresh rooted beyond moves fun entry mem => by
    obtain ⟨v, eq⟩ := done entry mem
    rw [eq]
    rfl
  obtain ⟨v, eq⟩ := done entry mem
  cases unbegun.symm.trans eq

theorem run_spared {fields : List FieldPlan} (rooted : x.rootFields = .ok fields)
    (within : totalComplexity x.operations ≤ x.limits.maxComplexity) (moves : List Move) :
    (moves.foldl (Run.move x) (Run.launch fields state)).Spared :=
  (moves_tallied limited unused fresh rooted moves).spared
    (Run.moves_heed (Run.launch_heeds x.plan.kind fields state) moves) within

/-- A query that is no crowd is polled until it is aborted, since all fields begin. -/
theorem execute_aborts {fields : List FieldPlan} (rooted : x.rootFields = .ok fields)
    (beyond : x.limits.maxComplexity < totalComplexity x.operations) (query : x.plan.kind ≠ .mutation)
    (few : (Run.launch fields state).isCrowd x.plan.kind = false) :
    ∃ run abort, x.Interleaves state run ∧ run.aborted = some abort ∧
      x.execute state = (respond (.error abort) run.state.errors, run.state) := by
  have executed : x.execute state = _ := execute_rooted rooted
  have rested := Turn.settle_rested (x := x) (Turn.launch fields state) few
  obtain ⟨polls, settled⟩ := Turn.settle_polls (x := x) (Turn.launch fields state)
  have interleaved : x.Interleaves state ((Turn.launch fields state).settle x) := ⟨fields, polls, rooted, settled⟩
  obtain ⟨_, rooted', moves, moved⟩ := interleaves_moves interleaved
  cases rooted.symm.trans rooted'
  cases aborted : ((Turn.launch fields state).settle x).aborted with
  | some abort =>
    refine ⟨_, abort, interleaved, aborted, ?_⟩
    simp only [executed, Run.data, aborted]
  | none =>
    have stays := rested aborted
    rw [moved] at aborted stays
    have heeds := Run.moves_heed (Run.launch_heeds x.plan.kind fields state) moves
    obtain ⟨⟨field, task⟩, mem, unbegun⟩ := not_within limited unused fresh rooted beyond _
      (heeds.alive ((Run.moves_isCrowd ..).trans few) aborted)
    obtain ⟨i, at'⟩ := List.getElem?_of_mem mem
    cases unbegun
    cases stays i (Run.isReady_iff.2 (Or.inl query)) field .fresh at' with
    | waits waits => cases waits

/-- In every run of root fields, whatever moves there are, the complexity of the request is guarded. -/
theorem complexity_guarded : x.ComplexityGuarded state where
  account fields rooted moves :=
    have tallied := moves_tallied limited unused fresh rooted moves
    ⟨tallied.account, tallied.charged_le⟩
  calls fields rooted moves i key := by
    intro run charged called
    have tallied := moves_tallied limited unused fresh rooted moves
    have heeds := Run.moves_heed (Run.launch_heeds x.plan.kind fields state) moves
    have waits := (Run.launch_limited fields state).moves (x := x) moves
    have all : charged = (Run.launch fields state).charged x moves ++ run.charges x (.poll i) := by
      rw [show charged = (Run.launch fields state).charged x (moves ++ [.poll i]) from rfl, Run.charged_append]
      exact congrArg _ (List.append_nil _)
    obtain ⟨ongoing, field, task, at', named, own, whole⟩ := tallied.called limited waits called
    rw [← all] at own whole
    refine ⟨field, task, at', named, own, fun calm => whole ?_⟩
    rcases calm with few | unlimited | alive
    · exact Or.inr (heeds.alive ((Run.moves_isCrowd ..).trans few) ongoing)
    · exact Or.inl ((Run.moves_limit ..).trans unlimited)
    · exact Or.inr alive
  exceeds beyond fields rooted moves := by
    intro run
    have tallied := moves_tallied limited unused fresh rooted moves
    have heeds := Run.moves_heed (Run.launch_heeds x.plan.kind fields state) moves
    have late := not_within limited unused fresh rooted beyond moves
    refine ⟨run_no_data limited unused fresh rooted beyond moves, fun ended ongoing => ?_, fun few passed ongoing => ?_⟩
    · obtain ⟨entry, mem, unbegun⟩ := late (heeds.done ongoing ended)
      have ended := ended entry mem
      rw [unbegun] at ended
      simp [RootTask.value?, RootTask.abort?] at ended
    · have alive := heeds.alive ((Run.moves_isCrowd ..).trans few) ongoing
      rcases passed with passed | begun
      · have := (tallied.whole alive).2
        omega
      · obtain ⟨entry, mem, unbegun⟩ := late alive
        exact begun entry mem unbegun
  refuses beyond response final ran := by
    obtain ⟨e, -, refused, -⟩ | ⟨run, interleaved, -, ⟨e, -, refused⟩ | ⟨data, ended, -⟩⟩ := execute_eq_ok ran
    · exact ⟨e, refused⟩
    · exact ⟨e, refused⟩
    · obtain ⟨fields, rooted, moves, rfl⟩ := interleaves_moves interleaved
      exact absurd ended (run_no_data limited unused fresh rooted beyond moves data)
  aborts beyond query fields rooted few := execute_aborts limited unused fresh rooted beyond query few
  within within fields rooted moves := run_spared limited unused fresh rooted within moves
  execute within response final ran := by
    obtain ⟨e, rooted, rfl, -⟩ | ⟨run, interleaved, -, answered⟩ := execute_eq_ok ran
    · intro e' mem
      cases List.mem_singleton.1 mem
      exact rootFields_not_tooComplex rooted
    · obtain ⟨fields, rooted, moves, rfl⟩ := interleaves_moves interleaved
      have spared := run_spared limited unused fresh rooted within moves
      obtain ⟨e, ended, rfl⟩ | ⟨data, -, rfl⟩ := answered
      · intro e' mem
        cases List.mem_singleton.1 mem
        rcases Run.data_eq_error ended with aborted | stuck
        · exact fun complex => spared.aborted _ aborted ⟨_, rfl, complex⟩
        · cases stuck
      · exact spared.errors

end

end Execution

/-! ## A crowd that passes the limit -/

namespace CrowdQuery

def operation (name : String) (work : Work Resolved) : OperationDescriptor :=
  { kind := .query, name, info := {}, output := .named (.builtin .int32) true, mode := .positional
    binding := .arguments [], resolver := .field fun _ => .ok work }

/-- An operation whose resolver gives way once before it returns. -/
def slow : OperationDescriptor := operation "slow" (.pause (.done (.ok (.const (.int 1)))))

def quick : OperationDescriptor := operation "quick" (.done (.ok (.const (.int 1))))

def options : CompileOptions :=
  { host := { builtinName := BuiltinType.scalarName, types := [] }
    operations := { query := [("slow", slow), ("quick", quick)] }, scorer := .default, listSizeEstimate := 10 }

def key (i : Nat) : String := String.ofList (List.replicate (i + 1) 'a')

/-- The first field is slow, and all others are quick. -/
def called (i : Nat) : OperationDescriptor := if i = 0 then slow else quick

def field (i : Nat) : FieldPlan :=
  { responseKey := key i, aliased := true, name := (called i).name, location := .start, condition := none
    directives := [], arguments := [], target := .operation (called i), type := (called i).output, complexity := 1
    selection := [] }

def fields : List FieldPlan := (List.range 31).map field

/-- One field more than the limit allows. -/
def execution : Execution :=
  { host := options.host, limits := { maxComplexity := 30 }
    plan := { kind := .query, name := none, variableDefinitions := [], selection := fields }, variableValues := [] }

/-- One slot for all. -/
def state : ExecutionState := { registry := {}, slots := { limit := 1 }, cancelled := false }

/-- Every field has started, and the first one is done. -/
def moves : List Move := (List.range 31 ++ [0]).map .poll

set_option maxRecDepth 4000 in
/-- The second field waited for the slot, and its resolver is called although the account has passed the limit. -/
theorem called_beyond :
    (outcome ((Compiler.mk options [] []).collect [] (.root .query) none []
      ((List.range 31).map fun i => .field ⟨.start, some (key i), (called i).name, [], []⟩ [])) {}).1 =
        .ok execution.plan.selection ∧
    execution.rootFields = .ok fields ∧ execution.limits.maxComplexity = 30 ∧ state.complexity = 0 ∧ state.errors = [] ∧
    let run := moves.foldl (Run.move execution) (Run.launch fields state)
    run.state.callsFor (key 1) = [] ∧ (run.poll execution 1).state.callsFor (key 1) = [.called (key 1) "quick" []] ∧
      totalComplexity ((Run.launch fields state).charged execution (moves ++ [.poll 1])) = 31 := by
  refine ⟨?_, ?_, rfl, rfl, rfl, ?_, ?_, ?_⟩
  · simp only [List.range, List.range.loop, List.map_cons, List.map_nil, Compiler.collect]
    with_unfolding_all rfl
  all_goals with_unfolding_all rfl

/-- The query is too complex, so that it is never answered with data. -/
theorem crowd_guarded : 0 < execution.limits.maxComplexity ∧ state.complexity = 0 ∧ state.errors = [] ∧
    execution.limits.maxComplexity < totalComplexity execution.operations ∧ execution.ComplexityGuarded state :=
  ⟨by decide, rfl, rfl, by decide +kernel, Execution.complexity_guarded (by decide) rfl rfl⟩

end CrowdQuery

end GraphQL
