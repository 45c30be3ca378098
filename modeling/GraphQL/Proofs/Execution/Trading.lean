import GraphQL.Proofs.Execution.Interleaving

/-!
# What the fields of a run share

Besides the registry and the errors, root fields share the slots for resolvers, the complexity counted so
far and whether the request is cancelled. `Trades` says how an advance changes these: the slot of a field
is taken when its resolver is called and given back when the work is done, complexity only grows, and no
cancellation is undone. So at any time the slots taken are those of the resolvers at work.
-/

namespace GraphQL

namespace RootTask

/-- The number of slots that a task holds. -/
def held (task : RootTask) : Nat := if task.holdsSlot then 1 else 0

/-- Whether the resolver was called, or the field is answered without one. -/
def Called : RootTask → Prop
  | working _ | done _ => True
  | _ => False

theorem Called.not_waiting {task : RootTask} (called : task.Called) : task.isWaiting = false := by
  cases task with
  | working _ | done _ => rfl
  | _ => cases called

theorem Called.not_failed {task : RootTask} (called : task.Called) : task.abort? = none := by
  cases task with
  | working _ | done _ => rfl
  | _ => cases called

end RootTask

/-- From a state in which some slots are held to a state in which others are. -/
structure Trades (held : Nat) (s : ExecutionState) (held' : Nat) (s' : ExecutionState) : Prop where
  limit : s'.slots.limit = s.slots.limit
  taken : held ≤ s.slots.taken → s'.slots.taken + held = s.slots.taken + held'
  calm : s'.cancelled = false → s.cancelled = false
  complexity : ∀ more, saturatingAdd s.complexity more ≤ saturatingAdd s'.complexity more

namespace Trades

variable {held held' held'' : Nat} {s s' s'' : ExecutionState}

theorem refl (held : Nat) (s : ExecutionState) : Trades held s held s := ⟨rfl, fun _ => rfl, id, fun _ => Nat.le_refl _⟩

theorem trans (first : Trades held s held' s') (next : Trades held' s' held'' s'') : Trades held s held'' s'' where
  limit := next.limit.trans first.limit
  taken enough := by
    have before := first.taken enough
    have after := next.taken (by omega)
    omega
  calm := first.calm ∘ next.calm
  complexity more := Nat.le_trans (first.complexity more) (next.complexity more)

/-- Other slots that are held all the time do not matter. -/
theorem beside {total total' : Nat} (trades : Trades held s held' s') (among : held ≤ total)
    (counts : total' + held = total + held') : Trades total s total' s' where
  limit := trades.limit
  taken enough := by
    have := trades.taken (Nat.le_trans among enough)
    omega
  calm := trades.calm
  complexity := trades.complexity

end Trades

/-- Completing values leaves all of this alone. -/
theorem ExecM.Yields.trades {host : Host} {α : Type} {m : ExecM α} {post : Registry → α → List ResponseError → Prop}
    (yields : Yields host m post) {s s' : ExecutionState} {a : α} (ran : outcome m s = (.ok a, s')) (held : Nat) :
    Trades held s held s' := by
  obtain ⟨registry, errors, events, rfl, -⟩ := yields s a s' ran
  exact ⟨rfl, fun _ => rfl, id, fun _ => Nat.le_refl _⟩

namespace Execution

variable {x : Execution} {field : FieldPlan} {s s' : ExecutionState} {task task' : RootTask}

theorem finish_trades {m : ExecM ResponseValue} (completes : x.Completes m (.root field) field.rootPath)
    (ran : outcome (m >>= field.finish) s = (.ok task, s')) : task.Called ∧ Trades 0 s task.held s' := by
  obtain ⟨v, u, completed, finished⟩ := outcome_bind_eq_ok.1 ran
  cases finished
  refine ⟨trivial, (completes.trades completed 0).trans ?_⟩
  exact ⟨rfl, fun _ => rfl, id, fun _ => Nat.le_refl _⟩

/-- A field that is finished gives its slot back. -/
theorem release_trades {m : ExecM ResponseValue} (completes : x.Completes m (.root field) field.rootPath)
    (ran : outcome (ExecM.releaseSlot >>= fun _ => m >>= field.finish) s = (.ok task, s')) :
    task.Called ∧ Trades 1 s task.held s' := by
  obtain ⟨_, u, released, finished⟩ := outcome_bind_eq_ok.1 ran
  cases released
  obtain ⟨called, trades⟩ := finish_trades completes finished
  have given : Trades 1 s 0 { s with slots := s.slots.release 1 } :=
    ⟨rfl, fun enough => Nat.sub_add_cancel enough, id, fun _ => Nat.le_refl _⟩
  exact ⟨called, given.trans trades⟩

theorem work_trades (work : Work Resolved) (ran : outcome (x.work field work) s = (.ok task, s')) :
    task.Called ∧ Trades 1 s task.held s' := by
  induction work generalizing s with
  | done result =>
    rw [Execution.work] at ran
    exact release_trades (completeRoot_completes result) ran
  | pause next _ =>
    rw [Execution.work] at ran
    cases ran
    exact ⟨trivial, .refl 1 _⟩
  | record entry next ih =>
    rw [Execution.work] at ran
    obtain ⟨_, u, recorded, ran⟩ := outcome_bind_eq_ok.1 ran
    cases recorded
    obtain ⟨called, trades⟩ := ih ran
    exact ⟨called, trades.limit, trades.taken, trades.calm, trades.complexity⟩
  | cancel next ih =>
    rw [Execution.work] at ran
    obtain ⟨_, u, cancelled, ran⟩ := outcome_bind_eq_ok.1 ran
    cases cancelled
    obtain ⟨called, trades⟩ := ih ran
    refine ⟨called, trades.limit, trades.taken, fun calm => ?_, trades.complexity⟩
    cases trades.calm calm
  | awaitCancel next ih =>
    rw [Execution.work] at ran
    obtain ⟨_, u, got, ran⟩ := outcome_bind_eq_ok.1 ran
    cases got
    split at ran
    · exact ih ran
    · cases ran
      exact ⟨trivial, .refl 1 _⟩
  | askCancelled next ih =>
    rw [Execution.work] at ran
    obtain ⟨_, u, got, ran⟩ := outcome_bind_eq_ok.1 ran
    cases got
    exact ih _ ran

/-- A resolver gets on, unless it waits for a cancellation. -/
theorem work_shrinks (work : Work Resolved) (ran : outcome (x.work field work) s = (.ok task, s')) :
    (task = .working work ∧ s' = s) ∨ task.size < (RootTask.working work).size := by
  have finished (u : ExecutionState) {m : ExecM ResponseValue} (ran : outcome (m >>= field.finish) u = (.ok task, s')) :
      task.size = 0 := by
    obtain ⟨v, _, _, eq⟩ := outcome_bind_eq_ok.1 ran
    cases eq
    rfl
  induction work generalizing s with
  | done result =>
    rw [Execution.work] at ran
    obtain ⟨_, u, _, ran⟩ := outcome_bind_eq_ok.1 ran
    rw [finished u ran]
    exact Or.inr (Nat.succ_pos _)
  | pause next _ =>
    rw [Execution.work] at ran
    cases ran
    exact Or.inr (Nat.lt_succ_self _)
  | record entry next ih | cancel next ih =>
    rw [Execution.work] at ran
    obtain ⟨_, u, _, ran⟩ := outcome_bind_eq_ok.1 ran
    obtain ⟨rfl, -⟩ | smaller := ih ran
    · exact Or.inr (Nat.lt_succ_self _)
    · exact Or.inr (Nat.lt_succ_of_lt smaller)
  | awaitCancel next ih =>
    rw [Execution.work] at ran
    obtain ⟨_, u, got, ran⟩ := outcome_bind_eq_ok.1 ran
    cases got
    split at ran
    · obtain ⟨rfl, -⟩ | smaller := ih ran
      · exact Or.inr (Nat.lt_succ_self _)
      · exact Or.inr (Nat.lt_succ_of_lt smaller)
    · cases ran
      exact Or.inl ⟨rfl, rfl⟩
  | askCancelled next ih =>
    rw [Execution.work] at ran
    obtain ⟨_, u, got, ran⟩ := outcome_bind_eq_ok.1 ran
    have smaller (b : Bool) : (next b).size < (Work.askCancelled next).size := by
      cases b with
      | false => exact Nat.lt_succ_of_le (Nat.le_max_right _ _)
      | true => exact Nat.lt_succ_of_le (Nat.le_max_left _ _)
    obtain ⟨rfl, -⟩ | shrunk := ih _ ran
    · exact Or.inr (Nat.succ_lt_succ (smaller _))
    · exact Or.inr (Nat.lt_trans shrunk (Nat.succ_lt_succ (smaller _)))

theorem call_trades {operation : OperationDescriptor} {resolver : Resolver Resolved}
    (ran : outcome (x.call field operation resolver) s = (.ok task, s')) : task.Called ∧ Trades 1 s task.held s' := by
  unfold call at ran
  obtain ⟨result, u, parsed, ran⟩ := outcome_bind_eq_ok.1 ran
  have before : Trades 1 s 1 u :=
    (ExecM.yields_onRegistry (OperationDescriptor.parseArguments_settles x.inputContext operation
      field.arguments)).trades parsed 1
  have then' (after : task.Called ∧ Trades 1 u task.held s') : task.Called ∧ Trades 1 s task.held s' :=
    ⟨after.1, before.trans after.2⟩
  cases result with
  | error failure =>
    cases failure with
    | error e => exact then' (release_trades (x := x) (hostError_completes _ _ _ _) ran)
    | panic message => exact then' (release_trades (x := x) (panicked_completes message) ran)
  | ok arguments =>
    obtain ⟨_, v, noted, ran⟩ := outcome_bind_eq_ok.1 ran
    cases noted
    have later : task.Called ∧ Trades 1 u task.held s' := by
      split at ran
      · obtain ⟨called, trades⟩ := work_trades _ ran
        exact ⟨called, trades.limit, trades.taken, trades.calm, trades.complexity⟩
      · obtain ⟨called, trades⟩ := release_trades (x := x) (panicked_completes _) ran
        exact ⟨called, trades.limit, trades.taken, trades.calm, trades.complexity⟩
    exact then' later

/-- A field that may go on waits for a slot, or has taken one for the call of its resolver. -/
theorem withResolver_trades (ran : outcome (x.withResolver field (x.enter field)) s = (.ok task, s')) :
    (task = .queued ∧ s' = s) ∨ (task.Called ∧ Trades 0 s task.held s') := by
  unfold withResolver at ran
  split at ran
  · have completes : x.Completes (pure (.const (.string x.plan.kind.rootTypeName))) (.root field) field.rootPath :=
      ExecM.yields_pure fun _ => .rootTypename ‹_›
    rw [← pure_bind (ResponseValue.const _) field.finish] at ran
    exact Or.inr (finish_trades completes ran)
  · split at ran
    · rw [outcome_enter] at ran
      split at ran
      · cases ran
      · split at ran
        · cases ran
          exact Or.inl ⟨rfl, rfl⟩
        · next slots free =>
          obtain ⟨called, trades⟩ := call_trades ran
          have got : Trades 0 s 1 { s with slots } := by
            unfold Slots.acquire? at free
            split at free
            · cases free
              exact ⟨rfl, fun _ => rfl, id, fun _ => Nat.le_refl _⟩
            · cases free
          exact Or.inr ⟨called, got.trans trades⟩
    · exact Or.inr (finish_trades (x := x) (fieldError_completes _ _ _ _) ran)
  · cases ran
  · cases ran

theorem counting_trades (s : ExecutionState) (field : FieldPlan) : Trades 0 s 0 (counting s field) := by
  unfold counting
  split
  · refine ⟨rfl, fun _ => rfl, id, ?_⟩
    intro more
    simp only [saturatingAdd]
    omega
  · exact .refl 0 s

/-- What an advance of a field does to the slots, it does with the slot of the field. -/
theorem advance_trades (ran : outcome (x.advance field task) s = (.ok task', s')) :
    Trades task.held s task'.held s' := by
  cases task with
  | fresh =>
    have admits := start_admits ran
    change outcome (x.start field) s = _ at ran
    rw [outcome_start admits] at ran
    obtain ⟨rfl, rfl⟩ | ⟨-, trades⟩ := withResolver_trades ran
    · exact counting_trades s field
    · exact (counting_trades s field).trans trades
  | queued =>
    obtain ⟨rfl, rfl⟩ | ⟨-, trades⟩ := withResolver_trades ran
    · exact .refl 0 _
    · exact trades
  | working work => exact (work_trades work ran).2
  | done v =>
    cases ran
    exact .refl 0 _
  | failed abort => cases ran

end Execution

namespace Run

variable {x : Execution}

theorem held_le_slotsHeld {run : Run} {i : Nat} {field : FieldPlan} {task : RootTask}
    (at' : run.tasks[i]? = some (field, task)) : task.held ≤ run.slotsHeld := by
  unfold RootTask.held
  split
  · next holds => exact List.countP_pos_iff.2 ⟨_, List.mem_of_getElem? at', holds⟩
  · exact Nat.zero_le _

/-- What a run holds changes by what the field that moved holds. -/
theorem slotsHeld_set {run run' : Run} {i : Nat} {field : FieldPlan} {task task' : RootTask}
    (at' : run.tasks[i]? = some (field, task)) (moved : run'.tasks = run.tasks.set i (field, task')) :
    run'.slotsHeld + task.held = run.slotsHeld + task'.held := by
  obtain ⟨bound, here⟩ := List.getElem?_eq_some_iff.1 at'
  have among := held_le_slotsHeld at'
  have counted : run'.slotsHeld = run.slotsHeld - task.held + task'.held := by
    unfold slotsHeld
    rw [moved, List.countP_set bound, here]
    rfl
  omega

theorem Step.trades {run run' : Run} (step : Step x run run') :
    Trades run.slotsHeld run.state run'.slotsHeld run'.state := by
  cases step with
  | @advance i field task task' s at' ran =>
    exact (Execution.advance_trades ran).beside (held_le_slotsHeld at') (slotsHeld_set at' rfl)

theorem launch_slotsHeld (fields : List FieldPlan) (state : ExecutionState) : (launch fields state).slotsHeld = 0 := by
  unfold slotsHeld launch
  rw [List.countP_map, List.countP_eq_zero]
  exact fun _ _ => Bool.false_ne_true

/-- The slots taken in the course of a run are those that its fields hold. -/
theorem Steps.trades {fields : List FieldPlan} {state : ExecutionState} {run : Run}
    (steps : Steps x (launch fields state) run) : Trades 0 state run.slotsHeld run.state := by
  induction steps with
  | refl =>
    rw [launch_slotsHeld]
    exact .refl 0 state
  | tail _ step ih => exact ih.trans step.trades

end Run

end GraphQL
