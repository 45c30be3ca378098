import GraphQL.Execution.Events
import GraphQL.Proofs.Execution.Advancing

/-!
# Interleavings

However the root fields of a run take turns, a run that ends with data has only taken steps that succeed:
`polls_steps`. So what every such step keeps holds at the end, above all that each field has the errors
of its own and what the response has for it. Executing a request is one way of taking turns.
-/

namespace GraphQL

/-- The task that an advance leads to. -/
def RootTask.ofResult : Except Abort RootTask → RootTask
  | .ok task => task
  | .error abort => .failed abort

namespace Run

variable {x : Execution}

/-- The root fields at the start of a run. -/
def launch (fields : List FieldPlan) (state : ExecutionState) : Run :=
  { tasks := fields.map fun field => (field, .fresh), state }

/-- No field has failed, so that the run goes on. -/
structure Sound (run : Run) : Prop where
  ongoing : run.aborted = none
  unfailed : ∀ entry ∈ run.tasks, entry.2.abort? = none

/-- One field gets further without a failure. -/
inductive Step (x : Execution) (run : Run) : Run → Prop
  | advance {i : Nat} {field : FieldPlan} {task task' : RootTask} {s : ExecutionState}
    (at' : run.tasks[i]? = some (field, task)) (ran : outcome (x.advance field task) run.state = (.ok task', s)) :
    Step x run { run with tasks := run.tasks.set i (field, task'), state := s }

/-- Fields get further, one after the other. -/
abbrev Steps (x : Execution) : Run → Run → Prop := Relation.ReflTransGen (Step x)

theorem heed_tasks (kind : OperationKind) (run : Run) : (heed kind run).tasks = run.tasks := by
  unfold heed
  split <;> rfl

theorem heed_errors (kind : OperationKind) (run : Run) : (heed kind run).state.errors = run.state.errors := by
  unfold heed
  split <;> rfl

theorem heed_registry (kind : OperationKind) (run : Run) : (heed kind run).state.registry = run.state.registry := by
  unfold heed
  split <;> rfl

theorem heed_cancelled (kind : OperationKind) (run : Run) : (heed kind run).state.cancelled = run.state.cancelled := by
  unfold heed
  split <;> rfl

theorem heed_sound {kind : OperationKind} {run : Run} (sound : (heed kind run).Sound) : heed kind run = run := by
  unfold heed at sound ⊢
  split
  · rfl
  · next abort failed =>
    rw [failed] at sound
    cases sound.ongoing

theorem poll_eq {run : Run} {i : Nat} {field : FieldPlan} {task : RootTask} (ongoing : run.aborted = none)
    (at' : run.tasks[i]? = some (field, task)) (ready : run.isReady x.plan.kind i = true) {s : ExecutionState}
    {result : Except Abort RootTask} (ran : outcome (x.advance field task) run.state = (result, s)) :
    Run.poll x run i =
      heed x.plan.kind { run with tasks := run.tasks.set i (field, .ofResult result), state := s } := by
  have ran' : (x.advance field task).run.run run.state = (result, s) := ran
  unfold poll
  simp only [ongoing, at', ready, ran', if_true]
  cases result <;> rfl

/-- A poll does nothing when the run was aborted, or there is no such field, or it is not its turn. -/
theorem poll_idle {run : Run} {i : Nat}
    (idle : ¬(run.aborted = none ∧ (∃ entry, run.tasks[i]? = some entry) ∧ run.isReady x.plan.kind i = true)) :
    Run.poll x run i = run := by
  unfold poll
  split
  · next field task ongoing at' => exact if_neg fun ready => idle ⟨ongoing, ⟨_, at'⟩, ready⟩
  · rfl

/-- A poll that leaves the run going was a step, or did nothing. -/
theorem poll_step {run : Run} {i : Nat} (sound : (Run.poll x run i).Sound) :
    run.Sound ∧ (Run.poll x run i = run ∨ Step x run (Run.poll x run i)) := by
  by_cases busy : run.aborted = none ∧ (∃ entry, run.tasks[i]? = some entry) ∧ run.isReady x.plan.kind i = true
  · obtain ⟨ongoing, ⟨⟨field, task⟩, at'⟩, ready⟩ := busy
    cases ran : outcome (x.advance field task) run.state with
    | mk result s =>
      rw [poll_eq ongoing at' ready ran] at sound ⊢
      have kept := heed_sound sound
      rw [kept] at sound ⊢
      have bound : i < run.tasks.length := (List.getElem?_eq_some_iff.1 at').1
      cases result with
      | error abort =>
        have failed := sound.unfailed (field, .failed abort) (List.mem_set bound _)
        cases failed
      | ok task' =>
        refine ⟨⟨ongoing, fun entry mem => ?_⟩, Or.inr (.advance at' ran)⟩
        obtain ⟨j, atj⟩ := List.getElem?_of_mem mem
        by_cases same : j = i
        · subst same
          rw [at'] at atj
          cases atj
          cases task with
          | failed abort => cases ran
          | _ => rfl
        · have atj' : (run.tasks.set i (field, task'))[j]? = some entry := by
            rw [List.getElem?_set_ne (Ne.symm same), atj]
          exact sound.unfailed entry (List.mem_of_getElem? atj')
  · rw [poll_idle busy] at sound ⊢
    exact ⟨sound, Or.inl rfl⟩

theorem polls_steps {run : Run} {polls : List Nat} (sound : (polls.foldl (Run.poll x) run).Sound) :
    run.Sound ∧ Steps x run (polls.foldl (Run.poll x) run) := by
  induction polls generalizing run with
  | nil => exact ⟨sound, .refl⟩
  | cons i rest ih =>
    obtain ⟨sound', steps⟩ := ih sound
    obtain ⟨sound, same | step⟩ := poll_step sound'
    · rw [List.foldl_cons]
      rw [same] at steps ⊢
      exact ⟨sound, steps⟩
    · exact ⟨sound, .head step steps⟩

/-! ## What a run shows -/

theorem perm_flatten_set {α : Type} {lists : List (List α)} {i : Nat} {own : List α} (at' : lists[i]? = some own)
    (more : List α) : (lists.flatten ++ more).Perm (lists.set i (own ++ more)).flatten := by
  induction lists generalizing i with
  | nil => cases at'
  | cons first rest ih =>
    cases i with
    | zero =>
      cases at'
      rw [List.set_cons_zero, List.flatten_cons, List.flatten_cons, List.append_assoc, List.append_assoc]
      exact List.Perm.append_left _ List.perm_append_comm
    | succ i =>
      rw [List.set_cons_succ, List.flatten_cons, List.flatten_cons, List.append_assoc]
      exact List.Perm.append_left _ (ih at')

/-- Each field of a run has errors of its own, and a condition holds of it with them. -/
structure Parts (fields : List FieldPlan) (before : List ResponseError) (run : Run) (own : List (List ResponseError))
    (each : FieldPlan → RootTask → List ResponseError → Prop) : Prop where
  fields : run.tasks.map (·.1) = fields
  counts : own.length = run.tasks.length
  errors : run.state.errors.Perm (before ++ own.flatten)
  each : ∀ (i : Nat) field task es, run.tasks[i]? = some (field, task) → own[i]? = some es → each field task es

section

variable {fields : List FieldPlan} {before : List ResponseError} {run : Run} {own : List (List ResponseError)}
  {each each' : FieldPlan → RootTask → List ResponseError → Prop}

theorem launch_parts (fields : List FieldPlan) (state : ExecutionState) (fresh : ∀ field, each field .fresh []) :
    Parts fields state.errors (launch fields state) (fields.map fun _ => []) each where
  fields := by
    rw [launch, List.map_map]
    exact List.map_id'' (fun _ => rfl) fields
  counts := by rw [launch, List.length_map, List.length_map]
  errors := by
    have none : (fields.map fun _ => ([] : List ResponseError)).flatten = [] := by simp
    rw [none, List.append_nil]
    exact .refl _
  each i field task es at' own := by
    rw [launch, List.getElem?_map, Option.map_eq_some_iff] at at'
    rw [List.getElem?_map, Option.map_eq_some_iff] at own
    obtain ⟨_, _, eq⟩ := at'
    obtain ⟨_, _, rfl⟩ := own
    cases eq
    exact fresh _

/-- What a step does belongs to the field that takes it. -/
theorem Parts.set {i : Nat} {field : FieldPlan} {task task' : RootTask} {s : ExecutionState}
    (parts : Parts fields before run own each) (at' : run.tasks[i]? = some (field, task))
    (kept : ∀ f t es, each f t es → each' f t es)
    (moved : ∀ mine, each field task mine → ∃ es, s.errors = run.state.errors ++ es ∧ each' field task' (mine ++ es)) :
    ∃ own', Parts fields before { run with tasks := run.tasks.set i (field, task'), state := s } own' each' := by
  have bound : i < own.length := by
    rw [parts.counts]
    exact (List.getElem?_eq_some_iff.1 at').1
  have mine : own[i]? = some own[i] := List.getElem?_eq_getElem bound
  obtain ⟨es, eq, holds⟩ := moved own[i] (parts.each i field task _ at' mine)
  refine ⟨own.set i (own[i] ++ es), ?_, ?_, ?_, ?_⟩
  · rw [List.map_set, parts.fields]
    have same : fields[i]? = some field := by
      rw [← parts.fields, List.getElem?_map, at', Option.map_some]
    obtain ⟨_, eq⟩ := List.getElem?_eq_some_iff.1 same
    rw [← eq, List.set_getElem_self]
  · rw [List.length_set, List.length_set, parts.counts]
  · rw [eq]
    refine (parts.errors.append_right es).trans ?_
    rw [List.append_assoc]
    exact List.Perm.append_left _ (perm_flatten_set mine es)
  · intro j f t es' atj ownj
    by_cases same : i = j
    · subst same
      rw [List.getElem?_set_self (List.getElem?_eq_some_iff.1 at').1] at atj
      rw [List.getElem?_set_self bound] at ownj
      cases atj
      cases ownj
      exact holds
    · rw [List.getElem?_set_ne same] at atj ownj
      exact kept f t es' (parts.each j f t es' atj ownj)

end

/-- The response shows each field as far as it has come. -/
abbrev Shown (x : Execution) (fields : List FieldPlan) (before : List ResponseError) (run : Run)
    (own : List (List ResponseError)) : Prop :=
  Parts fields before run own fun field task es => task.Shows x run.state.registry field es

theorem Step.shown {run run' : Run} {fields : List FieldPlan} {before : List ResponseError}
    {own : List (List ResponseError)} (step : Step x run run') (shown : Shown x fields before run own) :
    x.host.Later run.state.registry run'.state.registry ∧ ∃ own', Shown x fields before run' own' := by
  cases step with
  | @advance i field task task' s at' ran =>
    have bound : i < own.length := by
      rw [shown.counts]
      exact (List.getElem?_eq_some_iff.1 at').1
    have mine := shown.each i field task _ at' (List.getElem?_eq_getElem bound)
    obtain ⟨-, -, grown, -⟩ := Execution.advance_shows mine ran
    refine ⟨grown, shown.set at' (fun f t es shows' => RootTask.Shows.later shows' grown) ?_⟩
    intro mine shows'
    obtain ⟨es, eq, -, showing⟩ := Execution.advance_shows shows' ran
    exact ⟨es, eq, showing⟩

theorem Steps.shown {fields : List FieldPlan} {state : ExecutionState} {run : Run}
    (steps : Steps x (launch fields state) run) :
    x.host.Later state.registry run.state.registry ∧ ∃ own, Shown x fields state.errors run own := by
  induction steps with
  | refl => exact ⟨.refl _ _, _, launch_parts fields state fun _ => rfl⟩
  | tail _ step ih =>
    obtain ⟨grown, own, shown⟩ := ih
    obtain ⟨grown', shown'⟩ := step.shown shown
    exact ⟨grown.trans grown', shown'⟩

theorem values_of_mapM {tasks : List (FieldPlan × RootTask)} {entries : List (String × ResponseValue)}
    (done : (tasks.mapM fun (field, task) => task.value?.map fun value => (field.responseKey, value)) = some entries) :
    ∃ values : List ResponseValue, values.length = tasks.length ∧ entries = keyed (tasks.map (·.1)) values ∧
      ∀ (i : Nat) field task v, tasks[i]? = some (field, task) → values[i]? = some v → task = .done v := by
  induction tasks generalizing entries with
  | nil =>
    cases done
    exact ⟨[], rfl, rfl, fun i field task v at' => by simp at at'⟩
  | cons first rest ih =>
    obtain ⟨field, task⟩ := first
    rw [List.mapM_cons] at done
    cases task with
    | done v =>
      simp only [RootTask.value?, Option.map_some, Option.bind_eq_bind, Option.bind_some] at done
      obtain ⟨others, found, eq⟩ := Option.bind_eq_some_iff.1 done
      obtain ⟨values, count, rfl, each⟩ := ih found
      cases eq
      refine ⟨v :: values, by simp [count], rfl, ?_⟩
      intro i f t w ht hw
      cases i with
      | zero =>
        cases ht
        cases hw
        rfl
      | succ i => exact each i f t w ht hw
    | _ => cases done

/-- The data of a run are the values of its fields, all of which are done. -/
theorem data_eq_ok {run : Run} {data : ResponseValue} (ok : run.data = .ok data) :
    run.Sound ∧ ∃ values : List ResponseValue, values.length = run.tasks.length ∧
      data = .object (keyed (run.tasks.map (·.1)) values) ∧
      ∀ (i : Nat) field task v, run.tasks[i]? = some (field, task) → values[i]? = some v → task = .done v := by
  unfold Run.data at ok
  split at ok
  · cases ok
  · next ongoing =>
    split at ok
    · next entries done =>
      obtain ⟨values, count, rfl, each⟩ := values_of_mapM done
      cases ok
      refine ⟨⟨ongoing, fun entry mem => ?_⟩, values, count, rfl, each⟩
      obtain ⟨i, at'⟩ := List.getElem?_of_mem mem
      have bound : i < values.length := by
        rw [count]
        exact (List.getElem?_eq_some_iff.1 at').1
      obtain ⟨field, task⟩ := entry
      rw [each i field task values[i] at' (List.getElem?_eq_getElem bound)]
      rfl
    · cases ok

end Run

/-! ## Executing -/

namespace Turn

variable {x : Execution}

/-- The turn after one of the fields still to be polled was polled. -/
def polled (x : Execution) (i : Nat) (rest : List Nat) (turn : Turn) : Turn :=
  let run := turn.run.poll x i
  let resting := if run.gaveWay i then i :: turn.resting else turn.resting
  { run, woken := turn.woken ++ run.admitted.filter (· ∉ rest ++ turn.woken ++ resting), resting }

theorem pollWoken_cons (x : Execution) (i : Nat) (rest : List Nat) (turn : Turn) :
    pollWoken x (i :: rest) turn = pollWoken x rest (turn.polled x i rest) := rfl

theorem pollWoken_polls (woken : List Nat) (turn : Turn) :
    (pollWoken x woken turn).run = woken.foldl (Run.poll x) turn.run := by
  induction woken generalizing turn with
  | nil => rfl
  | cons i rest ih => exact ih (turn.polled x i rest)

theorem next_polls (turn : Turn) : ∃ polls : List Nat, (turn.next x).run = polls.foldl (Run.poll x) turn.run := by
  unfold next
  split
  · exact ⟨_, rfl⟩
  · split
    · exact ⟨turn.resting, pollWoken_polls _ _⟩
    · exact ⟨turn.woken, pollWoken_polls _ _⟩

/-- The root fields before the first round. -/
def launch (fields : List FieldPlan) (state : ExecutionState) : Turn :=
  { run := Run.launch fields state, woken := List.range fields.length }

/-- A run of which the second round gets no field any further. -/
theorem settle_twice {turn : Turn} (less : (turn.next x).run.waiting < turn.run.waiting)
    (same : ¬((turn.next x).next x).run.waiting < (turn.next x).run.waiting)
    (ended : ¬(((turn.next x).next x).run.waiting = (turn.next x).run.waiting ∧
      ((turn.next x).next x).run.size < (turn.next x).run.size)) :
    settle x turn = ((turn.next x).next x).run := by
  rw [settle, if_pos less, settle, if_neg same, if_neg ended]

/-- Taking turns is one way of polling. -/
theorem settle_polls (turn : Turn) : ∃ polls : List Nat, settle x turn = polls.foldl (Run.poll x) turn.run := by
  obtain ⟨first, polled⟩ := next_polls (x := x) turn
  rw [settle]
  split
  · obtain ⟨rest, settled⟩ := settle_polls (turn.next x)
    exact ⟨first ++ rest, by rw [settled, polled, List.foldl_append]⟩
  · split
    · obtain ⟨rest, settled⟩ := settle_polls (turn.next x)
      exact ⟨first ++ rest, by rw [settled, polled, List.foldl_append]⟩
    · exact ⟨first, polled⟩
termination_by (turn.run.waiting, turn.run.size)
decreasing_by
  · next h =>
    rw [h.1]
    exact Prod.Lex.right _ h.2
  · exact Prod.Lex.left _ _ ‹_›

end Turn

end GraphQL
