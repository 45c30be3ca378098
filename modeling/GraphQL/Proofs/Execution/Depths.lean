import GraphQL.Proofs.Execution.Aborts
import GraphQL.Proofs.Execution.Legs

/-!
# Depth

The depth of a plan is measured once, before any resolver is called, and again as every field is resolved.
The two agree: lists, unions and interfaces leave the depth of a field alone and objects add one, as the
nesting of selections does. So a plan with a field too deep is refused as a whole, and a plan that is not
refused has no field too deep for any data.
-/

namespace GraphQL

namespace Execution

/-- A field at a depth, counted from that of a selection: in it, or below a field of it. The directives keep
the field and all those around it; type conditions do not matter. -/
inductive Nests (x : Execution) : Nat → List FieldPlan → Nat → FieldPlan → Prop
  | here {depth : Nat} {selection : List FieldPlan} {field : FieldPlan} (mem : field ∈ selection)
    (kept : x.isIncluded field = .ok true) : Nests x depth selection depth field
  | within {depth deep : Nat} {selection : List FieldPlan} {parent field : FieldPlan} (mem : parent ∈ selection)
    (kept : x.isIncluded parent = .ok true) (inner : Nests x (depth + 1) parent.selection deep field) :
    Nests x depth selection deep field

variable {x : Execution} {state : ExecutionState} {field : FieldPlan}

/-- Every field below an approved selection passes the guard. -/
theorem Nests.approved {depth deep : Nat} {selection : List FieldPlan} (nests : x.Nests depth selection deep field)
    (approves : x.Approves depth selection) : field.guard (x.limits.checkDepth deep) = .ok () := by
  induction nests with
  | here mem kept => exact (approves.below mem kept).1
  | within mem kept _ ih => exact ih (approves.below mem kept).2

theorem not_exceeds_of_guard {deep : Nat} (limited : 0 < x.limits.maxDepth)
    (passed : field.guard (x.limits.checkDepth deep) = .ok ()) : deep ≤ x.limits.maxDepth := by
  unfold QueryLimits.checkDepth QueryLimits.guardWith at passed
  split at passed
  · cases passed
  · next within =>
    simp only [exceeds, Bool.and_eq_true, decide_eq_true_eq] at within
    omega

/-- A plan with a field too deep is refused by the walk. -/
theorem checkPlanDepth_refuses {deep : Nat} (nests : x.Nests 1 x.plan.selection deep field)
    (limited : 0 < x.limits.maxDepth) (tooDeep : x.limits.maxDepth < deep) : ∃ e, x.checkPlanDepth = .error e := by
  cases walked : x.checkPlanDepth with
  | error e => exact ⟨e, rfl⟩
  | ok _ =>
    rw [checkPlanDepth, if_neg (by omega)] at walked
    have := not_exceeds_of_guard limited (nests.approved (Or.inr walked))
    omega

theorem approves_of_checkPlanDepth (walked : x.checkPlanDepth = .ok ()) : x.Approves 1 x.plan.selection := by
  unfold checkPlanDepth at walked
  split at walked
  · next unlimited => exact Or.inl unlimited
  · exact Or.inr walked

theorem execute_refused {e : ResponseError} (refused : x.checkPlanDepth = .error e) :
    x.execute state = (.ok (.ofError e), state) := by
  have rooted : x.rootFields = .error e := by
    unfold rootFields
    rw [refused]
    rfl
  rw [execute, rooted]

theorem subscribe_refused {e : ResponseError} (refused : x.checkPlanDepth = .error e) :
    outcome x.subscribe state = (.error (.error e), state) := by
  unfold subscribe
  rw [outcome_bind, refused]
  rfl

/-! ## Root fields -/

/-- Answering a root field collects errors at its path and below. -/
theorem answer_conducts (ending : Ending) :
    ExecM.Keeps x.host (.below (x.Approves 2 field.selection) field.rootPath) (x.answer field ending) := by
  cases ending with
  | typename => exact ExecM.conducts_pure trivial
  | misplaced operation => exact fieldError_below _ _ _ _
  | invalid e => exact hostError_below _ _ _ _
  | result result =>
    cases result with
    | ok value => exact complete_conducts field.type value field field.rootPath 1
    | error failure =>
      cases failure with
      | error e => exact hostError_below _ _ _ _
      | panic message => exact fieldError_below _ _ _ _

end Execution

/-- Every error has a path, or was there before. -/
def ExecutionState.Placed (before : List ResponseError) (s : ExecutionState) : Prop :=
  ∀ e ∈ s.errors, e ∈ before ∨ ∃ path, e.path = some path

/-- A root field has not failed for its depth. -/
structure Stage.Shallow (before : List ResponseError) (at' : Stage × ExecutionState) : Prop where
  failed : ∀ abort, at'.1 = .task (.failed abort) → ¬abort.TooDeep
  placed : at'.2.Placed before

section

variable {x : Execution} {field : FieldPlan} {before : List ResponseError}

theorem unmeasured_cancelled : (Abort.error .cancelled).Unmeasured :=
  Abort.unmeasured_of_code (by simp [ResponseError.cancelled])

theorem unmeasured_internal : (Abort.error .internal).Unmeasured :=
  Abort.unmeasured_of_code (by simp [ResponseError.internal])

theorem ExecutionState.Placed.counting {s : ExecutionState} (placed : s.Placed before) :
    (Execution.counting s field).Placed before := by
  unfold ExecutionState.Placed
  rw [Execution.counting_errors]
  exact placed

/-- Answering a root field charges nothing and places its errors. It does not fail for complexity, nor for depth if
the walk has passed the field. -/
theorem answer_measured {ending : Ending} {s s' : ExecutionState} {result : Except Abort ResponseValue}
    (ran : outcome (x.answer field ending) s = (result, s')) :
    s'.complexity = s.complexity ∧ (∀ before, s.Placed before → s'.Placed before) ∧
      ∀ abort, result = .error abort → ¬abort.TooComplex ∧ (x.Approves 2 field.selection → ¬abort.TooDeep) := by
  obtain ⟨registry, errors, events, eq, -, collects, -, ends⟩ := @Execution.answer_conducts x field ending s
  rw [ran] at eq ends
  simp only at eq
  subst eq
  refine ⟨rfl, fun before placed e mem => ?_, ?_⟩
  · rcases List.mem_append.1 mem with mem | mem
    · exact placed e mem
    · obtain ⟨rest, path⟩ := collects e mem
      exact Or.inr ⟨_, path⟩
  · rintro abort rfl
    exact ends

/-- No leg of a root field that the walk has passed fails for its depth. -/
theorem Leg.shallow {here there : Stage × ExecutionState} (leg : Leg x field here there)
    (passed : field.guard (x.limits.checkDepth 1) = .ok ()) (approved : x.Approves 2 field.selection)
    (shallow : Stage.Shallow before here) : Stage.Shallow before there := by
  have placed := shallow.placed
  cases leg with
  | cancelled _ => exact ⟨fun _ same => by cases same; exact unmeasured_cancelled.depth, placed⟩
  | tooDeep refused => cases passed.symm.trans refused
  | tooComplex refused =>
    refine ⟨fun _ same => ?_, placed.counting⟩
    cases same
    exact Abort.not_tooDeep (field.not_tooDeep_of_guard refused fun _ _ =>
      QueryLimits.guardWith_error fun _ _ _ _ => by simp)
  | admitted _ => exact ⟨by simp, placed.counting⟩
  | foreign _ _ => exact ⟨fun _ same => by cases same; exact unmeasured_internal.depth, placed⟩
  | interrupted _ => exact ⟨fun _ same => by cases same; exact unmeasured_cancelled.depth, placed⟩
  | finish ran =>
    obtain ⟨-, after, -⟩ := answer_measured ran
    exact ⟨by simp, after _ placed⟩
  | fail ran =>
    obtain ⟨-, after, fails⟩ := answer_measured ran
    exact ⟨fun _ same => by cases same; exact (fails _ rfl).2 approved, after _ placed⟩
  | _ => exact ⟨by simp, placed⟩

theorem Legs.shallow {here there : Stage × ExecutionState} (legs : Legs x field here there)
    (passed : field.guard (x.limits.checkDepth 1) = .ok ()) (approved : x.Approves 2 field.selection)
    (shallow : Stage.Shallow before here) : Stage.Shallow before there := by
  induction legs with
  | refl => exact shallow
  | tail _ leg ih => exact leg.shallow passed approved ih

end

/-! ## Runs -/

namespace Run

variable {x : Execution} {before : List ResponseError}

/-- No field of a run has failed for its depth, and the walk has passed them all. -/
structure Shallow (x : Execution) (before : List ResponseError) (run : Run) : Prop where
  passed : ∀ entry ∈ run.tasks, entry.1.guard (x.limits.checkDepth 1) = .ok () ∧ x.Approves 2 entry.1.selection
  failed : ∀ entry ∈ run.tasks, ∀ abort, entry.2 = .failed abort → ¬abort.TooDeep
  aborted : ∀ abort, run.aborted = some abort → ¬abort.TooDeep
  placed : run.state.Placed before

theorem Shallow.heed {kind : OperationKind} {run : Run} (shallow : run.Shallow x before) :
    (heed kind run).Shallow x before := by
  unfold Run.heed
  split
  · exact shallow
  · next abort failed =>
    obtain ⟨field, mem⟩ := failed_of_failure? failed
    refine ⟨shallow.passed, shallow.failed, fun other ended => ?_, shallow.placed⟩
    cases ended
    exact shallow.failed _ mem abort rfl

/-- One poll of a run leaves it shallow. -/
theorem Shallow.poll {run run' : Run} (poll : Poll x run run') (shallow : run.Shallow x before) :
    run'.Shallow x before := by
  cases poll with
  | idle => exact shallow
  | @advance i field task task' s ongoing at' ready legs =>
    have mem := List.mem_of_getElem? at'
    obtain ⟨passed, approved⟩ := shallow.passed _ mem
    have begun : Stage.Shallow before (.task task, run.state) :=
      ⟨fun abort same => shallow.failed _ mem abort (Stage.task.inj same), shallow.placed⟩
    have after := legs.shallow passed approved begun
    refine Shallow.heed ⟨fun entry mem => ?_, fun entry mem => ?_, shallow.aborted, after.placed⟩
    · rcases List.mem_or_eq_of_mem_set mem with mem | rfl
      · exact shallow.passed entry mem
      · exact ⟨passed, approved⟩
    · rcases List.mem_or_eq_of_mem_set mem with mem | rfl
      · exact shallow.failed entry mem
      · rintro abort rfl
        exact after.failed abort rfl

end Run

namespace Execution

variable {x : Execution} {state : ExecutionState}

section

variable (walked : x.checkPlanDepth = .ok ()) (fresh : state.errors = [])

include walked fresh

/-- However root fields take turns, none fails for its depth. -/
theorem interleaves_shallow {run : Run} (interleaved : x.Interleaves state run) : run.Shallow x [] := by
  obtain ⟨fields, polls, rooted, rfl⟩ := interleaved
  have selected := (rootFields_eq_ok rooted).1
  refine Run.polls_keep (fun _ _ poll shallow => shallow.poll poll) ?_ polls
  have ongoing : (Run.launch fields state).aborted = none := rfl
  refine ⟨fun entry mem => ?_, fun entry mem => ?_, fun abort ended => ?_, fun e mem => ?_⟩
  · obtain ⟨field, among, rfl⟩ := List.mem_map.1 mem
    have kept := (isIncluded_of_included (collect_eq_ok_iff.1 selected).1 among).1
    exact (approves_of_checkPlanDepth walked).below (mem_of_collect selected among) kept
  · obtain ⟨field, among, rfl⟩ := List.mem_map.1 mem
    simp
  · cases ongoing.symm.trans ended
  · change e ∈ state.errors at mem
    rw [fresh] at mem
    cases mem

omit fresh in
/-- Shaping an event does not fail for the depth of a field, and its errors have paths. -/
theorem shapeEvent_conducts (event : Resolved) :
    ExecM.Keeps x.host (.below True []) (x.shapeEvent event) := by
  unfold shapeEvent
  have selection : ExecM.Conducts x.host (.below True []) (ExecM.ofExcept (x.collect x.plan.selection none))
      fun fields => x.collect x.plan.selection none = .ok fields :=
    ExecM.conducts_ofExcept (fun _ => id) fun _ failed => (collect_unmeasured failed).below
  refine selection.bind fun fields selected => ?_
  cases fields with
  | nil => exact ExecM.conducts_pure trivial
  | cons field rest =>
    have kept := (isIncluded_of_included (collect_eq_ok_iff.1 selected).1 List.mem_cons_self).1
    have approved := (approves_of_checkPlanDepth walked).below (mem_of_collect selected List.mem_cons_self) kept
    refine (ExecM.conducts_checkCancelled unmeasured_cancelled.below).bind fun _ _ => ?_
    refine ((complete_conducts field.type event field field.rootPath 1).weaken ?_).bind
      fun _ _ => ExecM.conducts_pure trivial
    exact @Conduct.below_within _ _ [] field.rootPath fun _ => approved.2

end

end Execution

/-! ## Subscriptions -/

/-- The computation does not fail for the depth of a field. -/
def ExecM.Spares {α : Type} (m : ExecM α) : Prop :=
  ∀ s abort s', outcome m s = (.error abort, s') → ¬abort.TooDeep

namespace ExecM

variable {α β : Type}

theorem spares_pure (a : α) : Spares (pure a) := by
  intro s abort s' ran
  cases ran

theorem spares_throw {abort : Abort} (other : ¬abort.TooDeep) : Spares (throw abort : ExecM α) := by
  intro s abort' s' ran
  cases ran
  exact other

theorem Spares.bind {m : ExecM α} {f : α → ExecM β} (first : Spares m)
    (next : ∀ a s s', outcome m s = (.ok a, s') → Spares (f a)) : Spares (m >>= f) := by
  intro s abort s' ran
  rw [outcome_bind] at ran
  cases came : outcome m s with
  | mk result t =>
    rw [came] at ran
    cases result with
    | ok a => exact next a s t came t abort s' ran
    | error e =>
      cases ran
      exact first s _ _ came

theorem spares_ofExcept {result : Except ResponseError α} (fail : ∀ e, result = .error e → ¬(Abort.error e).TooDeep) :
    Spares (ofExcept result) := by
  cases result with
  | ok a => exact spares_pure a
  | error e => exact spares_throw (fail e rfl)

/-- A computation that changes nothing but the state. -/
theorem spares_change {m : ExecM α} (change : ∀ s, ∃ a s', outcome m s = (.ok a, s')) : Spares m := by
  intro s abort s' ran
  obtain ⟨a, t, came⟩ := change s
  cases came.symm.trans ran

theorem spares_get {f : ExecutionState → ExecM α} (each : ∀ s, Spares (f s)) : Spares (get >>= f) :=
  fun s abort s' ran => each s s abort s' ran

end ExecM

namespace Execution

variable {x : Execution} {state : ExecutionState} {field : FieldPlan}

theorem abortAt_spares {α : Type} (field : FieldPlan) (e : ResponseError) : ExecM.Spares (abortAt field e : ExecM α) :=
  ExecM.spares_throw (Abort.not_tooDeep (ResponseError.not_tooDeep_of_path rfl))

theorem finish_spares {α : Type} (work : Work α) : ExecM.Spares work.finish := by
  have changed (f : ExecutionState → ExecutionState) : ExecM.Spares (modify f : ExecM PUnit) :=
    ExecM.spares_change fun s => ⟨_, _, rfl⟩
  induction work with
  | done result => exact ExecM.spares_pure _
  | pause next ih => exact ih
  | record entry next ih => exact (changed _).bind fun _ _ _ _ => ih
  | cancel next ih => exact (changed _).bind fun _ _ _ _ => ih
  | awaitCancel next ih =>
    rw [Work.finish]
    refine ExecM.spares_get fun s => ?_
    split
    · exact ih
    · refine ExecM.spares_throw ?_
      rintro ⟨_, same, -⟩
      cases same
  | askCancelled next ih =>
    rw [Work.finish]
    exact ExecM.spares_get fun s => ih _

theorem openSource_spares (field : FieldPlan) (operation : OperationDescriptor) (resolver : Resolver EventSource) :
    ExecM.Spares (x.openSource field operation resolver) := by
  unfold openSource
  refine (ExecM.spares_change fun s => ⟨_, _, ExecM.outcome_onRegistry _ s⟩).bind fun result _ _ _ => ?_
  cases result with
  | error failure =>
    cases failure with
    | error e => exact abortAt_spares _ _
    | panic message => exact abortAt_spares _ _
  | ok arguments =>
    refine (ExecM.spares_change fun s => ⟨_, _, rfl⟩).bind fun _ _ _ _ => ?_
    split
    · exact abortAt_spares _ _
    · refine (finish_spares _).bind fun result _ _ _ => ?_
      cases result with
      | error failure =>
        cases failure with
        | error e => exact abortAt_spares _ _
        | panic message => exact abortAt_spares _ _
      | ok source => exact ExecM.spares_pure _

theorem checkAliases_unmeasured {count : Nat} {fields : List FieldPlan} {e : ResponseError}
    (failed : x.checkAliases count fields = .error e) : (Abort.error e).Unmeasured := by
  induction fields generalizing count with
  | nil => cases failed
  | cons field rest ih =>
    rw [checkAliases] at failed
    split at failed
    · rcases except_bind_eq_error.1 failed with many | ⟨_, _, failed⟩
      · exact field.unmeasured_of_guard many
          (fun _ _ => QueryLimits.guardWith_error fun _ _ _ _ => by simp)
          (fun _ _ => QueryLimits.guardWith_error fun _ _ _ _ => by simp)
      · exact ih failed
    · exact ih failed

/-- Opening a subscription that the walk has passed does not fail for the depth of a field. -/
theorem subscribe_spares (walked : x.checkPlanDepth = .ok ()) : ExecM.Spares x.subscribe := by
  unfold subscribe
  rw [walked]
  refine (ExecM.spares_pure ()).bind fun _ _ _ _ => ?_
  refine (ExecM.spares_ofExcept fun _ failed => (collect_unmeasured failed).depth).bind
    fun fields s s' selecting => ?_
  obtain ⟨selected, rfl⟩ := outcome_ofExcept_eq_ok.1 selecting
  cases fields with
  | nil => exact ExecM.spares_throw (Abort.not_tooDeep (ResponseError.not_tooDeep_of_code (by simp)))
  | cons field rest =>
    have kept := (isIncluded_of_included (collect_eq_ok_iff.1 selected).1 List.mem_cons_self).1
    have passed := (approves_of_checkPlanDepth walked).below (mem_of_collect selected List.mem_cons_self) kept
    refine ExecM.Spares.bind (ExecM.spares_ofExcept fun e refused => ?_) fun _ _ _ _ => ?_
    · cases passed.1.symm.trans refused
    refine (ExecM.spares_ofExcept fun _ failed => (checkAliases_unmeasured failed).depth).bind fun _ _ _ _ => ?_
    have counted : ExecM.Spares (ExecM.addComplexity x.limits field) :=
      (ExecM.spares_change fun s => ⟨_, _, rfl⟩).bind fun _ _ _ _ => ExecM.spares_get fun s =>
        ExecM.spares_ofExcept fun _ refused => Abort.not_tooDeep (field.not_tooDeep_of_guard refused fun _ _ =>
          QueryLimits.guardWith_error fun _ _ _ _ => by simp)
    refine counted.bind fun _ _ _ _ => ?_
    split
    · split
      · exact openSource_spares _ _ _
      · exact abortAt_spares _ _
    · exact abortAt_spares _ _

/-! ## Requests -/

theorem rootFields_not_tooDeep (walked : x.checkPlanDepth = .ok ()) {e : ResponseError}
    (failed : x.rootFields = .error e) : ¬e.TooDeep := by
  unfold rootFields at failed
  rw [walked] at failed
  rcases except_bind_eq_error.1 failed with deep | ⟨_, _, failed⟩
  · cases deep
  · rcases except_bind_eq_error.1 failed with selected | ⟨fields, _, failed⟩
    · exact fun deep => (collect_unmeasured selected).depth ⟨e, rfl, deep⟩
    · rcases except_bind_eq_error.1 failed with many | ⟨_, _, failed⟩
      · exact fun deep => (checkAliases_unmeasured many).depth ⟨e, rfl, deep⟩
      · cases failed

/-- Nothing that a request or an event may end with is a failure for depth. -/
theorem Aborts.not_tooDeep {abort : Abort} (walked : x.checkPlanDepth = .ok ()) (fresh : state.errors = [])
    (aborts : x.Aborts state abort) : ¬abort.TooDeep := by
  cases aborts with
  | refused failed => exact Abort.not_tooDeep (rootFields_not_tooDeep walked failed)
  | run interleaved ended =>
    rcases Run.data_eq_error ended with aborted | rfl
    · exact (interleaves_shallow walked fresh interleaved).aborted _ aborted
    · rintro ⟨_, same, -⟩
      cases same
  | event shaped =>
    obtain ⟨_, _, _, _, _, _, _, ends⟩ := shapeEvent_conducts walked _ state
    rw [shaped] at ends
    exact ends.2 trivial
  | unopened opened => exact subscribe_spares walked _ _ _ opened

/-- No error of a response is about depth if that can be said of what ended the request, and all errors
collected have paths. -/
theorem respond_not_tooDeep {data : Except Abort ResponseValue} {final : ExecutionState} {response : Response}
    (responded : respond data final.errors = .ok response) (placed : final.Placed [])
    (aborts : ∀ abort, data = .error abort → ¬abort.TooDeep) : ∀ e ∈ response.errors, ¬e.TooDeep := by
  intro e mem deep
  obtain ⟨e', ended, rfl⟩ | ⟨v, _, rfl⟩ := respond_eq_ok responded
  · cases List.mem_singleton.1 mem
    exact aborts _ ended ⟨e, rfl, deep⟩
  · obtain absent | ⟨path, at'⟩ := placed e mem
    · cases absent
    · exact ResponseError.not_tooDeep_of_path at' deep

/-- The depth of a plan is guarded up front and nowhere else. -/
structure DepthGuarded (x : Execution) (state : ExecutionState) : Prop where
  /-- A field too deep ends the request before any resolver is called: the state is what it was. -/
  refuses : 0 < x.limits.maxDepth → ∀ depth field, x.Nests 1 x.plan.selection depth field →
    x.limits.maxDepth < depth →
      ∃ e, x.execute state = (.ok (.ofError e), state) ∧ outcome x.subscribe state = (.error (.error e), state)
  /-- Once the walk has passed a plan, no request and no event ends for the depth of a field. -/
  aborts : x.checkPlanDepth = .ok () → ∀ abort, x.Aborts state abort → ¬abort.TooDeep
  execute : x.checkPlanDepth = .ok () → ∀ response final, x.execute state = (.ok response, final) →
    ∀ e ∈ response.errors, ¬e.TooDeep
  executeEvent : x.checkPlanDepth = .ok () → ∀ event response final,
    x.executeEvent event state = (.ok response, final) → ∀ e ∈ response.errors, ¬e.TooDeep

/-- If some field is too deep the request ends before any resolver is called; if the walk finds none, no request
and no event ends for the depth of a field, whatever the data. -/
theorem depth_guarded (fresh : state.errors = []) : x.DepthGuarded state where
  refuses limited depth field nests tooDeep := by
    obtain ⟨e, refused⟩ := checkPlanDepth_refuses nests limited tooDeep
    exact ⟨e, execute_refused refused, subscribe_refused refused⟩
  aborts walked abort ended := ended.not_tooDeep walked fresh
  execute walked response final ran := by
    cases rooted : x.rootFields with
    | error e =>
      rw [execute, rooted] at ran
      cases ran
      intro e' mem
      cases List.mem_singleton.1 mem
      exact rootFields_not_tooDeep walked rooted
    | ok fields =>
      obtain ⟨run, interleaved, executed⟩ := execute_interleaves rooted state
      obtain ⟨responded, rfl⟩ := Prod.mk.inj (executed.symm.trans ran)
      exact respond_not_tooDeep responded (interleaves_shallow walked fresh interleaved).placed
        fun abort ended => Aborts.not_tooDeep walked fresh (.run interleaved ended)
  executeEvent walked event response final ran := by
    unfold executeEvent at ran
    obtain ⟨responded, rfl⟩ := Prod.mk.inj ran
    refine respond_not_tooDeep responded ?_ fun abort ended =>
      Aborts.not_tooDeep walked fresh (.event (Prod.ext ended rfl))
    obtain ⟨registry, es, evs, eq, _, collects, _⟩ := shapeEvent_conducts walked event state
    change (outcome (x.shapeEvent event) state).2.Placed []
    rw [eq]
    intro e mem
    change e ∈ state.errors ++ es at mem
    rw [fresh, List.nil_append] at mem
    obtain ⟨rest, path⟩ := collects e mem
    exact Or.inr ⟨_, path⟩

end Execution

/-! ## A query too deep for one limit -/

namespace NodeQuery

/-- The query for the id of a node, with fields allowed down to a depth. -/
def limitedTo (depth : Nat) : Execution := { execution with limits := { maxDepth := depth } }

theorem id_nested (depth : Nat) : (limitedTo depth).Nests 1 (limitedTo depth).plan.selection 2 idField :=
  .within List.mem_cons_self rfl (.here List.mem_cons_self rfl)

/-- One level is not enough for the id of the node. -/
theorem id_refused : state.errors = [] ∧
    ∃ e, (limitedTo 1).execute state = (.ok (.ofError e), state) ∧
      outcome (limitedTo 1).subscribe state = (.error (.error e), state) :=
  ⟨rfl, (Execution.depth_guarded rfl).refuses (by decide) 2 idField (id_nested 1) (by decide)⟩

end NodeQuery

end GraphQL
