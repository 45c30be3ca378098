import GraphQL.Proofs.Execution.Completing

/-!
# What ends an execution early

`ExecM.Guarded` says what a computation may come to, a failure included, as long as it begins with types
that were described by the rules. Failures are `Abort.Ordinary` where a guard refuses, a directive has no
Boolean, the request is cancelled, or host code panics; the error of an engine in a state that it should
never reach is not one of them.
-/

namespace GraphQL

/-- An abort that is no fault of the engine: an error of a guard, of the value of a directive or of a
cancellation, or one of some panics. -/
inductive Abort.Ordinary (panics : String → Prop) : Abort → Prop
  | error {e : ResponseError} (code : e.code ∈ [.limitExceeded, .variableError, .cancelled]) : Ordinary panics (.error e)
  | crash {message : String} (raised : panics message) : Ordinary panics (.breakdown (.crash message))

theorem Abort.Ordinary.mono {panics panics' : String → Prop} {abort : Abort} (ordinary : abort.Ordinary panics)
    (imp : ∀ message, panics message → panics' message) : abort.Ordinary panics' := by
  cases ordinary with
  | error code => exact .error code
  | crash raised => exact .crash (imp _ raised)

theorem Abort.Ordinary.ne_internal {panics : String → Prop} {abort : Abort} (ordinary : abort.Ordinary panics) :
    abort ≠ .error .internal := by
  rintro rfl
  cases ordinary with
  | error code => simp [ResponseError.internal] at code

namespace ExecM

variable {α β : Type} {host : Host} {fails : Abort → Prop} {post : α → Prop} {post' : β → Prop}

/-- What a computation may end with. -/
def Ends (post : α → Prop) (fails : Abort → Prop) : Except Abort α → Prop
  | .ok a => post a
  | .error e => fails e

/-- Where all types were described by the rules, the computation leaves it like that; its result, or else
its failure, satisfies a condition. -/
def Guarded (host : Host) (fails : Abort → Prop) (m : ExecM α) (post : α → Prop) : Prop :=
  ∀ s, host.Reachable s.registry → host.Reachable (outcome m s).2.registry ∧ Ends post fails (outcome m s).1

/-- A computation of whose result nothing needs to be known. -/
abbrev Fails (host : Host) (fails : Abort → Prop) (m : ExecM α) : Prop := Guarded host fails m fun _ => True

/-- How the computation may fail. -/
theorem Guarded.of_error {m : ExecM α} (guarded : Guarded host fails m post) {s s' : ExecutionState}
    (reachable : host.Reachable s.registry) {e : Abort} (ran : outcome m s = (.error e, s')) : fails e := by
  have ends := (guarded s reachable).2
  rw [ran] at ends
  exact ends

theorem guarded_pure {a : α} (holds : post a) : Guarded host fails (pure a) post := fun _ reachable => ⟨reachable, holds⟩

theorem guarded_throw {e : Abort} (fail : fails e) : Guarded host fails (throw e : ExecM α) post :=
  fun _ reachable => ⟨reachable, fail⟩

theorem Ends.mono {result : Except Abort α} {weaker : α → Prop} {fails' : Abort → Prop}
    (ends : Ends post fails result) (imp : ∀ a, post a → weaker a) (imp' : ∀ e, fails e → fails' e) :
    Ends weaker fails' result := by
  cases result with
  | ok a => exact imp a ends
  | error e => exact imp' e ends

theorem Guarded.mono {m : ExecM α} {weaker : α → Prop} (guarded : Guarded host fails m post)
    (imp : ∀ a, post a → weaker a) : Guarded host fails m weaker := by
  intro s reachable
  obtain ⟨kept, ends⟩ := guarded s reachable
  exact ⟨kept, ends.mono imp fun _ => id⟩

theorem Guarded.weaken {m : ExecM α} {fails' : Abort → Prop} (guarded : Guarded host fails m post)
    (imp : ∀ e, fails e → fails' e) : Guarded host fails' m post := by
  intro s reachable
  obtain ⟨kept, ends⟩ := guarded s reachable
  exact ⟨kept, ends.mono (fun _ => id) imp⟩

theorem Guarded.bind {m : ExecM α} {f : α → ExecM β} (first : Guarded host fails m post)
    (next : ∀ a, post a → Guarded host fails (f a) post') : Guarded host fails (m >>= f) post' := by
  intro s reachable
  obtain ⟨kept, ends⟩ := first s reachable
  rw [outcome_bind]
  cases ran : outcome m s with
  | mk result t =>
    rw [ran] at kept ends
    cases result with
    | ok a => exact next a ends t kept
    | error e => exact ⟨kept, ends⟩

theorem guarded_ofExcept {result : Except ResponseError α} (holds : ∀ a, result = .ok a → post a)
    (fail : ∀ e, result = .error e → fails (.error e)) : Guarded host fails (ofExcept result) post := by
  cases result with
  | ok a => exact guarded_pure (holds a rfl)
  | error e => exact guarded_throw (fail e rfl)

/-- What depends on the state only. -/
theorem guarded_get {f : ExecutionState → ExecM α} (each : ∀ s, Guarded host fails (f s) post) :
    Guarded host fails (get >>= f) post := fun s reachable => each s s reachable

/-- A change of the state that leaves the registry alone. -/
theorem guarded_modify {f : ExecutionState → ExecutionState} (same : ∀ s, (f s).registry = s.registry) :
    Fails host fails (modify f : ExecM PUnit) := by
  intro s reachable
  rw [outcome_modify]
  exact ⟨(same s).symm ▸ reachable, trivial⟩

theorem guarded_note (event : ExecutionEvent) : Fails host fails (note event) := guarded_modify fun _ => rfl

theorem guarded_pushError (e : ResponseError) : Fails host fails (pushError e) :=
  (guarded_modify fun _ => rfl).bind fun _ _ => guarded_pure trivial

theorem guarded_fieldError (message : String) (code : ErrorCode) (field : FieldPlan) (path : ErrorPath) :
    Fails host fails (fieldError message code field path) := guarded_pushError _

theorem guarded_hostError (e : HostError) (code : ErrorCode) (field : FieldPlan) (path : ErrorPath) :
    Fails host fails (hostError e code field path) := guarded_pushError _

/-- A computation on the registry that only describes types. -/
theorem guarded_onRegistry {ε : Type} {m : ExceptT ε (StateM Registry) α} (settles : host.Settles m) :
    Guarded host fails (onRegistry m.run) fun result => ∃ r r', host.Reachable r' ∧ outcome m r = (result, r') := by
  intro s reachable
  rw [outcome_onRegistry]
  have kept : host.Reachable (outcome m s.registry).2 := reachable.described (settles s.registry).grows
  exact ⟨kept, s.registry, _, kept, rfl⟩

theorem guarded_mapM {f : α → ExecM β} {items : List α} (each : ∀ a ∈ items, Fails host fails (f a)) :
    Fails host fails (items.mapM f) := by
  induction items with
  | nil =>
    rw [List.mapM_nil]
    exact guarded_pure trivial
  | cons a rest ih =>
    obtain ⟨first, others⟩ := List.forall_mem_cons.1 each
    rw [List.mapM_cons]
    exact first.bind fun _ _ => (ih others).bind fun _ _ => guarded_pure trivial

theorem guarded_checkCancelled {panics : String → Prop} : Fails host (Abort.Ordinary panics) checkCancelled := by
  refine guarded_get fun s => ?_
  split
  · exact guarded_throw (.error (by decide))
  · exact guarded_pure trivial

end ExecM

/-! ## Guards -/

section

variable {panics : String → Prop}

theorem FieldPlan.guard_ordinary {field : FieldPlan} {check : Except LimitError Unit} {e : ResponseError}
    (refused : field.guard check = .error e) : (Abort.error e).Ordinary panics := by
  cases check with
  | ok _ => cases refused
  | error limit =>
    cases refused
    exact .error List.mem_cons_self

theorem ExecM.guarded_guard {host : Host} (field : FieldPlan) (check : Except LimitError Unit) :
    ExecM.Fails host (Abort.Ordinary panics) (ExecM.ofExcept (field.guard check)) :=
  ExecM.guarded_ofExcept (fun _ _ => trivial) fun _ refused => field.guard_ordinary refused

namespace Execution

variable {x : Execution} {e : ResponseError}

theorem holds_ordinary {field : FieldPlan} {conditions : List Condition} (failed : x.holds field conditions = .error e) :
    (Abort.error e).Ordinary panics := by
  induction conditions with
  | nil => cases failed
  | cons condition rest ih =>
    rw [holds] at failed
    split at failed
    · split at failed
      · exact ih failed
      · cases failed
    · cases failed
      exact .error (List.mem_cons_of_mem _ List.mem_cons_self)

theorem included_ordinary {concrete : Option NamedType} {selection : List FieldPlan}
    (failed : x.included concrete selection = .error e) : (Abort.error e).Ordinary panics := by
  induction selection with
  | nil => cases failed
  | cons field rest ih =>
    rw [included] at failed
    split at failed
    · split at failed
      · next undecided =>
        cases failed
        exact holds_ordinary undecided
      · cases more : x.included concrete rest with
        | ok fields =>
          rw [more] at failed
          cases failed
        | error e' =>
          rw [more] at failed
          cases failed
          exact ih more
    · exact ih failed

/-- Selecting fails if a directive cannot be decided or the fields are too many. -/
theorem collect_ordinary {concrete : Option NamedType} {selection : List FieldPlan}
    (failed : x.collect selection concrete = .error e) : (Abort.error e).Ordinary panics := by
  unfold collect at failed
  rcases except_bind_eq_error.1 failed with undecided | ⟨fields, _, failed⟩
  · exact included_ordinary undecided
  · cases fields with
    | nil => cases failed
    | cons first rest =>
      rcases except_bind_eq_error.1 failed with many | ⟨_, _, failed⟩
      · exact first.guard_ordinary many
      · cases failed

theorem checkDepth_ordinary {depth : Nat} {selection : List FieldPlan}
    (failed : x.checkDepth depth selection = .error e) : (Abort.error e).Ordinary panics := by
  fun_induction x.checkDepth depth selection with
  | case1 => cases failed
  | case2 depth field rest e' undecided =>
    cases failed
    exact holds_ordinary undecided
  | case3 depth field rest _ ih => exact ih failed
  | case4 depth field rest _ within among =>
    rcases except_bind_eq_error.1 failed with deep | ⟨_, _, failed⟩
    · exact field.guard_ordinary deep
    · rcases except_bind_eq_error.1 failed with below | ⟨_, _, after⟩
      · exact within below
      · exact among after

theorem checkPlanDepth_ordinary (failed : x.checkPlanDepth = .error e) : (Abort.error e).Ordinary panics := by
  unfold checkPlanDepth at failed
  split at failed
  · cases failed
  · exact checkDepth_ordinary failed

theorem checkAliases_ordinary {count : Nat} {fields : List FieldPlan} (failed : x.checkAliases count fields = .error e) :
    (Abort.error e).Ordinary panics := by
  induction fields generalizing count with
  | nil => cases failed
  | cons field rest ih =>
    rw [checkAliases] at failed
    split at failed
    · rcases except_bind_eq_error.1 failed with many | ⟨_, _, failed⟩
      · exact field.guard_ordinary many
      · exact ih failed
    · exact ih failed

end Execution

end

end GraphQL
