import GraphQL.Proofs.Execution.Answers

/-!
# A root field alone

`Execution.alone` executes the same operation with one of its root fields only. What completes and
advances a field does not look at the plan, so it is the same in both executions; and the guards that
all fields pass together, one of them passes alone.
-/

namespace GraphQL

namespace Execution

/-- The execution of another plan. -/
def withPlan (x : Execution) (plan : Plan) : Execution := { x with plan }

/-- The execution of the same operation with one root field. -/
def alone (x : Execution) (field : FieldPlan) : Execution := x.withPlan { x.plan with selection := [field] }

variable {x : Execution} {plan : Plan}

/-! ## What does not look at the plan -/

theorem holds_withPlan (field : FieldPlan) (conditions : List Condition) :
    (x.withPlan plan).holds field conditions = x.holds field conditions := by
  induction conditions with
  | nil => rfl
  | cons condition rest ih =>
    rw [holds, holds, ih]
    rfl

theorem included_withPlan (concrete : Option NamedType) (selection : List FieldPlan) :
    (x.withPlan plan).included concrete selection = x.included concrete selection := by
  induction selection with
  | nil => rfl
  | cons field rest ih =>
    rw [included, included, ih, isIncluded, isIncluded, holds_withPlan]

theorem collect_withPlan (selection : List FieldPlan) (concrete : Option NamedType) :
    (x.withPlan plan).collect selection concrete = x.collect selection concrete := by
  rw [collect, collect, included_withPlan]
  rfl

mutual

theorem serialize_withPlan : ∀ (value : Resolved) (type : TypeRef),
    (x.withPlan plan).serialize type value = x.serialize type value
  | .null, _ => rfl
  | .map entries, .map item _ => by
    rw [serialize, serialize, serializeEntries_withPlan]
  | .map _, .named .. => rfl
  | .map _, .list .. => rfl
  | .list items, .list item _ => by
    rw [serialize, serialize, serializeItems_withPlan]
    rfl
  | .list _, .named .. => rfl
  | .list _, .map .. => rfl
  | .const _, .named .. => rfl
  | .const _, .list .. => rfl
  | .const _, .map .. => rfl
  | .host _, .named .. => rfl
  | .host _, .list .. => rfl
  | .host _, .map .. => rfl

theorem serializeItems_withPlan : ∀ (items : List Resolved) (type : TypeRef),
    (x.withPlan plan).serializeItems type items = x.serializeItems type items
  | [], _ => rfl
  | item :: rest, type => by
    rw [serializeItems, serializeItems, serialize_withPlan item, serializeItems_withPlan rest]

theorem serializeEntries_withPlan : ∀ (entries : List (String × Resolved)) (type : TypeRef),
    (x.withPlan plan).serializeEntries type entries = x.serializeEntries type entries
  | [], _ => rfl
  | (key, value) :: rest, type => by
    rw [serializeEntries, serializeEntries, serialize_withPlan value, serializeEntries_withPlan rest]

end

theorem resolveObject_withPlan {value : HostValue} (descriptor : TypeDescriptor) (parent : FieldPlan) (path : ErrorPath)
    (depth : Nat) (finish : Finish value) :
    (x.withPlan plan).resolveObject descriptor value parent path depth finish =
      x.resolveObject descriptor value parent path depth finish := by
  rw [resolveObject, resolveObject, collect_withPlan]
  rfl

theorem completeHost_withPlan {value : HostValue} (type : NamedType) (field : FieldPlan) (path : ErrorPath)
    (depth : Nat) (finish : Finish value) :
    (x.withPlan plan).completeHost type value field path depth finish =
      x.completeHost type value field path depth finish := by
  unfold completeHost
  simp only [resolveObject_withPlan]
  rfl

theorem complete_withPlan (type : TypeRef) (value : Resolved) (field : FieldPlan) (path : ErrorPath) (depth : Nat) :
    (x.withPlan plan).complete type value field path depth = x.complete type value field path depth := by
  by_cases missing : value = .null
  · subst missing
    rw [complete, complete]
  cases type with
  | map item nullable =>
    rw [complete, complete, serialize_withPlan]
    · exact missing
    · exact missing
  | list item nullable =>
    cases value with
    | list items =>
      rw [complete, complete]
      have same : (fun (entry : { r // r ∈ x.limits.keepItems items } × Nat) =>
          (x.withPlan plan).complete item entry.1.1 field (path.index entry.2) depth) =
            fun entry => x.complete item entry.1.1 field (path.index entry.2) depth :=
        funext fun entry => complete_withPlan item entry.1.1 field (path.index entry.2) depth
      exact congrArg (fun f => (x.limits.keepItems items).attach.zipIdx.mapM f >>= fun values =>
        pure (ResponseValue.list values)) same
    | null => exact absurd rfl missing
    | const _ | map _ | host _ =>
      rw [complete, complete]
      all_goals simp
  | named type nullable =>
    cases value with
    | host value =>
      rw [complete, complete, completeHost_withPlan]
      have same : (fun type r (_ : sizeOf r < sizeOf value) field path depth =>
          (x.withPlan plan).complete type r field path depth) = fun type r _ field path depth =>
            x.complete type r field path depth := by
        funext type r smaller field path depth
        exact complete_withPlan type r field path depth
      rw [same]
    | null => exact absurd rfl missing
    | const _ | list _ | map _ =>
      rw [complete, complete]
      · rfl
      all_goals simp
termination_by sizeOf value
decreasing_by
  · simp only [Resolved.host.sizeOf_spec]
    omega
  · have := List.sizeOf_lt_of_mem (QueryLimits.mem_of_mem_keepItems entry.1.2)
    simp only [Resolved.list.sizeOf_spec]
    omega

/-! ## Root fields -/

theorem completeRoot_withPlan (field : FieldPlan) (result : Except Failure Resolved) :
    (x.withPlan plan).completeRoot field result = x.completeRoot field result := by
  cases result with
  | ok value => exact complete_withPlan _ _ _ _ _
  | error failure => cases failure <;> rfl

theorem work_withPlan (field : FieldPlan) (work : Work Resolved) :
    (x.withPlan plan).work field work = x.work field work := by
  induction work with
  | done result => rw [Execution.work, Execution.work, completeRoot_withPlan]
  | pause next _ => rfl
  | record entry next ih | cancel next ih | awaitCancel next ih => rw [Execution.work, Execution.work, ih]
  | askCancelled next ih =>
    rw [Execution.work, Execution.work]
    simp only [ih]

theorem call_withPlan (field : FieldPlan) (operation : OperationDescriptor) (resolver : Resolver Resolved) :
    (x.withPlan plan).call field operation resolver = x.call field operation resolver := by
  unfold call
  simp only [work_withPlan]
  rfl

theorem advance_withPlan (kind : plan.kind = x.plan.kind) (field : FieldPlan) (task : RootTask) :
    (x.withPlan plan).advance field task = x.advance field task := by
  have enters : (x.withPlan plan).enter field = x.enter field := by
    funext operation resolver
    unfold enter
    simp only [call_withPlan]
  have resolves : (x.withPlan plan).withResolver field (x.enter field) = x.withResolver field (x.enter field) := by
    unfold withResolver
    simp only [withPlan, kind]
  cases task with
  | fresh =>
    change (x.withPlan plan).start field = x.start field
    unfold start
    rw [enters, resolves]
    rfl
  | queued =>
    change (x.withPlan plan).withResolver field ((x.withPlan plan).enter field) = _
    rw [enters, resolves]
    rfl
  | working work => exact work_withPlan field work
  | done value => rfl
  | failed abort => rfl

end Execution

/-! Runs look at nothing of the plan but its kind. -/

section

variable {x : Execution} {plan : Plan} (kind : plan.kind = x.plan.kind)

include kind

theorem Run.poll_withPlan : Run.poll (x.withPlan plan) = Run.poll x := by
  have same : (x.withPlan plan).plan.kind = x.plan.kind := kind
  funext run i
  unfold Run.poll
  rw [same]
  simp only [Execution.advance_withPlan kind]

theorem Turn.pollWoken_withPlan (woken : List Nat) (turn : Turn) :
    Turn.pollWoken (x.withPlan plan) woken turn = Turn.pollWoken x woken turn := by
  induction woken generalizing turn with
  | nil => rfl
  | cons i rest ih => rw [Turn.pollWoken, Turn.pollWoken, Run.poll_withPlan kind, ih]

theorem Turn.next_withPlan (turn : Turn) : turn.next (x.withPlan plan) = turn.next x := by
  have same : (x.withPlan plan).plan.kind = x.plan.kind := kind
  unfold Turn.next Turn.pollAll
  rw [same, Run.poll_withPlan kind, Turn.pollWoken_withPlan kind, Turn.pollWoken_withPlan kind]

theorem Turn.settle_withPlan (turn : Turn) : turn.settle (x.withPlan plan) = turn.settle x := by
  induction turn using Turn.settle.induct x with
  | case1 turn next less ih =>
    rw [Turn.settle, Turn.settle.eq_def x, Turn.next_withPlan kind]
    simp only
    rw [if_pos less, if_pos less, ih]
  | case2 turn next more less ih =>
    rw [Turn.settle, Turn.settle.eq_def x, Turn.next_withPlan kind]
    simp only
    rw [if_neg more, if_neg more, if_pos less, if_pos less, ih]
  | case3 turn next more same =>
    rw [Turn.settle, Turn.settle.eq_def x, Turn.next_withPlan kind]
    simp only
    rw [if_neg more, if_neg more, if_neg same, if_neg same]

end

namespace Execution

variable {x : Execution} {plan : Plan}

/-! ## Guards -/

theorem guard_eq_ok {field : FieldPlan} {check : Except LimitError Unit} :
    field.guard check = .ok () ↔ check = .ok () := by
  unfold FieldPlan.guard
  cases check with
  | error e =>
    constructor
    · intro guarded
      cases guarded
    · intro checked
      cases checked
  | ok _ => exact ⟨fun _ => rfl, fun _ => rfl⟩

/-- A smaller measure is within the same limit. -/
theorem guardWith_mono {size size' max : Nat} {error : Nat → Nat → LimitError} (le : size' ≤ size)
    (within : QueryLimits.guardWith size max error = .ok ()) : QueryLimits.guardWith size' max error = .ok () := by
  unfold QueryLimits.guardWith at within ⊢
  split at within
  · cases within
  · next small =>
    rw [if_neg]
    unfold exceeds at small ⊢
    simp only [Bool.and_eq_true, decide_eq_true_eq, not_and] at small ⊢
    intro limited more
    exact small limited (Nat.lt_of_lt_of_le more le)

theorem checkDepth_withPlan (depth : Nat) : ∀ selection : List FieldPlan,
    (x.withPlan plan).checkDepth depth selection = x.checkDepth depth selection
  | [] => by rw [checkDepth, checkDepth]
  | field :: rest => by
    rw [checkDepth, checkDepth, isIncluded, isIncluded, holds_withPlan, checkDepth_withPlan (depth + 1) field.selection,
      checkDepth_withPlan depth rest]
    rfl
termination_by selection => sizeOf selection
decreasing_by
  · have := field.sizeOf_selection_lt
    simp only [List.cons.sizeOf_spec]
    omega
  · simp only [List.cons.sizeOf_spec]
    omega

theorem checkAliases_withPlan (count : Nat) (fields : List FieldPlan) :
    (x.withPlan plan).checkAliases count fields = x.checkAliases count fields := by
  induction fields generalizing count with
  | nil => rfl
  | cons field rest ih =>
    rw [checkAliases, checkAliases]
    simp only [ih]
    rfl

end Execution

end GraphQL
