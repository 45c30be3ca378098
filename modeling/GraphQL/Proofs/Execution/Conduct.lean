import GraphQL.Proofs.Execution.Guarded
import GraphQL.Proofs.Execution.Selected

/-!
# What completing may do

Completing a value describes types, collects errors and calls getters, whether it ends with a result or
fails half way, and leaves the rest of an execution alone. `ExecM.Conducts` says this of a computation for
every state in which it may begin, with a `Conduct` that bounds what is collected and called and how it may
fail. `complete_conducts` says it of values: errors and getters are at or below the path of the value, no
failure is about complexity, and no field is too deep where the walk over the plan has passed the selection.
-/

namespace GraphQL

/-- What a computation may do besides describing types. -/
structure Conduct where
  /-- How it may fail. -/
  fails : Abort → Prop
  /-- The errors that it may collect. -/
  collects : ResponseError → Prop
  /-- The host code that it may run. -/
  runs : ExecutionEvent → Prop

namespace Conduct

/-- One conduct allows all that another does. -/
structure Within (narrow wide : Conduct) : Prop where
  fails : ∀ abort, narrow.fails abort → wide.fails abort
  collects : ∀ e, narrow.collects e → wide.collects e
  runs : ∀ event, narrow.runs event → wide.runs event

end Conduct

namespace ExecM

variable {α β : Type} {host : Host} {c : Conduct} {post : α → Prop} {post' : β → Prop}

/-- In every state, the computation describes types, adds errors and events, and leaves the rest of the
state alone, as the conduct allows; its result satisfies a condition. -/
def Conducts (host : Host) (c : Conduct) (m : ExecM α) (post : α → Prop) : Prop :=
  ∀ s, ∃ registry errors events, (outcome m s).2 = s.after registry errors events ∧
    host.Later s.registry registry ∧ (∀ e ∈ errors, c.collects e) ∧ (∀ event ∈ events, c.runs event) ∧
    Ends post c.fails (outcome m s).1

/-- A computation of whose result nothing needs to be known. -/
abbrev Keeps (host : Host) (c : Conduct) (m : ExecM α) : Prop := Conducts host c m fun _ => True

theorem Conducts.mono {m : ExecM α} {weaker : α → Prop} (conducts : Conducts host c m post)
    (imp : ∀ a, post a → weaker a) : Conducts host c m weaker := by
  intro s
  obtain ⟨registry, errors, events, eq, grown, collects, runs, ends⟩ := conducts s
  exact ⟨registry, errors, events, eq, grown, collects, runs, ends.mono imp fun _ => id⟩

theorem Conducts.weaken {m : ExecM α} {wide : Conduct} (conducts : Conducts host c m post) (within : c.Within wide) :
    Conducts host wide m post := by
  intro s
  obtain ⟨registry, errors, events, eq, grown, collects, runs, ends⟩ := conducts s
  exact ⟨registry, errors, events, eq, grown, fun e mem => within.collects e (collects e mem),
    fun event mem => within.runs event (runs event mem), ends.mono (fun _ => id) within.fails⟩

/-- A computation that leaves the state alone. -/
theorem conducts_still {m : ExecM α} (still : ∀ s, (outcome m s).2 = s) (ends : ∀ s, Ends post c.fails (outcome m s).1) :
    Conducts host c m post := by
  intro s
  refine ⟨s.registry, [], [], ?_, .refl _ _, fun _ mem => absurd mem List.not_mem_nil,
    fun _ mem => absurd mem List.not_mem_nil, ends s⟩
  rw [s.after_nil, still]

theorem conducts_pure {a : α} (holds : post a) : Conducts host c (pure a) post :=
  conducts_still (fun _ => rfl) fun _ => holds

theorem conducts_throw {e : Abort} (fail : c.fails e) : Conducts host c (throw e : ExecM α) post :=
  conducts_still (fun _ => rfl) fun _ => fail

theorem Conducts.bind {m : ExecM α} {f : α → ExecM β} (first : Conducts host c m post)
    (next : ∀ a, post a → Conducts host c (f a) post') : Conducts host c (m >>= f) post' := by
  intro s
  obtain ⟨r, es, evs, eq, grown, collects, runs, ends⟩ := first s
  rw [outcome_bind]
  cases ran : outcome m s with
  | mk result t =>
    rw [ran] at eq ends
    simp only at eq
    subst eq
    cases result with
    | error e => exact ⟨r, es, evs, rfl, grown, collects, runs, ends⟩
    | ok a =>
      obtain ⟨r', es', evs', eq', grown', collects', runs', ends'⟩ := next a ends (s.after r es evs)
      refine ⟨r', es ++ es', evs' ++ evs, ?_, grown.trans grown', ?_, ?_, ends'⟩
      · simp only
        rw [eq', ExecutionState.after_after]
      · exact fun e mem => (List.mem_append.1 mem).elim (collects e) (collects' e)
      · exact fun event mem => (List.mem_append.1 mem).elim (runs' event) (runs event)

theorem conducts_ofExcept {result : Except ResponseError α} (holds : ∀ a, result = .ok a → post a)
    (fail : ∀ e, result = .error e → c.fails (.error e)) : Conducts host c (ofExcept result) post := by
  cases result with
  | ok a => exact conducts_pure (holds a rfl)
  | error e => exact conducts_throw (fail e rfl)

theorem conducts_checkCancelled (fail : c.fails (.error .cancelled)) : Keeps host c checkCancelled := by
  refine conducts_still (fun s => ?_) fun s => ?_
  · rw [outcome_checkCancelled]
    split <;> rfl
  · rw [outcome_checkCancelled]
    split
    · exact fail
    · trivial

theorem conducts_note {event : ExecutionEvent} (allowed : c.runs event) : Keeps host c (note event) := by
  intro s
  refine ⟨s.registry, [], [event], ?_, .refl _ _, fun _ mem => absurd mem List.not_mem_nil, ?_, trivial⟩
  · change ({ s with events := event :: s.events } : ExecutionState) = _
    simp [ExecutionState.after]
  · simpa using allowed

theorem conducts_pushError {e : ResponseError} (allowed : c.collects e) : Keeps host c (pushError e) := by
  intro s
  refine ⟨s.registry, [e], [], ?_, .refl _ _, by simpa using allowed, fun _ mem => absurd mem List.not_mem_nil, trivial⟩
  change ({ s with errors := s.errors ++ [e] } : ExecutionState) = _
  simp [ExecutionState.after]

/-- A computation on the registry that only describes types. -/
theorem conducts_onRegistry {ε : Type} {m : ExceptT ε (StateM Registry) α} (settles : host.Settles m) :
    Keeps host c (onRegistry m.run) := by
  intro s
  rw [outcome_onRegistry]
  refine ⟨_, [], [], ?_, (settles s.registry).grows, fun _ mem => absurd mem List.not_mem_nil,
    fun _ mem => absurd mem List.not_mem_nil, trivial⟩
  simp [ExecutionState.after]

theorem conducts_mapM {f : α → ExecM β} {items : List α} (each : ∀ a ∈ items, Keeps host c (f a)) :
    Conducts host c (items.mapM f) fun all => all.length = items.length := by
  induction items with
  | nil =>
    rw [List.mapM_nil]
    exact conducts_pure rfl
  | cons a rest ih =>
    obtain ⟨first, others⟩ := List.forall_mem_cons.1 each
    rw [List.mapM_cons]
    exact first.bind fun _ _ => (ih others).bind fun _ count => conducts_pure (congrArg Nat.succ count)

/-- What a computation conducts is in particular a growth of the registry. -/
theorem Conducts.grows {m : ExecM α} (conducts : Conducts host c m post) (s : ExecutionState) :
    host.Later s.registry (outcome m s).2.registry := by
  obtain ⟨registry, errors, events, eq, grown, -⟩ := conducts s
  rw [eq]
  exact grown

end ExecM

/-! ## Depth and complexity -/

/-- The error of a field that is too deep. -/
def ResponseError.TooDeep (e : ResponseError) : Prop :=
  ∃ depth max location, e = (LimitError.depth depth max).toResponseError.located location

/-- The failure of an execution in which a field is too deep. -/
def Abort.TooDeep (abort : Abort) : Prop := ∃ e, abort = .error e ∧ e.TooDeep

/-- The error of a request that is too complex, at the field that made it so. -/
def ResponseError.TooComplex (e : ResponseError) : Prop :=
  ∃ complexity max location, e = (LimitError.complexity complexity max).toResponseError.located location

/-- The failure of an execution that is too complex. -/
def Abort.TooComplex (abort : Abort) : Prop := ∃ e, abort = .error e ∧ e.TooComplex

/-- The abort is about neither depth nor complexity. -/
structure Abort.Unmeasured (abort : Abort) : Prop where
  depth : ¬abort.TooDeep
  complexity : ¬abort.TooComplex

namespace LimitError

theorem isDigit_of_mem_toString {n : Nat} {c : Char} (mem : c ∈ (toString n).toList) : c.isDigit = true := by
  rw [Nat.toString_eq_repr, Nat.toList_repr] at mem
  exact Nat.isDigit_of_mem_toDigits (by decide) (by decide) mem

theorem message_depth (depth max : Nat) :
    ∃ rest : List Char, (LimitError.depth depth max).message.toList = "query depth ".toList ++ rest := by
  refine ⟨(toString depth).toList ++ (" exceeds maximum allowed depth of ".toList ++ (toString max).toList), ?_⟩
  change ("query depth " ++ toString depth ++ " exceeds maximum allowed depth of " ++ toString max).toList = _
  simp only [String.toList_append, List.append_assoc]

/-- No other guard has a message like that about depth. -/
theorem eq_depth_of_message {e : LimitError} {depth max : Nat} (same : e.message = (LimitError.depth depth max).message) :
    ∃ depth max, e = .depth depth max := by
  obtain ⟨rest, begins⟩ := message_depth depth max
  rw [← same] at begins
  cases e with
  | depth n max => exact ⟨n, max, rfl⟩
  | fields n max =>
    change ("selection of " ++ toString n ++ " fields exceeds maximum allowed fields of " ++ toString max).toList = _
      at begins
    simp at begins
  | complexity n max =>
    change ("query complexity " ++ toString n ++ " exceeds maximum allowed complexity of " ++ toString max).toList = _
      at begins
    simp at begins
  | aliases n max =>
    have letter : 'q' ∈ (LimitError.aliases n max).message.toList := by simp [begins]
    have digits (k : Nat) : 'q' ∉ (toString k).toList := fun mem =>
      absurd (isDigit_of_mem_toString mem) (by decide)
    change 'q' ∈ (toString n ++ " aliases exceeds maximum allowed aliases of " ++ toString max).toList at letter
    simp only [String.toList_append, List.mem_append, digits, false_or, or_false] at letter
    simp at letter

theorem message_complexity (complexity max : Nat) :
    ∃ rest : List Char, (LimitError.complexity complexity max).message.toList = "query complexity ".toList ++ rest := by
  refine ⟨(toString complexity).toList ++ (" exceeds maximum allowed complexity of ".toList ++ (toString max).toList), ?_⟩
  change ("query complexity " ++ toString complexity ++ " exceeds maximum allowed complexity of " ++
    toString max).toList = _
  simp only [String.toList_append, List.append_assoc]

/-- No other guard has a message like that about complexity. -/
theorem eq_complexity_of_message {e : LimitError} {complexity max : Nat}
    (same : e.message = (LimitError.complexity complexity max).message) :
    ∃ complexity max, e = .complexity complexity max := by
  obtain ⟨rest, begins⟩ := message_complexity complexity max
  rw [← same] at begins
  cases e with
  | complexity n max => exact ⟨n, max, rfl⟩
  | depth n max =>
    obtain ⟨more, begins'⟩ := message_depth n max
    rw [begins'] at begins
    simp at begins
  | fields n max =>
    change ("selection of " ++ toString n ++ " fields exceeds maximum allowed fields of " ++ toString max).toList = _
      at begins
    simp at begins
  | aliases n max =>
    have letter : 'q' ∈ (LimitError.aliases n max).message.toList := by simp [begins]
    have digits (k : Nat) : 'q' ∉ (toString k).toList := fun mem =>
      absurd (isDigit_of_mem_toString mem) (by decide)
    change 'q' ∈ (toString n ++ " aliases exceeds maximum allowed aliases of " ++ toString max).toList at letter
    simp only [String.toList_append, List.mem_append, digits, false_or, or_false] at letter
    simp at letter

end LimitError

/-- The error of a guard is that of a limit with the same message. -/
theorem FieldPlan.message_of_guard {field : FieldPlan} {check : Except LimitError Unit} {limit : LimitError}
    {location : Location} (refused : field.guard check = .error (limit.toResponseError.located location)) :
    ∃ own : LimitError, check = .error own ∧ own.message = limit.message := by
  cases check with
  | ok _ => cases refused
  | error own => exact ⟨own, rfl, congrArg ResponseError.message (Except.error.inj refused)⟩

theorem FieldPlan.not_tooDeep_of_guard {field : FieldPlan} {check : Except LimitError Unit} {e : ResponseError}
    (refused : field.guard check = .error e) (other : ∀ depth max, check ≠ .error (.depth depth max)) : ¬e.TooDeep := by
  rintro ⟨depth, max, location, rfl⟩
  obtain ⟨own, rfl, same⟩ := field.message_of_guard refused
  obtain ⟨depth', max', rfl⟩ := LimitError.eq_depth_of_message same
  exact other depth' max' rfl

theorem FieldPlan.not_tooComplex_of_guard {field : FieldPlan} {check : Except LimitError Unit} {e : ResponseError}
    (refused : field.guard check = .error e) (other : ∀ n max, check ≠ .error (.complexity n max)) : ¬e.TooComplex := by
  rintro ⟨complexity, max, location, rfl⟩
  obtain ⟨own, rfl, same⟩ := field.message_of_guard refused
  obtain ⟨complexity', max', rfl⟩ := LimitError.eq_complexity_of_message same
  exact other complexity' max' rfl

theorem ResponseError.not_tooDeep_of_code {e : ResponseError} (code : e.code ≠ .limitExceeded) : ¬e.TooDeep := by
  rintro ⟨depth, max, location, rfl⟩
  exact code rfl

theorem ResponseError.not_tooComplex_of_code {e : ResponseError} (code : e.code ≠ .limitExceeded) : ¬e.TooComplex := by
  rintro ⟨complexity, max, location, rfl⟩
  exact code rfl

theorem ResponseError.not_tooDeep_of_path {e : ResponseError} {path : ErrorPath} (placed : e.path = some path) :
    ¬e.TooDeep := by
  rintro ⟨depth, max, location, rfl⟩
  cases placed

theorem ResponseError.not_tooComplex_of_path {e : ResponseError} {path : ErrorPath} (placed : e.path = some path) :
    ¬e.TooComplex := by
  rintro ⟨complexity, max, location, rfl⟩
  cases placed

theorem Abort.not_tooDeep {e : ResponseError} (other : ¬e.TooDeep) : ¬(Abort.error e).TooDeep := by
  rintro ⟨_, same, deep⟩
  cases same
  exact other deep

theorem Abort.not_tooComplex {e : ResponseError} (other : ¬e.TooComplex) : ¬(Abort.error e).TooComplex := by
  rintro ⟨_, same, complex⟩
  cases same
  exact other complex

/-- A guard on something else than depth and complexity refuses a field. -/
theorem FieldPlan.unmeasured_of_guard {field : FieldPlan} {check : Except LimitError Unit} {e : ResponseError}
    (refused : field.guard check = .error e) (depth : ∀ n max, check ≠ .error (.depth n max))
    (complexity : ∀ n max, check ≠ .error (.complexity n max)) : (Abort.error e).Unmeasured :=
  ⟨Abort.not_tooDeep (field.not_tooDeep_of_guard refused depth),
    Abort.not_tooComplex (field.not_tooComplex_of_guard refused complexity)⟩

theorem Abort.unmeasured_of_code {e : ResponseError} (code : e.code ≠ .limitExceeded) : (Abort.error e).Unmeasured :=
  ⟨not_tooDeep (e.not_tooDeep_of_code code), not_tooComplex (e.not_tooComplex_of_code code)⟩

theorem Abort.unmeasured_breakdown (b : Breakdown) : (Abort.breakdown b).Unmeasured := by
  constructor <;> rintro ⟨_, same, -⟩ <;> cases same

theorem QueryLimits.guardWith_zero (size : Nat) (error : Nat → Nat → LimitError) : guardWith size 0 error = .ok () := by
  simp [guardWith, exceeds]

theorem QueryLimits.guardWith_error {size max size' max' : Nat} {error other : Nat → Nat → LimitError}
    (differ : ∀ a b c d, error a b ≠ other c d) : guardWith size max error ≠ .error (other size' max') := by
  unfold guardWith
  split
  · intro same
    exact differ _ _ _ _ (Except.error.inj same)
  · simp

namespace Execution

variable {x : Execution} {selection fields : List FieldPlan} {field : FieldPlan} {depth : Nat} {e : ResponseError}

/-- The walk over a selection at a depth finds no field too deep, if depth is limited at all. -/
def Approves (x : Execution) (depth : Nat) (selection : List FieldPlan) : Prop :=
  x.limits.maxDepth = 0 ∨ x.checkDepth depth selection = .ok ()

theorem checkDepth_cons_eq_ok (ok : x.checkDepth depth (field :: fields) = .ok ()) :
    (x.isIncluded field = .ok true →
      field.guard (x.limits.checkDepth depth) = .ok () ∧ x.checkDepth (depth + 1) field.selection = .ok ()) ∧
    x.checkDepth depth fields = .ok () := by
  rw [checkDepth] at ok
  split at ok
  · cases ok
  · next left =>
    refine ⟨fun kept => ?_, ok⟩
    cases left.symm.trans kept
  · obtain ⟨_, within, ok⟩ := except_bind_eq_ok.1 ok
    obtain ⟨_, below, ok⟩ := except_bind_eq_ok.1 ok
    exact ⟨fun _ => ⟨within, below⟩, ok⟩

/-- Below a selection that is approved, so is every field that its directives keep. -/
theorem Approves.below (approves : x.Approves depth selection) (mem : field ∈ selection)
    (kept : x.isIncluded field = .ok true) :
    field.guard (x.limits.checkDepth depth) = .ok () ∧ x.Approves (depth + 1) field.selection := by
  rcases approves with unlimited | ok
  · have passed : x.limits.checkDepth depth = .ok () := by
      rw [QueryLimits.checkDepth, unlimited]
      exact QueryLimits.guardWith_zero depth .depth
    exact ⟨by rw [passed]; rfl, Or.inl unlimited⟩
  · induction selection with
    | nil => cases mem
    | cons first rest ih =>
      obtain ⟨here, others⟩ := checkDepth_cons_eq_ok ok
      rcases List.mem_cons.1 mem with rfl | mem
      · exact ⟨(here kept).1, Or.inr (here kept).2⟩
      · exact ih mem others

theorem holds_code {conditions : List Condition} (failed : x.holds field conditions = .error e) :
    e.code ≠ .limitExceeded := by
  induction conditions with
  | nil => cases failed
  | cons condition rest ih =>
    rw [holds] at failed
    split at failed
    · split at failed
      · exact ih failed
      · cases failed
    · cases failed
      simp [ResponseError.located]

theorem included_code {concrete : Option NamedType} (failed : x.included concrete selection = .error e) :
    e.code ≠ .limitExceeded := by
  induction selection with
  | nil => cases failed
  | cons field rest ih =>
    rw [included] at failed
    split at failed
    · split at failed
      · next undecided =>
        cases failed
        exact holds_code undecided
      · cases more : x.included concrete rest with
        | ok fields =>
          rw [more] at failed
          cases failed
        | error e' =>
          rw [more] at failed
          cases failed
          exact ih more
    · exact ih failed

/-- Selecting fails for a directive or for the number of fields. -/
theorem collect_unmeasured {concrete : Option NamedType} (failed : x.collect selection concrete = .error e) :
    (Abort.error e).Unmeasured := by
  unfold collect at failed
  rcases except_bind_eq_error.1 failed with undecided | ⟨fields, _, failed⟩
  · exact Abort.unmeasured_of_code (included_code undecided)
  · cases fields with
    | nil => cases failed
    | cons first rest =>
      rcases except_bind_eq_error.1 failed with many | ⟨_, _, failed⟩
      · exact first.unmeasured_of_guard many
          (fun _ _ => QueryLimits.guardWith_error fun _ _ _ _ => by simp)
          (fun _ _ => QueryLimits.guardWith_error fun _ _ _ _ => by simp)
      · cases failed

end Execution

/-! ## Values -/

/-- What may be done at or below a path, where nothing is measured but depth. If the walk over the plan has passed
what is done there, no field is too deep. -/
def Conduct.below (passed : Prop) (path : ErrorPath) : Conduct where
  fails abort := ¬abort.TooComplex ∧ (passed → ¬abort.TooDeep)
  collects e := ∃ rest, e.path = some (path ++ rest)
  runs event := ∃ rest name, event = .read (path ++ rest) name

theorem Abort.Unmeasured.below {abort : Abort} {passed : Prop} {path : ErrorPath} (other : abort.Unmeasured) :
    (Conduct.below passed path).fails abort :=
  ⟨other.complexity, fun _ => other.depth⟩

theorem Conduct.below_within {passed passed' : Prop} {path : ErrorPath} (rest : ErrorPath) (imp : passed' → passed) :
    (Conduct.below passed (path ++ rest)).Within (Conduct.below passed' path) where
  fails _ := And.imp_right fun fine holds => fine (imp holds)
  collects e := by
    rintro ⟨more, placed⟩
    exact ⟨rest ++ more, by rw [placed, List.append_assoc]⟩
  runs event := by
    rintro ⟨more, name, rfl⟩
    exact ⟨rest ++ more, name, by rw [List.append_assoc]⟩

theorem Conduct.below_imp {passed passed' : Prop} {path : ErrorPath} (imp : passed' → passed) :
    (Conduct.below passed path).Within (Conduct.below passed' path) := by
  have within := @Conduct.below_within _ _ path [] imp
  rwa [List.append_nil] at within

namespace Execution

variable {x : Execution}

theorem pushError_below {passed : Prop} {path : ErrorPath} {e : ResponseError} (placed : e.path = some path) :
    ExecM.Keeps x.host (.below passed path) (ExecM.pushError e) :=
  ExecM.conducts_pushError ⟨[], by rw [placed, List.append_nil]⟩

theorem fieldError_below {passed : Prop} (message : String) (code : ErrorCode) (field : FieldPlan) (path : ErrorPath) :
    ExecM.Keeps x.host (.below passed path) (ExecM.fieldError message code field path) :=
  pushError_below rfl

theorem hostError_below {passed : Prop} (e : HostError) (code : ErrorCode) (field : FieldPlan) (path : ErrorPath) :
    ExecM.Keeps x.host (.below passed path) (ExecM.hostError e code field path) :=
  pushError_below rfl

/-- A computation fails, but not for depth or complexity. -/
theorem throw_below {passed : Prop} {path : ErrorPath} {α : Type} {abort : Abort} (other : abort.Unmeasured)
    {post : α → Prop} : ExecM.Conducts x.host (.below passed path) (throw abort : ExecM α) post :=
  ExecM.conducts_throw other.below

theorem internal_below {passed : Prop} {path : ErrorPath} {α : Type} {post : α → Prop} :
    ExecM.Conducts x.host (.below passed path) (ExecM.abort .internal : ExecM α) post :=
  throw_below (Abort.unmeasured_of_code (by simp [ResponseError.internal]))

theorem describe_below {passed : Prop} {path : ErrorPath} (type : NamedType) :
    ExecM.Keeps x.host (.below passed path) (x.describe type) :=
  ExecM.conducts_onRegistry (Host.describe_settles type)

theorem completeLeaf_below {passed : Prop} {leaf : LeafM Const} (settles : x.host.Settles leaf) (field : FieldPlan)
    (path : ErrorPath) : ExecM.Keeps x.host (.below passed path) (completeLeaf leaf field path) := by
  refine (ExecM.conducts_onRegistry settles).bind fun result _ => ?_
  cases result with
  | ok c => exact ExecM.conducts_pure trivial
  | error e => exact fieldError_below _ _ _ _

/-- What is read from a value is completed at its path, with its selection one level below. -/
def FinishConducts (x : Execution) {whole : HostValue} (finish : Finish whole) : Prop :=
  ∀ type value smaller (field : FieldPlan) path depth,
    ExecM.Keeps x.host (.below (x.Approves (depth + 1) field.selection) path)
      (finish type value smaller field path depth)

section

variable {value : HostValue} {finish : Finish value} (conducts : x.FinishConducts finish)

include conducts

theorem readField_conducts (object : ObjectFields) (declared : FieldDescriptor) (field : FieldPlan) (path : ErrorPath)
    (depth : Nat) :
    ExecM.Keeps x.host (.below (x.Approves (depth + 1) field.selection) path)
      (readField object declared value field path depth finish) := by
  have reads : (Conduct.below (x.Approves (depth + 1) field.selection) path).runs (.read path declared.name) :=
    ⟨[], _, by rw [List.append_nil]⟩
  unfold readField
  split
  · exact internal_below
  · exact fieldError_below _ _ _ _
  · refine (ExecM.conducts_note reads).bind fun _ _ => ?_
    split
    · exact conducts _ _ _ _ _ _
    · exact hostError_below _ _ _ _
    · exact fieldError_below _ _ _ _

/-- A field that the walk has passed is not too deep. -/
theorem resolveField_conducts (d : TypeDescriptor) (field : FieldPlan) (path : ErrorPath) (depth : Nat) :
    ExecM.Keeps x.host
      (.below (field.guard (x.limits.checkDepth depth) = .ok () ∧ x.Approves (depth + 1) field.selection) path)
      (x.resolveField d value field path depth finish) := by
  have missing : ExecM.Keeps x.host
      (.below (field.guard (x.limits.checkDepth depth) = .ok () ∧ x.Approves (depth + 1) field.selection) path)
      (resolveField.missing d field path) := fieldError_below _ _ _ _
  have reads (object : ObjectFields) (declared : FieldDescriptor) :=
    (readField_conducts conducts object declared field path depth).weaken
      (@Conduct.below_imp _ (field.guard (x.limits.checkDepth depth) = .ok () ∧ x.Approves (depth + 1) field.selection) _
        And.right)
  have cancelled : (Abort.error .cancelled).Unmeasured := Abort.unmeasured_of_code (by simp [ResponseError.cancelled])
  unfold resolveField
  refine (ExecM.conducts_checkCancelled cancelled.below).bind fun _ _ => ?_
  refine (ExecM.conducts_ofExcept (fun _ _ => trivial) fun e refused => ?_).bind fun _ _ => ?_
  · refine ⟨Abort.not_tooComplex (field.not_tooComplex_of_guard refused fun _ _ =>
      QueryLimits.guardWith_error fun _ _ _ _ => by simp), fun passed => ?_⟩
    cases passed.1.symm.trans refused
  · split
    · exact ExecM.conducts_pure trivial
    · split
      · split
        · exact reads _ _
        · exact internal_below
      · exact internal_below
    · split
      · split
        · exact reads _ _
        · exact missing
      · exact missing
    · exact internal_below

theorem resolveObject_conducts (d : TypeDescriptor) (parent : FieldPlan) (path : ErrorPath) (depth : Nat) :
    ExecM.Keeps x.host (.below (x.Approves (depth + 1) parent.selection) path)
      (x.resolveObject d value parent path depth finish) := by
  unfold resolveObject
  have selection : ExecM.Conducts x.host (.below (x.Approves (depth + 1) parent.selection) path)
      (ExecM.ofExcept (x.collect parent.selection (some d.type)))
      fun fields => x.collect parent.selection (some d.type) = .ok fields :=
    ExecM.conducts_ofExcept (fun _ => id) fun _ failed => (collect_unmeasured failed).below
  refine selection.bind fun fields selected => ?_
  refine (ExecM.conducts_mapM fun field mem => ?_).bind fun _ _ => ExecM.conducts_pure trivial
  have included := (collect_eq_ok_iff.1 selected).1
  refine ((resolveField_conducts conducts d field (path.field field.responseKey) (depth + 1)).weaken ?_).bind
    fun _ _ => ExecM.conducts_pure trivial
  refine Conduct.below_within [.key field.responseKey] fun approves => ?_
  exact approves.below (mem_of_collect selected mem) (isIncluded_of_included included mem).1

theorem completeHost_conducts (type : NamedType) (field : FieldPlan) (path : ErrorPath) (depth : Nat) :
    ExecM.Keeps x.host (.below (x.Approves (depth + 1) field.selection) path)
      (x.completeHost type value field path depth finish) := by
  unfold completeHost
  refine (describe_below type).bind fun result _ => ?_
  cases result with
  | error e => exact fieldError_below _ _ _ _
  | ok d =>
    simp only
    split
    · exact completeLeaf_below (leafOf_settles d _) _ _
    · exact completeLeaf_below (leafOf_settles d _) _ _
    · exact resolveObject_conducts conducts d field path depth
    · split
      · exact conducts _ _ _ _ _ _
      · exact resolveObject_conducts conducts d field path depth
      · exact throw_below (Abort.unmeasured_breakdown _)
      · exact fieldError_below _ _ _ _
    · split
      · refine (describe_below _).bind fun result _ => ?_
        cases result with
        | error e => exact fieldError_below _ _ _ _
        | ok concrete => exact resolveObject_conducts conducts concrete field path depth
      · exact fieldError_below _ _ _ _
    · exact fieldError_below _ _ _ _

end

theorem completePlain_conducts {passed : Prop} (type : NamedType) (value : Resolved) (field : FieldPlan)
    (path : ErrorPath) : ExecM.Keeps x.host (.below passed path) (x.completePlain type value field path) := by
  unfold completePlain
  refine (describe_below type).bind fun result _ => ?_
  cases result with
  | error e => exact fieldError_below _ _ _ _
  | ok d =>
    simp only
    split
    · exact completeLeaf_below (leafOf_settles d _) _ _
    · exact completeLeaf_below (leafOf_settles d _) _ _
    all_goals exact fieldError_below _ _ _ _

/-- Completing a value collects errors and calls getters at its path and below, and finds no field too deep
if the walk has passed the selection. -/
theorem complete_conducts (type : TypeRef) (value : Resolved) (field : FieldPlan) (path : ErrorPath) (depth : Nat) :
    ExecM.Keeps x.host (.below (x.Approves (depth + 1) field.selection) path)
      (x.complete type value field path depth) := by
  by_cases missing : value = .null
  · subst missing
    rw [complete]
    exact ExecM.conducts_pure trivial
  cases type with
  | map item nullable =>
    rw [complete]
    · exact completeLeaf_below (serialize_settles value _) _ _
    · exact missing
  | list item nullable =>
    cases value with
    | list items =>
      rw [complete]
      have one (entry : { r // r ∈ x.limits.keepItems items } × Nat) :
          ExecM.Keeps x.host (.below (x.Approves (depth + 1) field.selection) path)
            (x.complete item entry.1.1 field (path.index entry.2) depth) :=
        (complete_conducts item entry.1.1 field _ depth).weaken (Conduct.below_within [.index entry.2] id)
      exact (ExecM.conducts_mapM fun entry _ => one entry).bind fun _ _ => ExecM.conducts_pure trivial
    | null => exact absurd rfl missing
    | const _ | map _ | host _ =>
      rw [complete]
      · exact fieldError_below _ _ _ _
      · exact missing
      · simp
  | named type nullable =>
    cases value with
    | host value =>
      rw [complete]
      refine completeHost_conducts (fun type r smaller field path depth => ?_) type field path depth
      exact complete_conducts type r field path depth
    | null => exact absurd rfl missing
    | const _ | list _ | map _ =>
      rw [complete]
      · exact completePlain_conducts type _ field path
      · exact missing
      · simp
termination_by sizeOf value
decreasing_by
  · simp only [Resolved.host.sizeOf_spec]
    omega
  · have := List.sizeOf_lt_of_mem (QueryLimits.mem_of_mem_keepItems entry.1.2)
    simp only [Resolved.list.sizeOf_spec]
    omega

end Execution

end GraphQL
