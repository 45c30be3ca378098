import GraphQL.Proofs.Execution.Cancellation
import GraphQL.Proofs.Execution.Decided

/-!
# Slots shared by requests

The queries and mutations of a schema share its slots. Whatever they do and however they take turns, the slots
taken are those of the resolvers at work, so that there are never more of them than slots, and all slots are free
when no resolver works: `slots_shared`. A request gives back what it holds when it is aborted and when it is
dropped on its way.

Opening a subscription does not take part in this. Its resolver is called without a slot, also when none is free:
`ticks_slotless`.
-/

namespace GraphQL

section

variable {x : Execution} {field : FieldPlan} {here there : Stage × ExecutionState}

/-- No more slots are taken than there are. -/
def Slots.Within (slots : Slots) : Prop := slots.limit = 0 ∨ slots.taken ≤ slots.limit

theorem Slots.Within.release {slots : Slots} (within : slots.Within) (count : Nat) : (slots.release count).Within :=
  within.imp_right fun less => Nat.le_trans (Nat.sub_le _ _) less

theorem Slots.within_of_acquire {slots slots' : Slots} (free : slots.acquire? = some slots') : slots'.Within := by
  unfold acquire? at free
  split at free
  · next room =>
    cases free
    simpa [Within, Nat.succ_le_iff] using room
  · cases free

/-- At no point of an advance are there more slots taken than there are. -/
theorem Leg.within (leg : Leg x field here there) (within : here.2.slots.Within) : there.2.slots.Within := by
  cases leg with
  | tooComplex _ | admitted _ => rwa [Execution.counting_slots]
  | enter _ _ free => exact Slots.within_of_acquire free
  | unread _ | panicked _ _ | done => exact within.release 1
  | finish ran =>
    have same := answer_slots ran
    exact same ▸ within
  | fail ran =>
    have same := answer_slots ran
    exact same ▸ within
  | _ => exact within

theorem Legs.within (legs : Legs x field here there) (within : here.2.slots.Within) : there.2.slots.Within := by
  induction legs with
  | refl => exact within
  | tail _ leg ih => exact leg.within ih

end

/-! ## One request -/

namespace Run

variable {x : Execution} {run run' : Run}

/-- The resolvers of a run that are at work: those that hold a slot, unless the run was aborted. -/
def atWork (run : Run) : Nat := if run.aborted.isSome then 0 else run.slotsHeld

/-- The run with the slots of the schema as they are now. -/
def sharing (run : Run) (slots : Slots) : Run := { run with state := { run.state with slots } }

theorem heed_atWork (kind : OperationKind) {run : Run} (ongoing : run.aborted = none)
    (enough : run.slotsHeld ≤ run.state.slots.taken) :
    (heed kind run).state.slots.taken + run.slotsHeld = run.state.slots.taken + (heed kind run).atWork := by
  unfold heed
  split
  · simp [atWork, ongoing]
  · exact Nat.sub_add_cancel enough

/-- What a poll does to the slots, it does for the resolvers at work. -/
theorem Poll.atWork (poll : Poll x run run') (enough : run.atWork ≤ run.state.slots.taken) :
    run'.state.slots.taken + run.atWork = run.state.slots.taken + run'.atWork := by
  cases poll with
  | idle => rfl
  | @advance i field task task' s ongoing at' ready legs =>
    have all : run.atWork = run.slotsHeld := by simp [Run.atWork, ongoing]
    have among := held_le_slotsHeld at'
    have traded := legs.slots.2 (show task.held ≤ run.state.slots.taken by omega)
    change s.slots.taken + task.held = run.state.slots.taken + task'.held at traded
    have held : slotsHeld { run with tasks := run.tasks.set i (field, task'), state := s } + task.held =
        run.slotsHeld + task'.held := slotsHeld_set at' rfl
    have heeded := @heed_atWork x.plan.kind { run with tasks := run.tasks.set i (field, task'), state := s } ongoing
      (show _ ≤ s.slots.taken by omega)
    change _ + _ = s.slots.taken + _ at heeded
    omega

theorem Poll.within (poll : Poll x run run') (within : run.state.slots.Within) : run'.state.slots.Within := by
  cases poll with
  | idle => exact within
  | advance _ _ _ legs =>
    have after := legs.within within
    unfold heed
    split
    · exact after
    · exact after.release _

/-- A move takes slots and gives them back as the resolvers at work hold them. -/
theorem move_shares (run : Run) (move : Move) (within : run.state.slots.Within)
    (enough : run.atWork ≤ run.state.slots.taken) :
    (run.move x move).state.slots.Within ∧ (run.move x move).state.slots.limit = run.state.slots.limit ∧
      (run.move x move).state.slots.taken + run.atWork = run.state.slots.taken + (run.move x move).atWork := by
  cases move with
  | poll i =>
    have poll := @poll_legs x run i
    exact ⟨poll.within within, poll.limit, poll.atWork enough⟩
  | cancel => exact ⟨within, rfl, rfl⟩

end Run

/-! ## Several requests -/

/-- The queries and mutations in progress on a schema, and its slots. -/
structure Pool where
  slots : Slots
  requests : List (Execution × Run) := []

/-- What may happen among requests. -/
inductive PoolMove where
  | start (x : Execution) (fields : List FieldPlan) (state : ExecutionState)
  | advance (k : Nat) (move : Move)
  /-- Whoever waits for the response of a request stops waiting, ended or not. -/
  | drop (k : Nat)

namespace Pool

variable {pool : Pool}

def move (pool : Pool) : PoolMove → Pool
  | .start x fields state => { pool with requests := pool.requests ++ [(x, Run.launch fields state)] }
  | .advance k move =>
    match pool.requests[k]? with
    | some (x, run) =>
      let next := (run.sharing pool.slots).move x move
      { slots := next.state.slots, requests := pool.requests.set k (x, next) }
    | none => pool
  | .drop k =>
    match pool.requests[k]? with
    | some (_, run) => { slots := pool.slots.release run.atWork, requests := pool.requests.eraseIdx k }
    | none => pool

/-- The resolvers at work for all requests. -/
def atWork (pool : Pool) : Nat := pool.requests.foldr (fun request total => request.2.atWork + total) 0

/-- The slots taken are those of the resolvers at work, and no more than there are. -/
structure Fair (pool : Pool) : Prop where
  taken : pool.slots.taken = pool.atWork
  within : pool.slots.Within

theorem atWork_eraseIdx {k : Nat} {x : Execution} {run : Run} (at' : pool.requests[k]? = some (x, run)) (slots : Slots) :
    atWork { slots, requests := pool.requests.eraseIdx k } + run.atWork = pool.atWork := by
  unfold atWork
  generalize pool.requests = requests at at' ⊢
  induction requests generalizing k with
  | nil => cases at'
  | cons first rest ih =>
    cases k with
    | zero =>
      cases at'
      simp only [List.eraseIdx_cons_zero, List.foldr_cons]
      omega
    | succ k =>
      have others := ih (k := k) at'
      simp only [List.eraseIdx_cons_succ, List.foldr_cons] at others ⊢
      omega

theorem atWork_set {k : Nat} {x : Execution} {run : Run} (at' : pool.requests[k]? = some (x, run)) (run' : Run)
    (slots : Slots) :
    atWork { slots, requests := pool.requests.set k (x, run') } + run.atWork = pool.atWork + run'.atWork :=
  foldr_add_set (fun request => request.2.atWork) at' (x, run')

/-- No request holds more than what all together hold. -/
theorem atWork_le {k : Nat} {x : Execution} {run : Run} (at' : pool.requests[k]? = some (x, run)) :
    run.atWork ≤ pool.atWork := by
  have := atWork_eraseIdx at' pool.slots
  omega

/-- Whatever a request does, and whenever it does it, sharing stays fair. -/
theorem Fair.move (fair : pool.Fair) (move : PoolMove) :
    (pool.move move).Fair ∧ (pool.move move).slots.limit = pool.slots.limit := by
  cases move with
  | start x fields state =>
    have unbegun : (Run.launch fields state).atWork = 0 := Run.launch_slotsHeld fields state
    refine ⟨⟨?_, fair.within⟩, rfl⟩
    simpa [Pool.move, atWork, unbegun] using fair.taken
  | advance k move =>
    cases at' : pool.requests[k]? with
    | none =>
      have same : pool.move (.advance k move) = pool := by simp only [Pool.move, at']
      rw [same]
      exact ⟨fair, rfl⟩
    | some request =>
      obtain ⟨x, run⟩ := request
      have share := atWork_le at'
      obtain ⟨within, limit, traded⟩ := @Run.move_shares x (run.sharing pool.slots) move fair.within
        (Nat.le_trans share (Nat.le_of_eq fair.taken.symm))
      change _ + run.atWork = pool.slots.taken + _ at traded
      have counted := atWork_set at' ((run.sharing pool.slots).move x move) ((run.sharing pool.slots).move x move).state.slots
      simp only [Pool.move, at']
      refine ⟨⟨?_, within⟩, limit⟩
      have taken := fair.taken
      simp only
      omega
  | drop k =>
    cases at' : pool.requests[k]? with
    | none =>
      have same : pool.move (.drop k) = pool := by simp only [Pool.move, at']
      rw [same]
      exact ⟨fair, rfl⟩
    | some request =>
      obtain ⟨x, run⟩ := request
      have counted := atWork_eraseIdx at' (pool.slots.release run.atWork)
      simp only [Pool.move, at']
      refine ⟨⟨?_, fair.within.release _⟩, rfl⟩
      change pool.slots.taken - run.atWork = _
      have taken := fair.taken
      omega

theorem Fair.moves (fair : pool.Fair) (moves : List PoolMove) :
    (moves.foldl Pool.move pool).Fair ∧ (moves.foldl Pool.move pool).slots.limit = pool.slots.limit := by
  induction moves generalizing pool with
  | nil => exact ⟨fair, rfl⟩
  | cons move rest ih =>
    obtain ⟨fair', same⟩ := fair.move move
    obtain ⟨fair'', same'⟩ := ih fair'
    exact ⟨fair'', same'.trans same⟩

/-- However queries and mutations interleave, there are never more resolvers at work than slots, and once none
is at work all slots are free. -/
theorem slots_shared (n : Nat) (moves : List PoolMove) :
    let pool := moves.foldl Pool.move { slots := { limit := n } }
    (0 < n → pool.atWork ≤ n) ∧
      ((∀ request ∈ pool.requests, request.2.atWork = 0) → pool.slots = { limit := n }) := by
  intro pool
  have empty : Fair { slots := { limit := n } } := ⟨rfl, Or.inr (Nat.zero_le _)⟩
  obtain ⟨fair, limit⟩ := empty.moves moves
  have taken : pool.slots.taken = pool.atWork := fair.taken
  have limit' : pool.slots.limit = n := limit
  refine ⟨fun limited => ?_, fun idle => ?_⟩
  · have within : pool.slots.limit = 0 ∨ pool.slots.taken ≤ pool.slots.limit := fair.within
    omega
  · have none : pool.atWork = 0 := foldr_add_eq_zero idle
    cases slots : pool.slots with
    | mk limit taken' =>
      rw [slots] at taken limit'
      cases limit'
      cases taken.trans none
      rfl

end Pool

/-- The resolver of the subscription is called although the only slot is taken, and no slot is asked for. -/
theorem TicksSubscription.ticks_slotless :
    let busy : ExecutionState := { registry := {}, slots := { limit := 1, taken := 1 }, cancelled := false }
    busy.slots.acquire? = none ∧ (outcome execution.subscribe busy).2.calls = [.called "ticks" "ticks" []] ∧
      (outcome execution.subscribe busy).2.slots = busy.slots := by
  refine ⟨rfl, ?_, ?_⟩ <;> with_unfolding_all rfl

end GraphQL
