import GraphQL.Execution.Run

/-!
# Taking turns

Which field of a run is polled next. A few fields are polled in rounds, all of them in selection order.
In a crowd a field is polled when it is woken. All are at first; a field that waits for a slot is woken
when one is free for it or the request is cancelled; and those that gave way are woken together when
nothing else can go on, the latest first. Either way `Turn.settle` ends when a round gets no field any
further.
-/

namespace GraphQL

/-- A run between two rounds. -/
structure Turn where
  run : Run
  /-- The fields that were woken, in order. -/
  woken : List Nat
  /-- The fields that gave way, the latest first. -/
  resting : List Nat := []

namespace RootTask

/-- Whether the task waits for a slot. -/
def isQueued : RootTask → Bool
  | queued => true
  | _ => false

/-- Whether a cancellation wakes the task. -/
def heedsCancel : RootTask → Bool
  | queued | working (.awaitCancel _) => true
  | _ => false

/-- Whether the task gave way and goes on by itself. -/
def isResting (cancelled : Bool) : RootTask → Bool
  | working (.awaitCancel _) => cancelled
  | working _ => true
  | _ => false

end RootTask

namespace Run

/-- The places of the tasks that satisfy a condition. -/
def places (run : Run) (which : RootTask → Bool) : List Nat :=
  (run.tasks.zipIdx.filter fun ((_, task), _) => which task).map (·.2)

/-- The fields that may go on although they waited: for a slot, or for a cancellation. -/
def admitted (run : Run) : List Nat :=
  if run.state.cancelled then run.places RootTask.heedsCancel
  else (run.places RootTask.isQueued).take (run.state.slots.limit - run.state.slots.taken)

/-- Whether a field gave way. -/
def gaveWay (run : Run) (i : Nat) : Bool := (run.tasks[i]?).any fun (_, task) => task.isResting run.state.cancelled

end Run

namespace Turn

/-- Polls every field once, in order. -/
def pollAll (x : Execution) (turn : Turn) : Turn :=
  { turn with run := (List.range turn.run.tasks.length).foldl (Run.poll x) turn.run }

/-- Polls some fields in order and notes which others they wake. -/
def pollWoken (x : Execution) : List Nat → Turn → Turn
  | [], turn => turn
  | i :: rest, turn =>
    let run := turn.run.poll x i
    let resting := if run.gaveWay i then i :: turn.resting else turn.resting
    let known := rest ++ turn.woken ++ resting
    pollWoken x rest { run, woken := turn.woken ++ run.admitted.filter (· ∉ known), resting }

/-- One round. -/
def next (x : Execution) (turn : Turn) : Turn :=
  if !turn.run.isCrowd x.plan.kind then turn.pollAll x
  else if turn.woken.isEmpty then pollWoken x turn.resting { turn with resting := [] }
  else pollWoken x turn.woken { turn with woken := [] }

/-- Goes on in rounds until a round makes no progress. -/
def settle (x : Execution) (turn : Turn) : Run :=
  let next := turn.next x
  if next.run.waiting < turn.run.waiting then next.settle x
  else if next.run.waiting = turn.run.waiting ∧ next.run.size < turn.run.size then next.settle x
  else next.run
termination_by (turn.run.waiting, turn.run.size)
decreasing_by
  · exact Prod.Lex.left _ _ ‹_›
  · next h =>
    rw [h.1]
    exact Prod.Lex.right _ h.2

end Turn

namespace Execution

/-- The root fields of a query or mutation, once the guards on the whole plan are passed. -/
def rootFields (x : Execution) : Except ResponseError (List FieldPlan) := do
  x.checkPlanDepth
  let fields ← x.collect x.plan.selection none
  x.checkAliases 0 fields
  return fields

/-- Executes a query or mutation. -/
def execute (x : Execution) (state : ExecutionState) : Except Breakdown Response × ExecutionState :=
  match x.rootFields with
  | .error e => (.ok (Response.ofError e), state)
  | .ok fields =>
    let start : Run := { tasks := fields.map fun field => (field, .fresh), state }
    let run := Turn.settle x { run := start, woken := List.range fields.length }
    (respond run.data run.state.errors, run.state)

end Execution

end GraphQL
