import GraphQL.Schema

/-!
# Subscriptions

A started subscription is a stream of responses that a feeder fills while a reader empties it. The
feeder takes an event, executes it, and waits until the buffer has room for the response.
`ResponseStream.step` is one step of the feeder and `ResponseStream.receive` one of the reader; in
between the subscription may be cancelled. After that the feeder takes no further event, but what it
has executed is still delivered.
-/

namespace GraphQL

structure ResponseStream where
  plan : Plan
  variableValues : Variables
  /-- The events that the feeder has not taken. -/
  events : List Resolved
  /-- Whether the source stays open after its last event. -/
  staysOpen : Bool
  /-- The responses that the buffer holds at most; zero means any number. -/
  capacity : Nat
  buffer : List Response := []
  /-- The response that the feeder is waiting to put into the buffer. -/
  unsent : Option Response := none
  /-- Whether the feeder is still running. -/
  running : Bool := true
  cancelled : Bool

/-- What a reader gets from a stream. -/
inductive Delivery where
  | response (r : Response)
  /-- Nothing yet. -/
  | pending
  | finished

namespace ResponseStream

/-- The stream of a subscription that has been opened. -/
def ofOpened (opened : Schema.Opened) (capacity : Nat) (cancelled : Bool) : ResponseStream :=
  { plan := opened.plan, variableValues := opened.variableValues, events := opened.source.events
    staysOpen := opened.source.staysOpen, capacity, cancelled }

def hasRoom (stream : ResponseStream) : Bool := stream.capacity = 0 || stream.buffer.length < stream.capacity

/-- Ends the feeder. -/
def stop (stream : ResponseStream) : ResponseStream := { stream with running := false }

/-- One step of the feeder, or `none` when it has to wait or is done. A crash ends it. -/
def step (stream : ResponseStream) : SchemaM (Option ResponseStream) :=
  if !stream.running then return none
  else
    match stream.unsent, stream.events with
    | some response, _ =>
      return if stream.hasRoom then some { stream with buffer := stream.buffer ++ [response], unsent := none } else none
    | none, event :: rest =>
      if stream.cancelled then return some stream.stop
      else do
        match ← Schema.executeEvent stream.plan stream.variableValues false event with
        | .ok response => return some { stream with events := rest, unsent := some response }
        | .error _ => return some stream.stop
    | none, [] => return if stream.cancelled || !stream.staysOpen then some stream.stop else none

/-- A bound on the steps of the feeder that are left. -/
def stepsLeft (stream : ResponseStream) : Nat :=
  2 * stream.events.length + (if stream.unsent.isSome then 1 else 0) + (if stream.running then 1 else 0)

/-- Runs the feeder until it has to wait or is done. -/
def feed (stream : ResponseStream) : SchemaM ResponseStream := do
  match ← stream.step with
  | none => return stream
  | some next => if next.stepsLeft < stream.stepsLeft then next.feed else return next
termination_by stream.stepsLeft

/-- Takes the next response out of the buffer. -/
def receive (stream : ResponseStream) : Delivery × ResponseStream :=
  match stream.buffer with
  | response :: rest => (.response response, { stream with buffer := rest })
  | [] => (if stream.running then .pending else .finished, stream)

def cancel (stream : ResponseStream) : ResponseStream := { stream with cancelled := true }

end ResponseStream

end GraphQL
