import GraphQL.Host.Value

/-!
# The work of resolvers

A resolver is called with its arguments and starts a `Work`: a finite program of steps that may give
way to others, leave an entry in the journal, cancel the request, wait until it is cancelled, or ask
whether it is. The work ends with a result, an error or a panic.
-/

namespace GraphQL

/-- A trace that a resolver leaves: a label and the arguments it was called with. -/
structure JournalEntry where
  label : String
  arguments : List Const
deriving Repr

inductive Work (α : Type) where
  | done (result : Except Failure α)
  /-- Gives way to the other work of the request. -/
  | pause (next : Work α)
  | record (entry : JournalEntry) (next : Work α)
  /-- Cancels the request. -/
  | cancel (next : Work α)
  /-- Waits until the request is cancelled. -/
  | awaitCancel (next : Work α)
  /-- Goes on according to whether the request is cancelled. -/
  | askCancelled (next : Bool → Work α)

namespace Work

variable {α : Type}

/-- A bound on the steps left. -/
def size : Work α → Nat
  | done _ => 0
  | pause next | record _ next | cancel next | awaitCancel next => next.size + 1
  | askCancelled next => max (next true).size (next false).size + 1

end Work

/-- A resolver: the call may panic before there is any work. -/
abbrev Resolver (α : Type) := List Resolved → Except String (Work α)

/-- What a subscription resolver returns: the events to come, and whether the source stays open after them. -/
structure EventSource where
  events : List Resolved
  staysOpen : Bool

end GraphQL
