import GraphQL.Entries
import GraphQL.Error

/-!
# Connections

The subscriptions of a client connection by the ids that the client gives them, each with the number
of its stream. Starting under the id of a running subscription replaces it, and a replaced stream has
no say any more in what its id stands for. How many may run at once can be limited.
-/

namespace GraphQL

structure Connection where
  /-- The greatest number of subscriptions; zero means any number. -/
  quota : Nat
  active : Entries Nat := []
  /-- A closed connection accepts subscriptions, but they are cancelled from the start. -/
  closed : Bool := false
deriving Repr

namespace Connection

/-- Whether a subscription may start under an id. Replacing one takes no further place. -/
def checkQuota (connection : Connection) (id : String) : Except ResponseError Unit :=
  let isFull := connection.quota > 0 && connection.active.length ≥ connection.quota
  if isFull && !Entries.contains id connection.active then
    .error
      { message := s!"connection exceeds maximum allowed subscriptions of {connection.quota}"
        code := .limitExceeded }
  else .ok ()

/-- Enters a stream that has started under an id, with the number of the stream that it replaces. -/
def enter (connection : Connection) (id : String) (stream : Nat) :
    Except ResponseError (Connection × Option Nat) := do
  connection.checkQuota id
  return ({ connection with active := Entries.insert id stream connection.active }, Entries.find? id connection.active)

/-- Removes an id, with the number of its stream. -/
def stop (connection : Connection) (id : String) : Connection × Option Nat :=
  ({ connection with active := Entries.erase id connection.active }, Entries.find? id connection.active)

/-- Forgets a stream that has ended or been dropped, unless its id stands for another by now. -/
def release (connection : Connection) (id : String) (stream : Nat) : Connection :=
  if Entries.find? id connection.active = some stream then
    { connection with active := Entries.erase id connection.active }
  else connection

def close (connection : Connection) : Connection := { connection with active := [], closed := true }

end Connection

end GraphQL
