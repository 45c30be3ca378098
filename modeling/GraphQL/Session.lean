import GraphQL.Connection
import GraphQL.Subscription

/-!
# Sessions

A session is one client at work with a schema: it holds named streams and at most one connection.
Every stream has a number of its own. Between the requests of a session the feeders of all streams run
until each has to wait.
-/

namespace GraphQL

/-- The place of a stream in a connection: the number of the connection, and the id. -/
structure Registration where
  connection : Nat
  id : String
deriving DecidableEq, Repr

/-- A stream that the client reads. -/
structure ClientStream where
  number : Nat
  registration : Option Registration
  stream : ResponseStream

structure Session where
  schema : Schema
  streams : Entries ClientStream := []
  connection : Option (Nat × Connection) := none
  /-- The number of the next stream or connection. -/
  next : Nat := 0
  /-- What resolvers noted since it was last asked for. -/
  journal : List JournalEntry := []

abbrev SessionM := StateM Session

namespace Session

/-- A computation on the schema. -/
def onSchema {α : Type} (f : SchemaM α) : SessionM α := do
  let s ← get
  let (a, schema) := f.run s.schema
  set { s with schema }
  return a

def fresh : SessionM Nat := modifyGet fun s => (s.next, { s with next := s.next + 1 })

/-- Takes over what a request noted. -/
def noteJournal (entries : List JournalEntry) : SessionM Unit :=
  modify fun s => { s with journal := s.journal ++ entries }

/-- What was noted since this was last asked. -/
def takeJournal : SessionM (List JournalEntry) := modifyGet fun s => (s.journal, { s with journal := [] })

/-- Runs the feeders of streams. -/
def feedStreams : Entries ClientStream → SchemaM (Entries ClientStream)
  | [] => return []
  | (name, client) :: rest => return (name, { client with stream := ← client.stream.feed }) :: (← feedStreams rest)

/-- Runs all feeders until each has to wait. -/
def settle : SessionM Unit := do
  let streams ← onSchema (feedStreams (← get).streams)
  modify fun s => { s with streams }

/-- Cancels the streams that satisfy a condition. -/
def cancelStreams (which : ClientStream → Bool) : SessionM Unit :=
  modify fun s =>
    { s with
      streams := s.streams.map fun (name, client) =>
        (name, if which client then { client with stream := client.stream.cancel } else client) }

/-- Changes the connection of a number, if it is still there. -/
def onConnection (number : Nat) (f : Connection → Connection) : SessionM Unit :=
  modify fun s =>
    match s.connection with
    | some (current, connection) =>
      if current = number then { s with connection := some (current, f connection) } else s
    | none => s

/-- Forgets the place of a stream that has ended or been dropped. -/
def release (client : ClientStream) : SessionM Unit :=
  match client.registration with
  | some registration => onConnection registration.connection (·.release registration.id client.number)
  | none => return ()

/-- Gives a stream a name; a stream that had it is dropped. -/
def keepStream (name : String) (client : ClientStream) : SessionM Unit := do
  let replaced := Entries.find? name (← get).streams
  modify fun s => { s with streams := Entries.erase name s.streams ++ [(name, client)] }
  if let some client := replaced then release client

/-- Drops a stream; whether there was one. -/
def dropStream (name : String) : SessionM Bool := do
  match Entries.find? name (← get).streams with
  | none => return false
  | some client => do
    modify fun s => { s with streams := Entries.erase name s.streams }
    release client
    return true

/-- Cancels the stream of a name, unless it was started through a connection. -/
def cancelStream (name : String) : SessionM Unit := do
  if let some client := Entries.find? name (← get).streams then
    cancelStreams fun other => other.number = client.number && client.registration.isNone

/-! ## Requests -/

/-- Executes a query or mutation. -/
def execute (request : Request) (cancelled : Bool) : SessionM (Except Breakdown Response) := do
  let finished ← onSchema (Schema.execute request cancelled)
  noteJournal finished.journal
  return finished.result

/-- Executes a query or mutation given as texts. -/
def executeText (query variableText : String) (cancelled : Bool) :
    SessionM (Except RequestError (Except Breakdown Response)) := do
  match ← onSchema (Schema.executeText query variableText cancelled) with
  | .error e => return .error e
  | .ok finished => do
    noteJournal finished.journal
    return .ok finished.result

/-- Opens a subscription as a stream that is not yet kept. -/
def openStream (request : Request) (cancelled : Bool) (registration : Option Registration) :
    SessionM (Except Breakdown (Except ResponseError ClientStream)) := do
  let number ← fresh
  let finished ← onSchema (Schema.subscribe request cancelled)
  noteJournal finished.journal
  match finished.result with
  | .error b => return .error b
  | .ok (.error e) => return .ok (.error e)
  | .ok (.ok opened) => do
    let capacity := (← get).schema.config.memory.subscriptionBufferSize
    return .ok (.ok { number, registration, stream := .ofOpened opened capacity finished.cancelled })

/-- Starts a subscription as a stream of a name. -/
def subscribe (name : String) (request : Request) (cancelled : Bool) :
    SessionM (Except Breakdown (Except ResponseError Unit)) := do
  match ← openStream request cancelled none with
  | .error b => return .error b
  | .ok (.error e) => return .ok (.error e)
  | .ok (.ok client) => do
    keepStream name client
    return .ok (.ok ())

/-- Starts a subscription given as texts. -/
def subscribeText (name query variableText : String) (cancelled : Bool) :
    SessionM (Except Breakdown (Except RequestError Unit)) := do
  match Request.ofTexts (← get).schema.config.memory query variableText with
  | .error e => return .ok (.error e)
  | .ok request => return (← subscribe name request cancelled).map (·.mapError .rejected)

/-- Reads up to `count` responses of a stream, whose end gives its place back. -/
def read (name : String) : Nat → SessionM (List Delivery)
  | 0 => return []
  | count + 1 => do
    match Entries.find? name (← get).streams with
    | none => return []
    | some client => do
      let (delivery, stream) := client.stream.receive
      modify fun s => { s with streams := Entries.insert name { client with stream } s.streams }
      settle
      match delivery with
      | .response _ => return delivery :: (← read name count)
      | .pending => return [delivery]
      | .finished => do
        release client
        return [delivery]

/-! ## Connections -/

/-- Leaves the connection, whose streams are cancelled; whether there was one. -/
def disconnect : SessionM Bool := do
  match (← get).connection with
  | none => return false
  | some (number, _) => do
    modify fun s => { s with connection := none }
    cancelStreams fun client => client.registration.any (·.connection = number)
    return true

/-- Makes a new connection in place of any other. -/
def connect : SessionM Unit := do
  let _ ← disconnect
  let number ← fresh
  modify fun s =>
    { s with connection := some (number, { quota := s.schema.config.memory.maxSubscriptionsPerConnection }) }

/-- Starts a subscription under an id of the connection, as a stream of a name. A subscription that
runs under the id is cancelled once the new one has started. -/
def connectionSubscribe (name id : String) (request : Request) :
    SessionM (Option (Except Breakdown (Except ResponseError Unit))) := do
  match (← get).connection with
  | none => return none
  | some (number, connection) =>
    match connection.checkQuota id with
    | .error e => return some (.ok (.error e))
    | .ok () =>
      match ← openStream request connection.closed (some ⟨number, id⟩) with
      | .error b => return some (.error b)
      | .ok (.error e) => return some (.ok (.error e))
      | .ok (.ok client) =>
        match connection.enter id client.number with
        | .error e => return some (.ok (.error e))
        | .ok (connection, replaced) => do
          modify fun s => { s with connection := some (number, connection) }
          cancelStreams fun other => some other.number = replaced
          keepStream name client
          return some (.ok (.ok ()))

/-- Stops the subscription of an id; whether there was one. -/
def connectionStop (id : String) : SessionM (Option Bool) := do
  match (← get).connection with
  | none => return none
  | some (number, connection) => do
    let (connection, stopped) := connection.stop id
    modify fun s => { s with connection := some (number, connection) }
    cancelStreams fun client => some client.number = stopped
    return some stopped.isSome

/-- The number of subscriptions that the connection knows of. -/
def connectionActive : SessionM (Option Nat) := do
  return (← get).connection.map fun (_, connection) => connection.active.length

/-- Closes the connection and cancels all of its streams. -/
def connectionClose : SessionM Unit := do
  if let some (number, connection) := (← get).connection then
    modify fun s => { s with connection := some (number, connection.close) }
    cancelStreams fun client => client.registration.any (·.connection = number)

end Session

end GraphQL
