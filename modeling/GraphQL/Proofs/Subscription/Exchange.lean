import GraphQL.Proofs.Schema.Calls
import GraphQL.Proofs.Subscription.Ledger
import GraphQL.Session

/-!
# Subscribing side by side

A subscription is started on a connection in three steps: there has to be room, then the subscription is opened, which
takes as long as its resolver likes, and then its stream is entered, if there is still room. When several calls are made
side by side their steps interleave, with each other and with all else that goes on: feeders work, readers read,
streams end or are dropped, and subscriptions are stopped or the connection is closed.

A call that is left alone is `Session.connectionSubscribe`, and a feeder that is not cancelled while it executes an
event takes the steps of `ResponseStream.step`.
-/

namespace GraphQL

/-! ## Calls -/

def ClientStream.cancel (client : ClientStream) : ClientStream := { client with stream := client.stream.cancel }

namespace Session

/-- Whether the subscriptions of the connection are cancelled from the start. -/
def isClosed (s : Session) : Bool := s.connection.all fun (_, connection) => connection.closed

/-- What the connection knows of. -/
def active (s : Session) : Entries Nat := (s.connection.map fun (_, connection) => connection.active).getD []

/-- Gives a stream to the client that was entered, and cancels the one that it replaces. -/
def keepEntered (name : String) (client : ClientStream) (number : Nat) (connection : Connection)
    (replaced : Option Nat) : SessionM Unit := do
  modify fun s => { s with connection := some (number, connection) }
  cancelStreams fun other => some other.number = replaced
  keepStream name client

end Session

/-- How far a call has come that starts a subscription on a connection. -/
inductive SubscriptionStage where
  | requested (name id : String) (request : Request)
  /-- There is room, and the stream will have this number. -/
  | admitted (name : String) (place : Registration) (request : Request) (number : Nat)
  | opened (name : String) (place : Registration) (client : ClientStream)
  | entered (number : Nat)
  | refused (e : ResponseError)
  | broken (b : Breakdown)
  | unconnected

namespace SubscriptionStage

/-- The stream of a call that has opened its subscription. -/
def client? : SubscriptionStage → Option ClientStream
  | opened _ _ client => some client
  | _ => none

/-- The number that a call has drawn and not yet used. -/
def number? : SubscriptionStage → Option Nat
  | admitted _ _ _ number => some number
  | opened _ _ client => some client.number
  | _ => none

/-- The number that a call has drawn for a stream that is not there yet. -/
def awaits? : SubscriptionStage → Option Nat
  | admitted _ _ _ number => some number
  | _ => none

/-- What a call answers at its end. -/
def answer? : SubscriptionStage → Option (Option (Except Breakdown (Except ResponseError Unit)))
  | entered _ => some (some (.ok (.ok ())))
  | refused e => some (some (.ok (.error e)))
  | broken b => some (some (.error b))
  | unconnected => some none
  | _ => none

/-- A change of the stream of a call, if it has one. -/
def onClient (f : ClientStream → ClientStream) : SubscriptionStage → SubscriptionStage
  | opened name place client => opened name place (f client)
  | stage => stage

/-- What a call enters in a step. -/
def entry? : SubscriptionStage → SubscriptionStage → Option Entered
  | opened _ place client, entered _ => some ⟨place.id, client.number, client.stream.cancelled⟩
  | _, _ => none

/-- Goes on once the subscription was opened, or was not. A connection that has been closed meanwhile has cancelled it. -/
def answered (name : String) (place : Registration) (number : Nat)
    (finished : Schema.Finished (Except ResponseError Schema.Opened)) : SessionM SubscriptionStage := do
  Session.noteJournal finished.journal
  match finished.result with
  | .error b => return broken b
  | .ok (.error e) => return refused e
  | .ok (.ok source) => do
    let s ← get
    let capacity := s.schema.config.memory.subscriptionBufferSize
    let stream := .ofOpened source capacity (finished.cancelled || s.isClosed)
    return opened name place { number, registration := some place, stream }

/-- Enters the stream of a subscription, which cancels the one that has its id, and gives it to the client. -/
def enter (name : String) (place : Registration) (client : ClientStream) : SessionM SubscriptionStage := do
  match (← get).connection with
  | none => return unconnected
  | some (number, connection) =>
    match connection.enter place.id client.number with
    | .error e => return refused e
    | .ok (connection, replaced) => do
      Session.keepEntered name client number connection replaced
      return entered client.number

/-- One step of a call. -/
def step : SubscriptionStage → SessionM SubscriptionStage
  | requested name id request => do
    match (← get).connection with
    | none => return unconnected
    | some (connectionNumber, connection) =>
      match connection.checkQuota id with
      | .error e => return refused e
      | .ok () => return admitted name ⟨connectionNumber, id⟩ request (← Session.fresh)
  | admitted name place request number => do
    let finished ← Session.onSchema (Schema.subscribe request (← get).isClosed)
    answered name place number finished
  | opened name place client => enter name place client
  | stage => return stage

/-- The steps of a call without others in between. -/
def alone (stage : SubscriptionStage) : SessionM SubscriptionStage := do
  let second ← stage.step
  let third ← second.step
  third.step

end SubscriptionStage

/-! ### Calls that are left alone -/

namespace Session

theorem run_bind {α β : Type} (m : SessionM α) (g : α → SessionM β) (s : Session) :
    (m >>= g).run s = (g (m.run s).1).run (m.run s).2 := rfl

theorem run_get_bind {α : Type} (g : Session → SessionM α) (s : Session) : (get >>= g).run s = (g s).run s := rfl

theorem run_bind_of {α β : Type} {m : SessionM α} {s t : Session} {a : α} (ran : m.run s = (a, t)) (g : α → SessionM β) :
    (m >>= g).run s = (g a).run t := by
  rw [run_bind, ran]

theorem run_onSchema {α : Type} (f : SchemaM α) (s : Session) :
    (onSchema f).run s = ((f.run s.schema).1, { s with schema := (f.run s.schema).2 }) := rfl

/-- What becomes of a subscription that was opened, or was not. -/
def taking (number : Nat) (registration : Option Registration) (cancelled : Bool) (s : Session)
    (finished : Schema.Finished (Except ResponseError Schema.Opened)) :
    Except Breakdown (Except ResponseError ClientStream) × Session :=
  (finished.result.map (·.map fun source =>
    { number, registration
      stream := .ofOpened source s.schema.config.memory.subscriptionBufferSize cancelled }),
    { s with journal := s.journal ++ finished.journal })

theorem run_openStream {s : Session} {request : Request} {cancelled : Bool} {registration : Option Registration}
    {finished : Schema.Finished (Except ResponseError Schema.Opened)} {schema : Schema}
    (ran : (Schema.subscribe request cancelled).run s.schema = (finished, schema)) :
    (openStream request cancelled registration).run s =
      taking s.next registration finished.cancelled { s with schema, next := s.next + 1 } finished := by
  have begins : (openStream request cancelled registration).run s = _ := Session.run_bind fresh _ s
  rw [begins, show fresh.run s = (s.next, { s with next := s.next + 1 }) from rfl, run_bind, run_onSchema]
  dsimp only
  rw [ran]
  obtain ⟨result, journal, cancelled⟩ := finished
  rcases result with b | e | source <;> rfl

end Session

namespace ExecM

variable {α β : Type}

/-- A request that was cancelled stays so. -/
def Lasting (m : ExecM α) : Prop := ∀ s, s.cancelled = true → (outcome m s).2.cancelled = true

theorem lasting_pure (a : α) : Lasting (pure a) := fun _ cancelled => cancelled

theorem lasting_throw (abort : Abort) : Lasting (throw abort : ExecM α) := fun _ cancelled => cancelled

theorem lasting_ofExcept (result : Except ResponseError α) : Lasting (ofExcept result) := by
  cases result with
  | ok a => exact lasting_pure a
  | error e => exact lasting_throw (.error e)

theorem Lasting.bind {m : ExecM α} {f : α → ExecM β} (first : Lasting m) (next : ∀ a, Lasting (f a)) :
    Lasting (m >>= f) := by
  intro s cancelled
  have after := first s cancelled
  rw [outcome_bind]
  cases ran : outcome m s with
  | mk result t =>
    rw [ran] at after
    cases result with
    | error abort => exact after
    | ok a => exact next a t after

end ExecM

theorem Work.finish_lasting {α : Type} (work : Work α) : ExecM.Lasting work.finish := by
  induction work with
  | done result => exact ExecM.lasting_pure result
  | pause next ih => exact ih
  | record entry next ih => exact fun s cancelled => ih { s with journal := s.journal ++ [entry] } cancelled
  | cancel next ih => exact fun s _ => ih { s with cancelled := true } rfl
  | awaitCancel next ih =>
    intro s cancelled
    rw [Work.finish, outcome_bind, outcome_get]
    simp only [cancelled, if_true]
    exact ih s cancelled
  | askCancelled next ih => exact fun s cancelled => ih s.cancelled s cancelled

namespace Execution

variable {x : Execution}

theorem openSource_lasting (field : FieldPlan) (operation : OperationDescriptor) (resolver : Resolver EventSource) :
    ExecM.Lasting (x.openSource field operation resolver) := by
  have read : ExecM.Lasting (ExecM.onRegistry (operation.parseArguments x.inputContext field.arguments).run) :=
    fun _ cancelled => cancelled
  refine read.bind fun result => ?_
  cases result with
  | error failure => cases failure <;> exact ExecM.lasting_throw _
  | ok arguments =>
    refine ExecM.Lasting.bind (fun _ cancelled => cancelled) fun _ => ?_
    split
    · exact ExecM.lasting_throw _
    · refine (Work.finish_lasting _).bind fun result => ?_
      cases result with
      | error failure => cases failure <;> exact ExecM.lasting_throw _
      | ok source => exact ExecM.lasting_pure source

theorem subscribe_lasting : ExecM.Lasting x.subscribe := by
  refine (ExecM.lasting_ofExcept _).bind fun _ => (ExecM.lasting_ofExcept _).bind fun fields => ?_
  cases fields with
  | nil => exact ExecM.lasting_throw _
  | cons field rest =>
    have counted : ExecM.Lasting (ExecM.addComplexity x.limits field) := fun s cancelled =>
      ExecM.lasting_ofExcept (field.guard (x.limits.checkComplexity (saturatingAdd s.complexity field.complexity)))
        { s with complexity := saturatingAdd s.complexity field.complexity } cancelled
    refine (ExecM.lasting_ofExcept _).bind fun _ => (ExecM.lasting_ofExcept _).bind fun _ => counted.bind fun _ => ?_
    split
    · split
      · exact openSource_lasting _ _ _
      · exact ExecM.lasting_throw _
    · exact ExecM.lasting_throw _

end Execution

/-- A subscription that is opened under a token that was cancelled is cancelled. -/
theorem Schema.cancelled_subscribe {request : Request} {cancelled : Bool} {s t : Schema}
    {finished : Schema.Finished (Except ResponseError Schema.Opened)}
    (ran : (Schema.subscribe request cancelled).run s = (finished, t)) :
    (finished.cancelled || cancelled) = finished.cancelled := by
  cases cancelled with
  | false => exact Bool.or_false _
  | true =>
    have begins : (Schema.subscribe request true).run s = _ := Schema.run_bind (planFor request _ _) _ s
    rw [begins] at ran
    generalize (planFor request "subscription" _).run s = planned at ran
    obtain ⟨result, u⟩ := planned
    have late : finished.cancelled = true := by
      cases result with
      | error e =>
        cases ran
        rfl
      | ok plan =>
        obtain ⟨plan, values⟩ := plan
        cases ran
        exact Execution.subscribe_lasting (x := u.execution plan values) (u.initialState true) rfl
    rw [late, Bool.true_or]

namespace SubscriptionStage

variable {s : Session} {name key : String} {place : Registration} {request : Request} {client : ClientStream}
  {number : Nat} {connection : Connection} {e : ResponseError}

theorem run_requested_unconnected (none : s.connection = none) :
    (requested name key request).step.run s = (unconnected, s) := by
  have begins : (requested name key request).step.run s = _ := Session.run_get_bind _ s
  rw [begins, none]
  rfl

theorem run_requested_full (connected : s.connection = some (number, connection))
    (full : connection.checkQuota key = .error e) : (requested name key request).step.run s = (refused e, s) := by
  have begins : (requested name key request).step.run s = _ := Session.run_get_bind _ s
  rw [begins, connected]
  dsimp only
  rw [full]
  rfl

theorem run_requested (connected : s.connection = some (number, connection))
    (room : connection.checkQuota key = .ok ()) :
    (requested name key request).step.run s =
      (admitted name ⟨number, key⟩ request s.next, { s with next := s.next + 1 }) := by
  obtain ⟨schema, streams, current, next, journal⟩ := s
  cases (show current = some (number, connection) from connected)
  have begins : (requested name key request).step.run ⟨schema, streams, some (number, connection), next, journal⟩ = _ :=
    Session.run_get_bind _ _
  rw [begins]
  dsimp only
  rw [room]
  rfl

theorem run_admitted {finished : Schema.Finished (Except ResponseError Schema.Opened)} {schema : Schema}
    (ran : (Schema.subscribe request s.isClosed).run s.schema = (finished, schema)) :
    (admitted name place request number).step.run s = (answered name place number finished).run { s with schema } := by
  have begins : (admitted name place request number).step.run s = _ := Session.run_get_bind _ s
  rw [begins, Session.run_bind, Session.run_onSchema, ran]

theorem run_opened_unconnected (none : s.connection = none) :
    (opened name place client).step.run s = (unconnected, s) := by
  have begins : (opened name place client).step.run s = _ := Session.run_get_bind _ s
  rw [begins, none]
  rfl

theorem run_opened_full (connected : s.connection = some (number, connection))
    (full : connection.checkQuota place.id = .error e) : (opened name place client).step.run s = (refused e, s) := by
  have begins : (opened name place client).step.run s = _ := Session.run_get_bind _ s
  rw [begins, connected]
  dsimp only
  rw [Connection.enter, full]
  rfl

theorem run_opened (connected : s.connection = some (number, connection))
    (room : connection.checkQuota place.id = .ok ()) :
    (opened name place client).step.run s =
      (entered client.number, ((Session.keepEntered name client number
        { connection with active := Entries.insert place.id client.number connection.active }
        (Entries.find? place.id connection.active)).run s).2) := by
  have begins : (opened name place client).step.run s = _ := Session.run_get_bind _ s
  rw [begins, connected]
  dsimp only
  rw [Connection.enter, room]
  rfl

theorem run_alone (stage : SubscriptionStage) (s : Session) :
    stage.alone.run s = ((stage.step.run s).1.step.run (stage.step.run s).2).1.step.run
      ((stage.step.run s).1.step.run (stage.step.run s).2).2 := rfl

/-- A call that is left alone. -/
theorem alone_requested (name key : String) (request : Request) (s : Session) :
    ((requested name key request).alone.run s).map answer? id =
      ((Session.connectionSubscribe name key request).run s).map some id := by
  have begins : (Session.connectionSubscribe name key request).run s = _ := Session.run_get_bind _ s
  rw [begins]
  cases connected : s.connection with
  | none =>
    rw [run_alone, run_requested_unconnected connected]
    rfl
  | some current =>
    obtain ⟨number, connection⟩ := current
    dsimp only
    cases room : connection.checkQuota key with
    | error e =>
      rw [run_alone, run_requested_full connected room]
      rfl
    | ok _ =>
      cases ran : (Schema.subscribe request connection.closed).run s.schema with
      | mk finished schema =>
        let t : Session := { s with schema, next := s.next + 1 }
        have closed : t.isClosed = connection.closed := by simp [t, Session.isClosed, connected]
        have cancelled : (finished.cancelled || t.isClosed) = finished.cancelled :=
          (congrArg (finished.cancelled || ·) closed).trans (Schema.cancelled_subscribe ran)
        have second : (admitted name ⟨number, key⟩ request s.next).step.run { s with next := s.next + 1 } =
            (answered name ⟨number, key⟩ s.next finished).run t :=
          run_admitted ((congrArg (fun c => (Schema.subscribe request c).run s.schema) closed).trans ran)
        rw [Session.run_bind_of (Session.run_openStream ran), run_alone, run_requested connected room]
        dsimp only
        rw [second]
        obtain ⟨result, journal, cut⟩ := finished
        rcases result with b | e | source
        · rfl
        · rfl
        · let client (cancelled : Bool) : ClientStream :=
            { number := s.next, registration := some ⟨number, key⟩
              stream := .ofOpened source schema.config.memory.subscriptionBufferSize cancelled }
          change ((opened name ⟨number, key⟩ (client (cut || t.isClosed))).step.run
            { t with journal := s.journal ++ journal }).map answer? id = _
          rw [show (cut || t.isClosed) = cut from cancelled,
            run_opened (s := { t with journal := s.journal ++ journal }) connected room]
          dsimp only [Session.taking, Except.map]
          rw [Connection.enter, room]
          rfl

/-! ### One step of a call -/

/-- A call that has come to nothing. -/
def hasFailed : SubscriptionStage → Bool
  | refused _ | broken _ | unconnected => true
  | _ => false

/-- What a call does in a step. -/
inductive Steps (s : Session) : SubscriptionStage → SubscriptionStage → Session → Prop
  | admits {number : Nat} {connection : Connection} {name key : String} (request : Request)
      (connected : s.connection = some (number, connection)) (room : connection.checkQuota key = .ok ()) :
    Steps s (requested name key request) (admitted name ⟨number, key⟩ request s.next) { s with next := s.next + 1 }
  | opens {name : String} {place : Registration} {request : Request} {number capacity : Nat} {cancelled : Bool}
      (source : Schema.Opened) (late : s.isClosed = true → cancelled = true) (schema : Schema)
      (journal : List JournalEntry) :
    Steps s (admitted name place request number)
      (opened name place ⟨number, some place, .ofOpened source capacity cancelled⟩) { s with schema, journal }
  | enters {number : Nat} {connection : Connection} {name : String} {place : Registration} {client : ClientStream}
      (connected : s.connection = some (number, connection)) (room : connection.checkQuota place.id = .ok ()) :
    Steps s (opened name place client) (entered client.number)
      ((Session.keepEntered name client number
        { connection with active := Entries.insert place.id client.number connection.active }
        (Entries.find? place.id connection.active)).run s).2
  | fails {stage next : SubscriptionStage} (ongoing : stage.answer? = none) (failed : next.hasFailed = true)
      (schema : Schema) (journal : List JournalEntry) : Steps s stage next { s with schema, journal }
  | rests {stage : SubscriptionStage} (done : stage.answer?.isSome = true) : Steps s stage stage s

theorem steps_answered (name : String) (place : Registration) (request : Request) (number : Nat)
    (finished : Schema.Finished (Except ResponseError Schema.Opened)) (schema : Schema) (s : Session) :
    Steps s (admitted name place request number) ((answered name place number finished).run { s with schema }).1
      ((answered name place number finished).run { s with schema }).2 := by
  obtain ⟨result, journal, cancelled⟩ := finished
  rcases result with b | e | source
  · exact .fails rfl rfl schema (s.journal ++ journal)
  · exact .fails rfl rfl schema (s.journal ++ journal)
  · refine .opens source (fun closed => ?_) schema (s.journal ++ journal)
    exact (congrArg (cancelled || ·) closed).trans (Bool.or_true _)

theorem steps_step (stage : SubscriptionStage) (s : Session) : Steps s stage (stage.step.run s).1 (stage.step.run s).2 := by
  cases stage with
  | requested name key request =>
    cases connected : s.connection with
    | none =>
      rw [run_requested_unconnected connected]
      exact .fails rfl rfl s.schema s.journal
    | some current =>
      obtain ⟨number, connection⟩ := current
      cases room : connection.checkQuota key with
      | error e =>
        rw [run_requested_full connected room]
        exact .fails rfl rfl s.schema s.journal
      | ok _ =>
        rw [run_requested connected room]
        exact .admits request connected room
  | admitted name place request number =>
    rw [run_admitted rfl]
    exact steps_answered name place request number _ _ s
  | opened name place client =>
    cases connected : s.connection with
    | none =>
      rw [run_opened_unconnected connected]
      exact .fails rfl rfl s.schema s.journal
    | some current =>
      obtain ⟨number, connection⟩ := current
      cases room : connection.checkQuota place.id with
      | error e =>
        rw [run_opened_full connected room]
        exact .fails rfl rfl s.schema s.journal
      | ok _ =>
        rw [run_opened connected room]
        exact .enters connected room
  | _ => exact .rests rfl

end SubscriptionStage

/-! ## Feeders -/

/-- A step of a feeder that may be cancelled while it executes an event: what it has executed is in hand until it has
looked at the cancellation again. -/
def ResponseStream.work (stream : ResponseStream) (inHand : Option (Except Breakdown Response)) :
    SchemaM (ResponseStream × Option (Except Breakdown Response)) :=
  match inHand with
  | some (.error _) => return (stream.stop, none)
  | some (.ok response) =>
    if stream.cancelled then return (stream.stop, none)
    else return ({ stream with events := stream.events.tail, unsent := some response }, none)
  | none =>
    match stream.running, stream.cancelled, stream.unsent, stream.events with
    | true, false, none, event :: _ => do
      return (stream, some (← Schema.executeEvent stream.plan stream.variableValues false event))
    | _, _, _, _ => return ((← stream.step).getD stream, none)

/-- The work of a feeder until there is nothing in its hand. -/
def ResponseStream.workOut (stream : ResponseStream) : SchemaM ResponseStream := do
  let (stream, inHand) ← stream.work none
  if inHand.isSome then return (← stream.work inHand).1
  return stream

/-- A feeder that is not cancelled while it executes an event. -/
theorem ResponseStream.workOut_eq (stream : ResponseStream) :
    stream.workOut = do return (← stream.step).getD stream := by
  obtain ⟨plan, values, events, staysOpen, capacity, buffer, unsent, running, cancelled⟩ := stream
  cases running
  case false => rfl
  cases cancelled
  case true => rfl
  cases unsent
  case some => rfl
  cases events
  case nil => rfl
  simp only [workOut, work, step, bind_assoc, pure_bind, Bool.not_true, Bool.false_eq_true, if_false]
  refine bind_congr fun result => ?_
  cases result <;> rfl
/-- What a feeder does in a step. -/
inductive ResponseStream.Works (stream : ResponseStream) (s : Schema) :
    Option (Except Breakdown Response) → ResponseStream × Option (Except Breakdown Response) → Schema → Prop
  /-- It is done. -/
  | stopped (stopped : stream.running = false) : Works stream s none (stream, none) s
  | waits {response : Response} (unsent : stream.unsent = some response) (full : stream.hasRoom = false) :
    Works stream s none (stream, none) s
  | idles (uncancelled : stream.cancelled = false) (unsent : stream.unsent = none) (done : stream.events = [])
      (stays : stream.staysOpen = true) : Works stream s none (stream, none) s
  | sends {response : Response} (running : stream.running = true) (unsent : stream.unsent = some response)
      (room : stream.hasRoom = true) :
      Works stream s none ({ stream with buffer := stream.buffer ++ [response], unsent := none }, none) s
  | ends (running : stream.running = true) (unsent : stream.unsent = none)
      (done : stream.cancelled = true ∨ stream.events = [] ∧ stream.staysOpen = false) :
      Works stream s none (stream.stop, none) s
  | executes {event : Resolved} {rest : List Resolved} {result : Except Breakdown Response} {t : Schema}
      (running : stream.running = true) (uncancelled : stream.cancelled = false) (unsent : stream.unsent = none)
      (events : stream.events = event :: rest)
      (ran : (Schema.executeEvent stream.plan stream.variableValues false event).run s = (result, t)) :
      Works stream s none (stream, some result) t
  | breaks (b : Breakdown) : Works stream s (some (.error b)) (stream.stop, none) s
  | discards (response : Response) (cancelled : stream.cancelled = true) :
    Works stream s (some (.ok response)) (stream.stop, none) s
  | takes (response : Response) (uncancelled : stream.cancelled = false) :
    Works stream s (some (.ok response)) ({ stream with events := stream.events.tail, unsent := some response }, none) s

theorem ResponseStream.works_work (stream : ResponseStream) (s : Schema) (inHand : Option (Except Breakdown Response)) :
    stream.Works s inHand ((stream.work inHand).run s).1 ((stream.work inHand).run s).2 := by
  rcases inHand with _ | b | response
  case some.error => exact .breaks b
  case some.ok =>
    cases cancelled : stream.cancelled with
    | true =>
      have worked : stream.work (some (.ok response)) = pure (stream.stop, none) := by simp [work, cancelled]
      rw [worked]
      exact .discards response cancelled
    | false =>
      have worked : stream.work (some (.ok response)) =
          pure ({ stream with events := stream.events.tail, unsent := some response }, none) := by
        simp [work, cancelled]
      rw [worked]
      exact .takes response cancelled
  case none =>
    cases running : stream.running with
    | false =>
      have worked : stream.work none = pure (stream, none) := by simp [work, step, running]
      rw [worked]
      exact .stopped running
    | true =>
      cases unsent : stream.unsent with
      | some response =>
        cases room : stream.hasRoom with
        | false =>
          have worked : stream.work none = pure (stream, none) := by simp [work, step, running, unsent, room]
          rw [worked]
          exact .waits unsent room
        | true =>
          have worked : stream.work none =
              pure ({ stream with buffer := stream.buffer ++ [response], unsent := none }, none) := by
            simp [work, step, running, unsent, room]
          rw [worked]
          exact .sends running unsent room
      | none =>
        cases cancelled : stream.cancelled with
        | true =>
          have worked : stream.work none = pure (stream.stop, none) := by
            cases events : stream.events <;> simp [work, step, running, unsent, cancelled, events]
          rw [worked]
          exact .ends running unsent (Or.inl cancelled)
        | false =>
          cases events : stream.events with
          | cons event rest =>
            have worked : stream.work none =
                (return (stream, some (← Schema.executeEvent stream.plan stream.variableValues false event))) := by
              simp [work, running, unsent, cancelled, events]
            rw [worked]
            exact .executes running cancelled unsent events rfl
          | nil =>
            cases stays : stream.staysOpen with
            | true =>
              have worked : stream.work none = pure (stream, none) := by
                simp [work, step, running, unsent, cancelled, events, stays]
              rw [worked]
              exact .idles cancelled unsent events stays
            | false =>
              have worked : stream.work none = pure (stream.stop, none) := by
                simp [work, step, running, unsent, cancelled, events, stays]
              rw [worked]
              exact .ends running unsent (Or.inr ⟨events, stays⟩)

/-- A feeder does not cancel. -/
theorem ResponseStream.work_cancelled (stream : ResponseStream) (s : Schema) (inHand : Option (Except Breakdown Response)) :
    ((stream.work inHand).run s).1.1.cancelled = stream.cancelled := by
  have works := stream.works_work s inHand
  generalize (stream.work inHand).run s = worked at works
  obtain ⟨⟨stream', inHand'⟩, t⟩ := worked
  cases works <;> rfl

/-! ## Readers -/

/-- A reader takes a response out of the buffer, finds nothing yet, or is at the end. -/
theorem ResponseStream.receive_cases (stream : ResponseStream) :
    (∃ response rest, stream.buffer = response :: rest ∧
      stream.receive = (.response response, { stream with buffer := rest })) ∨
    stream.buffer = [] ∧ stream.running = true ∧ stream.receive = (.pending, stream) ∨
    stream.buffer = [] ∧ stream.running = false ∧ stream.receive = (.finished, stream) := by
  rw [receive]
  cases stream.buffer with
  | cons response rest => exact Or.inl ⟨response, rest, rfl, rfl⟩
  | nil =>
    cases stream.running with
    | true => exact Or.inr (Or.inl ⟨rfl, rfl, rfl⟩)
    | false => exact Or.inr (Or.inr ⟨rfl, rfl, rfl⟩)

/-! ## All that goes on -/

/-- A session at which calls are in progress, with what came of them. -/
structure Exchange where
  session : Session
  /-- The calls that start subscriptions, in the order in which they began. -/
  calls : List SubscriptionStage := []
  /-- What the feeders have in hand, by the numbers of their streams. -/
  inHand : Nat → Option (Except Breakdown Response) := fun _ => none
  /-- The subscriptions that were entered, one after the other. -/
  entered : List Entered := []
  /-- What readers got, with the numbers of the streams. -/
  deliveries : List (Nat × Delivery) := []

/-- What happens next. -/
inductive ExchangeMove where
  /-- A call begins. -/
  | begin (name id : String) (request : Request)
  /-- A call takes its next step. -/
  | step (k : Nat)
  /-- What a call is waiting for comes to anything at all. -/
  | answer (k : Nat) (finished : Schema.Finished (Except ResponseError Schema.Opened))
  /-- The feeder of a stream takes a step. -/
  | feed (number : Nat)
  | receive (name : String)
  | drop (name : String)
  | stop (id : String)
  | close
  /-- A subscription is started without the connection. -/
  | subscribe (name : String) (request : Request) (cancelled : Bool)
  /-- It is cancelled by who started it. -/
  | cancel (name : String)
  /-- Something else is asked of the schema. -/
  | call (other : SchemaCall)

namespace Exchange

/-- A connection that has just been made. -/
def start (schema : Schema) : Exchange := { session := (Session.connect.run { schema }).2 }

/-- The streams that clients have. -/
def kept (t : Exchange) : List ClientStream := t.session.streams.map (·.2)

/-- These and the streams that have been opened and not entered yet. -/
def clients (t : Exchange) : List ClientStream := t.kept ++ t.calls.filterMap (·.client?)

/-- A call goes on to another stage. -/
def advanced (t : Exchange) (k : Nat) (stage next : SubscriptionStage) (session : Session) : Exchange :=
  { t with session, calls := t.calls.set k next, entered := t.entered ++ (stage.entry? next).toList }

/-- A call takes a step. -/
def advance (t : Exchange) (k : Nat) (stage : SubscriptionStage) (step : SessionM SubscriptionStage) : Exchange :=
  t.advanced k stage (step.run t.session).1 (step.run t.session).2

/-- A change of the streams that are in use. -/
def onClients (t : Exchange) (f : ClientStream → ClientStream) : Exchange :=
  { t with
    session := { t.session with streams := t.session.streams.map fun (name, client) => (name, f client) }
    calls := t.calls.map (·.onClient f) }

/-- The feeder of a stream takes a step. -/
def feed (t : Exchange) (client : ClientStream) : Exchange :=
  let ((stream, inHand), schema) := (client.stream.work (t.inHand client.number)).run t.session.schema
  let fed := t.onClients fun other => if other.number = client.number then { other with stream } else other
  { fed with session := { fed.session with schema }, inHand := Function.update t.inHand client.number inHand }

/-- A reader takes the next response of a stream, whose end gives its place back. -/
def receive (t : Exchange) (name : String) (client : ClientStream) : Exchange :=
  let (delivery, stream) := client.stream.receive
  let session := { t.session with streams := Entries.insert name { client with stream } t.session.streams }
  { t with
    session := match delivery with
      | .finished => ((Session.release client).run session).2
      | _ => session
    deliveries := t.deliveries ++ [(client.number, delivery)] }

def after (t : Exchange) : ExchangeMove → Exchange
  | .begin name id request => { t with calls := t.calls ++ [.requested name id request] }
  | .step k =>
    match t.calls[k]? with
    | some stage => t.advance k stage stage.step
    | none => t
  | .answer k finished =>
    match t.calls[k]? with
    | some stage@(.admitted name place _ number) =>
      t.advance k stage (SubscriptionStage.answered name place number finished)
    | _ => t
  | .feed number =>
    match t.clients.find? fun client => client.number = number with
    | some client => t.feed client
    | none => t
  | .receive name =>
    match Entries.find? name t.session.streams with
    | some client => t.receive name client
    | none => t
  | .drop name => { t with session := ((Session.dropStream name).run t.session).2 }
  | .stop id => { t with session := ((Session.connectionStop id).run t.session).2 }
  | .close =>
    { t with
      session := (Session.connectionClose.run t.session).2
      calls := t.calls.map (·.onClient ClientStream.cancel) }
  | .subscribe name request cancelled =>
    { t with session := ((Session.subscribe name request cancelled).run t.session).2 }
  | .cancel name => { t with session := ((Session.cancelStream name).run t.session).2 }
  | .call other => { t with session := { t.session with schema := t.session.schema.after other } }

def afterAll (t : Exchange) (moves : List ExchangeMove) : Exchange := moves.foldl after t

/-- The call whose move it is. -/
def call? (t : Exchange) : ExchangeMove → Option Nat
  | .begin .. => some t.calls.length
  | .step k => some k
  | .answer k _ => some k
  | _ => none

/-- What there may be after a move. -/
inductive Moves (t : Exchange) : ExchangeMove → Exchange → Prop
  | rests (move : ExchangeMove) : Moves t move t
  | begins (name id : String) (request : Request) :
    Moves t (.begin name id request) { t with calls := t.calls ++ [.requested name id request] }
  | advances {move : ExchangeMove} {k : Nat} {stage next : SubscriptionStage} {session : Session}
      (own : t.call? move = some k) (at' : t.calls[k]? = some stage) (steps : stage.Steps t.session next session) :
    Moves t move (t.advanced k stage next session)
  | feeds {client : ClientStream} (mem : client ∈ t.clients) : Moves t (.feed client.number) (t.feed client)
  | receives {name : String} {client : ClientStream} (found : Entries.find? name t.session.streams = some client) :
    Moves t (.receive name) (t.receive name client)
  | drops (name : String) : Moves t (.drop name) { t with session := ((Session.dropStream name).run t.session).2 }
  | stops (id : String) : Moves t (.stop id) { t with session := ((Session.connectionStop id).run t.session).2 }
  | closes : Moves t .close
      { t with
        session := (Session.connectionClose.run t.session).2
        calls := t.calls.map (·.onClient ClientStream.cancel) }
  | subscribes (name : String) (request : Request) (cancelled : Bool) :
    Moves t (.subscribe name request cancelled)
      { t with session := ((Session.subscribe name request cancelled).run t.session).2 }
  | cancels (name : String) : Moves t (.cancel name) { t with session := ((Session.cancelStream name).run t.session).2 }
  | calls (other : SchemaCall) :
    Moves t (.call other) { t with session := { t.session with schema := t.session.schema.after other } }

theorem moves_after (t : Exchange) (move : ExchangeMove) : t.Moves move (t.after move) := by
  cases move with
  | begin name id request => exact .begins name id request
  | step k =>
    rw [after]
    cases at' : t.calls[k]? with
    | none => exact .rests _
    | some stage => exact .advances rfl at' (stage.steps_step t.session)
  | answer k finished =>
    rw [after]
    cases at' : t.calls[k]? with
    | none => exact .rests _
    | some stage =>
      cases stage with
      | admitted name place request number =>
        exact .advances rfl at'
          (SubscriptionStage.steps_answered name place request number finished t.session.schema t.session)
      | _ => exact .rests _
  | feed number =>
    rw [after]
    cases found : t.clients.find? fun client => client.number = number with
    | none => exact .rests _
    | some client =>
      obtain rfl : client.number = number := by simpa using List.find?_some found
      exact .feeds (List.mem_of_find?_eq_some found)
  | receive name =>
    rw [after]
    cases found : Entries.find? name t.session.streams with
    | none => exact .rests _
    | some client => exact .receives found
  | drop name => exact .drops name
  | stop id => exact .stops id
  | close => exact .closes
  | subscribe name request cancelled => exact .subscribes name request cancelled
  | cancel name => exact .cancels name
  | call other => exact .calls other

end Exchange

/-! ## A subscription on a connection

A clock that ticks once and then stays open. -/

namespace ClockSubscription

def operation : OperationDescriptor :=
  { kind := .subscription, name := "clock", info := {}, output := .named (.builtin .int32) true, mode := .positional
    binding := .arguments []
    resolver := .stream fun _ => .ok (.done (.ok { events := [.const (.int 1)], staysOpen := true })) }

def schema : Schema :=
  { host := { builtinName := BuiltinType.scalarName, types := [] }
    config := { memory := { subscriptionBufferSize := 1, maxSubscriptionsPerConnection := 1 } }
    operations := { subscription := [("clock", operation)] }, cache := none }

def options : CompileOptions :=
  { host := schema.host, operations := schema.operations, scorer := schema.scorer
    listSizeEstimate := schema.config.limits.listSizeEstimate }

def request : Request := { query := "subscription\x7bclock\x7d" }

def opened : Schema.Opened :=
  { plan :=
      { kind := .subscription, name := none, variableDefinitions := []
        selection :=
          [{ responseKey := "clock", aliased := false, name := "clock", location := ⟨1, 14⟩, condition := none
             directives := [], arguments := [], target := .operation operation, type := operation.output
             complexity := 1, selection := [] }] }
    variableValues := []
    source := { events := [.const (.int 1)], staysOpen := true } }

/-- The schema once the request was compiled. -/
def compiledSchema : Schema :=
  { schema with registry := (outcome (schema.host.describe (.builtin .int32)) {}).2 }

theorem compiled : outcome (compile options request.query none) {} = (.ok opened.plan, compiledSchema.registry) := by
  have parsed : Document.parse request.query = .ok
      { operations := .anonymous ⟨.start, .subscription, [], [.field ⟨⟨1, 14⟩, none, "clock", [], []⟩ []]⟩
        fragments := [] } := by
    with_unfolding_all rfl
  have collected : outcome ((Compiler.mk options [] []).collect [] (.root .subscription) none []
      [.field ⟨⟨1, 14⟩, none, "clock", [], []⟩ []]) {} = (.ok opened.plan.selection, compiledSchema.registry) := by
    simp only [Compiler.collect]
    with_unfolding_all rfl
  unfold compile
  rw [parsed]
  exact outcome_bind_eq_ok.2 ⟨_, _, rfl, outcome_bind_eq_ok.2 ⟨_, _, collected, rfl⟩⟩

theorem subscribed (cancelled : Bool) : (Schema.subscribe request cancelled).run schema =
    (⟨.ok (.ok opened), [], cancelled⟩, compiledSchema) := by
  have asked : (Schema.compile request.query none).run schema = (.ok opened.plan, compiledSchema) :=
    congrArg (fun r : CompileOutcome × Registry => (r.1, ({ schema with registry := r.2 } : Schema))) compiled
  have prepared : (Schema.prepare request.query none).run schema = (.ok opened.plan, compiledSchema) := by
    have begins : (Schema.prepare request.query none).run schema = _ := Schema.run_bind (Schema.lookup _) _ schema
    rw [begins, show (Schema.lookup _).run schema = (none, schema) from rfl]
    dsimp only
    rw [Schema.run_bind, asked]
    rfl
  have planned : (Schema.planFor request "subscription" (· = .subscription)).run schema =
      (.ok (opened.plan, []), compiledSchema) := by
    have begins : (Schema.planFor request "subscription" (· = .subscription)).run schema = _ :=
      Schema.run_bind (Schema.prepare request.query none) _ schema
    rw [begins, prepared]
    rfl
  have begins : (Schema.subscribe request cancelled).run schema = _ := Schema.run_bind (Schema.planFor _ _ _) _ schema
  rw [begins, planned]
  cases cancelled <;> with_unfolding_all rfl

end ClockSubscription

end GraphQL
