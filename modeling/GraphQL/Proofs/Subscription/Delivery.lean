import GraphQL.Proofs.Schema.Calls
import GraphQL.Subscription

/-!
# Delivering responses

A feeder executes the events of a subscription, one after the other, and hands the responses to a reader through a
buffer. However the two take turns, and whatever else is asked of the schema meanwhile, the reader gets the responses of
the events in order, each once, and gets all of them if both go on. The stream does not end before.
-/

namespace GraphQL

/-- What may happen next while a subscription is read. -/
inductive StreamMove where
  /-- A step of the feeder. -/
  | feed
  | receive
  /-- Something else is asked of the schema. -/
  | call (other : SchemaCall)

def StreamMove.call? : StreamMove → Option SchemaCall
  | call other => some other
  | _ => none

def Delivery.response? : Delivery → Option Response
  | response r => some r
  | _ => none

/-- A subscription with its schema, and what its reader got. -/
structure Reading where
  schema : Schema
  stream : ResponseStream
  deliveries : List Delivery := []

namespace Reading

/-- A subscription of which nothing was read. -/
def start (s : Schema) (opened : Schema.Opened) (capacity : Nat) : Reading :=
  { schema := s, stream := .ofOpened opened capacity false }

def fed (r : Reading) : Reading :=
  { r with
    schema := (r.stream.step.run r.schema).2
    stream := (r.stream.step.run r.schema).1.getD r.stream }

def after (r : Reading) : StreamMove → Reading
  | .feed => r.fed
  | .receive => { r with stream := r.stream.receive.2, deliveries := r.deliveries ++ [r.stream.receive.1] }
  | .call other => { r with schema := r.schema.after other }

def afterAll (r : Reading) (moves : List StreamMove) : Reading := moves.foldl after r

/-- The responses that the reader got. -/
def responses (r : Reading) : List Response := r.deliveries.filterMap (·.response?)

/-- The event that the feeder takes next, if any, does not panic. -/
def Sound (r : Reading) : Prop :=
  ∀ event rest, r.stream.unsent = none → r.stream.events = event :: rest → ∃ response,
    ((Schema.executeEvent r.stream.plan r.stream.variableValues false event).run r.schema).1 = .ok response

/-- No event panics that the feeder executes. -/
def Calm (r : Reading) : List StreamMove → Prop
  | [] => True
  | move :: rest => (move = .feed → r.Sound) ∧ Calm (r.after move) rest

end Reading

/-- What is done to a schema while a subscription is read: its events are executed, and other calls are answered. -/
def Schema.shaping (plan : Plan) (values : Variables) :
    List (Resolved ⊕ SchemaCall) → SchemaM (List (Except Breakdown Response))
  | [] => return []
  | .inl event :: rest => return (← executeEvent plan values false event) :: (← shaping plan values rest)
  | .inr other :: rest => do
    let _ ← other.perform
    shaping plan values rest

namespace Schema

variable {plan : Plan} {values : Variables} {s t u : Schema} {turns : List (Resolved ⊕ SchemaCall)}
  {outcomes : List (Except Breakdown Response)}

theorem run_shaping_event {event : Resolved} {result : Except Breakdown Response}
    (ran : (executeEvent plan values false event).run s = (result, t)) :
    (shaping plan values (.inl event :: turns)).run s =
      (result :: ((shaping plan values turns).run t).1, ((shaping plan values turns).run t).2) := by
  rw [shaping, run_bind, ran]
  rfl

theorem run_shaping_call (other : SchemaCall) :
    (shaping plan values (.inr other :: turns)).run s = (shaping plan values turns).run (s.after other) := by
  rw [shaping, run_bind]

theorem run_shaping_append (more : List (Resolved ⊕ SchemaCall)) (ran : (shaping plan values turns).run s = (outcomes, t)) :
    (shaping plan values (turns ++ more)).run s =
      (outcomes ++ ((shaping plan values more).run t).1, ((shaping plan values more).run t).2) := by
  induction turns generalizing s outcomes with
  | nil =>
    cases ran
    rfl
  | cons turn rest ih =>
    rw [List.cons_append]
    cases turn with
    | inl event =>
      cases executed : (executeEvent plan values false event).run s with
      | mk result u =>
        rw [run_shaping_event executed] at ran ⊢
        cases ran
        rw [ih rfl]
        rfl
    | inr other =>
      rw [run_shaping_call] at ran ⊢
      exact ih ran

theorem length_shaping (plan : Plan) (values : Variables) (turns : List (Resolved ⊕ SchemaCall)) (s : Schema) :
    ((shaping plan values turns).run s).1.length = (turns.filterMap Sum.getLeft?).length := by
  induction turns generalizing s with
  | nil => rfl
  | cons turn rest ih =>
    cases turn with
    | inl event =>
      cases executed : (executeEvent plan values false event).run s with
      | mk result u =>
        rw [run_shaping_event executed]
        exact congrArg Nat.succ (ih u)
    | inr other =>
      rw [run_shaping_call]
      exact ih _

end Schema

namespace ResponseStream

/-- A bound on what is left to do: an event is executed, its response is sent and received. -/
def left (stream : ResponseStream) : Nat :=
  3 * stream.events.length + 2 * stream.unsent.toList.length + stream.buffer.length + if stream.running then 1 else 0

/-- The feeder has nothing to do, or no room for a response. -/
def Waits (stream : ResponseStream) : Prop :=
  stream.running = false ∨ (∃ response, stream.unsent = some response ∧ stream.hasRoom = false) ∨
    stream.unsent = none ∧ stream.events = [] ∧ stream.staysOpen = true

/-- All responses are delivered, and no more will come. -/
structure Quiet (stream : ResponseStream) : Prop where
  buffer : stream.buffer = []
  unsent : stream.unsent = none
  events : stream.events = []
  ended : stream.running = false ∨ stream.staysOpen = true

theorem quiet_of_left {stream : ResponseStream} (nothing : stream.left = 0) : stream.Quiet := by
  rw [left] at nothing
  refine ⟨List.length_eq_zero_iff.1 (by omega), ?_, List.length_eq_zero_iff.1 (by omega), Or.inl ?_⟩
  · cases unsent : stream.unsent with
    | none => rfl
    | some response => simp [unsent] at nothing
  · cases running : stream.running with
    | false => rfl
    | true => simp [running] at nothing

end ResponseStream

namespace Reading

/-! ## One step of the feeder -/

/-- What a step of the feeder does. -/
inductive Feeds (r : Reading) : Reading → Prop
  | stopped (stopped : r.stream.running = false) : Feeds r r
  | waits {response : Response} (unsent : r.stream.unsent = some response) (full : r.stream.hasRoom = false) : Feeds r r
  | idles (unsent : r.stream.unsent = none) (done : r.stream.events = []) (stays : r.stream.staysOpen = true) : Feeds r r
  | sends {response : Response} (running : r.stream.running = true) (unsent : r.stream.unsent = some response)
      (room : r.stream.hasRoom = true) :
      Feeds r { r with stream := { r.stream with buffer := r.stream.buffer ++ [response], unsent := none } }
  | executes {event : Resolved} {rest : List Resolved} {response : Response} {t : Schema}
      (running : r.stream.running = true) (unsent : r.stream.unsent = none) (events : r.stream.events = event :: rest)
      (ran : (Schema.executeEvent r.stream.plan r.stream.variableValues false event).run r.schema = (.ok response, t)) :
      Feeds r { r with schema := t, stream := { r.stream with events := rest, unsent := some response } }
  | panics {event : Resolved} {rest : List Resolved} {breakdown : Breakdown} {t : Schema}
      (running : r.stream.running = true) (unsent : r.stream.unsent = none) (events : r.stream.events = event :: rest)
      (ran : (Schema.executeEvent r.stream.plan r.stream.variableValues false event).run r.schema =
        (.error breakdown, t)) :
      Feeds r { r with schema := t, stream := r.stream.stop }
  | ends (running : r.stream.running = true) (unsent : r.stream.unsent = none) (done : r.stream.events = [])
      (closes : r.stream.staysOpen = false) : Feeds r { r with stream := r.stream.stop }

theorem fed_of_step {r : Reading} {next : Option ResponseStream} {t : Schema}
    (stepped : r.stream.step.run r.schema = (next, t)) : r.fed = { r with schema := t, stream := next.getD r.stream } := by
  rw [fed, stepped]

theorem feeds_fed {r : Reading} (uncancelled : r.stream.cancelled = false) : r.Feeds r.fed := by
  cases running : r.stream.running with
  | false =>
    have stepped : r.stream.step.run r.schema = (none, r.schema) := by
      simp only [ResponseStream.step, running]
      rfl
    rw [fed_of_step stepped]
    exact .stopped running
  | true =>
    cases unsent : r.stream.unsent with
    | some response =>
      cases room : r.stream.hasRoom with
      | false =>
        have stepped : r.stream.step.run r.schema = (none, r.schema) := by
          simp only [ResponseStream.step, running, unsent, room]
          rfl
        rw [fed_of_step stepped]
        exact .waits unsent room
      | true =>
        have stepped : r.stream.step.run r.schema =
            (some { r.stream with buffer := r.stream.buffer ++ [response], unsent := none }, r.schema) := by
          simp only [ResponseStream.step, running, unsent, room]
          rfl
        rw [fed_of_step stepped]
        exact .sends running unsent room
    | none =>
      cases events : r.stream.events with
      | nil =>
        cases stays : r.stream.staysOpen with
        | true =>
          have stepped : r.stream.step.run r.schema = (none, r.schema) := by
            simp only [ResponseStream.step, running, unsent, events, stays, uncancelled]
            rfl
          rw [fed_of_step stepped]
          exact .idles unsent events stays
        | false =>
          have stepped : r.stream.step.run r.schema = (some r.stream.stop, r.schema) := by
            simp only [ResponseStream.step, running, unsent, events, stays, uncancelled]
            rfl
          rw [fed_of_step stepped]
          exact .ends running unsent events stays
      | cons event rest =>
        cases ran : (Schema.executeEvent r.stream.plan r.stream.variableValues false event).run r.schema with
        | mk result t =>
          cases result with
          | ok response =>
            have stepped : r.stream.step.run r.schema =
                (some { r.stream with events := rest, unsent := some response }, t) := by
              simp only [ResponseStream.step, running, unsent, events, uncancelled, Bool.not_true, Bool.false_eq_true, if_false]
              rw [Schema.run_bind, ran]
              rfl
            rw [fed_of_step stepped]
            exact .executes running unsent events ran
          | error breakdown =>
            have stepped : r.stream.step.run r.schema = (some r.stream.stop, t) := by
              simp only [ResponseStream.step, running, unsent, events, uncancelled, Bool.not_true, Bool.false_eq_true, if_false]
              rw [Schema.run_bind, ran]
              rfl
            rw [fed_of_step stepped]
            exact .panics running unsent events ran

/-! ## What was executed and what was delivered -/

/-- What was done to the schema since a subscription was opened, and where the responses are. -/
structure Accounts (s : Schema) (opened : Schema.Opened) (capacity : Nat) (calls : List SchemaCall)
    (turns : List (Resolved ⊕ SchemaCall)) (r : Reading) : Prop where
  plan : r.stream.plan = opened.plan
  values : r.stream.variableValues = opened.variableValues
  staysOpen : r.stream.staysOpen = opened.source.staysOpen
  size : r.stream.capacity = capacity
  uncancelled : r.stream.cancelled = false
  others : turns.filterMap Sum.getRight? = calls
  events : turns.filterMap Sum.getLeft? ++ r.stream.events = opened.source.events
  shaped : (Schema.shaping opened.plan opened.variableValues turns).run s =
    ((r.responses ++ r.stream.buffer ++ r.stream.unsent.toList).map .ok, r.schema)
  bounded : capacity = 0 ∨ r.stream.buffer.length ≤ capacity
  stopped : r.stream.running = false → r.stream.unsent = none ∧ r.stream.events = [] ∧ r.stream.staysOpen = false
  finished : .finished ∈ r.deliveries → r.stream.running = false ∧ r.stream.buffer = []

variable {s : Schema} {opened : Schema.Opened} {capacity : Nat} {calls : List SchemaCall}
  {turns : List (Resolved ⊕ SchemaCall)} {r : Reading}

theorem accounts_start (s : Schema) (opened : Schema.Opened) (capacity : Nat) :
    Accounts s opened capacity [] [] (start s opened capacity) where
  plan := rfl
  values := rfl
  staysOpen := rfl
  size := rfl
  uncancelled := rfl
  others := rfl
  events := rfl
  shaped := rfl
  bounded := Or.inr (Nat.zero_le capacity)
  stopped stopped := by cases stopped
  finished finished := absurd finished List.not_mem_nil

theorem Accounts.fed (accounts : r.Accounts s opened capacity calls turns) (sound : r.Sound) :
    ∃ turns, r.fed.Accounts s opened capacity calls turns := by
  have feeds := feeds_fed accounts.uncancelled
  generalize r.fed = next at feeds ⊢
  cases feeds with
  | stopped => exact ⟨turns, accounts⟩
  | waits => exact ⟨turns, accounts⟩
  | idles => exact ⟨turns, accounts⟩
  | @sends response running unsent room =>
    refine ⟨turns, { accounts with shaped := ?_, bounded := ?_, stopped := ?_, finished := ?_ }⟩
    · rw [accounts.shaped, unsent]
      simp [responses]
    · rw [ResponseStream.hasRoom, accounts.size] at room
      simp only [Bool.or_eq_true, decide_eq_true_eq] at room
      rw [List.length_append, List.length_singleton]
      exact room
    · intro stopped
      cases running.symm.trans stopped
    · intro finished
      cases running.symm.trans (accounts.finished finished).1
  | @executes event rest response t running unsent events ran =>
    rw [accounts.plan, accounts.values] at ran
    refine ⟨turns ++ [.inl event], { accounts with
      others := ?_, events := ?_, shaped := ?_, stopped := ?_, finished := ?_ }⟩
    · rw [List.filterMap_append, accounts.others]
      exact List.append_nil _
    · rw [← accounts.events, events, List.filterMap_append]
      exact List.append_assoc ..
    · rw [Schema.run_shaping_append _ accounts.shaped, Schema.run_shaping_event ran, unsent]
      refine Prod.ext ?_ rfl
      change _ ++ [Except.ok response] = _
      simp [responses]
    · intro stopped
      cases running.symm.trans stopped
    · intro finished
      cases running.symm.trans (accounts.finished finished).1
  | panics running unsent events ran =>
    obtain ⟨response, ok⟩ := sound _ _ unsent events
    rw [ran] at ok
    cases ok
  | ends running unsent done closes =>
    refine ⟨turns, { accounts with stopped := ?_, finished := ?_ }⟩
    · exact fun _ => ⟨unsent, done, closes⟩
    · exact fun finished => ⟨rfl, (accounts.finished finished).2⟩

theorem Accounts.received (accounts : r.Accounts s opened capacity calls turns) :
    (r.after .receive).Accounts s opened capacity calls turns := by
  cases waiting : r.stream.buffer with
  | cons response rest =>
    have left : r.after .receive =
        { r with stream := { r.stream with buffer := rest }, deliveries := r.deliveries ++ [.response response] } := by
      rw [after, ResponseStream.receive, waiting]
    rw [left]
    refine { accounts with shaped := ?_, bounded := ?_, finished := ?_ }
    · rw [accounts.shaped, waiting]
      simp [responses, Delivery.response?]
    · refine accounts.bounded.imp_right fun short => ?_
      rw [waiting] at short
      exact Nat.le_of_succ_le short
    · intro finished
      rcases List.mem_append.1 finished with before | last
      · cases waiting.symm.trans (accounts.finished before).2
      · cases List.mem_singleton.1 last
  | nil =>
    have left : r.after .receive =
        { r with deliveries := r.deliveries ++ [if r.stream.running then .pending else .finished] } := by
      rw [after, ResponseStream.receive, waiting]
    rw [left]
    refine { accounts with shaped := ?_, finished := ?_ }
    · have nothing : (if r.stream.running then Delivery.pending else .finished).response? = none := by
        split <;> rfl
      rw [accounts.shaped, waiting]
      simp [responses, nothing]
    · intro finished
      refine ⟨?_, waiting⟩
      rcases List.mem_append.1 finished with before | last
      · exact (accounts.finished before).1
      · cases running : r.stream.running with
        | false => rfl
        | true =>
          rw [running] at last
          cases List.mem_singleton.1 last

theorem Accounts.called (accounts : r.Accounts s opened capacity calls turns) (other : SchemaCall) :
    (r.after (.call other)).Accounts s opened capacity (calls ++ [other]) (turns ++ [.inr other]) := by
  refine { accounts with others := ?_, events := ?_, shaped := ?_ }
  · rw [List.filterMap_append, accounts.others]
    rfl
  · rw [← accounts.events, List.filterMap_append]
    exact congrArg (· ++ _) (List.append_nil _)
  · rw [Schema.run_shaping_append _ accounts.shaped, Schema.run_shaping_call]
    exact congrArg (·, _) (List.append_nil _)

/-- After any moves the account can be given. -/
theorem Accounts.run (accounts : r.Accounts s opened capacity calls turns) {moves : List StreamMove}
    (calm : r.Calm moves) :
    ∃ turns, (r.afterAll moves).Accounts s opened capacity (calls ++ moves.filterMap (·.call?)) turns := by
  induction moves generalizing r calls turns with
  | nil =>
    refine ⟨turns, ?_⟩
    rw [List.filterMap_nil, List.append_nil]
    exact accounts
  | cons move rest ih =>
    obtain ⟨sound, calm⟩ := calm
    cases move with
    | feed =>
      obtain ⟨turns, next⟩ := accounts.fed (sound rfl)
      exact ih next calm
    | receive => exact ih accounts.received calm
    | call other =>
      obtain ⟨turns, final⟩ := ih (accounts.called other) calm
      refine ⟨turns, ?_⟩
      rw [List.append_assoc] at final
      exact final

/-! ## Going on -/

theorem afterAll_append (r : Reading) (moves more : List StreamMove) :
    r.afterAll (moves ++ more) = (r.afterAll moves).afterAll more := List.foldl_append

theorem calm_append {moves more : List StreamMove} :
    r.Calm (moves ++ more) ↔ r.Calm moves ∧ (r.afterAll moves).Calm more := by
  induction moves generalizing r with
  | nil => exact ⟨fun calm => ⟨trivial, calm⟩, And.right⟩
  | cons move rest ih =>
    rw [List.cons_append, Calm, Calm, ih, and_assoc]
    rfl

/-- A move gets on, or there is nothing to do. -/
theorem left_after (uncancelled : r.stream.cancelled = false) (move : StreamMove) :
    (r.after move).stream.left < r.stream.left ∨ (r.after move).stream = r.stream ∧
      (move = .feed → r.stream.Waits) ∧ (move = .receive → r.stream.buffer = []) := by
  cases move with
  | feed =>
    have feeds := feeds_fed uncancelled
    change r.fed.stream.left < r.stream.left ∨ r.fed.stream = r.stream ∧ _
    generalize r.fed = next at feeds ⊢
    have idle (waits : r.stream.Waits) : r.stream = r.stream ∧ (StreamMove.feed = .feed → r.stream.Waits) ∧
      (StreamMove.feed = .receive → r.stream.buffer = []) := ⟨rfl, fun _ => waits, by simp⟩
    cases feeds with
    | stopped stopped => exact Or.inr (idle (Or.inl stopped))
    | waits unsent full => exact Or.inr (idle (Or.inr (Or.inl ⟨_, unsent, full⟩)))
    | idles unsent done stays => exact Or.inr (idle (Or.inr (Or.inr ⟨unsent, done, stays⟩)))
    | sends running unsent room =>
      refine Or.inl ?_
      simp only [ResponseStream.left, unsent, Option.toList, List.length_append, List.length_cons, List.length_nil]
      omega
    | executes running unsent events ran =>
      refine Or.inl ?_
      simp only [ResponseStream.left, unsent, events, Option.toList, List.length_cons, List.length_nil]
      omega
    | panics running unsent events ran => simp [ResponseStream.left, running, ResponseStream.stop]
    | ends running unsent done closes => simp [ResponseStream.left, running, ResponseStream.stop]
  | receive =>
    cases waiting : r.stream.buffer with
    | cons response rest => simp [ResponseStream.left, after, ResponseStream.receive, waiting]
    | nil =>
      refine Or.inr ⟨?_, by simp, fun _ => rfl⟩
      rw [after, ResponseStream.receive, waiting]
  | call other => exact Or.inr ⟨rfl, by simp, by simp⟩

theorem stream_after (uncancelled : r.stream.cancelled = false) (move : StreamMove) :
    (r.after move).stream.cancelled = false ∧ (r.after move).stream.plan = r.stream.plan ∧
      (r.after move).stream.variableValues = r.stream.variableValues ∧
      (r.after move).stream.events ⊆ r.stream.events := by
  cases move with
  | feed =>
    have feeds := feeds_fed uncancelled
    change r.fed.stream.cancelled = false ∧ r.fed.stream.plan = _ ∧ r.fed.stream.variableValues = _ ∧
      r.fed.stream.events ⊆ _
    generalize r.fed = next at feeds ⊢
    cases feeds with
    | executes running unsent events ran =>
      exact ⟨uncancelled, rfl, rfl, fun event mem => events ▸ List.mem_cons_of_mem _ mem⟩
    | _ => exact ⟨uncancelled, rfl, rfl, fun _ => id⟩
  | receive =>
    rw [after, ResponseStream.receive]
    split <;> exact ⟨uncancelled, rfl, rfl, fun _ => id⟩
  | call other => exact ⟨uncancelled, rfl, rfl, fun _ => id⟩

/-- Moves get on, or there is nothing to do for them. -/
theorem left_afterAll (uncancelled : r.stream.cancelled = false) (moves : List StreamMove) :
    (r.afterAll moves).stream.left < r.stream.left ∨ (r.afterAll moves).stream = r.stream ∧
      (.feed ∈ moves → r.stream.Waits) ∧ (.receive ∈ moves → r.stream.buffer = []) := by
  induction moves generalizing r with
  | nil => exact Or.inr ⟨rfl, by simp, by simp⟩
  | cons move rest ih =>
    have later := ih (stream_after uncancelled move).1
    change ((r.after move).afterAll rest).stream.left < _ ∨ ((r.after move).afterAll rest).stream = _ ∧ _
    rcases left_after uncancelled move with fewer | ⟨same, feed, receive⟩
    · rcases later with fewer' | ⟨same', -, -⟩
      · exact Or.inl (Nat.lt_trans fewer' fewer)
      · rw [same']
        exact Or.inl fewer
    · rw [same] at later
      refine later.imp_right fun ⟨same', feed', receive'⟩ => ⟨same', fun mem => ?_, fun mem => ?_⟩
      · exact (List.mem_cons.1 mem).elim (fun is => feed is.symm) feed'
      · exact (List.mem_cons.1 mem).elim (fun is => receive is.symm) receive'

/-- Nothing happens to a stream that is quiet. -/
theorem quiet_after (uncancelled : r.stream.cancelled = false) (quiet : r.stream.Quiet) (moves : List StreamMove) :
    (r.afterAll moves).stream = r.stream := by
  induction moves generalizing r with
  | nil => rfl
  | cons move rest ih =>
    have same : (r.after move).stream = r.stream := by
      cases move with
      | feed =>
        have feeds := feeds_fed uncancelled
        change r.fed.stream = r.stream
        generalize r.fed = next at feeds ⊢
        cases feeds with
        | sends running unsent room => cases quiet.unsent.symm.trans unsent
        | executes running unsent events ran => cases quiet.events.symm.trans events
        | panics running unsent events ran => cases quiet.events.symm.trans events
        | ends running unsent done closes =>
          rcases quiet.ended with stopped | stays
          · cases running.symm.trans stopped
          · cases closes.symm.trans stays
        | _ => rfl
      | receive => rw [after, ResponseStream.receive, quiet.buffer]
      | call other => rfl
    exact (ih (stream_after uncancelled move).1 (same ▸ quiet)).trans same

theorem Accounts.quiet (accounts : r.Accounts s opened capacity calls turns) (waits : r.stream.Waits)
    (empty : r.stream.buffer = []) : r.stream.Quiet := by
  rcases waits with stopped | ⟨response, unsent, full⟩ | ⟨unsent, done, stays⟩
  · obtain ⟨unsent, done, -⟩ := accounts.stopped stopped
    exact ⟨empty, unsent, done, Or.inl stopped⟩
  · refine absurd full ?_
    rw [ResponseStream.hasRoom, empty]
    simp only [List.length_nil, Bool.or_eq_false_iff, decide_eq_false_iff_not]
    omega
  · exact ⟨empty, unsent, done, Or.inr stays⟩

/-- If feeder and reader both go on, again and again, everything is delivered. -/
theorem Accounts.quiet_of_rounds (accounts : r.Accounts s opened capacity calls turns) {rounds : List (List StreamMove)}
    (fair : ∀ round ∈ rounds, .feed ∈ round ∧ .receive ∈ round) (calm : r.Calm rounds.flatten)
    (enough : r.stream.left ≤ rounds.length) : (r.afterAll rounds.flatten).stream.Quiet := by
  induction rounds generalizing r calls turns with
  | nil =>
    exact ResponseStream.quiet_of_left (Nat.le_zero.1 enough)
  | cons round rest ih =>
    rw [List.flatten_cons, calm_append] at calm
    obtain ⟨turns, next⟩ := accounts.run calm.1
    obtain ⟨feed, receive⟩ := fair round List.mem_cons_self
    rw [List.flatten_cons, afterAll_append]
    rcases left_afterAll accounts.uncancelled round with fewer | ⟨same, waits, empty⟩
    · exact ih next (fun round mem => fair round (List.mem_cons_of_mem _ mem)) calm.2
        (Nat.le_of_lt_succ (Nat.lt_of_lt_of_le fewer enough))
    · have quiet : (r.afterAll round).stream.Quiet := same ▸ accounts.quiet (waits feed) (empty receive)
      exact (quiet_after next.uncancelled quiet rest.flatten) ▸ quiet

/-- What a reader got of a subscription after some moves. The turns say in which order events were executed and other
calls answered, and the responses are those of the executed events, in order. -/
structure Delivers (s : Schema) (opened : Schema.Opened) (moves : List StreamMove) (r : Reading)
    (turns : List (Resolved ⊕ SchemaCall)) (responses : List Response) : Prop where
  calls : turns.filterMap Sum.getRight? = moves.filterMap (·.call?)
  /-- Events are executed in order, and none twice. -/
  events : turns.filterMap Sum.getLeft? <+: opened.source.events
  /-- Each has a response. -/
  shaped : (Schema.shaping opened.plan opened.variableValues turns).run s = (responses.map .ok, r.schema)
  each : responses.length = (turns.filterMap Sum.getLeft?).length
  /-- The reader gets the responses in order, and none twice. -/
  delivered : r.responses <+: responses
  /-- The stream ends after the responses of all events. -/
  ended : .finished ∈ r.deliveries →
    opened.source.staysOpen = false ∧ turns.filterMap Sum.getLeft? = opened.source.events ∧ r.responses = responses
  /-- Nothing is lost: if feeder and reader go on often enough, the responses of all events are delivered, and then the
  stream ends with its source. -/
  fair : ∀ rounds : List (List StreamMove), moves = rounds.flatten →
    (∀ round ∈ rounds, .feed ∈ round ∧ .receive ∈ round) → 3 * opened.source.events.length < rounds.length →
      turns.filterMap Sum.getLeft? = opened.source.events ∧ r.responses = responses ∧
        (opened.source.staysOpen = false → r.stream.receive.1 = .finished)

theorem Accounts.all (accounts : r.Accounts s opened capacity calls turns) (quiet : r.stream.Quiet) :
    turns.filterMap Sum.getLeft? = opened.source.events ∧
      r.responses = r.responses ++ r.stream.buffer ++ r.stream.unsent.toList := by
  constructor
  · rw [← accounts.events, quiet.events, List.append_nil]
  · rw [quiet.buffer, quiet.unsent, Option.toList, List.append_nil, List.append_nil]

/-- However feeder and reader take turns, the reader gets the responses of the events of a subscription, one for each,
in their order. All of them are delivered if both go on, and the stream ends after that. -/
theorem responses_in_order (s : Schema) (opened : Schema.Opened) (capacity : Nat) {moves : List StreamMove}
    (calm : (start s opened capacity).Calm moves) :
    ∃ turns responses, ((start s opened capacity).afterAll moves).Delivers s opened moves turns responses := by
  obtain ⟨turns, accounts⟩ := (accounts_start s opened capacity).run calm
  refine ⟨turns, _, accounts.others, ⟨_, accounts.events⟩, accounts.shaped, ?_, ?_, ?_, ?_⟩
  · have each := Schema.length_shaping opened.plan opened.variableValues turns s
    rw [accounts.shaped, List.length_map] at each
    exact each
  · exact ⟨_, (List.append_assoc ..).symm⟩
  · intro finished
    obtain ⟨stopped, empty⟩ := accounts.finished finished
    obtain ⟨-, -, closes⟩ := accounts.stopped stopped
    obtain ⟨events, responses⟩ := accounts.all (accounts.quiet (Or.inl stopped) empty)
    exact ⟨accounts.staysOpen.symm.trans closes, events, responses⟩
  · rintro rounds rfl fair enough
    have quiet := (accounts_start s opened capacity).quiet_of_rounds fair calm enough
    obtain ⟨events, responses⟩ := accounts.all quiet
    refine ⟨events, responses, fun closes => ?_⟩
    rcases quiet.ended with stopped | stays
    · rw [ResponseStream.receive, quiet.buffer, stopped]
      rfl
    · cases closes.symm.trans (accounts.staysOpen.symm.trans stays)

/-- Events that panic in no schema keep calm. -/
theorem calm_of_events (uncancelled : r.stream.cancelled = false)
    (never : ∀ event ∈ r.stream.events, ∀ s, ∃ response,
      ((Schema.executeEvent r.stream.plan r.stream.variableValues false event).run s).1 = .ok response)
    (moves : List StreamMove) : r.Calm moves := by
  induction moves generalizing r with
  | nil => trivial
  | cons move rest ih =>
    refine ⟨fun _ event rest _ events => never event (events ▸ List.mem_cons_self) r.schema, ?_⟩
    obtain ⟨uncancelled, plan, values, events⟩ := stream_after uncancelled move
    refine ih uncancelled fun event mem => ?_
    rw [plan, values]
    exact never event (events mem)

/-- Feeding a stream until the feeder waits is some steps of it. -/
theorem feed_steps (r : Reading) : ∃ n, r.afterAll (List.replicate n .feed) =
    { r with schema := (r.stream.feed.run r.schema).2, stream := (r.stream.feed.run r.schema).1 } := by
  rw [ResponseStream.feed, Schema.run_bind]
  cases stepped : r.stream.step.run r.schema with
  | mk next t =>
    have fed := fed_of_step stepped
    cases next with
    | none => exact ⟨1, fed⟩
    | some next =>
      dsimp only
      split
      next fewer =>
        obtain ⟨n, fed'⟩ := feed_steps { r with schema := t, stream := next }
        refine ⟨n + 1, ?_⟩
        rw [List.replicate_succ]
        change (r.fed).afterAll _ = _
        rw [fed]
        exact fed'
      next => exact ⟨1, fed⟩
termination_by r.stream.stepsLeft

end Reading

/-! ## Events in a buffer

Of three events the last is no list, so its field fails. The buffer holds one response. -/

namespace Ticks

def field : FieldPlan :=
  { responseKey := "ticks", aliased := false, name := "ticks", location := .start, condition := none, directives := []
    arguments := [], target := .typename, type := .list (.named (.builtin .string) true) true, complexity := 1
    selection := [] }

def opened : Schema.Opened :=
  { plan := { kind := .subscription, name := none, variableDefinitions := [], selection := [field] }
    variableValues := []
    source := { events := [.null, .const (.int 3), .null], staysOpen := false } }

def schema : Schema := .create { builtinName := BuiltinType.scalarName, types := [] } {} .default none

/-- An event is a response, whatever the schema. -/
theorem no_panic (s : Schema) {event : Resolved} (mem : event ∈ opened.source.events) : ∃ response,
    ((Schema.executeEvent opened.plan opened.variableValues false event).run s).1 = .ok response := by
  let x := s.execution opened.plan []
  let state := s.initialState false
  have answered {data : ResponseValue} {final : ExecutionState}
      (completed : outcome (x.complete field.type event field field.rootPath 1) state = (.ok data, final)) :
      ((Schema.executeEvent opened.plan opened.variableValues false event).run s).1 =
        .ok ⟨.object [("ticks", data)], final.errors⟩ := by
    have alone : x.limits.checkFields 1 = .ok () := by
      have within : exceeds 1 x.limits.maxFields = false := by
        simp only [exceeds, Bool.and_eq_false_iff, decide_eq_false_iff_not]
        omega
      rw [QueryLimits.checkFields, QueryLimits.guardWith, within]
      rfl
    have collect : x.collect x.plan.selection none = (field.guard (x.limits.checkFields 1) >>= fun _ => .ok [field]) :=
      rfl
    have collected : outcome (ExecM.ofExcept (x.collect x.plan.selection none)) state = (.ok [field], state) := by
      rw [collect, alone]
      rfl
    have uncancelled : outcome ExecM.checkCancelled state = (.ok (), state) := rfl
    have shaped : outcome (x.shapeEvent event) state = (.ok (.object [("ticks", data)]), final) := by
      unfold Execution.shapeEvent
      refine (outcome_bind_of_ok collected).trans ((outcome_bind_of_ok uncancelled).trans ?_)
      exact (outcome_bind_of_ok completed).trans (outcome_pure _ _)
    change respond (outcome (x.shapeEvent event) state).1 (outcome (x.shapeEvent event) state).2.errors = _
    rw [shaped]
    rfl
  simp only [opened, List.mem_cons, List.not_mem_nil, or_false] at mem
  rcases mem with rfl | rfl | rfl
  · exact ⟨_, answered (by rw [Execution.complete.eq_def]; rfl)⟩
  · exact ⟨_, answered (by rw [Execution.complete.eq_def]; rfl)⟩
  · exact ⟨_, answered (by rw [Execution.complete.eq_def]; rfl)⟩

/-- Feeder and reader take turns, while something else is asked of the schema. -/
theorem ticks_in_order :
    let moves : List StreamMove :=
      [.feed, .receive, .feed, .feed, .call (.describe (.builtin .string)), .receive, .feed, .receive, .feed, .feed]
    (Reading.start schema opened 1).Calm moves ∧ ∃ turns responses,
      ((Reading.start schema opened 1).afterAll moves).Delivers schema opened moves turns responses := by
  intro moves
  have calm : (Reading.start schema opened 1).Calm moves := by
    refine Reading.calm_of_events rfl (fun event mem s => ?_) moves
    exact no_panic s mem
  exact ⟨calm, Reading.responses_in_order schema opened 1 calm⟩

end Ticks

end GraphQL
