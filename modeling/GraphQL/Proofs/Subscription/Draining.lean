import GraphQL.Proofs.Subscription.Delivery
import GraphQL.Proofs.Subscription.Origins

/-!
# Cancelled streams

A subscription is cancelled by who started it, by stopping its id, by closing the connection, or by another subscription
that takes its id. From then on its feeder takes no event, and throws away what it is executing. What it has executed
before is still delivered, whether it is in the buffer or waits for room there, and then the stream ends.
-/

namespace GraphQL

namespace ResponseStream

/-- The responses that are on their way to the reader. -/
def toDeliver (stream : ResponseStream) : List Response := stream.buffer ++ stream.unsent.toList

/-- A bound on what is left to do without new events: a response is sent and received, and the feeder ends. -/
def stepsToEnd (stream : ResponseStream) : Nat :=
  2 * stream.unsent.toList.length + stream.buffer.length + if stream.running then 1 else 0

/-- Nothing waits to be sent while the feeder has something in hand, or when it is done, and the end comes last. -/
structure Orderly (stream : ResponseStream) (inHand : Option (Except Breakdown Response)) (ended : Bool) : Prop where
  busy : inHand.isSome = true → stream.running = true ∧ stream.unsent = none
  done : stream.running = false → stream.unsent = none
  finished : ended = true → stream.running = false ∧ stream.buffer = []

variable {stream stream' : ResponseStream} {inHand inHand' : Option (Except Breakdown Response)} {heard : List Delivery}
  {ended : Bool}

theorem Orderly.delivered (orderly : stream.Orderly inHand true) : stream.toDeliver = [] := by
  obtain ⟨stopped, empty⟩ := orderly.finished rfl
  rw [toDeliver, empty, orderly.done stopped]
  rfl

theorem Goes.orderly (goes : stream.Goes inHand stream' inHand' heard) (orderly : stream.Orderly inHand ended) :
    stream'.Orderly inHand' (ended || heard.any (·.isFinished)) := by
  have stops (unsent : stream.unsent = none) : stream.stop.Orderly none ended :=
    ⟨fun busy => absurd busy Bool.false_ne_true, fun _ => unsent, fun ends => ⟨rfl, (orderly.finished ends).2⟩⟩
  have running (runs : stream.running = true) (ends : ended = true) : False := by
    cases runs.symm.trans (orderly.finished ends).1
  cases goes with
  | stays => exact (Bool.or_false ended).symm ▸ orderly
  | cancels => exact (Bool.or_false ended).symm ▸ ⟨orderly.busy, orderly.done, orderly.finished⟩
  | works works =>
    rw [List.any_nil, Bool.or_false]
    cases works with
    | sends runs =>
      exact ⟨fun busy => absurd busy Bool.false_ne_true, fun _ => rfl, fun ends => (running runs ends).elim⟩
    | ends runs unsent => exact stops unsent
    | executes runs uncancelled unsent => exact ⟨fun _ => ⟨runs, unsent⟩, fun _ => unsent, orderly.finished⟩
    | breaks => exact stops (orderly.busy rfl).2
    | discards => exact stops (orderly.busy rfl).2
    | takes =>
      have runs := (orderly.busy rfl).1
      refine ⟨fun busy => absurd busy Bool.false_ne_true, fun done => ?_, fun ends => (running runs ends).elim⟩
      cases runs.symm.trans done
    | _ => exact orderly
  | reads =>
    rcases stream.receive_cases with ⟨response, rest, buffer, received⟩ | ⟨-, -, received⟩ | ⟨empty, stopped, received⟩
    all_goals rw [received]
    · refine ⟨orderly.busy, orderly.done, fun ends => ?_⟩
      have before : ended = true := by simpa [Delivery.isFinished] using ends
      cases buffer.symm.trans (orderly.finished before).2
    · exact (Bool.or_false ended).symm ▸ orderly
    · exact ⟨orderly.busy, orderly.done, fun _ => ⟨stopped, empty⟩⟩

/-- What the feeder of a cancelled stream does: it is done or finds no room, it ends, or it sends what waits. -/
theorem Works.of_cancelled {s t : Schema} (works : stream.Works s inHand (stream', inHand') t)
    (cancelled : stream.cancelled = true) :
    stream' = stream ∧ (stream.running = false ∨ stream.buffer ≠ []) ∨ stream' = stream.stop ∨
      ∃ response, stream.unsent = some response ∧
        stream' = { stream with buffer := stream.buffer ++ [response], unsent := none } := by
  cases works with
  | stopped stopped => exact Or.inl ⟨rfl, Or.inl stopped⟩
  | waits unsent full =>
    refine Or.inl ⟨rfl, Or.inr fun empty => ?_⟩
    simp only [hasRoom, empty, List.length_nil, Bool.or_eq_false_iff, decide_eq_false_iff_not] at full
    omega
  | idles uncancelled => cases uncancelled.symm.trans cancelled
  | sends running unsent room => exact Or.inr (Or.inr ⟨_, unsent, rfl⟩)
  | executes running uncancelled => cases uncancelled.symm.trans cancelled
  | takes response uncancelled => cases uncancelled.symm.trans cancelled
  | _ => exact Or.inr (Or.inl rfl)

/-- Nothing is added to what a cancelled stream has to deliver, and nothing is lost. -/
theorem Goes.drains (goes : stream.Goes inHand stream' inHand' heard) (cancelled : stream.cancelled = true) :
    stream'.cancelled = true ∧ heard.filterMap (·.response?) ++ stream'.toDeliver = stream.toDeliver := by
  cases goes with
  | stays => exact ⟨cancelled, rfl⟩
  | cancels => exact ⟨rfl, rfl⟩
  | works works =>
    rcases works.of_cancelled cancelled with ⟨rfl, -⟩ | rfl | ⟨response, unsent, rfl⟩
    · exact ⟨cancelled, rfl⟩
    · exact ⟨cancelled, rfl⟩
    · refine ⟨cancelled, ?_⟩
      simp [toDeliver, unsent]
  | reads =>
    rcases stream.receive_cases with ⟨response, rest, buffer, received⟩ | ⟨-, -, received⟩ | ⟨-, -, received⟩
    all_goals rw [received]
    · refine ⟨cancelled, ?_⟩
      simp [toDeliver, buffer, Delivery.response?]
    · exact ⟨cancelled, rfl⟩
    · exact ⟨cancelled, rfl⟩

/-- A stream is nearer to its end than another, or the same. -/
def Nearer (stream' stream : ResponseStream) : Prop := stream'.stepsToEnd < stream.stepsToEnd ∨ stream' = stream

theorem Nearer.le (nearer : stream'.Nearer stream) : stream'.stepsToEnd ≤ stream.stepsToEnd := by
  rcases nearer with less | rfl
  · exact Nat.le_of_lt less
  · exact Nat.le_refl _

theorem Nearer.eq_of_le (nearer : stream'.Nearer stream) (le : stream.stepsToEnd ≤ stream'.stepsToEnd) :
    stream' = stream := nearer.resolve_left (Nat.not_lt.2 le)

theorem Nearer.trans {first : ResponseStream} (nearer : stream'.Nearer stream) (before : stream.Nearer first) :
    stream'.Nearer first := by
  rcases nearer with less | rfl
  · exact Or.inl (Nat.lt_of_lt_of_le less before.le)
  · exact before

/-- A cancelled stream gets nearer to its end, or stays as it is. -/
theorem Goes.nearer (goes : stream.Goes inHand stream' inHand' heard) (cancelled : stream.cancelled = true) :
    stream'.Nearer stream := by
  cases goes with
  | stays => exact Or.inr rfl
  | cancels =>
    have same : stream.cancel = stream := by rw [cancel, ← cancelled]
    exact Or.inr same
  | works works =>
    rcases works.of_cancelled cancelled with ⟨rfl, -⟩ | rfl | ⟨response, unsent, rfl⟩
    · exact Or.inr rfl
    · cases running : stream.running with
      | false =>
        have same : stream.stop = stream := by rw [stop, ← running]
        exact Or.inr same
      | true =>
        refine Or.inl ?_
        simp [stepsToEnd, stop, running]
    · refine Or.inl ?_
      simp [stepsToEnd, unsent]
      omega
  | reads =>
    rcases stream.receive_cases with ⟨response, rest, buffer, received⟩ | ⟨-, -, received⟩ | ⟨-, -, received⟩
    all_goals rw [received]
    · refine Or.inl ?_
      simp [stepsToEnd, buffer]
    · exact Or.inr rfl
    · exact Or.inr rfl

/-- A feeder of a cancelled stream that changes nothing is done, or has no room in the buffer. -/
theorem Works.idle {s t : Schema} (works : stream.Works s inHand (stream', inHand') t)
    (cancelled : stream.cancelled = true) (same : stream' = stream) : stream.running = false ∨ stream.buffer ≠ [] := by
  rcases works.of_cancelled cancelled with ⟨-, idle⟩ | stopped | ⟨response, unsent, sent⟩
  · exact idle
  · exact Or.inl (congrArg running (same.symm.trans stopped))
  · cases unsent.symm.trans (congrArg ResponseStream.unsent (same.symm.trans sent))

end ResponseStream

namespace Exchange

variable {quota n : Nat} {t : Exchange} {total : List Response} {move : ExchangeMove}

/-! ## Streams of an exchange -/

def responsesOf (t : Exchange) (n : Nat) : List Response := (t.deliveriesOf n).filterMap (·.response?)

theorem hasEnded_eq (t : Exchange) (n : Nat) : t.hasEnded n = (t.deliveriesOf n).any (·.isFinished) := by
  rw [hasEnded, endedIn, deliveriesOf, List.any_map, List.any_filter]
  rfl

/-- All streams are orderly, and nothing is in hand for those that are not there yet. -/
structure Tidy (t : Exchange) : Prop where
  orderly : ∀ client ∈ t.clients, client.stream.Orderly (t.inHand client.number) (t.hasEnded client.number)
  idle : ∀ n, ¬t.Known n → t.inHand n = none

theorem Numbered.tidy_after (numbered : t.Numbered quota) (tidy : t.Tidy) (move : ExchangeMove) : (t.after move).Tidy where
  orderly client' mem' := by
    rcases numbered.origin move mem' with ⟨client, mem, number, heard, deliveries, goes⟩ | new
    · rw [number, hasEnded_eq, deliveries, List.any_append, ← hasEnded_eq]
      exact goes.orderly (tidy.orderly client mem)
    · obtain ⟨opened, capacity, cancelled, is⟩ := new.stream
      have running : (t.after move).hasEnded client'.number = false := by
        rw [hasEnded, new.deliveries]
        exact running_of_notMem fun used => new.unknown (numbered.known_of_past used)
      rw [is, running, new.inHand, tidy.idle _ new.unknown]
      exact ⟨fun busy => absurd busy Bool.false_ne_true, fun _ => rfl, fun ends => absurd ends Bool.false_ne_true⟩
  idle n unknown := by
    have before : ¬t.Known n := fun known => unknown (numbered.known_after known move)
    have moves := t.moves_after move
    generalize t.after move = t' at moves
    cases moves with
    | @feeds client mem =>
      obtain ⟨stream, inHand, schema, -, -, -, fed, -⟩ := t.feed_works client
      have other : n ≠ client.number := fun same => before (same ▸ numbered.known mem)
      rw [fed, Function.update_of_ne other]
      exact tidy.idle n before
    | _ => exact tidy.idle n before

/-! ## After the cancellation -/

/-- A stream is cancelled, and all responses that its reader will ever get are these. -/
structure Draining (quota : Nat) (t : Exchange) (n : Nat) (total : List Response) : Prop where
  numbered : t.Numbered quota
  tidy : t.Tidy
  known : t.Known n
  left : ∀ client ∈ t.clients, client.number = n →
    client.stream.cancelled = true ∧ t.responsesOf n ++ client.stream.toDeliver = total
  heard : t.responsesOf n <+: total
  ended : t.hasEnded n = true → t.responsesOf n = total

namespace Draining

/-- A stream that is cancelled. -/
theorem of_cancelled (numbered : t.Numbered quota) (tidy : t.Tidy) {client : ClientStream} (mem : client ∈ t.clients)
    (cancelled : client.stream.cancelled = true) :
    t.Draining quota client.number (t.responsesOf client.number ++ client.stream.toDeliver) where
  numbered := numbered
  tidy := tidy
  known := numbered.known mem
  left other mem' same := by
    cases numbered.client_of_number mem' mem same
    exact ⟨cancelled, rfl⟩
  heard := List.prefix_append _ _
  ended ends := by
    have orderly := tidy.orderly client mem
    rw [ends] at orderly
    rw [orderly.delivered, List.append_nil]

variable (draining : t.Draining quota n total)

include draining

/-- What becomes of the stream in a move. -/
theorem goes (move : ExchangeMove) {client' : ClientStream} (mem' : client' ∈ (t.after move).clients)
    (is : client'.number = n) : ∃ client ∈ t.clients, client.number = n ∧ client.stream.cancelled = true ∧
      t.Goes (t.after move) client client' := by
  rcases draining.numbered.origin move mem' with ⟨client, mem, goes⟩ | new
  · have here : client.number = n := goes.1.symm.trans is
    exact ⟨client, mem, here, (draining.left client mem here).1, goes⟩
  · exact absurd draining.known (is ▸ new.unknown)

theorem after (move : ExchangeMove) : (t.after move).Draining quota n total := by
  have numbered := (draining.numbered.follows_after move).numbered
  have tidy := draining.numbered.tidy_after draining.tidy move
  have left : ∀ client' ∈ (t.after move).clients, client'.number = n →
      client'.stream.cancelled = true ∧ (t.after move).responsesOf n ++ client'.stream.toDeliver = total := by
    intro client' mem' is
    obtain ⟨client, mem, rfl, cancelled, -, heard, deliveries, goes⟩ := draining.goes move mem' is
    obtain ⟨stays, drains⟩ := goes.drains cancelled
    refine ⟨stays, ?_⟩
    rw [responsesOf, deliveries, List.filterMap_append, List.append_assoc, drains]
    exact (draining.left client mem rfl).2
  -- If anything was heard of the stream it is still there, and what it has left says what was heard.
  refine ⟨numbered, tidy, draining.numbered.known_after draining.known move, left, ?_, fun ends => ?_⟩
  · rcases draining.numbered.unheard move n with same | ⟨client', mem', is⟩
    · rw [responsesOf, same]
      exact draining.heard
    · exact ⟨_, (left client' mem' is).2⟩
  · rcases draining.numbered.unheard move n with same | ⟨client', mem', rfl⟩
    · rw [hasEnded_eq, same, ← hasEnded_eq] at ends
      rw [responsesOf, same]
      exact draining.ended ends
    · have orderly := tidy.orderly client' mem'
      rw [ends] at orderly
      have all := (left client' mem' rfl).2
      rwa [orderly.delivered, List.append_nil] at all

theorem afterAll (moves : List ExchangeMove) : (t.afterAll moves).Draining quota n total := by
  induction moves generalizing t with
  | nil => exact draining
  | cons move rest ih => exact ih (draining.after move)

/-- The stream was there before, and no nearer to its end. -/
theorem came (moves : List ExchangeMove) {client' : ClientStream} (mem' : client' ∈ (t.afterAll moves).clients)
    (is : client'.number = n) : ∃ client ∈ t.clients, client.number = n ∧ client'.stream.Nearer client.stream := by
  induction moves generalizing t with
  | nil => exact ⟨client', mem', is, Or.inr rfl⟩
  | cons move rest ih =>
    obtain ⟨between, among, here, nearer⟩ := ih (draining.after move) mem'
    obtain ⟨client, mem, number, cancelled, -, heard, -, goes⟩ := draining.goes move among here
    exact ⟨client, mem, number, nearer.trans (goes.nearer cancelled)⟩

/-- The feeder takes a step: only a full buffer keeps it from getting nearer to the end. -/
theorem fed {client' : ClientStream} (mem' : client' ∈ (t.after (.feed n)).clients) (is : client'.number = n) :
    ∃ client ∈ t.clients, client.number = n ∧ client'.stream.Nearer client.stream ∧
      (client'.stream = client.stream → client.stream.running = false ∨ client.stream.buffer ≠ []) := by
  obtain ⟨client, mem, rfl, cancelled, -, heard, -, goes⟩ := draining.goes (.feed n) mem' is
  refine ⟨client, mem, rfl, goes.nearer cancelled, fun still => ?_⟩
  obtain ⟨stream, inHand, schema, works, clients, -⟩ := t.feed_works client
  rw [draining.numbered.after_feed mem, clients] at mem'
  obtain ⟨other, among, rfl⟩ := List.mem_map.1 mem'
  by_cases here : other.number = client.number
  · rw [if_pos here] at still
    exact works.idle cancelled still
  · rw [if_neg here] at is
    exact absurd is here

/-- The reader gets to the end, or the stream gets nearer to it, or the reader has to wait for the feeder. -/
theorem read {name : String} {client : ClientStream} (found : Entries.find? name t.session.streams = some client)
    (is : client.number = n) :
    (t.after (.receive name)).hasEnded n = true ∨
      0 < client.stream.stepsToEnd ∧ ∀ client' ∈ (t.after (.receive name)).clients, client'.number = n →
        client'.stream.stepsToEnd < client.stream.stepsToEnd ∨
          client'.stream = client.stream ∧ client.stream.buffer = [] ∧ client.stream.running = true := by
  subst is
  have receives : t.after (.receive name) = t.receive name client := by rw [Exchange.after, found]
  obtain ⟨-, deliveries⟩ := draining.numbered.receive_reads found
  have follows := draining.numbered.receives found
  have only : ∀ client' ∈ (t.receive name client).clients, client'.number = client.number →
      client'.stream = client.stream.receive.2 := fun client' mem' is =>
    congrArg ClientStream.stream (follows.numbered.client_of_number mem' (draining.numbered.mem_receive found) is)
  rw [receives]
  rcases client.stream.receive_cases with ⟨response, rest, buffer, received⟩ | ⟨empty, runs, received⟩ | ⟨-, -, received⟩
  all_goals rw [received] at only deliveries
  · have less : ({ client.stream with buffer := rest } : ResponseStream).stepsToEnd < client.stream.stepsToEnd := by
      simp [ResponseStream.stepsToEnd, buffer]
    exact Or.inr ⟨Nat.lt_of_le_of_lt (Nat.zero_le _) less, fun client' mem' is => Or.inl (only client' mem' is ▸ less)⟩
  · have positive : 0 < client.stream.stepsToEnd := by simp [ResponseStream.stepsToEnd, runs]
    exact Or.inr ⟨positive, fun client' mem' is => Or.inr ⟨only client' mem' is, empty, runs⟩⟩
  · refine Or.inl ?_
    rw [hasEnded, deliveries, endedIn_append]
    simp [Delivery.isFinished]

end Draining

theorem afterAll_append (t : Exchange) (moves later : List ExchangeMove) :
    t.afterAll (moves ++ later) = (t.afterAll moves).afterAll later := List.foldl_append

/-- What readers got stays so. -/
theorem deliveries_after (t : Exchange) (move : ExchangeMove) : t.deliveries <+: (t.after move).deliveries := by
  have moves := t.moves_after move
  generalize t.after move = t' at moves
  cases moves with
  | receives => exact List.prefix_append _ _
  | _ => exact List.prefix_rfl

theorem deliveries_afterAll (t : Exchange) (moves : List ExchangeMove) : t.deliveries <+: (t.afterAll moves).deliveries := by
  induction moves generalizing t with
  | nil => exact List.prefix_rfl
  | cons move rest ih => exact (t.deliveries_after move).trans (ih (t.after move))

theorem deliveriesOf_afterAll (t : Exchange) (n : Nat) (moves : List ExchangeMove) :
    t.deliveriesOf n <+: (t.afterAll moves).deliveriesOf n := ((t.deliveries_afterAll moves).filter _).map _

theorem hasEnded_afterAll (ended : t.hasEnded n = true) (moves : List ExchangeMove) :
    (t.afterAll moves).hasEnded n = true := by
  rw [hasEnded_eq] at ended ⊢
  obtain ⟨later, more⟩ := t.deliveriesOf_afterAll n moves
  rw [← more, List.any_append, ended, Bool.true_or]

/-! ## Turns -/

/-- The feeder of a stream has its turn, and after it the reader. -/
def TakesTurn (t : Exchange) (n : Nat) (moves : List ExchangeMove) : Prop :=
  ∃ before between after name client, moves = before ++ .feed n :: (between ++ .receive name :: after) ∧
    Entries.find? name ((t.afterAll before).after (.feed n) |>.afterAll between).session.streams = some client ∧
      client.number = n

/-- They have their turns again and again, whatever is done between. -/
def TakesTurns (n : Nat) (t : Exchange) : List (List ExchangeMove) → Prop
  | [] => True
  | moves :: rest => t.TakesTurn n moves ∧ (t.afterAll moves).TakesTurns n rest

/-- A turn brings a cancelled stream nearer to its end. -/
theorem Draining.turn (draining : t.Draining quota n total) {moves : List ExchangeMove} (turn : t.TakesTurn n moves) :
    (t.afterAll moves).hasEnded n = true ∨
      ∃ client ∈ t.clients, client.number = n ∧ 0 < client.stream.stepsToEnd ∧
        ∀ client' ∈ (t.afterAll moves).clients, client'.number = n →
          client'.stream.stepsToEnd < client.stream.stepsToEnd := by
  obtain ⟨before, between, after, name, client₃, rfl, found, is⟩ := turn
  have first := draining.afterAll before
  have second := first.after (.feed n)
  have third := second.afterAll between
  have fourth := third.after (.receive name)
  have same : t.afterAll (before ++ .feed n :: (between ++ .receive name :: after)) =
      ((((t.afterAll before).after (.feed n)).afterAll between).after (.receive name)).afterAll after := by
    rw [afterAll_append]
    exact afterAll_append _ between (.receive name :: after)
  rw [same]
  rcases third.read found is with ended | ⟨positive, reads⟩
  · exact Or.inl (hasEnded_afterAll ended after)
  · obtain ⟨client₂, mem₂, is₂, nearer₂⟩ := second.came between (Numbered.mem_clients_of_find? found) is
    obtain ⟨client₁, mem₁, is₁, nearer₁, waits⟩ := first.fed mem₂ is₂
    obtain ⟨client, mem, number, nearer⟩ := draining.came before mem₁ is₁
    have le₁ := nearer₁.le
    have le₂ := nearer₂.le
    have le := nearer.le
    refine Or.inr ⟨client, mem, number, Nat.lt_of_lt_of_le positive (by omega), fun client' mem' is' => ?_⟩
    obtain ⟨client₄, mem₄, is₄, nearer₄⟩ := fourth.came after mem' is'
    have le₄ := nearer₄.le
    rcases reads client₄ mem₄ is₄ with less | ⟨unread, empty, runs⟩
    · omega
    · -- Had the stream stayed the same throughout, its feeder would have had room and the reader something to read.
      by_contra still
      rw [unread] at le₄
      have fed : client₂.stream = client₁.stream := nearer₁.eq_of_le (by omega)
      have found : client₃.stream = client₂.stream := nearer₂.eq_of_le (by omega)
      rw [found, fed] at empty runs
      rcases waits fed with stopped | full
      · cases runs.symm.trans stopped
      · exact full empty

/-- A cancelled stream that has its turns comes to its end. -/
theorem Draining.ends (draining : t.Draining quota n total) {rounds : List (List ExchangeMove)}
    (turns : t.TakesTurns n rounds) {steps : Nat}
    (within : ∀ client ∈ t.clients, client.number = n → client.stream.stepsToEnd ≤ steps) (enough : steps < rounds.length) :
    (t.afterAll rounds.flatten).hasEnded n = true := by
  -- Every round ends the stream or leaves it with fewer steps, and there are more rounds than steps.
  induction rounds generalizing t steps with
  | nil => exact absurd enough (Nat.not_lt_zero _)
  | cons moves rest ih =>
    rw [List.flatten_cons, afterAll_append]
    rcases draining.turn turns.1 with ended | ⟨client, mem, is, positive, nearer⟩
    · exact hasEnded_afterAll ended _
    · have most := within client mem is
      have left : ∀ client' ∈ (t.afterAll moves).clients, client'.number = n → client'.stream.stepsToEnd ≤ steps - 1 := by
        intro client' mem' is'
        have less := nearer client' mem' is'
        omega
      refine ih (draining.afterAll moves) turns.2 left ?_
      rw [List.length_cons] at enough
      omega

/-- A feeder works on a stream where it is. -/
theorem find?_feed (other : ClientStream) {name : String} {client : ClientStream}
    (found : Entries.find? name t.session.streams = some client) :
    ∃ client', Entries.find? name (t.feed other).session.streams = some client' ∧ client'.number = client.number := by
  obtain ⟨stream, inHand, schema, -, -, streams, -⟩ := t.feed_works other
  have mapped := Entries.find?_map (fun client : ClientStream =>
    if client.number = other.number then { client with stream } else client) name t.session.streams
  rw [← streams, found] at mapped
  refine ⟨_, mapped, ?_⟩
  dsimp only
  split <;> rfl

/-- The feeder and the reader of a stream take turns, and nothing else is done. -/
theorem takesTurns_alone (numbered : t.Numbered quota) {name : String} {client : ClientStream}
    (found : Entries.find? name t.session.streams = some client) (count : Nat) :
    t.TakesTurns client.number (List.replicate count [.feed client.number, .receive name]) := by
  induction count generalizing t client with
  | zero => trivial
  | succ count ih =>
    have mem := Numbered.mem_clients_of_find? found
    obtain ⟨client₁, found₁, is₁⟩ := find?_feed client found
    have fed := (numbered.feeds mem).numbered
    have found₂ := (fed.receive_reads found₁).1 ▸ Entries.find?_insert_self name _ _
    have read := (fed.receives found₁).numbered
    have same : t.afterAll [.feed client.number, .receive name] = (t.feed client).receive name client₁ := by
      change ((t.after (.feed client.number)).after (.receive name)) = _
      rw [numbered.after_feed mem, Exchange.after, found₁]
    refine ⟨⟨[], [], [], name, client₁, rfl, ?_, is₁⟩, ?_⟩
    · change Entries.find? name (t.after (.feed client.number)).session.streams = _
      rw [numbered.after_feed mem]
      exact found₁
    · have rest := ih read found₂
      rwa [same, ← is₁]

/-! ## What cancels a stream, and what becomes of it -/

/-- The moves that cancel a stream. -/
inductive Cancels (t : Exchange) : ExchangeMove → ClientStream → Prop
  /-- Who has started it cancels it. -/
  | caller {name : String} {client : ClientStream} (found : Entries.find? name t.session.streams = some client)
      (own : client.registration = none) : Cancels t (.cancel name) client
  | stops {id : String} {client : ClientStream} (mem : client ∈ t.kept)
      (active : Entries.find? id t.session.active = some client.number) : Cancels t (.stop id) client
  /-- Streams that have been opened and not entered yet are cancelled, too. -/
  | closes {client : ClientStream} (mem : client ∈ t.clients) (registered : client.registration.isSome = true) :
    Cancels t .close client
  /-- Another stream is entered under its id. -/
  | replaces {k number : Nat} {connection : Connection} {name : String} {place : Registration} {other client : ClientStream}
      (at' : t.calls[k]? = some (.opened name place other)) (current : t.session.connection = some (number, connection))
      (room : connection.checkQuota place.id = .ok ()) (mem : client ∈ t.kept)
      (active : Entries.find? place.id t.session.active = some client.number) : Cancels t (.step k) client

/-- What becomes of a cancelled stream. -/
structure Drains (t : Exchange) (client : ClientStream) : Prop where
  /-- Its reader gets what is on its way already, in its order, and nothing else. -/
  gets : ∀ later, ∃ got, got <+: client.stream.toDeliver ∧
    (t.afterAll later).responsesOf client.number = t.responsesOf client.number ++ got
  /-- Who reads to the end gets all of it. -/
  whole : ∀ later, (t.afterAll later).hasEnded client.number = true →
    (t.afterAll later).responsesOf client.number = t.responsesOf client.number ++ client.stream.toDeliver
  /-- The end comes after no more turns than there is left to do, whatever is done between. -/
  ends : ∀ rounds, t.TakesTurns client.number rounds → client.stream.stepsToEnd < rounds.length →
    (t.afterAll rounds.flatten).hasEnded client.number = true
  /-- A client that only reads gets to the end. -/
  alone : ∀ name, Entries.find? name t.session.streams = some client →
    (t.afterAll (List.replicate (client.stream.stepsToEnd + 1)
      [.feed client.number, .receive name]).flatten).hasEnded client.number = true

theorem tidy_start (schema : Schema) : (start schema).Tidy where
  orderly _ mem := absurd mem List.not_mem_nil
  idle _ _ := rfl

theorem Numbered.tidy_afterAll (numbered : t.Numbered quota) (tidy : t.Tidy) (moves : List ExchangeMove) :
    (t.afterAll moves).Tidy := by
  induction moves generalizing t with
  | nil => exact tidy
  | cons move rest ih => exact ih (numbered.follows_after move).numbered (numbered.tidy_after tidy move)

theorem Draining.drains {client : ClientStream} (numbered : t.Numbered quota) (tidy : t.Tidy) (mem : client ∈ t.clients)
    (cancelled : client.stream.cancelled = true) : t.Drains client := by
  have draining := of_cancelled numbered tidy mem cancelled
  have within : ∀ other ∈ t.clients, other.number = client.number → other.stream.stepsToEnd ≤ client.stream.stepsToEnd := by
    intro other mem' same
    cases numbered.client_of_number mem' mem same
    exact Nat.le_refl _
  refine ⟨fun later => ?_, fun later => (draining.afterAll later).ended, fun rounds turns => draining.ends turns within,
    fun name found => draining.ends (takesTurns_alone numbered found _) within ?_⟩
  · obtain ⟨got, more⟩ := (t.deliveriesOf_afterAll client.number later).filterMap (·.response?)
    refine ⟨got, ?_, more.symm⟩
    have heard := (draining.afterAll later).heard
    rw [responsesOf, ← more] at heard
    exact (List.prefix_append_right_inj _).1 heard
  · rw [List.length_replicate]
    exact Nat.lt_succ_self _

namespace Numbered

variable (numbered : t.Numbered quota) {client client' : ClientStream}

include numbered

/-- A stream that a client has is not one that has been opened and not entered yet. -/
theorem kept_apart (mem : client ∈ t.kept) (mem' : client' ∈ t.calls.filterMap (·.client?)) :
    client'.number ≠ client.number := by
  have distinct := (List.nodup_append'.1 numbered.distinct_clients).1
  rw [clients, List.map_append] at distinct
  intro same
  exact (List.nodup_append'.1 distinct).2.2 (List.mem_map_of_mem mem) (same ▸ List.mem_map_of_mem mem')

theorem cancel_of_cancelling (session : Session) (streams : session.streams = t.session.streams)
    {which : ClientStream → Bool} (mem : client ∈ t.clients) (picked : client ∈ t.kept → which client = true)
    (mem' : client' ∈ (session.cancelling which).streams.map (·.2)) (is : client'.number = client.number) :
    client' = client.cancel := by
  obtain ⟨entry, among, rfl⟩ := List.mem_map.1 mem'
  obtain ⟨before, old, rfl⟩ := List.mem_map.1 among
  have kept : before.2 ∈ t.kept := List.mem_map_of_mem (streams ▸ old)
  have number : before.2.number = client.number := by
    dsimp only at is
    split at is <;> exact is
  have same := numbered.client_of_number (List.mem_append_left _ kept) mem number
  dsimp only
  rw [same, if_pos (picked (same ▸ kept))]

omit numbered in
theorem after_enters {k number : Nat} {connection : Connection} {name : String} {place : Registration}
    (at' : t.calls[k]? = some (.opened name place client)) (current : t.session.connection = some (number, connection))
    (room : connection.checkQuota place.id = .ok ()) :
    t.after (.step k) = t.advanced k (.opened name place client) (.entered client.number)
      ((Session.keepStream name client).run (t.session.entering place client)).2 := by
  have steps : t.after (.step k) =
      t.advance k (.opened name place client) (SubscriptionStage.opened name place client).step := by rw [after, at']
  rw [steps, advance, SubscriptionStage.run_opened current room, Session.run_keepEntered current]

/-- What a move has cancelled of the streams that clients have. -/
theorem cancelled_kept (cancels : t.Cancels move client) (kept : client' ∈ (t.after move).kept)
    (is : client'.number = client.number) : client' = client.cancel := by
  cases cancels with
  | @caller name _ found own =>
    rw [Exchange.kept, after, Session.run_cancelStream found] at kept
    refine numbered.cancel_of_cancelling t.session rfl (mem_clients_of_find? found) (fun _ => ?_) kept is
    simp [own]
  | @stops id _ mem active =>
    rw [Exchange.kept, after, Session.run_connectionStop numbered.connected] at kept
    exact numbered.cancel_of_cancelling (t.session.withActive _) rfl (List.mem_append_left _ mem)
      (fun _ => decide_eq_true active.symm) kept is
  | closes mem registered =>
    rw [Exchange.kept, after, Session.run_connectionClose numbered.connected] at kept
    refine numbered.cancel_of_cancelling (t.session.onCurrent _) rfl mem (fun kept => ?_) kept is
    obtain ⟨place, registered⟩ := Option.isSome_iff_exists.1 registered
    rw [registered]
    exact decide_eq_true (numbered.connected.places client kept place registered)
  | @replaces k number connection name place other _ at' current room mem active =>
    rw [Exchange.kept, after_enters at' current room] at kept
    obtain ⟨connected, place', fresh⟩ := numbered.entering at'
    obtain ⟨entry, there, rfl⟩ := List.mem_map.1 kept
    rcases connected.mem_keep place' fresh name there with rfl | old
    · have among : other ∈ t.calls.filterMap (·.client?) :=
        List.mem_filterMap.2 ⟨_, List.mem_of_getElem? at', rfl⟩
      exact absurd is (numbered.kept_apart mem among)
    · exact numbered.cancel_of_cancelling (t.session.withActive _) rfl (List.mem_append_left _ mem)
        (fun _ => decide_eq_true active.symm) (List.mem_map_of_mem old) is

/-- What a move has cancelled of the streams that have been opened and not entered yet. -/
theorem cancelled_called (cancels : t.Cancels move client) (called : client' ∈ (t.after move).calls.filterMap (·.client?))
    (is : client'.number = client.number) : client' = client.cancel := by
  cases cancels with
  | caller found =>
    have kept : client ∈ t.kept := List.mem_map.2 ⟨_, Entries.mem_of_find? found, rfl⟩
    exact absurd is (numbered.kept_apart kept called)
  | stops mem => exact absurd is (numbered.kept_apart mem called)
  | closes mem registered =>
    obtain ⟨before, among, rfl⟩ := List.mem_map.1 (clients_onCalls t.calls ClientStream.cancel ▸ called)
    rw [numbered.client_of_number (List.mem_append_right _ among) mem is]
  | replaces at' current room mem active =>
    rw [after_enters at' current room] at called
    obtain ⟨stage, among, is'⟩ := List.mem_filterMap.1 called
    rcases List.mem_or_eq_of_mem_set among with old | rfl
    · exact absurd is (numbered.kept_apart mem (List.mem_filterMap.2 ⟨stage, old, is'⟩))
    · cases is'

/-- A stream that is cancelled in a move is cancelled after it, and else as it was. -/
theorem cancelled_after (cancels : t.Cancels move client) (mem' : client' ∈ (t.after move).clients)
    (is : client'.number = client.number) : client' = client.cancel :=
  (List.mem_append.1 mem').elim (numbered.cancelled_kept cancels · is) (numbered.cancelled_called cancels · is)

end Numbered

/-- However the steps of calls, feeders and readers interleave, and whatever has been executed, buffered or sent by then:
a stream that is cancelled gives what was on its way, and ends. -/
theorem cancelled_drains (schema : Schema) (moves : List ExchangeMove) :
    let t := (start schema).afterAll moves
    (∀ move client, t.Cancels move client →
      ∀ client' ∈ (t.after move).clients, client'.number = client.number → client' = client.cancel) ∧
      ∀ client ∈ t.clients, client.stream.cancelled = true → t.Drains client := by
  intro t
  have numbered := (reached schema moves).1
  have tidy := (numbered_start schema).tidy_afterAll (tidy_start schema) moves
  exact ⟨fun _ _ cancels _ => numbered.cancelled_after cancels, fun _ => Draining.drains numbered tidy⟩

end Exchange

namespace ClockSubscription

def tick : Response := ⟨.object [("clock", .const (.int 1))], []⟩

/-- The subscription, started without the connection. -/
def listening (stream : ResponseStream) : Session :=
  { schema := compiledSchema, next := 2, connection := some (0, { quota := 1 })
    streams := [("clock", { number := 1, registration := none, stream })] }

theorem clock_listening : (Exchange.start schema).after (.subscribe "clock" request false) =
    { session := listening (.ofOpened opened 1 false) } := by
  have opens : (Session.openStream request false none).run (Exchange.start schema).session = _ :=
    Session.run_openStream (subscribed false)
  have begins : (Session.subscribe "clock" request false).run (Exchange.start schema).session = _ :=
    Session.run_bind_of opens _
  rw [Exchange.after, begins]
  rfl

/-- The clock ticks, and the subscription is cancelled when the tick is in the buffer, from where it is delivered. -/
theorem cancelled_delivers :
    let t := (Exchange.start schema).afterAll
      [.subscribe "clock" request false, .feed 1, .feed 1, .feed 1, .cancel "clock"]
    t.clients.map (·.stream.cancelled) = [true] ∧
      t.responsesOf 1 = [] ∧ (t.after (.receive "clock")).responsesOf 1 = [tick] := by
  intro t
  have begins : t = Exchange.afterAll { session := listening (.ofOpened opened 1 false) }
      [.feed 1, .feed 1, .feed 1, .cancel "clock"] := by
    rw [← clock_listening]
    rfl
  have is : t =
      { session := listening { ResponseStream.ofOpened opened 1 true with events := [], buffer := [tick] }
        inHand := t.inHand } := by
    rw [begins]
    with_unfolding_all rfl
  rw [is]
  exact ⟨rfl, rfl, rfl⟩

end ClockSubscription

end GraphQL
