import GraphQL.Proofs.Subscription.Registered

/-!
# Where streams come from

What there is after a move was there before or has just been opened, and a number that has been used is not used again. So
a stream can be followed through any moves: in each of them it stays, is cancelled, is worked on or is read.
-/

namespace GraphQL

/-- What may become of a stream in a move, and what its reader gets. -/
inductive ResponseStream.Goes (stream : ResponseStream) (inHand : Option (Except Breakdown Response)) :
    ResponseStream → Option (Except Breakdown Response) → List Delivery → Prop
  | stays : Goes stream inHand stream inHand []
  | cancels : Goes stream inHand stream.cancel inHand []
  | works {s t : Schema} {stream' : ResponseStream} {inHand' : Option (Except Breakdown Response)}
      (works : stream.Works s inHand (stream', inHand') t) : Goes stream inHand stream' inHand' []
  | reads : Goes stream inHand stream.receive.2 inHand [stream.receive.1]

namespace Exchange

variable {quota : Nat} {t t' : Exchange} {n : Nat}

/-- What readers got of a stream. -/
def deliveriesOf (t : Exchange) (n : Nat) : List Delivery := (t.deliveries.filter (·.1 = n)).map (·.2)

/-- The numbers that calls have drawn for streams that are not there yet. -/
def awaited (t : Exchange) : List Nat := t.calls.filterMap (·.awaits?)

/-- A number that no stream will have that is not there already. -/
structure Known (t : Exchange) (n : Nat) : Prop where
  below : n < t.session.next
  given : n ∉ t.awaited

/-- What becomes of a stream in a move. -/
def Goes (t t' : Exchange) (client client' : ClientStream) : Prop :=
  client'.number = client.number ∧ ∃ heard, t'.deliveriesOf client.number = t.deliveriesOf client.number ++ heard ∧
    client.stream.Goes (t.inHand client.number) client'.stream (t'.inHand client.number) heard

/-- A stream that has just been opened. -/
structure New (t t' : Exchange) (client : ClientStream) : Prop where
  unknown : ¬t.Known client.number
  stream : ∃ opened capacity cancelled, client.stream = .ofOpened opened capacity cancelled
  inHand : t'.inHand = t.inHand
  deliveries : t'.deliveries = t.deliveries

theorem clients_onCalls (calls : List SubscriptionStage) (f : ClientStream → ClientStream) :
    (calls.map (·.onClient f)).filterMap (·.client?) = (calls.filterMap (·.client?)).map f := by
  induction calls with
  | nil => rfl
  | cons stage rest ih =>
    cases stage with
    | opened name place client => exact congrArg (f client :: ·) ih
    | _ => exact ih

theorem clients_onClients (t : Exchange) (f : ClientStream → ClientStream) : (t.onClients f).clients = t.clients.map f := by
  have kept : (t.onClients f).kept = t.kept.map f := by
    unfold Exchange.onClients Exchange.kept
    rw [List.map_map, List.map_map]
    rfl
  rw [clients, clients, kept, List.map_append]
  exact congrArg (t.kept.map f ++ ·) (clients_onCalls t.calls f)

/-- What a step of a feeder changes. -/
theorem feed_works (t : Exchange) (client : ClientStream) : ∃ stream inHand schema,
    client.stream.Works t.session.schema (t.inHand client.number) (stream, inHand) schema ∧
      (t.feed client).clients =
        t.clients.map (fun other => if other.number = client.number then { other with stream } else other) ∧
      (t.feed client).session.streams = t.session.streams.map (fun entry =>
        (entry.1, if entry.2.number = client.number then { entry.2 with stream } else entry.2)) ∧
      (t.feed client).inHand = Function.update t.inHand client.number inHand ∧
      (t.feed client).deliveries = t.deliveries := by
  have works := client.stream.works_work t.session.schema (t.inHand client.number)
  rw [feed]
  generalize (client.stream.work (t.inHand client.number)).run t.session.schema = worked at works
  obtain ⟨⟨stream, inHand⟩, schema⟩ := worked
  have clients := t.clients_onClients fun other => if other.number = client.number then { other with stream } else other
  exact ⟨stream, inHand, schema, works, clients, rfl, rfl, rfl⟩

/-- No reader gets anything. -/
theorem Goes.quietly {client client' : ClientStream} (number : client'.number = client.number)
    (deliveries : t'.deliveries = t.deliveries)
    (goes : client.stream.Goes (t.inHand client.number) client'.stream (t'.inHand client.number) []) :
    t.Goes t' client client' := by
  refine ⟨number, [], ?_, goes⟩
  rw [deliveriesOf, deliveries, List.append_nil, deliveriesOf]

theorem Goes.stays {client : ClientStream} (deliveries : t'.deliveries = t.deliveries) (inHand : t'.inHand = t.inHand) :
    t.Goes t' client client := by
  refine .quietly rfl deliveries ?_
  rw [inHand]
  exact .stays

theorem Goes.cancels {client : ClientStream} (deliveries : t'.deliveries = t.deliveries) (inHand : t'.inHand = t.inHand) :
    t.Goes t' client client.cancel := by
  refine .quietly rfl deliveries ?_
  rw [inHand]
  exact .cancels

/-- Where a stream comes from that is there after a move. -/
def Origin (t t' : Exchange) (client' : ClientStream) : Prop :=
  (∃ client ∈ t.clients, t.Goes t' client client') ∨ t.New t' client'

theorem Origin.stays {client : ClientStream} (mem : client ∈ t.clients) (deliveries : t'.deliveries = t.deliveries)
    (inHand : t'.inHand = t.inHand) : t.Origin t' client := Or.inl ⟨client, mem, .stays deliveries inHand⟩

namespace Numbered

variable (numbered : t.Numbered quota)

include numbered

theorem known {client : ClientStream} (mem : client ∈ t.clients) : t.Known client.number where
  below := by
    rw [clients] at mem
    rcases List.mem_append.1 mem with kept | opened
    · refine numbered.below _ (Or.inr (past_of_kept ?_))
      rw [← kept_numbers]
      exact List.mem_map_of_mem kept
    · exact numbered.below _ (Or.inl ((drawn_perm t.calls).mem_iff.2 (List.mem_append_left _ (List.mem_map_of_mem opened))))
  given := (List.nodup_append'.1 numbered.distinct_clients).2.2 (List.mem_map_of_mem mem)

theorem known_of_past {n : Nat} (used : n ∈ t.past) : t.Known n where
  below := numbered.below n (Or.inr used)
  given waits := numbered.apart n ((drawn_perm t.calls).mem_iff.2 (List.mem_append_right _ waits)) used

omit numbered in
/-- Streams are cancelled that clients have. -/
theorem origin_cancelling (session : Session) (streams : session.streams = t.session.streams)
    {which : ClientStream → Bool} {client' : ClientStream}
    (mem : client' ∈ (session.cancelling which).streams.map (·.2)) (deliveries : t'.deliveries = t.deliveries)
    (inHand : t'.inHand = t.inHand) : t.Origin t' client' := by
  obtain ⟨entry, among, rfl⟩ := List.mem_map.1 mem
  obtain ⟨before, old, rfl⟩ := List.mem_map.1 among
  have kept : before.2 ∈ t.clients := List.mem_append_left _ (List.mem_map_of_mem (streams ▸ old))
  refine Or.inl ⟨before.2, kept, ?_⟩
  dsimp only
  split
  · exact .cancels deliveries inHand
  · exact .stays deliveries inHand

/-- A call takes a step. -/
theorem origin_advanced {k : Nat} {stage next : SubscriptionStage} {session : Session} (at' : t.calls[k]? = some stage)
    (steps : stage.Steps t.session next session) {client' : ClientStream}
    (mem : client' ∈ (t.advanced k stage next session).clients) :
    t.Origin (t.advanced k stage next session) client' := by
  have among := List.mem_of_getElem? at'
  rcases List.mem_append.1 mem with kept | called
  · cases steps with
    | @enters number connection name place client current room =>
      obtain ⟨connected, place', fresh⟩ := numbered.entering at'
      rw [Session.run_keepEntered current] at kept
      obtain ⟨entry, mem', rfl⟩ := List.mem_map.1 kept
      rcases connected.mem_keep place' fresh name mem' with rfl | old
      · exact .stays (List.mem_append_right _ (List.mem_filterMap.2 ⟨_, among, rfl⟩)) rfl rfl
      · exact origin_cancelling (t.session.withActive _) rfl (List.mem_map_of_mem old) rfl rfl
    | _ => exact .stays (List.mem_append_left _ kept) rfl rfl
  · obtain ⟨stage', mem', is⟩ := List.mem_filterMap.1 called
    rcases List.mem_or_eq_of_mem_set mem' with old | rfl
    · exact .stays (List.mem_append_right _ (List.mem_filterMap.2 ⟨stage', old, is⟩)) rfl rfl
    · cases steps with
      | opens source late schema journal =>
        -- The number was drawn for this stream, and until now the call was waiting for it.
        cases is
        exact Or.inr ⟨fun known => known.given (List.mem_filterMap.2 ⟨_, among, rfl⟩), ⟨source, _, _, rfl⟩, rfl, rfl⟩
      | rests => exact .stays (List.mem_append_right _ (List.mem_filterMap.2 ⟨_, among, is⟩)) rfl rfl
      | fails ongoing failed =>
        cases stage' with
        | opened name place client => cases failed
        | _ => cases is
      | _ => cases is

/-- The feeder of a stream takes a step. -/
theorem origin_feed {client : ClientStream} (mem : client ∈ t.clients) {client' : ClientStream}
    (mem' : client' ∈ (t.feed client).clients) : t.Origin (t.feed client) client' := by
  obtain ⟨stream, inHand, schema, works, clients, -, fed, deliveries⟩ := t.feed_works client
  rw [clients] at mem'
  obtain ⟨before, old, rfl⟩ := List.mem_map.1 mem'
  refine Or.inl ⟨before, old, ?_⟩
  by_cases here : before.number = client.number
  · cases numbered.client_of_number old mem here
    rw [if_pos rfl]
    refine .quietly rfl deliveries ?_
    rw [fed, Function.update_self]
    exact .works works
  · rw [if_neg here]
    refine .quietly rfl deliveries ?_
    rw [fed, Function.update_of_ne here]
    exact .stays

theorem after_feed {client : ClientStream} (mem : client ∈ t.clients) : t.after (.feed client.number) = t.feed client := by
  rw [after]
  cases found : t.clients.find? fun other => other.number = client.number with
  | none => exact absurd (decide_eq_true rfl) (List.find?_eq_none.1 found client mem)
  | some other =>
    have number : other.number = client.number := by simpa using List.find?_some found
    rw [numbered.client_of_number (List.mem_of_find?_eq_some found) mem number]

/-- What a reader changes. -/
theorem receive_reads {name : String} {client : ClientStream}
    (found : Entries.find? name t.session.streams = some client) :
    (t.receive name client).session.streams =
        Entries.insert name { client with stream := client.stream.receive.2 } t.session.streams ∧
      (t.receive name client).deliveries = t.deliveries ++ [(client.number, client.stream.receive.1)] := by
  rw [receive]
  rcases client.stream.receive_cases with ⟨response, rest, -, received⟩ | ⟨-, -, received⟩ | ⟨-, -, received⟩
  all_goals rw [received]
  · exact ⟨rfl, rfl⟩
  · exact ⟨rfl, rfl⟩
  · obtain ⟨-, connected⟩ := numbered.moves found client.stream rfl
    dsimp only
    rw [Session.run_release connected (numbered.connected.place_of_find? found)]
    exact ⟨rfl, rfl⟩

omit numbered in
theorem mem_clients_of_find? {name : String} {client : ClientStream}
    (found : Entries.find? name t.session.streams = some client) : client ∈ t.clients :=
  List.mem_append_left _ (List.mem_map.2 ⟨_, Entries.mem_of_find? found, rfl⟩)

theorem mem_receive {name : String} {client : ClientStream}
    (found : Entries.find? name t.session.streams = some client) :
    { client with stream := client.stream.receive.2 } ∈ (t.receive name client).clients := by
  have read : Entries.find? name (t.receive name client).session.streams = some _ :=
    (numbered.receive_reads found).1 ▸ Entries.find?_insert_self name _ _
  exact mem_clients_of_find? read

theorem origin_receive {name : String} {client : ClientStream}
    (found : Entries.find? name t.session.streams = some client) {client' : ClientStream}
    (mem' : client' ∈ (t.receive name client).clients) : t.Origin (t.receive name client) client' := by
  obtain ⟨streams, deliveries⟩ := numbered.receive_reads found
  have after := (numbered.receives found).numbered
  have read := numbered.mem_receive found
  by_cases here : client'.number = client.number
  · -- No two streams have one number afterwards either, so this is the one that was read.
    cases after.client_of_number mem' read here
    refine Or.inl ⟨client, mem_clients_of_find? found, rfl, [client.stream.receive.1], ?_, .reads⟩
    rw [deliveriesOf, deliveries, List.filter_append, List.map_append]
    simp [deliveriesOf]
  · have old : client' ∈ t.clients := by
      rcases List.mem_append.1 mem' with kept | called
      · obtain ⟨entry, mem, rfl⟩ := List.mem_map.1 kept
        rcases Entries.mem_insert (streams ▸ mem) with rfl | old
        · exact absurd rfl here
        · exact List.mem_append_left _ (List.mem_map_of_mem old)
      · exact List.mem_append_right _ called
    refine Or.inl ⟨client', old, rfl, [], ?_, .stays⟩
    rw [deliveriesOf, deliveries, List.filter_append, List.map_append]
    simp [deliveriesOf, Ne.symm here]

theorem origin_drop {name : String} {client' : ClientStream} (mem' : client' ∈ (t.after (.drop name)).clients) :
    t.Origin (t.after (.drop name)) client' := by
  rcases List.mem_append.1 mem' with kept | called
  · obtain ⟨streams, active, fewer, ran⟩ := numbered.connected.run_drop name
    rw [Exchange.kept, after, ran] at kept
    exact .stays (List.mem_append_left _ ((fewer.map _).subset kept)) rfl rfl
  · exact .stays (List.mem_append_right _ called) rfl rfl

theorem origin_stop {id : String} {client' : ClientStream} (mem' : client' ∈ (t.after (.stop id)).clients) :
    t.Origin (t.after (.stop id)) client' := by
  rcases List.mem_append.1 mem' with kept | called
  · rw [Exchange.kept, after, Session.run_connectionStop numbered.connected] at kept
    exact origin_cancelling (t.session.withActive _) rfl kept rfl rfl
  · exact .stays (List.mem_append_right _ called) rfl rfl

theorem origin_close {client' : ClientStream} (mem' : client' ∈ (t.after .close).clients) :
    t.Origin (t.after .close) client' := by
  rcases List.mem_append.1 mem' with kept | called
  · rw [Exchange.kept, after, Session.run_connectionClose numbered.connected] at kept
    exact origin_cancelling (t.session.onCurrent _) rfl kept rfl rfl
  · obtain ⟨client, mem, rfl⟩ := List.mem_map.1 (clients_onCalls t.calls ClientStream.cancel ▸ called)
    exact Or.inl ⟨client, List.mem_append_right _ mem, .cancels rfl rfl⟩

omit numbered in
theorem origin_cancel {name : String} {client' : ClientStream} (mem' : client' ∈ (t.after (.cancel name)).clients) :
    t.Origin (t.after (.cancel name)) client' := by
  rcases List.mem_append.1 mem' with kept | called
  · rw [Exchange.kept, after] at kept
    cases found : Entries.find? name t.session.streams with
    | none =>
      rw [Session.run_cancelStream_none found] at kept
      exact .stays (List.mem_append_left _ kept) rfl rfl
    | some client =>
      rw [Session.run_cancelStream found] at kept
      exact origin_cancelling t.session rfl kept rfl rfl
  · exact .stays (List.mem_append_right _ called) rfl rfl

theorem origin_subscribe {name : String} {request : Request} {cancelled : Bool} {client' : ClientStream}
    (mem' : client' ∈ (t.after (.subscribe name request cancelled)).clients) :
    t.Origin (t.after (.subscribe name request cancelled)) client' := by
  rcases List.mem_append.1 mem' with kept | called
  · cases ran : (Schema.subscribe request cancelled).run t.session.schema with
    | mk finished schema =>
      obtain ⟨result, journal, late⟩ := finished
      have begins : (Session.subscribe name request cancelled).run t.session = _ :=
        Session.run_bind_of (Session.run_openStream ran) _
      rw [Exchange.kept, after, begins] at kept
      rcases result with b | e | source
      · exact .stays (List.mem_append_left _ kept) rfl rfl
      · exact .stays (List.mem_append_left _ kept) rfl rfl
      · obtain ⟨entry, mem, rfl⟩ := List.mem_map.1 kept
        have connected : ({ t.session with schema, next := t.session.next + 1, journal := t.session.journal ++ journal } :
            Session).Connected quota := numbered.connected.of_same rfl rfl
        have fresh : t.session.next ∉ t.session.numbers := fun mem =>
          Nat.lt_irrefl _ (numbered.below _ (Or.inr (past_of_kept mem)))
        rcases connected.mem_keep (fun place is => by cases is) fresh name mem with rfl | old
        · exact Or.inr ⟨fun known => Nat.lt_irrefl _ known.below, ⟨source, _, _, rfl⟩, rfl, rfl⟩
        · exact .stays (List.mem_append_left _ (List.mem_map_of_mem old)) rfl rfl
  · exact .stays (List.mem_append_right _ called) rfl rfl

/-- Where the streams come from that there are after a move. -/
theorem origin (move : ExchangeMove) {client' : ClientStream} (mem' : client' ∈ (t.after move).clients) :
    t.Origin (t.after move) client' := by
  have moves := t.moves_after move
  generalize t.after move = t' at moves mem'
  cases moves with
  | rests => exact .stays mem' rfl rfl
  | begins name id request =>
    refine .stays ?_ rfl rfl
    rw [clients, List.filterMap_append] at mem'
    rcases List.mem_append.1 mem' with kept | called
    · exact List.mem_append_left _ kept
    · rcases List.mem_append.1 called with old | new
      · exact List.mem_append_right _ old
      · cases new
  | advances own at' steps => exact numbered.origin_advanced at' steps mem'
  | feeds mem => exact numbered.origin_feed mem mem'
  | receives found => exact numbered.origin_receive found mem'
  | drops name => exact numbered.origin_drop mem'
  | stops id => exact numbered.origin_stop mem'
  | closes => exact numbered.origin_close mem'
  | subscribes name request cancelled => exact numbered.origin_subscribe mem'
  | cancels name => exact origin_cancel mem'
  | calls other => exact .stays mem' rfl rfl

omit numbered in
theorem awaited_advanced {k : Nat} {stage next : SubscriptionStage} {session : Session} (at' : t.calls[k]? = some stage)
    (steps : stage.Steps t.session next session) :
    ∀ n ∈ (t.advanced k stage next session).awaited, n ∈ t.awaited ∨ n = t.session.next := by
  intro n mem
  obtain ⟨stage', among, waits⟩ := List.mem_filterMap.1 mem
  rcases List.mem_or_eq_of_mem_set among with old | rfl
  · exact Or.inl (List.mem_filterMap.2 ⟨stage', old, waits⟩)
  · cases steps with
    | admits => exact Or.inr (Option.some.inj waits).symm
    | fails ongoing failed =>
      cases stage' with
      | admitted name place request number => cases failed
      | _ => cases waits
    | rests => exact Or.inl (List.mem_filterMap.2 ⟨_, List.mem_of_getElem? at', waits⟩)
    | _ => cases waits

omit numbered in
theorem awaited_onCalls (calls : List SubscriptionStage) (f : ClientStream → ClientStream) :
    (calls.map (·.onClient f)).filterMap (·.awaits?) = calls.filterMap (·.awaits?) := by
  rw [List.filterMap_map]
  refine congrArg (List.filterMap · calls) (funext fun stage => ?_)
  cases stage <;> rfl

omit numbered in
/-- A number is drawn by the step of a call, and is the next one. -/
theorem awaited_after (move : ExchangeMove) : ∀ n ∈ (t.after move).awaited, n ∈ t.awaited ∨ n = t.session.next := by
  have moves := t.moves_after move
  generalize t.after move = t' at moves
  have quietly (same : t'.awaited = t.awaited) : ∀ n ∈ t'.awaited, n ∈ t.awaited ∨ n = t.session.next :=
    fun n mem => Or.inl (same ▸ mem)
  cases moves with
  | begins name id request =>
    refine quietly ?_
    rw [awaited, List.filterMap_append]
    exact List.append_nil _
  | advances own at' steps => exact awaited_advanced at' steps
  | feeds mem => exact quietly (awaited_onCalls t.calls _)
  | closes => exact quietly (awaited_onCalls t.calls _)
  | _ => exact quietly rfl

theorem known_after {n : Nat} (known : t.Known n) (move : ExchangeMove) : (t.after move).Known n where
  below := Nat.lt_of_lt_of_le known.below (numbered.follows_after move).next
  given waits := (awaited_after move n waits).elim known.given fun same => Nat.ne_of_lt known.below same

/-- Who gets something gets it of a stream that is still there. -/
theorem unheard (move : ExchangeMove) (n : Nat) :
    (t.after move).deliveriesOf n = t.deliveriesOf n ∨ ∃ client' ∈ (t.after move).clients, client'.number = n := by
  have moves := t.moves_after move
  generalize t.after move = t' at moves
  cases moves with
  | @receives name client found =>
    obtain ⟨-, deliveries⟩ := numbered.receive_reads found
    by_cases here : client.number = n
    · exact Or.inr ⟨_, numbered.mem_receive found, here⟩
    · refine Or.inl ?_
      rw [deliveriesOf, deliveries, List.filter_append, List.map_append]
      simp [deliveriesOf, here]
  | _ => exact Or.inl rfl

end Numbered

end Exchange

end GraphQL
