import GraphQL.Proofs.Subscription.Sessions

/-!
# What a connection knows

Calls that start subscriptions, feeders and readers take their steps in any order, streams end, are dropped, stopped and
cancelled, and the connection is closed. Every move is one that the books allow for (`Exchange.Numbered.follows_after`),
so the books agree in every state: `Exchange.afterAll_booked` says which streams a connection knows, and
`Exchange.active_counts_running` how many of them are running.
-/

namespace GraphQL

def Delivery.isFinished : Delivery → Bool
  | finished => true
  | _ => false

/-- A registration of a call is with the connection. -/
def SubscriptionStage.IsPlaced : SubscriptionStage → Prop
  | admitted _ place _ _ => place.connection = 0
  | opened _ place client => place.connection = 0 ∧ client.registration = some place
  | _ => True

theorem Connection.room_of_checkQuota {connection : Connection} {id : String} (room : connection.checkQuota id = .ok ()) :
    0 < connection.quota → connection.active.length < connection.quota ∨ Entries.contains id connection.active = true := by
  intro positive
  rw [checkQuota] at room
  by_contra neither
  obtain ⟨full, absent⟩ := not_or.1 neither
  simp [positive, Nat.not_lt.1 full, Bool.eq_false_iff.2 absent] at room

theorem exists_set {α : Type} {xs : List α} {k : Nat} {x : α} (at' : xs[k]? = some x) :
    ∃ before after, xs = before ++ x :: after ∧ ∀ y, xs.set k y = before ++ y :: after := by
  obtain ⟨within, rfl⟩ := List.getElem?_eq_some_iff.1 at'
  refine ⟨xs.take k, xs.drop (k + 1), ?_, fun y => ?_⟩
  · rw [List.getElem_cons_drop, List.take_append_drop]
  · rw [List.set_eq_take_append_cons_drop, if_pos within]

namespace Exchange

/-- Whether a reader has got to the end of a stream. -/
def endedIn (deliveries : List (Nat × Delivery)) (number : Nat) : Bool :=
  deliveries.any fun (n, delivery) => n = number && delivery.isFinished

def hasEnded (t : Exchange) : Nat → Bool := endedIn t.deliveries

theorem endedIn_append (deliveries : List (Nat × Delivery)) (number : Nat) (delivery : Delivery) :
    endedIn (deliveries ++ [(number, delivery)]) =
      fun n => endedIn deliveries n || (number = n && delivery.isFinished) := by
  funext n
  rw [endedIn, List.any_append, List.any_cons, List.any_nil, Bool.or_false]
  rfl

def ledger (t : Exchange) : Ledger := t.session.books t.hasEnded t.entered

/-- The numbers that calls have drawn and not used yet. -/
def drawn (t : Exchange) : List Nat := t.calls.filterMap (·.number?)

/-- The numbers that were used. -/
def past (t : Exchange) : List Nat := t.session.numbers ++ t.entered.map (·.number) ++ t.deliveries.map (·.1)

/-- No number is used twice. -/
structure Numbered (quota : Nat) (t : Exchange) : Prop where
  connected : t.session.Connected quota
  placed : ∀ stage ∈ t.calls, stage.IsPlaced
  drawn : t.drawn.Nodup
  apart : ∀ n ∈ t.drawn, n ∉ t.past
  below : ∀ n, n ∈ t.drawn ∨ n ∈ t.past → n < t.session.next

/-- What a move leaves of an exchange. -/
structure Follows (quota : Nat) (t t' : Exchange) : Prop where
  numbered : t'.Numbered quota
  next : t.session.next ≤ t'.session.next
  books : t.ledger.Becomes quota t'.ledger

variable {quota : Nat} {t t' : Exchange}

theorem mem_past {n : Nat} :
    n ∈ t.past ↔ n ∈ t.session.numbers ∨ n ∈ t.entered.map (·.number) ∨ n ∈ t.deliveries.map (·.1) := by
  rw [past, List.mem_append, List.mem_append, or_assoc]

theorem past_of_kept {n : Nat} (mem : n ∈ t.session.numbers) : n ∈ t.past := mem_past.2 (Or.inl mem)

theorem past_of_entered {n : Nat} (mem : n ∈ t.entered.map (·.number)) : n ∈ t.past := mem_past.2 (Or.inr (Or.inl mem))

theorem past_of_delivered {n : Nat} (mem : n ∈ t.deliveries.map (·.1)) : n ∈ t.past := mem_past.2 (Or.inr (Or.inr mem))

/-- A number that was not used is not in the books. -/
theorem unbooked {n : Nat} (unused : n ∉ t.past) :
    (∀ mark ∈ t.ledger.alive, mark.number ≠ n) ∧ ∀ entry ∈ t.entered, entry.number ≠ n := by
  refine ⟨fun mark mem same => unused (past_of_kept ?_), fun entry mem same => unused (past_of_entered ?_)⟩
  · exact List.mem_map.2 ⟨mark, Session.Connected.mem_marks_of_alive mem, same⟩
  · exact List.mem_map.2 ⟨entry, mem, same⟩

namespace Numbered

variable (numbered : t.Numbered quota)

include numbered

/-- Numbers are drawn and used. -/
theorem succ (connected : t'.session.Connected quota) (placed : ∀ stage ∈ t'.calls, stage.IsPlaced)
    (drawn : t'.drawn.Nodup) (next : t.session.next ≤ t'.session.next)
    (draws : ∀ n ∈ t'.drawn, n ∈ t.drawn ∨ t.session.next ≤ n ∧ n < t'.session.next)
    (past : ∀ n ∈ t'.past, n ∈ t.past ∨ n ∉ t'.drawn ∧ (n ∈ t.drawn ∨ t.session.next ≤ n ∧ n < t'.session.next)) :
    t'.Numbered quota where
  connected := connected
  placed := placed
  drawn := drawn
  apart n mem used := by
    rcases past n used with before | ⟨absent, -⟩
    · rcases draws n mem with old | new
      · exact numbered.apart n old before
      · exact absurd (numbered.below n (Or.inr before)) (Nat.not_lt.2 new.1)
    · exact absent mem
  below n is := by
    have known : n ∈ t.past ∨ n ∈ t.drawn ∨ t.session.next ≤ n ∧ n < t'.session.next :=
      is.elim (fun mem => Or.inr (draws n mem)) fun mem => (past n mem).imp_right And.right
    rcases known with before | old | new
    · exact Nat.lt_of_lt_of_le (numbered.below n (Or.inr before)) next
    · exact Nat.lt_of_lt_of_le (numbered.below n (Or.inl old)) next
    · exact new.2

/-- No number is drawn. -/
theorem keep (connected : t'.session.Connected quota) (placed : ∀ stage ∈ t'.calls, stage.IsPlaced)
    (drawn : t'.drawn.Sublist t.drawn) (next : t'.session.next = t.session.next) (past : t'.past ⊆ t.past) :
    t'.Numbered quota :=
  numbered.succ connected placed (numbered.drawn.sublist drawn) (Nat.le_of_eq next.symm)
    (fun _ mem => Or.inl (drawn.subset mem)) fun _ mem => Or.inl (past mem)

theorem begins (name id : String) (request : Request) : t.Follows quota (t.after (.begin name id request)) where
  numbered := by
    refine numbered.keep numbered.connected (fun stage mem => ?_) ?_ rfl (List.Subset.refl _)
    · rcases List.mem_append.1 mem with before | new
      · exact numbered.placed stage before
      · cases List.mem_singleton.1 new
        trivial
    · change ((t.calls ++ [_]).filterMap _).Sublist (t.calls.filterMap _)
      rw [List.filterMap_append]
      exact (List.append_nil _) ▸ List.Sublist.refl _
  next := Nat.le_refl _
  books := .refl

omit numbered in
theorem drawn_set {k : Nat} {stage : SubscriptionStage} (at' : t.calls[k]? = some stage) :
    ∃ before after, t.drawn = before ++ (stage.number?.toList ++ after) ∧
      ∀ next : SubscriptionStage, (t.calls.set k next).filterMap (·.number?) = before ++ (next.number?.toList ++ after) := by
  obtain ⟨before, after, split, set⟩ := exists_set at'
  have drawn (next : SubscriptionStage) : (t.calls.set k next).filterMap (·.number?) =
      before.filterMap (·.number?) ++ (next.number?.toList ++ after.filterMap (·.number?)) := by
    rw [set, List.filterMap_append, List.filterMap_cons]
    cases next.number? <;> rfl
  refine ⟨_, _, ?_, drawn⟩
  rw [← drawn stage, set, ← split]
  rfl

theorem placed_set {next : SubscriptionStage} (is : next.IsPlaced) (k : Nat) :
    ∀ stage ∈ t.calls.set k next, stage.IsPlaced := by
  intro stage mem
  rcases List.mem_or_eq_of_mem_set mem with mem | rfl
  · exact numbered.placed stage mem
  · exact is

omit numbered in
/-- A call goes on, and streams and connection stay as they are. -/
theorem follows_quietly {k next' : Nat} {stage next : SubscriptionStage} {schema : Schema} {journal : List JournalEntry}
    (silent : stage.entry? next = none) (least : t.session.next ≤ next')
    (numbered : Numbered quota
      { t with session := { t.session with schema, next := next', journal }, calls := t.calls.set k next }) :
    t.Follows quota (t.advanced k stage next { t.session with schema, next := next', journal }) := by
  rw [advanced, silent, Option.toList_none, List.append_nil]
  exact ⟨numbered, least, .refl⟩

theorem keep_set {k : Nat} {stage next : SubscriptionStage} (at' : t.calls[k]? = some stage) (placed : next.IsPlaced)
    (number : next.number?.toList.Sublist stage.number?.toList) (schema : Schema) (journal : List JournalEntry) :
    Numbered quota { t with session := { t.session with schema, journal }, calls := t.calls.set k next } := by
  obtain ⟨before, after, drawn, set⟩ := drawn_set at'
  refine numbered.keep (numbered.connected.of_same rfl rfl) (numbered.placed_set placed k) ?_ rfl
    (List.Subset.refl _)
  change ((t.calls.set k next).filterMap _).Sublist _
  rw [set, drawn]
  exact (List.Sublist.refl _).append (number.append (List.Sublist.refl _))

/-- A call draws a number. -/
theorem draw {k : Nat} {stage next : SubscriptionStage} (at' : t.calls[k]? = some stage) (placed : next.IsPlaced)
    (none : stage.number? = none) (number : next.number? = some t.session.next) :
    Numbered quota
      { t with session := { t.session with next := t.session.next + 1 }, calls := t.calls.set k next } := by
  obtain ⟨before, after, drawn, set⟩ := drawn_set at'
  have more : ((t.calls.set k next).filterMap (·.number?)).Perm (t.session.next :: t.drawn) := by
    rw [set, drawn, none, number]
    exact List.perm_middle
  refine numbered.succ (numbered.connected.of_same rfl rfl)
    (numbered.placed_set placed k) ?_ (Nat.le_succ _) ?_ fun _ mem => Or.inl mem
  · refine more.nodup_iff.2 (List.nodup_cons.2 ⟨fun mem => ?_, numbered.drawn⟩)
    exact Nat.lt_irrefl _ (numbered.below _ (Or.inl mem))
  · intro n mem
    rcases List.mem_cons.1 (more.subset mem) with rfl | old
    · exact Or.inr ⟨Nat.le_refl _, Nat.lt_succ_self _⟩
    · exact Or.inl old

omit numbered in
theorem running_of_notMem {n : Nat} (unused : n ∉ t.past) : t.hasEnded n = false := by
  refine Bool.eq_false_iff.2 fun ended => ?_
  obtain ⟨delivery, mem, is⟩ := List.any_eq_true.1 ended
  simp only [Bool.and_eq_true, decide_eq_true_eq] at is
  exact unused (past_of_delivered (List.mem_map.2 ⟨delivery, mem, is.1⟩))

/-- A call uses its number. -/
theorem use {k n : Nat} {stage next : SubscriptionStage} (at' : t.calls[k]? = some stage) (placed : next.IsPlaced)
    (number : stage.number? = some n) (none : next.number? = none) {session : Session}
    (connected : session.Connected quota) (numbers : session.numbers ⊆ n :: t.session.numbers)
    (same : session.next = t.session.next) {entry : Entered} (is : entry.number = n) :
    Numbered quota { t with session, calls := t.calls.set k next, entered := t.entered ++ [entry] } := by
  obtain ⟨before, after, drawn, set⟩ := drawn_set at'
  rw [number] at drawn
  have distinct : (n :: (before ++ after)).Nodup := List.perm_middle.nodup (drawn ▸ numbered.drawn)
  have left : (t.calls.set k next).filterMap (·.number?) = before ++ after := by
    rw [set, none]
    rfl
  have drawn' {m : Nat} : m ∈ t.drawn ↔ m = n ∨ m ∈ before ++ after := by
    rw [drawn]
    simp
    tauto
  -- What was used before is used still, and the number of the call goes from the drawn to the used ones.
  refine numbered.succ connected (numbered.placed_set placed k) ?_ (Nat.le_of_eq same.symm)
    (fun m mem => Or.inl (drawn'.2 (Or.inr (left ▸ mem)))) fun m mem => ?_
  · change ((t.calls.set k next).filterMap _).Nodup
    rw [left]
    exact (List.nodup_cons.1 distinct).2
  · have known : m ∈ t.past ∨ m = n := by
      rcases mem_past.1 mem with kept | entered | delivered
      · rcases List.mem_cons.1 (numbers kept) with rfl | kept
        · exact Or.inr rfl
        · exact Or.inl (past_of_kept kept)
      · rw [List.map_append] at entered
        rcases List.mem_append.1 entered with before | new
        · exact Or.inl (past_of_entered before)
        · exact Or.inr ((List.mem_singleton.1 new).trans is)
      · exact Or.inl (past_of_delivered delivered)
    refine known.imp_right fun here => ⟨fun mem => ?_, Or.inl (drawn'.2 (Or.inl here))⟩
    subst here
    exact (List.nodup_cons.1 distinct).1 (left ▸ mem)

theorem unused {k : Nat} {name : String} {place : Registration} {client : ClientStream}
    (at' : t.calls[k]? = some (.opened name place client)) : client.number ∉ t.past :=
  numbered.apart client.number (List.mem_filterMap.2 ⟨_, List.mem_of_getElem? at', rfl⟩)

/-- The stream that a call enters is a new one. -/
theorem entering {k : Nat} {name : String} {place : Registration} {client : ClientStream}
    (at' : t.calls[k]? = some (.opened name place client)) :
    (t.session.entering place client).Connected quota ∧
      (∀ other, client.registration = some other → other.connection = 0) ∧
        client.number ∉ (t.session.entering place client).numbers := by
  obtain ⟨zero, registered⟩ := numbered.placed _ (List.mem_of_getElem? at')
  refine ⟨(numbered.connected.withActive _).cancelling _, fun other is => ?_, ?_⟩
  · cases registered.symm.trans is
    exact zero
  · rw [show (t.session.entering place client).numbers = t.session.numbers from Session.Connected.numbers_cancelling _]
    exact fun mem => numbered.unused at' (past_of_kept mem)

/-- The books of a stream that is entered. -/
theorem books_entering {k number : Nat} {connection : Connection} {name : String} {place : Registration}
    {client : ClientStream} (at' : t.calls[k]? = some (.opened name place client))
    (current : t.session.connection = some (number, connection)) (room : connection.checkQuota place.id = .ok ()) :
    t.ledger.Changes quota
      ⟨(t.session.entering place client).active, (t.session.entering place client).alive t.hasEnded ++ [client.mark],
        t.entered ++ [⟨place.id, client.number, client.stream.cancelled⟩]⟩ := by
  have mark : client.mark = ⟨client.number, some place.id, client.stream.cancelled⟩ := by
    rw [ClientStream.mark, (numbered.placed _ (List.mem_of_getElem? at')).2]
    rfl
  have active : (t.session.entering place client).active = _ := Session.active_withActive numbered.connected _
  have alive : (t.session.entering place client).alive t.hasEnded = _ :=
    Session.alive_cancelling (Ledger.holds t.session.active place.id) fun _ _ => rfl
  obtain ⟨apart, fresh⟩ := unbooked (numbered.unused at')
  rw [alive, mark, active]
  refine .enters ⟨place.id, client.number, client.stream.cancelled⟩ apart fresh ?_
  obtain ⟨connection', current', is⟩ := numbered.connected.current
  cases current.symm.trans current'
  have known : t.ledger.active = connection.active := Session.active_of current
  rw [← is, known]
  exact connection.room_of_checkQuota room

/-- A call enters its stream. -/
theorem enters {k number : Nat} {connection : Connection} {name : String} {place : Registration} {client : ClientStream}
    (at' : t.calls[k]? = some (.opened name place client)) (current : t.session.connection = some (number, connection))
    (room : connection.checkQuota place.id = .ok ()) :
    t.Follows quota (t.advanced k (.opened name place client) (.entered client.number)
      ((Session.keepStream name client).run (t.session.entering place client)).2) := by
  obtain ⟨connected, place', fresh⟩ := numbered.entering at'
  obtain ⟨kept, same⟩ := connected.numbers_keep place' fresh name
  have numbers : (t.session.entering place client).numbers = t.session.numbers :=
    Session.Connected.numbers_cancelling _
  have placed : (SubscriptionStage.entered client.number).IsPlaced := trivial
  have running := running_of_notMem (numbered.unused at')
  refine ⟨numbered.use at' placed rfl rfl (connected.keep place' fresh name) (numbers ▸ kept) same rfl,
    Nat.le_of_eq same.symm, ?_⟩
  exact (Relation.ReflTransGen.single (numbered.books_entering at' current room)).trans
    (connected.books_keep place' fresh running name)

theorem advances {k : Nat} {stage : SubscriptionStage} (at' : t.calls[k]? = some stage) {next : SubscriptionStage}
    {session : Session} (steps : stage.Steps t.session next session) :
    t.Follows quota (t.advanced k stage next session) := by
  have placed := numbered.placed stage (List.mem_of_getElem? at')
  cases steps with
  | @admits number connection name key request connected room =>
    obtain ⟨connection', current, -⟩ := numbered.connected.current
    cases connected.symm.trans current
    refine follows_quietly rfl (Nat.le_succ _) (numbered.draw at' ?_ rfl rfl)
    exact (rfl : (0 : Nat) = 0)
  | opens source late schema journal =>
    refine follows_quietly rfl (Nat.le_refl _) (numbered.keep_set at' ?_ ?_ schema journal)
    · exact And.intro placed rfl
    · exact List.Sublist.refl [_]
  | enters connected room =>
    rw [Session.run_keepEntered connected]
    exact numbered.enters at' connected room
  | @fails _ next ongoing failed schema journal =>
    have silent : stage.entry? next = none := by cases stage <;> cases next <;> first | rfl | cases failed
    have number : next.number? = none := by cases next <;> first | rfl | cases failed
    refine follows_quietly silent (Nat.le_refl _) (numbered.keep_set at' ?_ ?_ schema journal)
    · cases next <;> trivial
    · rw [number]
      exact List.nil_sublist _
  | rests done =>
    have silent : stage.entry? stage = none := by cases stage <;> rfl
    exact follows_quietly silent (Nat.le_refl _)
      (numbered.keep_set at' placed (List.Sublist.refl _) t.session.schema t.session.journal)

/-- The session changes, and no number is drawn. -/
theorem session {session : Session} (connected : session.Connected quota) (numbers : session.numbers ⊆ t.session.numbers)
    (next : session.next = t.session.next) : Numbered quota { t with session } := by
  refine numbered.keep connected numbered.placed (List.Sublist.refl _) next fun n mem => ?_
  rcases mem_past.1 mem with kept | entered | delivered
  · exact past_of_kept (numbers kept)
  · exact past_of_entered entered
  · exact past_of_delivered delivered

theorem cancelling {session : Session} (connected : session.Connected quota) (numbers : session.numbers = t.session.numbers)
    (next : session.next = t.session.next) (which : ClientStream → Bool) :
    Numbered quota { t with session := session.cancelling which } := by
  refine numbered.session (connected.cancelling which) ?_ next
  rw [Session.Connected.numbers_cancelling, numbers]
  exact List.Subset.refl _

theorem drops (name : String) : t.Follows quota (t.after (.drop name)) := by
  obtain ⟨numbers, next⟩ := numbered.connected.numbers_drop name
  exact ⟨numbered.session (numbered.connected.drop name) numbers next, Nat.le_of_eq next.symm,
    numbered.connected.books_drop name⟩

theorem stops (id : String) : t.Follows quota (t.after (.stop id)) := by
  have stopped := Session.run_connectionStop numbered.connected id
  refine ⟨?_, Nat.le_of_eq (congrArg Session.next stopped).symm, .single (numbered.connected.books_stop id)⟩
  rw [after, stopped]
  exact numbered.cancelling (numbered.connected.withActive _) rfl rfl _

theorem cancels (name : String) : t.Follows quota (t.after (.cancel name)) := by
  have books : (t.session.books t.hasEnded t.entered).Becomes quota _ := numbered.connected.books_cancel name
  cases found : Entries.find? name t.session.streams with
  | none =>
    have left := Session.run_cancelStream_none found
    refine ⟨?_, Nat.le_of_eq (congrArg Session.next left).symm, books⟩
    rw [after, left]
    exact numbered
  | some client =>
    have left := Session.run_cancelStream found
    refine ⟨?_, Nat.le_of_eq (congrArg Session.next left).symm, books⟩
    rw [after, left]
    exact numbered.cancelling numbered.connected rfl rfl _

/-- The streams of calls change. -/
theorem onCalls {f : ClientStream → ClientStream} (number : ∀ client, (f client).number = client.number)
    (place : ∀ client, (f client).registration = client.registration) :
    Numbered quota { t with calls := t.calls.map (·.onClient f) } := by
  have same (stage : SubscriptionStage) : (stage.onClient f).number? = stage.number? := by
    cases stage with
    | opened name place client => exact congrArg some (number client)
    | _ => rfl
  refine numbered.keep numbered.connected (fun stage mem => ?_) ?_ rfl (List.Subset.refl _)
  · obtain ⟨before, mem', rfl⟩ := List.mem_map.1 mem
    have placed := numbered.placed before mem'
    cases before with
    | opened name place' client => exact And.intro placed.1 ((place client).trans placed.2)
    | _ => exact placed
  · change ((t.calls.map _).filterMap _).Sublist (t.calls.filterMap _)
    rw [List.filterMap_map, show _ ∘ _ = _ from funext same]

theorem closes : t.Follows quota (t.after .close) := by
  have closed := Session.run_connectionClose numbered.connected
  refine ⟨?_, Nat.le_of_eq (congrArg Session.next closed).symm, .single numbered.connected.books_close⟩
  rw [after, closed]
  have closed := numbered.cancelling (numbered.connected.onCurrent (f := Connection.close) fun _ => rfl) rfl rfl
    fun client => client.registration.any (·.connection = 0)
  exact closed.onCalls (f := ClientStream.cancel) (fun _ => rfl) fun _ => rfl

/-- A reader gets something of a stream that is kept. -/
theorem delivers {name : String} {client : ClientStream} (found : Entries.find? name t.session.streams = some client)
    {session : Session} (connected : session.Connected quota) (numbers : session.numbers = t.session.numbers)
    (next : session.next = t.session.next) (delivery : Delivery) :
    Numbered quota { t with session, deliveries := t.deliveries ++ [(client.number, delivery)] } := by
  refine numbered.keep connected numbered.placed (List.Sublist.refl _) next fun n mem => ?_
  have kept : client.number ∈ t.session.numbers :=
    List.mem_map.2 ⟨client.mark, Session.Connected.mark_mem_of_find? found, rfl⟩
  rcases mem_past.1 mem with kept' | entered | delivered
  · exact past_of_kept (numbers ▸ kept')
  · exact past_of_entered entered
  · rw [List.map_append] at delivered
    rcases List.mem_append.1 delivered with before | new
    · exact past_of_delivered before
    · cases List.mem_singleton.1 new
      exact past_of_kept kept

/-- The stream that is kept under a name is at another point. -/
theorem moves {name : String} {client : ClientStream} (found : Entries.find? name t.session.streams = some client)
    (stream : ResponseStream) (same : stream.cancelled = client.stream.cancelled) :
    let session := { t.session with streams := Entries.insert name { client with stream } t.session.streams }
    session.marks = t.session.marks ∧ session.Connected quota := by
  intro session
  have marks : session.marks = t.session.marks := by
    refine Entries.map_insert_of_find? found ?_
    rw [ClientStream.mark, ClientStream.mark, same]
  refine ⟨marks, numbered.connected.current, fun other mem => ?_, ?_⟩
  · have place := numbered.connected.place_of_find? found
    obtain ⟨entry, mem', rfl⟩ := List.mem_map.1 mem
    rcases Entries.mem_insert mem' with rfl | old
    · exact place
    · exact numbered.connected.places _ (List.mem_map_of_mem old)
  · rw [Session.numbers, marks]
    exact numbered.connected.distinct

theorem hears {name : String} {client : ClientStream} (found : Entries.find? name t.session.streams = some client)
    {kept : Session} (connected : kept.Connected quota) (active : kept.active = t.session.active)
    (marks : kept.marks = t.session.marks) (next : kept.next = t.session.next) {delivery : Delivery}
    (more : delivery.isFinished = false) :
    t.Follows quota { t with session := kept, deliveries := t.deliveries ++ [(client.number, delivery)] } := by
  refine ⟨numbered.delivers found connected (congrArg (List.map _) marks) next delivery, Nat.le_of_eq next.symm, ?_⟩
  have books : kept.books (endedIn (t.deliveries ++ [(client.number, delivery)])) t.entered = t.ledger := by
    rw [endedIn_append, more, Session.books, Session.alive, marks, active]
    simp only [Bool.and_false, Bool.or_false]
    rfl
  exact Relation.reflTransGen_iff_eq_or_transGen.2 (Or.inl books)

/-- A stream that has ended gives its place back. -/
theorem finishes {name : String} {client : ClientStream} (found : Entries.find? name t.session.streams = some client)
    {kept : Session} (connected : kept.Connected quota) (active : kept.active = t.session.active)
    (marks : kept.marks = t.session.marks) (next : kept.next = t.session.next) :
    t.Follows quota
      { t with
        session := ((Session.release client).run kept).2
        deliveries := t.deliveries ++ [(client.number, .finished)] } := by
  rw [Session.run_release connected (numbered.connected.place_of_find? found), active]
  refine ⟨numbered.delivers found (connected.withActive _) (congrArg (List.map _) marks) next _, Nat.le_of_eq next.symm,
    .single ?_⟩
  have books : (kept.withActive (Ledger.without t.session.active client.mark)).books
      (endedIn (t.deliveries ++ [(client.number, .finished)])) t.entered =
        ⟨Ledger.without t.session.active client.mark, (t.session.alive t.hasEnded).filter (·.number ≠ client.number),
          t.entered⟩ := by
    rw [Session.books_withActive connected, endedIn_append, Session.alive, marks, Session.alive, List.filter_filter]
    refine congrArg (fun alive => Ledger.mk _ alive _) (List.filter_congr fun mark _ => ?_)
    by_cases here : client.number = mark.number
    · simp [here, Delivery.isFinished]
    · simp [here, Ne.symm here, hasEnded]
  exact (congrArg (Ledger.Changes quota _) books).mpr (numbered.connected.loses found)

theorem receives {name : String} {client : ClientStream} (found : Entries.find? name t.session.streams = some client) :
    t.Follows quota (t.receive name client) := by
  rw [receive]
  rcases client.stream.receive_cases with ⟨response, rest, -, received⟩ | ⟨-, -, received⟩ | ⟨-, -, received⟩
  all_goals rw [received]
  · obtain ⟨marks, connected⟩ := numbered.moves found { client.stream with buffer := rest } rfl
    exact numbered.hears found connected rfl marks rfl rfl
  · obtain ⟨marks, connected⟩ := numbered.moves found client.stream rfl
    exact numbered.hears found connected rfl marks rfl rfl
  · obtain ⟨marks, connected⟩ := numbered.moves found client.stream rfl
    exact numbered.finishes found connected rfl marks rfl

omit numbered in
/-- A number that a call has drawn is that of its stream, or is waiting for it. -/
theorem drawn_perm (calls : List SubscriptionStage) :
    (calls.filterMap (·.number?)).Perm ((calls.filterMap (·.client?)).map (·.number) ++ calls.filterMap (·.awaits?)) := by
  induction calls with
  | nil => exact .refl _
  | cons stage rest ih =>
    cases stage with
    | admitted name place request number => exact (ih.cons number).trans List.perm_middle.symm
    | opened name place client => exact ih.cons client.number
    | _ => exact ih

omit numbered in
theorem kept_numbers (t : Exchange) : t.kept.map (·.number) = t.session.numbers := by
  unfold kept Session.numbers Session.marks
  rw [List.map_map, List.map_map]
  rfl

/-- No two streams that are in use have one number, and none has one that is waiting for another stream. -/
theorem distinct_clients : (t.clients.map (·.number) ++ t.calls.filterMap (·.awaits?)).Nodup := by
  rw [clients, List.map_append, kept_numbers, List.append_assoc]
  refine List.nodup_append'.2 ⟨numbered.connected.distinct, (drawn_perm t.calls).nodup numbered.drawn, fun n mem mem' => ?_⟩
  exact numbered.apart n ((drawn_perm t.calls).mem_iff.2 mem') (past_of_kept mem)

theorem client_of_number {client other : ClientStream} (mem : client ∈ t.clients) (mem' : other ∈ t.clients)
    (same : client.number = other.number) : client = other :=
  List.inj_on_of_nodup_map (List.nodup_append'.1 numbered.distinct_clients).1 mem mem' same

/-- Streams change that are in use. -/
theorem onClients {f : ClientStream → ClientStream} (number : ∀ client, (f client).number = client.number)
    (place : ∀ client, (f client).registration = client.registration)
    (same : ∀ client ∈ t.kept, (f client).stream.cancelled = client.stream.cancelled) : t.Follows quota (t.onClients f) := by
  have session : Numbered quota { t with session := t.session.onStreams f } := by
    refine numbered.session (numbered.connected.onStreams number place) ?_ rfl
    rw [Session.Connected.numbers_onStreams number]
    exact List.Subset.refl _
  refine ⟨session.onCalls number place, Nat.le_refl _, ?_⟩
  have marks : (t.session.onStreams f).marks = t.session.marks := by
    unfold Session.onStreams Session.marks
    rw [List.map_map]
    refine List.map_congr_left fun entry mem => ?_
    rw [Function.comp_apply, ClientStream.mark, number, place, same entry.2 (List.mem_map_of_mem mem)]
    rfl
  have books : (t.session.onStreams f).books t.hasEnded t.entered = t.ledger := by
    rw [Session.books, Session.alive, marks]
    rfl
  exact Relation.reflTransGen_iff_eq_or_transGen.2 (Or.inl books)

/-- The schema changes. -/
theorem calls (schema : Schema) (inHand : Nat → Option (Except Breakdown Response)) :
    t.Follows quota { t with session := { t.session with schema }, inHand } :=
  ⟨numbered.keep (numbered.connected.of_same rfl rfl) numbered.placed (List.Sublist.refl _) rfl
    (List.Subset.refl _), Nat.le_refl _, .refl⟩

theorem feeds {client : ClientStream} (mem : client ∈ t.clients) : t.Follows quota (t.feed client) := by
  have same := client.stream.work_cancelled t.session.schema (t.inHand client.number)
  rw [feed]
  generalize (client.stream.work (t.inHand client.number)).run t.session.schema = worked at same
  obtain ⟨⟨stream, inHand⟩, schema⟩ := worked
  have fed : t.Follows quota
      (t.onClients fun other => if other.number = client.number then { other with stream } else other) := by
    refine numbered.onClients (fun other => ?_) (fun other => ?_) fun other mem' => ?_
    · split <;> rfl
    · split <;> rfl
    · split
      · next here =>
        rw [numbered.client_of_number (List.mem_append_left _ mem') mem here]
        exact same
      · rfl
  exact ⟨(fed.numbered.calls schema _).numbered, fed.next, fed.books⟩

/-- A stream is kept that is new and not with the connection. -/
theorem keepsNew {client : ClientStream} (number : client.number = t.session.next) (own : client.registration = none)
    (name : String) (schema : Schema) (journal : List JournalEntry) :
    t.Follows quota
      { t with
        session := ((Session.keepStream name client).run
          { t.session with schema, next := t.session.next + 1, journal }).2 } := by
  have connected : ({ t.session with schema, next := t.session.next + 1, journal } : Session).Connected quota :=
    numbered.connected.of_same rfl rfl
  have unused : client.number ∉ t.past := fun mem => Nat.ne_of_lt (numbered.below _ (Or.inr mem)) number
  have drawn : client.number ∉ t.drawn := fun mem => Nat.ne_of_lt (numbered.below _ (Or.inl mem)) number
  have place : ∀ place, client.registration = some place → place.connection = 0 := fun _ is => by cases own.symm.trans is
  have fresh : client.number ∉ t.session.numbers := fun mem => unused (past_of_kept mem)
  obtain ⟨numbers, next⟩ := connected.numbers_keep place fresh name
  obtain ⟨apart, unentered⟩ := unbooked unused
  have step := Nat.lt_of_lt_of_eq (Nat.lt_succ_self _) next.symm
  refine ⟨numbered.succ (connected.keep place fresh name) numbered.placed numbered.drawn (Nat.le_of_lt step)
    (fun _ mem => Or.inl mem) fun n mem => ?_, Nat.le_of_lt step, ?_⟩
  · rcases mem_past.1 mem with kept | entered | delivered
    · rcases List.mem_cons.1 (numbers kept) with rfl | kept
      · exact Or.inr ⟨drawn, Or.inr ⟨Nat.le_of_eq number.symm, Nat.lt_of_le_of_lt (Nat.le_of_eq number) step⟩⟩
      · exact Or.inl (past_of_kept kept)
    · exact Or.inl (past_of_entered entered)
    · exact Or.inl (past_of_delivered delivered)
  · have mark : client.mark = ⟨client.number, none, client.stream.cancelled⟩ := by
      rw [ClientStream.mark, own]
      rfl
    have keeps : t.ledger.Changes quota ⟨t.ledger.active, t.ledger.alive ++ [client.mark], t.entered⟩ :=
      mark ▸ .keeps client.number client.stream.cancelled apart unentered
    exact (Relation.ReflTransGen.single keeps).trans
      (connected.books_keep place fresh (running_of_notMem unused) name)

/-- A stream is started without the connection. -/
theorem subscribes (name : String) (request : Request) (cancelled : Bool) :
    t.Follows quota (t.after (.subscribe name request cancelled)) := by
  cases ran : (Schema.subscribe request cancelled).run t.session.schema with
  | mk finished schema =>
    obtain ⟨result, journal, late⟩ := finished
    have opened : (Session.openStream request cancelled none).run t.session = _ := Session.run_openStream ran
    have begins : (Session.subscribe name request cancelled).run t.session = _ := Session.run_bind_of opened _
    have refused : t.Follows quota
        { t with
          session := { t.session with schema, next := t.session.next + 1, journal := t.session.journal ++ journal } } :=
      ⟨numbered.succ (numbered.connected.of_same rfl rfl) numbered.placed numbered.drawn (Nat.le_succ _)
        (fun _ mem => Or.inl mem) fun _ mem => Or.inl mem, Nat.le_succ _, .refl⟩
    rw [after, begins]
    rcases result with b | e | source
    · exact refused
    · exact refused
    · exact numbered.keepsNew rfl rfl name schema _

theorem follows_self : t.Follows quota t := ⟨numbered, Nat.le_refl _, .refl⟩

/-- What every move leaves. -/
theorem follows_after (move : ExchangeMove) : t.Follows quota (t.after move) := by
  have moves := t.moves_after move
  generalize t.after move = t' at moves
  cases moves with
  | rests => exact numbered.follows_self
  | begins name id request => exact numbered.begins name id request
  | advances own at' steps => exact numbered.advances at' steps
  | feeds mem => exact numbered.feeds mem
  | receives found => exact numbered.receives found
  | drops name => exact numbered.drops name
  | stops id => exact numbered.stops id
  | closes => exact numbered.closes
  | subscribes name request cancelled => exact numbered.subscribes name request cancelled
  | cancels name => exact numbered.cancels name
  | calls other => exact numbered.calls _ t.inHand

end Numbered

theorem Follows.trans {u : Exchange} (first : t.Follows quota t') (next : t'.Follows quota u) : t.Follows quota u :=
  ⟨next.numbered, Nat.le_trans first.next next.next, first.books.trans next.books⟩

theorem Numbered.follows_afterAll (numbered : t.Numbered quota) (moves : List ExchangeMove) :
    t.Follows quota (t.afterAll moves) := by
  induction moves generalizing t with
  | nil => exact numbered.follows_self
  | cons move rest ih =>
    have first := numbered.follows_after move
    exact first.trans (ih first.numbered)

theorem numbered_start (schema : Schema) : (start schema).Numbered schema.config.memory.maxSubscriptionsPerConnection where
  connected := ⟨⟨_, rfl, rfl⟩, fun _ mem => absurd mem List.not_mem_nil, List.nodup_nil⟩
  placed _ mem := absurd mem List.not_mem_nil
  drawn := List.nodup_nil
  apart _ mem := absurd mem List.not_mem_nil
  below _ is := is.elim (absurd · List.not_mem_nil) (absurd · List.not_mem_nil)

/-- Every state of an exchange, with its books. -/
theorem reached (schema : Schema) (moves : List ExchangeMove) :
    ((start schema).afterAll moves).Numbered schema.config.memory.maxSubscriptionsPerConnection ∧
      ((start schema).afterAll moves).ledger.Sound schema.config.memory.maxSubscriptionsPerConnection := by
  have follows := (numbered_start schema).follows_afterAll moves
  exact ⟨follows.numbered, follows.books.sound (Ledger.sound_empty _)⟩

/-! ## What a connection knows -/

/-- The streams that clients have, and that have not ended. -/
def alive (t : Exchange) : List ClientStream := t.kept.filter fun client => !t.hasEnded client.number

/-- Those that were started on the connection and are not cancelled. -/
def running (t : Exchange) : List ClientStream :=
  t.alive.filter fun client => client.registration.isSome && !client.stream.cancelled

theorem alive_marks (t : Exchange) : t.ledger.alive = t.alive.map (·.mark) := by
  change (t.session.streams.map _).filter _ = ((t.session.streams.map _).filter _).map _
  rw [List.filter_map, List.filter_map, List.map_map]
  rfl

theorem running_marks (t : Exchange) : t.ledger.running = t.running.map (·.mark) := by
  rw [Ledger.running, alive_marks, List.filter_map, running]
  refine congrArg (List.map _) (List.filter_congr fun client _ => ?_)
  obtain ⟨number, registration, stream⟩ := client
  cases registration <;> rfl

/-- What a connection knows of its subscriptions, and of which it does not. -/
structure Booked (quota : Nat) (t : Exchange) : Prop where
  within : 0 < quota → t.session.active.length ≤ quota
  ids : (Entries.keys t.session.active).Nodup
  /-- An entry is of the stream that was entered last under its id. -/
  latest : ∀ entry ∈ t.session.active, Ledger.latest? t.entered entry.1 = some entry.2
  /-- That stream is alive. -/
  alive : ∀ entry ∈ t.session.active, ∃ client ∈ t.alive,
    client.number = entry.2 ∧ client.registration = some ⟨0, entry.1⟩
  /-- The end of a stream leaves the entries of others alone, and so does dropping it. -/
  others : ∀ name client, Entries.find? name t.session.streams = some client →
    ∀ entry ∈ t.session.active, entry.2 ≠ client.number →
      entry ∈ (t.after (.receive name)).session.active ∧ entry ∈ (t.after (.drop name)).session.active
  /-- A stream without an entry is cancelled. -/
  left : ∀ client ∈ t.alive, ∀ place, client.registration = some place →
    (place.id, client.number) ∈ t.session.active ∨ client.stream.cancelled = true

theorem Numbered.active_drop (numbered : t.Numbered quota) {name : String} {client : ClientStream}
    (found : Entries.find? name t.session.streams = some client) :
    (t.after (.drop name)).session.active = Ledger.without t.session.active client.mark := by
  have left := numbered.connected.fewer (Entries.erase_sublist name t.session.streams)
  rw [after, Session.run_dropStream found, Session.run_release left (numbered.connected.place_of_find? found)]
  exact Session.active_withActive left _

theorem Numbered.active_receive (numbered : t.Numbered quota) {name : String} {client : ClientStream}
    (found : Entries.find? name t.session.streams = some client) :
    (t.after (.receive name)).session.active = t.session.active ∨
      (t.after (.receive name)).session.active = Ledger.without t.session.active client.mark := by
  rw [after, found]
  dsimp only
  rw [receive]
  rcases client.stream.receive_cases with ⟨response, rest, -, received⟩ | ⟨-, -, received⟩ | ⟨-, -, received⟩
  all_goals rw [received]
  · exact Or.inl rfl
  · exact Or.inl rfl
  · obtain ⟨-, connected⟩ := numbered.moves found client.stream rfl
    refine Or.inr ?_
    dsimp only
    rw [Session.run_release connected (numbered.connected.place_of_find? found)]
    exact Session.active_withActive connected _

/-- However the steps of calls, feeders and readers interleave, a connection knows just the streams that it should. -/
theorem afterAll_booked (schema : Schema) (moves : List ExchangeMove) :
    ((start schema).afterAll moves).Booked schema.config.memory.maxSubscriptionsPerConnection := by
  obtain ⟨numbered, sound⟩ := reached schema moves
  generalize (start schema).afterAll moves = t at numbered sound
  refine ⟨sound.within, sound.ids, sound.latest, fun entry mem => ?_, fun name client found entry mem other => ?_,
    fun client mem place is => ?_⟩
  · obtain ⟨mark, among, number, id⟩ := sound.alive entry mem
    rw [alive_marks] at among
    obtain ⟨client, alive, rfl⟩ := List.mem_map.1 among
    obtain ⟨⟨connection, key⟩, is, rfl⟩ := Option.map_eq_some_iff.1 id
    have zero := numbered.connected.places client (List.mem_filter.1 alive).1 _ is
    exact ⟨client, alive, number, is.trans (congrArg (fun c => some (Registration.mk c _)) zero)⟩
  · have same : ∀ mark ∈ t.ledger.alive, mark.number = client.mark.number → mark.id = client.mark.id := fun mark among is =>
      congrArg Mark.id (numbered.connected.mark_of_number (Session.Connected.mem_marks_of_alive among)
        (Session.Connected.mark_mem_of_find? found) is)
    have stays : entry ∈ Ledger.without t.session.active client.mark := (sound.mem_without same).2 ⟨mem, other⟩
    constructor
    · rcases numbered.active_receive found with unchanged | released
      · exact unchanged.symm ▸ mem
      · exact released.symm ▸ stays
    · exact (numbered.active_drop found).symm ▸ stays
  · have among : client.mark ∈ t.ledger.alive := by
      rw [alive_marks]
      exact List.mem_map_of_mem mem
    exact sound.left client.mark among place.id (congrArg (Option.map _) is)

/-- A connection counts every running subscription, and what it counts beyond them are those that were cancelled before
they were entered. -/
theorem active_counts_running (schema : Schema) (moves : List ExchangeMove) :
    let t := (start schema).afterAll moves
    t.running.length ≤ t.session.active.length ∧
      (t.session.active.length = t.running.length ↔
        ∀ entry ∈ t.session.active, ∀ other ∈ t.entered, other.number = entry.2 → other.cancelled = false) := by
  intro t
  have counts := (reached schema moves).2.active_counts
  rw [running_marks, List.length_map] at counts
  exact counts

end Exchange

namespace ClockSubscription

/-- The connection is closed before the subscription is started. -/
theorem closed_entered :
    (Exchange.start schema).afterAll [.close, .begin "clock" "1" request, .step 0, .step 0, .step 0] =
      { session :=
          { schema := compiledSchema, next := 2
            connection := some (0, { quota := 1, active := [("1", 1)], closed := true })
            streams := [("clock", { number := 1, registration := some ⟨0, "1"⟩, stream := .ofOpened opened 1 true })] }
        calls := [.entered 1], entered := [⟨"1", 1, true⟩] } := by
  let admitted : Exchange :=
    { session := { schema, connection := some (0, { quota := 1, closed := true }), next := 2 }
      calls := [.admitted "clock" ⟨0, "1"⟩ request 1] }
  have first : (Exchange.start schema).afterAll [.close, .begin "clock" "1" request, .step 0] = admitted := rfl
  have second : admitted.after (.step 0) = admitted.advance 0 (.admitted "clock" ⟨0, "1"⟩ request 1)
      (SubscriptionStage.admitted "clock" ⟨0, "1"⟩ request 1).step := rfl
  rw [Exchange.advance, SubscriptionStage.run_admitted (subscribed true)] at second
  change (((Exchange.start schema).afterAll [.close, .begin "clock" "1" request, .step 0]).after (.step 0)).after
    (.step 0) = _
  rw [first, second]
  rfl

/-- The connection counts a subscription that was cancelled from the start. -/
theorem closed_miscounted :
    let t := (Exchange.start schema).afterAll [.close, .begin "clock" "1" request, .step 0, .step 0, .step 0]
    t.session.active.length = 1 ∧ t.running = [] := by
  rw [closed_entered]
  exact ⟨rfl, rfl⟩

end ClockSubscription

end GraphQL
