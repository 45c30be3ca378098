import GraphQL.Proofs.Subscription.Exchange

/-!
# Sessions in the books

How the streams and the connection of a session stand in the books of the connection, and what becomes of the books when
streams are dropped, stopped or cancelled, when the connection is closed, and when a new stream is kept.
-/

namespace GraphQL

/-- How a stream stands in the books. -/
def ClientStream.mark (client : ClientStream) : Mark :=
  { number := client.number, id := client.registration.map (·.id), cancelled := client.stream.cancelled }

theorem Connection.release_eq (connection : Connection) (id : String) (number : Nat) (cancelled : Bool) :
    connection.release id number =
      { connection with active := Ledger.without connection.active ⟨number, some id, cancelled⟩ } := by
  rw [release, Ledger.without]
  dsimp only
  split <;> rfl

namespace Session

def marks (s : Session) : List Mark := s.streams.map (·.2.mark)

def numbers (s : Session) : List Nat := s.marks.map (·.number)

/-- The streams that have not ended. -/
def alive (s : Session) (ended : Nat → Bool) : List Mark := s.marks.filter fun mark => !ended mark.number

def books (s : Session) (ended : Nat → Bool) (entered : List Entered) : Ledger := ⟨s.active, s.alive ended, entered⟩

/-- There is one connection, with which all registrations are, and no two streams have one number. -/
structure Connected (quota : Nat) (s : Session) : Prop where
  current : ∃ connection, s.connection = some (0, connection) ∧ connection.quota = quota
  places : ∀ client ∈ s.streams.map (·.2), ∀ place, client.registration = some place → place.connection = 0
  distinct : s.numbers.Nodup

/-- A change of the connection. -/
def onCurrent (s : Session) (f : Connection → Connection) : Session :=
  { s with connection := s.connection.map fun (number, connection) => (number, f connection) }

/-- Another table of active subscriptions. -/
def withActive (s : Session) (active : Entries Nat) : Session := s.onCurrent ({ · with active })

/-- A change of all streams. -/
def onStreams (s : Session) (f : ClientStream → ClientStream) : Session :=
  { s with streams := s.streams.map fun (name, client) => (name, f client) }

def cancelling (s : Session) (which : ClientStream → Bool) : Session :=
  s.onStreams fun client => if which client then client.cancel else client

variable {s : Session} {quota : Nat} {client old : ClientStream} {name id : String}

/-! ### What is done to a session -/

theorem run_release (connected : s.Connected quota)
    (place : ∀ place, client.registration = some place → place.connection = 0) :
    ((release client).run s).2 = s.withActive (Ledger.without s.active client.mark) := by
  obtain ⟨connection, current, -⟩ := connected.current
  obtain ⟨number, registration, stream⟩ := client
  obtain ⟨schema, streams, held, next, journal⟩ := s
  cases (show held = some (0, connection) from current)
  cases registration with
  | none => rfl
  | some registration =>
    obtain ⟨n, id⟩ := registration
    cases (show n = 0 from place _ rfl)
    change ({ schema, streams, connection := some (0, connection.release id number), next, journal } : Session) = _
    rw [connection.release_eq id number stream.cancelled]
    rfl

theorem run_keepStream_new (free : Entries.find? name s.streams = none) :
    ((keepStream name client).run s).2 = { s with streams := s.streams ++ [(name, client)] } := by
  have begins : (keepStream name client).run s = _ := run_get_bind _ s
  rw [begins, free]
  change ({ s with streams := Entries.erase name s.streams ++ [(name, client)] } : Session) = _
  rw [Entries.erase_of_find?_eq_none free]

theorem run_keepStream (found : Entries.find? name s.streams = some old) :
    ((keepStream name client).run s).2 =
      ((release old).run { s with streams := Entries.erase name s.streams ++ [(name, client)] }).2 := by
  have begins : (keepStream name client).run s = _ := run_get_bind _ s
  rw [begins, found]
  rfl

theorem run_dropStream_none (absent : Entries.find? name s.streams = none) :
    ((dropStream name).run s).2 = s := by
  have begins : (dropStream name).run s = _ := run_get_bind _ s
  rw [begins, absent]
  rfl

theorem run_dropStream (found : Entries.find? name s.streams = some client) :
    ((dropStream name).run s).2 = ((release client).run { s with streams := Entries.erase name s.streams }).2 := by
  have begins : (dropStream name).run s = _ := run_get_bind _ s
  rw [begins, found]
  rfl

theorem run_connectionStop (connected : s.Connected quota) (id : String) :
    ((connectionStop id).run s).2 =
      (s.withActive (Entries.erase id s.active)).cancelling fun client =>
        some client.number = Entries.find? id s.active := by
  obtain ⟨connection, current, -⟩ := connected.current
  obtain ⟨schema, streams, held, next, journal⟩ := s
  cases (show held = some (0, connection) from current)
  rfl

theorem run_connectionClose (connected : s.Connected quota) :
    (connectionClose.run s).2 =
      (s.onCurrent Connection.close).cancelling fun client => client.registration.any (·.connection = 0) := by
  obtain ⟨connection, current, -⟩ := connected.current
  have begins : connectionClose.run s = _ := run_get_bind _ s
  rw [begins, onCurrent, current]
  rfl

theorem run_cancelStream_none (absent : Entries.find? name s.streams = none) :
    ((cancelStream name).run s).2 = s := by
  have begins : (cancelStream name).run s = _ := run_get_bind _ s
  rw [begins, absent]
  rfl

theorem run_cancelStream (found : Entries.find? name s.streams = some client) :
    ((cancelStream name).run s).2 =
      s.cancelling fun other => other.number = client.number && client.registration.isNone := by
  have begins : (cancelStream name).run s = _ := run_get_bind _ s
  rw [begins, found]
  rfl

/-! ### What this does to the books -/

variable {ended : Nat → Bool} {entered : List Entered}

theorem active_of {number : Nat} {connection : Connection} (current : s.connection = some (number, connection)) :
    s.active = connection.active := by
  rw [active, current]
  rfl

theorem active_onCurrent (connected : s.Connected quota) (f : Connection → Connection) (active : Entries Nat)
    (gives : ∀ connection, s.connection = some (0, connection) → (f connection).active = active) :
    (s.onCurrent f).active = active := by
  obtain ⟨connection, current, -⟩ := connected.current
  rw [onCurrent, Session.active, current]
  exact gives connection current

theorem active_withActive (connected : s.Connected quota) (active : Entries Nat) : (s.withActive active).active = active :=
  active_onCurrent connected _ _ fun _ _ => rfl

theorem books_withActive (connected : s.Connected quota) (active : Entries Nat) :
    (s.withActive active).books ended entered = ⟨active, s.alive ended, entered⟩ := by
  rw [books, active_withActive connected]
  rfl

theorem marks_cancelling {which : ClientStream → Bool} (picks : Mark → Bool)
    (alike : ∀ client ∈ s.streams.map (·.2), which client = picks client.mark) :
    (s.cancelling which).marks = s.marks.map (·.cancelIf picks) := by
  unfold cancelling onStreams marks
  rw [List.map_map, List.map_map]
  refine List.map_congr_left fun entry mem => ?_
  simp only [Function.comp_apply, Mark.cancelIf, ← alike entry.2 (List.mem_map_of_mem mem)]
  split <;> rfl

theorem alive_cancelling {which : ClientStream → Bool} (picks : Mark → Bool)
    (alike : ∀ client ∈ s.streams.map (·.2), which client = picks client.mark) :
    (s.cancelling which).alive ended = (s.alive ended).map (·.cancelIf picks) := by
  have number (mark : Mark) : (mark.cancelIf picks).number = mark.number := by
    unfold Mark.cancelIf
    split <;> rfl
  rw [alive, marks_cancelling picks alike, List.filter_map]
  refine congrArg (List.map _) (List.filter_congr fun mark _ => ?_)
  rw [Function.comp_apply, number]

theorem books_cancelling {which : ClientStream → Bool} (picks : Mark → Bool)
    (alike : ∀ client ∈ s.streams.map (·.2), which client = picks client.mark) :
    (s.cancelling which).books ended entered = ⟨s.active, (s.alive ended).map (·.cancelIf picks), entered⟩ := by
  rw [books, alive_cancelling picks alike]
  rfl

namespace Connected

variable (connected : s.Connected quota)

include connected

theorem books_stop (id : String) :
    (s.books ended entered).Changes quota (((connectionStop id).run s).2.books ended entered) := by
  rw [run_connectionStop connected, books_cancelling (Ledger.holds s.active id), active_withActive connected]
  · exact .stops id
  · exact fun _ _ => rfl

theorem books_close : (s.books ended entered).Changes quota ((connectionClose.run s).2.books ended entered) := by
  rw [run_connectionClose connected, books_cancelling (fun mark => mark.id.isSome),
    active_onCurrent connected Connection.close [] fun _ _ => rfl]
  · exact .closes
  · intro client mem
    obtain ⟨number, registration, stream⟩ := client
    cases registration with
    | none => rfl
    | some place => exact decide_eq_true (connected.places _ mem place rfl)

/-- Two streams with one number are one. -/
theorem mark_of_number {mark other : Mark} (mem : mark ∈ s.marks) (mem' : other ∈ s.marks)
    (same : mark.number = other.number) : mark = other := List.inj_on_of_nodup_map connected.distinct mem mem' same

theorem place_of_find? (found : Entries.find? name s.streams = some client) :
    ∀ place, client.registration = some place → place.connection = 0 :=
  connected.places client (List.mem_map.2 ⟨_, Entries.mem_of_find? found, rfl⟩)

omit connected in
theorem mark_mem_of_find? (found : Entries.find? name s.streams = some client) : client.mark ∈ s.marks :=
  List.mem_map.2 ⟨_, Entries.mem_of_find? found, rfl⟩

omit connected in
theorem mem_marks_of_alive {mark : Mark} (mem : mark ∈ s.alive ended) : mark ∈ s.marks := (List.mem_filter.1 mem).1

theorem books_cancel (name : String) :
    (s.books ended entered).Becomes quota (((cancelStream name).run s).2.books ended entered) := by
  cases found : Entries.find? name s.streams with
  | none =>
    rw [run_cancelStream_none found]
    exact .refl
  | some client =>
    rw [run_cancelStream found,
      books_cancelling (fun mark => mark.number = client.number && client.mark.id.isNone)]
    · refine .single (.cancels _ fun mark mem picked => ?_)
      simp only [Bool.and_eq_true, decide_eq_true_eq] at picked
      have own : mark = client.mark :=
        connected.mark_of_number (mem_marks_of_alive mem) (mark_mem_of_find? found) picked.1
      rw [own]
      exact Option.isNone_iff_eq_none.1 picked.2
    · intro other _
      obtain ⟨number, registration, stream⟩ := client
      cases registration <;> rfl

/-- What is left when a stream is no longer kept. -/
theorem marks_erase (found : Entries.find? name s.streams = some client) :
    (Entries.erase name s.streams).map (·.2.mark) = s.marks.filter (·.number ≠ client.number) := by
  obtain ⟨before, after, split, -, erased⟩ := Entries.split_of_find? found
  have distinct := connected.distinct
  rw [erased, List.map_append]
  rw [numbers, marks, split, List.map_append, List.map_cons, List.map_append, List.map_cons] at distinct
  rw [marks, split, List.map_append, List.map_cons]
  obtain ⟨-, distinct, apart⟩ := List.nodup_append'.1 distinct
  rw [List.filter_append, List.filter_cons_of_neg (by simp [ClientStream.mark])]
  congr 1
  · refine (List.filter_eq_self.2 fun mark mem => ?_).symm
    refine decide_eq_true fun same => apart (List.mem_map.2 ⟨mark, mem, same⟩) List.mem_cons_self
  · refine (List.filter_eq_self.2 fun mark mem => ?_).symm
    refine decide_eq_true fun same => (List.nodup_cons.1 distinct).1 (List.mem_map.2 ⟨mark, mem, same⟩)

/-- A stream is lost that is no longer kept. -/
theorem loses (found : Entries.find? name s.streams = some client) :
    (s.books ended entered).Changes quota
      ⟨Ledger.without s.active client.mark, (s.alive ended).filter (·.number ≠ client.number), entered⟩ :=
  .loses client.mark fun _ mem same =>
    congrArg Mark.id (connected.mark_of_number (mem_marks_of_alive mem) (mark_mem_of_find? found) same)

/-! ### It stays connected -/

omit connected in
theorem numbers_onStreams {f : ClientStream → ClientStream} (number : ∀ client, (f client).number = client.number) :
    (s.onStreams f).numbers = s.numbers := by
  unfold numbers marks Session.onStreams
  rw [List.map_map, List.map_map, List.map_map]
  exact List.map_congr_left fun entry _ => number entry.2

omit connected in
theorem numbers_cancelling (which : ClientStream → Bool) : (s.cancelling which).numbers = s.numbers :=
  numbers_onStreams fun client => by split <;> rfl

theorem onCurrent {f : Connection → Connection} (keeps : ∀ connection, (f connection).quota = connection.quota) :
    (s.onCurrent f).Connected quota where
  current := by
    obtain ⟨connection, current, is⟩ := connected.current
    refine ⟨f connection, ?_, (keeps connection).trans is⟩
    rw [Session.onCurrent, current]
    rfl
  places := connected.places
  distinct := connected.distinct

theorem withActive (active : Entries Nat) : (s.withActive active).Connected quota := connected.onCurrent fun _ => rfl

theorem onStreams {f : ClientStream → ClientStream} (number : ∀ client, (f client).number = client.number)
    (place : ∀ client, (f client).registration = client.registration) : (s.onStreams f).Connected quota where
  current := connected.current
  places client mem place' is := by
    rw [Session.onStreams, List.map_map] at mem
    obtain ⟨entry, mem', rfl⟩ := List.mem_map.1 mem
    exact connected.places entry.2 (List.mem_map_of_mem mem') place' ((place entry.2).symm.trans is)
  distinct := (numbers_onStreams number).symm ▸ connected.distinct

theorem cancelling (which : ClientStream → Bool) : (s.cancelling which).Connected quota := by
  refine connected.onStreams (fun client => ?_) fun client => ?_
  · split <;> rfl
  · split <;> rfl

/-- Fewer streams. -/
theorem fewer {streams : Entries ClientStream} (fewer : streams.Sublist s.streams) :
    ({ s with streams } : Session).Connected quota where
  current := connected.current
  places client mem := connected.places client ((fewer.map _).subset mem)
  distinct := connected.distinct.sublist ((fewer.map _).map _)

/-- Another stream. -/
theorem append (place : ∀ place, client.registration = some place → place.connection = 0)
    (fresh : client.number ∉ s.numbers) (name : String) :
    ({ s with streams := s.streams ++ [(name, client)] } : Session).Connected quota where
  current := connected.current
  places other mem := by
    rw [List.map_append] at mem
    rcases List.mem_append.1 mem with before | new
    · exact connected.places other before
    · cases List.mem_singleton.1 new
      exact place
  distinct := by
    rw [numbers, marks, List.map_append, List.map_append]
    refine List.nodup_append'.2 ⟨connected.distinct, List.nodup_singleton _, fun number before new => ?_⟩
    cases List.mem_singleton.1 new
    exact fresh before

/-- Other streams, and another one. -/
theorem instead {streams : Entries ClientStream} (fewer : streams.Sublist s.streams)
    (place : ∀ place, client.registration = some place → place.connection = 0) (fresh : client.number ∉ s.numbers)
    (name : String) : ({ s with streams := streams ++ [(name, client)] } : Session).Connected quota :=
  (connected.fewer fewer).append place (fun mem => fresh (((fewer.map _).map _).subset mem)) name

/-- The schema, the journal and the numbers do not matter. -/
theorem of_same {s' : Session} (connection : s'.connection = s.connection) (streams : s'.streams = s.streams) :
    s'.Connected quota where
  current := connection ▸ connected.current
  places := streams ▸ connected.places
  distinct := by
    rw [numbers, marks, streams]
    exact connected.distinct

theorem withActive_self : s.withActive s.active = s := by
  obtain ⟨connection, current, -⟩ := connected.current
  obtain ⟨schema, streams, held, next, journal⟩ := s
  cases (show held = some (0, connection) from current)
  rfl

/-- What is left when a stream is dropped. -/
theorem run_drop (name : String) : ∃ streams active, streams.Sublist s.streams ∧
    ((dropStream name).run s).2 = ({ s with streams } : Session).withActive active := by
  cases found : Entries.find? name s.streams with
  | none => exact ⟨s.streams, s.active, .refl _, (run_dropStream_none found).trans connected.withActive_self.symm⟩
  | some client =>
    have fewer := Entries.erase_sublist name s.streams
    exact ⟨_, _, fewer,
      (run_dropStream found).trans (run_release (connected.fewer fewer) (connected.place_of_find? found))⟩

theorem drop (name : String) : ((dropStream name).run s).2.Connected quota := by
  obtain ⟨streams, active, fewer, ran⟩ := connected.run_drop name
  rw [ran]
  exact (connected.fewer fewer).withActive active

theorem numbers_drop (name : String) :
    ((dropStream name).run s).2.numbers ⊆ s.numbers ∧ ((dropStream name).run s).2.next = s.next := by
  obtain ⟨streams, active, fewer, ran⟩ := connected.run_drop name
  rw [ran]
  exact ⟨((fewer.map _).map _).subset, rfl⟩

theorem books_drop (name : String) :
    (s.books ended entered).Becomes quota (((dropStream name).run s).2.books ended entered) := by
  cases found : Entries.find? name s.streams with
  | none =>
    rw [run_dropStream_none found]
    exact .refl
  | some client =>
    have left := connected.fewer (Entries.erase_sublist name s.streams)
    have alive : ({ s with streams := Entries.erase name s.streams } : Session).alive ended =
        (s.alive ended).filter (·.number ≠ client.number) := by
      rw [Session.alive, marks, connected.marks_erase found, Session.alive, List.filter_comm]
    rw [run_dropStream found, run_release left (connected.place_of_find? found), books_withActive left, alive]
    exact .single (connected.loses found)

section Keep

variable (place : ∀ place, client.registration = some place → place.connection = 0) (fresh : client.number ∉ s.numbers)

include place fresh

/-- What is left when a new stream is kept. -/
theorem run_keep (name : String) : ∃ streams active, streams.Sublist s.streams ∧
    ((keepStream name client).run s).2 = ({ s with streams := streams ++ [(name, client)] } : Session).withActive active := by
  cases found : Entries.find? name s.streams with
  | none =>
    have more := connected.instead (.refl s.streams) place fresh name
    exact ⟨s.streams, _, .refl _, (run_keepStream_new found).trans more.withActive_self.symm⟩
  | some old =>
    have fewer := Entries.erase_sublist name s.streams
    exact ⟨_, _, fewer, (run_keepStream found).trans
      (run_release (connected.instead fewer place fresh name) (connected.place_of_find? found))⟩

theorem keep (name : String) : ((keepStream name client).run s).2.Connected quota := by
  obtain ⟨streams, active, fewer, ran⟩ := connected.run_keep place fresh name
  rw [ran]
  exact (connected.instead fewer place fresh name).withActive active

/-- What is kept is the new stream, and what was kept before. -/
theorem mem_keep (name : String) {entry : String × ClientStream}
    (mem : entry ∈ ((keepStream name client).run s).2.streams) : entry = (name, client) ∨ entry ∈ s.streams := by
  obtain ⟨streams, active, fewer, ran⟩ := connected.run_keep place fresh name
  rw [ran] at mem
  rcases List.mem_append.1 mem with old | new
  · exact Or.inr (fewer.subset old)
  · exact Or.inl (List.mem_singleton.1 new)

theorem numbers_keep (name : String) :
    ((keepStream name client).run s).2.numbers ⊆ client.number :: s.numbers ∧
      ((keepStream name client).run s).2.next = s.next := by
  constructor
  · intro n mem
    obtain ⟨mark, among, rfl⟩ := List.mem_map.1 mem
    obtain ⟨entry, kept, rfl⟩ := List.mem_map.1 among
    rcases connected.mem_keep place fresh name kept with rfl | old
    · exact List.mem_cons_self
    · exact List.mem_cons_of_mem _ (List.mem_map_of_mem (List.mem_map_of_mem old))
  · obtain ⟨streams, active, -, ran⟩ := connected.run_keep place fresh name
    rw [ran]
    rfl

/-- A new stream is kept, and what had its name is lost. -/
theorem books_keep (running : ended client.number = false) (name : String) :
    Ledger.Becomes quota ⟨s.active, s.alive ended ++ [client.mark], entered⟩
      (((keepStream name client).run s).2.books ended entered) := by
  cases found : Entries.find? name s.streams with
  | none =>
    rw [run_keepStream_new found]
    have alive : ({ s with streams := s.streams ++ [(name, client)] } : Session).alive ended =
        s.alive ended ++ [client.mark] := by
      rw [Session.alive, marks, List.map_append, List.filter_append]
      simp [Session.alive, marks, ClientStream.mark, running]
    rw [books, alive]
    exact .refl
  | some old =>
    have other : client.number ≠ old.number := fun same =>
      fresh (List.mem_map.2 ⟨old.mark, mark_mem_of_find? found, same.symm⟩)
    have alive : (({ s with streams := Entries.erase name s.streams ++ [(name, client)] } : Session).alive ended) =
        (s.alive ended ++ [client.mark]).filter (·.number ≠ old.number) := by
      rw [Session.alive, marks, List.map_append, connected.marks_erase found, List.filter_append, List.filter_append,
        List.filter_comm]
      simp [Session.alive, ClientStream.mark, running, other]
    have lost := connected.instead (Entries.erase_sublist name s.streams) place fresh name
    rw [run_keepStream found, run_release lost (connected.place_of_find? found), books_withActive lost, alive]
    refine .single (.loses old.mark fun mark mem same => ?_)
    rcases List.mem_append.1 mem with before | new
    · exact congrArg Mark.id (connected.mark_of_number (mem_marks_of_alive before) (mark_mem_of_find? found) same)
    · cases List.mem_singleton.1 new
      exact absurd same other

end Keep

end Connected

/-- A stream is entered, and the one is cancelled that it replaces. -/
def entering (s : Session) (place : Registration) (client : ClientStream) : Session :=
  (s.withActive (Entries.insert place.id client.number s.active)).cancelling fun other =>
    some other.number = Entries.find? place.id s.active

theorem run_keepEntered {number : Nat} {connection : Connection} {place : Registration}
    (current : s.connection = some (number, connection)) :
    ((keepEntered name client number
      { connection with active := Entries.insert place.id client.number connection.active }
      (Entries.find? place.id connection.active)).run s).2 =
        ((keepStream name client).run (s.entering place client)).2 := by
  obtain ⟨schema, streams, held, next, journal⟩ := s
  cases (show held = some (number, connection) from current)
  rfl

end Session

end GraphQL
