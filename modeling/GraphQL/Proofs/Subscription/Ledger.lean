import GraphQL.Proofs.Entries
import Mathlib.Data.List.Nodup
import Mathlib.Data.List.Perm.Basic
import Mathlib.Logic.Relation

/-!
# The books of a connection

Which subscriptions a connection knows of by their ids, and which streams there are. The two are kept by different
hands: a subscription is entered when it has started, and leaves when it is stopped or replaced, when the connection is
closed, or when its stream ends or is dropped, at any later time. `Ledger.Changes` lists all that can happen to the
books, and `Ledger.Sound` is what they agree on through all of it.
-/

namespace GraphQL

/-- A subscription that was entered. -/
structure Entered where
  id : String
  number : Nat
  /-- Whether it was cancelled by then. -/
  cancelled : Bool

/-- A stream that has neither ended nor been dropped. -/
structure Mark where
  number : Nat
  /-- The id that it was started under, if that was on a connection. -/
  id : Option String
  cancelled : Bool

def Mark.cancelIf (which : Mark → Bool) (mark : Mark) : Mark :=
  if which mark then { mark with cancelled := true } else mark

structure Ledger where
  active : Entries Nat
  alive : List Mark
  entered : List Entered

namespace Ledger

/-- The number that was entered under an id last. -/
def latest? (entered : List Entered) (id : String) : Option Nat :=
  (entered.filter (·.id = id)).getLast?.map (·.number)

/-- The entries without that of a stream. -/
def without (active : Entries Nat) (mark : Mark) : Entries Nat :=
  match mark.id with
  | some id => if Entries.find? id active = some mark.number then Entries.erase id active else active
  | none => active

theorem without_sublist (active : Entries Nat) (mark : Mark) : (without active mark).Sublist active := by
  unfold without
  split
  · split
    · exact Entries.erase_sublist _ _
    · exact List.Sublist.refl _
  · exact List.Sublist.refl _

/-- Whether a stream is the one that is entered under an id. -/
def holds (active : Entries Nat) (id : String) (mark : Mark) : Bool := some mark.number = Entries.find? id active

/-- What may happen to the books of a connection. -/
inductive Changes (quota : Nat) (l : Ledger) : Ledger → Prop
  /-- Streams that were started elsewhere are cancelled. -/
  | cancels (which : Mark → Bool) (elsewhere : ∀ mark ∈ l.alive, which mark = true → mark.id = none) :
    Changes quota l { l with alive := l.alive.map (·.cancelIf which) }
  /-- A stream ends or is dropped. -/
  | loses (mark : Mark) (same : ∀ other ∈ l.alive, other.number = mark.number → other.id = mark.id) :
    Changes quota l { l with active := without l.active mark, alive := l.alive.filter (·.number ≠ mark.number) }
  | stops (id : String) :
    Changes quota l { l with active := Entries.erase id l.active, alive := l.alive.map (·.cancelIf (holds l.active id)) }
  | closes : Changes quota l { l with active := [], alive := l.alive.map (·.cancelIf (·.id.isSome)) }
  /-- A stream is started elsewhere. -/
  | keeps (number : Nat) (cancelled : Bool) (fresh : ∀ mark ∈ l.alive, mark.number ≠ number)
      (unknown : ∀ entry ∈ l.entered, entry.number ≠ number) :
    Changes quota l { l with alive := l.alive ++ [⟨number, none, cancelled⟩] }
  /-- A subscription is entered, and cancels the one that has its id. -/
  | enters (entry : Entered) (fresh : ∀ mark ∈ l.alive, mark.number ≠ entry.number)
      (unknown : ∀ other ∈ l.entered, other.number ≠ entry.number)
      (room : 0 < quota → l.active.length < quota ∨ Entries.contains entry.id l.active = true) :
    Changes quota l
      { active := Entries.insert entry.id entry.number l.active
        alive := l.alive.map (·.cancelIf (holds l.active entry.id)) ++ [⟨entry.number, some entry.id, entry.cancelled⟩]
        entered := l.entered ++ [entry] }

/-- The books of a connection agree. -/
structure Sound (quota : Nat) (l : Ledger) : Prop where
  within : 0 < quota → l.active.length ≤ quota
  ids : (Entries.keys l.active).Nodup
  numbers : (l.alive.map (·.number)).Nodup
  /-- An entry is of what was entered last under its id. -/
  latest : ∀ entry ∈ l.active, latest? l.entered entry.1 = some entry.2
  alive : ∀ entry ∈ l.active, ∃ mark ∈ l.alive, mark.number = entry.2 ∧ mark.id = some entry.1
  /-- A stream without an entry is cancelled. -/
  left : ∀ mark ∈ l.alive, ∀ id, mark.id = some id → (id, mark.number) ∈ l.active ∨ mark.cancelled = true
  /-- One with an entry is cancelled if it was cancelled before it was entered, and only then. -/
  timely : ∀ mark ∈ l.alive, ∀ id, (id, mark.number) ∈ l.active → mark.cancelled = true →
    ∃ entry ∈ l.entered, entry.number = mark.number ∧ entry.cancelled = true
  late : ∀ entry ∈ l.entered, entry.cancelled = true → ∀ mark ∈ l.alive, mark.number = entry.number →
    mark.cancelled = true

variable {quota : Nat} {l l' : Ledger}

theorem latest?_append (entered : List Entered) (entry : Entered) (id : String) :
    latest? (entered ++ [entry]) id = if entry.id = id then some entry.number else latest? entered id := by
  unfold latest?
  rw [List.filter_append]
  by_cases here : entry.id = id
  · simp [here]
  · simp [here]

theorem mem_map_cancelIf {which : Mark → Bool} {marks : List Mark} {mark : Mark}
    (mem : mark ∈ marks.map (·.cancelIf which)) :
    ∃ before ∈ marks, mark.number = before.number ∧ mark.id = before.id ∧
      mark.cancelled = (before.cancelled || which before) := by
  obtain ⟨before, among, rfl⟩ := List.mem_map.1 mem
  refine ⟨before, among, ?_⟩
  unfold Mark.cancelIf
  cases which before <;> simp

theorem numbers_cancelIf (which : Mark → Bool) (marks : List Mark) :
    (marks.map (·.cancelIf which)).map (·.number) = marks.map (·.number) := by
  rw [List.map_map]
  refine List.map_congr_left fun mark _ => ?_
  simp only [Function.comp_apply, Mark.cancelIf]
  split <;> rfl

namespace Sound

theorem eq_of_number (sound : l.Sound quota) {mark other : Mark} (mem : mark ∈ l.alive) (mem' : other ∈ l.alive)
    (same : mark.number = other.number) : mark = other := List.inj_on_of_nodup_map sound.numbers mem mem' same

/-- Two entries of one stream are one entry. -/
theorem eq_of_entry (sound : l.Sound quota) {entry other : String × Nat} (mem : entry ∈ l.active)
    (mem' : other ∈ l.active) (same : entry.2 = other.2) : entry = other := by
  obtain ⟨mark, among, number, id⟩ := sound.alive entry mem
  obtain ⟨mark', among', number', id'⟩ := sound.alive other mem'
  cases sound.eq_of_number among among' (number.trans (same.trans number'.symm))
  exact Prod.ext (Option.some.inj (id.symm.trans id')) same

/-- What ends or is dropped takes its own entry with it and no other. -/
theorem mem_without (sound : l.Sound quota) {mark : Mark}
    (same : ∀ other ∈ l.alive, other.number = mark.number → other.id = mark.id) {entry : String × Nat} :
    entry ∈ without l.active mark ↔ entry ∈ l.active ∧ entry.2 ≠ mark.number := by
  have own (mem : entry ∈ l.active) (number : entry.2 = mark.number) :
      mark.id = some entry.1 ∧ Entries.find? entry.1 l.active = some mark.number := by
    obtain ⟨other, among, number', id⟩ := sound.alive entry mem
    refine ⟨(same other among (number'.trans number)).symm.trans id, ?_⟩
    rw [← number]
    exact Entries.find?_of_mem sound.ids mem
  unfold without
  split
  case h_1 id is =>
    split
    next found =>
      rw [Entries.mem_erase_iff sound.ids]
      refine and_congr_right fun mem => not_congr ⟨fun here => ?_, fun number => ?_⟩
      · have held : Entries.find? entry.1 l.active = some entry.2 := Entries.find?_of_mem sound.ids mem
        rw [here, found] at held
        exact (Option.some.inj held).symm
      · exact (Option.some.inj (is.symm.trans (own mem number).1)).symm
    next other =>
      refine ⟨fun mem => ⟨mem, fun number => ?_⟩, And.left⟩
      obtain ⟨is', found⟩ := own mem number
      cases is.symm.trans is'
      exact other found
  case h_2 none =>
    refine ⟨fun mem => ⟨mem, fun number => ?_⟩, And.left⟩
    cases none.symm.trans (own mem number).1

/-- A stream whose id is given up or replaced is the one that is entered there. -/
theorem holds_iff (sound : l.Sound quota) {id : String} {mark : Mark} :
    holds l.active id mark = true ↔ (id, mark.number) ∈ l.active := by
  unfold holds
  rw [decide_eq_true_iff]
  exact ⟨fun found => Entries.mem_of_find? found.symm, fun mem => (Entries.find?_of_mem sound.ids mem).symm⟩

/-! ### What every change keeps -/

/-- Streams are cancelled: of those that are entered just the ones that lose their entries. -/
theorem recalls (sound : l.Sound quota) {which : Mark → Bool} {active : Entries Nat} (fewer : active.Sublist l.active)
    (recalled : ∀ mark ∈ l.alive, ∀ id, (id, mark.number) ∈ l.active →
      ((id, mark.number) ∈ active ↔ which mark = false)) :
    Sound quota { l with active, alive := l.alive.map (·.cancelIf which) } where
  within positive := Nat.le_trans fewer.length_le (sound.within positive)
  ids := sound.ids.sublist (fewer.map _)
  numbers := by
    dsimp only
    rw [numbers_cancelIf]
    exact sound.numbers
  latest entry mem := sound.latest entry (fewer.subset mem)
  alive entry mem := by
    obtain ⟨mark, among, number, id⟩ := sound.alive entry (fewer.subset mem)
    have stays : which mark = false := by
      refine (recalled mark among entry.1 ?_).1 ?_
      · rw [number]
        exact fewer.subset mem
      · rw [number]
        exact mem
    exact ⟨mark, List.mem_map.2 ⟨mark, among, if_neg (Bool.eq_false_iff.1 stays)⟩, number, id⟩
  left mark mem id is := by
    obtain ⟨before, among, number, same, cancelled⟩ := mem_map_cancelIf mem
    rw [number, cancelled]
    rcases sound.left before among id (same ▸ is) with entry | before
    · cases picked : which before with
      | false => exact Or.inl ((recalled before among id entry).2 picked)
      | true => exact Or.inr (Bool.or_true _)
    · exact Or.inr (by rw [before, Bool.true_or])
  timely mark mem id entry cancelled := by
    obtain ⟨before, among, number, -, same⟩ := mem_map_cancelIf mem
    rw [number] at entry ⊢
    have active := fewer.subset entry
    rw [same, (recalled before among id active).1 entry, Bool.or_false] at cancelled
    exact sound.timely before among id active cancelled
  late entry mem cancelled mark among number := by
    obtain ⟨before, among', number', -, same⟩ := mem_map_cancelIf among
    rw [same, sound.late entry mem cancelled before among' (number'.symm.trans number), Bool.true_or]

theorem cancels (sound : l.Sound quota) {which : Mark → Bool}
    (elsewhere : ∀ mark ∈ l.alive, which mark = true → mark.id = none) :
    Sound quota { l with alive := l.alive.map (·.cancelIf which) } := by
  refine sound.recalls (List.Sublist.refl _) fun mark among id entry => iff_of_true entry ?_
  obtain ⟨other, among', number, is⟩ := sound.alive _ entry
  cases sound.eq_of_number among' among number
  exact Bool.eq_false_iff.2 fun picked => by cases is.symm.trans (elsewhere _ among picked)

theorem stops (sound : l.Sound quota) (id : String) :
    Sound quota
      { l with active := Entries.erase id l.active, alive := l.alive.map (·.cancelIf (holds l.active id)) } := by
  refine sound.recalls (Entries.erase_sublist _ _) fun mark _ id' entry => ?_
  rw [Entries.mem_erase_iff sound.ids, Bool.eq_false_iff, Ne, Ne, sound.holds_iff, and_iff_right entry]
  refine not_congr ⟨fun here => here ▸ entry, fun held => ?_⟩
  exact congrArg Prod.fst (sound.eq_of_entry entry held rfl)

theorem closes (sound : l.Sound quota) :
    Sound quota { l with active := [], alive := l.alive.map (·.cancelIf (·.id.isSome)) } := by
  refine sound.recalls (List.nil_sublist _) fun mark among id entry => iff_of_false List.not_mem_nil ?_
  obtain ⟨other, among', number, is⟩ := sound.alive _ entry
  cases sound.eq_of_number among' among number
  simp [is]

theorem loses (sound : l.Sound quota) {mark : Mark}
    (same : ∀ other ∈ l.alive, other.number = mark.number → other.id = mark.id) :
    Sound quota { l with active := without l.active mark, alive := l.alive.filter (·.number ≠ mark.number) } where
  within positive := Nat.le_trans (without_sublist l.active mark).length_le (sound.within positive)
  ids := sound.ids.sublist ((without_sublist l.active mark).map _)
  numbers := sound.numbers.sublist (List.filter_sublist.map _)
  latest entry mem := sound.latest entry ((sound.mem_without same).1 mem).1
  alive entry mem := by
    obtain ⟨active, other⟩ := (sound.mem_without same).1 mem
    obtain ⟨mark', among, number, id⟩ := sound.alive entry active
    exact ⟨mark', List.mem_filter.2 ⟨among, decide_eq_true (number.trans_ne other)⟩, number, id⟩
  left mark' mem id is := by
    obtain ⟨among, other⟩ := List.mem_filter.1 mem
    refine (sound.left mark' among id is).imp_left fun entry => ?_
    exact (sound.mem_without same).2 ⟨entry, of_decide_eq_true other⟩
  timely mark' mem id entry :=
    sound.timely mark' (List.mem_filter.1 mem).1 id ((sound.mem_without same).1 entry).1
  late entry mem cancelled mark' among := sound.late entry mem cancelled mark' (List.mem_filter.1 among).1

/-- A stream with a new number. -/
theorem nodup_append (sound : l.Sound quota) {mark : Mark} (fresh : ∀ other ∈ l.alive, other.number ≠ mark.number) :
    ((l.alive ++ [mark]).map (·.number)).Nodup := by
  rw [List.map_append, List.map_singleton]
  refine sound.numbers.append (List.nodup_singleton _) fun number mem mem' => ?_
  obtain ⟨other, among, is⟩ := List.mem_map.1 mem
  exact fresh other among (is.trans (List.mem_singleton.1 mem'))

theorem keeps (sound : l.Sound quota) {number : Nat} (cancelled : Bool) (fresh : ∀ mark ∈ l.alive, mark.number ≠ number)
    (unknown : ∀ entry ∈ l.entered, entry.number ≠ number) :
    Sound quota { l with alive := l.alive ++ [⟨number, none, cancelled⟩] } where
  within := sound.within
  ids := sound.ids
  numbers := sound.nodup_append fresh
  latest := sound.latest
  alive entry mem := by
    obtain ⟨mark, among, is⟩ := sound.alive entry mem
    exact ⟨mark, List.mem_append_left _ among, is⟩
  left mark mem id is := by
    rcases List.mem_append.1 mem with among | new
    · exact sound.left mark among id is
    · cases List.mem_singleton.1 new
      cases is
  timely mark mem id entry cancelled := by
    rcases List.mem_append.1 mem with among | new
    · exact sound.timely mark among id entry cancelled
    · cases List.mem_singleton.1 new
      obtain ⟨other, among, is, -⟩ := sound.alive _ entry
      exact absurd is (fresh other among)
  late entry mem cancelled mark among is := by
    rcases List.mem_append.1 among with among | new
    · exact sound.late entry mem cancelled mark among is
    · cases List.mem_singleton.1 new
      exact absurd is.symm (unknown entry mem)

/-- Apart from the quota it is as if the id had been given up before. -/
theorem enters (sound : l.Sound quota) {entry : Entered} (fresh : ∀ mark ∈ l.alive, mark.number ≠ entry.number)
    (unknown : ∀ other ∈ l.entered, other.number ≠ entry.number)
    (room : 0 < quota → l.active.length < quota ∨ Entries.contains entry.id l.active = true) :
    Sound quota
      { active := Entries.insert entry.id entry.number l.active
        alive := l.alive.map (·.cancelIf (holds l.active entry.id)) ++ [⟨entry.number, some entry.id, entry.cancelled⟩]
        entered := l.entered ++ [entry] } := by
  have stopped := sound.stops entry.id
  have fresh' : ∀ mark ∈ l.alive.map (·.cancelIf (holds l.active entry.id)), mark.number ≠ entry.number := by
    intro mark mem
    obtain ⟨before, among, number, -, -⟩ := mem_map_cancelIf mem
    exact number.trans_ne (fresh before among)
  have active {other : String × Nat} : other ∈ Entries.insert entry.id entry.number l.active ↔
      other = (entry.id, entry.number) ∨ other ∈ Entries.erase entry.id l.active := by
    rw [Entries.mem_insert_iff sound.ids, Entries.mem_erase_iff sound.ids]
  constructor
  case within =>
    intro positive
    have before := sound.within positive
    rw [Entries.length_insert]
    split
    · exact before
    · next absent => exact (room positive).elim id fun present => absurd present absent
  case ids => exact Entries.nodup_keys_insert sound.ids _ _
  case numbers => exact stopped.nodup_append fresh'
  case latest =>
    intro other mem
    rw [latest?_append]
    rcases active.1 mem with rfl | old
    · exact if_pos rfl
    · rw [if_neg ((Entries.mem_erase_iff sound.ids).1 old).2.symm]
      exact stopped.latest other old
  case alive =>
    intro other mem
    rcases active.1 mem with rfl | old
    · exact ⟨_, List.mem_append_right _ List.mem_cons_self, rfl, rfl⟩
    · obtain ⟨mark, among, is⟩ := stopped.alive other old
      exact ⟨mark, List.mem_append_left _ among, is⟩
  case left =>
    intro mark mem id is
    rcases List.mem_append.1 mem with among | new
    · exact (stopped.left mark among id is).imp_left fun old => active.2 (Or.inr old)
    · cases List.mem_singleton.1 new
      cases is
      exact Or.inl (active.2 (Or.inl rfl))
  case timely =>
    intro mark mem id mem' cancelled
    rcases List.mem_append.1 mem with among | new
    · rcases active.1 mem' with is | old
      · exact absurd (congrArg Prod.snd is) (fresh' mark among)
      · obtain ⟨earlier, mem, is⟩ := stopped.timely mark among id old cancelled
        exact ⟨earlier, List.mem_append_left _ mem, is⟩
    · cases List.mem_singleton.1 new
      exact ⟨entry, List.mem_append_right _ List.mem_cons_self, rfl, cancelled⟩
  case late =>
    intro other mem cancelled mark among is
    rcases List.mem_append.1 mem with old | new
    · rcases List.mem_append.1 among with among | new
      · exact stopped.late other old cancelled mark among is
      · cases List.mem_singleton.1 new
        exact absurd is.symm (unknown other old)
    · cases List.mem_singleton.1 new
      rcases List.mem_append.1 among with among | new
      · exact absurd is (fresh' mark among)
      · cases List.mem_singleton.1 new
        exact cancelled

end Sound

theorem Changes.sound (change : l.Changes quota l') (sound : l.Sound quota) : l'.Sound quota := by
  cases change with
  | cancels which elsewhere => exact sound.cancels elsewhere
  | loses mark same => exact sound.loses same
  | stops id => exact sound.stops id
  | closes => exact sound.closes
  | keeps number cancelled fresh unknown => exact sound.keeps cancelled fresh unknown
  | enters entry fresh unknown room => exact sound.enters fresh unknown room

/-- What may become of the books. -/
def Becomes (quota : Nat) : Ledger → Ledger → Prop := Relation.ReflTransGen (Changes quota)

theorem Becomes.sound (becomes : Becomes quota l l') (sound : l.Sound quota) : l'.Sound quota := by
  induction becomes with
  | refl => exact sound
  | tail _ change ih => exact change.sound ih

/-- Books in which nothing was written. -/
theorem sound_empty (quota : Nat) : Sound quota ⟨[], [], []⟩ where
  within _ := Nat.zero_le quota
  ids := List.nodup_nil
  numbers := List.nodup_nil
  latest _ mem := absurd mem List.not_mem_nil
  alive _ mem := absurd mem List.not_mem_nil
  left _ mem := absurd mem List.not_mem_nil
  timely _ mem := absurd mem List.not_mem_nil
  late _ mem := absurd mem List.not_mem_nil

/-! ## Counting -/

/-- The streams that were started on the connection and are not cancelled. -/
def running (l : Ledger) : List Mark := l.alive.filter fun mark => mark.id.isSome && !mark.cancelled

/-- Whether a stream is entered under the id that it was started under. -/
def isActive (l : Ledger) (mark : Mark) : Bool := mark.id.any fun id => holds l.active id mark

namespace Sound

theorem isActive_iff (sound : l.Sound quota) {mark : Mark} (mem : mark ∈ l.alive) :
    l.isActive mark = true ↔ ∃ id, (id, mark.number) ∈ l.active := by
  unfold isActive
  constructor
  · intro is
    obtain ⟨id, -, held⟩ := (Option.any_eq_true _ _).1 is
    exact ⟨id, sound.holds_iff.1 held⟩
  · rintro ⟨id, entry⟩
    obtain ⟨other, among, number, is⟩ := sound.alive _ entry
    cases sound.eq_of_number among mem number
    exact (Option.any_eq_true _ _).2 ⟨id, is, sound.holds_iff.2 entry⟩

/-- There are as many entries as streams that have one. -/
theorem length_active (sound : l.Sound quota) : l.active.length = (l.alive.filter l.isActive).length := by
  have numbers : (l.active.map (·.2)).Perm ((l.alive.filter l.isActive).map (·.number)) := by
    refine (List.perm_ext_iff_of_nodup ?_ ?_).2 fun number => ?_
    · have distinct : l.active.Nodup := List.Nodup.of_map _ sound.ids
      exact distinct.map_on fun entry mem other mem' => sound.eq_of_entry mem mem'
    · exact sound.numbers.sublist (List.filter_sublist.map _)
    · constructor
      · intro among
        obtain ⟨entry, mem, rfl⟩ := List.mem_map.1 among
        obtain ⟨mark, alive, number, -⟩ := sound.alive entry mem
        have active : l.isActive mark = true := (sound.isActive_iff alive).2 ⟨entry.1, number ▸ mem⟩
        exact List.mem_map.2 ⟨mark, List.mem_filter.2 ⟨alive, active⟩, number⟩
      · intro among
        obtain ⟨mark, mem, rfl⟩ := List.mem_map.1 among
        obtain ⟨alive, active⟩ := List.mem_filter.1 mem
        obtain ⟨id, entry⟩ := (sound.isActive_iff alive).1 active
        exact List.mem_map.2 ⟨_, entry, rfl⟩
  have lengths := numbers.length_eq
  rwa [List.length_map, List.length_map] at lengths

/-- The running streams are those that have an entry and are not cancelled. -/
theorem running_eq (sound : l.Sound quota) :
    l.running = (l.alive.filter l.isActive).filter fun mark => !mark.cancelled := by
  unfold running
  rw [List.filter_filter]
  refine List.filter_congr fun mark mem => ?_
  cases cancelled : mark.cancelled with
  | true => simp
  | false =>
    simp only [Bool.not_false, Bool.and_true, Bool.true_and]
    refine Bool.eq_iff_iff.2 ⟨fun is => ?_, fun active => ?_⟩
    · obtain ⟨id, is⟩ := Option.isSome_iff_exists.1 is
      refine (sound.isActive_iff mem).2 ⟨id, (sound.left mark mem id is).resolve_right ?_⟩
      rw [cancelled]
      exact Bool.false_ne_true
    · obtain ⟨id, is, -⟩ := (Option.any_eq_true _ _).1 active
      exact Option.isSome_iff_exists.2 ⟨id, is⟩

/-- Every running stream is counted. What is counted beyond them was cancelled before it was entered. -/
theorem active_counts (sound : l.Sound quota) :
    l.running.length ≤ l.active.length ∧
      (l.active.length = l.running.length ↔
        ∀ entry ∈ l.active, ∀ other ∈ l.entered, other.number = entry.2 → other.cancelled = false) := by
  rw [sound.length_active, sound.running_eq]
  refine ⟨List.length_filter_le _ _, ?_⟩
  rw [eq_comm, List.length_filter_eq_length_iff]
  constructor
  · intro uncancelled entry mem other mem' is
    obtain ⟨mark, among, number, -⟩ := sound.alive entry mem
    have active : l.isActive mark = true := (sound.isActive_iff among).2 ⟨entry.1, number ▸ mem⟩
    have running := uncancelled mark (List.mem_filter.2 ⟨among, active⟩)
    refine Bool.eq_false_iff.2 fun cancelled => ?_
    rw [sound.late other mem' cancelled mark among (number.trans is.symm)] at running
    cases running
  · intro uncancelled mark mem
    obtain ⟨among, active⟩ := List.mem_filter.1 mem
    obtain ⟨id, entry⟩ := (sound.isActive_iff among).1 active
    rw [Bool.not_eq_true']
    refine Bool.eq_false_iff.2 fun cancelled => ?_
    obtain ⟨other, mem', is, before⟩ := sound.timely mark among id entry cancelled
    cases before.symm.trans (uncancelled _ entry other mem' is)

end Sound

end Ledger

end GraphQL
