import GraphQL.Proofs.Execution.Settling
import GraphQL.Proofs.Execution.Verdicts
import Mathlib.Data.List.Induction

/-!
# Where a crowd settles

In a crowd only the fields that were woken are polled. `Turn.Orderly` says that nobody is forgotten: a field
that can go on is among those still to be polled, those woken, or those that gave way, and no more fields that
wait for a slot are woken than there are slots for. So in the end every field of a crowd stays where it is, as
it does without a crowd: `launch_settles`.
-/

namespace GraphQL

/-! ## Slots -/

/-- The number of slots that a stage holds. -/
def Stage.held : Stage → Nat
  | .task t => t.held
  | .entered .. => 1
  | .ending _ => 0

section

variable {x : Execution} {field : FieldPlan}

theorem answer_slots {ending : Ending} {s s' : ExecutionState} {result : Except Abort ResponseValue}
    (ran : outcome (x.answer field ending) s = (result, s')) : s'.slots = s.slots := by
  obtain ⟨_, _, _, rfl, -⟩ := answer_after ran
  rfl

theorem acquire_eq_some {slots slots' : Slots} (free : slots.acquire? = some slots') :
    slots' = { slots with taken := slots.taken + 1 } := by
  unfold Slots.acquire? at free
  split at free
  · cases free
    rfl
  · cases free

theorem acquire_eq_none {slots : Slots} : slots.acquire? = none ↔ slots.limit ≠ 0 ∧ slots.limit ≤ slots.taken := by
  unfold Slots.acquire?
  simp

/-- A leg takes slots and gives them back as the stages hold them. -/
theorem Leg.slots {here there : Stage × ExecutionState} (leg : Leg x field here there) :
    there.2.slots.limit = here.2.slots.limit ∧
      (here.1.held ≤ here.2.slots.taken → there.2.slots.taken + here.1.held = here.2.slots.taken + there.1.held) := by
  cases leg with
  | tooComplex _ | admitted _ =>
    rw [Execution.counting_slots]
    exact ⟨rfl, fun _ => rfl⟩
  | enter _ _ free =>
    cases acquire_eq_some free
    exact ⟨rfl, fun _ => rfl⟩
  | unread _ | panicked _ _ | done => exact ⟨rfl, fun enough => Nat.sub_add_cancel enough⟩
  | finish ran =>
    have same := answer_slots ran
    exact ⟨congrArg Slots.limit same, fun _ => congrArg Slots.taken same⟩
  | fail ran => rw [answer_slots ran]; exact ⟨rfl, fun _ => rfl⟩
  | _ => exact ⟨rfl, fun _ => rfl⟩

theorem Legs.slots {here there : Stage × ExecutionState} (legs : Legs x field here there) :
    there.2.slots.limit = here.2.slots.limit ∧
      (here.1.held ≤ here.2.slots.taken → there.2.slots.taken + here.1.held = here.2.slots.taken + there.1.held) := by
  induction legs with
  | refl => exact ⟨rfl, fun _ => rfl⟩
  | tail _ leg ih =>
    refine ⟨leg.slots.1.trans ih.1, fun enough => ?_⟩
    have first := ih.2 enough
    have next := leg.slots.2 (by omega)
    omega

/-- Where no slot is free, a field that holds none gets none. -/
theorem Leg.full {here there : Stage × ExecutionState} (leg : Leg x field here there)
    (full : here.2.slots.acquire? = none) (none : here.1.held = 0) :
    there.2.slots = here.2.slots ∧ there.1.held = 0 := by
  cases leg with
  | tooComplex _ | admitted _ => exact ⟨Execution.counting_slots _ _, rfl⟩
  | enter _ _ free => cases full.symm.trans free
  | finish ran =>
    have same := answer_slots ran
    exact ⟨same, rfl⟩
  | fail ran => exact ⟨answer_slots ran, rfl⟩
  | unread _ | panicked _ _ | call _ _ | done | pause | record | cancel | awake _ | ask => cases none
  | _ => exact ⟨rfl, rfl⟩

theorem Legs.full {here there : Stage × ExecutionState} (legs : Legs x field here there)
    (full : here.2.slots.acquire? = none) (none : here.1.held = 0) :
    there.2.slots = here.2.slots ∧ there.1.held = 0 := by
  induction legs with
  | refl => exact ⟨rfl, none⟩
  | tail _ leg ih =>
    obtain ⟨same, none'⟩ := ih
    obtain ⟨same', none''⟩ := leg.full (same ▸ full) none'
    exact ⟨same'.trans same, none''⟩

end

/-! ## Places -/

namespace Run

variable {x : Execution} {run : Run} {which : RootTask → Bool} {i j : Nat}

/-- The task at a place satisfies a condition. -/
def At (run : Run) (which : RootTask → Bool) (i : Nat) : Prop :=
  ∃ field task, run.tasks[i]? = some (field, task) ∧ which task = true

theorem At.task {field : FieldPlan} {task : RootTask} (at' : run.At which i) (here : run.tasks[i]? = some (field, task)) :
    which task = true := by
  obtain ⟨_, _, there, holds⟩ := at'
  cases here.symm.trans there
  exact holds

theorem places_eq (run : Run) (which : RootTask → Bool) :
    run.places which =
      (List.range run.tasks.length).filter fun i => (run.tasks[i]?).any fun entry => which entry.2 := by
  unfold places
  generalize run.tasks = tasks
  induction tasks using List.reverseRecOn with
  | nil => rfl
  | append_singleton before entry ih =>
    rw [List.zipIdx_append, List.filter_append, List.map_append, ih, List.length_append, List.length_singleton,
      List.range_succ, List.filter_append]
    refine congrArg₂ (· ++ ·) (List.filter_congr fun i mem => ?_) ?_
    · rw [List.getElem?_append_left (List.mem_range.1 mem)]
    · simp only [List.zipIdx_singleton, List.filter_singleton, List.getElem?_concat_length, Option.any_some, Nat.zero_add]
      cases which entry.2 <;> rfl

theorem mem_places : i ∈ run.places which ↔ run.At which i := by
  rw [places_eq, List.mem_filter, List.mem_range]
  constructor
  · rintro ⟨_, holds⟩
    obtain ⟨entry, here, holds⟩ := (Option.any_eq_true _ _).1 holds
    exact ⟨entry.1, entry.2, here, holds⟩
  · rintro ⟨field, task, here, holds⟩
    exact ⟨(List.getElem?_eq_some_iff.1 here).1, by rw [here]; exact holds⟩

theorem places_nodup (run : Run) (which : RootTask → Bool) : (run.places which).Nodup := by
  rw [places_eq]
  exact List.nodup_range.filter _

/-- The fields that get a slot as soon as they are polled: of those that wait, as many as there are slots. -/
theorem admitted_calm (calm : run.state.cancelled = false) :
    run.admitted = (run.places RootTask.isQueued).take (run.state.slots.limit - run.state.slots.taken) := by
  rw [admitted, calm]
  rfl

theorem at_of_mem_admitted (calm : run.state.cancelled = false) (mem : i ∈ run.admitted) :
    run.At RootTask.isQueued i := by
  rw [admitted_calm calm] at mem
  exact mem_places.1 (List.mem_of_mem_take mem)

theorem admitted_nodup (calm : run.state.cancelled = false) : run.admitted.Nodup := by
  rw [admitted_calm calm]
  exact (places_nodup _ _).sublist (List.take_sublist _ _)

theorem gaveWay_calm (calm : run.state.cancelled = false) :
    run.gaveWay i = true ↔ run.At (RootTask.isResting false) i := by
  unfold gaveWay
  rw [calm, Option.any_eq_true]
  constructor
  · rintro ⟨entry, here, holds⟩
    exact ⟨entry.1, entry.2, here, holds⟩
  · rintro ⟨field, task, here, holds⟩
    exact ⟨_, here, holds⟩

end Run

theorem mem_take_filter_ne {items : List Nat} (distinct : items.Nodup) {i j k : Nat} (mem : i ∈ items.take k)
    (mem' : j ∈ items.take k) (ne : j ≠ i) : j ∈ (items.filter (· != i)).take (k - 1) := by
  have shorter : ((items.take k).filter (· != i)).length ≤ k - 1 := by
    have erased := List.length_erase_of_mem mem
    rw [(distinct.sublist (List.take_sublist k items)).erase_eq_filter] at erased
    have := List.length_take_le k items
    omega
  rw [← List.take_append_drop k items, List.filter_append, List.take_append, List.take_of_length_le shorter]
  exact List.mem_append_left _ (List.mem_filter.2 ⟨mem', by simpa using ne⟩)

namespace Run

variable {x : Execution} {run run' : Run} {which : RootTask → Bool} {i j : Nat} {field : FieldPlan} {task task' : RootTask}

/-- A poll has advanced a field from a task to another, and the run goes on. -/
structure Polled (run run' : Run) (i : Nat) (field : FieldPlan) (task task' : RootTask) : Prop where
  here : run.tasks[i]? = some (field, task)
  tasks : run'.tasks = run.tasks.set i (field, task')
  begun : task' ≠ .fresh
  queued : task' = .queued → task.isWaiting = true ∧ run.state.slots.acquire? = none
  limit : run'.state.slots.limit = run.state.slots.limit
  taken : task.held ≤ run.state.slots.taken →
    run'.state.slots.taken + task.held = run.state.slots.taken + task'.held
  full : task.held = 0 → run.state.slots.acquire? = none → run'.state.slots = run.state.slots
  kept : task.isWaiting = false → task'.held ≤ task.held

theorem held_le_one (task : RootTask) : task.held ≤ 1 := by
  unfold RootTask.held
  split <;> omega

theorem poll_polled (few : x.plan.kind ≠ .mutation) (ongoing : (run.poll x i).aborted = none)
    (among : i < run.tasks.length) : ∃ field task task', Polled run (run.poll x i) i field task task' := by
  have at' : run.tasks[i]? = some (run.tasks[i].1, run.tasks[i].2) := List.getElem?_eq_getElem among
  generalize run.tasks[i].1 = field at at'
  generalize run.tasks[i].2 = task at at'
  have ready : run.isReady x.plan.kind i = true := isReady_iff.2 (Or.inl few)
  cases ran : outcome (x.advance field task) run.state with
  | mk result s =>
    have legs := @Execution.advance_legs x field task run.state
    unfold Execution.arrival at legs
    rw [ran] at legs
    have polled := poll_eq (poll_ongoing ongoing) at' ready ran
    rw [polled] at ongoing ⊢
    rw [heed_ongoing ongoing]
    have gains := Execution.advance_gains ran
    refine ⟨field, task, .ofResult result, at', rfl, Execution.advance_begun ran, fun queued => ?_, legs.slots.1,
      legs.slots.2, fun none full => (legs.full full none).1, fun called => ?_⟩
    · rw [queued] at gains
      rcases gains with ⟨waits, _⟩ | rests
      · cases waits
      · refine ⟨?_, ?_⟩
        · rcases rests.lingers with same | ⟨fresh, _⟩
          · rw [← same]
            rfl
          · rw [fresh]
            rfl
        · cases rests.stays with
          | waits waits =>
            cases waits with
            | slot full => rwa [rests.slots] at full
    · cases task with
      | fresh | queued => cases called
      | working work => exact held_le_one _
      | done v | failed abort =>
        cases ran
        exact Nat.le_refl _

namespace Polled

variable (polled : Polled run run' i field task task')

include polled

theorem at_self : run'.At which i ↔ which task' = true := by
  have here : run'.tasks[i]? = some (field, task') := by
    rw [polled.tasks, List.getElem?_set_self (List.getElem?_eq_some_iff.1 polled.here).1]
  exact ⟨fun at' => at'.task here, fun holds => ⟨field, task', here, holds⟩⟩

theorem at_ne (ne : j ≠ i) : run'.At which j ↔ run.At which j := by
  unfold At
  rw [polled.tasks, List.getElem?_set_ne (Ne.symm ne)]

/-- The other places that satisfy a condition which the new task does not. -/
theorem places (other : which task' = false) : run'.places which = (run.places which).filter (· != i) := by
  rw [places_eq, places_eq, List.filter_filter, polled.tasks, List.length_set]
  refine List.filter_congr fun j mem => ?_
  by_cases same : j = i
  · subst same
    rw [List.getElem?_set_self (List.mem_range.1 mem)]
    simp [other]
  · rw [List.getElem?_set_ne (Ne.symm same)]
    simp [same]

variable (calm : run.state.cancelled = false) (calm' : run'.state.cancelled = false)
  (enough : run.slotsHeld ≤ run.state.slots.taken)

theorem slotsHeld : run'.slotsHeld + task.held = run.slotsHeld + task'.held := slotsHeld_set polled.here polled.tasks

include calm calm' enough

/-- Who was to get a slot still is, after another field was polled in its turn. -/
theorem admits (begun : task ≠ .fresh) (first : task = .queued → i ∈ run.admitted) (ne : j ≠ i)
    (mem : j ∈ run.admitted) : j ∈ run'.admitted := by
  have taken := polled.taken (Nat.le_trans (held_le_slotsHeld polled.here) enough)
  have one := held_le_one task'
  rw [admitted_calm calm] at mem first
  rw [admitted_calm calm', polled.limit]
  cases task with
  | fresh => exact absurd rfl begun
  | queued =>
    have called : task'.isQueued = false := by
      cases task' with
      | queued =>
        have full := (acquire_eq_none.1 (polled.queued rfl).2).2
        rw [Nat.sub_eq_zero_of_le full] at mem
        cases mem
      | _ => rfl
    rw [polled.places called]
    refine List.take_subset_take_left _ ?_ (mem_take_filter_ne (places_nodup _ _) (first rfl) mem ne)
    change run'.state.slots.taken + 0 = _ at taken
    omega
  | working _ | done _ | failed _ =>
    have called : task'.isQueued = false := by
      cases task' with
      | queued => cases (polled.queued rfl).1
      | _ => rfl
    have absent : (run.places RootTask.isQueued).filter (· != i) = run.places RootTask.isQueued := by
      refine List.filter_eq_self.2 fun k mem => ?_
      have ne : k ≠ i := by
        rintro rfl
        cases (mem_places.1 mem).task polled.here
      simpa using ne
    have kept := polled.kept rfl
    rw [polled.places called, absent]
    exact List.take_subset_take_left _ (by omega) mem

end Polled

end Run

/-! ## Rounds -/

/-- Whether the task has not begun. -/
def RootTask.isFresh : RootTask → Bool
  | fresh => true
  | _ => false

theorem RootTask.eq_of_isFresh {task : RootTask} (fresh : task.isFresh = true) : task = .fresh := by
  cases task with
  | fresh => rfl
  | _ => cases fresh

theorem RootTask.eq_of_isQueued {task : RootTask} (queued : task.isQueued = true) : task = .queued := by
  cases task with
  | queued => rfl
  | _ => cases queued

/-- In the course of a round no field is forgotten, and those that wait for a slot are woken as far as there are
slots for them. -/
structure Turn.Orderly (pending : List Nat) (turn : Turn) : Prop where
  calm : turn.run.state.cancelled = false
  distinct : (pending ++ turn.woken ++ turn.resting).Nodup
  among : ∀ i ∈ pending, i < turn.run.tasks.length
  /-- All fields begin in the first round; as long as some have not, none waits while there is a slot. -/
  fresh : ∀ i, turn.run.At RootTask.isFresh i → i ∈ pending ∧ (∀ j ∈ pending, turn.run.At RootTask.isFresh j) ∧
    ((∀ j, ¬turn.run.At RootTask.isQueued j) ∨ turn.run.state.slots.acquire? = none)
  busy : ∀ i, turn.run.At (RootTask.isResting false) i → i ∈ pending ∨ i ∈ turn.resting
  woken : ∀ i ∈ turn.woken, turn.run.At RootTask.isQueued i
  resting : ∀ i ∈ turn.resting, turn.run.At (RootTask.isResting false) i
  admitted : ∀ i, i ∈ turn.run.admitted ↔ turn.run.At RootTask.isQueued i ∧ (i ∈ pending ∨ i ∈ turn.woken)
  limited : ∀ i, turn.run.At RootTask.isQueued i → turn.run.state.slots.limit ≠ 0
  held : turn.run.slotsHeld ≤ turn.run.state.slots.taken

namespace Turn

variable {x : Execution} {turn : Turn} {i : Nat} {rest : List Nat}

open Run

theorem admitted_full {run : Run} (calm : run.state.cancelled = false) (full : run.state.slots.acquire? = none) :
    run.admitted = [] := by
  rw [admitted_calm calm, Nat.sub_eq_zero_of_le (acquire_eq_none.1 full).2, List.take_zero]

theorem mem_resting_polled {j : Nat} : j ∈ (turn.polled x i rest).resting ↔
    (j = i ∧ (turn.run.poll x i).gaveWay i = true) ∨ j ∈ turn.resting := by
  unfold Turn.polled
  simp only
  split
  · next gave => simp [gave]
  · next stays => simp [stays]

/-! What each part of `Orderly` owes to the one poll. -/

namespace Orderly

variable {field : FieldPlan} {task task' : RootTask} {j : Nat} (orderly : turn.Orderly (i :: rest))

include orderly

theorem apart : i ∉ rest ++ turn.woken ++ turn.resting ∧ (rest ++ turn.woken ++ turn.resting).Nodup :=
  List.nodup_cons.1 (show (i :: (rest ++ turn.woken ++ turn.resting)).Nodup from orderly.distinct)

theorem ne_head (mem : j ∈ rest ++ turn.woken ++ turn.resting) : j ≠ i := by
  rintro rfl
  exact orderly.apart.1 mem

/-- Those woken by now are none of the others. -/
theorem distinct_polled (calm : (turn.run.poll x i).state.cancelled = false) :
    (rest ++ (turn.polled x i rest).woken ++ (turn.polled x i rest).resting).Nodup := by
  have known : (rest ++ turn.woken ++ (turn.polled x i rest).resting).Nodup := by
    unfold Turn.polled
    simp only
    split
    · exact (List.perm_middle.nodup_iff).2 (List.nodup_cons.2 orderly.apart)
    · exact orderly.apart.2
  have all : (rest ++ turn.woken ++ (turn.polled x i rest).resting ++ (turn.run.poll x i).admitted.filter
      (· ∉ rest ++ turn.woken ++ (turn.polled x i rest).resting)).Nodup :=
    List.nodup_append.2 ⟨known, (admitted_nodup calm).filter _, fun a mem b mem' same => by
      have absent := (List.mem_filter.1 mem').2
      rw [← same] at absent
      exact of_decide_eq_true absent mem⟩
  refine (List.Perm.nodup_iff ?_).2 all
  change (rest ++ (turn.woken ++ (turn.run.poll x i).admitted.filter _) ++ (turn.polled x i rest).resting).Perm _
  rw [← List.append_assoc, List.append_assoc, List.append_assoc _ _ (List.filter _ _)]
  exact List.perm_append_comm.append_left _

variable (polled : Polled turn.run (turn.run.poll x i) i field task task')

include polled

/-- While some field has not begun, no field that is polled begins to wait, unless there is no slot. -/
theorem fresh_polled (fresh : (turn.run.poll x i).At RootTask.isFresh j) :
    j ∈ rest ∧ (∀ k ∈ rest, (turn.run.poll x i).At RootTask.isFresh k) ∧
      ((∀ k, ¬(turn.run.poll x i).At RootTask.isQueued k) ∨ (turn.run.poll x i).state.slots.acquire? = none) := by
  have ne : j ≠ i := by
    rintro rfl
    exact polled.begun (RootTask.eq_of_isFresh (polled.at_self.1 fresh))
  obtain ⟨mem, all, spare⟩ := orderly.fresh j ((polled.at_ne ne).1 fresh)
  have unheld : task.held = 0 := by
    rw [RootTask.eq_of_isFresh ((all i List.mem_cons_self).task polled.here)]
    rfl
  refine ⟨(List.mem_cons.1 mem).resolve_left ne, fun k mem => ?_, ?_⟩
  · have ne' : k ≠ i := orderly.ne_head (List.mem_append_left _ (List.mem_append_left _ mem))
    exact (polled.at_ne ne').2 (all k (List.mem_cons_of_mem _ mem))
  · by_cases full : turn.run.state.slots.acquire? = none
    · exact Or.inr (by rw [polled.full unheld full, full])
    · refine Or.inl fun k queued => ?_
      by_cases same : k = i
      · subst same
        exact full (polled.queued (RootTask.eq_of_isQueued (polled.at_self.1 queued))).2
      · exact spare.resolve_right full k ((polled.at_ne same).1 queued)

theorem limited_polled (queued : (turn.run.poll x i).At RootTask.isQueued j) :
    (turn.run.poll x i).state.slots.limit ≠ 0 := by
  rw [polled.limit]
  by_cases same : j = i
  · subst same
    exact (acquire_eq_none.1 (polled.queued (RootTask.eq_of_isQueued (polled.at_self.1 queued))).2).1
  · exact orderly.limited j ((polled.at_ne same).1 queued)

theorem held_polled : (turn.run.poll x i).slotsHeld ≤ (turn.run.poll x i).state.slots.taken := by
  have held := orderly.held
  have counted := polled.slotsHeld
  have taken := polled.taken (Nat.le_trans (held_le_slotsHeld polled.here) held)
  omega

variable (calm : (turn.run.poll x i).state.cancelled = false)

include calm

theorem resting_polled (mem : j ∈ (turn.polled x i rest).resting) :
    (turn.run.poll x i).At (RootTask.isResting false) j := by
  rcases mem_resting_polled.1 mem with ⟨rfl, gave⟩ | mem
  · exact (gaveWay_calm calm).1 gave
  · exact (polled.at_ne (orderly.ne_head (List.mem_append_right _ mem))).2 (orderly.resting j mem)

theorem busy_polled (busy : (turn.run.poll x i).At (RootTask.isResting false) j) :
    j ∈ rest ∨ j ∈ (turn.polled x i rest).resting := by
  by_cases same : j = i
  · subst same
    exact Or.inr (mem_resting_polled.2 (Or.inl ⟨rfl, (gaveWay_calm calm).2 busy⟩))
  · exact (orderly.busy j ((polled.at_ne same).1 busy)).imp (fun mem => (List.mem_cons.1 mem).resolve_left same)
      fun mem => mem_resting_polled.2 (Or.inr mem)

theorem woken_polled (mem : j ∈ (turn.polled x i rest).woken) : (turn.run.poll x i).At RootTask.isQueued j := by
  rcases List.mem_append.1 mem with mem | mem
  · have ne := orderly.ne_head (List.mem_append_left _ (List.mem_append_right _ mem))
    exact (polled.at_ne ne).2 (orderly.woken j mem)
  · exact at_of_mem_admitted calm (List.mem_filter.1 mem).1

/-- Who was to get a slot and is still waiting is to get one still. -/
theorem admits_polled (mem : j ∈ rest ++ turn.woken) (queued : (turn.run.poll x i).At RootTask.isQueued j) :
    j ∈ (turn.run.poll x i).admitted := by
  have ne := orderly.ne_head (List.mem_append_left _ mem)
  have queued' := (polled.at_ne ne).1 queued
  have mem' := (orderly.admitted j).2 ⟨queued', (List.mem_append.1 mem).imp_left (List.mem_cons_of_mem _)⟩
  refine polled.admits orderly.calm calm orderly.held ?_ ?_ ne mem'
  · rintro rfl
    rcases (orderly.fresh i ⟨field, _, polled.here, rfl⟩).2.2 with none | full
    · exact none j queued'
    · rw [admitted_full orderly.calm full] at mem'
      cases mem'
  · rintro rfl
    exact (orderly.admitted i).2 ⟨⟨field, _, polled.here, rfl⟩, Or.inl List.mem_cons_self⟩

theorem admitted_polled : j ∈ (turn.run.poll x i).admitted ↔
    (turn.run.poll x i).At RootTask.isQueued j ∧ (j ∈ rest ∨ j ∈ (turn.polled x i rest).woken) := by
  constructor
  · intro mem
    have queued := at_of_mem_admitted calm mem
    refine ⟨queued, ?_⟩
    by_cases known : j ∈ rest ++ turn.woken ++ (turn.polled x i rest).resting
    · rcases List.mem_append.1 known with known | known
      · exact (List.mem_append.1 known).imp_right (List.mem_append_left _)
      · -- whoever gave way does not wait for a slot
        obtain ⟨_, _, here, is⟩ := queued
        have busy := (orderly.resting_polled polled calm known).task here
        rw [RootTask.eq_of_isQueued is] at busy
        cases busy
    · exact Or.inr (List.mem_append_right _ (List.mem_filter.2 ⟨mem, decide_eq_true known⟩))
  · rintro ⟨queued, mem | mem⟩
    · exact orderly.admits_polled polled calm (List.mem_append_left _ mem) queued
    · rcases List.mem_append.1 mem with mem | mem
      · exact orderly.admits_polled polled calm (List.mem_append_right _ mem) queued
      · exact (List.mem_filter.1 mem).1

end Orderly

/-- One poll leaves a round orderly. -/
theorem Orderly.poll (few : x.plan.kind ≠ .mutation) (orderly : turn.Orderly (i :: rest))
    (ongoing : (turn.run.poll x i).aborted = none) (calm : (turn.run.poll x i).state.cancelled = false) :
    (turn.polled x i rest).Orderly rest := by
  obtain ⟨field, task, task', polled⟩ := poll_polled few ongoing (orderly.among i List.mem_cons_self)
  exact
    { calm
      distinct := orderly.distinct_polled calm
      among := fun j mem => by
        have bound := orderly.among j (List.mem_cons_of_mem _ mem)
        change j < (turn.run.poll x i).tasks.length
        rwa [polled.tasks, List.length_set]
      fresh := fun _ fresh => orderly.fresh_polled polled fresh
      busy := fun _ busy => orderly.busy_polled polled calm busy
      woken := fun _ mem => orderly.woken_polled polled calm mem
      resting := fun _ mem => orderly.resting_polled polled calm mem
      admitted := fun _ => orderly.admitted_polled polled calm
      limited := fun _ queued => orderly.limited_polled polled queued
      held := orderly.held_polled polled }

/-- A round leaves it orderly. -/
theorem Orderly.pollWoken (few : x.plan.kind ≠ .mutation) {pending : List Nat} (orderly : turn.Orderly pending)
    (ongoing : (pollWoken x pending turn).run.aborted = none)
    (calm : (pollWoken x pending turn).run.state.cancelled = false) : (pollWoken x pending turn).Orderly [] := by
  induction pending generalizing turn with
  | nil => exact orderly
  | cons i rest ih =>
    rw [pollWoken_cons] at *
    refine ih (orderly.poll few ?_ ?_) ongoing calm
    · rw [pollWoken_polls] at ongoing
      exact polls_ongoing ongoing
    · rw [pollWoken_polls] at calm
      exact polls_calm calm

/-- A round that begins in order. -/
structure Begins (x : Execution) (turn : Turn) (pending : List Nat) (begun : Turn) : Prop where
  next : turn.next x = Turn.pollWoken x pending begun
  run : begun.run = turn.run
  orderly : begun.Orderly pending

/-- The fields that were woken are polled next, and if there are none, those that gave way. -/
theorem Orderly.begins (orderly : turn.Orderly []) (crowd : turn.run.isCrowd x.plan.kind = true) :
    (turn.woken ≠ [] ∧ turn.Begins x turn.woken { turn with woken := [] }) ∨
      (turn.woken = [] ∧ turn.Begins x turn.resting { turn with resting := [] }) := by
  have round : turn.next x = if turn.woken.isEmpty then Turn.pollWoken x turn.resting { turn with resting := [] }
      else Turn.pollWoken x turn.woken { turn with woken := [] } := by
    unfold next
    rw [crowd]
    rfl
  have begun (i : Nat) : ¬turn.run.At RootTask.isFresh i := fun fresh =>
    absurd (orderly.fresh i fresh).1 List.not_mem_nil
  have bound {which : RootTask → Bool} {i : Nat} (at' : turn.run.At which i) : i < turn.run.tasks.length := by
    obtain ⟨_, _, here, _⟩ := at'
    exact (List.getElem?_eq_some_iff.1 here).1
  have distinct : (turn.woken ++ turn.resting).Nodup := orderly.distinct
  by_cases none : turn.woken = []
  · refine Or.inr ⟨none, by rw [round, none]; rfl, rfl, ?_⟩
    refine
      { calm := orderly.calm
        distinct := by simpa [none] using distinct
        among := fun i mem => bound (orderly.resting i mem)
        fresh := fun i fresh => (begun i fresh).elim
        busy := fun i busy => Or.inl ((orderly.busy i busy).resolve_left List.not_mem_nil)
        woken := orderly.woken
        resting := fun i mem => absurd mem List.not_mem_nil
        admitted := fun i => (orderly.admitted i).trans ?_
        limited := orderly.limited
        held := orderly.held }
    simp only [none, List.not_mem_nil, or_false, or_self, and_false, false_iff, not_and]
    rintro ⟨_, task, here, queued⟩ mem
    rw [RootTask.eq_of_isQueued queued] at here
    cases (orderly.resting i mem).task here
  · refine Or.inl ⟨none, ?_, rfl, ?_⟩
    · rw [round, List.isEmpty_eq_false_iff.2 none]
      rfl
    · exact
        { calm := orderly.calm
          distinct := by rwa [List.append_nil]
          among := fun i mem => bound (orderly.woken i mem)
          fresh := fun i fresh => (begun i fresh).elim
          busy := fun i busy => Or.inr ((orderly.busy i busy).resolve_left List.not_mem_nil)
          woken := fun i mem => absurd mem List.not_mem_nil
          resting := orderly.resting
          admitted := fun i => by simpa using orderly.admitted i
          limited := orderly.limited
          held := orderly.held }

/-- Between rounds, whoever was woken has a slot to take. -/
theorem Orderly.free (orderly : turn.Orderly []) (mem : i ∈ turn.woken) : turn.run.state.slots.acquire? ≠ none := by
  intro full
  have called := (orderly.admitted i).2 ⟨orderly.woken i mem, Or.inr mem⟩
  rw [admitted_full orderly.calm full] at called
  cases called

/-- Between rounds, if a field waits and nobody was woken there is no slot. -/
theorem Orderly.full (orderly : turn.Orderly []) (none : turn.woken = []) (queued : turn.run.At RootTask.isQueued i) :
    turn.run.state.slots.acquire? = Option.none := by
  have empty : turn.run.admitted = [] := by
    refine List.eq_nil_iff_forall_not_mem.2 fun j mem => ?_
    have called := ((orderly.admitted j).1 mem).2
    rw [none] at called
    exact called.elim List.not_mem_nil List.not_mem_nil
  refine acquire_eq_none.2 ⟨orderly.limited i queued, ?_⟩
  rw [admitted_calm orderly.calm, List.take_eq_nil_iff] at empty
  refine Nat.sub_eq_zero_iff_le.1 (empty.resolve_right fun nobody => ?_)
  exact absurd (nobody ▸ mem_places.2 queued) List.not_mem_nil

/-- A round that gets no field further leaves every field where it stays. -/
theorem Orderly.rests (few : x.plan.kind ≠ .mutation) (orderly : turn.Orderly [])
    (crowd : turn.run.isCrowd x.plan.kind = true) (ongoing : (turn.next x).run.aborted = none)
    (calm : (turn.next x).run.state.cancelled = false) (idle : ¬turn.run.Gains (turn.next x).run) (i : Nat) :
    (turn.next x).run.Rested x i := by
  -- whoever was polled stays, and nothing else has changed
  have still {pending : List Nat} {begun : Turn} (begins : turn.Begins x pending begun) :
      turn.run.Holds (turn.next x).run ∧ ∀ j ∈ pending, (turn.next x).run.Rested x j := by
    have run : (turn.next x).run = pending.foldl (Run.poll x) turn.run := by
      rw [begins.next, pollWoken_polls, begins.run]
    rw [run] at ongoing idle ⊢
    exact (polls_gain ongoing).resolve_left idle
  have ready (j : Nat) : (turn.next x).run.isReady x.plan.kind j = true := isReady_iff.2 (Or.inl few)
  rcases orderly.begins crowd with ⟨woken, begins⟩ | ⟨none, begins⟩
  · -- the first that was woken had a slot to take
    obtain ⟨holds, rested⟩ := still begins
    obtain ⟨j, mem⟩ := List.exists_mem_of_ne_nil _ woken
    obtain ⟨field, task, here, queued⟩ := orderly.woken j mem
    rw [RootTask.eq_of_isQueued queued] at here
    obtain ⟨task', there, rfl | ⟨fresh, -⟩⟩ := holds.each j field _ here
    · cases rested j mem (ready j) field _ there with
      | waits waits =>
        cases waits with
        | slot full => exact absurd (holds.slots ▸ full) (orderly.free mem)
    · cases fresh
  · obtain ⟨holds, rested⟩ := still begins
    intro isReady field task there
    have ordered : (turn.next x).Orderly [] := by
      rw [begins.next] at ongoing calm ⊢
      exact begins.orderly.pollWoken few ongoing calm
    obtain ⟨task₀, here, lingers⟩ : ∃ task₀, turn.run.tasks[i]? = some (field, task₀) ∧ task₀.Lingers task := by
      have bound : i < turn.run.tasks.length := by
        rw [← holds.length]
        exact (List.getElem?_eq_some_iff.1 there).1
      have here := List.getElem?_eq_getElem bound
      obtain ⟨task', there', lingers⟩ := holds.each i _ _ here
      cases there.symm.trans there'
      exact ⟨_, here, lingers⟩
    have same (other : task ≠ .queued) : task₀ = task :=
      (lingers.resolve_right fun waits => other waits.2).symm
    cases task with
    | fresh => exact absurd (ordered.fresh i ⟨field, _, there, rfl⟩).1 List.not_mem_nil
    | done v => exact .done
    | failed abort => exact .failed
    | queued =>
      have queued : turn.run.At RootTask.isQueued i := by
        rcases lingers with same | ⟨fresh, -⟩
        · exact ⟨field, _, here, by rw [← same]; rfl⟩
        · exact absurd (orderly.fresh i ⟨field, _, here, by rw [fresh]; rfl⟩).1 List.not_mem_nil
      exact .waits (.slot (holds.slots ▸ orderly.full none queued))
    | working work =>
      by_cases busy : (RootTask.working work).isResting false = true
      · have mem := (orderly.busy i ⟨field, _, here, by rw [same (by simp)]; exact busy⟩).resolve_left List.not_mem_nil
        exact rested i mem isReady field _ there
      · cases work with
        | awaitCancel next => exact .waits (.cancellation calm)
        | _ => exact absurd rfl busy

theorem Begins.run_next {pending : List Nat} {begun : Turn} (begins : turn.Begins x pending begun) :
    (turn.next x).run = pending.foldl (Run.poll x) turn.run := by
  rw [begins.next, pollWoken_polls, begins.run]

theorem Begins.orderly_next {pending : List Nat} {begun : Turn} (begins : turn.Begins x pending begun)
    (few : x.plan.kind ≠ .mutation) (ongoing : (turn.next x).run.aborted = none)
    (calm : (turn.next x).run.state.cancelled = false) : (turn.next x).Orderly [] := by
  rw [begins.next] at ongoing calm ⊢
  exact begins.orderly.pollWoken few ongoing calm

/-- A crowd settles where every field stays. -/
theorem Orderly.settle_rested (few : x.plan.kind ≠ .mutation) (turn : Turn) (orderly : turn.Orderly [])
    (crowd : turn.run.isCrowd x.plan.kind = true) (ongoing : (turn.settle x).aborted = none)
    (calm : (turn.settle x).state.cancelled = false) (i : Nat) : (turn.settle x).Rested x i := by
  refine settle_induction (x := x)
    (motive := fun turn run => turn.Orderly [] → turn.run.isCrowd x.plan.kind = true → run.aborted = none →
      run.state.cancelled = false → run.Rested x i)
    (fun turn idle orderly crowd ongoing calm => orderly.rests few crowd ongoing calm idle i)
    (fun turn _ rested orderly crowd ongoing calm => ?_) turn orderly crowd ongoing calm
  obtain ⟨polls, settled⟩ := settle_polls (x := x) (turn.next x)
  have ongoing' : (turn.next x).run.aborted = none := polls_ongoing (settled ▸ ongoing)
  have calm' : (turn.next x).run.state.cancelled = false := polls_calm (settled ▸ calm)
  obtain ⟨pending, begun, begins⟩ : ∃ pending begun, turn.Begins x pending begun :=
    (orderly.begins crowd).elim (fun begins => ⟨_, _, begins.2⟩) fun begins => ⟨_, _, begins.2⟩
  refine rested (begins.orderly_next few ongoing' calm') ?_ ongoing calm
  rw [begins.run_next, polls_isCrowd, crowd]

end Turn

end GraphQL
