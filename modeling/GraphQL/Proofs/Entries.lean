import GraphQL.Entries
import Mathlib.Data.List.Forall2

/-!
# Entries

What is found among entries after some were inserted, erased or mapped, entries in another order, and entries that have
related values under the same keys.
-/

namespace GraphQL

namespace Entries

variable {κ α : Type} [DecidableEq κ]

theorem find?_insert_self (key : κ) (value : α) (entries : List (κ × α)) :
    find? key (insert key value entries) = some value := by
  induction entries with
  | nil => simp [insert, find?]
  | cons entry rest ih =>
    obtain ⟨k, v⟩ := entry
    by_cases eq : k = key
    · simp [insert, find?, eq]
    · simp [insert, find?, eq, ih]

theorem find?_insert_of_ne {key other : κ} (ne : other ≠ key) (value : α) (entries : List (κ × α)) :
    find? other (insert key value entries) = find? other entries := by
  induction entries with
  | nil => simp [insert, find?, Ne.symm ne]
  | cons entry rest ih =>
    obtain ⟨k, v⟩ := entry
    by_cases eq : k = key
    · simp [insert, find?, eq, Ne.symm ne]
    · simp [insert, find?, eq, ih]

theorem mem_of_find? {key : κ} {value : α} {entries : List (κ × α)} (found : find? key entries = some value) :
    (key, value) ∈ entries := by
  induction entries with
  | nil => cases found
  | cons entry rest ih =>
    obtain ⟨k, v⟩ := entry
    by_cases eq : k = key
    · simp only [find?, eq, if_true, Option.some.injEq] at found
      rw [eq, found]
      exact List.mem_cons_self
    · rw [find?, if_neg eq] at found
      exact List.mem_cons_of_mem _ (ih found)

theorem mem_insert {key : κ} {value : α} {entries : List (κ × α)} {entry : κ × α}
    (mem : entry ∈ insert key value entries) : entry = (key, value) ∨ entry ∈ entries := by
  induction entries with
  | nil => exact Or.inl (List.mem_singleton.1 mem)
  | cons first rest ih =>
    obtain ⟨k, v⟩ := first
    rw [insert] at mem
    split at mem
    · next eq =>
      rcases List.mem_cons.1 mem with rfl | mem
      · exact Or.inl (by rw [eq])
      · exact Or.inr (List.mem_cons_of_mem _ mem)
    · rcases List.mem_cons.1 mem with rfl | mem
      · exact Or.inr List.mem_cons_self
      · exact (ih mem).imp_right (List.mem_cons_of_mem _)

theorem mem_of_mem_erase {key : κ} {entries : List (κ × α)} {entry : κ × α} (mem : entry ∈ erase key entries) :
    entry ∈ entries := by
  induction entries with
  | nil => cases mem
  | cons first rest ih =>
    obtain ⟨k, v⟩ := first
    rw [erase] at mem
    split at mem
    · exact List.mem_cons_of_mem _ mem
    · rcases List.mem_cons.1 mem with rfl | mem
      · exact List.mem_cons_self
      · exact List.mem_cons_of_mem _ (ih mem)

theorem mem_of_mem_ofList {entries : List (κ × α)} {entry : κ × α} (mem : entry ∈ ofList entries) : entry ∈ entries := by
  suffices all : ∀ before : List (κ × α),
      entry ∈ entries.foldl (fun all entry => insert entry.1 entry.2 all) before → entry ∈ before ∨ entry ∈ entries from
    (all [] mem).resolve_left List.not_mem_nil
  clear mem
  induction entries with
  | nil => exact fun before mem => Or.inl mem
  | cons first rest ih =>
    intro before mem
    rcases ih _ mem with mem | mem
    · rcases mem_insert mem with rfl | mem
      · exact Or.inr List.mem_cons_self
      · exact Or.inl mem
    · exact Or.inr (List.mem_cons_of_mem _ mem)

section

variable {β : Type}

theorem find?_map (f : α → β) (key : κ) (entries : List (κ × α)) :
    find? key (entries.map fun entry => (entry.1, f entry.2)) = (find? key entries).map f := by
  induction entries with
  | nil => rfl
  | cons entry rest ih =>
    rw [List.map_cons, find?, find?]
    split
    · rfl
    · exact ih

theorem insert_map (f : α → β) (key : κ) (value : α) (entries : List (κ × α)) :
    insert key (f value) (entries.map fun entry => (entry.1, f entry.2)) =
      (insert key value entries).map fun entry => (entry.1, f entry.2) := by
  induction entries with
  | nil => rfl
  | cons entry rest ih =>
    simp only [List.map_cons, insert]
    split
    · rfl
    · rw [List.map_cons, ih]

theorem ofList_map (f : α → β) (entries : List (κ × α)) :
    ofList (entries.map fun entry => (entry.1, f entry.2)) =
      (ofList entries).map fun entry => (entry.1, f entry.2) := by
  unfold ofList
  rw [List.foldl_map]
  -- what is inserted so far is mapped as well
  suffices ∀ before : List (κ × α),
      entries.foldl (fun all entry => insert entry.1 (f entry.2) all) (before.map fun entry => (entry.1, f entry.2)) =
        (entries.foldl (fun all entry => insert entry.1 entry.2 all) before).map fun entry => (entry.1, f entry.2) from
    this []
  induction entries with
  | nil => exact fun _ => rfl
  | cons entry rest ih =>
    intro before
    rw [List.foldl_cons, List.foldl_cons, insert_map, ih]

end

/-! ## Erasing -/

theorem find?_erase_of_ne {key other : κ} (ne : other ≠ key) (entries : List (κ × α)) :
    find? other (erase key entries) = find? other entries := by
  induction entries with
  | nil => rfl
  | cons entry rest ih =>
    rw [erase]
    split
    · next same => rw [find?, if_neg (same.trans_ne ne.symm)]
    · rw [find?, find?, ih]

theorem contains_erase_of_ne {key other : κ} (ne : other ≠ key) (entries : List (κ × α)) :
    contains other (erase key entries) = contains other entries :=
  congrArg Option.isSome (find?_erase_of_ne ne entries)

theorem erase_comm (key other : κ) (entries : List (κ × α)) :
    erase key (erase other entries) = erase other (erase key entries) := by
  induction entries with
  | nil => rfl
  | cons entry rest ih =>
    by_cases same : key = other
    · rw [same]
    · by_cases here : entry.1 = key
      · have there : entry.1 ≠ other := here.trans_ne same
        rw [erase, if_neg there, erase, if_pos here, erase, if_pos here]
      · by_cases there : entry.1 = other
        · rw [erase, if_pos there, erase, if_neg here, erase, if_pos there]
        · rw [erase, if_neg there, erase, if_neg here, erase, if_neg here, erase, if_neg there, ih]

theorem erase_of_find?_eq_none {key : κ} {entries : List (κ × α)} (none : find? key entries = none) :
    erase key entries = entries := by
  induction entries with
  | nil => rfl
  | cons entry rest ih =>
    rw [find?] at none
    split at none
    · cases none
    · next other => rw [erase, if_neg other, ih none]

theorem erase_map {β : Type} (f : α → β) (key : κ) (entries : List (κ × α)) :
    erase key (entries.map fun entry => (entry.1, f entry.2)) =
      (erase key entries).map fun entry => (entry.1, f entry.2) := by
  induction entries with
  | nil => rfl
  | cons entry rest ih =>
    rw [List.map_cons, erase, erase]
    split
    · rfl
    · rw [List.map_cons, ih]

theorem erase_insert_of_ne {key other : κ} (ne : other ≠ key) (value : α) (entries : List (κ × α)) :
    erase key (insert other value entries) = insert other value (erase key entries) := by
  induction entries with
  | nil => exact if_neg ne
  | cons entry rest ih =>
    by_cases here : entry.1 = key
    · have apart : entry.1 ≠ other := here.trans_ne ne.symm
      rw [insert, if_neg apart, erase, if_pos here, erase, if_pos here]
    · by_cases same : entry.1 = other
      · rw [insert, if_pos same, erase, if_neg here, erase, if_neg here, insert, if_pos same]
      · rw [insert, if_neg same, erase, if_neg here, erase, if_neg here, insert, if_neg same, ih]

theorem erase_insert_self {key : κ} {entries : List (κ × α)} (none : find? key entries = none) (value : α) :
    erase key (insert key value entries) = entries := by
  induction entries with
  | nil => rw [insert, erase, if_pos rfl]
  | cons entry rest ih =>
    rw [find?] at none
    split at none
    · cases none
    · next other => rw [insert, if_neg other, erase, if_neg other, ih none]

theorem find?_append (key : κ) (before after : List (κ × α)) :
    find? key (before ++ after) = (find? key before).or (find? key after) := by
  induction before with
  | nil => rfl
  | cons entry rest ih =>
    rw [List.cons_append, find?, find?]
    split
    · rfl
    · exact ih

/-- What is found stands somewhere, and erasing takes it from there. -/
theorem split_of_find? {key : κ} {value : α} {entries : List (κ × α)} (found : find? key entries = some value) :
    ∃ before after, entries = before ++ (key, value) :: after ∧ find? key before = none ∧
      erase key entries = before ++ after := by
  induction entries with
  | nil => cases found
  | cons entry rest ih =>
    rw [find?] at found
    split at found
    · next here =>
      cases found
      exact ⟨[], rest, congrArg (· :: rest) (Prod.ext here rfl), rfl, if_pos here⟩
    · next other =>
      obtain ⟨before, after, rfl, none, erased⟩ := ih found
      refine ⟨entry :: before, after, rfl, ?_, ?_⟩
      · rw [find?, if_neg other, none]
      · rw [erase, if_neg other, erased]
        rfl

/-- A value that is replaced by one that looks alike. -/
theorem map_insert_of_find? {β : Type} {key : κ} {value value' : α} {entries : List (κ × α)}
    (found : find? key entries = some value) {f : α → β} (alike : f value' = f value) :
    (insert key value' entries).map (fun entry => f entry.2) = entries.map fun entry => f entry.2 := by
  induction entries with
  | nil => cases found
  | cons entry rest ih =>
    rw [find?] at found
    rw [insert]
    split at found
    · next here =>
      cases found
      rw [if_pos here, List.map_cons, List.map_cons, alike]
    · next other => rw [if_neg other, List.map_cons, List.map_cons, ih found]

/-! Inserting entries of other keys leaves the entry of a key alone. -/

section

variable {key : κ} {entries : List (κ × α)}

theorem find?_foldl_insert (none : find? key entries = none) (before : List (κ × α)) :
    find? key (entries.foldl (fun all entry => insert entry.1 entry.2 all) before) = find? key before := by
  induction entries generalizing before with
  | nil => rfl
  | cons entry rest ih =>
    rw [find?] at none
    split at none
    · cases none
    · next other =>
      rw [List.foldl_cons, ih none]
      exact find?_insert_of_ne (Ne.symm other) _ _

theorem erase_foldl_insert (none : find? key entries = none) (before : List (κ × α)) :
    erase key (entries.foldl (fun all entry => insert entry.1 entry.2 all) before) =
      entries.foldl (fun all entry => insert entry.1 entry.2 all) (erase key before) := by
  induction entries generalizing before with
  | nil => rfl
  | cons entry rest ih =>
    rw [find?] at none
    split at none
    · cases none
    · next other =>
      rw [List.foldl_cons, List.foldl_cons, ih none]
      rw [erase_insert_of_ne other]

/-- A key that is written once is found with the same value, and erased to the same effect, after entries are
inserted one after the other. -/
theorem ofList_once {value : α} (found : find? key entries = some value) (once : find? key (erase key entries) = none) :
    find? key (ofList entries) = some value ∧ erase key (ofList entries) = ofList (erase key entries) := by
  obtain ⟨before, after, rfl, none, erased⟩ := split_of_find? found
  rw [erased, find?_append, none] at once
  have fresh : find? key (ofList before) = Option.none := find?_foldl_insert none []
  have made : ofList (before ++ (key, value) :: after) =
      after.foldl (fun all entry => insert entry.1 entry.2 all) (insert key value (ofList before)) := by
    rw [ofList, List.foldl_append]
    rfl
  rw [made, erased]
  constructor
  · rw [find?_foldl_insert once]
    exact find?_insert_self _ _ _
  · rw [erase_foldl_insert once, erase_insert_self fresh, ofList, ofList, List.foldl_append]

end

theorem length_insert (key : κ) (value : α) (entries : List (κ × α)) :
    (insert key value entries).length = entries.length + if contains key entries then 0 else 1 := by
  induction entries with
  | nil => rfl
  | cons entry rest ih =>
    rw [insert, contains, find?]
    split
    · rfl
    · rw [List.length_cons, ih, List.length_cons, contains, Nat.add_right_comm]

theorem erase_sublist (key : κ) (entries : List (κ × α)) : (erase key entries).Sublist entries := by
  induction entries with
  | nil => exact List.Sublist.refl _
  | cons entry rest ih =>
    rw [erase]
    split
    · exact List.sublist_cons_self _ _
    · exact ih.cons_cons _

/-! ## Keys that differ

Where no key has two entries, an erased key is found no more, and a filter on the values finds what it keeps. -/

section

variable {entries : List (κ × α)}

theorem nodup_keys_insert (distinct : (keys entries).Nodup) (key : κ) (value : α) :
    (keys (insert key value entries)).Nodup := by
  induction entries with
  | nil => exact List.nodup_cons.2 ⟨List.not_mem_nil, List.nodup_nil⟩
  | cons entry rest ih =>
    obtain ⟨fresh, distinct⟩ := List.nodup_cons.1 distinct
    rw [insert]
    split
    · exact List.nodup_cons.2 ⟨fresh, distinct⟩
    · next other =>
      refine List.nodup_cons.2 ⟨fun mem => ?_, ih distinct⟩
      obtain ⟨inserted, mem, same⟩ := List.mem_map.1 mem
      rcases mem_insert mem with rfl | mem
      · exact other same.symm
      · exact fresh (same ▸ List.mem_map_of_mem mem)

theorem nodup_keys_ofList (entries : List (κ × α)) : (keys (ofList entries)).Nodup := by
  suffices all : ∀ before : List (κ × α), (keys before).Nodup →
      (keys (entries.foldl (fun all entry => insert entry.1 entry.2 all) before)).Nodup from all [] List.nodup_nil
  induction entries with
  | nil => exact fun _ distinct => distinct
  | cons entry rest ih => exact fun before distinct => ih _ (nodup_keys_insert distinct _ _)

theorem keys_erase (key : κ) (entries : List (κ × α)) : keys (erase key entries) = (keys entries).erase key := by
  induction entries with
  | nil => rfl
  | cons entry rest ih =>
    by_cases here : entry.1 = key
    · simp [erase, keys, here]
    · rw [erase, if_neg here]
      change entry.1 :: keys (erase key rest) = (entry.1 :: keys rest).erase key
      rw [ih, List.erase_cons_tail (by simpa using here)]

theorem nodup_keys_erase (distinct : (keys entries).Nodup) (key : κ) : (keys (erase key entries)).Nodup := by
  rw [keys_erase]
  exact distinct.erase key

theorem find?_eq_none_of_notMem {key : κ} (absent : key ∉ keys entries) : find? key entries = none := by
  cases found : find? key entries with
  | none => rfl
  | some value => exact absurd (mem_keys_of_find? found) absent

theorem find?_of_mem (distinct : (keys entries).Nodup) {key : κ} {value : α} (mem : (key, value) ∈ entries) :
    find? key entries = some value := by
  induction entries with
  | nil => cases mem
  | cons entry rest ih =>
    obtain ⟨fresh, distinct⟩ := List.nodup_cons.1 distinct
    rcases List.mem_cons.1 mem with rfl | mem
    · exact if_pos rfl
    · have other : entry.1 ≠ key := by
        rintro rfl
        exact fresh (List.mem_map.2 ⟨_, mem, rfl⟩)
      rw [find?, if_neg other]
      exact ih distinct mem

theorem find?_erase_self (distinct : (keys entries).Nodup) (key : κ) : find? key (erase key entries) = none := by
  apply find?_eq_none_of_notMem
  rw [keys_erase]
  exact distinct.not_mem_erase

theorem mem_erase_iff (distinct : (keys entries).Nodup) {key : κ} {entry : κ × α} :
    entry ∈ erase key entries ↔ entry ∈ entries ∧ entry.1 ≠ key := by
  constructor
  · intro mem
    refine ⟨mem_of_mem_erase mem, fun same => ?_⟩
    have among : entry.1 ∈ keys (erase key entries) := List.mem_map_of_mem mem
    rw [same, keys_erase] at among
    exact distinct.not_mem_erase among
  · rintro ⟨mem, other⟩
    have found : find? entry.1 (erase key entries) = some entry.2 := by
      rw [find?_erase_of_ne other]
      exact find?_of_mem distinct mem
    exact mem_of_find? found

theorem mem_insert_iff (distinct : (keys entries).Nodup) {key : κ} {value : α} {entry : κ × α} :
    entry ∈ insert key value entries ↔ entry = (key, value) ∨ entry ∈ entries ∧ entry.1 ≠ key := by
  have distinct' := nodup_keys_insert distinct key value
  constructor
  · intro mem
    have found : find? entry.1 (insert key value entries) = some entry.2 := find?_of_mem distinct' mem
    by_cases same : entry.1 = key
    · rw [same, find?_insert_self] at found
      exact Or.inl (Prod.ext same (Option.some.inj found).symm)
    · rw [find?_insert_of_ne same] at found
      exact Or.inr ⟨mem_of_find? found, same⟩
  · rintro (rfl | ⟨mem, other⟩)
    · exact mem_of_find? (find?_insert_self key value entries)
    · have found : find? entry.1 (insert key value entries) = some entry.2 := by
        rw [find?_insert_of_ne other]
        exact find?_of_mem distinct mem
      exact mem_of_find? found

theorem insert_of_find?_eq_none {key : κ} (fresh : find? key entries = none) (value : α) :
    insert key value entries = entries ++ [(key, value)] := by
  induction entries with
  | nil => rfl
  | cons entry rest ih =>
    rw [find?] at fresh
    split at fresh
    · cases fresh
    · next other => rw [insert, if_neg other, ih fresh, List.cons_append]

/-- Entries whose keys differ stay as they are when they are inserted one after the other. -/
theorem ofList_of_nodup (distinct : (keys entries).Nodup) : ofList entries = entries := by
  suffices all : ∀ before : List (κ × α), (keys (before ++ entries)).Nodup →
      entries.foldl (fun all entry => insert entry.1 entry.2 all) before = before ++ entries from all [] distinct
  clear distinct
  induction entries with
  | nil => exact fun before _ => (List.append_nil before).symm
  | cons entry rest ih =>
    intro before distinct
    have fresh : find? entry.1 before = none := by
      apply find?_eq_none_of_notMem
      intro mem
      rw [keys, List.map_append, List.nodup_append] at distinct
      exact distinct.2.2 _ mem _ List.mem_cons_self rfl
    rw [List.foldl_cons, insert_of_find?_eq_none fresh, ih, List.append_assoc]
    · rfl
    · rwa [List.append_assoc]

omit [DecidableEq κ] in
theorem nodup_keys_filter (distinct : (keys entries).Nodup) (keep : κ × α → Bool) :
    (keys (entries.filter keep)).Nodup :=
  distinct.sublist (List.filter_sublist.map _)

theorem find?_filter (distinct : (keys entries).Nodup) (keep : κ × α → Bool) (key : κ) :
    find? key (entries.filter keep) = (find? key entries).filter fun value => keep (key, value) := by
  induction entries with
  | nil => rfl
  | cons entry rest ih =>
    obtain ⟨k, v⟩ := entry
    obtain ⟨fresh, distinct⟩ := List.nodup_cons.1 distinct
    by_cases here : k = key
    · subst here
      have gone : find? k rest = none := find?_eq_none_of_notMem fresh
      cases kept : keep (k, v) with
      | true => simp [find?, kept, Option.filter]
      | false => simp [find?, kept, Option.filter, ih distinct, gone]
    · cases kept : keep (k, v) with
      | true => simp [find?, here, kept, ih distinct]
      | false => simp [find?, here, kept, ih distinct]

end

/-! ## The values of a key -/

/-- The values of a key, in the order of their entries. -/
def valuesOf (key : κ) : List (κ × α) → List α
  | [] => []
  | (k, value) :: rest => if k = key then value :: valuesOf key rest else valuesOf key rest

theorem head?_valuesOf (key : κ) (entries : List (κ × α)) : (valuesOf key entries).head? = find? key entries := by
  induction entries with
  | nil => rfl
  | cons entry rest ih =>
    rw [valuesOf, find?]
    split
    · rfl
    · exact ih

theorem valuesOf_erase_self (key : κ) (entries : List (κ × α)) :
    valuesOf key (erase key entries) = (valuesOf key entries).tail := by
  induction entries with
  | nil => rfl
  | cons entry rest ih =>
    by_cases here : entry.1 = key
    · rw [erase, if_pos here, valuesOf, if_pos here, List.tail_cons]
    · rw [erase, if_neg here, valuesOf, if_neg here, valuesOf, if_neg here, ih]

theorem valuesOf_erase_of_ne {key other : κ} (ne : other ≠ key) (entries : List (κ × α)) :
    valuesOf other (erase key entries) = valuesOf other entries := by
  induction entries with
  | nil => rfl
  | cons entry rest ih =>
    rw [erase]
    split
    · next same => rw [valuesOf, if_neg (same.trans_ne ne.symm)]
    · rw [valuesOf, valuesOf, ih]

theorem valuesOf_map {β : Type} (f : α → β) (key : κ) (entries : List (κ × α)) :
    valuesOf key (entries.map fun entry => (entry.1, f entry.2)) = (valuesOf key entries).map f := by
  induction entries with
  | nil => rfl
  | cons entry rest ih =>
    rw [List.map_cons, valuesOf, valuesOf]
    split
    · rw [ih, List.map_cons]
    · exact ih

theorem valuesOf_insert_self (key : κ) (value : α) (entries : List (κ × α)) :
    valuesOf key (insert key value entries) = value :: (valuesOf key entries).tail := by
  induction entries with
  | nil => exact if_pos rfl
  | cons entry rest ih =>
    by_cases here : entry.1 = key
    · rw [insert, if_pos here, valuesOf, if_pos here, valuesOf, if_pos here, List.tail_cons]
    · rw [insert, if_neg here, valuesOf, if_neg here, valuesOf, if_neg here, ih]

theorem valuesOf_insert_of_ne {key other : κ} (ne : other ≠ key) (value : α) (entries : List (κ × α)) :
    valuesOf other (insert key value entries) = valuesOf other entries := by
  induction entries with
  | nil => exact if_neg ne.symm
  | cons entry rest ih =>
    rw [insert]
    split
    · next same =>
      have apart : entry.1 ≠ other := same.trans_ne ne.symm
      rw [valuesOf, if_neg apart, valuesOf, if_neg apart]
    · rw [valuesOf, valuesOf, ih]

/-- Of several values of a key, the last is inserted to stay. -/
theorem valuesOf_ofList (key : κ) (entries : List (κ × α)) :
    valuesOf key (ofList entries) = (valuesOf key entries).getLast?.toList := by
  -- before each insertion the key has at most one value
  suffices all : ∀ before : List (κ × α), (valuesOf key before).tail = [] →
      valuesOf key (entries.foldl (fun all entry => insert entry.1 entry.2 all) before) =
        (valuesOf key before ++ valuesOf key entries).getLast?.toList from all [] rfl
  induction entries with
  | nil =>
    intro before single
    rw [List.foldl_nil]
    cases values : valuesOf key before with
    | nil => rfl
    | cons value others =>
      rw [values, List.tail_cons] at single
      rw [single]
      rfl
  | cons entry rest ih =>
    intro before single
    rw [List.foldl_cons]
    by_cases here : entry.1 = key
    · have inserted := valuesOf_insert_self entry.1 entry.2 before
      rw [here, single] at inserted
      rw [ih _ (by rw [here, inserted, List.tail_cons]), here, inserted, valuesOf, if_pos here,
        List.getLast?_append_of_ne_nil _ (List.cons_ne_nil _ _), List.singleton_append]
    · have inserted := valuesOf_insert_of_ne (Ne.symm here) entry.2 before
      rw [ih _ (by rw [inserted, single]), inserted, valuesOf, if_neg here]

theorem valuesOf_of_nodup {entries : List (κ × α)} (distinct : (keys entries).Nodup) (key : κ) :
    valuesOf key entries = (find? key entries).toList := by
  induction entries with
  | nil => rfl
  | cons entry rest ih =>
    obtain ⟨fresh, distinct⟩ := List.nodup_cons.1 distinct
    rw [valuesOf, find?]
    split
    · next same =>
      rw [ih distinct, find?_eq_none_of_notMem (same ▸ fresh)]
      rfl
    · exact ih distinct

/-! ## Another order -/

/-- The same entries in another order, but those of the same key in the same order. -/
def Reordered (entries entries' : List (κ × α)) : Prop := ∀ key, valuesOf key entries = valuesOf key entries'

namespace Reordered

variable {entries entries' : List (κ × α)}

theorem find? (reordered : Reordered entries entries') (key : κ) :
    Entries.find? key entries = Entries.find? key entries' := by
  rw [← head?_valuesOf, ← head?_valuesOf, reordered key]

theorem contains (reordered : Reordered entries entries') (key : κ) :
    Entries.contains key entries = Entries.contains key entries' :=
  congrArg Option.isSome (reordered.find? key)

theorem erase (reordered : Reordered entries entries') (key : κ) :
    Reordered (Entries.erase key entries) (Entries.erase key entries') := by
  intro other
  by_cases same : other = key
  · rw [same, valuesOf_erase_self, valuesOf_erase_self, reordered key]
  · rw [valuesOf_erase_of_ne same, valuesOf_erase_of_ne same, reordered other]

theorem map {β : Type} (reordered : Reordered entries entries') (f : α → β) :
    Reordered (entries.map fun entry => (entry.1, f entry.2)) (entries'.map fun entry => (entry.1, f entry.2)) := by
  intro key
  rw [valuesOf_map, valuesOf_map, reordered key]

theorem ofList (reordered : Reordered entries entries') :
    Reordered (Entries.ofList entries) (Entries.ofList entries') := by
  intro key
  rw [valuesOf_ofList, valuesOf_ofList, reordered key]

theorem perm (reordered : Reordered entries entries') : entries.Perm entries' := by
  induction entries generalizing entries' with
  | nil =>
    cases entries' with
    | nil => exact .refl _
    | cons entry rest =>
      have none := reordered entry.1
      rw [valuesOf, valuesOf, if_pos rfl] at none
      cases none
  | cons entry rest ih =>
    have found : Entries.find? entry.1 entries' = some entry.2 := by
      rw [← reordered.find?, Entries.find?, if_pos rfl]
    obtain ⟨before, after, rfl, -, erased⟩ := split_of_find? found
    have others := reordered.erase entry.1
    rw [erased, Entries.erase, if_pos rfl] at others
    exact ((ih others).cons entry).trans List.perm_middle.symm

/-- Where no key has two entries, any order will do. -/
theorem of_perm (distinct : (keys entries).Nodup) (perm : entries.Perm entries') : Reordered entries entries' := by
  have distinct' : (keys entries').Nodup := (perm.map Prod.fst).nodup_iff.1 distinct
  intro key
  rw [valuesOf_of_nodup distinct, valuesOf_of_nodup distinct']
  refine congrArg Option.toList (Option.ext fun value => ?_)
  constructor
  · exact fun found => find?_of_mem distinct' (perm.mem_iff.1 (mem_of_find? found))
  · exact fun found => find?_of_mem distinct (perm.mem_iff.2 (mem_of_find? found))

end Reordered

/-! ## Related values -/

section

/-- The same keys in the same order, with values that are related under their keys. -/
abbrev Keyed {α β : Type} (rel : String → α → β → Prop) : Entries α → Entries β → Prop :=
  List.Forall₂ fun entry entry' => entry'.1 = entry.1 ∧ rel entry.1 entry.2 entry'.2

namespace Keyed

variable {α β : Type} {rel : String → α → β → Prop} {entries : Entries α} {entries' : Entries β}

theorem keys (keyed : Keyed rel entries entries') : Entries.keys entries' = Entries.keys entries := by
  induction keyed with
  | nil => rfl
  | cons first _ ih => exact congrArg₂ List.cons first.1 ih

theorem find? (keyed : Keyed rel entries entries') (name : String) :
    (Entries.find? name entries = none ∧ Entries.find? name entries' = none) ∨
      ∃ v v', Entries.find? name entries = some v ∧ Entries.find? name entries' = some v' ∧ rel name v v' := by
  induction keyed with
  | nil => exact Or.inl ⟨rfl, rfl⟩
  | @cons entry entry' _ _ first _ ih =>
    obtain ⟨same, related⟩ := first
    by_cases here : entry.1 = name
    · refine Or.inr ⟨_, _, if_pos here, if_pos (same.trans here), here ▸ related⟩
    · rwa [Entries.find?, Entries.find?, if_neg here, same, if_neg here]

theorem erase (keyed : Keyed rel entries entries') (name : String) :
    Keyed rel (Entries.erase name entries) (Entries.erase name entries') := by
  induction keyed with
  | nil => exact .nil
  | @cons entry entry' _ _ first rest ih =>
    rw [Entries.erase, Entries.erase, first.1]
    by_cases here : entry.1 = name
    · rwa [if_pos here, if_pos here]
    · rw [if_neg here, if_neg here]
      exact .cons ⟨rfl, first.2⟩ ih

theorem contains (keyed : Keyed rel entries entries') (name : String) :
    Entries.contains name entries = Entries.contains name entries' := by
  unfold Entries.contains
  obtain ⟨none, none'⟩ | ⟨v, v', some, some', -⟩ := keyed.find? name
  · rw [none, none']
    rfl
  · rw [some, some']
    rfl

theorem map {γ δ : Type} {rel' : String → γ → δ → Prop} {f : α → γ} {g : β → δ} (keyed : Keyed rel entries entries')
    (each : ∀ key a b, rel key a b → rel' key (f a) (g b)) :
    Keyed rel' (entries.map fun entry => (entry.1, f entry.2)) (entries'.map fun entry => (entry.1, g entry.2)) :=
  List.forall₂_map_left_iff.2 (List.forall₂_map_right_iff.2
    (keyed.imp fun _ _ related => related.imp_right (each _ _ _)))

theorem insert (keyed : Keyed rel entries entries') {key : String} {value : α} {value' : β}
    (related : rel key value value') : Keyed rel (Entries.insert key value entries) (Entries.insert key value' entries') := by
  induction keyed with
  | nil => exact .cons ⟨rfl, related⟩ .nil
  | @cons entry entry' _ _ first rest ih =>
    rw [Entries.insert, Entries.insert, first.1]
    by_cases here : entry.1 = key
    · rw [if_pos here, if_pos here]
      exact .cons ⟨rfl, here.symm ▸ related⟩ rest
    · rw [if_neg here, if_neg here]
      exact .cons ⟨rfl, first.2⟩ ih

theorem ofList (keyed : Keyed rel entries entries') : Keyed rel (Entries.ofList entries) (Entries.ofList entries') := by
  suffices all : ∀ before before', Keyed rel before before' →
      Keyed rel (entries.foldl (fun all entry => Entries.insert entry.1 entry.2 all) before)
        (entries'.foldl (fun all entry => Entries.insert entry.1 entry.2 all) before') from all [] [] .nil
  induction keyed with
  | nil => exact fun _ _ keyed => keyed
  | cons first _ ih =>
    intro before before' keyed
    rw [List.foldl_cons, List.foldl_cons, first.1]
    exact ih _ _ (keyed.insert first.2)

end Keyed

end

end Entries

end GraphQL
