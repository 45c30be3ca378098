/-!
# Entries in insertion order

An object, and every other table of keyed values, is a list of entries. `Entries.insert` keeps the place
of a key that is already there and replaces its value, so the keys come in the order in which they were
first written.
-/

namespace GraphQL

/-- Keyed values in the order in which the keys were first inserted. -/
abbrev Entries (α : Type) := List (String × α)

namespace Entries

variable {κ α : Type} [DecidableEq κ]

def find? (key : κ) : List (κ × α) → Option α
  | [] => none
  | (k, v) :: rest => if k = key then some v else find? key rest

def contains (key : κ) (entries : List (κ × α)) : Bool := (find? key entries).isSome

def insert (key : κ) (value : α) : List (κ × α) → List (κ × α)
  | [] => [(key, value)]
  | (k, v) :: rest => if k = key then (k, value) :: rest else (k, v) :: insert key value rest

def erase (key : κ) : List (κ × α) → List (κ × α)
  | [] => []
  | (k, v) :: rest => if k = key then rest else (k, v) :: erase key rest

/-- Inserts the entries of a list one after the other. -/
def ofList (entries : List (κ × α)) : List (κ × α) :=
  entries.foldl (fun all (key, value) => insert key value all) []

def keys (entries : List (κ × α)) : List κ := entries.map (·.1)

theorem mem_keys_of_find? {key : κ} {value : α} {entries : List (κ × α)} (h : find? key entries = some value) :
    key ∈ keys entries := by
  induction entries with
  | nil => simp [find?] at h
  | cons entry rest ih =>
    obtain ⟨k, v⟩ := entry
    by_cases hk : k = key
    · simp [keys, hk]
    · rw [find?, if_neg hk] at h
      exact List.mem_cons_of_mem _ (ih h)

theorem sizeOf_lt_of_find? [SizeOf κ] [SizeOf α] {key : κ} {value : α} {entries : List (κ × α)}
    (h : find? key entries = some value) : sizeOf value < sizeOf entries := by
  induction entries with
  | nil => simp [find?] at h
  | cons entry rest ih =>
    obtain ⟨k, v⟩ := entry
    rw [find?] at h
    split at h
    · cases h
      simp
      omega
    · have := ih h
      simp
      omega

end Entries

/-- Excluding a member that was not excluded leaves fewer. -/
theorem filter_notMem_cons_lt {α : Type} [DecidableEq α] {all seen : List α} {x : α} (hx : x ∈ all)
    (h : x ∉ seen) : (all.filter (· ∉ x :: seen)).length < (all.filter (· ∉ seen)).length := by
  have sub : ∀ y, y ∉ x :: seen → y ∉ seen := fun y hy hs => hy (List.mem_cons_of_mem x hs)
  rw [← List.countP_eq_length_filter, ← List.countP_eq_length_filter]
  obtain ⟨before, after, rfl⟩ := List.append_of_mem hx
  have le (part : List α) : part.countP (· ∉ x :: seen) ≤ part.countP (· ∉ seen) :=
    List.countP_mono_left fun y _ hy => decide_eq_true (sub y (of_decide_eq_true hy))
  have first := le before
  have last := le after
  have counted : (x :: after).countP (· ∉ seen) = after.countP (· ∉ seen) + 1 :=
    List.countP_cons_of_pos (decide_eq_true h)
  rw [List.countP_append, List.countP_append, List.countP_cons_of_neg (by simp), counted]
  omega

end GraphQL
