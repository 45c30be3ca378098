import GraphQL.Proofs.Sequencing
import Mathlib.Data.List.Duplicate
import Mathlib.Data.List.Flatten

/-!
# Shadowed fields

Of the fields of one name a type has the shallowest. `promote` sorts the candidates by depth, and `keepShallowest`
then goes through them once: `Keeps` says that it comes to the fields that none of their name is shallower than, or
to the clash of two of these that share a name. Sorting is stable, so that fields of one depth stay in the order of
their declaration.
-/

namespace GraphQL

/-- The fields of a list such that no field of the same name is shallower. -/
def unshadowed (all : List FieldDescriptor) : List FieldDescriptor :=
  all.filter fun field => ∀ other ∈ all, other.name = field.name → field.depth ≤ other.depth

/-- The failure of a type that has two fields of one name at a depth. -/
def RegistrationError.clash (typeName : String) (depth : Nat) (name : String) : RegistrationError :=
  if depth = 0 then .duplicateName typeName "field" name else .ambiguousField typeName name

/-- What keeping the shallowest fields of a list comes to. -/
inductive Keeps (typeName : String) (all : List FieldDescriptor) :
    Except RegistrationError (List FieldDescriptor) → Prop
  | ok (distinct : ((unshadowed all).map (·.name)).Nodup) : Keeps typeName all (.ok (unshadowed all))
  | clash {first second : FieldDescriptor} (twice : [first, second].Sublist (unshadowed all))
    (same : first.name = second.name) : Keeps typeName all (.error (.clash typeName second.depth second.name))

section

variable {typeName : String} {before after : List FieldDescriptor} {field : FieldDescriptor}

theorem mem_unshadowed {all : List FieldDescriptor} :
    field ∈ unshadowed all ↔
      field ∈ all ∧ ∀ other ∈ all, other.name = field.name → field.depth ≤ other.depth := by
  simp [unshadowed]

/-- Unshadowed fields of one name are at one depth. -/
theorem depth_of_unshadowed {all : List FieldDescriptor} {first second : FieldDescriptor}
    (mem : first ∈ unshadowed all) (mem' : second ∈ unshadowed all) (same : first.name = second.name) :
    first.depth = second.depth := by
  obtain ⟨here, least⟩ := mem_unshadowed.1 mem
  obtain ⟨here', least'⟩ := mem_unshadowed.1 mem'
  exact Nat.le_antisymm (least second here' same.symm) (least' first here same)

/-- Fields of different names do not shadow each other. -/
theorem unshadowed_of_distinct {all : List FieldDescriptor} (distinct : (all.map (·.name)).Nodup) :
    unshadowed all = all := by
  refine List.filter_eq_self.2 fun field mem => ?_
  simp only [decide_eq_true_eq]
  intro other mem' same
  have eq : other = field := List.inj_on_of_nodup_map distinct mem' mem same
  exact Nat.le_of_eq (congrArg FieldDescriptor.depth eq.symm)

/-- A field that is shadowed may be left out, since what it shadows is shadowed by the shallower one too. -/
theorem unshadowed_leave {first : FieldDescriptor} (mem : first ∈ before ++ after) (same : first.name = field.name)
    (shallower : first.depth < field.depth) :
    unshadowed (before ++ field :: after) = unshadowed (before ++ after) := by
  have dropped : ¬∀ other ∈ before ++ field :: after, other.name = field.name → field.depth ≤ other.depth := by
    intro least
    have := least first (by simp only [List.mem_append, List.mem_cons] at mem ⊢; tauto) same
    omega
  have alike (g : FieldDescriptor) :
      (∀ other ∈ before ++ field :: after, other.name = g.name → g.depth ≤ other.depth) ↔
        ∀ other ∈ before ++ after, other.name = g.name → g.depth ≤ other.depth := by
    constructor
    · intro least other mem'
      apply least
      simp only [List.mem_append, List.mem_cons] at mem' ⊢
      tauto
    · intro least other mem' named
      by_cases there : other ∈ before ++ after
      · exact least other there named
      · have eq : other = field := by
          simp only [List.mem_append, List.mem_cons] at mem' there
          tauto
        subst eq
        have := least first mem (same.trans named)
        omega
  simp only [unshadowed, alike] at dropped ⊢
  rw [List.filter_append, List.filter_cons_of_neg (by simpa using dropped), ← List.filter_append]

/-- Going through fields in order of depth, with those kept that came before. -/
theorem keepShallowest_keeps (ordered : (before ++ after).Pairwise fun a b => a.depth ≤ b.depth)
    (distinct : (before.map (·.name)).Nodup) :
    Keeps typeName (before ++ after) (keepShallowest typeName before after) := by
  induction after generalizing before with
  | nil =>
    have all : unshadowed (before ++ []) = before := by
      rw [List.append_nil]
      exact unshadowed_of_distinct distinct
    have keeps : Keeps typeName (before ++ []) (.ok (unshadowed (before ++ []))) := .ok (by rwa [all])
    rwa [all] at keeps
  | cons field rest ih =>
    rw [keepShallowest]
    split
    · next absent =>
      -- the field is the first of its name
      have new : field.name ∉ before.map (·.name) := by
        intro mem
        obtain ⟨other, mem, same⟩ := List.mem_map.1 mem
        simpa [same] using List.find?_eq_none.1 absent other mem
      have keeps := @ih (before ++ [field]) (by rwa [List.append_assoc])
        (by simp only [List.map_append, List.map_cons, List.map_nil]
            exact List.nodup_append.2 ⟨distinct, by simp, fun a mem b mem' => by
              rintro rfl
              exact new (List.mem_singleton.1 mem' ▸ mem)⟩)
      rwa [List.append_assoc] at keeps
    · next first found =>
      have mem : first ∈ before := List.mem_of_find?_eq_some found
      have same : first.name = field.name := by simpa using List.find?_some found
      have le : first.depth ≤ field.depth :=
        (List.pairwise_append.1 ordered).2.2 first mem field List.mem_cons_self
      split
      · next level =>
        -- neither of the two is shadowed by anything before or after
        have least (g : FieldDescriptor) (named : g.name = field.name) (level' : g.depth = field.depth) :
            ∀ other ∈ before ++ field :: rest, other.name = g.name → g.depth ≤ other.depth := by
          intro other mem' named'
          rcases List.mem_append.1 mem' with mem' | mem'
          · rw [List.inj_on_of_nodup_map distinct mem' mem (by rw [named', named, same])]
            omega
          · have := (List.pairwise_append.1 ordered).2.2 first mem other mem'
            omega
        have twice : [first, field].Sublist (unshadowed (before ++ field :: rest)) := by
          have sub : [first, field].Sublist (before ++ field :: rest) :=
            (List.singleton_sublist.2 mem).append (List.singleton_sublist.2 List.mem_cons_self)
          have kept : [first, field].filter
              (fun g => ∀ other ∈ before ++ field :: rest, other.name = g.name → g.depth ≤ other.depth) =
                [first, field] := by
            rw [List.filter_eq_self]
            intro g mem
            rw [decide_eq_true_eq]
            rcases List.mem_pair.1 mem with rfl | rfl
            · exact least _ same level
            · exact least _ rfl rfl
          rw [← kept]
          exact sub.filter _
        have clash : Keeps typeName (before ++ field :: rest) (.error (.clash typeName field.depth field.name)) :=
          .clash twice same
        unfold RegistrationError.clash at clash
        split at clash
        · next zero => rwa [if_pos zero]
        · next deep => rwa [if_neg deep]
      · next apart =>
        have left : unshadowed (before ++ field :: rest) = unshadowed (before ++ rest) :=
          unshadowed_leave (List.mem_append_left _ mem) same (by omega)
        have ordered' : (before ++ rest).Pairwise fun a b => a.depth ≤ b.depth :=
          ordered.sublist ((List.Sublist.refl _).append (List.sublist_cons_self _ _))
        have keeps := ih ordered' distinct
        generalize keepShallowest typeName before rest = result at keeps
        cases keeps with
        | ok distinct' =>
          rw [← left] at distinct' ⊢
          exact .ok distinct'
        | clash twice same' =>
          rw [← left] at twice
          exact .clash twice same'

end

/-! ## Sorting by depth -/

section

variable {all : List FieldDescriptor}

/-- The candidates in the order in which `promote` goes through them. -/
def byDepth (all : List FieldDescriptor) : List FieldDescriptor := all.mergeSort fun a b => a.depth ≤ b.depth

theorem byDepth_ordered (all : List FieldDescriptor) : (byDepth all).Pairwise fun a b => a.depth ≤ b.depth := by
  have sorted := @List.pairwise_mergeSort FieldDescriptor (fun a b => a.depth ≤ b.depth)
    (by simp only [decide_eq_true_eq]; omega) (by simp only [Bool.or_eq_true, decide_eq_true_eq]; omega) all
  unfold byDepth
  simpa only [decide_eq_true_eq] using sorted

theorem mem_byDepth {field : FieldDescriptor} : field ∈ byDepth all ↔ field ∈ all := List.mem_mergeSort

/-- Sorting keeps the order of the fields of one depth. -/
theorem filter_byDepth (all : List FieldDescriptor) (depth : Nat) :
    (byDepth all).filter (·.depth = depth) = all.filter (·.depth = depth) := by
  have level : (all.filter (·.depth = depth)).Pairwise fun a b => decide (a.depth ≤ b.depth) = true := by
    refine List.pairwise_filter.2 (List.pairwise_of_forall fun a b here there => ?_)
    simp only [decide_eq_true_eq] at here there ⊢
    omega
  have sub : (all.filter (·.depth = depth)).Sublist (byDepth all) :=
    List.sublist_mergeSort (by simp only [decide_eq_true_eq]; omega)
      (by simp only [Bool.or_eq_true, decide_eq_true_eq]; omega) level List.filter_sublist
  have sub' := sub.filter (·.depth = depth)
  rw [List.filter_filter] at sub'
  simp only [Bool.and_self] at sub'
  refine (sub'.eq_of_length ?_).symm
  exact ((List.mergeSort_perm all _).filter _).length_eq.symm

/-- At each depth, what sorting leaves unshadowed was so before, and in the same order. -/
theorem filter_unshadowed_byDepth (all : List FieldDescriptor) (depth : Nat) :
    (unshadowed (byDepth all)).filter (·.depth = depth) = (unshadowed all).filter (·.depth = depth) := by
  simp only [unshadowed, mem_byDepth]
  rw [List.filter_comm, List.filter_comm _ _ all, filter_byDepth]

/-- Fields in order of depth are those above a depth followed by those at it, if there are no deeper ones. -/
theorem eq_above_append_of_ordered {fields : List FieldDescriptor} {depth : Nat}
    (ordered : fields.Pairwise fun a b => a.depth ≤ b.depth) (bounded : ∀ field ∈ fields, field.depth ≤ depth) :
    fields = fields.filter (·.depth < depth) ++ fields.filter (·.depth = depth) := by
  induction fields with
  | nil => rfl
  | cons field rest ih =>
    obtain ⟨after, ordered⟩ := List.pairwise_cons.1 ordered
    obtain ⟨first, others⟩ := List.forall_mem_cons.1 bounded
    by_cases less : field.depth < depth
    · rw [List.filter_cons_of_pos (by simpa using less),
        List.filter_cons_of_neg (by simpa using Nat.ne_of_lt less), List.cons_append, ← ih ordered others]
    · have level : ∀ other ∈ field :: rest, other.depth = depth := by
        intro other mem
        have := bounded other mem
        rcases List.mem_cons.1 mem with rfl | mem'
        · omega
        · have := after other mem'
          omega
      have none : (field :: rest).filter (·.depth < depth) = [] := by
        rw [List.filter_eq_nil_iff]
        intro other mem
        simp [level other mem]
      have all : (field :: rest).filter (·.depth = depth) = field :: rest := by
        rw [List.filter_eq_self]
        intro other mem
        simp [level other mem]
      rw [none, all, List.nil_append]

/-- Fields in order of depth are those at depth zero, then those at depth one, and so on. -/
theorem eq_flatMap_of_ordered {fields : List FieldDescriptor} {height : Nat}
    (ordered : fields.Pairwise fun a b => a.depth ≤ b.depth) (bounded : ∀ field ∈ fields, field.depth < height) :
    fields = (List.range height).flatMap fun depth => fields.filter (·.depth = depth) := by
  induction height generalizing fields with
  | zero =>
    cases fields with
    | nil => rfl
    | cons field rest => exact absurd (bounded field List.mem_cons_self) (Nat.not_lt_zero _)
  | succ height ih =>
    have above := ih (ordered.filter (·.depth < height)) (by simp)
    rw [List.range_succ, List.flatMap_append, List.flatMap_singleton]
    refine (eq_above_append_of_ordered ordered fun field mem => Nat.le_of_lt_succ (bounded field mem)).trans ?_
    refine congrArg (· ++ _) (above.trans (List.flatMap_congr fun depth mem => ?_))
    rw [List.filter_filter]
    refine List.filter_congr fun field _ => ?_
    have less := List.mem_range.1 mem
    by_cases here : field.depth = depth <;> simp [here, less]

end

/-! ## Promoting -/

variable {typeName : String} {direct : List FieldDescriptor} {embeddings : List Embedding}

theorem promote_eq (typeName : String) (direct : List FieldDescriptor) (embeddings : List Embedding) :
    promote typeName direct embeddings =
      keepShallowest typeName [] (byDepth (direct ++ (layOut 0 embeddings).2)) >>= fun fields =>
        .ok ⟨(layOut 0 embeddings).1, fields⟩ := rfl

/-- Promoting lays out the embedded tables and keeps what is unshadowed, unless two fields of one name are. -/
theorem promote_cases (typeName : String) (direct : List FieldDescriptor) (embeddings : List Embedding) :
    (promote typeName direct embeddings =
        .ok ⟨(layOut 0 embeddings).1, unshadowed (byDepth (direct ++ (layOut 0 embeddings).2))⟩ ∧
      ((unshadowed (byDepth (direct ++ (layOut 0 embeddings).2))).map (·.name)).Nodup) ∨
    ∃ first second : FieldDescriptor,
      promote typeName direct embeddings = .error (.clash typeName second.depth second.name) ∧
      [first, second].Sublist (unshadowed (byDepth (direct ++ (layOut 0 embeddings).2))) ∧
      first.name = second.name := by
  have keeps := @keepShallowest_keeps typeName [] (byDepth (direct ++ (layOut 0 embeddings).2))
    (byDepth_ordered _) List.nodup_nil
  rw [promote_eq]
  generalize keepShallowest typeName [] _ = result at keeps ⊢
  cases keeps with
  | ok distinct => exact Or.inl ⟨rfl, distinct⟩
  | clash twice same => exact Or.inr ⟨_, _, rfl, twice, same⟩

end GraphQL
