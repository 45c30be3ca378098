import GraphQL.Execution
import GraphQL.Plan.Compile
import GraphQL.Proofs.Sequencing

/-!
# Which fields are selected

Of a selection, an object has the fields that apply to its concrete type and are kept by their
directives, in the order of the selection. Compiling only refuses two fields of one response key whose
type conditions overlap; that is enough, because no two conditions that do not overlap are met by one
concrete type.
-/

namespace GraphQL

/-- Two fields that may not stand in one selection. -/
def FieldPlan.Clash (earlier later : FieldPlan) : Prop :=
  earlier.responseKey = later.responseKey ∧ overlap earlier.condition later.condition = true

theorem firstDuplicate_eq_none {earlier fields : List FieldPlan} (unique : firstDuplicate earlier fields = none) :
    (∀ a ∈ earlier, ∀ b ∈ fields, ¬a.Clash b) ∧ fields.Pairwise fun a b => ¬a.Clash b := by
  induction fields generalizing earlier with
  | nil => exact ⟨fun _ _ b mem => absurd mem List.not_mem_nil, .nil⟩
  | cons field rest ih =>
    rw [firstDuplicate] at unique
    split at unique
    · cases unique
    · next none =>
      obtain ⟨before, among⟩ := ih unique
      have first : ∀ a ∈ earlier, ¬a.Clash field := by
        intro a mem clash
        refine none (List.any_eq_true.2 ⟨a, mem, ?_⟩)
        simp [clash.1, clash.2]
      refine ⟨fun a mem b mem' => ?_, List.pairwise_cons.2 ⟨fun b mem => ?_, among⟩⟩
      · rcases List.mem_cons.1 mem' with rfl | mem'
        · exact first a mem
        · exact before a (List.mem_append_left _ mem) b mem'
      · exact before field (List.mem_append_right _ List.mem_cons_self) b mem

/-- Fields that apply to one concrete type overlap. -/
theorem overlap_of_appliesTo {a b : FieldPlan} {concrete : NamedType}
    (left : Execution.appliesTo a (some concrete) = true)
    (right : Execution.appliesTo b (some concrete) = true) : overlap a.condition b.condition = true := by
  unfold Execution.appliesTo at left right
  cases ha : a.condition with
  | none => rfl
  | some s =>
    cases hb : b.condition with
    | none => rfl
    | some t =>
      rw [ha] at left
      rw [hb] at right
      simp only [Option.all_some, beq_iff_eq] at left right
      rw [left, right]
      exact beq_self_eq_true _

namespace Execution

variable {x : Execution} {selection fields : List FieldPlan} {concrete : Option NamedType}

/-- Whether the directives keep a field. -/
def keeps (x : Execution) (field : FieldPlan) : Bool :=
  match x.isIncluded field with
  | .ok keep => keep
  | .error _ => false

/-- The fields of a selection that an object of a concrete type has. -/
def selected (x : Execution) (selection : List FieldPlan) (concrete : Option NamedType) : List FieldPlan :=
  selection.filter fun field => appliesTo field concrete && x.keeps field

theorem isIncluded_of_included (ok : x.included concrete selection = .ok fields) {field : FieldPlan}
    (mem : field ∈ fields) : x.isIncluded field = .ok true ∧ appliesTo field concrete = true := by
  induction selection generalizing fields with
  | nil =>
    cases ok
    cases mem
  | cons first rest ih =>
    rw [included] at ok
    split at ok
    · next applies =>
      cases kept : x.isIncluded first with
      | error e => simp [kept] at ok
      | ok keep =>
        rw [kept] at ok
        cases more : x.included concrete rest with
        | error e => simp [more, Except.map] at ok
        | ok others =>
          rw [more] at ok
          cases ok
          cases keep with
          | false => exact ih more mem
          | true =>
            rcases List.mem_cons.1 mem with rfl | mem
            · exact ⟨kept, applies⟩
            · exact ih more mem
    · exact ih ok mem

theorem included_eq_ok (ok : x.included concrete selection = .ok fields) : fields = x.selected selection concrete := by
  induction selection generalizing fields with
  | nil =>
    cases ok
    rfl
  | cons field rest ih =>
    rw [included] at ok
    unfold selected
    split at ok
    · next applies =>
      cases kept : x.isIncluded field with
      | error e => simp [kept] at ok
      | ok keep =>
        rw [kept] at ok
        cases more : x.included concrete rest with
        | error e => simp [more, Except.map] at ok
        | ok others =>
          rw [more] at ok
          cases ok
          rw [ih more, List.filter_cons]
          cases keep <;> simp [applies, keeps, kept, selected]
    · next applies =>
      rw [List.filter_cons_of_neg (by simp [applies])]
      exact ih ok

/-- Selecting succeeds if the directives can be decided and the fields are not too many. -/
theorem collect_eq_ok_iff : x.collect selection concrete = .ok fields ↔
    x.included concrete selection = .ok fields ∧
      ∀ first rest, fields = first :: rest → first.guard (x.limits.checkFields fields.length) = .ok () := by
  unfold collect
  rw [except_bind_eq_ok]
  constructor
  · rintro ⟨found, all, ok⟩
    cases found with
    | nil =>
      cases ok
      refine ⟨all, ?_⟩
      intro _ _ eq
      cases eq
    | cons first rest =>
      obtain ⟨_, checked, eq⟩ := except_bind_eq_ok.1 ok
      cases eq
      refine ⟨all, ?_⟩
      intro first' rest' same
      cases same
      exact checked
  · rintro ⟨all, checked⟩
    refine ⟨fields, all, ?_⟩
    cases fields with
    | nil => rfl
    | cons first rest => exact except_bind_eq_ok.2 ⟨(), checked first rest rfl, rfl⟩

theorem collect_eq_ok (ok : x.collect selection concrete = .ok fields) : fields = x.selected selection concrete :=
  included_eq_ok (collect_eq_ok_iff.1 ok).1

theorem mem_of_collect (ok : x.collect selection concrete = .ok fields) {field : FieldPlan} (mem : field ∈ fields) :
    field ∈ selection := by
  rw [collect_eq_ok ok] at mem
  exact (List.mem_filter.1 mem).1

/-- The fields of an object have different response keys: compiling refuses fields that both apply. -/
theorem keys_nodup (ok : x.collect selection concrete = .ok fields) (distinct : firstDuplicate [] selection = none)
    (root : concrete = none → ∀ field ∈ selection, field.condition = none) :
    (fields.map (·.responseKey)).Nodup := by
  rw [collect_eq_ok ok]
  have apart := (firstDuplicate_eq_none distinct).2
  have kept : (x.selected selection concrete).Pairwise fun a b => ¬a.Clash b :=
    apart.sublist List.filter_sublist
  refine List.pairwise_map.2 (kept.imp_of_mem fun {a b} left right free same => free ⟨same, ?_⟩)
  obtain ⟨mem, keep⟩ := List.mem_filter.1 left
  obtain ⟨mem', keep'⟩ := List.mem_filter.1 right
  cases concrete with
  | none =>
    rw [root rfl a mem, root rfl b mem']
    rfl
  | some type => exact overlap_of_appliesTo (Bool.and_eq_true_iff.1 keep).1 (Bool.and_eq_true_iff.1 keep').1

end Execution

end GraphQL
