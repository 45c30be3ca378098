import GraphQL.Proofs.Execution.Answers
import Mathlib.Data.List.Nodup

/-!
# Where errors are

Every error of a response that is no abort has a path, the path leads to a null in the data, and no two
errors share one. Each place that collects an error leaves a null there, and what is nested below has
paths of its own because the keys of an object differ.
-/

namespace GraphQL

/-- Every error has a path, at which the data are null, and no two errors have the same path. -/
structure Response.ErrorsAtNulls (response : Response) : Prop where
  placed : ∀ e ∈ response.errors, ∃ path, e.path = some path ∧ response.data.follow path = some .null
  apart : (response.errors.map (·.path)).Nodup

/-- The errors of a value at a path are at nulls at or below it, each at one of its own. -/
structure NullsBelow (path : ErrorPath) (v : ResponseValue) (es : List ResponseError) : Prop where
  placed : ∀ e ∈ es, ∃ rest, e.path = some (path ++ rest) ∧ v.follow rest = some .null
  apart : (es.map (·.path)).Nodup

namespace NullsBelow

variable {path : ErrorPath} {v : ResponseValue}

theorem none (path : ErrorPath) (v : ResponseValue) : NullsBelow path v [] :=
  ⟨fun _ mem => absurd mem List.not_mem_nil, List.nodup_nil⟩

theorem single {e : ResponseError} (placed : e.path = some path) : NullsBelow path .null [e] where
  placed e' mem := by
    rw [List.mem_singleton.1 mem, placed]
    exact ⟨[], by rw [List.append_nil], rfl⟩
  apart := List.nodup_singleton _

theorem perm {es es' : List ResponseError} (below : NullsBelow path v es) (same : es'.Perm es) :
    NullsBelow path v es' :=
  ⟨fun e mem => below.placed e (same.mem_iff.1 mem), (same.map _).nodup_iff.2 below.apart⟩

/-- The parts of a value keep their errors apart if they are reached by different segments. -/
theorem gather {whole : ResponseValue} {segments : List PathSegment} {values : List ResponseValue}
    {errors : List (List ResponseError)} (different : segments.Nodup) (results : values.length = segments.length)
    (counts : errors.length = segments.length)
    (within : ∀ (i : Nat) segment v rest, segments[i]? = some segment → values[i]? = some v →
      whole.follow (segment :: rest) = v.follow rest)
    (each : ∀ (i : Nat) segment v es, segments[i]? = some segment → values[i]? = some v → errors[i]? = some es →
      NullsBelow (path ++ [segment]) v es) :
    NullsBelow path whole errors.flatten := by
  have parts (i : Nat) (bound : i < errors.length) : ∃ segment v, segments[i]? = some segment ∧
      values[i]? = some v ∧ NullsBelow (path ++ [segment]) v errors[i] := by
    have bound' : i < segments.length := counts ▸ bound
    have bound'' : i < values.length := results ▸ bound'
    exact ⟨_, _, List.getElem?_eq_getElem bound', List.getElem?_eq_getElem bound'',
      each i _ _ _ (List.getElem?_eq_getElem bound') (List.getElem?_eq_getElem bound'') (List.getElem?_eq_getElem bound)⟩
  constructor
  · intro e mem
    obtain ⟨es, mem', mem⟩ := List.mem_flatten.1 mem
    obtain ⟨i, bound, rfl⟩ := List.getElem_of_mem mem'
    obtain ⟨segment, v, hs, hv, below⟩ := parts i bound
    obtain ⟨rest, placed, null⟩ := below.placed e mem
    refine ⟨segment :: rest, ?_, (within i segment v rest hs hv).trans null⟩
    rw [placed, List.append_assoc]
    rfl
  · rw [List.map_flatten, List.nodup_flatten]
    constructor
    · intro paths mem
      obtain ⟨es, mem', rfl⟩ := List.mem_map.1 mem
      obtain ⟨i, bound, rfl⟩ := List.getElem_of_mem mem'
      obtain ⟨_, _, _, _, below⟩ := parts i bound
      exact below.apart
    · rw [List.pairwise_map, List.pairwise_iff_getElem]
      intro i j boundi boundj less a left right
      obtain ⟨s, v, hs, _, belowi⟩ := parts i boundi
      obtain ⟨t, w, ht, _, belowj⟩ := parts j boundj
      obtain ⟨e, mem, rfl⟩ := List.mem_map.1 left
      obtain ⟨e', mem', eq⟩ := List.mem_map.1 right
      obtain ⟨rest, placed, _⟩ := belowi.placed e mem
      obtain ⟨rest', placed', _⟩ := belowj.placed e' mem'
      rw [placed, placed', Option.some.injEq, List.append_assoc, List.append_assoc, List.append_cancel_left_eq] at eq
      have same : t = s := (List.cons.inj eq).1
      subst same
      have := (List.getElem?_inj (counts ▸ boundi) different).1 (hs.trans ht.symm)
      omega

theorem items {values : List ResponseValue} {errors : List (List ResponseError)}
    (counts : errors.length = values.length)
    (each : ∀ (i : Nat) v es, values[i]? = some v → errors[i]? = some es → NullsBelow (path.index i) v es) :
    NullsBelow path (.list values) errors.flatten := by
  have at' {i : Nat} {segment : PathSegment}
      (h : ((List.range values.length).map PathSegment.index)[i]? = some segment) : segment = .index i := by
    rw [List.getElem?_map, Option.map_eq_some_iff] at h
    obtain ⟨j, h, rfl⟩ := h
    obtain ⟨_, rfl⟩ := List.getElem?_eq_some_iff.1 h
    rw [List.getElem_range]
  have different : ((List.range values.length).map PathSegment.index).Nodup :=
    List.nodup_range.map fun _ _ same => by
      cases same
      rfl
  have results : values.length = ((List.range values.length).map PathSegment.index).length := by
    rw [List.length_map, List.length_range]
  refine gather different results ?_ ?_ ?_
  · rw [List.length_map, List.length_range, counts]
  · intro i segment v rest hs hv
    rw [at' hs, ResponseValue.follow, hv]
    rfl
  · intro i segment v es hs hv he
    rw [at' hs]
    exact each i v es hv he

theorem object {fields : List FieldPlan} {values : List ResponseValue} {errors : List (List ResponseError)}
    (different : (fields.map (·.responseKey)).Nodup) (results : values.length = fields.length)
    (counts : errors.length = fields.length)
    (each : ∀ (i : Nat) f v es, fields[i]? = some f → values[i]? = some v → errors[i]? = some es →
      NullsBelow (path.field f.responseKey) v es) :
    NullsBelow path (.object (keyed fields values)) errors.flatten := by
  have at' {i : Nat} {segment : PathSegment}
      (h : (fields.map fun f => PathSegment.key f.responseKey)[i]? = some segment) :
      ∃ f, fields[i]? = some f ∧ segment = .key f.responseKey := by
    rw [List.getElem?_map, Option.map_eq_some_iff] at h
    obtain ⟨f, h, rfl⟩ := h
    exact ⟨f, h, rfl⟩
  have different' : (fields.map fun f => PathSegment.key f.responseKey).Nodup := by
    have keys := different.map (f := PathSegment.key) fun _ _ same => by
      cases same
      rfl
    rw [List.map_map] at keys
    exact keys
  have results' : values.length = (fields.map fun f => PathSegment.key f.responseKey).length := by
    rw [List.length_map, results]
  refine gather different' results' ?_ ?_ ?_
  · rw [List.length_map, counts]
  · intro i segment v rest hs hv
    obtain ⟨f, hf, rfl⟩ := at' hs
    rw [ResponseValue.follow, find?_keyed different hf hv]
    rfl
  · intro i segment v es hs hv he
    obtain ⟨f, hf, rfl⟩ := at' hs
    exact each i f v es hf hv he

end NullsBelow

variable {x : Execution} {r : Registry}

/-- The errors of all that is shown are at nulls. -/
theorem Renders.nullsBelow {subject : Subject} {path : ErrorPath} {v : ResponseValue} {es : List ResponseError}
    (shown : Renders x r subject path v es) (sound : subject.Sound x) : NullsBelow path v es := by
  induction shown with
  | failed _ placed => exact .single placed
  | null | leaf | typename | rootTypename => exact .none _ _
  | list results counts each ih =>
    refine .items (counts.trans results.symm) ?_
    intro i v es hv he
    have bound := (List.getElem?_eq_some_iff.1 hv).1
    rw [results] at bound
    exact ih i _ v es (List.getElem?_eq_getElem bound) hv he sound
  | member _ _ _ ih => exact ih sound
  | read _ _ _ _ ih => exact ih sound
  | resolved _ ih => exact ih sound
  | object is selected results counts each ih =>
    have different := Execution.keys_nodup selected (FieldPlan.Sound.distinct sound) (by simp)
    refine .object different results counts fun i f v es hf hv he => ih i f v es hf hv he ?_
    exact FieldPlan.Sound.within sound f (Execution.mem_of_collect selected (List.mem_of_getElem? hf))
  | response selected results counts each any ih =>
    have different := Execution.keys_nodup selected (Plan.Sound.distinct sound) fun _ => Plan.Sound.unconditional sound
    refine NullsBelow.perm (.object different results counts fun i f v es hf hv he => ?_) any
    exact ih i f v es hf hv he
      (Plan.Sound.fields sound f (Execution.mem_of_collect selected (List.mem_of_getElem? hf)))

/-- Every error of a response that is no abort has a path of its own, which leads to a null. -/
theorem Execution.errors_at_nulls {state : ExecutionState} (compiled : x.plan.Compiled) (fresh : state.errors = []) :
    x.Ensures state fun response _ => response.ErrorsAtNulls := by
  apply ensures compiled fresh
  intro response final _ _ shown
  have below := shown.nullsBelow compiled.sound
  exact ⟨below.placed, below.apart⟩

theorem NodeQuery.node_errors_at_nulls : plan.Compiled ∧ state.errors = [] ∧
    execution.Ensures state fun response _ => response.ErrorsAtNulls :=
  ⟨plan_compiled, rfl, Execution.errors_at_nulls (x := execution) plan_compiled rfl⟩

end GraphQL
