import GraphQL.Proofs.Registry.Traces
import GraphQL.Proofs.Schema.Invariants

/-!
# Registrations that fail

A custom scalar that is refused leaves the schema as it was. An operation that is refused leaves the types that were
described on the way, and nothing else. Later calls answer as if it had never been made, unless these types show:
because one name has gone to different types with and without it, or because a custom scalar takes over one of these
types, or one that they build on.
-/

namespace GraphQL

open HoldsRegistry Registry

/-- What a call needs on two schemas so that types described in one of them only do not show. -/
def SchemaCall.Overlooks (s s' : Schema) : SchemaCall → Prop
  | registerScalar scalar => Unconcerned s.host s.registry s'.registry scalar
  | call => (s.after call).registry.Agree (s'.after call).registry

namespace Schema

/-- What calls need, one after the other. -/
def Overlook : List SchemaCall → Schema → Schema → Prop
  | [], _, _ => True
  | call :: rest, s, s' => call.Overlooks s s' ∧ Overlook rest (s.after call) (s'.after call)

/-- Two schemas differ only in types that one of them has described. -/
structure Traced (s s' : Schema) : Prop where
  same : s' = on s s'.registry
  joined : ∃ R, Joined s.host s.registry s'.registry R
  left : s.host.Reachable s.registry
  right : s.host.Reachable s'.registry

variable {s s' : Schema} {call : SchemaCall}

theorem Traced.host (traced : Traced s s') : s'.host = s.host := by
  rw [traced.same]
  rfl

/-- A call leaves two schemas that differ only in described types, if one registry goes on from both of theirs. -/
theorem Traced.after (traced : Traced s s') {R : Registry}
    (same : s'.after call = on (s.after call) (s'.after call).registry)
    (both : Joined s.host (s.after call).registry (s'.after call).registry R) : Traced (s.after call) (s'.after call) := by
  have left := reachable_after traced.left call
  have reachable : s'.host.Reachable s'.registry := traced.host.symm ▸ traced.right
  have right := reachable_after reachable call
  rw [traced.host] at right
  rw [← host_after s call] at both left right
  exact ⟨same, ⟨R, both⟩, left, right⟩

/-- Types that a call describes on both sides make no difference if no name goes to different types. -/
theorem Traced.describes (traced : Traced s s') (describes : call.Describes)
    (agree : (s.after call).registry.Agree (s'.after call).registry) :
    s'.answer call = s.answer call ∧ Traced (s.after call) (s'.after call) := by
  obtain ⟨R, both⟩ := traced.joined
  obtain ⟨later, again⟩ := after_later (s := s) describes
  obtain ⟨later', again'⟩ := after_later (s := s') describes
  rw [traced.host] at later' again'
  have left : s.host.Reachable (s.after call).registry := .described traced.left later
  have right : s.host.Reachable (s'.after call).registry := .described traced.right later'
  obtain ⟨R', both'⟩ := Host.joined_later both later later' agree left right
  have same : (on s R' : Schema) = on s' R' := by
    rw [traced.same]
    rfl
  have ran := again R' both'.left
  have ran' := again' R' both'.right
  rw [← same, ran] at ran'
  obtain ⟨answers, ends⟩ := Prod.mk.inj ran'
  refine ⟨answers.symm, traced.after ?_ both'⟩
  exact (congrArg (fun t : Schema => (on t (s'.after call).registry : Schema)) ends).symm

/-- Nor does a custom scalar that is no concern of them. -/
theorem Traced.registers (traced : Traced s s') {scalar : ScalarDescriptor}
    (unconcerned : Unconcerned s.host s.registry s'.registry scalar) :
    s'.answer (.registerScalar scalar) = s.answer (.registerScalar scalar) ∧
      Traced (s.after (.registerScalar scalar)) (s'.after (.registerScalar scalar)) := by
  obtain ⟨R, both⟩ := traced.joined
  obtain ⟨same, R', both'⟩ := both.registerScalar unconcerned traced.left traced.right
  have ran := perform_registerScalar s scalar
  have ran' : (SchemaCall.registerScalar scalar).perform.run s' = _ := perform_registerScalar s' scalar
  rw [traced.host, same] at ran'
  have registry' := registry_registerScalar s' scalar
  rw [traced.host] at registry'
  rw [← registry_registerScalar, ← registry'] at both'
  refine ⟨(congrArg Prod.fst ran').trans (congrArg Prod.fst ran).symm, traced.after ?_ both'⟩
  rw [registry']
  refine (congrArg Prod.snd ran').trans ?_
  rw [show s.after (.registerScalar scalar) = _ from congrArg Prod.snd ran, traced.same]
  rfl

/-- What one call does not show. -/
theorem Traced.step (traced : Traced s s') (overlooks : call.Overlooks s s') :
    s'.answer call = s.answer call ∧ Traced (s.after call) (s'.after call) := by
  rcases call.registers_or_describes with ⟨scalar, rfl⟩ | describes
  · exact traced.registers overlooks
  · refine traced.describes describes ?_
    cases call with
    | registerScalar scalar => exact absurd rfl (describes scalar)
    | describe _ => exact overlooks
    | register _ => exact overlooks
    | prepare _ _ => exact overlooks
    | execute _ _ => exact overlooks
    | executeText _ _ _ => exact overlooks
    | subscribe _ _ => exact overlooks
    | event _ _ _ _ => exact overlooks

/-- Calls that show nothing of what was described on one side only are answered alike. -/
theorem Traced.answers (traced : Traced s s') {calls : List SchemaCall} (overlook : Overlook calls s s') :
    ((replay calls).run s').1 = ((replay calls).run s).1 := by
  induction calls generalizing s s' with
  | nil => rfl
  | cons call rest ih =>
    obtain ⟨here, others⟩ := overlook
    obtain ⟨same, traced⟩ := traced.step here
    rw [replay_cons, replay_cons, same, ih traced others]

/-! ## Failures -/

/-- What a registration leaves when it fails. -/
structure FailsQuietly (s : Schema) : Prop where
  /-- A custom scalar that is refused leaves the schema as it was. -/
  scalar {scalar : ScalarDescriptor} {e : RegistrationError}
    (failed : s.answer (.registerScalar scalar) = .scalarRegistered (.error e)) : s.after (.registerScalar scalar) = s
  /-- An operation that is refused leaves types that were described, and nothing else. -/
  operation {operation : OperationDeclaration} {e : RegistrationError}
    (failed : s.answer (.register operation) = .registered (.error e)) :
    ∃ r, s.host.Later s.registry r ∧ s.after (.register operation) = { s with registry := r }
  /-- Later calls that show nothing of these types are answered as if the operation had not been refused. -/
  unnoticed {operation : OperationDeclaration} {e : RegistrationError}
    (failed : s.answer (.register operation) = .registered (.error e)) (calls : List SchemaCall)
    (overlook : Overlook calls s (s.after (.register operation))) :
    ((replay calls).run (s.after (.register operation))).1 = ((replay calls).run s).1

theorem after_register_of_error {operation : OperationDeclaration} {e : RegistrationError}
    (failed : s.answer (.register operation) = .registered (.error e)) :
    s.after (.register operation) = on s (s.after (.register operation)).registry := by
  change SchemaAnswer.registered ((register operation).run s).1 = .registered (.error e) at failed
  change ((register operation).run s).2 = on s ((register operation).run s).2.registry
  rcases s.register_cases operation with ⟨_, r, -, refused⟩ | ⟨d, r, -, added⟩
  · rw [refused]
    rfl
  · rw [added] at failed
    cases failed

theorem failsQuietly_of_reachable (reachable : s.host.Reachable s.registry) : s.FailsQuietly := by
  constructor
  · intro scalar e failed
    change SchemaAnswer.scalarRegistered ((registerScalar scalar).run s).1 = _ at failed
    change ((registerScalar scalar).run s).2 = s
    rcases s.registerScalar_cases scalar with ⟨e', refused⟩ | ⟨-, registered⟩
    · rw [refused]
    · rw [registered] at failed
      cases failed
  · intro operation e failed
    have describes : (SchemaCall.register operation).Describes := fun scalar same => by cases same
    exact ⟨_, (after_later describes).1, after_register_of_error failed⟩
  · intro operation e failed calls overlook
    have describes : (SchemaCall.register operation).Describes := fun scalar same => by cases same
    have later := (after_later (s := s) describes).1
    have right : s.host.Reachable (s.after (.register operation)).registry := .described reachable later
    refine Traced.answers ⟨after_register_of_error failed, ⟨(s.after (.register operation)).registry, ?_⟩, reachable, right⟩
      overlook
    exact Joined.of_later later right.distinct right.coherent

/-- In every schema that calls on a new one lead to, failed registrations show only by the types they described. -/
theorem afterAll_failsQuietly (host : Host) (config : Config) (scorer : Scorer) (cache : Option PlanCache)
    (calls : List SchemaCall) : ((create host config scorer cache).afterAll calls).FailsQuietly := by
  have reachable := reachable_afterAll (s := create host config scorer cache) .empty calls
  rw [← host_afterAll] at reachable
  exact failsQuietly_of_reachable reachable

end Schema

/-! ## A failure that shows

Registering an operation describes nodes, and accounts with them, before it is refused. Then another type cannot have
the name of nodes, and nodes stay described when a custom scalar takes over accounts. -/

namespace RefusedQuery

def leaf : HostType :=
  { hostName := "Leaf"
    description := { name := some "Node", fields := [⟨"id", .field, .named (.builtin .string) true, .pointer, {}⟩] } }

def schema : Schema :=
  .create { builtinName := BuiltinType.scalarName, types := [NodeQuery.node, NodeQuery.account, leaf] } {} .default none

/-- An operation that binds the fields of its parameter, which is not an input object. -/
def operation : OperationDeclaration :=
  { kind := .query, name := "node", mode := .struct, params := [.named (.host 0) true]
    output := .named (.builtin .string) true, resolver := .field fun _ => .ok (.done (.ok .null)) }

/-- Scalars for accounts, and the description of nodes after that. -/
def calls : List SchemaCall := [.registerScalar NodeQuery.token, .describe (.host 0)]

theorem failure_shows :
    (∃ e, schema.answer (.register operation) = .registered (.error e)) ∧
      (schema.after (.register operation)).answer (.describe (.host 2)) ≠ schema.answer (.describe (.host 2)) ∧
      ((Schema.replay calls).run (schema.after (.register operation))).1 ≠ ((Schema.replay calls).run schema).1 := by
  refine ⟨⟨_, by with_unfolding_all rfl⟩, fun same => ?_, fun same => ?_⟩
  · have taken : (schema.after (.register operation)).answer (.describe (.host 2)) =
        .described (.error (.duplicateTypeName "Node" "Node" "Leaf")) := by with_unfolding_all rfl
    have free : schema.answer (.describe (.host 2)) =
        .described (.ok ⟨.host 2, "Node", none,
          .object ⟨[], [⟨"id", .field, .named (.builtin .string) true, .pointer, {}, 2, "Leaf", []⟩]⟩⟩) := by
      with_unfolding_all rfl
    rw [taken, free] at same
    cases same
  · have kept : ((Schema.replay calls).run (schema.after (.register operation))).1 =
        [.scalarRegistered (.ok ()),
          .described (.ok ⟨.host 0, "Node", none, .interface ⟨[⟨"id", .named (.builtin .string) true, {}⟩], [1]⟩⟩)] := by
      with_unfolding_all rfl
    have refused : ((Schema.replay calls).run schema).1 =
        [.scalarRegistered (.ok ()), .described (.error (.invalidImplementor "Node" "Token"))] := by
      with_unfolding_all rfl
    rw [kept, refused] at same
    cases same

/-- Describing accounts shows nothing of the failure. -/
theorem account_unnoticed :
    ((Schema.replay [.describe (.host 1)]).run (schema.after (.register operation))).1 =
      ((Schema.replay [.describe (.host 1)]).run schema).1 := by
  have failed : ∃ e, schema.answer (.register operation) = .registered (.error e) := ⟨_, by with_unfolding_all rfl⟩
  obtain ⟨e, failed⟩ := failed
  have names : (schema.after (.describe (.host 1))).registry.names = [("Account", .host 1)] := by with_unfolding_all rfl
  have names' : ((schema.after (.register operation)).after (.describe (.host 1))).registry.names =
      [("Account", .host 1), ("Node", .host 0)] := by with_unfolding_all rfl
  have agree : (schema.after (.describe (.host 1))).registry.Agree
      ((schema.after (.register operation)).after (.describe (.host 1))).registry := by
    intro name type type' taken taken'
    rw [names, Entries.find?] at taken
    rw [names', Entries.find?] at taken'
    split at taken
    · next account =>
      rw [if_pos account] at taken'
      exact Option.some.inj (taken.symm.trans taken')
    · cases taken
  exact (Schema.afterAll_failsQuietly _ {} .default none []).unnoticed failed [.describe (.host 1)] ⟨agree, trivial⟩

end RefusedQuery

end GraphQL
