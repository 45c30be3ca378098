import GraphQL.Execution.Run
import GraphQL.Proofs.Registry.Declared
import Mathlib.Data.List.Forall2

/-!
# Host code with fewer panics

Host code is calmed where it gives null instead of a panic. `Resolved.Calmed` says it of values, some of
whose getters are calmed, and `FieldPlan.Calmed` of the arguments and resolver of a root field. A calmed
value has the same type, content and embedded values, so it is told apart by its getters alone, and is
serialized alike.
-/

namespace GraphQL

/-! ## Values -/

mutual

/-- The value with null in place of some panics of its getters. -/
inductive Resolved.Calmed : Resolved → Resolved → Prop
  | same (value : Resolved) : Resolved.Calmed value value
  | list {items items' : List Resolved} (each : List.Forall₂ Resolved.Calmed items items') :
    Resolved.Calmed (.list items) (.list items')
  | host {value value' : HostValue} (type : value'.type = value.type) (content : value'.content = value.content)
    (reads : ∀ name, Reading.Calmed (value.read name) (value'.read name))
    (embedded : List.Forall₂ Embedded.Calmed value.embedded value'.embedded) :
    Resolved.Calmed (.host value) (.host value')

/-- What host code comes to, or null if that is a panic. -/
inductive Reading.Calmed : Except Failure Resolved → Except Failure Resolved → Prop
  | same (reading : Except Failure Resolved) : Reading.Calmed reading reading
  | read {value value' : Resolved} (calmed : Resolved.Calmed value value') : Reading.Calmed (.ok value) (.ok value')
  | panicked {message : String} : Reading.Calmed (.error (.panic message)) (.ok .null)

/-- The value that is embedded, if there is one. -/
inductive Embedded.Calmed : Option HostValue → Option HostValue → Prop
  | missing : Embedded.Calmed none none
  | inner {value value' : HostValue} (calmed : Resolved.Calmed (.host value) (.host value')) :
    Embedded.Calmed (some value) (some value')

end

/-- `Resolved.Calmed` of host values. -/
structure HostValue.Calmed (value value' : HostValue) : Prop where
  type : value'.type = value.type
  content : value'.content = value.content
  reads : ∀ name, Reading.Calmed (value.read name) (value'.read name)
  embedded : List.Forall₂ Embedded.Calmed value.embedded value'.embedded

theorem Embedded.Calmed.refl (embedded : Option HostValue) : Embedded.Calmed embedded embedded := by
  cases embedded with
  | none => exact .missing
  | some value => exact .inner (.same _)

theorem HostValue.Calmed.refl (value : HostValue) : value.Calmed value :=
  ⟨rfl, rfl, fun _ => .same _, List.forall₂_same.2 fun embedded _ => .refl embedded⟩

namespace Resolved.Calmed

theorem exists_host {value : HostValue} {other : Resolved} (calmed : Resolved.Calmed (.host value) other) :
    ∃ value', other = .host value' ∧ value.Calmed value' := by
  cases calmed with
  | same => exact ⟨value, rfl, .refl value⟩
  | host type content reads embedded => exact ⟨_, rfl, type, content, reads, embedded⟩

theorem of_host {value value' : HostValue} (calmed : Resolved.Calmed (.host value) (.host value')) :
    value.Calmed value' := by
  obtain ⟨_, same, calmed⟩ := calmed.exists_host
  cases same
  exact calmed

theorem items {items items' : List Resolved} (calmed : Resolved.Calmed (.list items) (.list items')) :
    List.Forall₂ Resolved.Calmed items items' := by
  cases calmed with
  | same => exact List.forall₂_same.2 fun item _ => .same item
  | list each => exact each

theorem isNil {value value' : Resolved} (calmed : value.Calmed value') : value'.isNil = value.isNil := by
  cases calmed with
  | same => rfl
  | list each => cases each <;> rfl
  | host => rfl

end Resolved.Calmed

namespace HostValue.Calmed

variable {value value' : HostValue}

theorem host (calmed : value.Calmed value') : Resolved.Calmed (.host value) (.host value') :=
  .host calmed.type calmed.content calmed.reads calmed.embedded

theorem read (calmed : value.Calmed value') (declared : FieldDescriptor) :
    Reading.Calmed (declared.read value) (declared.read value') := by
  unfold FieldDescriptor.read
  rw [calmed.type]
  split
  · exact calmed.reads _
  · exact .same _

end HostValue.Calmed

/-! ## Scalars

What a scalar makes of a value is left to its serializer, which might call getters. Those that do not are
by content. -/

/-- The serializer looks at nothing of a value but its type and content. -/
def IsByContent (serialize : HostValue → Const) : Prop :=
  ∀ value value' : HostValue, value'.type = value.type → value'.content = value.content →
    serialize value' = serialize value

def ScalarKind.ByContent : ScalarKind → Prop
  | .builtin _ => True
  | .host codec => IsByContent codec.serialize
  | .custom scalar => IsByContent scalar.serialize

def TypeDescriptor.ByContent (d : TypeDescriptor) : Prop := ∀ kind, d.kind = .scalar kind → kind.ByContent

/-- The scalars that were described or registered so far are by content. -/
structure Registry.ByContent (r : Registry) : Prop where
  described : ∀ entry ∈ r.descriptors, entry.2.ByContent
  registered : ∀ entry ∈ r.scalars, IsByContent entry.2.serialize

/-- The scalars of the application are by content. -/
def Host.ByContent (host : Host) : Prop :=
  ∀ type ∈ host.types, ∀ codec, type.description.scalar = some codec → IsByContent codec.serialize

theorem Registry.ByContent.empty : Registry.ByContent {} :=
  ⟨fun _ mem => absurd mem List.not_mem_nil, fun _ mem => absurd mem List.not_mem_nil⟩

namespace Host

variable {host : Host} {r r' : Registry} {d : TypeDescriptor}

/-- The codec of a scalar of the application is the one that its type declares. -/
theorem build_byContent {id : HostId} {type : HostType}
    (byContent : ∀ codec, type.description.scalar = some codec → IsByContent codec.serialize)
    (built : outcome (build lookUp id type) r = (.ok d, r')) : d.ByContent := by
  intro kind eq
  have declares := (builds_of_build built).declares
  rw [eq] at declares
  cases declares with
  | scalar declared => exact byContent _ declared

theorem Later.byContent (later : host.Later r r') (plain : host.ByContent) (all : r.ByContent) : r'.ByContent := by
  induction later with
  | refl => exact all
  | tail _ step ih =>
    obtain ⟨d, made, -, -, rfl⟩ := step
    refine ⟨fun entry mem => ?_, fun entry mem => ih.registered entry (Registry.scalars_put _ d ▸ mem)⟩
    rw [Registry.descriptors_put] at mem
    rcases Entries.mem_insert mem with rfl | mem
    · cases made with
      | scalar registered =>
        intro kind eq
        cases eq
        exact ih.registered _ (Entries.mem_of_find? registered)
      | builtin _ =>
        intro kind eq
        cases eq
        trivial
      | host _ known built _ => exact build_byContent (plain _ (List.getElem_mem known)) built
    · exact ih.described entry mem

end Host

/-! ## Resolvers -/

/-- The work comes to a calmed value, or to null where it panics, by the same steps. -/
inductive Work.Calmed : Work Resolved → Work Resolved → Prop
  | done {result result' : Except Failure Resolved} (calmed : Reading.Calmed result result') :
    Work.Calmed (.done result) (.done result')
  | pause {next next' : Work Resolved} (later : Work.Calmed next next') : Work.Calmed (.pause next) (.pause next')
  | record {entry : JournalEntry} {next next' : Work Resolved} (later : Work.Calmed next next') :
    Work.Calmed (.record entry next) (.record entry next')
  | cancel {next next' : Work Resolved} (later : Work.Calmed next next') : Work.Calmed (.cancel next) (.cancel next')
  | awaitCancel {next next' : Work Resolved} (later : Work.Calmed next next') :
    Work.Calmed (.awaitCancel next) (.awaitCancel next')
  | askCancelled {next next' : Bool → Work Resolved} (later : ∀ cancelled, Work.Calmed (next cancelled) (next' cancelled)) :
    Work.Calmed (.askCancelled next) (.askCancelled next')

/-- What calling a resolver comes to. -/
inductive Called.Calmed : Except String (Work Resolved) → Except String (Work Resolved) → Prop
  | works {work work' : Work Resolved} (calmed : work.Calmed work') : Called.Calmed (.ok work) (.ok work')
  | failed {message : String} : Called.Calmed (.error message) (.error message)
  | panicked {message : String} : Called.Calmed (.error message) (.ok (.done (.ok .null)))

/-- What reading the arguments of two resolvers comes to. Where those of the first panic, the second gets
arguments for which it is null. -/
inductive Bound.Calmed (resolver resolver' : Resolver Resolved) :
    Except Failure (List Resolved) × Registry → Except Failure (List Resolved) × Registry → Prop
  | called {arguments arguments' : List Resolved} {r : Registry}
    (calls : Called.Calmed (resolver arguments) (resolver' arguments')) :
    Bound.Calmed resolver resolver' (.ok arguments, r) (.ok arguments', r)
  | failed {failure : Failure} {r : Registry} : Bound.Calmed resolver resolver' (.error failure, r) (.error failure, r)
  | panicked {message : String} {arguments : List Resolved} {r : Registry}
    (null : resolver' arguments = .ok (.done (.ok .null))) :
    Bound.Calmed resolver resolver' (.error (.panic message), r) (.ok arguments, r)

/-- What a root field reads with some arguments, and with others. -/
inductive FieldTarget.Calmed (context : InputContext) (arguments arguments' : List (String × Value)) :
    FieldTarget → FieldTarget → Prop
  | same {target : FieldTarget}
    (uncalled : ∀ operation resolver, target = .operation operation → operation.resolver ≠ .field resolver) :
    FieldTarget.Calmed context arguments arguments' target target
  | calls {operation operation' : OperationDescriptor} {resolver resolver' : Resolver Resolved}
    (calls : operation.resolver = .field resolver) (calls' : operation'.resolver = .field resolver')
    (each : ∀ r, Bound.Calmed resolver resolver' (outcome (operation.parseArguments context arguments) r)
      (outcome (operation'.parseArguments context arguments') r)) :
    FieldTarget.Calmed context arguments arguments' (.operation operation) (.operation operation')

/-- The root field with other host code, which gives null where that of the field panics. -/
structure FieldPlan.Calmed (context : InputContext) (field field' : FieldPlan) : Prop where
  rest : field' = { field with target := field'.target, arguments := field'.arguments }
  target : FieldTarget.Calmed context field.arguments field'.arguments field.target field'.target

/-- The plan with null in place of some panics of the host code of its root fields. -/
structure Plan.Calmed (context : InputContext) (plan plan' : Plan) : Prop where
  kind : plan'.kind = plan.kind
  fields : List.Forall₂ (FieldPlan.Calmed context) plan.selection plan'.selection

end GraphQL
