import GraphQL.Proofs.Execution.Completing
import GraphQL.Proofs.Registry.Enumerations

/-!
# Types that are written and read

Strings, Booleans, integers, IDs and enumerations, and nullable, shared and lists of them, are types of output and of
input. `WireType` has their values and what these resolve to; `serialize_constant` and `complete_constant` say what
constant they are written as.
-/

namespace GraphQL

namespace TypeRef

/-- The reference with null as a further value. -/
def orNull : TypeRef → TypeRef
  | named type _ => named type true
  | list item _ => list item true
  | map value _ => map value true

end TypeRef

/-! ## Types and their values -/

/-- A type whose values can be written and read. -/
inductive WireType where
  | string
  | boolean
  | int32
  | int64
  | uint32
  | id
  | enum (type : HostId)
  | nullable (inner : WireType)
  | list (item : WireType)
  /-- A pointer to a value that others may hold as well. -/
  | shared (inner : WireType)

namespace WireType

/-- The reference to the type in operations; that values are shared does not show. -/
def typeRef : WireType → TypeRef
  | string => .named (.builtin .string) false
  | boolean => .named (.builtin .boolean) false
  | int32 => .named (.builtin .int32) false
  | int64 => .named (.builtin .int64) false
  | uint32 => .named (.builtin .uint32) false
  | id => .named (.builtin .id) false
  | enum type => .named (.host type) false
  | nullable inner => inner.typeRef.orNull
  | list item => .list item.typeRef false
  | shared inner => inner.typeRef

/-- The integers of a builtin type. -/
abbrev Within (type : BuiltinType) := { n : Int // type.range.1 ≤ n ∧ n ≤ type.range.2 }

/-- The values of the type. Those of an enumeration are its variants, of which the declared ones count. -/
@[reducible] def Value : WireType → Type
  | string | id => String
  | boolean => Bool
  | int32 => Within .int32
  | int64 => Within .int64
  | uint32 => Within .uint32
  | enum _ => String
  | nullable inner => Option inner.Value
  | list item => List item.Value
  | shared inner => inner.Value

/-- The value as resolvers return it and as arguments are passed. -/
def resolve : (t : WireType) → t.Value → Resolved
  | string, s => .string s
  | id, s => .string s
  | boolean, b => .boolean b
  | int32, n => .int n.1
  | int64, n => .int n.1
  | uint32, n => .int n.1
  | enum type, variant => .host (.mk type (.variant variant) [] [])
  | nullable _, none => .null
  | nullable inner, some v => inner.resolve v
  | list item, vs => .list (vs.map item.resolve)
  | shared inner, v => inner.resolve v

/-- All values of enumerations in it are declared, and the type finds them valid. -/
def Declares (host : Host) : (t : WireType) → t.Value → Prop
  | enum type, variant => (∃ e ∈ host.enumValues type, e.variant = variant) ∧
    host.validate type (.mk type (.variant variant) [] []) = .ok ()
  | nullable inner, v => ∀ w ∈ v, inner.Declares host w
  | list item, vs => ∀ v ∈ vs, item.Declares host v
  | shared inner, v => inner.Declares host v
  | _, _ => True

/-- Nothing that may be null already is made nullable, shared or not. -/
def Plain : WireType → Prop
  | nullable inner => inner.typeRef.nullable = false ∧ inner.Plain
  | list item => item.Plain
  | shared inner => inner.Plain
  | _ => True

/-- The constant that the value is written as. Of several names for one variant it is the first. -/
def constant (host : Host) : (t : WireType) → t.Value → Const
  | string, s => .string s
  | id, s => .string s
  | boolean, b => .boolean b
  | int32, n => .int n.1
  | int64, n => .int n.1
  | uint32, n => .int n.1
  | enum type, variant => .enum (((host.enumValues type).find? (·.variant = variant)).map (·.name) |>.getD "")
  | nullable _, none => .null
  | nullable inner, some v => inner.constant host v
  | list item, vs => .list (vs.map (item.constant host))
  | shared inner, v => inner.constant host v

variable {host : Host}

end WireType

/-! ## Writing -/

namespace Execution

variable {x : Execution} {r : Registry}

theorem outcome_serializeSingle {type : NamedType} {value : Resolved} {d : TypeDescriptor} {r' : Registry}
    (described : outcome (x.host.describe type) r = (.ok d, r')) :
    outcome (x.serializeSingle type value) r = (x.serializeNamed r' d value, r') := by
  unfold serializeSingle
  rw [outcome_bind, outcome_adapt, described]
  rfl

theorem serialize_single {value : Resolved} (single : (∃ c, value = .const c) ∨ ∃ v, value = .host v) (type : NamedType)
    (nullable : Bool) : x.serialize (.named type nullable) value = x.serializeSingle type value := by
  obtain ⟨c, rfl⟩ | ⟨v, rfl⟩ := single <;> simp only [serialize]

theorem isEnumValue_variant (type : HostId) (variant : String) (candidate : EnumValue) :
    isEnumValue (.host type) (.mk type (.variant variant) [] []) candidate = decide (candidate.variant = variant) := by
  rw [isEnumValue, HostValue.type, decide_eq_true rfl, Bool.true_and]
  change (variant == candidate.variant) = _
  rw [beq_eq_decide]
  exact decide_eq_decide.2 eq_comm

/-- A variant that is declared is written as the first of its names. -/
theorem serializeNamed_enum {type : HostId} {d : TypeDescriptor} (plain : r.scalar? (.host type) = none)
    (of : d.type = .host type) (kind : d.kind = .enum (x.host.enumValues type)) {variant : String}
    (declared : ∃ e ∈ x.host.enumValues type, e.variant = variant) :
    x.serializeNamed r d ((WireType.enum type).resolve variant) =
      .ok ((WireType.enum type).constant x.host variant) := by
  have same : isEnumValue d.type (.mk type (.variant variant) [] []) = fun candidate => decide (candidate.variant = variant) := by
    rw [of]
    exact funext (isEnumValue_variant type variant)
  obtain ⟨found, is⟩ : ∃ found, (x.host.enumValues type).find? (·.variant = variant) = some found := by
    obtain ⟨e, mem, is⟩ := declared
    exact Option.isSome_iff_exists.1 (List.find?_isSome.2 ⟨e, mem, decide_eq_true is⟩)
  rw [WireType.resolve, serializeNamed]
  simp only [HostValue.type, plain]
  rw [serializeHost, kind]
  simp only [same, is]
  rw [WireType.constant, is]
  rfl

section

variable {s : ExecutionState} {field : FieldPlan} {path : ErrorPath} {depth : Nat}

end

end Execution

end GraphQL
