import GraphQL.Host.Type
import GraphQL.Script.Scalar
import GraphQL.Script.Template
import GraphQL.Script.TypeText

/-!
# Scripted applications

The host types of a scripted application are fixed slots, each with a label and a name in the host
application. A script gives a slot its description and says how its values are built from input and
validated; a slot that the script leaves out describes nothing.
-/

namespace GraphQL.Script

/-- A host type to be described by a script. -/
structure TypeSlot where
  label : String
  hostName : String
  /-- Whether the type keeps the default construction and validation. -/
  isPlain : Bool := false

/-- The host types that scripts describe. -/
structure Stage where
  builtinName : BuiltinType → String
  slots : List TypeSlot
  /-- The message of a panic about an unknown tag. -/
  unknownTag : String → String

namespace Stage

def labels (stage : Stage) : List String := stage.slots.map (·.label)

def type? (stage : Stage) (text : String) : Option TypeRef := TypeText.type? stage.labels text

/-- The label of a type: the scalar's name for a builtin one. -/
def label (stage : Stage) : NamedType → String
  | .builtin type => type.scalarName
  | .host id => (stage.labels[id]?).getD ""

/-- The place of a host type. -/
def host? (stage : Stage) (label : String) : Option HostId := stage.labels.idxOf? label

end Stage

namespace ItemMeta

def ofConst (c : Const) : ItemMeta := { description := c.text? "description", deprecation := c.text? "deprecated" }

end ItemMeta

/-! ## Validation rules -/

inductive RuleTest where
  | nonempty
  | notEqual (value : Const)
  | panic

structure Rule where
  test : RuleTest
  /-- The field that is tested instead of the whole value. -/
  field : Option String
  failure : HostError

namespace Rule

def ofConst (c : Const) : Option Rule := do
  let test ← match c.text? "rule" with
    | some "nonempty" => some RuleTest.nonempty
    | some "not" => some (.notEqual ((c.get? "value").getD .null))
    | some "panic" => some .panic
    | _ => none
  let extensions := ((c.get? "extensions").map (·.entries)).getD []
  return { test, field := c.text? "field", failure := { message := (c.text? "fail").getD "", extensions } }

def isTrimmed (c : Char) : Bool := c == ' ' || c == '\t' || c == '\r' || c == '\n'

/-- Null, text of nothing but white space, and the empty list are empty. -/
def isEmpty : Const → Bool
  | .null => true
  | .string s => s.toList.all isTrimmed
  | .list items => items.isEmpty
  | _ => false

/-- Tests the shown form of a value. -/
def check (rule : Rule) (shown : Const) : Except Failure Unit :=
  let tested := match rule.field with
    | some field => (shown.get? field).getD .null
    | none => shown
  match rule.test with
  | .nonempty => if isEmpty tested then .error (.error rule.failure) else .ok ()
  | .notEqual value => if tested.sameJson value then .error (.error rule.failure) else .ok ()
  | .panic => .error (.panic rule.failure.message)

end Rule

/-! ## Types -/

/-- A field that a value takes from an input object, perhaps with a value when it is not given. -/
structure TakenField where
  name : String
  type : TypeRef
  default : Option Resolved

/-- Builds a value from the fields that it takes, in order. -/
def construction (hasTypeName : Bool) (fields : Entries Resolved) : List TakenField → Construction
  | [] =>
    if hasTypeName then .typeName fun name => .done (.ok (Entries.insert "typeName" (.string name) fields))
    else .done (.ok fields)
  | taken :: rest =>
    let take : Construction :=
      .take taken.name taken.type fun value => construction hasTypeName (Entries.insert taken.name value fields) rest
    match taken.default with
    | none => take
    | some value =>
      .ifGiven taken.name fun given =>
        if given then take else construction hasTypeName (Entries.insert taken.name value fields) rest

namespace Stage

variable (stage : Stage)

/-- The items under a key of a description. -/
def itemsOf (c : Const) (key : String) : List Const := ((c.get? key).map (·.items)).getD []

def fieldDeclaration (c : Const) : Option FieldDeclaration := do
  let (type, shape) ← TypeText.parse stage.labels (← c.text? "type")
  let source := match c.text? "source" with
    | some _ => FieldSource.method
    | none => .field
  return { name := ← c.text? "name", source, type, shape, info := ItemMeta.ofConst c }

def typedItem (c : Const) : Option TypedItem := do
  return { name := ← c.text? "name", type := ← stage.type? (← c.text? "type"), info := ItemMeta.ofConst c }

def embedDeclaration (c : Const) : Option EmbedDeclaration := do
  let isPointer := ((c.get? "ptr").map (·.isTrue)).getD false
  return { target := ← stage.host? (← c.text? "type"), kind := if isPointer then .pointer else .value }

def enumValue (c : Const) : Option EnumValue := do
  let name ← c.text? "name"
  return { name, variant := (c.text? "value").getD name, info := ItemMeta.ofConst c }

/-- The scalar behavior of a menu for a host type. -/
def codec (id : HostId) (menu : ScalarMenu) : ScalarCodec := { serialize := menu.serialize, parse := menu.parse id }

/-- What a script says that a type declares. -/
def description (id : HostId) (c : Const) : TypeDescription :=
  { name := c.text? "name"
    description := c.text? "description"
    isUnion := ((c.get? "union").map (·.isTrue)).getD false
    fields := (itemsOf c "fields").filterMap stage.fieldDeclaration
    embeds := (itemsOf c "embeds").filterMap stage.embedDeclaration
    enumValues := (itemsOf c "enum").filterMap enumValue
    inputFields := (itemsOf c "input").filterMap stage.typedItem
    interfaceFields := (itemsOf c "interface").filterMap stage.typedItem
    implementors := (itemsOf c "implementors").filterMap fun label => label.string?.bind stage.host?
    scalar := (c.text? "scalar").map fun menu => codec id (ScalarMenu.named menu) }

/-- The fields of host types whose getters may return an error. -/
def mayFail (types : Const) (id : HostId) (field : String) : Bool :=
  match stage.slots[id]? with
  | none => false
  | some slot =>
    let fields := ((types.get? slot.label).map fun c => itemsOf c "fields").getD []
    fields.any fun c => c.text? "name" = some field && c.text? "source" = some "try_method"

/-- What templates refer to, apart from arguments. -/
def scope (types : Const) : TemplateScope :=
  { labels := stage.labels, mayFail := stage.mayFail types, unknownTag := stage.unknownTag }

def takenField (scope : TemplateScope) (c : Const) : Option TakenField := do
  return {
    name := ← c.text? "name"
    type := ← stage.type? (← c.text? "type")
    default := (c.get? "default").map (Template.valueOrNull scope) }

/-- The host type of a slot as the script describes it. -/
def hostType (types : Const) (id : HostId) (slot : TypeSlot) : HostType :=
  let c := (types.get? slot.label).getD .null
  let declared : HostType := { hostName := slot.hostName, description := stage.description id c }
  if slot.isPlain then declared
  else
    let taken := itemsOf c (if (c.get? "take").isSome then "take" else "input")
    let hasTypeName := ((c.get? "type_name").map (·.isTrue)).getD false
    let rules := (itemsOf c "validate").filterMap Rule.ofConst
    { declared with
      construct := construction hasTypeName [] (taken.filterMap (stage.takenField (stage.scope types)))
      validate := fun value => rules.forM fun rule => rule.check (Resolved.shownHost value) }

/-- The application that a script describes. -/
def host (types : Const) : Host :=
  { builtinName := stage.builtinName, types := stage.slots.mapIdx fun id slot => stage.hostType types id slot }

end Stage

end GraphQL.Script
