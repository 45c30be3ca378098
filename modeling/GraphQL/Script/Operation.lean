import GraphQL.Limits
import GraphQL.Operation
import GraphQL.Script.Application

/-!
# Scripted operations

A scripted operation declares a signature and a behavior: its resolver may panic when it is called,
give way a number of times, leave an entry in the journal, cancel the request and wait for that, and
then end as its result template says. A subscription then has its events, read from a list of
templates or out of a template that resolves to a list.
-/

namespace GraphQL.Script

/-- Gives way a number of times. -/
def pauses {α : Type} (work : Work α) : Nat → Work α
  | 0 => work
  | n + 1 => .pause (pauses work n)

/-- The work of an operation before its result, which may depend on whether the request is cancelled. -/
def work {α : Type} (c : Const) (arguments : List Resolved) (result : Bool → Except Failure α) : Work α :=
  let ending : Work α := .askCancelled fun cancelled => .done (result cancelled)
  let cancelling := if ((c.get? "cancel").map (·.isTrue)).getD false then .cancel (.awaitCancel ending) else ending
  let noting := match c.text? "journal" with
    | some label => .record { label, arguments := arguments.map Resolved.shown } cancelling
    | none => cancelling
  pauses noting (((c.get? "yields").bind (·.integer?)).getD 0).toNat

/-- The events before the first that cannot be resolved, and whether that is all of them. -/
def eventsOf (scope : TemplateScope) : List Const → List Resolved × Bool
  | [] => ([], true)
  | template :: rest =>
    match Template.value scope template with
    | .ok event =>
      let (events, all) := eventsOf scope rest
      (event :: events, all)
    | .error _ => ([], false)

/-- The source of events of a subscription. -/
def eventSource (scope : TemplateScope) (c : Const) : EventSource :=
  let (events, all) := match c.get? "events" with
    | some (.list templates) => eventsOf scope templates
    | some template =>
      match Template.value scope template with
      | .ok (.list events) => (events, true)
      | _ => ([], true)
    | none => ([], true)
  { events, staysOpen := all && c.text? "then" = some "pending" }

/-- Panics instead of starting work if the script says so. -/
def calling {α : Type} (c : Const) (start : List Resolved → Work α) : Resolver α := fun arguments =>
  match c.text? "call_panic" with
  | some message => .error message
  | none => .ok (start arguments)

namespace Stage

/-- The resolver of a query or mutation. -/
def fieldResolver (scope : TemplateScope) (c : Const) : Resolver Resolved :=
  calling c fun arguments =>
    work c arguments fun cancelled =>
      Template.result { scope with arguments, cancelled } ((c.get? "result").getD .null)

/-- The resolver of a subscription. -/
def streamResolver (scope : TemplateScope) (c : Const) : Resolver EventSource :=
  calling c fun arguments =>
    work c arguments fun cancelled =>
      let scope := { scope with arguments, cancelled }
      (do
        let _ ← Template.result scope ((c.get? "result").getD .null)
        Template.check scope ((c.get? "events").getD .null)
        return eventSource scope c)

def operationKind (name : String) : OperationKind :=
  match name with
  | "mutation" => .mutation
  | "subscription" => .subscription
  | _ => .query

def paramMode (name : String) : ParamMode :=
  match name with
  | "struct" => .struct
  | "named" => .named
  | "positional" => .positional
  | _ => .auto

/-- The operation that a script declares. -/
def operation (stage : Stage) (types c : Const) : Option OperationDeclaration := do
  let kind := operationKind ((c.text? "kind").getD "query")
  let scope := stage.scope types
  return {
    kind
    name := (c.text? "name").getD ""
    info := ItemMeta.ofConst c
    mode := paramMode ((c.text? "mode").getD "auto")
    names := (itemsOf c "names").filterMap (·.string?)
    params := ← (itemsOf c "params").mapM fun param => param.string?.bind stage.type?
    output := ← (c.text? "output").bind stage.type?
    resolver := match kind with
      | .subscription => .stream (streamResolver scope c)
      | _ => .field (fieldResolver scope c) }

/-- A custom scalar whose values are read as one menu says, or literals as another. -/
def scalar (type : NamedType) (c : Const) : ScalarDescriptor :=
  let menu := ScalarMenu.named ((c.text? "parse").getD "any")
  let parse (menu : ScalarMenu) (value : Const) : Except Failure Resolved :=
    match type with
    | .host id => menu.parse id value
    | .builtin _ => .ok (Template.plain value)
  let literal (value : Const) : Except Failure Resolved :=
    match c.text? "literal" with
    | none => parse menu value
    | some "wrong" => .ok (.int 0)
    | some name => parse (ScalarMenu.named name) value
  { name := (c.text? "name").getD "", description := c.text? "description", type, serialize := menu.serialize
    parseVariable := parse menu, parseLiteral := literal }

end Stage

/-- The scorer that a script declares. -/
def scorer (c : Const) : Scorer :=
  let fields := ((c.get? "fields").map (·.entries)).getD []
  let score (c : Option Const) (default : Nat) : Nat := ((c.bind (·.integer?)).map Int.toNat).getD default
  let other := score (c.get? "default") 1
  { field := fun type name => score (Entries.find? (type ++ "." ++ name) fields) other
    list := match c.text? "list" with
      | some "add" => saturatingAdd
      | some "max" => max
      | _ => saturatingMul }

end GraphQL.Script
