import GraphQL.Config
import GraphQL.Document
import GraphQL.Error
import GraphQL.Json.Parser

/-!
# Requests

A request is a query text, perhaps the name of an operation in it, and values for its variables. It is
read from JSON as an object, or as an array of its parts in order. Texts of queries and variables are
checked against the limits on their sizes before anything else.
-/

namespace GraphQL

structure Request where
  query : String
  operationName : Option String := none
  variableValues : Variables := []

/-- Why a request gets no response. -/
inductive RequestError where
  | invalidVariables
  | payload (error : PayloadError)
  /-- The subscription could not be started. -/
  | rejected (error : ResponseError)
deriving Repr

/-- Variables from a constant: an object, or null for none. -/
def Variables.ofConst? : Const → Option Variables
  | .null => some []
  | .object entries => some entries
  | _ => none

/-- Variables from JSON text; blank text has none. -/
def Variables.ofText? (text : String) : Option Variables :=
  if text.toList.all isBlank then some [] else (Json.parse text).bind Variables.ofConst?

namespace Request

/-- The parts of a request by name, from an object in which none of them is repeated or from an array.
Whatever else the object holds is left aside, whether it means anything or not. -/
def parts : Json.Outline → Option (Entries (Option Const))
  | .object entries => do
    let entries ← entries.mapM fun (key, value) => key.map (·, value)
    let known := entries.filter fun (key, _) => names.contains key
    if (Entries.keys known).Nodup then some known else none
  | .list items => if items.length ≤ names.length then some (names.zip items) else none
  | .leaf _ => none
where
  names : List String := ["query", "operationName", "variables"]

/-- A part that may be left out, read by `read`. -/
def part {α : Type} (parts : Entries (Option Const)) (name : String) (default : Option α)
    (read : Const → Option α) : Option α :=
  match Entries.find? name parts with
  | none => default
  | some value => value.bind read

def readName : Const → Option (Option String)
  | .null => some none
  | .string name => some (some name)
  | _ => none

def readVariables (value : Const) : Option Variables :=
  match value.distinct with
  | .object entries => some entries
  | _ => none

/-- Reads a request from JSON text. -/
def ofText? (text : String) : Option Request := do
  let parts ← parts (← Json.outline text)
  return {
    query := ← part parts "query" none Const.string?
    operationName := ← part parts "operationName" (some none) readName
    variableValues := ← part parts "variables" (some []) readVariables }

/-- A request from the texts of its query and variables, within the limits on their sizes in bytes. -/
def ofTexts (limits : MemoryLimits) (query variableText : String) : Except RequestError Request := do
  (limits.checkBody (query.utf8ByteSize + variableText.utf8ByteSize)).mapError .payload
  (limits.checkVariables variableText.utf8ByteSize).mapError .payload
  match Variables.ofText? variableText with
  | some variableValues => return { query, variableValues }
  | none => throw .invalidVariables

end Request

end GraphQL
