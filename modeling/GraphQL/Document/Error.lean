import GraphQL.Location

/-!
# Document errors

Why a text is not a document. A text may leave the grammar: the report of that shows the line, marks the
place, and lists the parts of the grammar that could have stood there. A text may also match the grammar
and still be refused, for a number that is too large, for selections nested too deep, or for its
definitions taken together.
-/

namespace GraphQL

/-- The parts of the grammar, in the order in which reports list them. -/
inductive GrammarPart where
  | endOfText
  | definition
  | operation
  | namedOperation
  | variableDefinitions
  | variableDefinition
  | selectionSet
  | selection
  | field
  | fieldAlias
  | spread
  | inlineFragment
  | fragment
  | typeCondition
  | operationKind
  | defaultValue
  | type
  | constant
  | value
  | reference
  | number
  | string
  | boolean
  | null
  | enumValue
  | constantList
  | list
  | constantObject
  | object
  | constantEntry
  | entry
  | directive
  | arguments
  | argument
  | name
deriving DecidableEq, Repr

namespace GrammarPart

def text : GrammarPart → String
  | endOfText => "EOI"
  | definition => "executable_definition"
  | operation => "operation_definition"
  | namedOperation => "named_operation_definition"
  | variableDefinitions => "variable_definitions"
  | variableDefinition => "variable_definition"
  | selectionSet => "selection_set"
  | selection => "selection"
  | field => "field"
  | fieldAlias => "alias"
  | spread => "fragment_spread"
  | inlineFragment => "inline_fragment"
  | fragment => "fragment_definition"
  | typeCondition => "type_condition"
  | operationKind => "operation_type"
  | defaultValue => "default_value"
  | type => "type_"
  | constant => "const_value"
  | value => "value"
  | reference => "variable"
  | number => "number"
  | string => "string"
  | boolean => "boolean"
  | null => "null"
  | enumValue => "enum_value"
  | constantList => "const_list"
  | list => "list"
  | constantObject => "const_object"
  | object => "object"
  | constantEntry => "const_object_field"
  | entry => "object_field"
  | directive => "directive"
  | arguments => "arguments"
  | argument => "argument"
  | name => "name"

def all : List GrammarPart :=
  [endOfText, definition, operation, namedOperation, variableDefinitions, variableDefinition, selectionSet, selection,
    field, fieldAlias, spread, inlineFragment, fragment, typeCondition, operationKind, defaultValue, type, constant, value,
    reference, number, string, boolean, null, enumValue, constantList, list, constantObject, object, constantEntry,
    entry, directive, arguments, argument, name]

/-- The parts in the order of reports, each once. -/
def sorted (parts : List GrammarPart) : List GrammarPart := all.filter (parts.contains ·)

theorem mem_all (part : GrammarPart) : part ∈ all := by cases part <;> decide

theorem mem_sorted {part : GrammarPart} {parts : List GrammarPart} : part ∈ sorted parts ↔ part ∈ parts := by
  simp [sorted, mem_all]

end GrammarPart

/-- Alternatives as a sentence lists them. -/
def alternatives : List String → String
  | [] => ""
  | [one] => one
  | [one, other] => one ++ " or " ++ other
  | all => ", ".intercalate all.dropLast ++ ", or " ++ (all.getLast?).getD ""

/-- A place where a text leaves the grammar: where it is, the line there, and the parts that could have
stood there. -/
structure Departure where
  location : Location
  line : String
  missed : List GrammarPart
deriving DecidableEq, Repr

namespace Departure

/-- The departure after a number of characters. Only a line feed ends a line here, and a carriage return
takes a column although the line is shown without it. -/
def ofText (text : String) (taken : Nat) (missed : List GrammarPart) : Departure :=
  let before := text.toList.take taken
  let start := (before.reverse.takeWhile (· ≠ '\n')).reverse
  let line := start ++ (text.toList.drop taken).takeWhile (· ≠ '\n')
  { location := ⟨before.count '\n' + 1, start.length + 1⟩
    line := String.ofList (line.filter (· ≠ '\r'))
    missed }

/-- The space below a line up to its marked column; tabs are kept. -/
def indent (d : Departure) : String :=
  String.ofList ((d.line.toList.take (d.location.column - 1)).map fun c => if c = '\t' then c else ' ')

def expectation (d : Departure) : String :=
  if d.missed.isEmpty then "unknown parsing error"
  else "expected " ++ alternatives ((GrammarPart.sorted d.missed).map (·.text))

/-- The report: the place, the line with a mark below it, and what was expected. -/
def report (d : Departure) : String :=
  let number := toString d.location.line
  let margin := String.ofList (List.replicate number.length ' ')
  "\n".intercalate
    [s!"{margin}--> {number}:{d.location.column}",
      s!"{margin} |",
      s!"{number} | {d.line}",
      s!"{margin} | {d.indent}^---",
      s!"{margin} |",
      s!"{margin} = {d.expectation}"]

/-- Only departures from the tenth line on are reported in full. -/
def isReported (d : Departure) : Bool := 10 ≤ d.location.line

end Departure

inductive DocumentError where
  | departure (d : Departure)
  | numberTooLarge
  | tooDeep
  | noOperation
  | anonymousBesideOthers (anonymous other : Location)
  | operationTwice (name : String) (first second : Location)
  | fragmentTwice (name : String) (first second : Location)
deriving DecidableEq, Repr

namespace DocumentError

def message : DocumentError → String
  | departure d => if d.isReported then d.report else "syntax error"
  | numberTooLarge => "syntax error"
  | tooDeep => "recursion limit exceeded."
  | noOperation => "document does not contain an operation"
  | anonymousBesideOthers .. => "document contains multiple operations"
  | operationTwice name .. => s!"operation {name} is defined twice"
  | fragmentTwice name .. => s!"fragment {name} is defined twice"

/-- The places that an error points at; of a repeated definition the later one comes first. -/
def locations : DocumentError → List Location
  | departure d => if d.isReported then [d.location] else []
  | anonymousBesideOthers anonymous other => [anonymous, other]
  | operationTwice _ first second | fragmentTwice _ first second => [second, first]
  | _ => []

end DocumentError

end GraphQL
