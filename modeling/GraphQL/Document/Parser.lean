import GraphQL.Document.Cursor
import GraphQL.Json.Parser

/-!
# The grammar of documents

A document is operations and fragments and nothing else. Keywords and names need nothing between
them, so `queryA` starts a query named `A`; `true`, `false` and `null` are read off the front of a
longer word; and a type condition is the word `on` with spacing, but no comment, before the name.
Numbers beyond the finite ones and selections nested too deep match the grammar and are refused after
all of it has matched, the first of them in the order of the text.
-/

namespace GraphQL.Document

open GraphQL.Parser

/-- Selections may be nested this deep below an operation or fragment. -/
def maxNesting : Nat := 64

/-- A number, not followed by a letter or underscore. -/
def number : Parser Number := part .number <| step fun c =>
  match NumberToken.scan c.rest with
  | none => none
  | some (written, rest) =>
    if rest.head?.any isNameStart then none
    else
      let c := c.moveTo rest
      match written.value? with
      | some n => some (n, c)
      | none => some (.integer 0, c.noteFault .numberTooLarge)

/-- The number that four hexadecimal digits write. -/
def hexUnit (a b c d : Char) : Option Nat := do
  return (← Json.hexValue a) * 4096 + (← Json.hexValue b) * 256 + (← Json.hexValue c) * 16 + (← Json.hexValue d)

/-- The content of a string up to its closing quote, escapes replaced. -/
def scanString : List Char → Option (List Char × List Char)
  | '"' :: rest => some ([], rest)
  | '\\' :: 'u' :: a :: b :: c :: d :: rest => do
    let unit ← hexUnit a b c d
    if 0xd800 ≤ unit && unit < 0xe000 then none
    else
      let (content, rest) ← scanString rest
      return (Char.ofNat unit :: content, rest)
  | '\\' :: c :: rest => do
    let plain ← Json.unescape c
    let (content, rest) ← scanString rest
    return (plain :: content, rest)
  | c :: rest =>
    if isLineEnd c || c == '\\' then none
    else (scanString rest).map fun (content, rest) => (c :: content, rest)
  | [] => none

/-- The content of a block string up to its closing quotes, as it is written. -/
def scanBlock : List Char → Option (List Char × List Char)
  | '\\' :: '"' :: '"' :: '"' :: rest =>
    (scanBlock rest).map fun (content, rest) => ('\\' :: '"' :: '"' :: '"' :: content, rest)
  | '"' :: '"' :: '"' :: rest => some ([], rest)
  | c :: rest => (scanBlock rest).map fun (content, rest) => (c :: content, rest)
  | [] => none

/-- The lines of a text; a carriage return with a line feed is one line end. -/
def lines : List Char → List (List Char)
  | [] => [[]]
  | '\r' :: '\n' :: rest => [] :: lines rest
  | c :: rest =>
    if isLineEnd c then [] :: lines rest
    else
      match lines rest with
      | line :: more => (c :: line) :: more
      | [] => [[c]]

def isIndent (c : Char) : Bool := c == ' ' || c == '\t'

def isBlankLine (line : List Char) : Bool := line.all isIndent

/-- The indentation that all lines after the first share, blank lines aside. -/
def commonIndent (all : List (List Char)) : Nat :=
  ((all.drop 1).filter (!isBlankLine ·) |>.map fun line => (line.takeWhile isIndent).length).min?.getD 0

/-- The text of a block string: common indentation removed, blank lines at both ends dropped. -/
def blockText (content : List Char) : String :=
  let all := lines content
  let indent := commonIndent all
  let trimmed := match all with
    | [] => []
    | first :: rest =>
      first :: rest.map fun (line : List Char) => if indent ≤ line.length then line.drop indent else line
  let kept := ((trimmed.dropWhile isBlankLine).reverse.dropWhile isBlankLine).reverse
  String.ofList (['\n'].intercalate kept)

/-- A string, in block quotes or plain ones. -/
def string : Parser String := part .string <| step fun c =>
  let plain : Option (String × Cursor) := match c.rest with
    | '"' :: rest => (scanString rest).map fun (content, rest) => (String.ofList content, c.moveTo rest)
    | _ => none
  match c.rest with
  | '"' :: '"' :: '"' :: rest =>
    match scanBlock rest with
    | some (content, rest) => some (blockText content, c.moveTo rest)
    | none => plain
  | _ => plain

/-- A variable: a dollar sign and a name. -/
def variableName : Parser String := part .reference do
  let _ ← token "$"
  return (← name).value

/-- A list of values. -/
def list (value : Parser Value) : Parser Value := do
  let _ ← token "["
  let items ← many value
  let _ ← token "]"
  return .list items

/-- An entry of an object: name, colon, value. -/
def entry (value : Parser Value) : Parser (String × Value) := do
  let key ← name
  let _ ← token ":"
  return (key.value, ← value)

/-- An object of the given entries. -/
def object (entry : Parser (String × Value)) : Parser Value := do
  let _ ← token "\x7b"
  let entries ← many entry
  let _ ← token "\x7d"
  return .object (Entries.ofList entries)

/-- A value that holds no other, variables aside. -/
def plainValue : Parser Value :=
  Value.number <$> number
  <|> Value.string <$> string
  <|> part .boolean (keyword "true" (Value.boolean true) <|> keyword "false" (Value.boolean false))
  <|> part .null (keyword "null" Value.null)
  <|> part .enumValue ((fun n => Value.enum n.value) <$> name)

/-- A value; variables may be part of it. -/
def value : Parser Value :=
  fix (fun value (_ : Unit) =>
    part .value <|
      Value.ref <$> variableName
      <|> plainValue
      <|> part .list (list (value ()))
      <|> part .object (object (part .entry (entry (value ()))))) ()

/-- A value without variables. -/
def constant : Parser Value :=
  fix (fun constant (_ : Unit) =>
    part .constant <|
      plainValue
      <|> part .constantList (list (constant ()))
      <|> part .constantObject (object (part .constantEntry (entry (constant ()))))) ()

/-- A type without any spacing in it. -/
def typeText : Parser WrittenType :=
  fix (fun inner (_ : Unit) => do
    let make ← WrittenType.named <$> nameText
      <|> (do
        text "["
        let item ← inner ()
        text "]"
        return WrittenType.list item)
    let strict ← optional (text "!")
    return make strict.isNone) ()

/-- An argument: name, colon, value. -/
def argument : Parser Argument := part .argument do
  let key ← name
  let _ ← token ":"
  let location ← next
  return ⟨key, location, ← value⟩

/-- Arguments in parentheses, at least one of them. -/
def arguments : Parser (List Argument) := part .arguments do
  let _ ← token "("
  let all ← many1 argument
  let _ ← token ")"
  return all

def directive : Parser Directive := part .directive do
  let location ← token "@"
  let called ← name
  return ⟨location, called.value, (← optional arguments).getD []⟩

/-- Spacing without comments right here, at least one character of it. -/
def spacingHere : Parser Unit := step fun c =>
  let spacing := c.rest.takeWhile isSpacing
  if spacing.isEmpty then none else some ((), c.advance spacing.length)

/-- Where the cursor is. -/
def here : Parser Location := step fun c => some (c.location, c)

/-- A type condition: `on`, spacing without comments, and the name of a type. -/
def typeCondition : Parser (Located String) := part .typeCondition do
  text "on"
  spacingHere
  let location ← here
  return ⟨location, ← nameHere⟩

/-- Notes a selection that is nested too deep. -/
def checkNesting (remaining : Nat) : Parser Unit := step fun c =>
  some ((), if remaining = 0 then c.noteFault .tooDeep else c)

/-- A field up to its selection. -/
def fieldHead : Parser FieldHead := do
  let location ← next
  let aliasName ← optional <| part .fieldAlias do
    let aliasName ← name
    let _ ← token ":"
    return aliasName.value
  let called ← name
  let given ← optional arguments
  let directives ← many directive
  return ⟨location, aliasName, called.value, given.getD [], directives⟩

/-- One selection, below which selections may be nested `remaining` deep. -/
def selectionWith (selection : Nat → Parser Selection) (remaining : Nat) : Parser Selection :=
  let nested : Parser (List Selection) := part .selectionSet do
    let _ ← token "\x7b"
    checkNesting remaining
    let all ← many1 (selection (remaining - 1))
    let _ ← token "\x7d"
    return all
  part .selection <|
    (part .field do
      let head ← fieldHead
      return .field head ((← optional nested).getD []))
    <|> (part .inlineFragment do
      let _ ← token "..."
      let condition ← optional typeCondition
      let directives ← many directive
      return .inline condition directives (← nested))
    <|> (part .spread do
      let location ← token "..."
      notAhead typeCondition
      let fragment ← name
      return .spread location fragment.value (← many directive))

/-- The selection of an operation or fragment. -/
def selectionSet : Parser (List Selection) := part .selectionSet do
  let _ ← token "\x7b"
  let all ← many1 (fix selectionWith maxNesting)
  let _ ← token "\x7d"
  return all

def variableDefinition : Parser VariableDefinition := part .variableDefinition do
  let location ← next
  let bound ← variableName
  let _ ← token ":"
  let type ← part .type typeText
  let _ ← many directive
  let default ← optional <| part .defaultValue do
    let _ ← token "="
    constant
  return ⟨location, bound, type, default.map (Value.toConst fun _ => .null)⟩

/-- Variable definitions in parentheses. -/
def variableDefinitions : Parser (List VariableDefinition) := part .variableDefinitions do
  let _ ← token "("
  let all ← many variableDefinition
  let _ ← token ")"
  return all

/-- The keyword of an operation. -/
def operationKind : Parser OperationKind := part .operationKind <|
  keyword "query" OperationKind.query
  <|> keyword "mutation" OperationKind.mutation
  <|> keyword "subscription" OperationKind.subscription

/-- An operation and its name, if it has one. -/
def operation : Parser (Option String × OperationDefinition) := part .operation do
  let location ← next
  (part .namedOperation do
    let kind ← operationKind
    let called ← optional name
    let definitions ← optional variableDefinitions
    let _ ← many directive
    return (called.map (·.value), ⟨location, kind, definitions.getD [], ← selectionSet⟩))
  <|> (do return (none, ⟨location, .query, [], ← selectionSet⟩))

def fragment : Parser FragmentDefinition := part .fragment do
  let location ← token "fragment"
  let called ← name
  let condition ← typeCondition
  let _ ← many directive
  return ⟨location, called.value, condition, ← selectionSet⟩

/-- A definition of a document. -/
inductive Definition where
  | operation (name : Option String) (definition : OperationDefinition)
  | fragment (definition : FragmentDefinition)

def definition : Parser Definition := part .definition <|
  (fun (name, definition) => .operation name definition) <$> operation <|> .fragment <$> fragment

/-- The definitions of a text that has nothing after them. -/
def wholeText : Parser (List Definition) := do
  let all ← many1 definition
  part .endOfText textEnd
  return all

/-- The definitions of a text. -/
def definitions (text : String) : Except DocumentError (List Definition) :=
  match wholeText (Cursor.ofText text) {} with
  | (none, misses) => .error (.departure (Departure.ofText text misses.place misses.parts))
  | (some (all, c), _) =>
    match c.fault with
    | some fault => .error fault
    | none => .ok all

/-- The parts of a document collected so far. -/
structure Draft where
  operations : Option Operations := none
  fragments : Entries FragmentDefinition := []

/-- Adds a definition, unless it clashes with an earlier one. -/
def Draft.add (draft : Draft) : Definition → Except DocumentError Draft
  | .operation none definition =>
    match draft.operations with
    | none => .ok { draft with operations := some (.anonymous definition) }
    | some (.anonymous other) => .error (.anonymousBesideOthers definition.location other.location)
    | some (.named others) =>
      .error (.anonymousBesideOthers definition.location ((others.head?.map (·.2.location)).getD .start))
  | .operation (some name) definition =>
    match draft.operations with
    | some (.anonymous other) => .error (.anonymousBesideOthers other.location definition.location)
    | some (.named others) =>
      match Entries.find? name others with
      | some first => .error (.operationTwice name first.location definition.location)
      | none => .ok { draft with operations := some (.named (others ++ [(name, definition)])) }
    | none => .ok { draft with operations := some (.named [(name, definition)]) }
  | .fragment definition =>
    match Entries.find? definition.name draft.fragments with
    | some first => .error (.fragmentTwice definition.name first.location definition.location)
    | none => .ok { draft with fragments := draft.fragments ++ [(definition.name, definition)] }

/-- Reads a document. -/
def parse (text : String) : Except DocumentError Document := do
  let draft ← (← definitions text).foldlM Draft.add {}
  match draft.operations with
  | some operations => return ⟨operations, draft.fragments⟩
  | none => .error .noOperation

end GraphQL.Document
