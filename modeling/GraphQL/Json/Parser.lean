import GraphQL.Const

/-!
# Reading JSON

The text is cut into tokens by `Json.lex`, which walks over it once with a small state, and the
tokens are put together by `Json.assemble`, which keeps the open arrays and objects on a stack. Both
recurse on their input. A well-formed text need not mean anything: numbers may be too large, character
numbers may lack their partner, and values may be nested too deeply. `Json.outline` reads the outermost
level of a text and leaves open what stands below it means; keys may be repeated. `Json.parse` reads a
text that means a constant as a whole and has each key once, at its first place and with its last value.
-/

namespace GraphQL.Json

/-- Arrays and objects mean something only if they are nested no deeper than this. -/
def maxDepth : Nat := 127

inductive Token where
  | openList
  | closeList
  | openObject
  | closeObject
  | comma
  | colon
  /-- A literal or a number, with what it means. -/
  | word (value : Option Const)
  | string (s : Option String)

/-- What the lexer is in the middle of. Characters read so far are in reverse; a string that cannot mean
anything any more has none. -/
inductive Mode where
  | idle
  | word (read : List Char)
  | string (read : Option (List Char))
  /-- After a backslash. -/
  | escape (read : Option (List Char))
  /-- In a character number with this many digits to come; `high` is a first UTF-16 unit. -/
  | unit (read : Option (List Char)) (high : Option Nat) (digits value : Nat)
  /-- After a first UTF-16 unit, expecting the backslash and then the letter of the second. -/
  | pair (read : Option (List Char)) (high : Nat) (slash : Bool)

def isSpace (c : Char) : Bool := c == ' ' || c == '\n' || c == '\t' || c == '\r'

def isWordChar (c : Char) : Bool := c.isAlphanum || c == '-' || c == '+' || c == '.'

def hexValue (c : Char) : Option Nat :=
  if c.isDigit then some (c.toNat - '0'.toNat)
  else if 'a' ≤ c && c ≤ 'f' then some (c.toNat - 'a'.toNat + 10)
  else if 'A' ≤ c && c ≤ 'F' then some (c.toNat - 'A'.toNat + 10)
  else none

/-- The character after a backslash. -/
def unescape : Char → Option Char
  | '"' => some '"'
  | '\\' => some '\\'
  | '/' => some '/'
  | 'b' => some (Char.ofNat 8)
  | 'f' => some (Char.ofNat 12)
  | 'n' => some '\n'
  | 'r' => some '\r'
  | 't' => some '\t'
  | _ => none

/-- The token of a literal or a number. -/
def wordToken (read : List Char) : Option Token :=
  let word := read.reverse
  if word = "null".toList then some (.word (some .null))
  else if word = "true".toList then some (.word (some (.boolean true)))
  else if word = "false".toList then some (.word (some (.boolean false)))
  else
    match NumberToken.scan word with
    | some (number, []) => some (.word (number.value?.map .number))
    | _ => none

def punctuation : Char → Option Token
  | '[' => some .openList
  | ']' => some .closeList
  | '\x7b' => some .openObject
  | '\x7d' => some .closeObject
  | ',' => some .comma
  | ':' => some .colon
  | _ => none

/-- The mode after a complete character number: a character, the first of two units, or nothing. -/
def unitMode (read : Option (List Char)) (high : Option Nat) (value : Nat) : Mode :=
  match high with
  | some first =>
    if 0xdc00 ≤ value && value < 0xe000 then
      .string (read.map (Char.ofNat (0x10000 + (first - 0xd800) * 0x400 + (value - 0xdc00)) :: ·))
    else .string none
  | none =>
    if 0xd800 ≤ value && value < 0xdc00 then .pair read value false
    else if 0xdc00 ≤ value && value < 0xe000 then .string none
    else .string (read.map (Char.ofNat value :: ·))

/-- One character in the idle mode. -/
def startMode (c : Char) : Option (List Token × Mode) :=
  if isSpace c then some ([], .idle)
  else if c == '"' then some ([], .string (some []))
  else if isWordChar c then some ([], .word [c])
  else (punctuation c).map fun token => ([token], .idle)

/-- One character of a string. -/
def stringMode (read : Option (List Char)) (c : Char) : Option (List Token × Mode) :=
  if c == '"' then some ([.string (read.map fun cs => String.ofList cs.reverse)], .idle)
  else if c == '\\' then some ([], .escape read)
  else if c.toNat < 0x20 then none
  else some ([], .string (read.map (c :: ·)))

/-- The character after a backslash. -/
def escapeMode (read : Option (List Char)) (c : Char) : Option (List Token × Mode) :=
  if c == 'u' then some ([], .unit read none 4 0)
  else (unescape c).map fun plain => ([], .string (read.map (plain :: ·)))

/-- One character: the tokens it completes and the mode after it. -/
def step (mode : Mode) (c : Char) : Option (List Token × Mode) :=
  match mode with
  | .idle => startMode c
  | .word read =>
    if isWordChar c then some ([], .word (c :: read))
    else do
      let token ← wordToken read
      let (tokens, next) ← startMode c
      some (token :: tokens, next)
  | .string read => stringMode read c
  | .escape read => escapeMode read c
  | .unit read high digits value =>
    (hexValue c).map fun digit =>
      let value := value * 16 + digit
      ([], if digits ≤ 1 then unitMode read high value else .unit read high (digits - 1) value)
  | .pair read high false => if c == '\\' then some ([], .pair read high true) else stringMode none c
  | .pair read high true => if c == 'u' then some ([], .unit read (some high) 4 0) else escapeMode none c

/-- The tokens of a text, after those already read in reverse. -/
def lex (mode : Mode) (read : List Token) : List Char → Option (List Token)
  | [] =>
    match mode with
    | .idle => some read.reverse
    | .word word => (wordToken word).map fun token => (token :: read).reverse
    | _ => none
  | c :: rest =>
    match step mode c with
    | none => none
    | some (tokens, next) => lex next (tokens.reverse ++ read) rest

/-- The outermost level of a value. What stands below means a constant or nothing. -/
inductive Outline where
  | leaf (value : Option Const)
  | list (items : List (Option Const))
  | object (entries : List (Option String × Option Const))

namespace Outline

/-- An entry of which key and value mean something. -/
def entry? : Option String × Option Const → Option (String × Const)
  | (some key, some value) => some (key, value)
  | _ => none

/-- What a value means that stands in some number of arrays and objects: all of it has to mean something. -/
def meaning (depth : Nat) : Outline → Option Const
  | leaf value => value
  | list items => if depth < maxDepth then (items.mapM id).map .list else none
  | object entries =>
    if depth < maxDepth then (entries.mapM entry?).map .object else none

end Outline

/-- An open array or object with the values read so far, in reverse; `key` awaits its value. -/
inductive Frame where
  | list (items : List (Option Const))
  | object (entries : List (Option String × Option Const)) (key : Option (Option String))

/-- What may come next. -/
inductive Expect where
  | value
  /-- A value or the end of an array that has just been opened. -/
  | valueOrClose
  | key
  /-- A key or the end of an object that has just been opened. -/
  | keyOrClose
  | colon
  | commaOrClose
  /-- Nothing: the text is one value. -/
  | done (outline : Outline)

/-- Puts a complete value where it belongs. -/
def place (outline : Outline) (frames : List Frame) : Option (List Frame × Expect) :=
  let value := outline.meaning frames.length
  match frames with
  | [] => some ([], .done outline)
  | .list items :: outer => some (.list (value :: items) :: outer, .commaOrClose)
  | .object entries (some key) :: outer => some (.object ((key, value) :: entries) none :: outer, .commaOrClose)
  | .object _ none :: _ => none

/-- One token: the frames after it and what may follow. -/
def accept (frames : List Frame) (expect : Expect) (token : Token) : Option (List Frame × Expect) :=
  let value : Option (List Frame × Expect) := match token with
    | .openList => some (.list [] :: frames, .valueOrClose)
    | .openObject => some (.object [] none :: frames, .keyOrClose)
    | .word value => place (.leaf value) frames
    | .string s => place (.leaf (s.map .string)) frames
    | _ => none
  match expect, token, frames with
  | .valueOrClose, .closeList, .list items :: outer => place (.list items.reverse) outer
  | .value, _, _ | .valueOrClose, _, _ => value
  | .keyOrClose, .closeObject, .object entries none :: outer => place (.object entries.reverse) outer
  | .keyOrClose, .string key, .object entries none :: outer
  | .key, .string key, .object entries none :: outer => some (.object entries (some key) :: outer, .colon)
  | .colon, .colon, _ => some (frames, .value)
  | .commaOrClose, .closeList, .list items :: outer => place (.list items.reverse) outer
  | .commaOrClose, .closeObject, .object entries none :: outer => place (.object entries.reverse) outer
  | .commaOrClose, .comma, .list _ :: _ => some (frames, .value)
  | .commaOrClose, .comma, .object _ none :: _ => some (frames, .key)
  | _, _, _ => none

/-- The outermost level of the value that a sequence of tokens spells. -/
def assemble (frames : List Frame) (expect : Expect) : List Token → Option Outline
  | [] =>
    match expect with
    | .done outline => some outline
    | _ => none
  | token :: rest => do
    let (frames, expect) ← accept frames expect token
    assemble frames expect rest

/-- Reads the outermost level of a text that is one JSON value. -/
def outline (text : String) : Option Outline := do
  let tokens ← lex .idle [] text.toList
  assemble [] .value tokens

/-- Reads a text that is one JSON value. -/
def parse (text : String) : Option Const := do return (← (← outline text).meaning 0).distinct

end GraphQL.Json
