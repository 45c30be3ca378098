import GraphQL.Document
import GraphQL.Document.Error

/-!
# Parsing by alternatives

A parser takes a cursor and gives a result with the cursor behind it, or nothing. Of two
alternatives the first that matches counts. White space and comments are skipped before each token.
Repetition and recursion go on only at cursors with less text left, which is why they end:
`Parser.many` stops at a step that takes nothing, and `Parser.fix` hands out a parser that refuses to
start again at the same place.

What was missed on the way outlives the alternative that missed it: `Misses` has the parts of the grammar
that were tried in vain at the furthest place.
-/

namespace GraphQL

/-- The text that is left, where it starts, how many characters come before it, and the first thing
wrong with a text that matched. -/
structure Cursor where
  rest : List Char
  location : Location
  taken : Nat
  fault : Option DocumentError

namespace Cursor

def ofText (text : String) : Cursor := ⟨text.toList, .start, 0, none⟩

/-- Moves over characters. -/
def advance (c : Cursor) : Nat → Cursor
  | 0 => c
  | n + 1 =>
    match c.rest with
    | [] => c
    | first :: rest => advance ⟨rest, c.location.next first, c.taken + 1, c.fault⟩ n

/-- Moves to a later part of the same text. -/
def moveTo (c : Cursor) (rest : List Char) : Cursor := c.advance (c.rest.length - rest.length)

/-- Notes a fault, unless there is an earlier one. -/
def noteFault (c : Cursor) (fault : DocumentError) : Cursor := { c with fault := some (c.fault.getD fault) }

end Cursor

/-- The furthest place where parts of the grammar were missed, as characters before it, and the parts. -/
structure Misses where
  place : Nat := 0
  parts : List GrammarPart := []

namespace Misses

/-- The parts missed at a place. -/
def partsAt (m : Misses) (place : Nat) : List GrammarPart := if m.place = place then m.parts else []

/-- Adds a part missed at a place, where `before` had been missed before it was tried. It stands for all
that was missed at that place while it was tried, unless that is one part only, which says more. -/
def add (m : Misses) (part : GrammarPart) (place : Nat) (before : List GrammarPart) : Misses :=
  if (m.partsAt place).length = before.length + 1 || place < m.place then m else ⟨place, before ++ [part]⟩

end Misses

/-- A parser: from a cursor and what was missed so far to a result, if it matches, and all that was missed. -/
def Parser (α : Type) := Cursor → Misses → Option (α × Cursor) × Misses

/-- The characters between tokens; a comma is one of them. -/
def isSpacing (c : Char) : Bool :=
  c == ' ' || c == ',' || c == '\t' || c == '\n' || c == '\r' || c.toNat == 0xfeff

def isLineEnd (c : Char) : Bool := c == '\n' || c == '\r'

def isNameStart (c : Char) : Bool := c.isAlpha || c == '_'

def isNameChar (c : Char) : Bool := c.isAlphanum || c == '_'

/-- How many characters of spacing and comments there are at the front. -/
def ignoredLength (inComment : Bool) : List Char → Nat
  | [] => 0
  | c :: rest =>
    if isLineEnd c then ignoredLength false rest + 1
    else if inComment then ignoredLength true rest + 1
    else if isSpacing c then ignoredLength false rest + 1
    else if c == '#' then ignoredLength true rest + 1
    else 0

namespace Parser

variable {α β : Type}

instance : Monad Parser where
  pure a := fun c m => (some (a, c), m)
  bind p f := fun c m =>
    match p c m with
    | (some (a, c), m) => f a c m
    | (none, m) => (none, m)

instance : Alternative Parser where
  failure := fun _ m => (none, m)
  orElse p q := fun c m =>
    match p c m with
    | (none, m) => q () c m
    | found => found

/-- A parser that misses no part. -/
def step (f : Cursor → Option (α × Cursor)) : Parser α := fun c m => (f c, m)

/-- Skips spacing and comments and tells where the next token starts. -/
def next : Parser Location := step fun c =>
  let c := c.advance (ignoredLength false c.rest)
  some (c.location, c)

/-- A part of the grammar right here. -/
def partHere (part : GrammarPart) (p : Parser α) : Parser α := fun c m =>
  match p c m with
  | (none, after) => (none, after.add part c.taken (m.partsAt c.taken))
  | found => found

/-- A part of the grammar. -/
def part (part : GrammarPart) (p : Parser α) : Parser α := do
  let _ ← next
  partHere part p

/-- The text right here, without any spacing before it. -/
def text (s : String) : Parser Unit := step fun c =>
  if s.toList.isPrefixOf c.rest then some ((), c.advance s.length) else none

/-- A token of fixed text and where it starts. -/
def token (s : String) : Parser Location := do
  let location ← next
  text s
  return location

/-- A word that stands for a value. -/
def keyword (s : String) (a : α) : Parser α := do
  let _ ← token s
  return a

/-- The end of the text. -/
def textEnd : Parser Unit := step fun c => if c.rest.isEmpty then some ((), c) else none

/-- The letters of a name right here. -/
def nameText : Parser String := step fun c =>
  match c.rest with
  | first :: rest =>
    if isNameStart first then
      let name := first :: rest.takeWhile isNameChar
      some (String.ofList name, c.advance name.length)
    else none
  | [] => none

/-- A name right here. -/
def nameHere : Parser String := partHere .name nameText

/-- A name and where it starts. -/
def name : Parser (Located String) := do
  let location ← next
  return ⟨location, ← nameHere⟩

/-- Succeeds, taking nothing and missing nothing, where the parser does not match. -/
def notAhead (p : Parser α) : Parser Unit := fun c m =>
  if (p c m).1.isSome then (none, m) else (some ((), c), m)

/-- The results of a parser repeated as often as it matches. -/
def many (p : Parser α) (c : Cursor) (m : Misses) : Option (List α × Cursor) × Misses :=
  match p c m with
  | (none, m) => (some ([], c), m)
  | (some (a, c'), m) =>
    if c'.rest.length < c.rest.length then
      let (found, m) := many p c' m
      (found.map fun (all, last) => (a :: all, last), m)
    else (some ([a], c'), m)
termination_by c.rest.length

/-- The results of a parser repeated as often as it matches, at least once. -/
def many1 (p : Parser α) : Parser (List α) := do
  let first ← p
  return first :: (← many p)

/-- A parser defined in terms of itself, which it may use wherever less text is left. -/
def fix (f : (β → Parser α) → β → Parser α) (b : β) (c : Cursor) (m : Misses) : Option (α × Cursor) × Misses :=
  f (fun b' c' m' => if c'.rest.length < c.rest.length then fix f b' c' m' else (none, m')) b c m
termination_by c.rest.length

end Parser

end GraphQL
