import GraphQL.Entries
import GraphQL.Number
import GraphQL.Text.Quoted

/-!
# Constants

A constant is a value without variables: what a document can write, what variables and extensions
carry, and what a leaf field resolves to. `Const.text` is its form in documents and messages and
`Const.json` its form in responses, where an enum value is a string.
-/

namespace GraphQL

inductive Const where
  | null
  | number (n : Number)
  | string (s : String)
  | boolean (b : Bool)
  | enum (name : String)
  | list (items : List Const)
  | object (entries : List (String × Const))
deriving Repr

namespace Const

instance : Inhabited Const := ⟨null⟩

/-- The constant of an integer. -/
def int (n : Int) : Const := number (.integer n)

def isNull : Const → Bool
  | null => true
  | _ => false

/-! What a constant is, if it is of one form. -/

def string? : Const → Option String
  | string s => some s
  | _ => none

def integer? : Const → Option Int
  | number (.integer n) => some n
  | _ => none

def isTrue : Const → Bool
  | boolean b => b
  | _ => false

/-- The items of a list; nothing else has any. -/
def items : Const → List Const
  | list items => items
  | _ => []

/-- The entries of an object; nothing else has any. -/
def entries : Const → List (String × Const)
  | object entries => entries
  | _ => []

/-- The value of an object key. -/
def get? (c : Const) (key : String) : Option Const := Entries.find? key c.entries

/-- The text under an object key. -/
def text? (c : Const) (key : String) : Option String := (c.get? key).bind string?

mutual

/-- The constant as a document would write it. -/
def text : Const → String
  | null => "null"
  | number n => n.text
  | string s => quoteWith Escape.constant s
  | boolean b => if b then "true" else "false"
  | enum name => name
  | list items => "[" ++ ", ".intercalate (textItems items) ++ "]"
  | object entries => "\x7b" ++ ", ".intercalate (textEntries entries) ++ "\x7d"

def textItems : List Const → List String
  | [] => []
  | item :: rest => text item :: textItems rest

def textEntries : List (String × Const) → List String
  | [] => []
  | (key, value) :: rest => (key ++ ": " ++ text value) :: textEntries rest

end

mutual

/-- The constant as compact JSON in the given escape style. -/
def jsonWith (escape : Char → Option String) : Const → String
  | null => "null"
  | number n => n.text
  | string s => quoteWith escape s
  | boolean b => if b then "true" else "false"
  | enum name => quoteWith escape name
  | list items => "[" ++ ",".intercalate (jsonItems escape items) ++ "]"
  | object entries => "\x7b" ++ ",".intercalate (jsonEntries escape entries) ++ "\x7d"

def jsonItems (escape : Char → Option String) : List Const → List String
  | [] => []
  | item :: rest => jsonWith escape item :: jsonItems escape rest

def jsonEntries (escape : Char → Option String) : List (String × Const) → List String
  | [] => []
  | (key, value) :: rest => (quoteWith escape key ++ ":" ++ jsonWith escape value) :: jsonEntries escape rest

end

/-- The constant as compact JSON. -/
def json (c : Const) : String := c.jsonWith Escape.json

mutual

/-- The constant as JSON knows it: enum values are strings. -/
def plain : Const → Const
  | enum name => string name
  | list items => list (plainItems items)
  | object entries => object (plainEntries entries)
  | other => other

def plainItems : List Const → List Const
  | [] => []
  | item :: rest => plain item :: plainItems rest

def plainEntries : List (String × Const) → List (String × Const)
  | [] => []
  | (key, value) :: rest => (key, plain value) :: plainEntries rest

end

mutual

/-- Equality of constants as JSON values; the order of the entries of an object does not matter. -/
def sameJson : Const → Const → Bool
  | null, null => true
  | number n, number m => n.sameValue m
  | string s, string t => s == t
  | string s, enum t => s == t
  | enum s, string t => s == t
  | enum s, enum t => s == t
  | boolean b, boolean c => b == c
  | list xs, list ys => sameItems xs ys
  | object xs, object ys => xs.length == ys.length && sameEntries xs ys
  | _, _ => false

def sameItems : List Const → List Const → Bool
  | [], [] => true
  | x :: xs, y :: ys => sameJson x y && sameItems xs ys
  | _, _ => false

/-- Whether every entry has its match among the others. -/
def sameEntries : List (String × Const) → List (String × Const) → Bool
  | [], _ => true
  | (key, value) :: rest, others =>
    (match Entries.find? key others with
      | some other => sameJson value other
      | none => false) && sameEntries rest others

end

mutual

/-- The constant with each key once in every object: at its first place, with its last value. -/
def distinct : Const → Const
  | list items => list (distinctItems items)
  | object entries => object (Entries.ofList (distinctEntries entries))
  | other => other

def distinctItems : List Const → List Const
  | [] => []
  | item :: rest => distinct item :: distinctItems rest

def distinctEntries : List (String × Const) → List (String × Const)
  | [] => []
  | (key, value) :: rest => (key, distinct value) :: distinctEntries rest

end

end Const

end GraphQL
