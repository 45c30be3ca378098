import GraphQL.Text.Invisible

/-!
# Quoted text

A text is quoted by writing each character or its escape between double quotes. The four styles
differ only in their escapes: responses and JSON, JSON of printable ASCII, constants in documents and
messages, and names in registration messages.
-/

namespace GraphQL

/-- Puts a text between double quotes, writing an escape where there is one. -/
def quoteWith (escape : Char → Option String) (s : String) : String :=
  (s.toList.foldl (fun text c => (escape c).elim (text.push c) (text ++ ·)) "\"").push '"'

/-- Digits of a number to a base, padded with zeros to a least width. -/
def paddedDigits (base width n : Nat) : String :=
  let digits := Nat.toDigits base n
  String.ofList (List.replicate (width - digits.length) '0' ++ digits)

/-- A control character: the C0 and C1 controls and the delete character. -/
def isControl (c : Char) : Bool := c.toNat < 0x20 || (0x7f ≤ c.toNat && c.toNat < 0xa0)

/-- White space at the ends of a text that counts as empty. -/
def isBlank (c : Char) : Bool :=
  let n := c.toNat
  (9 ≤ n && n ≤ 13) || n == 0x20 || n == 0x85 || n == 0xa0 || n == 0x1680 || (0x2000 ≤ n && n ≤ 0x200a)
    || n == 0x2028 || n == 0x2029 || n == 0x202f || n == 0x205f || n == 0x3000

namespace Escape

/-- The escapes that all styles share. -/
def basic : Char → Option String
  | '"' => some "\\\""
  | '\\' => some "\\\\"
  | '\n' => some "\\n"
  | '\r' => some "\\r"
  | '\t' => some "\\t"
  | _ => none

/-- JSON: other characters below the space are written by number. -/
def json (c : Char) : Option String :=
  match basic c with
  | some escaped => some escaped
  | none =>
    if c.toNat = 8 then some "\\b"
    else if c.toNat = 12 then some "\\f"
    else if c.toNat < 0x20 then some ("\\u" ++ paddedDigits 16 4 c.toNat)
    else none

/-- JSON of printable ASCII: any other character is written as its one or two UTF-16 units. -/
def jsonAscii (c : Char) : Option String :=
  match json c with
  | some escaped => some escaped
  | none =>
    let n := c.toNat
    let unit (n : Nat) := "\\u" ++ paddedDigits 16 4 n
    if n < 0x7f then none
    else if n < 0x10000 then some (unit n)
    else some (unit (0xd800 + (n - 0x10000) / 0x400) ++ unit (0xdc00 + (n - 0x10000) % 0x400))

/-- Constants: other control characters are written by their decimal number. -/
def constant (c : Char) : Option String :=
  match basic c with
  | some escaped => some escaped
  | none => if isControl c then some ("\\u" ++ paddedDigits 10 4 c.toNat) else none

/-- Names in messages: a character without a visible form is written by its number in braces. -/
def name (c : Char) : Option String :=
  match basic c with
  | some escaped => some escaped
  | none =>
    if c.toNat = 0 then some "\\0"
    else if isInvisible c then some ("\\u\x7b" ++ paddedDigits 16 1 c.toNat ++ "\x7d")
    else none

end Escape

end GraphQL
