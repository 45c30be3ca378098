import GraphQL.Host.Value

/-!
# Scalar menus

A scalar of a scripted application behaves as one of a few named menus. Its values hold a constant;
reading makes it out of an input constant, and serializing gives it back, with the prefix that reading
took off.
-/

namespace GraphQL.Script

inductive ScalarMenu where
  | any
  /-- Text in upper case. -/
  | upper
  | int
  /-- The name of the form of a constant. -/
  | kind
  /-- The text of a constant. -/
  | text
  | strip (mark : String)
  | fail
  | panic
deriving DecidableEq, Repr

namespace ScalarMenu

def named (name : String) : ScalarMenu :=
  match name with
  | "upper" => upper
  | "int" => int
  | "kind" => kind
  | "show" => text
  | "fail" => fail
  | "panic" => panic
  | other =>
    let mark := "prefix:"
    if mark.toList.isPrefixOf other.toList then strip (String.ofList (other.toList.drop mark.length)) else any

/-- The name of the form of a constant. -/
def formName : Const → String
  | .null => "null"
  | .number _ => "number"
  | .string _ => "string"
  | .boolean _ => "boolean"
  | .enum _ => "enum"
  | .list _ => "list"
  | .object _ => "object"

/-- A text in upper case; only the letters of ASCII have one. -/
def asciiUpper (s : String) : String := String.ofList (s.toList.map Char.toUpper)

/-- The constant that a value read from a constant holds. -/
def leaf (menu : ScalarMenu) (c : Const) : Except Failure Const :=
  match menu, c with
  | any, c => .ok c
  | upper, .string s => .ok (.string (asciiUpper s))
  | upper, _ => .error (.message "expected text")
  | int, .number n =>
    match n.toInt64? with
    | some _ => .ok c
    | none => .error (.message "invalid timestamp")
  | int, _ => .error (.message "invalid timestamp")
  | kind, c => .ok (.string (formName c))
  | text, c => .ok (.string c.text)
  | strip mark, .string s =>
    if mark.toList.isPrefixOf s.toList then .ok (.string (String.ofList (s.toList.drop mark.length)))
    else .error (.message ("invalid value " ++ s))
  | strip _, _ => .error (.message "must be a string")
  | fail, _ => .error (.error { message := "never valid", extensions := [("hint", .boolean true)] })
  | panic, _ => .error (.panic "scalar exploded")

/-- Reads a value of a host type. -/
def parse (menu : ScalarMenu) (id : HostId) (c : Const) : Except Failure Resolved :=
  (menu.leaf c).map fun c => .host (.mk id (.leaf c) [] [])

/-- The constant of a value. -/
def serialize (menu : ScalarMenu) (value : HostValue) : Const :=
  match menu, value.leaf with
  | strip mark, .string s => .string (mark ++ s)
  | _, c => c

end ScalarMenu

end GraphQL.Script
