import GraphQL.TypeRef

/-!
# Written types

Types written as text: names, lists in brackets, maps in braces or angle brackets, a mark for values
seen through an interface, and one for shared values, which changes nothing. A type is nullable unless
an exclamation mark follows. The outermost form is the shape of a field.
-/

namespace GraphQL.Script

inductive TypeToken where
  | opening (c : Char)
  | closing (c : Char)
  | strict
  | shared
  | interface
  | name (s : String)
deriving DecidableEq, Repr

/-- The token of a character that is no part of a name. -/
def typeToken : Char → Option TypeToken
  | '[' => some (.opening '[')
  | '\x7b' => some (.opening '\x7b')
  | '<' => some (.opening '<')
  | ']' => some (.closing '[')
  | '\x7d' => some (.closing '\x7b')
  | '>' => some (.closing '<')
  | '!' => some .strict
  | '^' => some .shared
  | '&' => some .interface
  | _ => none

/-- The name read so far, in reverse, as a token. -/
def nameToken (read : List Char) : List TypeToken :=
  if read.isEmpty then [] else [.name (String.ofList read.reverse)]

/-- Cuts a text into tokens, after a name read so far. -/
def typeTokens (read : List Char) : List Char → List TypeToken
  | [] => nameToken read
  | c :: rest =>
    match typeToken c with
    | some token => nameToken read ++ token :: typeTokens [] rest
    | none => typeTokens (c :: read) rest

/-- A type on the way: the brackets that are open, the type read inside them, and whether its name is
seen through an interface. -/
structure PartialType where
  openings : List Char := []
  type : Option TypeRef := none
  isInterface : Bool := false

namespace TypeText

/-- The named type of a name: a builtin type or one of the application's, by its place among the labels. -/
def named? (labels : List String) (name : String) : Option NamedType :=
  match name with
  | "String" => some (.builtin .string)
  | "Boolean" => some (.builtin .boolean)
  | "Int" => some (.builtin .int32)
  | "Int64" => some (.builtin .int64)
  | "UInt" => some (.builtin .uint32)
  | "Float" => some (.builtin .float64)
  | "Float32" => some (.builtin .float32)
  | "ID" => some (.builtin .id)
  | _ => (labels.idxOf? name).map .host

/-- One token. -/
def step (labels : List String) (p : PartialType) : TypeToken → Option PartialType
  | .opening c => if p.type.isNone then some { p with openings := c :: p.openings } else none
  | .closing c =>
    match p.openings, p.type with
    | o :: openings, some type =>
      if o = c then some { p with openings, type := some (if c = '[' then .list type true else .map type true) }
      else none
    | _, _ => none
  | .strict => p.type.map fun type => { p with type := some type.strict }
  | .shared => some p
  | .interface => some { p with isInterface := true }
  | .name s =>
    if p.type.isNone then (named? labels s).map fun type => { p with type := some (.named type true) } else none

/-- The outermost form of a type. -/
def shape (type : TypeRef) (isInterface : Bool) : FieldShape :=
  match type with
  | .named _ true | .list _ true | .map _ true => .pointer
  | .list _ false => .slice
  | .map _ false => .map
  | .named _ false => if isInterface then .interface else .value

/-- Reads a type and its shape. -/
def parse (labels : List String) (text : String) : Option (TypeRef × FieldShape) := do
  let p ← (typeTokens [] text.toList).foldlM (step labels) {}
  let type ← p.type
  if p.openings.isEmpty then some (type, shape type p.isInterface) else none

/-- Reads a type. -/
def type? (labels : List String) (text : String) : Option TypeRef := (parse labels text).map (·.1)

end TypeText

end GraphQL.Script
