/-!
# Locations

A place in a document, as errors report it: line and column, both from one.
-/

namespace GraphQL

structure Location where
  line : Nat
  column : Nat
deriving DecidableEq, Repr

namespace Location

/-- The location of the first character. -/
def start : Location := ⟨1, 1⟩

instance : Inhabited Location := ⟨start⟩

/-- The location after a character: a line feed starts a line, a carriage return only resets the column. -/
def next (l : Location) (c : Char) : Location :=
  if c = '\n' then ⟨l.line + 1, 1⟩
  else if c = '\r' then ⟨l.line, 1⟩
  else ⟨l.line, l.column + 1⟩

end Location

end GraphQL
