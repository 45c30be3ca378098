import GraphQL.Const
import GraphQL.Location

/-!
# Documents

The syntax of executable documents: operations and fragments, their selections, and values that may
refer to variables. Parts of a document that an error can point at carry their location.
-/

namespace GraphQL

/-- A part of a document and where it starts. -/
structure Located (α : Type) where
  location : Location
  value : α
deriving Repr

inductive OperationKind where
  | query
  | mutation
  | subscription
deriving DecidableEq, Repr

namespace OperationKind

/-- The keyword of a document and the word of messages. -/
def text : OperationKind → String
  | query => "query"
  | mutation => "mutation"
  | subscription => "subscription"

/-- The type that the root fields of the kind hang off. -/
def rootTypeName : OperationKind → String
  | query => "Query"
  | mutation => "Mutation"
  | subscription => "Subscription"

def all : List OperationKind := [query, mutation, subscription]

end OperationKind

/-- A value as a document writes it: a constant with variables in it. -/
inductive Value where
  | null
  | number (n : Number)
  | string (s : String)
  | boolean (b : Bool)
  | enum (name : String)
  | list (items : List Value)
  | object (entries : List (String × Value))
  /-- A variable. -/
  | ref (name : String)
deriving Repr

namespace Value

instance : Inhabited Value := ⟨null⟩

mutual

/-- The value as a document would write it. -/
def text : Value → String
  | null => "null"
  | number n => n.text
  | string s => quoteWith Escape.constant s
  | boolean b => if b then "true" else "false"
  | enum name => name
  | list items => "[" ++ ", ".intercalate (textItems items) ++ "]"
  | object entries => "\x7b" ++ ", ".intercalate (textEntries entries) ++ "\x7d"
  | ref name => "$" ++ name

def textItems : List Value → List String
  | [] => []
  | item :: rest => text item :: textItems rest

def textEntries : List (String × Value) → List String
  | [] => []
  | (key, value) :: rest => (key ++ ": " ++ text value) :: textEntries rest

end

mutual

/-- The constant after every variable is replaced. -/
def toConst (replace : String → Const) : Value → Const
  | null => .null
  | number n => .number n
  | string s => .string s
  | boolean b => .boolean b
  | enum name => .enum name
  | list items => .list (toConstItems replace items)
  | object entries => .object (toConstEntries replace entries)
  | ref name => replace name

def toConstItems (replace : String → Const) : List Value → List Const
  | [] => []
  | item :: rest => toConst replace item :: toConstItems replace rest

def toConstEntries (replace : String → Const) : List (String × Value) → List (String × Const)
  | [] => []
  | (key, value) :: rest => (key, toConst replace value) :: toConstEntries replace rest

end

mutual

/-- The variables in a value, in the order in which they are written. -/
def variableNames : Value → List String
  | ref name => [name]
  | list items => variableNamesItems items
  | object entries => variableNamesEntries entries
  | _ => []

def variableNamesItems : List Value → List String
  | [] => []
  | item :: rest => variableNames item ++ variableNamesItems rest

def variableNamesEntries : List (String × Value) → List String
  | [] => []
  | (_, value) :: rest => variableNames value ++ variableNamesEntries rest

end

end Value

/-- The values of variables by name, without the dollar sign. -/
abbrev Variables := Entries Const

/-- The type of a variable as a document writes it. -/
inductive WrittenType where
  | named (name : String) (nullable : Bool)
  | list (item : WrittenType) (nullable : Bool)
deriving Repr, DecidableEq

namespace WrittenType

def nullable : WrittenType → Bool
  | named _ nullable => nullable
  | list _ nullable => nullable

def text : WrittenType → String
  | named name nullable => name ++ (if nullable then "" else "!")
  | list item nullable => "[" ++ item.text ++ "]" ++ (if nullable then "" else "!")

end WrittenType

/-- An argument of a field or directive. -/
structure Argument where
  name : Located String
  value : Located Value
deriving Repr

structure Directive where
  location : Location
  name : String
  arguments : List Argument
deriving Repr

/-- A field without its selection; its location is that of its alias or name. -/
structure FieldHead where
  location : Location
  aliasName : Option String
  name : String
  arguments : List Argument
  directives : List Directive
deriving Repr

namespace FieldHead

/-- The key of the field in the response. -/
def responseKey (f : FieldHead) : String := f.aliasName.getD f.name

end FieldHead

inductive Selection where
  /-- A field; the selection is empty when none is written. -/
  | field (head : FieldHead) (selection : List Selection)
  /-- The selection of a named fragment. -/
  | spread (location : Location) (fragment : String) (directives : List Directive)
  /-- A selection in place, perhaps under a type condition. -/
  | inline (condition : Option (Located String)) (directives : List Directive) (selection : List Selection)
deriving Repr

structure VariableDefinition where
  location : Location
  name : String
  type : WrittenType
  default : Option Const
deriving Repr

structure OperationDefinition where
  location : Location
  kind : OperationKind
  variableDefinitions : List VariableDefinition
  selection : List Selection
deriving Repr

structure FragmentDefinition where
  location : Location
  name : String
  condition : Located String
  selection : List Selection
deriving Repr

/-- A document has one operation without a name or any number of named ones. -/
inductive Operations where
  | anonymous (operation : OperationDefinition)
  | named (operations : Entries OperationDefinition)
deriving Repr

structure Document where
  operations : Operations
  fragments : Entries FragmentDefinition
deriving Repr

end GraphQL
