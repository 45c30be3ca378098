import GraphQL.Error

/-!
# Responses

The data of an executed selection, its keys in selection order, and the errors in the order in which
they happened. A response prints as compact JSON; `errors` is left out when it is empty.
-/

namespace GraphQL

inductive ResponseValue where
  | null
  | const (c : Const)
  | list (items : List ResponseValue)
  | object (fields : List (String × ResponseValue))
deriving Repr

namespace ResponseValue

instance : Inhabited ResponseValue := ⟨null⟩

def isNull : ResponseValue → Bool
  | null => true
  | const c => c.isNull
  | _ => false

/-- The value of an object key. -/
def get? (value : ResponseValue) (key : String) : Option ResponseValue :=
  match value with
  | object fields => Entries.find? key fields
  | _ => none

mutual

/-- The value as a constant. -/
def toConst : ResponseValue → Const
  | null => .null
  | const c => c
  | list items => .list (toConstItems items)
  | object fields => .object (toConstFields fields)

def toConstItems : List ResponseValue → List Const
  | [] => []
  | item :: rest => toConst item :: toConstItems rest

def toConstFields : List (String × ResponseValue) → List (String × Const)
  | [] => []
  | (key, value) :: rest => (key, toConst value) :: toConstFields rest

end

def json (value : ResponseValue) : String := value.toConst.json

end ResponseValue

/-- The result of an operation or of one event of a subscription. -/
structure Response where
  data : ResponseValue
  errors : List ResponseError
deriving Repr

namespace Response

/-- The response of a request that failed as a whole: an empty object and one error. -/
def ofError (e : ResponseError) : Response := ⟨.object [], [e]⟩

def isOk (r : Response) : Bool := r.errors.isEmpty

/-- The response as JSON text. -/
def json (r : Response) : String :=
  let errors := if r.errors.isEmpty then [] else [("errors", Const.list (r.errors.map (·.toConst)))]
  (Const.object (("data", r.data.toConst) :: errors)).json

end Response

end GraphQL
