import GraphQL.Const
import GraphQL.Location

/-!
# Errors

Three kinds of trouble meet in a request. A `HostError` is what resolvers, parsers and validation
hooks report; a `Failure` is a host error or a panic; a `ResponseError` is an entry of the `errors`
of a response, with a code, locations and the path of the field that it nulled.
-/

namespace GraphQL

/-- An error of the host application: a message that reaches the client as it is, and extensions. -/
structure HostError where
  message : String
  extensions : List (String × Const) := []
deriving Repr

/-- How host code can fail to return. -/
inductive Failure where
  | error (e : HostError)
  | panic (message : String)
deriving Repr

/-- A failure with a message and no extensions. -/
def Failure.message (message : String) : Failure := .error { message }

inductive ErrorCode where
  | badRequest
  | internalServerError
  | operationParsingError
  | operationValidationError
  | variableError
  | resolverError
  | validationError
  | navigationError
  | limitExceeded
  | cancelled
deriving DecidableEq, Repr

namespace ErrorCode

def text : ErrorCode → String
  | badRequest => "BAD_REQUEST"
  | internalServerError => "INTERNAL_SERVER_ERROR"
  | operationParsingError => "OPERATION_PARSING_ERROR"
  | operationValidationError => "OPERATION_VALIDATION_ERROR"
  | variableError => "VARIABLE_ERROR"
  | resolverError => "RESOLVER_ERROR"
  | validationError => "VALIDATION_ERROR"
  | navigationError => "NAVIGATION_ERROR"
  | limitExceeded => "LIMIT_EXCEEDED"
  | cancelled => "CANCELLED"

def all : List ErrorCode :=
  [badRequest, internalServerError, operationParsingError, operationValidationError, variableError, resolverError,
    validationError, navigationError, limitExceeded, cancelled]

def ofText? (s : String) : Option ErrorCode := all.find? (·.text = s)

end ErrorCode

/-- A step of a response path: the response key of a field or the index of a list item. -/
inductive PathSegment where
  | key (name : String)
  | index (i : Nat)
deriving DecidableEq, Repr

/-- The way from the root of the response data to a field. -/
abbrev ErrorPath := List PathSegment

namespace ErrorPath

def root (key : String) : ErrorPath := [.key key]

def field (path : ErrorPath) (key : String) : ErrorPath := path ++ [.key key]

def index (path : ErrorPath) (i : Nat) : ErrorPath := path ++ [.index i]

/-- The segments with points between them. -/
def text (path : ErrorPath) : String :=
  ".".intercalate (path.map fun
    | .key name => name
    | .index i => toString i)

def toConst (path : ErrorPath) : Const :=
  .list (path.map fun
    | .key name => .string name
    | .index i => .int i)

end ErrorPath

/-- An entry of the errors of a response. -/
structure ResponseError where
  message : String
  code : ErrorCode
  locations : List Location := []
  path : Option ErrorPath := none
  extensions : List (String × Const) := []
deriving Repr

namespace ResponseError

/-- The error of an engine that finds itself in a state it should never reach. -/
def internal : ResponseError := { message := "Internal server error", code := .internalServerError }

/-- The error of a request whose cancellation was noticed. -/
def cancelled : ResponseError := { message := "Request was cancelled", code := .cancelled }

/-- An error of the host under a code. -/
def ofHost (e : HostError) (code : ErrorCode) : ResponseError :=
  { message := e.message, code, extensions := e.extensions }

def located (e : ResponseError) (location : Location) : ResponseError :=
  { e with locations := e.locations ++ [location] }

def within (e : ResponseError) (path : ErrorPath) : ResponseError := { e with path := some path }

/-- The entry of a response. Locations and path are left out when there are none, and the code comes
after all extensions but those that are themselves named `code`. -/
def toConst (e : ResponseError) : Const :=
  let location (l : Location) : Const := .object [("line", .int l.line), ("column", .int l.column)]
  let locations := if e.locations.isEmpty then [] else [("locations", Const.list (e.locations.map location))]
  let path := match e.path with
    | some path => [("path", path.toConst)]
    | none => []
  let extensions := e.extensions.filter fun (key, _) => key ≠ "code"
  .object ([("message", .string e.message)] ++ locations ++ path
    ++ [("extensions", .object (extensions ++ [("code", .string e.code.text)]))])

/-- The entry as JSON text. -/
def json (e : ResponseError) : String := e.toConst.json

end ResponseError

end GraphQL
