import GraphQL.Document
import GraphQL.Document.Error
import GraphQL.Error
import GraphQL.Registry.Error

/-!
# Compile errors

Why a request has no plan. Such an error is found before any resolver runs.
-/

namespace GraphQL

inductive CompileError where
  | document (error : DocumentError)
  | unknownOperation (name : String)
  | ambiguousOperation
  | missingOperation
  | unknownFragment (name : String) (location : Location)
  | fragmentCycle (name : String) (location : Location)
  | unknownField (field parent : String) (location : Location)
  | unknownArgument (argument parent field : String) (location : Location)
  | duplicateAlias (key parent : String) (location : Location)
  | unexpectedSelection (field type : String) (location : Location)
  | missingSelection (field type : String) (location : Location)
  | invalidTypeCondition (condition parent : String) (location : Location)
  | undefinedVariable (name : String) (location : Location)
  | unknownDirective (name : String) (location : Location)
  | missingDirectiveArgument (name : String) (location : Location)
  | subscriptionRootFields (name : String) (count : Nat) (location : Location)
  | wrongEntryPoint (kind : OperationKind) (name entryPoint : String)
  | registration (error : RegistrationError)
deriving DecidableEq, Repr

namespace CompileError

def message : CompileError → String
  | document error => error.message
  | unknownOperation name => s!"unknown operation named {name}"
  | ambiguousOperation => "an operation name is required when the document contains more than one operation"
  | missingOperation => "the document contains no operation"
  | unknownFragment name _ => s!"unknown fragment {name}"
  | fragmentCycle name _ => s!"fragment {name} references itself"
  | unknownField field parent _ => s!"unknown field {field} on type {parent}"
  | unknownArgument argument parent field _ => s!"unknown argument {argument} on field {parent}.{field}"
  | duplicateAlias key parent _ => s!"duplicate alias {key} in selection of {parent}"
  | unexpectedSelection field type _ => s!"field {field} of type {type} must not have a selection"
  | missingSelection field type _ => s!"field {field} of type {type} must have a selection of subfields"
  | invalidTypeCondition condition parent _ => s!"fragment on {condition} cannot be spread within {parent}"
  | undefinedVariable name _ => s!"variable ${name} is not defined"
  | unknownDirective name _ => s!"unknown directive @{name}"
  | missingDirectiveArgument name _ => s!"directive @{name} requires an `if` argument"
  | subscriptionRootFields name count _ =>
    s!"subscription {name} must select exactly one root field, found {count}"
  | wrongEntryPoint kind name entryPoint => s!"{kind.text} {name} used in {entryPoint}"
  | registration error => error.message

def locations : CompileError → List Location
  | document error => error.locations
  | unknownFragment _ l | fragmentCycle _ l | unknownField _ _ l | unknownArgument _ _ _ l | duplicateAlias _ _ l
  | unexpectedSelection _ _ l | missingSelection _ _ l | invalidTypeCondition _ _ l | undefinedVariable _ l
  | unknownDirective _ l | missingDirectiveArgument _ l | subscriptionRootFields _ _ l => [l]
  | unknownOperation _ | ambiguousOperation | missingOperation | wrongEntryPoint .. | registration _ => []

def code : CompileError → ErrorCode
  | document _ | unknownOperation _ | ambiguousOperation | missingOperation => .operationParsingError
  | registration _ => .internalServerError
  | _ => .operationValidationError

def toResponseError (e : CompileError) : ResponseError :=
  { message := e.message, code := e.code, locations := e.locations }

end CompileError

end GraphQL
