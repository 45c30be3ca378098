import GraphQL.Input.Parse
import GraphQL.Operation

/-!
# Arguments

The arguments written at a field become one input value for each parameter of its operation. In struct
mode they are the entries of a single object, in the other modes each parameter takes the first
argument of its name. Nothing is read before all are bound.
-/

namespace GraphQL

namespace OperationDescriptor

/-- The input value of each parameter, in order, with the type to read it at. -/
def bindArguments (operation : OperationDescriptor) (arguments : List (String × Value)) :
    List (TypeRef × InputValue) :=
  match operation.binding with
  | .struct type _ =>
    if arguments.isEmpty && type.nullable then [(type, .absent)]
    else [(type, .fields (Entries.ofList (arguments.map fun (name, value) => (name, .literal value))))]
  | .arguments params =>
    params.map fun param =>
      match Entries.find? param.name arguments with
      | some value => (param.type, .literal value)
      | none => (param.type, .absent)

/-- Reads the arguments, the first failure in the order of the parameters counting. -/
def parseArguments (operation : OperationDescriptor) (context : InputContext) (arguments : List (String × Value)) :
    InputM (List Resolved) :=
  (operation.bindArguments arguments).mapM fun (type, value) => context.parse type value

end OperationDescriptor

end GraphQL
