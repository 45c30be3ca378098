import GraphQL.Script.Operation
import GraphQL.Session
import GraphQL.Proofs.Registry.Takeover
import GraphQL.Proofs.Execution.ErrorPlaces
import GraphQL.Proofs.Execution.ObjectKeys
import GraphQL.Proofs.Execution.Conformance
import GraphQL.Proofs.Execution.Independence
import GraphQL.Proofs.Plan.Inlining
import GraphQL.Proofs.Execution.Narrowing
import GraphQL.Proofs.Execution.Panics
import GraphQL.Proofs.Execution.Serial
import GraphQL.Proofs.Execution.Unguarded
import GraphQL.Proofs.Execution.RecutItems
import GraphQL.Proofs.Execution.Cancellation
import GraphQL.Proofs.Input.Reading
import GraphQL.Proofs.Execution.Vetting
import GraphQL.Proofs.Input.Likeness
import GraphQL.Proofs.Input.Substitution
import GraphQL.Proofs.Input.Omission
import GraphQL.Proofs.Input.Sources
import GraphQL.Proofs.Input.RoundTrip
import GraphQL.Proofs.Footing.Input
import GraphQL.Proofs.Footing.Runs
import GraphQL.Proofs.Registry.Kinship
import GraphQL.Proofs.Footing.Building
import GraphQL.Proofs.Footing.Foreseeing
import GraphQL.Proofs.Registry.Traces
import GraphQL.Proofs.Schema.Races
import GraphQL.Proofs.Schema.Calls
import GraphQL.Proofs.Schema.Failures
import GraphQL.Proofs.Schema.Foresight
import GraphQL.Proofs.Schema.ArgumentOrder
import GraphQL.Proofs.Subscription.Delivery
import GraphQL.Proofs.Subscription.Shaping
import GraphQL.Proofs.Subscription.Draining
import GraphQL.Proofs.Subscription.Refusals
import GraphQL.Proofs.Registry.Navigation
import GraphQL.Proofs.Execution.Complexity
import GraphQL.Proofs.Execution.Sharing
import GraphQL.Proofs.Plan.Cycles
import GraphQL.Proofs.Plan.Variables
import GraphQL.Proofs.Registry.Cycles
import GraphQL.Proofs.Registry.Reaching
import GraphQL.Proofs.Registry.Unions
import GraphQL.Proofs.Schema.Keys
