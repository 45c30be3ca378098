import GraphQL.Const

/-!
# Configuration

Limits on requests and memory, and the settings of the plan cache. A limit of zero means unlimited.
A configuration is read from JSON: each group is an object with no unknown keys, or an array of its
fields in order, and what is left out takes its default. Numbers are words of sixty-four bits.
-/

namespace GraphQL

/-- The greatest count that a word holds, where sums and products of scores stop. -/
def maxWord : Nat := Nat.pow 2 64 - 1

def saturatingAdd (a b : Nat) : Nat := min maxWord (a + b)

def saturatingMul (a b : Nat) : Nat := min maxWord (a * b)

/-- Guards on every executed operation. -/
structure QueryLimits where
  maxDepth : Nat := 0
  maxFields : Nat := 0
  maxAliases : Nat := 0
  maxComplexity : Nat := 0
  maxArraySize : Nat := 0
  maxConcurrentResolvers : Nat := 0
  /-- The number of items that a list is assumed to have when complexity is scored. -/
  listSizeEstimate : Nat := 10
deriving DecidableEq, Repr

/-- Limits on payloads, buffers and connections. -/
structure MemoryLimits where
  maxBodySize : Nat := 0
  maxVariableSize : Nat := 0
  subscriptionBufferSize : Nat := 0
  maxSubscriptionsPerConnection : Nat := 0
deriving DecidableEq, Repr

structure PlanCacheConfig where
  enabled : Bool := true
  limit : Nat := 1000
deriving DecidableEq, Repr

structure Config where
  limits : QueryLimits := {}
  memory : MemoryLimits := {}
  planCache : PlanCacheConfig := {}
deriving DecidableEq, Repr

/-- Whether a size is above a limit that is set. -/
def exceeds (size limit : Nat) : Bool := limit > 0 && size > limit

inductive PayloadError where
  | bodyTooLarge (size max : Nat)
  | variablesTooLarge (size max : Nat)
deriving DecidableEq, Repr

def PayloadError.message : PayloadError → String
  | bodyTooLarge size max => s!"request body of {size} bytes exceeds the maximum allowed size of {max} bytes"
  | variablesTooLarge size max => s!"variables of {size} bytes exceed the maximum allowed size of {max} bytes"

namespace MemoryLimits

def checkBody (limits : MemoryLimits) (size : Nat) : Except PayloadError Unit :=
  if exceeds size limits.maxBodySize then .error (.bodyTooLarge size limits.maxBodySize) else .ok ()

def checkVariables (limits : MemoryLimits) (size : Nat) : Except PayloadError Unit :=
  if exceeds size limits.maxVariableSize then .error (.variablesTooLarge size limits.maxVariableSize) else .ok ()

end MemoryLimits

namespace Config

/-- The settings of a group by the names of its fields: from an object without other keys, or from an
array no longer than the fields. -/
def group (fields : List String) : Const → Option (Entries Const)
  | .object entries => if entries.all fun (key, _) => fields.contains key then some entries else none
  | .list items => if items.length ≤ fields.length then some (fields.zip items) else none
  | _ => none

/-- A setting read by `read`, or its default when it is left out. -/
def setting {α : Type} (entries : Entries Const) (name : String) (default : α) (read : Const → Option α) :
    Option α :=
  match Entries.find? name entries with
  | none => some default
  | some value => read value

def readWord : Const → Option Nat
  | .number (.integer n) => if 0 ≤ n then some n.toNat else none
  | _ => none

def readBool : Const → Option Bool
  | .boolean b => some b
  | _ => none

def readLimits (value : Const) : Option QueryLimits := do
  let entries ← group ["max_depth", "max_fields", "max_aliases", "max_complexity", "max_array_size",
    "max_concurrent_resolvers", "list_size_estimate"] value
  let word (name : String) (default : Nat) := setting entries name default readWord
  return {
    maxDepth := ← word "max_depth" 0
    maxFields := ← word "max_fields" 0
    maxAliases := ← word "max_aliases" 0
    maxComplexity := ← word "max_complexity" 0
    maxArraySize := ← word "max_array_size" 0
    maxConcurrentResolvers := ← word "max_concurrent_resolvers" 0
    listSizeEstimate := ← word "list_size_estimate" 10 }

def readMemory (value : Const) : Option MemoryLimits := do
  let entries ← group ["max_body_size", "max_variable_size", "subscription_buffer_size",
    "max_subscriptions_per_connection"] value
  let word (name : String) := setting entries name 0 readWord
  return {
    maxBodySize := ← word "max_body_size"
    maxVariableSize := ← word "max_variable_size"
    subscriptionBufferSize := ← word "subscription_buffer_size"
    maxSubscriptionsPerConnection := ← word "max_subscriptions_per_connection" }

def readPlanCache (value : Const) : Option PlanCacheConfig := do
  let entries ← group ["enabled", "limit"] value
  return { enabled := ← setting entries "enabled" true readBool, limit := ← setting entries "limit" 1000 readWord }

/-- Reads a configuration, or `none` when it is not one. -/
def ofConst? (value : Const) : Option Config := do
  let entries ← group ["limits", "memory", "operation_cache"] value
  return {
    limits := ← setting entries "limits" {} readLimits
    memory := ← setting entries "memory" {} readMemory
    planCache := ← setting entries "operation_cache" {} readPlanCache }

end Config

end GraphQL
