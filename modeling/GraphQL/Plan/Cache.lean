import GraphQL.Plan
import GraphQL.Plan.Error

/-!
# The plan cache

Compiled requests are kept under a key made of operation name and query text, failures included. The
cache may be bounded, and it notes how it was used.
-/

namespace GraphQL

/-- What compiling a request came to. -/
abbrev CompileOutcome := Except CompileError Plan

inductive CacheEvent where
  | hit
  | miss
  | set
  | clear
deriving DecidableEq, Repr

def CacheEvent.text : CacheEvent → String
  | hit => "hit"
  | miss => "miss"
  | set => "set"
  | clear => "clear"

structure PlanCache where
  /-- The greatest number of plans that are kept. -/
  capacity : Option Nat
  plans : Entries CompileOutcome := []
  /-- How the cache was used, latest first. -/
  log : List CacheEvent := []

namespace PlanCache

/-- The key of a request. -/
def key (operationName : Option String) (query : String) : String := operationName.getD "" ++ "\n" ++ query

def find? (cache : PlanCache) (key : String) : Option CompileOutcome × PlanCache :=
  match Entries.find? key cache.plans with
  | some outcome => (some outcome, { cache with log := .hit :: cache.log })
  | none => (none, { cache with log := .miss :: cache.log })

/-- Keeps an outcome; the oldest ones give way when there are too many. -/
def insert (cache : PlanCache) (key : String) (outcome : CompileOutcome) : PlanCache :=
  let plans := Entries.insert key outcome cache.plans
  let excess := match cache.capacity with
    | some capacity => plans.length - max capacity 1
    | none => 0
  { cache with plans := plans.drop excess, log := .set :: cache.log }

def clear (cache : PlanCache) : PlanCache := { cache with plans := [], log := .clear :: cache.log }

end PlanCache

end GraphQL
