import GraphQL.Config
import GraphQL.Error

/-!
# Limits

The guards that a request passes while it runs, and the scorer of complexity. A guard compares a
measure with its limit and says which of the two was too large; scores are words that stop at the
greatest one.
-/

namespace GraphQL

inductive LimitError where
  | depth (depth max : Nat)
  | fields (count max : Nat)
  | aliases (count max : Nat)
  | complexity (complexity max : Nat)
deriving DecidableEq, Repr

namespace LimitError

def message : LimitError → String
  | .depth n max => s!"query depth {n} exceeds maximum allowed depth of {max}"
  | .fields n max => s!"selection of {n} fields exceeds maximum allowed fields of {max}"
  | .aliases n max => s!"{n} aliases exceeds maximum allowed aliases of {max}"
  | .complexity n max => s!"query complexity {n} exceeds maximum allowed complexity of {max}"

def toResponseError (e : LimitError) : ResponseError := { message := e.message, code := .limitExceeded }

end LimitError

namespace QueryLimits

/-- A measure within a limit, or the error made of both. -/
def guardWith (size max : Nat) (error : Nat → Nat → LimitError) : Except LimitError Unit :=
  if exceeds size max then .error (error size max) else .ok ()

def checkDepth (limits : QueryLimits) (depth : Nat) : Except LimitError Unit :=
  guardWith depth limits.maxDepth .depth

def checkFields (limits : QueryLimits) (count : Nat) : Except LimitError Unit :=
  guardWith count limits.maxFields .fields

def checkAliases (limits : QueryLimits) (count : Nat) : Except LimitError Unit :=
  guardWith count limits.maxAliases .aliases

def checkComplexity (limits : QueryLimits) (complexity : Nat) : Except LimitError Unit :=
  guardWith complexity limits.maxComplexity .complexity

/-- The items of a list that a response keeps. -/
def keepItems {α : Type} (limits : QueryLimits) (items : List α) : List α :=
  if limits.maxArraySize > 0 then items.take limits.maxArraySize else items

theorem mem_of_mem_keepItems {α : Type} {limits : QueryLimits} {items : List α} {a : α}
    (h : a ∈ limits.keepItems items) : a ∈ items := by
  unfold keepItems at h
  split at h
  · exact List.mem_of_mem_take h
  · exact h

end QueryLimits

/-- Scores fields by the names of their type and field, and lists by item score and estimated size. -/
structure Scorer where
  field : String → String → Nat
  list : Nat → Nat → Nat

/-- Every field costs one, and a list its item score times its size. -/
def Scorer.default : Scorer := ⟨fun _ _ => 1, saturatingMul⟩

end GraphQL
