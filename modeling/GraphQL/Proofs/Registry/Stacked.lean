import GraphQL.Proofs.Registry.Settled

/-!
# Describing with a build stack

A description goes into the types that the type needs, and these into others. `Host.describeTo` is that recursion
as it is carried out: the types being described are on a stack that is shared by all calls, each call pushes its type
and pops it again however building ended, and nothing is known of the end of the recursion, so that calls nest to a
given depth and what a deeper call would do is left open. No call is deeper than there are types outside the stack,
and the stack is always left as it was found: that is `Host.describeWithin`, which is handed the stack and returns none.
-/

namespace GraphQL

/-- The registry, with the types that are being described. -/
structure Workshop where
  registry : Registry
  stack : List HostId

abbrev WorkshopM := ExceptT RegistrationError (StateM Workshop)

namespace WorkshopM

variable {α : Type}

/-- A computation that only concerns the registry. -/
def onRegistry (x : RegistryM α) : WorkshopM α := ExceptT.mk do
  let workshop ← get
  let (result, registry) := x.run.run workshop.registry
  set { workshop with registry }
  return result

/-- What a computation comes to, a failure included. -/
def attempt (x : WorkshopM α) : WorkshopM (Except RegistrationError α) := ExceptT.lift x.run

def push (id : HostId) : WorkshopM Unit := modify fun workshop => { workshop with stack := id :: workshop.stack }

def pop : WorkshopM Unit := modify fun workshop => { workshop with stack := workshop.stack.tail }

theorem outcome_onRegistry (x : RegistryM α) (r : Registry) (stack : List HostId) :
    outcome (onRegistry x) ⟨r, stack⟩ = ((outcome x r).1, ⟨(outcome x r).2, stack⟩) := rfl

theorem outcome_attempt (x : WorkshopM α) (w : Workshop) :
    outcome (attempt x) w = (.ok (outcome x w).1, (outcome x w).2) := rfl

theorem outcome_push (id : HostId) (r : Registry) (stack : List HostId) :
    outcome (push id) ⟨r, stack⟩ = (.ok (), ⟨r, id :: stack⟩) := rfl

theorem outcome_pop (id : HostId) (r : Registry) (stack : List HostId) :
    outcome pop ⟨r, id :: stack⟩ = (.ok (), ⟨r, stack⟩) := rfl

end WorkshopM

namespace Host

open WorkshopM

/-- Describes a type as long as calls nest no deeper than given; what a deeper call does is left open. -/
def describeTo (host : Host) (beyond : NamedType → WorkshopM TypeDescriptor) :
    Nat → NamedType → WorkshopM TypeDescriptor
  | 0, type => beyond type
  | depth + 1, type => do
    let workshop ← get
    match workshop.registry.find? type with
    | some descriptor => return descriptor
    | none =>
      match workshop.registry.scalar? type with
      | some scalar => onRegistry (host.insert ⟨type, scalar.name, scalar.description, .scalar (.custom scalar)⟩)
      | none =>
        match type with
        | .builtin builtin =>
          onRegistry (host.insert ⟨type, builtin.scalarName, none, .scalar (.builtin builtin)⟩)
        | .host id =>
          if id ∈ workshop.stack then throw (.recursiveEmbedding (host.typeName type))
          else if known : id < host.types.length then
            push id
            let built ← attempt (build (fun part => host.describeTo beyond depth (.host part)) id host.types[id])
            pop
            onRegistry (host.insert (← built))
          else throw (.unsupportedType "" "it is not a type of the application")

/-- A computation on the workshop does what one on the registry does, and leaves a stack as it finds it. -/
def Mirrors (stack : List HostId) (α : Type) (x : RegistryM α) (x' : WorkshopM α) : Prop :=
  ∀ r, outcome x' ⟨r, stack⟩ = ((outcome x r).1, ⟨(outcome x r).2, stack⟩)

variable {stack : List HostId} {α β : Type}

theorem mirrors_lift (result : Except RegistrationError α) : Mirrors stack α (liftM result) (liftM result) := by
  intro r
  rw [outcome_lift, outcome_lift]

theorem Mirrors.bind {x : RegistryM α} {x' : WorkshopM α} {f : α → RegistryM β} {f' : α → WorkshopM β}
    (first : Mirrors stack α x x') (next : ∀ a, Mirrors stack β (f a) (f' a)) :
    Mirrors stack β (x >>= f) (x' >>= f') := by
  intro r
  rw [outcome_bind, outcome_bind, first r]
  cases outcome x r with
  | mk result u =>
    cases result with
    | error e => rfl
    | ok a => exact next a u

theorem relates_mirrors : Relates (Mirrors stack) where
  pure _ _ := rfl
  fail _ _ _ _ _ := rfl
  lift result _ := mirrors_lift result
  bind := Mirrors.bind

/-- Describing nests no deeper than there are types outside the stack, and leaves the stack as it is. -/
theorem describeTo_mirrors {host : Host} (beyond : NamedType → WorkshopM TypeDescriptor) {depth : Nat}
    {stack : List HostId} (enough : host.remaining stack < depth) (type : NamedType) :
    Mirrors stack TypeDescriptor (host.describeWithin stack type) (host.describeTo beyond depth type) := by
  induction depth generalizing stack type with
  | zero => omega
  | succ depth ih =>
    intro r
    rw [outcome_describeWithin, describeTo, outcome_bind, outcome_get]
    simp only
    cases r.find? type with
    | some descriptor => rfl
    | none =>
      cases r.scalar? type with
      | some scalar => exact outcome_onRegistry _ _ _
      | none =>
        cases type with
        | builtin builtin => exact outcome_onRegistry _ _ _
        | host id =>
          simp only
          by_cases inside : id ∈ stack
          · rw [if_pos inside, if_pos inside]
            rfl
          · by_cases known : id < host.types.length
            · have fewer := Host.remaining_cons_lt known inside
              have building := relates_mirrors.build (fun part => host.describeWithin (id :: stack) (.host part))
                (fun part => host.describeTo beyond depth (.host part)) id host.types[id]
                (fun part _ => ih (by omega) (.host part)) r
              rw [if_neg inside, if_neg inside, dif_pos known, dif_pos known]
              cases built : outcome
                (build (fun part => host.describeWithin (id :: stack) (.host part)) id host.types[id]) r with
              | mk result u =>
                rw [built] at building
                -- the stack is restored before it is known whether building succeeded
                have inserted : Mirrors stack TypeDescriptor (liftM result >>= host.insert)
                    (liftM result >>= fun d => onRegistry (host.insert d)) :=
                  (mirrors_lift result).bind fun d r => outcome_onRegistry _ r stack
                rw [outcome_bind_of_ok (outcome_push _ _ _), outcome_bind_of_ok (outcome_attempt _ _), building]
                rw [outcome_bind_of_ok (outcome_pop _ _ _), inserted u]
                rw [outcome_bind, outcome_lift, outcome_bind, built]
            · rw [if_neg inside, if_neg inside, dif_neg known, dif_neg known]
              rfl

end Host

end GraphQL
