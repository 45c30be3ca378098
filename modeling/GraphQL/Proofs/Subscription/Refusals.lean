import GraphQL.Proofs.Subscription.Exchange

/-!
# Calls that fail

A call that does not start its subscription may fail at each of its steps, with others in between. Until it enters its
stream it touches neither the connection nor the streams of others, and a call that has entered its stream does not fail
any more: so nothing that a failing call does shows, `Exchange.failing_unnoticed`.
-/

namespace GraphQL

namespace SubscriptionStage

variable {stage next : SubscriptionStage} {s s' : Session}

/-- Whether the stream of a call is entered. -/
def isEntered : SubscriptionStage → Bool
  | entered _ => true
  | _ => false

/-- Only entering a stream changes the connection or other streams. -/
theorem Steps.unnoticed (steps : stage.Steps s next s') (open' : next.isEntered = false) :
    s'.connection = s.connection ∧ s'.streams = s.streams ∧ stage.entry? next = none := by
  have silent : stage.entry? next = none := by
    cases next with
    | entered number => cases open'
    | _ => cases stage <;> rfl
  cases steps with
  | enters connected room => cases open'
  | _ => exact ⟨rfl, rfl, silent⟩

/-- A call that has come to its end stays there. -/
theorem Steps.rested (steps : stage.Steps s next s') (done : stage.answer?.isSome = true) : next = stage := by
  cases steps with
  | rests => rfl
  | fails ongoing => simp [ongoing] at done
  | _ => cases done

end SubscriptionStage

namespace Exchange

variable {t t' : Exchange} {k : Nat}

/-- Nothing has changed but the schema and a call. -/
structure Unnoticed (k : Nat) (t t' : Exchange) : Prop where
  /-- Nothing is registered, and nothing is removed. -/
  connection : t'.session.connection = t.session.connection
  /-- No stream is cancelled. -/
  streams : t'.session.streams = t.session.streams
  /-- That goes for streams, too, that have been opened and not entered yet. -/
  others : ∀ j, j ≠ k → t'.calls[j]? = t.calls[j]?
  entered : t'.entered = t.entered
  inHand : t'.inHand = t.inHand
  deliveries : t'.deliveries = t.deliveries

theorem unnoticed_advanced {stage next : SubscriptionStage} {session : Session} (steps : stage.Steps t.session next session)
    (open' : next.isEntered = false) : t.Unnoticed k (t.advanced k stage next session) := by
  obtain ⟨connection, streams, silent⟩ := steps.unnoticed open'
  refine ⟨connection, streams, fun j other => List.getElem?_set_ne other.symm, ?_, rfl, rfl⟩
  rw [advanced, silent]
  exact List.append_nil _

/-- The end of a call is the end of it. -/
theorem rested_after {stage : SubscriptionStage} (at' : t.calls[k]? = some stage) (done : stage.answer?.isSome = true)
    (move : ExchangeMove) : (t.after move).calls[k]? = some stage := by
  have within := (List.getElem?_eq_some_iff.1 at').1
  have mapped (f : ClientStream → ClientStream) : (t.calls.map (·.onClient f))[k]? = some stage := by
    rw [List.getElem?_map, at']
    cases stage with
    | opened name place client => cases done
    | _ => rfl
  have moves := t.moves_after move
  generalize t.after move = t' at moves
  cases moves with
  | begins => exact (List.getElem?_append_left within).trans at'
  | @advances _ j other next session own at'' steps =>
    by_cases here : j = k
    · subst here
      cases at''.symm.trans at'
      cases steps.rested done
      exact List.getElem?_set_self within
    · exact (List.getElem?_set_ne here).trans at'
  | feeds => exact mapped _
  | closes => exact mapped _
  | _ => exact at'

theorem rested_afterAll {stage : SubscriptionStage} (at' : t.calls[k]? = some stage) (done : stage.answer?.isSome = true)
    (moves : List ExchangeMove) : (t.afterAll moves).calls[k]? = some stage := by
  induction moves generalizing t with
  | nil => exact at'
  | cons move rest ih => exact ih (rested_after at' done move)

/-- A call that fails in the end, at whatever stage and whatever is done meanwhile, changes nothing in any of its moves:
what was registered stays so, and no subscription is cancelled, not even the one that runs under the id of the call. -/
theorem failing_unnoticed {move : ExchangeMove} (own : t.call? move = some k) {later : List ExchangeMove}
    {stage : SubscriptionStage} (ends : ((t.after move).afterAll later).calls[k]? = some stage)
    (fails : stage.hasFailed = true) : t.Unnoticed k (t.after move) := by
  have unentered {next : SubscriptionStage} (at' : (t.after move).calls[k]? = some next) : next.isEntered = false := by
    cases next with
    | entered number =>
      cases ends.symm.trans (rested_afterAll at' rfl later)
      cases fails
    | _ => rfl
  have moves := t.moves_after move
  generalize t.after move = t' at moves unentered
  cases moves with
  | rests => exact ⟨rfl, rfl, fun _ _ => rfl, rfl, rfl, rfl⟩
  | begins name id request =>
    cases own
    refine ⟨rfl, rfl, fun j other => ?_, rfl, rfl, rfl⟩
    rcases Nat.lt_or_gt_of_ne other with before | beyond
    · exact List.getElem?_append_left before
    · have more : (t.calls ++ [SubscriptionStage.requested name id request]).length ≤ j := by
        rw [List.length_append]
        exact beyond
      rw [List.getElem?_eq_none (Nat.le_of_lt beyond)]
      exact List.getElem?_eq_none more
  | advances own' at' steps =>
    cases own.symm.trans own'
    exact unnoticed_advanced steps (unentered (List.getElem?_set_self (List.getElem?_eq_some_iff.1 at').1))
  | _ => cases own

end Exchange

namespace ClockSubscription

/-- While a subscription runs under an id, another that is started there fails. -/
def failing : List ExchangeMove :=
  [.begin "first" "1" request, .step 0, .answer 0 ⟨.ok (.ok opened), [], false⟩, .step 0, .begin "second" "1" request, .step 1]

def noClock : ResponseError := { message := "no clock", code := .resolverError }

theorem clock_unnoticed :
    let t := (Exchange.start schema).afterAll failing
    let move : ExchangeMove := .answer 1 ⟨.ok (.error noClock), [], false⟩
    t.call? move = some 1 ∧
      ((t.after move).afterAll [.feed 1]).calls[1]? = some (.refused noClock) ∧
      t.session.active = [("1", 1)] ∧ t.Unnoticed 1 (t.after move) := by
  intro t move
  have ends : ((t.after move).afterAll [.feed 1]).calls[1]? = some (.refused noClock) := rfl
  exact ⟨rfl, ends, rfl, Exchange.failing_unnoticed rfl ends rfl⟩

end ClockSubscription

namespace Session

/-- A call that is made alone and fails. -/
theorem connectionSubscribe_failing (name key : String) (request : Request) (s : Session)
    (fails : ((connectionSubscribe name key request).run s).1 ≠ some (.ok (.ok ()))) :
    ((connectionSubscribe name key request).run s).2.connection = s.connection ∧
      ((connectionSubscribe name key request).run s).2.streams = s.streams := by
  have alone := SubscriptionStage.alone_requested name key request s
  rw [SubscriptionStage.run_alone] at alone
  have first := (SubscriptionStage.requested name key request).steps_step s
  generalize (SubscriptionStage.requested name key request).step.run s = one at first alone
  have second := one.1.steps_step one.2
  generalize one.1.step.run one.2 = two at second alone
  have third := two.1.steps_step two.2
  generalize two.1.step.run two.2 = three at third alone
  have open' : three.1.isEntered = false := by
    cases at' : three.1 with
    | entered number =>
      have answered := congrArg Prod.fst alone
      rw [Prod.map_fst, Prod.map_fst, at'] at answered
      exact absurd (Option.some.inj answered).symm fails
    | _ => rfl
  have state : three.2 = ((connectionSubscribe name key request).run s).2 := congrArg Prod.snd alone
  have before {stage next : SubscriptionStage} {s s' : Session} (steps : stage.Steps s next s')
      (open' : next.isEntered = false) : stage.isEntered = false := by
    cases stage with
    | entered number => cases steps.rested rfl; cases open'
    | _ => rfl
  have open₂ := before third open'
  have open₁ := before second open₂
  rw [← state]
  obtain ⟨connection₃, streams₃, -⟩ := third.unnoticed open'
  obtain ⟨connection₂, streams₂, -⟩ := second.unnoticed open₂
  obtain ⟨connection₁, streams₁, -⟩ := first.unnoticed open₁
  exact ⟨connection₃.trans (connection₂.trans connection₁), streams₃.trans (streams₂.trans streams₁)⟩

end Session

end GraphQL
