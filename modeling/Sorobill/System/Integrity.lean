/-
  Sorobill.System.Integrity
  ─────────────────────────
  **NOTHING DANGLES, AND NOTHING IS LOST**, whatever requests, jobs and ticks
  overlap, whatever the outside answers, and wherever executions stop.

    • `references_resolve` — every row, and every job that waits, refers to rows
      that are there;
    • `nothing_lost` — rows stay, with their keys, references and prices;
    • `retired_for_good` — a plan that is inactive takes no new subscription, an
      endpoint that is inactive no new delivery.
-/
import Sorobill.Model.Shop
import Sorobill.Model.Signatures
import Sorobill.System.Handlers

namespace Sorobill

open Effect
open Relational

/-! ## §1. A shop that opens. -/

namespace Shop

/-- A deployment on which scenarios are evaluated. -/
def deployment (testMode : Bool) : Deployment where
  cfg := cfg testMode
  sdk :=
    { Keypair := List UInt8
      fromPublicKey := fun publicKey => some publicKey.toUTF8.toList
      verify := fun keypair message signature => some (decide (signature = keypair ++ message))
      utf8 := fun s => s.toUTF8.toList
      base64 := fun s => s.toUTF8.toList }
  webhook := webhook.signing (fun _ _ => digest)
  indexer := ascii
  isUrl _ := true

/-- A call on day `n` that is answered, with fresh ids. -/
def answers (n : Nat) (freshIds : List String) : ServerEnv := { now := day n, freshIds }

/-- Calls on day `n` that draw no ids. -/
def answersAll (n times : Nat) : List (Choice ServerOperation ServerEnv) :=
  List.replicate times (.act 0 (answers n []))

/-- A call on day `n` that the network answers. -/
def networkAnswers (n : Nat) (network : Network) : Choice ServerOperation ServerEnv :=
  .act 0 { now := day n, network }

/-- A plan, an endpoint, and a subscription to the plan. -/
def opensShop : List (Choice ServerOperation ServerEnv) :=
  [.start (.createPlan
      { name := "Basic", amount := "10", interval := .DAILY, contractPlanId := some (.finite 1) }),
   .act 0 (answers 1 ["plan"]),
   .start (.createEndpoint ⟨"https://shop.example", "0123456789abcdef", [.PAYMENT_SUCCESS]⟩),
   .act 0 (answers 1 ["endpoint"]),
   .start (.billing (.createSubscription ⟨"plan", wallet.address⟩)),
   .act 0 (answers 1 []), .act 0 (answers 1 ["wallet"]), .act 0 (answers 1 []),
   .act 0 (answers 1 ["sub"]), .act 0 (answers 1 [])]

/-- A live cycle, up to the answer of the contract. -/
def chargesSub : List (Choice ServerOperation ServerEnv) :=
  [.start (.billing (.runInline "sub"))] ++ answersAll 2 2 ++ [.act 0 (answers 2 ["payment"])]
    ++ answersAll 2 2 ++ [networkAnswers 2 .account, networkAnswers 2 (.simulated none),
      networkAnswers 2 (.accepted "hash" (some .Paid)),
      networkAnswers 2 (.polled (.SUCCESS (some (.string "Paid"))) (day 2) [])]

/-- The payment is booked, and its event queued for delivery. -/
def booksPayment : List (Choice ServerOperation ServerEnv) :=
  answersAll 2 3 ++ [.act 0 (answers 2 ["event"]), .act 0 (answers 2 ["delivery"])]
    ++ answersAll 2 1

/-- The webhook worker has looked the delivery up. -/
def deliversEvent : List (Choice ServerOperation ServerEnv) :=
  .start (.deliver ⟨"webhook:delivery", "deliver", "delivery", 0⟩) :: answersAll 2 1

/-- The plan is deactivated, and somebody tries to subscribe. -/
def retiresPlan : List (Choice ServerOperation ServerEnv) :=
  .start (.deactivatePlan "plan") :: answersAll 2 1

def asksAgain : List (Choice ServerOperation ServerEnv) :=
  .start (.billing (.createSubscription ⟨"plan", wallet.address⟩)) :: answersAll 3 1

/-- The pool after a list of choices. -/
def played (testMode : Bool) (cs : List (Choice ServerOperation ServerEnv))
    (P : Pool ServerApi Server Unit) : Option (Pool ServerApi Server Unit) :=
  Pool.advance (runningServer (deployment testMode)) (fun _ _ _ => true) cs P

theorem moves_of_played {testMode : Bool} {cs : List (Choice ServerOperation ServerEnv)}
    {P P' : Pool ServerApi Server Unit} (h : played testMode cs P = some P') :
    Pool.Moves (runningServer (deployment testMode)) anyone (fun _ => True) P P' :=
  (Pool.advance_run (fun _ _ _ _ => trivial) h).moves

/-- The state after a list of choices, when every execution has ended. -/
def ended (testMode : Bool) (cs : List (Choice ServerOperation ServerEnv))
    (s : Server) : Option Server :=
  (played testMode cs ⟨s, []⟩).bind (fun P => if P.threads.isEmpty then some P.world else none)

theorem moves_of_ended {testMode : Bool} {cs : List (Choice ServerOperation ServerEnv)}
    {s s' : Server} (h : ended testMode cs s = some s') :
    Pool.Moves (runningServer (deployment testMode)) anyone (fun _ => True) ⟨s, []⟩ ⟨s', []⟩ := by
  obtain ⟨⟨w, ts⟩, hP, hstate⟩ := Option.bind_eq_some_iff.mp h
  split at hstate
  next hempty =>
    cases hstate
    rw [List.isEmpty_iff] at hempty
    subst hempty
    exact moves_of_played hP
  next => cases hstate

end Shop

open Shop

/-! ## §2. References. -/

/-- **Every reference resolves**, and the joins that the source takes for granted
find their rows. -/
structure Server.Resolves (s : Server) : Prop where
  subscriptions : ∀ x ∈ s.core.subscriptions, s.HasPlan x.planId ∧ s.HasWallet x.walletId
  withPlan : ∀ id, s.core.sub? id ≠ none → (s.core.sub? id).bind s.core.withPlan ≠ none
  payments : ∀ p ∈ s.core.payments, s.HasSubscription p.subscriptionId
  events : ∀ x ∈ s.core.hooks.events, ∀ id, x.paymentId = some id →
    ∃ p ∈ s.core.payments, p.id = id
  deliveries : ∀ x ∈ s.core.hooks.deliveries,
    (∃ event ∈ s.core.hooks.events, event.id = x.webhookEventId)
      ∧ ∃ endpoint ∈ s.core.hooks.endpoints, endpoint.id = x.webhookEndpointId
  withEvent : ∀ x ∈ s.core.hooks.deliveries, s.core.withEvent x ≠ none
  deliveryJobs : ∀ j ∈ s.core.hooks.queue.unfinished,
    ∃ x ∈ s.core.hooks.deliveries, x.id = j.2.data
  /-- `POST /billing/run` does not look the subscription up. -/
  billingJobs : ∀ j ∈ s.core.billingQueue.unfinished,
    j.2.name = "bill" ∨ s.HasSubscription j.2.data

/-- A row with the id is found. -/
theorem found_of_mem {ρ : Type} {Clash : ρ → ρ → Prop} {t : Table ρ Clash} {p : ρ → Bool} {r : ρ}
    (hr : r ∈ t) (hp : p r = true) : ∃ r', t.find? p = some r' := by
  cases h : t.find? p with
  | some r' => exact ⟨r', rfl⟩
  | none =>
      rw [Table.find?_eq_none_iff.mp h r hr] at hp
      cases hp

section Resolving

variable {d : Epoch} {s : Server}

theorem Announced.payment {type : WebhookEventType} {paymentId : Option String}
    {payload : JavaScript.JsValue} (h : Announced d.cfg s type paymentId payload) {id : String}
    (hid : paymentId = some id) : ∃ p ∈ s.core.payments, p.id = id := by
  cases h with
  | paid p mode hp _ _ => exact ⟨p, hp, Option.some.inj hid⟩
  | failed p retryCount now gracePeriodEndsAt hp _ _ => exact ⟨p, hp, Option.some.inj hid⟩
  | _ => cases hid

/-- **What is valid resolves.** -/
theorem Server.Valid.resolves (h : s.Valid d) : s.Resolves where
  subscriptions x hx :=
    have hrow := h.subscriptions x hx
    ⟨hrow.1, hrow.2.1⟩
  withPlan id hsome := by
    obtain ⟨x, hfound⟩ := Option.ne_none_iff_exists'.mp hsome
    obtain ⟨⟨plan, hplan, hplanId⟩, ⟨wallet, hwallet, hwalletId⟩, -⟩ :=
      h.subscriptions x (Table.find?_mem hfound).1
    obtain ⟨plan', hplan'⟩ := found_of_mem (p := (·.id == x.planId)) hplan (beq_iff_eq.mpr hplanId)
    obtain ⟨wallet', hwallet'⟩ :=
      found_of_mem (p := (·.id == x.walletId)) hwallet (beq_iff_eq.mpr hwalletId)
    -- both joins find a row
    rw [hfound, Option.bind_some]
    unfold World.withPlan
    rw [hplan', hwallet']
    nofun
  payments p hp := by
    obtain ⟨x, hx, hid, -⟩ := (h.payments p hp).price
    exact ⟨x, hx, hid⟩
  events x hx id hid := (h.events x hx).payment hid
  deliveries x hx := by
    obtain ⟨event, hevent, hid, endpoint, hendpoint, hid', -⟩ := h.deliveries x hx
    exact ⟨⟨event, hevent, hid⟩, endpoint, hendpoint, hid'⟩
  withEvent x hx := by
    obtain ⟨event, hevent, hid, endpoint, hendpoint, hid', -⟩ := h.deliveries x hx
    obtain ⟨event', hevent'⟩ :=
      found_of_mem (p := (·.id == x.webhookEventId)) hevent (beq_iff_eq.mpr hid)
    obtain ⟨endpoint', hendpoint'⟩ :=
      found_of_mem (p := (·.id == x.webhookEndpointId)) hendpoint (beq_iff_eq.mpr hid')
    unfold World.withEvent
    rw [hevent', hendpoint']
    nofun
  deliveryJobs := h.deliveryJobs
  billingJobs := h.billingJobs

end Resolving

/-- **No reference dangles in any state that the server reaches.** -/
theorem references_resolve (d : Deployment) (P : Pool ServerApi Server Unit)
    (h : ReachedBy d P) : P.world.Resolves :=
  h.valid.resolves

/-- A delivery waits for the worker. -/
theorem references_resolve_shop :
    ∃ P, ReachedBy (deployment false) P
      ∧ P.world.core.hooks.queue.unfinished.map (·.2.data) = ["delivery"]
      ∧ P.world.Resolves := by
  have hrun : (played false (opensShop ++ chargesSub ++ booksPayment) ⟨Server.fresh, []⟩).map
      (fun P => P.world.core.hooks.queue.unfinished.map (·.2.data)) = some ["delivery"] := by
    decide +kernel
  obtain ⟨P, hP, hjobs⟩ := Option.map_eq_some_iff.mp hrun
  have hreached : ReachedBy (deployment false) P := moves_of_played hP
  exact ⟨P, hreached, hjobs, references_resolve (deployment false) P hreached⟩

/-! ## §3. What is kept. -/

/-- **Nothing is lost between two states of a run**: rows, transactions and
recorded payments stay, and so do the keys, references and prices of rows. -/
theorem nothing_lost (d : Deployment) (P P' : Pool ServerApi Server Unit) (h : ReachedBy d P)
    (hmoves : Pool.Moves (runningServer d) anyone (fun _ => True) P P') :
    P.world.Grows P'.world :=
  (Growth.moves (governs { d with }) hmoves h.sound).2

/-- Between the opening and the charge. -/
theorem nothing_lost_shop :
    ∃ P P' : Pool ServerApi Server Unit, ReachedBy (deployment false) P
      ∧ P.world.core.subscriptions.rows.map (·.id) = ["sub"]
      ∧ P'.world.core.payments.rows.map (·.amount) = ["10"]
      ∧ P.world.Grows P'.world := by
  have hrun : (played false opensShop ⟨Server.fresh, []⟩).bind (fun P =>
      (played false (chargesSub ++ booksPayment) P).map (fun P' =>
        (P.world.core.subscriptions.rows.map (·.id), P'.world.core.payments.rows.map (·.amount))))
      = some (["sub"], ["10"]) := by
    decide +kernel
  obtain ⟨P, hP, hrest⟩ := Option.bind_eq_some_iff.mp hrun
  obtain ⟨P', hP', hrows⟩ := Option.map_eq_some_iff.mp hrest
  obtain ⟨hsubs, hpayments⟩ := Prod.mk.inj hrows
  have hreached : ReachedBy (deployment false) P := moves_of_played hP
  exact ⟨P, P', hreached, hsubs, hpayments,
    nothing_lost (deployment false) P P' hreached (moves_of_played hP')⟩

/-- **Retirement is final.**  From a state in which no execution is in flight, a
plan that is inactive keeps the subscriptions it has, and an endpoint that is
inactive the deliveries it has; neither becomes active again. -/
theorem retired_for_good (d : Deployment) (s : Server) (P : Pool ServerApi Server Unit)
    (h : ReachedBy d ⟨s, []⟩)
    (hmoves : Pool.Moves (runningServer d) anyone (fun _ => True) ⟨s, []⟩ P) :
    (∀ plan ∈ s.core.plans, plan.isActive = false →
        (∀ plan' ∈ P.world.core.plans, plan'.id = plan.id → plan'.isActive = false)
        ∧ ∀ x ∈ P.world.core.subscriptions, x.planId = plan.id → s.HasSubscription x.id)
      ∧ ∀ endpoint ∈ s.core.hooks.endpoints, endpoint.isActive = false →
        (∀ e ∈ P.world.core.hooks.endpoints, e.id = endpoint.id → e.isActive = false)
        ∧ ∀ x ∈ P.world.core.hooks.deliveries, x.webhookEndpointId = endpoint.id →
          s.HasDelivery x.id := by
  have hrestart : s.Valid { d with start := s } := h.valid.restart
  have hvalid : P.world.Valid { d with start := s } :=
    (Growth.moves (governs { d with start := s }) hmoves (Growth.sound_idle hrestart)).1.1
  refine ⟨fun plan hplan hinactive => ?_, fun endpoint hendpoint hinactive => ?_⟩
  · have hretired : ∀ id, id = plan.id →
        ({ d with start := s } : Epoch).RetiredPlan id := by
      rintro _ rfl
      exact ⟨plan, hplan, rfl, hinactive⟩
    exact ⟨fun plan' hplan' hid => hvalid.retiredPlan hplan' (hretired _ hid),
      fun x hx hid => hvalid.subscribers x hx (hretired _ hid)⟩
  · have hretired : ∀ id, id = endpoint.id →
        ({ d with start := s } : Epoch).RetiredEndpoint id := by
      rintro _ rfl
      exact ⟨endpoint, hendpoint, rfl, hinactive⟩
    exact ⟨fun e he hid => hvalid.retiredEndpoint he (hretired _ hid),
      fun x hx hid => hvalid.recipients x hx (hretired _ hid)⟩

/-- The plan is deactivated after the first subscription; the second request is
turned down. -/
theorem retired_for_good_shop :
    ∃ s P, ReachedBy (deployment false) ⟨s, []⟩
      ∧ Pool.Moves (runningServer (deployment false)) anyone (fun _ => True) ⟨s, []⟩ P
      ∧ (∃ plan ∈ s.core.plans, plan.isActive = false
          ∧ ∀ x ∈ P.world.core.subscriptions, x.planId = plan.id → s.HasSubscription x.id)
      ∧ P.world.core.subscriptions.rows.map (·.id) = ["sub"] := by
  have hrun : (ended false (opensShop ++ retiresPlan) Server.fresh).bind (fun s =>
      (played false asksAgain ⟨s, []⟩).map (fun P =>
        (s.core.plans.rows.map (·.isActive), P.world.core.subscriptions.rows.map (·.id))))
      = some ([false], ["sub"]) := by
    decide +kernel
  obtain ⟨s, hs, hrest⟩ := Option.bind_eq_some_iff.mp hrun
  obtain ⟨P, hP, hrows⟩ := Option.map_eq_some_iff.mp hrest
  obtain ⟨hplans, hsubs⟩ := Prod.mk.inj hrows
  have hreached : ReachedBy (deployment false) ⟨s, []⟩ := moves_of_ended hs
  obtain ⟨plan, hplan⟩ : ∃ plan, s.core.plans.rows = [plan] :=
    List.length_eq_one_iff.mp (by rw [← List.length_map (·.isActive), hplans]; rfl)
  have hmem : plan ∈ s.core.plans := Table.mem_def.mpr (hplan ▸ List.mem_singleton_self plan)
  have hinactive : plan.isActive = false := by
    rw [hplan] at hplans
    exact List.head_eq_of_cons_eq hplans
  have hfinal := (retired_for_good (deployment false) s P hreached (moves_of_played hP)).1 plan hmem
    hinactive
  exact ⟨s, P, hreached, moves_of_played hP, ⟨plan, hmem, hinactive, hfinal.2⟩, hsubs⟩

end Sorobill
