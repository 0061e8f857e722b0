/-
  Sorobill.System.Turns
  ─────────────────────
  **THE LIFE OF A SUBSCRIPTION**, which every interleaving follows.

  Each execution is remembered with its operation and the calls it has made, so
  that what it writes can be held against what it has read.

    • `Progress`, `progressServer` — the running server, with what every
      execution has asked and been answered;
    • `SubscriptionRecord`, `SubscriptionBirth` — what an execution may write in
      the row of a subscription, and in a new one;
    • `body_recorded` — every operation writes no more;
    • `Subscription.Turn`, `subscriptions_take_turns` — **the turns of a row**.
-/
import Sorobill.Library.Interruption
import Sorobill.Rules.Sweeps
import Sorobill.System.Authority

namespace Sorobill

open Effect
open Relational
open Shop

/-! ## §1. What an execution has done. -/

/-- The operation of an execution, and the calls of the services it has made. -/
abbrev Progress : Type := ServerOperation × List CoreEvent

/-- The calls of the services are kept. -/
def Progress.track : Progress → ServerEvent → Progress
  | (op, past), ⟨s, .core c, env⟩ => (op, past ++ [⟨s, c, env⟩])
  | v, _ => v

/-- The running server, each execution with what it has done. -/
abbrev progressServer (d : Deployment) :
    System ServerApi Server ServerEnv ServerOperation Progress :=
  server d (fun op => (op, [])) Progress.track

/-- The states the server reaches, each execution with what it has done. -/
def ReachedWith (d : Deployment) (P : Pool ServerApi Server Progress) : Prop :=
  Pool.Moves (progressServer d) anyone (fun _ => True) ⟨Server.fresh, []⟩ P

/-- The execution has asked `c` and was answered `a`. -/
def Asked (past : List CoreEvent) (c : Call) (a : c.Reply) : Prop :=
  ∃ s env, ⟨s, c, env⟩ ∈ past ∧ (coreApi.serve c env s).1 = .ok a

/-- **The execution has found the grace period over**: its query has returned
the subscription, PAST_DUE with a grace period that was over when the clock was
read. -/
def ReadExpired (past : List CoreEvent) (id : String) : Prop :=
  ∃ now rows, Asked past .dateNow now
    ∧ Asked past (.subscriptionFindMany (expireGracePeriods.condition now)) rows
    ∧ ∃ sub ∈ rows, sub.id = id ∧ sub.ExpiredBy now

/-- **The cycle has failed**: the execution has gone through the `try` block for
the payment of the current period of `sub`, and the block has thrown. -/
def CycleFailed (cfg : Config) (sub : SubscriptionWithPlan) (past : List CoreEvent) : Prop :=
  ∃ (payment : Payment) (s s' : Server) (t : List CoreEvent) (err : Thrown),
    s.HasPayment payment.id (billingIdempotencyKey sub.id sub.currentPeriodEnd) sub.id
      ∧ Interrupted coreApi Server.Grows (processBillingCycle.attempt cfg sub payment
          (billingIdempotencyKey sub.id sub.currentPeriodEnd)) s t (.error err) s'
      ∧ t <:+: past

section Past

variable {past past' : List CoreEvent} {id : String}

theorem Asked.later {c : Call} {a : c.Reply} (h : Asked past c a) (hp : past <+: past') :
    Asked past' c a := by
  obtain ⟨s, env, he, ha⟩ := h
  exact ⟨s, env, hp.subset he, ha⟩

theorem ReadExpired.later (h : ReadExpired past id) (hp : past <+: past') :
    ReadExpired past' id := by
  obtain ⟨now, rows, hnow, hrows, hfound⟩ := h
  exact ⟨now, rows, hnow.later hp, hrows.later hp, hfound⟩

theorem CycleFailed.later {cfg : Config} {sub : SubscriptionWithPlan}
    (h : CycleFailed cfg sub past) (hp : past <+: past') : CycleFailed cfg sub past' := by
  obtain ⟨payment, s, s', t, err, hrow, hrun, ht⟩ := h
  exact ⟨payment, s, s', t, err, hrow, hrun, ht.trans hp.isInfix⟩

end Past

/-! ## §2. What operations write. -/

/-- The subscription has a booked payment for the period that ends here. -/
def Server.PeriodBooked (s : Server) (id : String) (periodEnd : Instant) : Prop :=
  ∃ p ∈ s.core.payments, p.subscriptionId = id ∧ p.billingPeriodEnd = periodEnd ∧ s.Booked p.id

/-- **What an execution may write in the row of the subscription `id`**, after
what it has read. -/
inductive SubscriptionRecord (cfg : Config) (s : Server) (id : String) :
    Progress → SubscriptionData → Prop where
  /-- The next period begins, the payment of the one that was read being booked. -/
  | renewed {op : Operation} {past : List CoreEvent} (sub : SubscriptionWithPlan) :
      op.bills = some id → Asked past (.subscriptionFindUniqueWithPlan id) (some sub) →
      s.Knows sub → sub.id = id → s.PeriodBooked id sub.currentPeriodEnd →
      SubscriptionRecord cfg s id (.billing op, past)
        { status := some .ACTIVE
          currentPeriodStart := some (some sub.currentPeriodEnd)
          currentPeriodEnd :=
            some (nextPeriod cfg.tz sub.currentPeriodEnd sub.plan.interval sub.plan.intervalCount)
          retryCount := some 0
          gracePeriodEndsAt := some none }
  /-- The cycle has failed, and the retries are used up. -/
  | pastDue {op : Operation} {past : List CoreEvent} (sub : SubscriptionWithPlan)
      (now : Instant) : op.bills = some id →
      Asked past (.subscriptionFindUniqueWithPlan id) (some sub) → sub.id = id →
      CycleFailed cfg sub past → Asked past .dateNow now →
      cfg.billing.maxRetries ≤ ((sub.retryCount + 1 : Nat) : Int) →
      SubscriptionRecord cfg s id (.billing op, past)
        { status := some .PAST_DUE
          retryCount := some (sub.retryCount + 1)
          gracePeriodEndsAt := some (some (hoursFrom now cfg.billing.gracePeriodHours)) }
  /-- The cycle has failed, and the failure is counted. -/
  | retrying {op : Operation} {past : List CoreEvent} (sub : SubscriptionWithPlan) :
      op.bills = some id → Asked past (.subscriptionFindUniqueWithPlan id) (some sub) →
      sub.id = id → CycleFailed cfg sub past →
      ((sub.retryCount + 1 : Nat) : Int) < cfg.billing.maxRetries →
      SubscriptionRecord cfg s id (.billing op, past) { retryCount := some (sub.retryCount + 1) }
  /-- A tick: the grace period was over. -/
  | expired {op : Operation} {past : List CoreEvent} (now : Instant) :
      op = .tick ∨ op = .expireGracePeriods → ReadExpired past id →
      Asked past .dateNow now →
      SubscriptionRecord cfg s id (.billing op, past)
        { status := some .CANCELLED
          cancelledAt := some (some (some now)) }
  | cancelled {past : List CoreEvent} (now : Instant) : Asked past .dateNow now →
      SubscriptionRecord cfg s id (.billing (.cancel id true), past)
        { cancelAtPeriodEnd := some false
          status := some .CANCELLED
          cancelledAt := some (some (some now)) }
  /-- The status that was read is written back. -/
  | flagged {past : List CoreEvent} (sub : Subscription) :
      Asked past (.subscriptionFindUnique id) (some sub) →
      SubscriptionRecord cfg s id (.billing (.cancel id false), past)
        { cancelAtPeriodEnd := some true
          status := some sub.status
          cancelledAt := some none }
  | paused {past : List CoreEvent} (sub : Subscription) :
      Asked past (.subscriptionFindUnique id) (some sub) → sub.paused = false →
      SubscriptionRecord cfg s id (.billing (.pause id), past) { paused := some true }
  /-- The period of a paused subscription begins anew. -/
  | resumed {past : List CoreEvent} (sub : SubscriptionWithPlan) (now : Instant) :
      Asked past (.subscriptionFindUniqueWithPlan id) (some sub) → sub.paused = true →
      Asked past .dateNow now → s.Knows sub → sub.id = id →
      SubscriptionRecord cfg s id (.billing (.resume id), past)
        { paused := some false
          currentPeriodStart := some (some now)
          currentPeriodEnd :=
            some (nextPeriod cfg.tz now sub.plan.interval sub.plan.intervalCount) }

/-- **A new subscription** is one that a request asks for, to an active plan that
it has read and for a wallet that is there. -/
def SubscriptionBirth (cfg : Config) (s : Server) (v : Progress) (data : SubscriptionCreate) :
    Prop :=
  ∃ body plan wallet now, v.1 = .billing (.createSubscription body)
    ∧ Asked v.2 (.planFindUnique body.planId) (some plan) ∧ plan.isActive = true
    ∧ plan.id = body.planId ∧ (∃ p ∈ s.core.plans, plan.Becomes p)
    ∧ wallet.address = body.walletAddress ∧ wallet ∈ s.core.wallets
    ∧ Asked v.2 .dateNow now ∧ data = subscriptions.createData cfg plan wallet now

/-- What executions write in subscriptions, as a law. -/
def mayRecord (cfg : Config) (v : Progress) (s : Server) : ServerCall → Prop
  | .core (.subscriptionUpdate id data) => SubscriptionRecord cfg s id v data
  | .core (.subscriptionCreate data) => SubscriptionBirth cfg s v data
  | _ => True

/-- Lawful calls of the services, each kept to what its execution has read. -/
abbrev progressing (d : Epoch) : Contract coreApi Progress :=
  (servicesUnder (mayRecord d.cfg) d).contract (fun v e => (v.1, v.2 ++ [e]))

section Records

variable {d : Epoch} {s s' : Server} {op : ServerOperation} {past : List CoreEvent} {id : String}
  {α : Type}

theorem Server.PeriodBooked.grow {periodEnd : Instant} (h : s.PeriodBooked id periodEnd)
    (hs : s.Grows s') : s'.PeriodBooked id periodEnd := by
  obtain ⟨p, hp, hsub, hend, hbooked⟩ := h
  obtain ⟨p', hp', hb⟩ := hs.payments p hp
  refine ⟨p', hp', hb.subscriptionId.trans hsub, hb.billingPeriodEnd.trans hend, ?_⟩
  rw [hb.id]
  exact hbooked.grow hs

/-- A call that writes no subscription. -/
theorem mayRecord_of_region {cfg : Config} {c : Call} (h : c.region ≠ .subscriptions)
    (v : Progress) (s : Server) : mayRecord cfg v s (.core c) := by
  cases c <;> first | exact absurd rfl h | trivial

/-- **One call**, whose answer is remembered. -/
theorem progress_call {c : Call} {Q : Post Api Server Progress c.Reply}
    (hc : ∀ s₁ : Server, s.Grows s₁ → s₁.Valid d → mayRecord d.cfg (op, past) s₁ (.core c))
    (herr : ∀ err s₁ v₁, Q (.error err) s₁ v₁)
    (hok : ∀ a (s₁ : Server) env w past₁, s₁.Valid d → api.serve c env s₁.core = (.ok a, w) →
      s.Grows (s₁.withCore w) → past <+: past₁ → Asked past₁ c a →
      Q (.ok a) (s₁.withCore w) (op, past₁)) :
    Safe (progressing d) (await c) Q s (op, past) := by
  refine Growth.safe_call (G := servicesUnder (mayRecord d.cfg) d)
    (fun s₁ env hgrows hvalid _ => ⟨hc s₁ hgrows hvalid, fun _ hgrows' => ?_⟩)
  cases hserve : (coreApi.serve c env s₁).1 with
  | error err => exact herr err _ _
  | ok a =>
      have hw : api.serve c env.toEnv s₁.core = (.ok a, (api.serve c env.toEnv s₁.core).2) :=
        Prod.ext hserve rfl
      exact hok a s₁ env.toEnv _ _ hvalid hw hgrows' (List.prefix_append _ _)
        ⟨s₁, env, by simp, hserve⟩

/-- The execution goes on from what it has done. -/
theorem progress_mono {p : Service α} {Q R : Post Api Server Progress α}
    (h : Safe (progressing d) p Q s (op, past))
    (hQ : ∀ r s₁ past₁, past <+: past₁ → Q r s₁ (op, past₁) → R r s₁ (op, past₁)) :
    Safe (progressing d) p R s (op, past) := by
  apply (Safe.traced (fun _ _ => rfl) Server.Grows.refl h).mono
  intro r s₁ v hpost
  obtain ⟨hr, t, rfl, -⟩ := hpost
  exact hQ r s₁ _ (List.prefix_append _ _) hr

/-- A program that writes no subscription. -/
theorem recorded_of_region {p : Service α}
    (h : Calls coreApi (fun c => c.region ≠ .subscriptions) p) (v : Progress) :
    Safe (progressing d) p (fun _ _ _ => True) s v :=
  always_of_calls (fun v e hc => mayRecord_of_region hc v e.before) h s v

theorem emit_recorded (type : WebhookEventType) (paymentId : Option String)
    (payload : JavaScript.JsValue) (v : Progress) :
    Safe (progressing d) (emitWebhookEvent type paymentId payload) (fun _ _ _ => True) s v := by
  refine recorded_of_region (calls_onServer ((emitWebhookEvent_calls type paymentId payload).mono
    (fun c h => ?_))) v
  rcases h.region with hr | hr <;> rw [hr] <;> nofun

end Records

/-! ## §3. Billing cycles. -/

section Cycles

variable {d : Epoch} {s : Server} {op : Operation} {past : List CoreEvent}
  {sub : SubscriptionWithPlan} {pid : String} {α : Type}

/-- A payment that was booked is the one of its period. -/
theorem Server.Valid.periodBooked (h : s.Valid d)
    (hrow : s.HasPayment pid (billingIdempotencyKey sub.id sub.currentPeriodEnd) sub.id)
    (hbooked : s.Booked pid) : s.PeriodBooked sub.id sub.currentPeriodEnd := by
  obtain ⟨p, hp, rfl, hkey, -⟩ := hrow
  obtain ⟨hsub, hend⟩ := billingIdempotencyKey_inj.mp ((h.payments p hp).key.symm.trans hkey)
  exact ⟨p, hp, hsub, hend, hbooked⟩

theorem advancePeriod_recorded (hop : op.bills = some sub.id)
    (hread : Asked past (.subscriptionFindUniqueWithPlan sub.id) (some sub))
    (hknows : s.Knows sub)
    (hrow : s.HasPayment pid (billingIdempotencyKey sub.id sub.currentPeriodEnd) sub.id)
    (hbooked : s.Booked pid) :
    Safe (progressing d) (advancePeriod d.cfg sub) (fun _ _ _ => True) s (.billing op, past) := by
  unfold advancePeriod
  dsimp only
  rw [safe_bind]
  refine progress_call (fun s₁ hgrows hvalid => ?_) (fun _ _ _ => trivial)
    (fun _ _ _ _ _ _ _ _ _ _ => trivial)
  have hperiod := hvalid.periodBooked (hrow.grow hgrows) (hbooked.grow hgrows)
  exact .renewed sub hop hread (hknows.grow hgrows) rfl hperiod

/-- **The handler counts the failure of the cycle.** -/
theorem handlePaymentFailure_recorded (hop : op.bills = some sub.id)
    (hread : Asked past (.subscriptionFindUniqueWithPlan sub.id) (some sub))
    (hfailed : CycleFailed d.cfg sub past) :
    Safe (progressing d) (handlePaymentFailure d.cfg sub pid) (fun _ _ _ => True) s
      (.billing op, past) := by
  unfold handlePaymentFailure
  dsimp only
  split
  next hmax =>
    -- retries exhausted: the clock is read, then PAST_DUE is written
    rw [safe_bind]
    refine progress_call (fun _ _ _ => trivial) (fun _ _ _ => trivial) ?_
    intro now s₁ _ _ past₁ _ _ _ hpast hnow
    rw [andThen_ok, safe_bind]
    refine progress_call (fun _ _ _ => ?_) (fun _ _ _ => trivial)
      (fun _ _ _ _ _ _ _ _ _ _ => emit_recorded _ _ _ _)
    exact .pastDue sub now hop (hread.later hpast) rfl (hfailed.later hpast) hnow
      (by exact_mod_cast hmax)
  next hmax =>
    -- retries left: the failed payments are marked before the failure is counted
    rw [safe_bind]
    refine progress_call (fun _ _ _ => trivial) (fun _ _ _ => trivial) ?_
    intro now s₁ _ _ past₁ _ _ _ hpast _
    rw [andThen_ok, safe_bind]
    refine progress_call (fun _ _ _ => trivial) (fun _ _ _ => trivial) ?_
    intro _ s₂ _ _ past₂ _ _ _ hpast₂ _
    have hpast := hpast.trans hpast₂
    rw [andThen_ok, safe_bind]
    refine progress_call (fun _ _ _ => ?_) (fun _ _ _ => trivial)
      (fun _ _ _ _ _ _ _ _ _ _ => trivial)
    exact .retrying sub hop (hread.later hpast) rfl (hfailed.later hpast)
      (by exact_mod_cast not_le.mp hmax)

/-- **The `try` block**: the period is advanced when the payment is booked. -/
theorem cycleAttempt_recorded {payment : Payment} (hop : op.bills = some sub.id)
    (hread : Asked past (.subscriptionFindUniqueWithPlan sub.id) (some sub))
    (hknows : s.Knows sub)
    (hrow : s.HasPayment payment.id (billingIdempotencyKey sub.id sub.currentPeriodEnd) sub.id) :
    Safe (progressing d) (processBillingCycle.attempt d.cfg sub payment
      (billingIdempotencyKey sub.id sub.currentPeriodEnd)) (fun _ _ _ => True) s
      (.billing op, past) := by
  unfold processBillingCycle.attempt
  rw [safe_bind]
  have hcharge : Safe (progressing d) (chargePayment d.cfg sub payment.id
      (billingIdempotencyKey sub.id sub.currentPeriodEnd)) (fun _ _ _ => True) s
      (.billing op, past) := by
    refine recorded_of_region
      (calls_onServer ((chargePayment_calls sub _ _).mono (fun c h => ?_))) _
    cases c <;> first | exact h.elim | nofun
  apply progress_mono (under_lawful (safe_remembered (chargePayment_backed hknows hrow)) hcharge)
  intro r s₁ past₁ hpast hr
  obtain ⟨⟨hbooked, hgrows⟩, -⟩ := hr
  cases r with
  | error err => trivial
  | ok _ =>
    -- a charge that has returned has booked its payment
    rw [andThen_ok, safe_bind]
    refine (advancePeriod_recorded hop (hread.later hpast) (hknows.grow hgrows)
      (hrow.grow hgrows) (hbooked () rfl)).mono (fun r _ _ _ => ?_)
    cases r with
    | error err => trivial
    | ok _ => exact emit_recorded _ _ _ _

/-- The charge of a payment that is known, with its handler. -/
theorem charge_recorded {payment : Payment} (hop : op.bills = some sub.id)
    (hread : Asked past (.subscriptionFindUniqueWithPlan sub.id) (some sub))
    (hknows : s.Knows sub)
    (hrow : s.HasPayment payment.id (billingIdempotencyKey sub.id sub.currentPeriodEnd) sub.id) :
    Safe (progressing d) (tryCatch (processBillingCycle.attempt d.cfg sub payment
        (billingIdempotencyKey sub.id sub.currentPeriodEnd))
      (fun _ => handlePaymentFailure d.cfg sub payment.id)) (fun _ _ _ => True) s
      (.billing op, past) := by
  rw [safe_tryCatch]
  apply (Safe.traced (fun _ _ => rfl) Server.Grows.refl
    (cycleAttempt_recorded hop hread hknows hrow)).mono
  intro r s₁ v hpost
  obtain ⟨-, t, rfl, hrun⟩ := hpost
  cases r with
  | ok _ => trivial
  | error err =>
      -- the calls of the block are the last that were made
      exact handlePaymentFailure_recorded hop (hread.later (List.prefix_append _ _))
        ⟨payment, s, s₁, t, err, hrow, hrun, (List.suffix_append _ _).isInfix⟩

/-- **The cycle of a subscription that was found open.** -/
theorem rest_recorded (hop : op.bills = some sub.id)
    (hread : Asked past (.subscriptionFindUniqueWithPlan sub.id) (some sub))
    (hknows : s.Knows sub) :
    Safe (progressing d) (processBillingCycle.rest d.cfg sub) (fun _ _ _ => True) s
      (.billing op, past) := by
  -- what was done stays done
  refine safe_rest_amid (I := fun v => ∃ past₁, v = (.billing op, past₁) ∧ past <+: past₁)
    ⟨past, rfl, List.prefix_rfl⟩ ?_ ?_ ?_
  · rintro c hc R s₁ _ hgrows₁ ⟨past₁, rfl, hpast₁⟩ herr hok
    refine progress_call (fun _ _ _ => ?_) herr ?_
    · refine mayRecord_of_region ?_ _ _
      cases c <;> first | exact hc.elim | nofun
    · intro a s₂ env w past₂ hvalid₂ hserve hgrows₂ hpast₂ _
      exact hok a s₂ env w _ hvalid₂ hserve (hgrows₁.trans _ _ _ hgrows₂)
        ⟨past₂, rfl, hpast₁.trans hpast₂⟩
  · rintro s₁ _ pid hgrows₁ ⟨past₁, rfl, hpast₁⟩ hrow hbooked
    exact advancePeriod_recorded hop (hread.later hpast₁) (hknows.grow hgrows₁) hrow hbooked
  · rintro s₁ _ payment hgrows₁ ⟨past₁, rfl, hpast₁⟩ hrow
    exact charge_recorded hop (hread.later hpast₁) (hknows.grow hgrows₁) hrow

/-- **A billing cycle renews when the payment is booked**, and counts a failure
when it has failed. -/
theorem processBillingCycle_recorded {id : String} (hop : op.bills = some id) :
    Safe (progressing d) (processBillingCycle d.cfg id) (fun _ _ _ => True) s
      (.billing op, past) := by
  refine safe_cycle_amid (J := fun sub v => ∃ past₁, v = (.billing op, past₁)
    ∧ Asked past₁ (.subscriptionFindUniqueWithPlan id) (some sub)) (fun herr hok => ?_) ?_
  · refine progress_call (fun _ _ _ => trivial) herr ?_
    intro found s₁ env w past₁ hvalid₁ hserve _ _ hread
    exact hok found s₁ env w _ hvalid₁ hserve (fun sub hfound => ⟨past₁, rfl, hfound ▸ hread⟩)
  · rintro sub s₁ _ rfl hknows ⟨past₁, rfl, hread⟩
    exact rest_recorded hop hread hknows

end Cycles

/-! ## §4. The other operations. -/

section Operations

variable {d : Epoch} {s : Server} {past : List CoreEvent} {α : Type}

/-- A new subscription is the one that was asked for. -/
theorem subscriptions_create_recorded (body : CreateSubscription) :
    Safe (progressing d) (subscriptions.create d.cfg body) (fun _ _ _ => True) s
      (.billing (.createSubscription body), past) := by
  unfold subscriptions.create
  split
  · trivial
  rw [safe_bind]
  refine progress_call (fun _ _ _ => trivial) (fun _ _ _ => trivial) ?_
  intro found s₁ env w past₁ _ hserve _ _ hplan
  rcases serve_planFindUnique body.planId env s₁.core with ⟨err, hs⟩ | hs
  · rw [hs] at hserve
    cases hserve
  rw [hs] at hserve
  cases hserve
  rw [andThen_ok]
  cases hfound : (s₁.core.plans.find? (·.id == body.planId)).filter (·.isActive) with
  | none => trivial
  | some plan =>
    obtain ⟨hfind, hactive⟩ := Option.filter_eq_some_iff.mp hfound
    obtain ⟨hmem, hid⟩ := Table.find?_mem hfind
    rw [hfind] at hplan
    -- the wallet is found or made, with the address that was asked for
    show Safe _ (prisma.wallet.upsert _ >>= _) _ _ _
    rw [safe_bind]
    refine progress_call (fun _ _ _ => trivial) (fun _ _ _ => trivial) ?_
    intro wallet s₂ env w past₂ _ hserve hgrows₂ hpast₂ _
    have hwallet : wallet.address = body.walletAddress
        ∧ wallet ∈ (s₂.withCore w).core.wallets := by
      rcases serve_walletUpsert body.walletAddress env s₂.core with
        ⟨err, hs⟩ | ⟨wallet, hwallet, haddress, hs⟩ | ⟨id, t, ht, hs⟩
      · rw [hs] at hserve
        cases hserve
      · rw [hs] at hserve
        cases hserve
        exact ⟨haddress, hwallet⟩
      · rw [hs] at hserve
        cases hserve
        exact ⟨rfl, (Table.mem_insert ht).mpr (.inr rfl)⟩
    obtain ⟨haddress, hwallet⟩ := hwallet
    rw [andThen_ok, safe_bind]
    refine progress_call (fun _ _ _ => trivial) (fun _ _ _ => trivial) ?_
    intro now s₃ env w past₃ _ _ hgrows₃ hpast₃ hnow
    rw [andThen_ok, safe_bind]
    refine progress_call (fun s₄ hgrows₄ _ => ?_) (fun _ _ _ => trivial) ?_
    · -- plan and wallet are still there when the row is created
      obtain ⟨p, hp, hb⟩ := ((hgrows₂.trans _ _ _ hgrows₃).trans _ _ _ hgrows₄).plans plan hmem
      exact ⟨body, plan, wallet, now, rfl, hplan.later (hpast₂.trans hpast₃), hactive,
        beq_iff_eq.mp hid, ⟨p, hp, hb⟩, haddress,
        hgrows₄.wallets _ (hgrows₃.wallets _ hwallet), hnow, rfl⟩
    · intro sub _ _ _ _ _ _ _ _ _
      rw [andThen_ok, safe_bind]
      exact (emit_recorded _ _ _ _).mono (fun r _ _ _ => by cases r <;> trivial)

theorem subscriptions_cancel_recorded (id : String) (immediately : Bool) :
    Safe (progressing d) (subscriptions.cancel id immediately) (fun _ _ _ => True) s
      (.billing (.cancel id immediately), past) := by
  unfold subscriptions.cancel
  rw [safe_bind]
  refine progress_call (fun _ _ _ => trivial) (fun _ _ _ => trivial) ?_
  intro found s₁ _ _ past₁ _ _ _ _ hfound
  rw [andThen_ok]
  cases found with
  | none => trivial
  | some sub =>
    -- after its write the request announces, and writes no more
    have hemit : ∀ (updated : Subscription) s₂ v, Safe (progressing d) (do
        emitWebhookEvent .SUBSCRIPTION_CANCELLED none (.object
          [("subscriptionId", .string sub.id), ("immediately", .bool immediately)])
        pure (⟨200, .subscription updated⟩ : HttpReply)) (fun _ _ _ => True) s₂ v := by
      intro updated s₂ v
      rw [safe_bind]
      exact (emit_recorded _ _ _ _).mono (fun r _ _ _ => by cases r <;> trivial)
    cases immediately with
    | true =>
        show Safe _ (subscriptions.cancelledAt true >>= _) _ _ _
        unfold subscriptions.cancelledAt
        rw [if_pos rfl, safe_bind, safe_bind]
        refine progress_call (fun _ _ _ => trivial) (fun _ _ _ => trivial) ?_
        intro now s₂ _ _ past₂ _ _ _ _ hnow
        show Safe _ (prisma.subscription.update id _ >>= _) _ _ _
        rw [safe_bind]
        exact progress_call (fun _ _ _ => .cancelled now hnow) (fun _ _ _ => trivial)
          (fun updated _ _ _ _ _ _ _ _ _ => hemit updated _ _)
    -- at the period end the clock is not read, and the status is the one that was found
    | false =>
        show Safe _ (prisma.subscription.update id _ >>= _) _ _ _
        rw [safe_bind]
        exact progress_call (fun _ _ _ => .flagged sub hfound) (fun _ _ _ => trivial)
          (fun updated _ _ _ _ _ _ _ _ _ => hemit updated _ _)

theorem subscriptions_pause_recorded (id : String) :
    Safe (progressing d) (subscriptions.pause id) (fun _ _ _ => True) s
      (.billing (.pause id), past) := by
  unfold subscriptions.pause
  rw [safe_bind]
  refine progress_call (fun _ _ _ => trivial) (fun _ _ _ => trivial) ?_
  intro found s₁ _ _ past₁ _ _ _ _ hfound
  rw [andThen_ok]
  cases found with
  | none => trivial
  | some sub =>
      show Safe _ (if _ then _ else _) _ _ _
      split
      next => trivial
      next hpaused =>
        rw [safe_bind]
        exact progress_call (fun _ _ _ => .paused sub hfound (Bool.not_eq_true _ ▸ hpaused))
          (fun _ _ _ => trivial) (fun _ _ _ _ _ _ _ _ _ _ => trivial)

/-- The plan that the new period is taken from is the subscription's. -/
theorem subscriptions_resume_recorded (id : String) :
    Safe (progressing d) (subscriptions.resume d.cfg id) (fun _ _ _ => True) s
      (.billing (.resume id), past) := by
  unfold subscriptions.resume
  rw [safe_bind]
  refine progress_call (fun _ _ _ => trivial) (fun _ _ _ => trivial) ?_
  intro found s₁ env w past₁ hvalid₁ hserve _ _ hread
  rcases serve_subscriptionFindUniqueWithPlan id env s₁.core with ⟨err, hs⟩ | hs
  · rw [hs] at hserve
    cases hserve
  rw [hs] at hserve
  cases hserve
  rw [andThen_ok]
  cases hfound : (s₁.core.sub? id).bind s₁.core.withPlan with
  | none => trivial
  | some sub =>
    have hknows := hvalid₁.knows hfound
    rw [hfound] at hread
    obtain rfl := (withPlan_eq_some hfound).2
    show Safe _ (if _ then _ else _) _ _ _
    split
    next => trivial
    next hpaused =>
      rw [safe_bind]
      refine progress_call (fun _ _ _ => trivial) (fun _ _ _ => trivial) ?_
      intro now s₂ _ _ past₂ _ _ hgrows₂ hpast₂ hnow
      rw [andThen_ok, safe_bind]
      refine progress_call (fun s₃ hgrows₃ _ => ?_) (fun _ _ _ => trivial)
        (fun _ _ _ _ _ _ _ _ _ _ => trivial)
      -- found paused: the period begins at the clock that was read
      exact .resumed sub now (hread.later hpast₂) (by simpa using hpaused) hnow
        ((hknows.grow hgrows₂).grow hgrows₃) rfl

/-- **A tick cancels what its query has found.** -/
theorem expireGracePeriods_recorded {op : Operation} (hop : op = .tick ∨ op = .expireGracePeriods) :
    Safe (progressing d) expireGracePeriods (fun _ _ _ => True) s (.billing op, past) := by
  unfold expireGracePeriods
  rw [safe_bind]
  refine progress_call (fun _ _ _ => trivial) (fun _ _ _ => trivial) ?_
  intro now s₁ _ _ past₁ _ _ _ _ hnow
  rw [andThen_ok, safe_bind]
  refine progress_call (fun _ _ _ => trivial) (fun _ _ _ => trivial) ?_
  intro rows s₂ env w past₂ _ hserve _ hpast₂ hrows
  rw [andThen_ok]
  -- the query selects by the clock that was read
  have hexpired : ∀ sub ∈ rows, ReadExpired past₂ sub.id := by
    intro sub hsub
    refine ⟨now, rows, hnow.later hpast₂, hrows, sub, hsub, rfl, ?_⟩
    rcases serve_subscriptionFindMany (expireGracePeriods.condition now) env s₂.core with
      ⟨err, hs⟩ | ⟨rows', hs, hperm⟩
    · rw [hs] at hserve
      cases hserve
    · rw [hs] at hserve
      cases hserve
      exact expired_of_selects rfl rfl (Table.mem_filter.mp (hperm.subset hsub)).2
  refine safe_forEach (fun _ v => ∃ past₃, v = (.billing op, past₃) ∧ past₂ <+: past₃) ?_
    (fun _ _ _ => trivial) ⟨past₂, rfl, List.prefix_refl _⟩
  -- one round: later rounds write later, of rows found by the same query
  intro sub hsub s₃ v hv
  obtain ⟨past₃, rfl, hpast₃⟩ := hv
  unfold expireGracePeriods.cancel
  rw [safe_bind]
  refine progress_call (fun _ _ _ => trivial) (fun _ _ _ => trivial) ?_
  intro now' s₄ _ _ past₄ _ _ _ hpast₄ hnow'
  rw [andThen_ok, safe_bind]
  refine progress_call (fun _ _ _ => ?_) (fun _ _ _ => trivial) ?_
  · exact .expired now' hop ((hexpired sub hsub).later (hpast₃.trans hpast₄)) hnow'
  · intro _ s₅ _ _ past₅ _ _ _ hpast₅ _
    rw [andThen_ok]
    apply progress_mono (emit_recorded _ _ _ _)
    intro r _ past₆ hpast₆ _
    cases r with
    | error err => trivial
    | ok _ => exact ⟨past₆, rfl, ((hpast₃.trans hpast₄).trans hpast₅).trans hpast₆⟩

theorem scheduleBillingJobs_recorded :
    Safe (progressing d) scheduleBillingJobs (fun _ _ _ => True) s (.billing .tick, past) := by
  unfold scheduleBillingJobs
  rw [safe_bind]
  have hdue : Safe (progressing d) findDueSubscriptions (fun _ _ _ => True) s
      (.billing .tick, past) := by
    unfold findDueSubscriptions
    refine recorded_of_region (calls_onServer (calls_bind (fun now => ?_) ?_)) _
    · exact calls_perform (by exact nofun)
    · exact calls_perform (by exact nofun)
  apply progress_mono hdue
  intro r s₁ past₁ _ _
  cases r with
  | error err => trivial
  | ok due =>
      rw [andThen_ok, safe_bind]
      have henqueue : Safe (progressing d) (Prog.forEach due scheduleBillingJobs.enqueue)
          (fun _ _ _ => True) s₁ (.billing .tick, past₁) :=
        recorded_of_region (calls_onServer (calls_forEach (fun sub _ =>
          calls_perform (by exact nofun)))) _
      apply progress_mono henqueue
      intro r s₂ past₂ _ _
      cases r with
      | error err => trivial
      | ok _ => exact expireGracePeriods_recorded (.inl rfl)

/-- **Every operation of billing writes what it may.** -/
theorem operation_recorded (op : Operation) :
    Safe (progressing d) (op.body d.cfg) (fun _ _ _ => True) s (.billing op, past) := by
  cases op with
  | createSubscription body => exact (subscriptions_create_recorded body).map
  | cancel id immediately => exact (subscriptions_cancel_recorded id immediately).map
  | pause id => exact (subscriptions_pause_recorded id).map
  | resume id => exact (subscriptions_resume_recorded id).map
  | retryPayment id =>
      refine recorded_of_region (calls_onServer (calls_map ((retry_isEnqueuing id).mono ?_))) _
      intro c h
      cases c <;> first | exact h.elim | nofun
  | runBilling id =>
      exact recorded_of_region (calls_onServer (calls_map (calls_bind (fun _ => calls_pure)
        (calls_perform (by exact nofun))))) _
  | runInline id =>
      refine Safe.map ?_
      show Safe _ (processBillingCycle _ _ >>= _) _ _ _
      rw [safe_bind]
      have hcycle : Safe (progressing d) (processBillingCycle d.cfg id)
          (fun _ _ _ => True) s (.billing (.runInline id), past) :=
        processBillingCycle_recorded rfl
      exact hcycle.mono (fun r _ _ _ => by cases r <;> trivial)
  | billingJob job =>
      have hcycle : Safe (progressing d) (processBillingCycle d.cfg job.data)
          (fun _ _ _ => True) s (.billing (.billingJob job), past) :=
        processBillingCycle_recorded rfl
      exact hcycle.map
  | tick => exact scheduleBillingJobs_recorded.map
  | expireGracePeriods => exact (expireGracePeriods_recorded (.inr rfl)).map

/-- **Every operation of the server writes what it may.** -/
theorem body_recorded (op : ServerOperation) :
    Safe ((serverUnder (mayRecord d.cfg) d).contract Progress.track) (op.body d.toDeployment)
      (fun _ _ _ => True) s (op, []) := by
  cases op with
  | billing op =>
      exact Growth.safe_translate (G := servicesUnder (mayRecord d.cfg) d) (Q := fun _ _ => True)
        servicesImplemented (fun _ _ h => h) (fun _ h => h) (fun _ _ _ h => h)
        (fun _ _ _ _ h => h) (fun _ _ _ _ => rfl) (operation_recorded op).map
  | _ =>
      refine always_of_calls (F := fun c => ∀ v s, mayRecord d.cfg v s c)
        (fun v e h => h v e.before) ?_ s _
      refine (other_within (by exact nofun)).mono (fun c h v s => ?_)
      cases c with
      | core c =>
          rcases (h s).core (by exact nofun) with rfl | hwebhook
          · trivial
          · refine mayRecord_of_region ?_ v s
            rcases hwebhook.region with hr | hr <;> rw [hr] <;> nofun
      | _ => trivial

end Operations

/-! ## §5. Turns. -/

/-- **A turn of the subscription `id`**, made by an execution that has done `v`:
it is created, or its row is written. -/
inductive Subscription.Turn (cfg : Config) (s : Server) (id : String) (v : Progress) :
    Option Subscription → Option Subscription → Prop where
  | created (data : SubscriptionCreate) (now start finish : Instant) :
      SubscriptionBirth cfg s v data → data.currentPeriodStart = some start →
      data.currentPeriodEnd = some finish →
      Subscription.Turn cfg s id v none (some (data.row now id start finish))
  | written (data : SubscriptionData) (now : Instant) (x : Subscription) :
      SubscriptionRecord cfg s id v data → data.valid = true →
      Subscription.Turn cfg s id v (some x) (some (data.apply now x))

theorem Server.BillsNobody.sub? {s s' : Server} (h : s.BillsNobody s') (id : String) :
    s'.core.sub? id = s.core.sub? id := by
  unfold World.sub?
  rw [h.1]

/-- The dates of a new row are those of the request. -/
theorem created_dates {id : String} {data : SubscriptionCreate} {env : Env} {w : World}
    {now start finish : Instant} (hbefore : w.sub? id = none)
    (hafter : (api.serve (.subscriptionCreate data) env w).2.sub? id
      = some (data.row now id start finish)) :
    data.currentPeriodStart = some start ∧ data.currentPeriodEnd = some finish := by
  rcases serve_subscriptionCreate data env w with
    ⟨err, hs⟩ | ⟨x, start', finish', t, hstart, hfinish, -, ht, hs⟩
  · rw [hs, hbefore] at hafter
    cases hafter
  · rw [hs] at hafter
    have hrow : ({ w with subscriptions := t } : World).sub? id = _ := sub?_insert ht id
    rw [hrow] at hafter
    split at hafter
    next =>
      cases hafter
      exact ⟨hstart, hfinish⟩
    next =>
      rw [hbefore] at hafter
      cases hafter

/-- **A served call is at most one turn** of the subscription. -/
theorem turn_of_call {cfg : Config} {e : ServerEvent} {v : Progress}
    (h : mayRecord cfg v e.before e.call) (id : String) :
    (e.after serverApi).core.sub? id = e.before.core.sub? id
      ∨ Subscription.Turn cfg e.before id v (e.before.core.sub? id)
          ((e.after serverApi).core.sub? id) := by
  obtain ⟨s, c, env⟩ := e
  show (serverApi.serve c env s).2.core.sub? id = s.core.sub? id
    ∨ Subscription.Turn cfg s id v (s.core.sub? id) ((serverApi.serve c env s).2.core.sub? id)
  rcases server_cases c env s with ⟨err, hs⟩ | hs
  · rw [hs]
    exact .inl rfl
  rw [hs]
  cases c with
  | core c =>
      show (coreEvent s c env.toEnv |>.after api).sub? id = s.core.sub? id
        ∨ Subscription.Turn cfg s id v (s.core.sub? id)
            ((coreEvent s c env.toEnv |>.after api).sub? id)
      rcases lookup_after (coreEvent s c env.toEnv) id with
        heq | ⟨data, old, hcall, hvalid, hold, hnew⟩ | ⟨data, start, finish, hcall, hold, hnew⟩
      · exact .inl heq
      · -- the law says what is written
        obtain rfl : c = .subscriptionUpdate id data := hcall
        rw [hnew, show s.core.sub? id = some old from hold]
        exact .inr (.written data _ old h hvalid)
      · obtain rfl : c = .subscriptionCreate data := hcall
        obtain ⟨hstart, hfinish⟩ := created_dates hold hnew
        rw [hnew, show s.core.sub? id = none from hold]
        exact .inr (.created data _ start finish h hstart hfinish)
  | _ => exact .inl ((billsNobody_other s (fun _ hc => by cases hc) env).sub? id)

/-! ## §6. Interleavings. -/

/-- The moves in which only operations of which `may` holds are served. -/
abbrev ServedOnly (d : Deployment) (may : ServerOperation → Prop) :
    Pool ServerApi Server Progress → Pool ServerApi Server Progress → Prop :=
  Pool.Moves (progressServer d) (fun v _ _ => may v.1) (fun _ => True)

/-- **A turn on the way from `P` to `P'`**: an execution in flight makes it, in
view of what it has done by then. -/
def TurnBetween (d : Deployment) (may : ServerOperation → Prop) (id : String)
    (P P' : Pool ServerApi Server Progress) (a b : Option Subscription) : Prop :=
  ∃ Q, ServedOnly d may P Q ∧ ServedOnly d may Q P' ∧ Q.world.core.sub? id = a
    ∧ ∃ t ∈ Q.threads, may t.view.1 ∧ Subscription.Turn d.cfg Q.world id t.view a b

/-- A law of the executions that every operation keeps governs the server. -/
theorem governs_progress (d : Deployment) (allow : Condition ServerApi Server ServerEnv Progress) :
    (attributed (mayRecord d.cfg) { d with }).Governs (S := progressServer d) allow :=
  governs_attributed (d := { d with }) allow (fun op _ => body_recorded op)

/-- What is about to be written is backed, in every state the server reaches. -/
theorem ReachedWith.sound {d : Deployment} {P : Pool ServerApi Server Progress}
    (h : ReachedWith d P) :
    Growth.Sound (S := progressServer d) (attributed (mayRecord d.cfg) { d with }) P :=
  (Growth.moves (governs_progress d anyone) h (Growth.sound_idle (fresh_valid d))).1

/-- **Every interleaving leads every subscription along its life**, in turns of
the executions that are served. -/
theorem subscriptions_take_turns (d : Deployment) (P P' : Pool ServerApi Server Progress)
    (may : ServerOperation → Prop) (id : String) (h : ReachedWith d P)
    (hmoves : ServedOnly d may P P') :
    Relation.ReflTransGen (TurnBetween d may id P P')
      (P.world.core.sub? id) (P'.world.core.sub? id) := by
  have hgoverns := governs_progress d (fun v _ _ => may v.1)
  induction hmoves with
  | refl => exact .refl
  | @tail Q Q' hpath hmove ih =>
      have hsound := (Growth.moves hgoverns hpath h.sound).1
      -- the turns before this move are turns of the longer way
      have hpast : Relation.ReflTransGen (TurnBetween d may id P Q')
          (P.world.core.sub? id) (Q.world.core.sub? id) := by
        refine Relation.ReflTransGen.mono (fun a b hturn => ?_) _ _ ih
        obtain ⟨R, hbefore, hafter, hturn⟩ := hturn
        exact ⟨R, hbefore, hafter.tail hmove, hturn⟩
      rcases Growth.move_cases hgoverns hsound hmove with
        hsame | ⟨t, ht, c, env, _, hmay, hlawful, hafter⟩ | hdrift
      · rwa [hsame]
      · rcases turn_of_call (e := ⟨Q.world, c, env⟩) hlawful.2 id with heq | hturn
        · rw [hafter]
          exact heq ▸ hpast
        · rw [hafter]
          exact hpast.tail ⟨Q, hpath, .single hmove, rfl, t, ht, hmay, hturn⟩
      · rwa [(billsNobody_drift hdrift).sub? id]

namespace Shop

/-- The pool after a list of choices, each execution with what it has done. -/
def progressed (cs : List (Choice ServerOperation ServerEnv))
    (P : Pool ServerApi Server Progress) : Option (Pool ServerApi Server Progress) :=
  Pool.advance (progressServer (deployment false)) (fun _ _ _ => true) cs P

theorem moves_of_progressed {cs : List (Choice ServerOperation ServerEnv)}
    {P P' : Pool ServerApi Server Progress} (h : progressed cs P = some P') :
    Pool.Moves (progressServer (deployment false)) anyone (fun _ => True) P P' :=
  (Pool.advance_run (fun _ _ _ _ => trivial) h).moves

end Shop

/-- The first period of the subscription is followed by the next one. -/
theorem subscriptions_take_turns_shop :
    ∃ (P : Pool ServerApi Server Progress) (x : Subscription),
      ReachedWith (deployment false) P ∧ P.world.core.sub? "sub" = some x
      ∧ x.currentPeriodStart = day 2 ∧ x.currentPeriodEnd = day 3
      ∧ Relation.ReflTransGen
          (TurnBetween (deployment false) (fun _ => True) "sub" ⟨Server.fresh, []⟩ P)
          none (some x) := by
  have hrun : (progressed (opensShop ++ chargesSub ++ booksPayment) ⟨Server.fresh, []⟩).bind
      (fun P => (P.world.core.sub? "sub").map (fun x =>
        (x.currentPeriodStart, x.currentPeriodEnd))) = some (day 2, day 3) := by
    decide +kernel
  obtain ⟨P, hP, hrow⟩ := Option.bind_eq_some_iff.mp hrun
  obtain ⟨x, hx, hperiod⟩ := Option.map_eq_some_iff.mp hrow
  obtain ⟨hstart, hend⟩ := Prod.mk.inj hperiod
  have hlife := subscriptions_take_turns (deployment false) ⟨Server.fresh, []⟩ P (fun _ => True)
    "sub" .refl (moves_of_progressed hP)
  rw [hx] at hlife
  exact ⟨P, x, moves_of_progressed hP, hx, hstart, hend, hlife⟩

end Sorobill
