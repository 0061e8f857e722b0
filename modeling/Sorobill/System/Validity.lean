/-
  Sorobill.System.Validity
  ────────────────────────
  **THE INVARIANT OF THE SERVER.**

  Every row is backed by the rows it refers to, every payment by its plan and
  by what happened to it, every transaction by a payment.

    • `Payment.Billed`, `Payment.Accounted` — what holds of a payment;
    • `Server.Valid` — what holds of every state;
    • `Tx.Authorised.grow`, `Announced.grow`, … — what is backed stays backed;
    • `Server.Valid.step` — **a step keeps the invariant**;
    • `ledger` — lawful calls as a `Growth`.
-/
import Sorobill.System.Steps

namespace Sorobill

open Effect
open Relational
open Relational.Table (Carries Evolves)

/-! ## §1. The invariant. -/

/-- **A payment bills its plan**: the plan of its subscription, at its price. -/
structure Payment.Billed (cfg : Config) (s : Server) (p : Payment) : Prop where
  price : ∃ x ∈ s.core.subscriptions, x.id = p.subscriptionId
    ∧ ∃ plan ∈ s.core.plans, plan.id = x.planId
      ∧ p.amount = plan.amount ∧ p.assetCode = plan.assetCode
      ∧ p.assetIssuer = plan.assetIssuer
  key : p.idempotencyKey = billingIdempotencyKey p.subscriptionId p.billingPeriodEnd
  mode : p.testMode = cfg.billing.testMode

/-- **A payment is accounted for**: what its status and hash stand for. -/
structure Payment.Accounted (cfg : Config) (s : Server) (p : Payment) : Prop where
  fresh : p.status = .PENDING → p.stellarTxHash = none
  booked : p.status = .SUCCESS → s.Booked p.id ∧ p.stellarTxHash ≠ none
  live : cfg.billing.testMode = false → ∀ hash, p.stellarTxHash = some hash →
    ∃ tx ∈ s.core.chain, tx.hash = hash ∧ tx.issuedFor = p.idempotencyKey
  test : cfg.billing.testMode = true → (p.status = .PENDING ∨ p.status = .SUCCESS)
    ∧ ∀ hash, p.stellarTxHash = some hash → hash ∈ mockHashes p.idempotencyKey

structure Server.Valid (d : Epoch) (s : Server) : Prop where
  plans : ∀ p ∈ s.core.plans, p.Accepted
  contracts : ∀ p ∈ s.core.plans, ∀ n, p.contractPlanId = some n → (p.id, n) ∈ s.contracts
  verified : ∀ a ∈ s.verified, Signed d.sdk a ∧ ∃ x ∈ s.core.wallets, x.address = a
  subscriptions : ∀ x ∈ s.core.subscriptions,
    s.HasPlan x.planId ∧ s.HasWallet x.walletId ∧ x.status ≠ .EXPIRED
  payments : ∀ p ∈ s.core.payments, p.Billed d.cfg s
  accounts : ∀ p ∈ s.core.payments, p.Accounted d.cfg s
  /-- What was booked has a hash. -/
  receipts : ∀ x ∈ s.core.successes,
    ∃ p ∈ s.core.payments, p.id = x.payment.id ∧ p.stellarTxHash ≠ none
  chain : ∀ tx ∈ s.core.chain, Tx.Authorised d.cfg s tx.issuedFor tx.invocation
  endpoints : ∀ e ∈ s.core.hooks.endpoints, e.Accepted d.isUrl
  events : ∀ x ∈ s.core.hooks.events, Announced d.cfg s x.type x.paymentId x.payload
  deliveries : ∀ x ∈ s.core.hooks.deliveries, x.Addressed s
  deliveryJobs : ∀ j ∈ s.core.hooks.queue.unfinished, s.HasDelivery j.2.data
  billingJobs : ∀ j ∈ s.core.billingQueue.unfinished,
    j.2.name = "bill" ∨ s.HasSubscription j.2.data
  chainEvents : ∀ x ∈ s.index.chainEvents, (d.production = true → s.verified ≠ [])
    ∧ ∃ hash, x.txHash = Indexer.normalizeTxHash d.indexer hash
  since : d.start.Grows s
  /-- A plan that was inactive has the subscriptions it had. -/
  subscribers : ∀ x ∈ s.core.subscriptions, d.RetiredPlan x.planId → d.start.HasSubscription x.id
  /-- An endpoint that was inactive has the deliveries it had. -/
  recipients : ∀ x ∈ s.core.hooks.deliveries, d.RetiredEndpoint x.webhookEndpointId →
    d.start.HasDelivery x.id

theorem fresh_valid (d : Deployment) : Server.fresh.Valid { d with } where
  plans _ h := by cases h
  contracts _ h := by cases h
  verified _ h := by cases h
  subscriptions _ h := by cases h
  payments _ h := by cases h
  accounts _ h := by cases h
  receipts _ h := by cases h
  chain _ h := by cases h
  endpoints _ h := by cases h
  events _ h := by cases h
  deliveries _ h := by cases h
  deliveryJobs _ h := by cases h
  billingJobs _ h := by cases h
  chainEvents _ h := by cases h
  since := .refl _
  subscribers _ h := by cases h
  recipients _ h := by cases h

/-- What was inactive at the start still is. -/
theorem Server.Valid.retiredPlan {d : Epoch} {s : Server} (h : s.Valid d) {p : Plan}
    (hp : p ∈ s.core.plans) (hretired : d.RetiredPlan p.id) : p.isActive = false := by
  obtain ⟨q, hq, hid, hinactive⟩ := hretired
  obtain ⟨q', hq', ⟨_, _, rfl⟩, hi⟩ := h.since.plans q hq
  obtain rfl := plan_unique hp hq' hid.symm
  exact hi hinactive

theorem Server.Valid.retiredEndpoint {d : Epoch} {s : Server} (h : s.Valid d)
    {e : WebhookEndpoint} (he : e ∈ s.core.hooks.endpoints) (hretired : d.RetiredEndpoint e.id) :
    e.isActive = false := by
  obtain ⟨f, hf, hid, hinactive⟩ := hretired
  obtain ⟨f', hf', ⟨_, rfl⟩, hi⟩ := h.since.endpoints f hf
  obtain rfl := endpoint_unique he hf' hid.symm
  exact hi hinactive

/-- **Every moment starts an epoch.** -/
theorem Server.Valid.restart {d : Epoch} {s : Server} (h : s.Valid d) :
    s.Valid { d with start := s } :=
  { h with
    since := .refl s
    subscribers := fun x hx _ => ⟨x, hx, rfl⟩
    recipients := fun x hx _ => ⟨x, hx, rfl⟩ }

/-! ## §2. What is backed stays backed. -/

section Growing

variable {cfg : Config} {s s' : Server}

theorem Tx.Authorised.grow {key : String} {inv : Invocation} (h : Tx.Authorised cfg s key inv)
    (hs : s.Grows s') : Tx.Authorised cfg s' key inv where
  live := h.live
  soroban := h.soroban
  method := h.method
  admin := h.admin
  row := by
    obtain ⟨p, hp, hkey, hstatus, x, hx, hid, ⟨y, hy, hyid, haddress⟩, hcontract⟩ := h.row
    obtain ⟨p', hp', hb⟩ := hs.payments p hp
    obtain ⟨x', hx', hxb⟩ := hs.subscriptions x hx
    refine ⟨p', hp', hb.idempotencyKey.trans hkey, fun heq => hstatus (hb.pending heq), x', hx',
      ?_, ⟨y, hs.wallets y hy, ?_, haddress⟩, ?_⟩
    · rw [hxb.id, hid, hb.subscriptionId]
    · rw [hxb.walletId, hyid]
    · rw [hxb.planId]
      exact hs.contracts _ hcontract

theorem Payment.Collected.grow {p p' : Payment} {mode : String} (h : p.Collected cfg s mode)
    (hb : p.Becomes p') (hs : s.Grows s') : p'.Collected cfg s' mode := by
  cases h with
  | soroban hsoroban hcontract hplan =>
      obtain ⟨x, hx, hid, n, hn⟩ := hplan
      obtain ⟨x', hx', hxb⟩ := hs.subscriptions x hx
      refine .soroban hsoroban hcontract ⟨x', hx', ?_, n, ?_⟩
      · rw [hxb.id, hid, hb.subscriptionId]
      · rw [hxb.planId]
        exact hs.contracts _ hn
  | horizon htest => exact .horizon htest

theorem Announced.grow {type : WebhookEventType} {paymentId : Option String}
    {payload : JavaScript.JsValue} (h : Announced cfg s type paymentId payload)
    (hs : s.Grows s') : Announced cfg s' type paymentId payload := by
  cases h with
  | paid p mode hp hbooked hmode =>
      obtain ⟨p', hp', hb⟩ := hs.payments p hp
      have hpaid : Announced cfg s' .PAYMENT_SUCCESS (some p'.id) _ :=
        .paid p' mode hp' (hb.id ▸ hbooked.grow hs) (hmode.grow hb hs)
      rwa [hb.id, hb.subscriptionId, hb.amount, hb.assetCode] at hpaid
  | failed p retryCount now gracePeriodEndsAt hp hmax hgrace =>
      obtain ⟨p', hp', hb⟩ := hs.payments p hp
      have hfailed : Announced cfg s' .PAYMENT_FAILED (some p'.id) _ :=
        .failed p' retryCount now gracePeriodEndsAt hp' hmax hgrace
      rwa [hb.id, hb.subscriptionId] at hfailed
  | created id hid => exact .created id (hid.grow hs)
  | cancelled id immediately hid => exact .cancelled id immediately (hid.grow hs)
  | expired id hid => exact .expired id (hid.grow hs)
  | test type payload => exact .test type payload

theorem WebhookDelivery.Addressed.grow {x x' : WebhookDelivery} (h : x.Addressed s)
    (hx : x.Becomes x') (hs : s.Grows s') : x'.Addressed s' := by
  obtain ⟨event, hevent, hid, hsub⟩ := h
  refine ⟨event, hs.events _ hevent, hid.trans hx.webhookEventId.symm, ?_⟩
  rw [hx.webhookEndpointId]
  exact hsub.grow hs

theorem Payment.Billed.grow {p p' : Payment} (h : p.Billed cfg s) (hp : p.Becomes p')
    (hs : s.Grows s') : p'.Billed cfg s' where
  price := by
    obtain ⟨x, hx, hxid, plan, hplan, hid, hamount, hcode, hissuer⟩ := h.price
    obtain ⟨x', hx', hxb⟩ := hs.subscriptions x hx
    obtain ⟨plan', hplan', ⟨_, _, rfl⟩, -⟩ := hs.plans plan hplan
    refine ⟨x', hx', ?_, _, hplan', hid.trans hxb.planId.symm, hp.amount.trans hamount,
      hp.assetCode.trans hcode, hp.assetIssuer.trans hissuer⟩
    rw [hxb.id, hxid, hp.subscriptionId]
  key := by rw [hp.idempotencyKey, h.key, hp.subscriptionId, hp.billingPeriodEnd]
  mode := hp.testMode.trans h.mode

/-- A cycle creates a payment that bills the plan it has read. -/
theorem Payment.Created.billed {p : Payment} (h : p.Created cfg s) : p.Billed cfg s := by
  obtain ⟨sub, id, hknows, rfl⟩ := h
  obtain ⟨x, hx, hxb⟩ := hknows.row
  obtain ⟨plan, hplan, ⟨_, _, rfl⟩, -⟩ := hknows.plan
  exact ⟨⟨x, hx, hxb.id, _, hplan, hknows.planId.trans hxb.planId.symm, rfl, rfl, rfl⟩, rfl, rfl⟩

/-- A record keeps a payment accounted for, once a SUCCESS is recorded. -/
theorem PaymentRecord.accounted {p : Payment} {data : PaymentData} (h : p.Accounted cfg s)
    (hdata : PaymentRecord cfg s p data) (hs : s.Grows s')
    (hbooked : (data.apply p).status = .SUCCESS → s'.Booked p.id) :
    (data.apply p).Accounted cfg s' := by
  have hkept : cfg.billing.testMode = false → ∀ hash, p.stellarTxHash = some hash →
      ∃ tx ∈ s'.core.chain, tx.hash = hash ∧ tx.issuedFor = p.idempotencyKey := by
    intro hlive hash hhash
    obtain ⟨tx, htx, hback⟩ := h.live hlive hash hhash
    exact ⟨tx, hs.chain tx htx, hback⟩
  have hmode : cfg.billing.testMode = false → ∀ {P : Prop}, cfg.billing.testMode = true → P := by
    intro hlive P htest
    rw [hlive] at htest
    cases htest
  cases hdata with
  | begun hlive => exact ⟨nofun, nofun, hkept, hmode hlive⟩
  | paid tx hlive htx hkey =>
      refine ⟨nofun, fun hst => ⟨hbooked hst, nofun⟩, fun _ hash hhash => ?_, hmode hlive⟩
      obtain rfl := Option.some.inj hhash
      exact ⟨tx, hs.chain tx htx, rfl, hkey⟩
  | refused tx reason hlive htx hkey =>
      refine ⟨nofun, nofun, fun _ hash hhash => ?_, hmode hlive⟩
      obtain rfl := Option.some.inj hhash
      exact ⟨tx, hs.chain tx htx, rfl, hkey⟩
  | failed reason hlive _ => exact ⟨nofun, nofun, hkept, hmode hlive⟩
  | mock hash htest hmock =>
      refine ⟨nofun, fun hst => ⟨hbooked hst, nofun⟩, fun hlive => hmode hlive htest,
        fun _ => ⟨.inr rfl, fun x hx => ?_⟩⟩
      obtain rfl := Option.some.inj hx
      exact hmock
  | retrying nextRetryAt retryCount hfailed =>
      refine ⟨nofun, nofun, hkept, fun htest => ?_⟩
      -- in test mode nothing fails
      rcases (h.test htest).1 with hst | hst <;> rw [hfailed] at hst <;> cases hst

end Growing

/-! ## §3. Steps. -/

section Stepping

variable {d : Epoch} {s s' : Server}

theorem accounts_step (h : s.Valid d) (hs : s.Step d s') :
    ∀ p ∈ s'.core.payments, p.Accounted d.cfg s' := by
  intro p' hp'
  have hbooked : p'.status = .SUCCESS → s'.Booked p'.id := by
    intro hst
    rcases hs.booked p' hp' hst with hold | hnew
    · exact ((h.accounts p' hold).booked hst).1.grow hs.grows
    · exact hnew
  rcases hs.payments.origin p' hp' with ⟨p, hp, hwritten⟩ | hcreated
  · have hacc := h.accounts p hp
    cases hwritten with
    | kept =>
        refine ⟨hacc.fresh, fun hst => ⟨hbooked hst, (hacc.booked hst).2⟩, ?_, hacc.test⟩
        intro hlive hash hhash
        obtain ⟨tx, htx, hback⟩ := hacc.live hlive hash hhash
        exact ⟨tx, hs.grows.chain tx htx, hback⟩
    | recorded hdata => exact hdata.accounted hacc hs.grows hbooked
  · obtain ⟨sub, id, -, rfl⟩ := hcreated
    exact ⟨fun _ => rfl, nofun, nofun, fun _ => ⟨.inl rfl, nofun⟩⟩

/-- **A step keeps the invariant.** -/
theorem Server.Valid.step (h : s.Valid d) (hs : s.Step d s') : s'.Valid d where
  plans := by
    refine hs.plans.every h.plans (fun p p' _ hb hp => ?_) (fun p hp => hp)
    obtain ⟨⟨_, _, rfl⟩, -⟩ := hb
    exact ⟨hp.amount, hp.intervalCount, hp.trialDays⟩
  contracts p' hp' n hn := by
    -- the contract id was there before, or the step has recorded it
    rcases hs.recorded p' hp' with ⟨p, hp, hid, hcontract⟩ | hnew
    · rw [← hid]
      exact hs.contracts _ (h.contracts p hp n (hcontract.trans hn))
    · exact hnew n hn
  verified a ha := by
    rcases hs.signed a ha with hold | ⟨hsigned, hwallet⟩
    · obtain ⟨hsigned, x, hx, haddress⟩ := h.verified a hold
      exact ⟨hsigned, x, hs.wallets x hx, haddress⟩
    · exact ⟨hsigned, hwallet⟩
  subscriptions := by
    refine hs.subscriptions.every h.subscriptions (fun x x' _ hb hx => ?_) (fun x hx => ?_)
    · obtain ⟨hplan, hwallet, hstatus⟩ := hx
      rw [hb.planId, hb.walletId]
      exact ⟨hplan.grow hs.grows, hwallet.grow hs.grows, fun he => hstatus (hb.expired he)⟩
    · exact ⟨hx.1.grow hs.grows, hx.2.1.grow hs.grows, hx.2.2.1⟩
  payments := hs.payments.every h.payments
    (fun p p' _ hw hp => hp.grow hw.becomes hs.grows)
    (fun p hp => hp.billed.grow (.refl p) hs.grows)
  accounts := accounts_step h hs
  receipts x hx := by
    rcases hs.receipts x hx with hold | hnew
    · obtain ⟨p, hp, hid, hhash⟩ := h.receipts x hold
      obtain ⟨p', hp', hb⟩ := hs.grows.payments p hp
      exact ⟨p', hp', hb.id.trans hid, hb.receipt hhash⟩
    · exact hnew
  chain tx htx := by
    -- the chain only grows, and what is new comes with its payment
    obtain ⟨new, heq, hnew⟩ := hs.chain
    rw [heq] at htx
    rcases List.mem_append.mp htx with htx | htx
    · exact (h.chain tx htx).grow hs.grows
    · exact (hnew tx htx).grow hs.grows
  endpoints := by
    refine hs.endpoints.every h.endpoints (fun e e' _ hb he => ?_) (fun e he => he)
    obtain ⟨⟨_, rfl⟩, -⟩ := hb
    exact ⟨he.url, he.secret, he.events⟩
  events := by
    refine hs.events.every h.events (fun x x' _ heq hx => ?_) (fun x hx => hx.grow hs.grows)
    subst heq
    exact hx.grow hs.grows
  deliveries := hs.deliveries.every h.deliveries (fun x x' _ hb hx => hx.grow hb hs.grows)
    (fun x hx => hx.1.grow (.refl x) hs.grows)
  deliveryJobs := hs.deliveryJobs.every (P := fun _ data => s'.HasDelivery data)
    (fun j hj => (h.deliveryJobs j hj).grow hs.grows) (fun _ _ hnew => hnew.grow hs.grows)
  billingJobs := hs.billingJobs.every
    (P := fun name data => name = "bill" ∨ s'.HasSubscription data)
    (fun j hj => (h.billingJobs j hj).imp_right (·.grow hs.grows))
    (fun _ _ hnew => hnew.imp_right (·.grow hs.grows))
  chainEvents x' hx' := by
    -- a wallet that is verified stays verified
    have hverified : s.verified ≠ [] → s'.verified ≠ [] := by
      intro hne heq
      obtain ⟨a, ha⟩ := List.exists_mem_of_ne_nil _ hne
      have ha' := hs.verified a ha
      rw [heq] at ha'
      cases ha'
    rcases hs.chainEvents x' hx' with ⟨x, hx, hhash⟩ | ⟨hprod, hnormal⟩
    · obtain ⟨hprod, hash, hnormal⟩ := h.chainEvents x hx
      exact ⟨fun hp => hverified (hprod hp), hash, hhash.symm.trans hnormal⟩
    · exact ⟨fun hp => hverified (hprod hp), hnormal⟩
  since := h.since.trans _ _ _ hs.grows
  subscribers := hs.subscriptions.every h.subscribers
    (fun x x' _ hb hx hretired => by
      rw [hb.id]
      exact hx (hb.planId ▸ hretired))
    (fun x hx hretired => absurd hretired hx.2.2.2)
  recipients := hs.deliveries.every h.recipients
    (fun x x' _ hb hx hretired => by
      rw [hb.id]
      exact hx (hb.webhookEndpointId ▸ hretired))
    (fun x hx hretired => absurd hretired hx.2)

/-- **Lawful calls keep the invariant and lose nothing.** -/
def ledger (d : Epoch) : Growth serverApi Unit where
  valid := Server.Valid d
  grows := Server.Grows
  admits _ := True
  lawful _ e := e.call.Lawful d e.before
  refl := Server.Grows.refl
  trans := Server.Grows.trans
  step _ _ hvalid _ hlawful :=
    ⟨hvalid.step (lawful_step hlawful), (lawful_step hlawful).grows⟩

end Stepping

end Sorobill
