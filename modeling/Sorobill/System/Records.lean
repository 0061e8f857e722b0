/-
  Sorobill.System.Records
  ───────────────────────
  **WHAT THE SERVER NEVER FORGETS.**

  No code deletes a row, and no code rewrites a key, a reference or a price.
  What an execution has read therefore stays true while other executions run.

    • `Plan.Becomes`, `Payment.Becomes`, … — the later versions of a row;
    • `Server.Grows` — nothing is lost from one state to a later one;
    • `Server.Knows`, `Server.HasPayment`, … — what an execution knows once it
      has read a row, and that it stays known.
-/
import Sorobill.Library.Evolution
import Sorobill.Library.Growth
import Sorobill.Model.Server
import Sorobill.Rules.Footprints

namespace Sorobill

open Effect
open Relational
open Relational.Table (Carries Evolves)

/-! ## §1. Later versions of rows. -/

/-- The contract id may change, and the plan may become inactive for good. -/
structure Plan.Becomes (p p' : Plan) : Prop where
  row : ∃ c a, p' = { p with contractPlanId := c, isActive := a }
  inactive : p.isActive = false → p'.isActive = false

structure Subscription.Becomes (s s' : Subscription) : Prop where
  id : s'.id = s.id
  planId : s'.planId = s.planId
  walletId : s'.walletId = s.walletId
  trialEndsAt : s'.trialEndsAt = s.trialEndsAt
  /-- No code sets a subscription to EXPIRED. -/
  expired : s'.status = .EXPIRED → s.status = .EXPIRED

structure Payment.Becomes (p p' : Payment) : Prop where
  id : p'.id = p.id
  subscriptionId : p'.subscriptionId = p.subscriptionId
  amount : p'.amount = p.amount
  assetCode : p'.assetCode = p.assetCode
  assetIssuer : p'.assetIssuer = p.assetIssuer
  idempotencyKey : p'.idempotencyKey = p.idempotencyKey
  testMode : p'.testMode = p.testMode
  billingPeriodStart : p'.billingPeriodStart = p.billingPeriodStart
  billingPeriodEnd : p'.billingPeriodEnd = p.billingPeriodEnd
  /-- A payment that has left PENDING does not return to it. -/
  pending : p'.status = .PENDING → p.status = .PENDING
  /-- A hash may be overwritten, not erased. -/
  receipt : p.stellarTxHash ≠ none → p'.stellarTxHash ≠ none

/-- The endpoint may become inactive for good. -/
structure WebhookEndpoint.Becomes (e e' : WebhookEndpoint) : Prop where
  row : ∃ a, e' = { e with isActive := a }
  inactive : e.isActive = false → e'.isActive = false

structure WebhookDelivery.Becomes (d d' : WebhookDelivery) : Prop where
  id : d'.id = d.id
  webhookEventId : d'.webhookEventId = d.webhookEventId
  webhookEndpointId : d'.webhookEndpointId = d.webhookEndpointId

theorem Plan.Becomes.refl (p : Plan) : p.Becomes p :=
  ⟨⟨p.contractPlanId, p.isActive, rfl⟩, fun h => h⟩

theorem Plan.Becomes.trans (a b c : Plan) (h : a.Becomes b) (h' : b.Becomes c) : a.Becomes c := by
  obtain ⟨⟨_, _, rfl⟩, hi⟩ := h
  obtain ⟨⟨_, _, rfl⟩, hi'⟩ := h'
  exact ⟨⟨_, _, rfl⟩, fun h => hi' (hi h)⟩

theorem Subscription.Becomes.refl (s : Subscription) : s.Becomes s :=
  ⟨rfl, rfl, rfl, rfl, fun h => h⟩

theorem Subscription.Becomes.trans (a b c : Subscription) (h : a.Becomes b) (h' : b.Becomes c) :
    a.Becomes c :=
  ⟨h'.id.trans h.id, h'.planId.trans h.planId, h'.walletId.trans h.walletId,
    h'.trialEndsAt.trans h.trialEndsAt, fun he => h.expired (h'.expired he)⟩

theorem Payment.Becomes.refl (p : Payment) : p.Becomes p :=
  ⟨rfl, rfl, rfl, rfl, rfl, rfl, rfl, rfl, rfl, fun h => h, fun h => h⟩

theorem Payment.Becomes.trans (a b c : Payment) (h : a.Becomes b) (h' : b.Becomes c) :
    a.Becomes c :=
  ⟨h'.id.trans h.id, h'.subscriptionId.trans h.subscriptionId, h'.amount.trans h.amount,
    h'.assetCode.trans h.assetCode, h'.assetIssuer.trans h.assetIssuer,
    h'.idempotencyKey.trans h.idempotencyKey, h'.testMode.trans h.testMode,
    h'.billingPeriodStart.trans h.billingPeriodStart,
    h'.billingPeriodEnd.trans h.billingPeriodEnd, fun hp => h.pending (h'.pending hp),
    fun hp => h'.receipt (h.receipt hp)⟩

theorem WebhookEndpoint.Becomes.refl (e : WebhookEndpoint) : e.Becomes e :=
  ⟨⟨e.isActive, rfl⟩, fun h => h⟩

theorem WebhookEndpoint.Becomes.trans (a b c : WebhookEndpoint) (h : a.Becomes b)
    (h' : b.Becomes c) : a.Becomes c := by
  obtain ⟨⟨_, rfl⟩, hi⟩ := h
  obtain ⟨⟨_, rfl⟩, hi'⟩ := h'
  exact ⟨⟨_, rfl⟩, fun h => hi' (hi h)⟩

theorem WebhookDelivery.Becomes.refl (d : WebhookDelivery) : d.Becomes d := ⟨rfl, rfl, rfl⟩

theorem WebhookDelivery.Becomes.trans (a b c : WebhookDelivery) (h : a.Becomes b)
    (h' : b.Becomes c) : a.Becomes c :=
  ⟨h'.id.trans h.id, h'.webhookEventId.trans h.webhookEventId,
    h'.webhookEndpointId.trans h.webhookEndpointId⟩

/-! ## §2. Later states. -/

/-- **Nothing is lost.** -/
structure Server.Grows (s s' : Server) : Prop where
  plans : Carries Plan.Becomes s.core.plans s'.core.plans
  contracts : ∀ c ∈ s.contracts, c ∈ s'.contracts
  wallets : ∀ x ∈ s.core.wallets, x ∈ s'.core.wallets
  verified : ∀ a ∈ s.verified, a ∈ s'.verified
  subscriptions : Carries Subscription.Becomes s.core.subscriptions s'.core.subscriptions
  payments : Carries Payment.Becomes s.core.payments s'.core.payments
  successes : ∀ x ∈ s.core.successes, x ∈ s'.core.successes
  chain : ∀ tx ∈ s.core.chain, tx ∈ s'.core.chain
  endpoints : Carries WebhookEndpoint.Becomes s.core.hooks.endpoints s'.core.hooks.endpoints
  events : ∀ x ∈ s.core.hooks.events, x ∈ s'.core.hooks.events
  deliveries : Carries WebhookDelivery.Becomes s.core.hooks.deliveries s'.core.hooks.deliveries

theorem Server.Grows.refl (s : Server) : s.Grows s where
  plans := .refl Plan.Becomes.refl _
  contracts _ h := h
  wallets _ h := h
  verified _ h := h
  subscriptions := .refl Subscription.Becomes.refl _
  payments := .refl Payment.Becomes.refl _
  successes _ h := h
  chain _ h := h
  endpoints := .refl WebhookEndpoint.Becomes.refl _
  events _ h := h
  deliveries := .refl WebhookDelivery.Becomes.refl _

theorem Server.Grows.trans (a b c : Server) (h : a.Grows b) (h' : b.Grows c) : a.Grows c where
  plans := h.plans.trans Plan.Becomes.trans h'.plans
  contracts x hx := h'.contracts x (h.contracts x hx)
  wallets x hx := h'.wallets x (h.wallets x hx)
  verified x hx := h'.verified x (h.verified x hx)
  subscriptions := h.subscriptions.trans Subscription.Becomes.trans h'.subscriptions
  payments := h.payments.trans Payment.Becomes.trans h'.payments
  successes x hx := h'.successes x (h.successes x hx)
  chain x hx := h'.chain x (h.chain x hx)
  endpoints := h.endpoints.trans WebhookEndpoint.Becomes.trans h'.endpoints
  events x hx := h'.events x (h.events x hx)
  deliveries := h.deliveries.trans WebhookDelivery.Becomes.trans h'.deliveries

/-! ## §3. What is known once it has been read. -/

section Knowledge

variable {s s' : Server}

/-- **What a billing cycle knows of the subscription it has read**: the rows
are still there, plan and wallet are those of the subscription, and the plan
was stored with the contract id that was read. -/
structure Server.Knows (s : Server) (sub : SubscriptionWithPlan) : Prop where
  row : ∃ x ∈ s.core.subscriptions, sub.toSubscription.Becomes x
  plan : ∃ p ∈ s.core.plans, sub.plan.Becomes p
  planId : sub.plan.id = sub.planId
  wallet : sub.wallet ∈ s.core.wallets
  walletId : sub.wallet.id = sub.walletId
  contract : ∀ n, sub.plan.contractPlanId = some n → (sub.plan.id, n) ∈ s.contracts

theorem Server.Knows.grow {sub : SubscriptionWithPlan} (h : s.Knows sub) (hs : s.Grows s') :
    s'.Knows sub where
  row := by
    obtain ⟨x, hx, hsub⟩ := h.row
    obtain ⟨y, hy, hxy⟩ := hs.subscriptions x hx
    exact ⟨y, hy, hsub.trans _ _ _ hxy⟩
  plan := by
    obtain ⟨x, hx, hplan⟩ := h.plan
    obtain ⟨y, hy, hxy⟩ := hs.plans x hx
    exact ⟨y, hy, hplan.trans _ _ _ hxy⟩
  planId := h.planId
  wallet := hs.wallets _ h.wallet
  walletId := h.walletId
  contract n hn := hs.contracts _ (h.contract n hn)

/-- There is a row with this id, key and subscription. -/
def Server.HasPayment (s : Server) (pid key subscriptionId : String) : Prop :=
  ∃ p ∈ s.core.payments, p.id = pid ∧ p.idempotencyKey = key ∧ p.subscriptionId = subscriptionId

theorem Server.HasPayment.grow {pid key sid : String} (h : s.HasPayment pid key sid)
    (hs : s.Grows s') : s'.HasPayment pid key sid := by
  obtain ⟨p, hp, hid, hkey, hsid⟩ := h
  obtain ⟨p', hp', hb⟩ := hs.payments p hp
  exact ⟨p', hp', hb.id.trans hid, hb.idempotencyKey.trans hkey, hb.subscriptionId.trans hsid⟩

/-- Its charge has begun: the row has left PENDING. -/
def Server.Begun (s : Server) (pid : String) : Prop :=
  ∃ p ∈ s.core.payments, p.id = pid ∧ p.status ≠ .PENDING

theorem Server.Begun.grow {pid : String} (h : s.Begun pid) (hs : s.Grows s') : s'.Begun pid := by
  obtain ⟨p, hp, hid, hstatus⟩ := h
  obtain ⟨p', hp', hb⟩ := hs.payments p hp
  exact ⟨p', hp', hb.id.trans hid, fun heq => hstatus (hb.pending heq)⟩

/-- The payment was set to SUCCESS at some time. -/
def Server.Booked (s : Server) (pid : String) : Prop :=
  ∃ x ∈ s.core.successes, x.payment.id = pid

theorem Server.Booked.grow {pid : String} (h : s.Booked pid) (hs : s.Grows s') :
    s'.Booked pid := by
  obtain ⟨x, hx, hid⟩ := h
  exact ⟨x, hs.successes x hx, hid⟩

/-- A subscription with this id. -/
def Server.HasSubscription (s : Server) (id : String) : Prop :=
  ∃ x ∈ s.core.subscriptions, x.id = id

theorem Server.HasSubscription.grow {id : String} (h : s.HasSubscription id) (hs : s.Grows s') :
    s'.HasSubscription id := by
  obtain ⟨x, hx, hid⟩ := h
  obtain ⟨y, hy, hb⟩ := hs.subscriptions x hx
  exact ⟨y, hy, hb.id.trans hid⟩

/-- A plan with this id. -/
def Server.HasPlan (s : Server) (id : String) : Prop := ∃ p ∈ s.core.plans, p.id = id

theorem Server.HasPlan.grow {id : String} (h : s.HasPlan id) (hs : s.Grows s') :
    s'.HasPlan id := by
  obtain ⟨p, hp, hid⟩ := h
  obtain ⟨p', hp', ⟨_, _, rfl⟩, -⟩ := hs.plans p hp
  exact ⟨_, hp', hid⟩

/-- A wallet with this id. -/
def Server.HasWallet (s : Server) (id : String) : Prop := ∃ x ∈ s.core.wallets, x.id = id

theorem Server.HasWallet.grow {id : String} (h : s.HasWallet id) (hs : s.Grows s') :
    s'.HasWallet id := by
  obtain ⟨x, hx, hid⟩ := h
  exact ⟨x, hs.wallets x hx, hid⟩

/-- An endpoint with this id, subscribed to this type. -/
def Server.Subscribes (s : Server) (endpointId : String) (type : WebhookEventType) : Prop :=
  ∃ e ∈ s.core.hooks.endpoints, e.id = endpointId ∧ type ∈ e.events

theorem Server.Subscribes.grow {id : String} {type : WebhookEventType} (h : s.Subscribes id type)
    (hs : s.Grows s') : s'.Subscribes id type := by
  obtain ⟨e, he, hid, htype⟩ := h
  obtain ⟨e', he', ⟨_, rfl⟩, -⟩ := hs.endpoints e he
  exact ⟨_, he', hid, htype⟩

/-- A delivery with this id. -/
def Server.HasDelivery (s : Server) (id : String) : Prop :=
  ∃ x ∈ s.core.hooks.deliveries, x.id = id

theorem Server.HasDelivery.grow {id : String} (h : s.HasDelivery id) (hs : s.Grows s') :
    s'.HasDelivery id := by
  obtain ⟨x, hx, hid⟩ := h
  obtain ⟨y, hy, hb⟩ := hs.deliveries x hx
  exact ⟨y, hy, hb.id.trans hid⟩

instance : Std.Symm Plan.Clash := ⟨fun _ _ h => Eq.symm h⟩

instance : Std.Symm Wallet.Clash := ⟨fun _ _ h => h.imp Eq.symm Eq.symm⟩

instance : Std.Symm WebhookEvent.Clash := ⟨fun _ _ h => Eq.symm h⟩

instance : Std.Symm WebhookEndpoint.Clash := ⟨fun _ _ h => Eq.symm h⟩

/-- Two plans with one id are one plan. -/
theorem plan_unique {w : World} {p q : Plan} (hp : p ∈ w.plans) (hq : q ∈ w.plans)
    (h : p.id = q.id) : p = q :=
  Table.eq_of_clash hp hq h

/-- Two wallets with one id are one wallet. -/
theorem wallet_unique {w : World} {x y : Wallet} (hx : x ∈ w.wallets) (hy : y ∈ w.wallets)
    (h : x.id = y.id) : x = y :=
  Table.eq_of_clash hx hy (.inl h)

/-- Two subscriptions with one id are one. -/
theorem subscription_unique {w : World} {x y : Subscription} (hx : x ∈ w.subscriptions)
    (hy : y ∈ w.subscriptions) (h : x.id = y.id) : x = y :=
  Table.eq_of_clash hx hy h

/-- Two events with one id are one. -/
theorem event_unique {w : World} {x y : WebhookEvent} (hx : x ∈ w.hooks.events)
    (hy : y ∈ w.hooks.events) (h : x.id = y.id) : x = y :=
  Table.eq_of_clash hx hy h

/-- Two endpoints with one id are one. -/
theorem endpoint_unique {w : World} {x y : WebhookEndpoint} (hx : x ∈ w.hooks.endpoints)
    (hy : y ∈ w.hooks.endpoints) (h : x.id = y.id) : x = y :=
  Table.eq_of_clash hx hy h

/-- Two payment rows with one id are one row. -/
theorem payment_unique {w : World} {p q : Payment} (hp : p ∈ w.payments) (hq : q ∈ w.payments)
    (h : p.id = q.id) : p = q :=
  Table.eq_of_clash hp hq (.inl h)

/-- Two payment rows with one key are one row. -/
theorem payment_unique_key {w : World} {p q : Payment} (hp : p ∈ w.payments)
    (hq : q ∈ w.payments) (h : p.idempotencyKey = q.idempotencyKey) : p = q :=
  Table.eq_of_clash hp hq (.inr (.inl h))

end Knowledge

end Sorobill
