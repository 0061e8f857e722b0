/-
  Sorobill.System.Laws
  ────────────────────
  **LAWFUL CALLS, AND WHAT ONE STEP OF THE SERVER DOES.**

  A call is lawful when what it writes is backed by what is stored: a payment
  by a subscription and its plan, a transaction by a payment row, a SUCCESS by
  a transaction, an event by the rows it names, a request to an endpoint by an
  event that the endpoint has subscribed to.

    • `PaymentRecord`, `Tx.Authorised`, `Announced`, … — the laws, one for each
      kind of write;
    • `ServerCall.Lawful` — the law of a call;
    • `Server.Step` — what one step does to each table, queue and record;
    • `Server.Step.grows` — no step loses anything.
-/
import Sorobill.System.Records

namespace Sorobill

open Effect
open Relational
open Relational.Table (Carries Evolves)
open JavaScript (JsValue)
open JobQueue.Queue (Stems)

/-! ## §1. The laws. -/

/-- **A deployment from a moment on**: what is there at the start is told from
what comes later. -/
structure Epoch extends Deployment where
  start : Server := Server.fresh

/-- The plan was inactive at the start. -/
def Epoch.RetiredPlan (d : Epoch) (id : String) : Prop :=
  ∃ p ∈ d.start.core.plans, p.id = id ∧ p.isActive = false

/-- The endpoint was inactive at the start. -/
def Epoch.RetiredEndpoint (d : Epoch) (id : String) : Prop :=
  ∃ e ∈ d.start.core.hooks.endpoints, e.id = id ∧ e.isActive = false

/-- The hashes recorded in test mode. -/
def mockHashes (key : String) : List String := [s!"soroban_test_{key}", s!"test_{key}"]

/-- **What may be written in the payment row `p`.** -/
inductive PaymentRecord (cfg : Config) (s : Server) (p : Payment) : PaymentData → Prop where
  | begun : cfg.billing.testMode = false →
      PaymentRecord cfg s p { status := some .PROCESSING }
  /-- A transaction was accepted for the key. -/
  | paid (tx : Tx) : cfg.billing.testMode = false → tx ∈ s.core.chain →
      tx.issuedFor = p.idempotencyKey →
      PaymentRecord cfg s p { status := some .SUCCESS, stellarTxHash := some tx.hash }
  /-- Likewise, and the contract has answered Failed. -/
  | refused (tx : Tx) (reason : String) : cfg.billing.testMode = false → tx ∈ s.core.chain →
      tx.issuedFor = p.idempotencyKey →
      PaymentRecord cfg s p
        { status := some .FAILED
          stellarTxHash := some tx.hash
          failureReason := some (some reason) }
  | failed (reason : String) : cfg.billing.testMode = false → p.status ≠ .PENDING →
      PaymentRecord cfg s p
        { status := some .FAILED, failureReason := some (some reason) }
  | mock (hash : String) : cfg.billing.testMode = true → hash ∈ mockHashes p.idempotencyKey →
      PaymentRecord cfg s p { status := some .SUCCESS, stellarTxHash := some hash }
  | retrying (nextRetryAt : JsDate) (retryCount : Nat) : p.status = .FAILED →
      PaymentRecord cfg s p
        { status := some .RETRYING
          nextRetryAt := some nextRetryAt
          retryCount := some retryCount }

/-- A write of the row `p` to `p'`. -/
inductive Payment.Written (cfg : Config) (s : Server) (p : Payment) : Payment → Prop where
  | kept : Payment.Written cfg s p p
  | recorded {data : PaymentData} : PaymentRecord cfg s p data →
      Payment.Written cfg s p (data.apply p)

/-- **A new payment** is that of a cycle that knows its subscription. -/
def Payment.Created (cfg : Config) (s : Server) (p : Payment) : Prop :=
  ∃ sub id, s.Knows sub
    ∧ p = (processBillingCycle.paymentData cfg sub
        (billingIdempotencyKey sub.id sub.currentPeriodEnd)).row id

/-- **A transaction is authorised**: it charges the wallet of the subscription
whose payment it is submitted for, under a contract id of its plan, in the name
of the treasury, and the row has left PENDING. -/
structure Tx.Authorised (cfg : Config) (s : Server) (key : String) (inv : Invocation) : Prop where
  live : cfg.billing.testMode = false
  soroban : cfg.billing.useSorobanBilling = true ∧ hasSorobanContract cfg = true
  method : inv.method = "execute_billing"
  admin : cfg.publicKeyOfSecret cfg.stellar.treasurySecretKey = some inv.admin
  row : ∃ p ∈ s.core.payments, p.idempotencyKey = key ∧ p.status ≠ .PENDING
    ∧ ∃ x ∈ s.core.subscriptions, x.id = p.subscriptionId
      ∧ (∃ y ∈ s.core.wallets, y.id = x.walletId ∧ y.address = inv.subscriber)
      ∧ (x.planId, inv.contractPlanId) ∈ s.contracts

/-- **How a payment was collected**: by the contract, under a contract id of its
plan, or, in test mode, not at all. -/
inductive Payment.Collected (cfg : Config) (s : Server) (p : Payment) : String → Prop where
  | soroban : cfg.billing.useSorobanBilling = true → hasSorobanContract cfg = true →
      (∃ x ∈ s.core.subscriptions, x.id = p.subscriptionId
        ∧ ∃ n, (x.planId, n) ∈ s.contracts) →
      Payment.Collected cfg s p "soroban"
  | horizon : cfg.billing.testMode = true → Payment.Collected cfg s p "horizon"

/-- **What may be announced.** -/
inductive Announced (cfg : Config) (s : Server) :
    WebhookEventType → Option String → JsValue → Prop where
  | paid (p : Payment) (mode : String) : p ∈ s.core.payments → s.Booked p.id →
      p.Collected cfg s mode →
      Announced cfg s .PAYMENT_SUCCESS (some p.id) (.object
        [("subscriptionId", .string p.subscriptionId),
         ("amount", .string p.amount),
         ("assetCode", .string p.assetCode),
         ("mode", .string mode)])
  | failed (p : Payment) (retryCount : Nat) (now gracePeriodEndsAt : Instant) :
      p ∈ s.core.payments → cfg.billing.maxRetries ≤ retryCount →
      hoursFrom now cfg.billing.gracePeriodHours = some gracePeriodEndsAt →
      Announced cfg s .PAYMENT_FAILED (some p.id) (.object
        [("subscriptionId", .string p.subscriptionId),
         ("retryCount", .number (.finite retryCount)),
         ("gracePeriodEndsAt", .string gracePeriodEndsAt.toISOString)])
  | created (id : String) : s.HasSubscription id →
      Announced cfg s .SUBSCRIPTION_CREATED none (.object [("subscriptionId", .string id)])
  /-- By a request. -/
  | cancelled (id : String) (immediately : Bool) : s.HasSubscription id →
      Announced cfg s .SUBSCRIPTION_CANCELLED none (.object
        [("subscriptionId", .string id), ("immediately", .bool immediately)])
  /-- By a tick. -/
  | expired (id : String) : s.HasSubscription id →
      Announced cfg s .SUBSCRIPTION_CANCELLED none (.object
        [("subscriptionId", .string id), ("reason", .string "grace_period_expired")])
  /-- `POST /webhooks/test`. -/
  | test (type : WebhookEventType) (payload : List (String × JsValue)) :
      Announced cfg s type none (.object (withProp "test" (.bool true) payload))

/-- **A request to an endpoint is authentic**: it carries a stored event of a
type that the endpoint has subscribed to, signed with its secret. -/
def Server.Authentic (js : Builtins) (s : Server) (url body : String)
    (headers : List (String × String)) : Prop :=
  ∃ event ∈ s.core.hooks.events, ∃ endpoint ∈ s.core.hooks.endpoints,
    event.type ∈ endpoint.events ∧ url = endpoint.url ∧ body = deliverWebhook.body js event
      ∧ headers = [("Content-Type", "application/json"),
          ("X-Sorobill-Signature", signWebhookPayload js endpoint.secret body),
          ("X-Sorobill-Event", event.type.name)]

/-- Somebody has signed a message with the key of this address. -/
def Signed (sdk : Sdk) (address : String) : Prop :=
  ∃ message signature, verifySignedMessage sdk address message signature = true

/-- What the schemas of both routes check of a plan, and its columns. -/
structure Plan.Accepted (p : Plan) : Prop where
  amount : Regex.test amountRegex p.amount = true
  intervalCount : 1 ≤ p.intervalCount
  trialDays : 0 ≤ p.trialDays

/-- What `createEndpointSchema` checks. -/
structure WebhookEndpoint.Accepted (isUrl : String → Bool) (e : WebhookEndpoint) : Prop where
  url : isUrl e.url = true
  secret : 16 ≤ utf16Length e.secret
  events : e.events ≠ []

/-! ## §2. The law of a call. -/

def Call.Lawful (d : Epoch) (s : Server) : Call → Prop
  | .subscriptionCreate data =>
      s.HasPlan data.planId ∧ s.HasWallet data.walletId ∧ data.status ≠ .EXPIRED
        ∧ ¬ d.RetiredPlan data.planId
  | .subscriptionUpdate _ data => data.status ≠ some .EXPIRED
  | .paymentCreate data =>
      ∃ sub, s.Knows sub ∧ data = processBillingCycle.paymentData d.cfg sub
        (billingIdempotencyKey sub.id sub.currentPeriodEnd)
  | .paymentUpdate id data => ∀ p ∈ s.core.payments, p.id = id → PaymentRecord d.cfg s p data
  | .paymentUpdateMany _ status data =>
      ∃ nextRetryAt retryCount, status = .FAILED ∧ data =
        { status := some .RETRYING
          nextRetryAt := some nextRetryAt
          retryCount := some retryCount }
  | .webhookEventCreate type paymentId payload => Announced d.cfg s type paymentId payload
  | .webhookDeliveryCreateAll eventId endpointIds =>
      ∃ event ∈ s.core.hooks.events, event.id = eventId
        ∧ ∀ id ∈ endpointIds, s.Subscribes id event.type ∧ ¬ d.RetiredEndpoint id
  | .webhookQueueAdd deliveryId => s.HasDelivery deliveryId
  | .billingQueueAdd name subscriptionId _ => name = "bill" ∨ s.HasSubscription subscriptionId
  | .sendTransaction key invocation => Tx.Authorised d.cfg s key invocation
  | _ => True

def ServerCall.Lawful (d : Epoch) (s : Server) : ServerCall → Prop
  | .core c => c.Lawful d s
  | .delivery (.post url body headers) => s.Authentic d.webhook url body headers
  | .delivery (.moveToFailed job) => s.HasDelivery job.data
  | .delivery _ => True
  | .index (.chainEventUpsert args) =>
      (d.production = true → s.verified ≠ [])
        ∧ args.create.txHash = args.txHash
        ∧ ∃ hash, args.txHash = Indexer.normalizeTxHash d.indexer hash
  | .index _ => True
  | .planCreate data => ∀ id plan, data.row id = some plan → plan.Accepted
  | .planUpdate _ data => data.isActive ≠ some true
  | .webhookEndpointCreate data => ∀ id, (data.row id).Accepted d.isUrl
  | .webhookEndpointDeactivate _ => True
  | .walletUpsertVerified address => Signed d.sdk address

/-! ## §3. What a step does. -/

/-- A new delivery is for an endpoint that has subscribed to the event. -/
def WebhookDelivery.Addressed (s : Server) (x : WebhookDelivery) : Prop :=
  ∃ event ∈ s.core.hooks.events, event.id = x.webhookEventId
    ∧ s.Subscribes x.webhookEndpointId event.type

/-- **One step of the server.** -/
structure Server.Step (d : Epoch) (s s' : Server) : Prop where
  plans : Evolves Plan.Becomes Plan.Accepted s.core.plans s'.core.plans
  contracts : ∀ c ∈ s.contracts, c ∈ s'.contracts
  recorded : ∀ p' ∈ s'.core.plans,
    (∃ p ∈ s.core.plans, p.id = p'.id ∧ p.contractPlanId = p'.contractPlanId)
      ∨ ∀ n, p'.contractPlanId = some n → (p'.id, n) ∈ s'.contracts
  wallets : ∀ x ∈ s.core.wallets, x ∈ s'.core.wallets
  verified : ∀ a ∈ s.verified, a ∈ s'.verified
  signed : ∀ a ∈ s'.verified, a ∈ s.verified
    ∨ Signed d.sdk a ∧ ∃ x ∈ s'.core.wallets, x.address = a
  subscriptions : Evolves Subscription.Becomes
    (fun x => s.HasPlan x.planId ∧ s.HasWallet x.walletId ∧ x.status ≠ .EXPIRED
      ∧ ¬ d.RetiredPlan x.planId)
    s.core.subscriptions s'.core.subscriptions
  payments : Evolves (Payment.Written d.cfg s) (Payment.Created d.cfg s)
    s.core.payments s'.core.payments
  successes : ∀ x ∈ s.core.successes, x ∈ s'.core.successes
  /-- A row that is set to SUCCESS is recorded. -/
  booked : ∀ p' ∈ s'.core.payments, p'.status = .SUCCESS → p' ∈ s.core.payments ∨ s'.Booked p'.id
  receipts : ∀ x ∈ s'.core.successes, x ∈ s.core.successes
    ∨ ∃ p ∈ s'.core.payments, p.id = x.payment.id ∧ p.stellarTxHash ≠ none
  chain : ∃ new, s'.core.chain = s.core.chain ++ new
    ∧ ∀ tx ∈ new, Tx.Authorised d.cfg s tx.issuedFor tx.invocation
  endpoints : Evolves WebhookEndpoint.Becomes (WebhookEndpoint.Accepted d.isUrl)
    s.core.hooks.endpoints s'.core.hooks.endpoints
  events : Evolves Eq (fun x => Announced d.cfg s x.type x.paymentId x.payload)
    s.core.hooks.events s'.core.hooks.events
  deliveries : Evolves WebhookDelivery.Becomes
    (fun x => x.Addressed s ∧ ¬ d.RetiredEndpoint x.webhookEndpointId)
    s.core.hooks.deliveries s'.core.hooks.deliveries
  deliveryJobs : Stems (fun _ data => s.HasDelivery data)
    s.core.hooks.queue s'.core.hooks.queue
  billingJobs : Stems (fun name data => name = "bill" ∨ s.HasSubscription data)
    s.core.billingQueue s'.core.billingQueue
  chainEvents : ∀ x' ∈ s'.index.chainEvents,
    (∃ x ∈ s.index.chainEvents, x.txHash = x'.txHash)
      ∨ (d.production = true → s.verified ≠ [])
        ∧ ∃ hash, x'.txHash = Indexer.normalizeTxHash d.indexer hash

theorem Server.Step.refl (d : Epoch) (s : Server) : s.Step d s where
  plans := .refl Plan.Becomes.refl _
  contracts _ h := h
  recorded p hp := .inl ⟨p, hp, rfl, rfl⟩
  wallets _ h := h
  verified _ h := h
  signed _ h := .inl h
  subscriptions := .refl Subscription.Becomes.refl _
  payments := .refl (fun _ => .kept) _
  successes _ h := h
  booked _ h _ := .inl h
  receipts _ h := .inl h
  chain := ⟨[], (List.append_nil _).symm, by simp⟩
  endpoints := .refl WebhookEndpoint.Becomes.refl _
  events := .refl (fun _ => rfl) _
  deliveries := .refl WebhookDelivery.Becomes.refl _
  deliveryJobs := .refl _
  billingJobs := .refl _
  chainEvents x hx := .inl ⟨x, hx, rfl⟩

/-- A payment record rewrites no key, and never goes back to PENDING. -/
theorem PaymentRecord.becomes {cfg : Config} {s : Server} {p : Payment} {data : PaymentData}
    (h : PaymentRecord cfg s p data) : p.Becomes (data.apply p) := by
  refine ⟨rfl, rfl, rfl, rfl, rfl, rfl, rfl, rfl, rfl, fun hpending => ?_, fun hhash => ?_⟩
  · cases h <;> cases hpending
  · show data.stellarTxHash.or p.stellarTxHash ≠ none
    exact fun hnone => hhash (Option.or_eq_none_iff.mp hnone).2

theorem Payment.Written.becomes {cfg : Config} {s : Server} {p p' : Payment}
    (h : p.Written cfg s p') : p.Becomes p' := by
  cases h with
  | kept => exact .refl p
  | recorded hrecord => exact hrecord.becomes

/-- **No step loses anything.** -/
theorem Server.Step.grows {d : Epoch} {s s' : Server} (h : s.Step d s') : s.Grows s' where
  plans := h.plans.carried
  contracts := h.contracts
  wallets := h.wallets
  verified := h.verified
  subscriptions := h.subscriptions.carried
  payments := h.payments.carried.mono (fun _ _ hw => hw.becomes)
  successes := h.successes
  chain := by
    obtain ⟨new, heq, -⟩ := h.chain
    intro tx htx
    rw [heq]
    exact List.mem_append_left _ htx
  endpoints := h.endpoints.carried
  events _ hx := h.events.mem hx
  deliveries := h.deliveries.carried

end Sorobill
