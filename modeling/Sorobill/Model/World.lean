/-
  Sorobill.Model.World
  ────────────────────
  **THE WORLD THE SERVICES CALL INTO**: the Postgres tables behind Prisma,
  the two BullMQ queues, the Stellar network, and the clock.

  One `Call` is one `await` on the outside: a Prisma call, a `queue.add`, a
  request to the Soroban RPC or to Horizon, or a reading of the clock.  `serve`
  says what it does.  Everything the outside decides comes in through `Env`:
  the time, whether the call rejects (a rejected call has no effect), fresh
  ids, the order of a result list, and the answers of the network.

  Two fields of the world are records of what happened, which no code reads:
  `chain` lists the transactions the network accepted, `successes` the
  moments at which payment rows were set to SUCCESS.
-/
import Sorobill.Library.JobQueue
import Sorobill.Library.Program
import Sorobill.Model.Schema

namespace Sorobill

open Relational
open JavaScript (JsValue)

/-! ## §1. Errors and the contract. -/

/-- Thrown errors, as far as a `catch` block tells them apart. -/
inductive Thrown where
  /-- `SorobanBillingFailedError`. -/
  | sorobanBillingFailed (txHash : String)
  | error (message : String)
  deriving DecidableEq

/-- `err instanceof Error ? err.message : String(err)`. -/
def Thrown.message : Thrown → String
  | .sorobanBillingFailed _ => "Soroban billing returned Failed"
  | .error message => message

/-- The answer of the contract to `execute_billing`. -/
inductive BillingOutcome where
  | Paid
  | Failed
  deriving DecidableEq, Repr

/-- A contract call: method and arguments. -/
structure Invocation where
  method : String
  admin : String
  subscriber : String
  contractPlanId : Nat
  deriving DecidableEq

/-- A transaction the network accepted, the idempotency key of the payment
it was submitted for, and the contract's answer if it is applied. -/
structure Tx where
  hash : String
  issuedFor : String
  invocation : Invocation
  applied : Option BillingOutcome
  deriving DecidableEq

/-- `rpc.Api.GetTransactionStatus` with the return value. -/
inductive TxStatus where
  | NOT_FOUND
  | SUCCESS (returnValue : Option JsValue)
  | FAILED

/-- One round of the polling loop: `Date.now()` as the loop reads it, and the
answer of the `getTransaction` that ends the round. -/
structure Poll where
  now : Instant
  status : TxStatus

/-- The answers of the network. -/
inductive Network where
  | unreachable
  | account
  | simulated (error : Option String)
  | refused (detail : String)
  | accepted (hash : String) (applied : Option BillingOutcome)
  | polled (first : TxStatus) (started : Instant) (polls : List Poll)
  | submitted (hash : String) (ledger : Option Int)

/-! ## §2. The world and its environment. -/

/-- A payment row was set to SUCCESS. -/
structure Success where
  payment : Payment
  now : Instant

/-- The webhook tables and queue. -/
structure Hooks where
  endpoints : Table WebhookEndpoint WebhookEndpoint.Clash := .empty
  events : Table WebhookEvent WebhookEvent.Clash := .empty
  deliveries : Table WebhookDelivery WebhookDelivery.Clash := .empty
  queue : JobQueue.Queue String := {}

structure World where
  plans : Table Plan Plan.Clash
  wallets : Table Wallet Wallet.Clash
  subscriptions : Table Subscription Subscription.Clash
  payments : Table Payment Payment.Clash
  hooks : Hooks := {}
  billingQueue : JobQueue.Queue String := {}
  chain : List Tx := []
  successes : List Success := []

/-- What the outside decides about one call. -/
structure Env where
  now : Instant
  rejects : Option String := none
  freshIds : List String := []
  rows : List Subscription := []
  network : Network := .unreachable

/-! ## §3. Calls. -/

/-- `where` of `prisma.subscription.findMany`; an absent field does not
restrict. -/
structure SubscriptionWhere where
  status : List SubscriptionStatus
  currentPeriodEndLte : Option Instant := none
  gracePeriodEndsAtLte : Option Instant := none
  cancelAtPeriodEnd : Option Bool := none
  paused : Option Bool := none

/-- A row meets the condition; a `null` column is not `lte` anything. -/
def SubscriptionWhere.selects (c : SubscriptionWhere) (s : Subscription) : Bool :=
  c.status.contains s.status
    && c.currentPeriodEndLte.all (fun t => decide (s.currentPeriodEnd ≤ t))
    && c.gracePeriodEndsAtLte.all (fun t => s.gracePeriodEndsAt.any (fun g => decide (g ≤ t)))
    && c.cancelAtPeriodEnd.all (fun b => s.cancelAtPeriodEnd == b)
    && c.paused.all (fun b => s.paused == b)

/-- `where` of `prisma.payment.findUnique`. -/
inductive PaymentKey where
  | byId (id : String)
  | byKey (idempotencyKey : String)
  deriving DecidableEq

def PaymentKey.selects : PaymentKey → Payment → Bool
  | .byId id, p => p.id == id
  | .byKey key, p => p.idempotencyKey == key

/-- A subscription with its `plan` and `wallet`. -/
structure SubscriptionWithPlan extends Subscription where
  plan : Plan
  wallet : Wallet

/-- `data` of `prisma.subscription.create`. -/
structure SubscriptionCreate where
  planId : String
  walletId : String
  status : SubscriptionStatus
  currentPeriodStart : JsDate
  currentPeriodEnd : JsDate
  trialEndsAt : Option JsDate
  contractPlanId : Option Nat

/-- `data` of `prisma.payment.create`. -/
structure PaymentCreate where
  subscriptionId : String
  amount : String
  assetCode : String
  assetIssuer : Option String
  idempotencyKey : String
  billingPeriodStart : Instant
  billingPeriodEnd : Instant
  testMode : Bool

/-- One `await` on the outside. -/
inductive Call where
  /-- `Date.now()` or `new Date()`. -/
  | dateNow
  | planFindUnique (id : String)
  | walletUpsert (address : String)
  | subscriptionFindUnique (id : String)
  /-- `findUnique` with `include: { plan: true, wallet: true }`. -/
  | subscriptionFindUniqueWithPlan (id : String)
  | subscriptionFindMany (condition : SubscriptionWhere)
  | subscriptionCreate (data : SubscriptionCreate)
  | subscriptionUpdate (id : String) (data : SubscriptionData)
  | paymentFindUnique (key : PaymentKey)
  | paymentCreate (data : PaymentCreate)
  | paymentUpdate (id : String) (data : PaymentData)
  /-- `updateMany` with `where: { subscriptionId, status }`. -/
  | paymentUpdateMany (subscriptionId : String) (status : PaymentStatus)
      (data : PaymentData)
  /-- `findMany` with `where: { isActive: true, events: { has: type } }`. -/
  | webhookEndpointFindMany (type : WebhookEventType)
  | webhookEventCreate (type : WebhookEventType) (paymentId : Option String)
      (payload : JsValue)
  /-- `$transaction` of one `webhookDelivery.create` for each endpoint. -/
  | webhookDeliveryCreateAll (eventId : String) (endpointIds : List String)
  | webhookQueueAdd (deliveryId : String)
  | billingQueueAdd (name : String) (subscriptionId : String) (jobId : Option String)
  | getAccount (publicKey : String)
  | simulateTransaction (invocation : Invocation)
  /-- `issuedFor` is not sent: it records the key the call is made for. -/
  | sendTransaction (issuedFor : String) (invocation : Invocation)
  /-- The polling loop on `getTransaction(hash)`. -/
  | awaitTransaction (hash : String)
  | loadAccount (publicKey : String)
  /-- Horizon: a `payment` operation with a text memo. -/
  | submitTransaction (destination amount assetCode : String)
      (assetIssuer : Option String) (memo : String)

/-- `send.status === "ERROR"` with its detail, or the hash. -/
inductive SendStatus where
  | ERROR (detail : String)
  | accepted (hash : String)

/-- What a call is answered with. -/
@[reducible] def Call.Reply : Call → Type
  | .dateNow => Instant
  | .planFindUnique _ => Option Plan
  | .walletUpsert _ => Wallet
  | .subscriptionFindUnique _ => Option Subscription
  | .subscriptionFindUniqueWithPlan _ => Option SubscriptionWithPlan
  | .subscriptionFindMany _ => List Subscription
  | .subscriptionCreate _ => Subscription
  | .subscriptionUpdate _ _ => Subscription
  | .paymentFindUnique _ => Option Payment
  | .paymentCreate _ => Payment
  | .paymentUpdate _ _ => Payment
  | .paymentUpdateMany _ _ _ => Unit
  | .webhookEndpointFindMany _ => List WebhookEndpoint
  | .webhookEventCreate _ _ _ => WebhookEvent
  | .webhookDeliveryCreateAll _ _ => List WebhookDelivery
  | .webhookQueueAdd _ => Unit
  | .billingQueueAdd _ _ _ => Unit
  | .getAccount _ => Unit
  | .simulateTransaction _ => Option String
  | .sendTransaction _ _ => SendStatus
  | .awaitTransaction _ => JsValue
  | .loadAccount _ => Unit
  | .submitTransaction _ _ _ _ _ => String × Option Int

/-- The interface of the backend's services. -/
@[reducible] def Api : Effect.Interface where
  Call := Call
  Reply := Call.Reply
  Error := Thrown

/-- A service function. -/
abbrev Service (α : Type) : Type := Effect.Prog Api α

/-! ## §4. Serving calls. -/

/-- The polling loop of `invokeAsAdmin`: while the answer is NOT_FOUND, give
up when more than 60 s have passed since `started`, else wait and ask again.
A list that ends there is a `getTransaction` that rejects. -/
def pollTransaction (hash : String) (started : Instant) :
    TxStatus → List Poll → Except Thrown JsValue
  | .NOT_FOUND, [] => .error (.error "getTransaction failed")
  | .NOT_FOUND, p :: polls =>
      -- the deadline is tested before each further `getTransaction`
      if p.now.ms - started.ms > 60000 then
        .error (.error s!"Timed out waiting for tx {hash}")
      else pollTransaction hash started p.status polls
  | .FAILED, _ => .error (.error s!"Soroban tx failed: {hash}")
  | .SUCCESS returnValue, _ => .ok (returnValue.getD .null)

/-- The rows of a `findMany`, in the order the environment names (any
permutation; Postgres promises none). -/
def arrange (rows proposed : List Subscription) : List Subscription :=
  if proposed.Perm rows then proposed else rows

/-- `prisma.subscription.update({ where: { id }, data })` at the time `now`. -/
def World.updateSubscription (w : World) (now : Instant) (id : String)
    (data : SubscriptionData) : Except Thrown Subscription × World :=
  if data.valid then
    match w.subscriptions.find? (·.id == id) with
    | none => (.error (.error "Record to update not found."), w)
    | some old =>
        match w.subscriptions.update? (·.id == id) (data.apply now) with
        | none => (.error (.error "Unique constraint failed"), w)
        | some subscriptions => (.ok (data.apply now old), { w with subscriptions })
  else (.error (.error "Provided Date object is invalid"), w)

/-- `prisma.payment.update({ where: { id }, data })` at the time `now`. -/
def World.updatePayment (w : World) (now : Instant) (id : String) (data : PaymentData) :
    Except Thrown Payment × World :=
  if data.valid then
    match w.payments.find? (·.id == id) with
    | none => (.error (.error "Record to update not found."), w)
    | some old =>
        match w.payments.update? (·.id == id) data.apply with
        | none => (.error (.error "Unique constraint failed"), w)
        | some payments =>
            (.ok (data.apply old),
              { w with
                payments
                successes :=
                  if data.status = some .SUCCESS then
                    w.successes ++ [⟨data.apply old, now⟩]
                  else w.successes })
  else (.error (.error "Provided Date object is invalid"), w)

/-- `prisma.payment.updateMany({ where: { subscriptionId, status }, data })`. -/
def World.updatePayments (w : World) (subscriptionId : String) (status : PaymentStatus)
    (data : PaymentData) : Except Thrown Unit × World :=
  if data.valid then
    match w.payments.update?
        (fun p => p.subscriptionId == subscriptionId && p.status == status) data.apply with
    | none => (.error (.error "Unique constraint failed"), w)
    | some payments => (.ok (), { w with payments })
  else (.error (.error "Provided Date object is invalid"), w)

/-- `prisma.payment.create`. -/
def World.createPayment (w : World) (id : String) (data : PaymentCreate) :
    Except Thrown Payment × World :=
  let payment : Payment :=
    { id
      subscriptionId := data.subscriptionId
      amount := data.amount
      assetCode := data.assetCode
      assetIssuer := data.assetIssuer
      idempotencyKey := data.idempotencyKey
      testMode := data.testMode
      billingPeriodStart := data.billingPeriodStart
      billingPeriodEnd := data.billingPeriodEnd }
  match w.payments.insert? payment with
  | none => (.error (.error "Unique constraint failed"), w)
  | some payments => (.ok payment, { w with payments })

/-- `prisma.subscription.create` at the time `now`. -/
def World.createSubscription (w : World) (now : Instant) (id : String)
    (data : SubscriptionCreate) : Except Thrown Subscription × World :=
  -- `trialEndsAt: null` is a value, an Invalid Date is not
  match data.currentPeriodStart, data.currentPeriodEnd, data.trialEndsAt with
  | some start, some finish, none | some start, some finish, some (some _) =>
      let sub : Subscription :=
        { id
          planId := data.planId
          walletId := data.walletId
          status := data.status
          currentPeriodStart := start
          currentPeriodEnd := finish
          trialEndsAt := data.trialEndsAt.getD none
          contractPlanId := data.contractPlanId
          updatedAt := now }
      match w.subscriptions.insert? sub with
      | none => (.error (.error "Unique constraint failed"), w)
      | some subscriptions => (.ok sub, { w with subscriptions })
  | _, _, _ => (.error (.error "Provided Date object is invalid"), w)

/-- `include: { plan: true, wallet: true }`. -/
def World.withPlan (w : World) (sub : Subscription) : Option SubscriptionWithPlan := do
  let plan ← w.plans.find? (·.id == sub.planId)
  let wallet ← w.wallets.find? (·.id == sub.walletId)
  return { sub with plan, wallet }

/-- Insert rows one after the other; all or none. -/
def insertAll (t : Table WebhookDelivery WebhookDelivery.Clash) :
    List WebhookDelivery → Option (Table WebhookDelivery WebhookDelivery.Clash)
  | [] => some t
  | d :: ds => (t.insert? d).bind (fun t => insertAll t ds)

/-- A call that does not reject. -/
def World.answer (w : World) (env : Env) : (c : Call) → Except Thrown c.Reply × World
  | .dateNow => (.ok env.now, w)
  | .planFindUnique id => (.ok (w.plans.find? (·.id == id)), w)
  | .walletUpsert address =>
      match w.wallets.find? (·.address == address) with
      -- `update: {}` changes nothing
      | some wallet => (.ok wallet, w)
      | none =>
          let wallet : Wallet := { id := env.freshIds.headD "", address }
          match w.wallets.insert? wallet with
          | none => (.error (.error "Unique constraint failed"), w)
          | some wallets => (.ok wallet, { w with wallets })
  | .subscriptionFindUnique id => (.ok (w.subscriptions.find? (·.id == id)), w)
  | .subscriptionFindUniqueWithPlan id =>
      (.ok ((w.subscriptions.find? (·.id == id)).bind w.withPlan), w)
  | .subscriptionFindMany condition =>
      (.ok (arrange (w.subscriptions.filter condition.selects) env.rows), w)
  | .subscriptionCreate data => w.createSubscription env.now (env.freshIds.headD "") data
  | .subscriptionUpdate id data => w.updateSubscription env.now id data
  | .paymentFindUnique key => (.ok (w.payments.find? key.selects), w)
  | .paymentCreate data => w.createPayment (env.freshIds.headD "") data
  | .paymentUpdate id data => w.updatePayment env.now id data
  | .paymentUpdateMany subscriptionId status data =>
      w.updatePayments subscriptionId status data
  | .webhookEndpointFindMany type =>
      (.ok (w.hooks.endpoints.filter (fun e => e.isActive && e.events.contains type)), w)
  | .webhookEventCreate type paymentId payload =>
      let event : WebhookEvent :=
        { id := env.freshIds.headD "", type, paymentId, payload, createdAt := env.now }
      match w.hooks.events.insert? event with
      | none => (.error (.error "Unique constraint failed"), w)
      | some events => (.ok event, { w with hooks := { w.hooks with events } })
  | .webhookDeliveryCreateAll eventId endpointIds =>
      let deliveries := List.zipWith (fun id endpointId =>
        { id, webhookEventId := eventId, webhookEndpointId := endpointId : WebhookDelivery })
        env.freshIds endpointIds
      match insertAll w.hooks.deliveries deliveries with
      | none => (.error (.error "Unique constraint failed"), w)
      | some table =>
          -- `zipWith` stops early when the environment names too few ids
          if deliveries.length = endpointIds.length then
            (.ok deliveries, { w with hooks := { w.hooks with deliveries := table } })
          else (.error (.error "Transaction failed"), w)
  | .webhookQueueAdd deliveryId =>
      (.ok (), { w with hooks := { w.hooks with
        queue := w.hooks.queue.add "deliver" deliveryId (some s!"webhook:{deliveryId}") } })
  | .billingQueueAdd name subscriptionId jobId =>
      (.ok (), { w with billingQueue := w.billingQueue.add name subscriptionId jobId })
  | .getAccount _ =>
      match env.network with
      | .account => (.ok (), w)
      | _ => (.error (.error "getAccount failed"), w)
  | .simulateTransaction _ =>
      match env.network with
      | .simulated error => (.ok error, w)
      | _ => (.error (.error "simulateTransaction failed"), w)
  | .sendTransaction issuedFor invocation =>
      match env.network with
      -- a refusal is an answer: the source looks at `send.status`
      | .refused detail => (.ok (.ERROR detail), w)
      | .accepted hash applied =>
          (.ok (.accepted hash),
            { w with chain := w.chain ++ [⟨hash, issuedFor, invocation, applied⟩] })
      | _ => (.error (.error "sendTransaction failed"), w)
  | .awaitTransaction hash =>
      match env.network with
      | .polled first started polls => (pollTransaction hash started first polls, w)
      | _ => (.error (.error "getTransaction failed"), w)
  | .loadAccount _ =>
      match env.network with
      | .account => (.ok (), w)
      | _ => (.error (.error "loadAccount failed"), w)
  | .submitTransaction _ _ _ _ _ =>
      match env.network with
      | .submitted hash ledger => (.ok (hash, ledger), w)
      | _ => (.error (.error "submitTransaction failed"), w)

/-- **The backend**: a rejected call has no effect. -/
def api : Effect.Backend Api World Env where
  serve c env w :=
    match env.rejects with
    | some message => (.error (.error message), w)
    | none => w.answer env c

/-- An event of a run. -/
abbrev CallEvent := Effect.Event Api World Env

end Sorobill
