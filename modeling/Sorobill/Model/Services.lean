/-
  Sorobill.Model.Services
  ───────────────────────
  **THE SERVICES**, function by function:
  `src/lib/billing-outcome.ts`, `src/lib/soroban.ts`,
  `src/services/webhook.service.ts`, `src/services/payment.service.ts`,
  `src/services/soroban-billing.service.ts`,
  `src/services/billing.service.ts`.

  Each `await` of the source is one `perform`; the body of each `try` block
  has a name of its own.  Logging is left out.
-/
import Sorobill.Model.World

namespace Sorobill

open Effect
open JavaScript (JsValue JsNumber)

/-! ## §1. Awaited calls, under the names of the source. -/

/-- `await` on the outside. -/
def await (c : Call) : Service c.Reply := Prog.perform (I := Api) c

def dateNow : Service Instant := await .dateNow

namespace prisma

def plan.findUnique (id : String) : Service (Option Plan) :=
  await (.planFindUnique id)

def wallet.upsert (address : String) : Service Wallet :=
  await (.walletUpsert address)

def subscription.findUnique (id : String) : Service (Option Subscription) :=
  await (.subscriptionFindUnique id)

/-- With `include: { plan: true, wallet: true }`. -/
def subscription.findUniqueWithPlan (id : String) : Service (Option SubscriptionWithPlan) :=
  await (.subscriptionFindUniqueWithPlan id)

def subscription.findUniqueOrThrow (id : String) : Service SubscriptionWithPlan := do
  match ← subscription.findUniqueWithPlan id with
  | some sub => pure sub
  | none => throw (.error "No Subscription found")

def subscription.findMany (condition : SubscriptionWhere) : Service (List Subscription) :=
  await (.subscriptionFindMany condition)

def subscription.create (data : SubscriptionCreate) : Service Subscription :=
  await (.subscriptionCreate data)

def subscription.update (id : String) (data : SubscriptionData) : Service Subscription :=
  await (.subscriptionUpdate id data)

def payment.findUnique (key : PaymentKey) : Service (Option Payment) :=
  await (.paymentFindUnique key)

def payment.create (data : PaymentCreate) : Service Payment :=
  await (.paymentCreate data)

def payment.update (id : String) (data : PaymentData) : Service Payment :=
  await (.paymentUpdate id data)

def payment.updateMany (subscriptionId : String) (status : PaymentStatus)
    (data : PaymentData) : Service Unit :=
  await (.paymentUpdateMany subscriptionId status data)

def webhookEndpoint.findMany (type : WebhookEventType) : Service (List WebhookEndpoint) :=
  await (.webhookEndpointFindMany type)

def webhookEvent.create (type : WebhookEventType) (paymentId : Option String)
    (payload : JsValue) : Service WebhookEvent :=
  await (.webhookEventCreate type paymentId payload)

def webhookDelivery.createAll (eventId : String) (endpointIds : List String) :
    Service (List WebhookDelivery) :=
  await (.webhookDeliveryCreateAll eventId endpointIds)

end prisma

def billingQueue.add (name subscriptionId : String) (jobId : Option String) : Service Unit :=
  await (.billingQueueAdd name subscriptionId jobId)

def webhookQueue.add (deliveryId : String) : Service Unit :=
  await (.webhookQueueAdd deliveryId)

namespace server

def getAccount (publicKey : String) : Service Unit := await (.getAccount publicKey)

def simulateTransaction (invocation : Invocation) : Service (Option String) :=
  await (.simulateTransaction invocation)

def sendTransaction (issuedFor : String) (invocation : Invocation) : Service SendStatus :=
  await (.sendTransaction issuedFor invocation)

/-- `getTransaction` in the polling loop. -/
def awaitTransaction (hash : String) : Service JsValue :=
  await (.awaitTransaction hash)

def loadAccount (publicKey : String) : Service Unit := await (.loadAccount publicKey)

def submitTransaction (destination amount assetCode : String) (assetIssuer : Option String)
    (memo : String) : Service (String × Option Int) :=
  await (.submitTransaction destination amount assetCode assetIssuer memo)

end server

/-! ## §2. `billing-outcome`. -/

/-- Normalize scValToNative enum shapes into Paid | Failed. -/
def parseBillingOutcome (result : JsValue) : Option BillingOutcome :=
  if result.isString "Paid" then some .Paid
  else if result.isString "Failed" then some .Failed
  else if result.isObject then
    let tag := (result.prop "tag").nullish (result.prop "_tag")
    if tag.isString "Paid" then some .Paid
    else if tag.isString "Failed" then some .Failed
    else if result.hasProp "Paid" then some .Paid
    else if result.hasProp "Failed" then some .Failed
    else none
  else none

/-! ## §3. `webhook.service`. -/

/-- `Promise.all`: every promise has been started, so all of them take effect
or reject on their own; one rejection rejects the whole. -/
def promiseAll : List (Service Unit) → Service Unit
  | [] => pure ()
  | p :: ps => do
      -- a rejection is kept until the others have been served
      let rejection ← tryCatch (p >>= fun _ => pure none) (fun e => pure (some e))
      promiseAll ps
      match rejection with
      | none => pure ()
      | some e => throw e

/-- Create a WebhookEvent and queue deliveries to all matching endpoints. -/
def emitWebhookEvent (type : WebhookEventType) (paymentId : Option String)
    (payload : JsValue) : Service Unit := do
  let endpoints ← prisma.webhookEndpoint.findMany type
  -- without an endpoint there is no event either
  if endpoints.isEmpty then
    pure ()
  else
    let event ← prisma.webhookEvent.create type paymentId payload
    let deliveries ← prisma.webhookDelivery.createAll event.id (endpoints.map (·.id))
    promiseAll (deliveries.map (fun delivery => webhookQueue.add delivery.id))

/-! ## §4. `soroban`. -/

def hasSorobanContract (cfg : Config) : Bool :=
  cfg.stellar.subscriptionContractId != ""

/-- `Keypair.fromSecret(secret).publicKey()`. -/
def keypairFromSecret (cfg : Config) (secret : String) : Service String :=
  match cfg.publicKeyOfSecret secret with
  | some publicKey => pure publicKey
  | none => throw (.error "invalid encoded string")

def addressToScVal (cfg : Config) (address : String) : Service String :=
  if cfg.isAddress address then pure address
  else throw (.error s!"Unsupported address type: {address}")

def getContract (cfg : Config) : Service String :=
  if cfg.stellar.subscriptionContractId = "" then
    throw (.error "SUBSCRIPTION_CONTRACT_ID is not configured")
  else pure cfg.stellar.subscriptionContractId

/-- Simulate + assemble + sign + send a contract invocation as the treasury
admin.  `issuedFor` only labels the transaction in the record. -/
def invokeAsAdmin (cfg : Config) (issuedFor : String) (invocation : Invocation) :
    Service (String × JsValue) := do
  if cfg.stellar.treasurySecretKey = "" then
    throw (.error "STELLAR_TREASURY_SECRET_KEY is required for Soroban invokes")
  else
    let publicKey ← keypairFromSecret cfg cfg.stellar.treasurySecretKey
    server.getAccount publicKey
    let _contract ← getContract cfg
    match ← server.simulateTransaction invocation with
    | some error => throw (.error s!"Soroban simulation failed: {error}")
    | none =>
        match ← server.sendTransaction issuedFor invocation with
        | .ERROR detail => throw (.error s!"Soroban submit error: {detail}")
        | .accepted hash =>
            let result ← server.awaitTransaction hash
            pure (hash, result)

/-! ## §5. `soroban-billing.service` and `payment.service`. -/

/-- `existing?.stellarTxHash && existing.status === SUCCESS`, with the hash. -/
def settledHash (existing : Option Payment) : Option String :=
  existing.bind (fun p =>
    p.stellarTxHash.filter (fun hash => hash != "" && p.status == .SUCCESS))

structure SorobanBillingParams where
  paymentId : String
  subscriberAddress : String
  contractPlanId : Nat
  idempotencyKey : String

/-- The body of the `try` block of `executeSorobanBilling`. -/
def executeSorobanBilling.attempt (cfg : Config) (params : SorobanBillingParams)
    (admin : String) : Service String := do
  -- the arguments are converted before `invokeAsAdmin` is entered
  let adminArg ← addressToScVal cfg admin
  let subscriberArg ← addressToScVal cfg params.subscriberAddress
  let (hash, result) ← invokeAsAdmin cfg params.idempotencyKey
    ⟨"execute_billing", adminArg, subscriberArg, params.contractPlanId⟩
  let outcome := parseBillingOutcome result
  if outcome = some .Failed then
    let _ ← prisma.payment.update params.paymentId
      { status := some .FAILED
        stellarTxHash := some hash
        failureReason :=
          some (some "BillingOutcome::Failed (insufficient balance or allowance)") }
    throw (.sorobanBillingFailed hash)
  else
    -- every other outcome, `null` included, counts as Paid
    let _ ← prisma.payment.update params.paymentId
      { status := some .SUCCESS, stellarTxHash := some hash }
    pure hash

/-- Its `catch` block. -/
def executeSorobanBilling.recordFailure (params : SorobanBillingParams)
    (err : Thrown) : Service String := do
  match err with
  -- the row has been set to FAILED already
  | .sorobanBillingFailed _ => throw err
  | .error message =>
      let _ ← prisma.payment.update params.paymentId
        { status := some .FAILED
          failureReason := some (some (JavaScript.sliceTo 500 message)) }
      throw err

/-- Trigger execute_billing on the Sorobill contract. -/
def executeSorobanBilling (cfg : Config) (params : SorobanBillingParams) :
    Service String := do
  let existing ← prisma.payment.findUnique (.byId params.paymentId)
  match settledHash existing with
  | some hash => pure hash
  | none =>
      if !hasSorobanContract cfg then
        throw (.error "SUBSCRIPTION_CONTRACT_ID not set")
      else if cfg.billing.testMode then
        -- no transaction is sent in test mode
        let key := params.idempotencyKey
        let mockHash := s!"soroban_test_{key}"
        let _ ← prisma.payment.update params.paymentId
          { status := some .SUCCESS, stellarTxHash := some mockHash }
        pure mockHash
      else
        let admin ← keypairFromSecret cfg cfg.stellar.treasurySecretKey
        let _ ← prisma.payment.update params.paymentId { status := some .PROCESSING }
        tryCatch (executeSorobanBilling.attempt cfg params admin)
          (executeSorobanBilling.recordFailure params)

structure PaymentParams where
  paymentId : String
  fromSecret : String
  toAddress : String
  amount : String
  assetCode : String
  assetIssuer : Option String
  idempotencyKey : String

/-- The body of the `try` block of `submitPayment`. -/
def submitPayment.attempt (params : PaymentParams) : Service String := do
  let memo := JavaScript.sliceTo 28 params.idempotencyKey
  let (hash, ledger) ← server.submitTransaction params.toAddress params.amount
    params.assetCode params.assetIssuer memo
  let _ ← prisma.payment.update params.paymentId
    { status := some .SUCCESS
      stellarTxHash := some hash
      stellarLedger := ledger.map some
      failureReason := some none }
  pure hash

/-- Its `catch` block. -/
def submitPayment.recordFailure (params : PaymentParams) (err : Thrown) :
    Service String := do
  let _ ← prisma.payment.update params.paymentId
    { status := some .FAILED, failureReason := some (some err.message) }
  throw err

/-- Submit a Stellar payment. Idempotent — checks for existing tx hash first.
Building the transaction may throw in the SDK; that is a `loadAccount` that
rejects. -/
def submitPayment (cfg : Config) (params : PaymentParams) : Service String := do
  let existing ← prisma.payment.findUnique (.byId params.paymentId)
  match settledHash existing with
  | some hash => pure hash
  | none =>
      if cfg.billing.testMode then
        let key := params.idempotencyKey
        let mockHash := s!"test_{key}"
        let _ ← prisma.payment.update params.paymentId
          { status := some .SUCCESS, stellarTxHash := some mockHash }
        pure mockHash
      else
        let publicKey ← keypairFromSecret cfg params.fromSecret
        server.loadAccount publicKey
        let _ ← prisma.payment.update params.paymentId { status := some .PROCESSING }
        tryCatch (submitPayment.attempt params) (submitPayment.recordFailure params)

/-! ## §6. `billing.service`. -/

/-- The `where` of `findDueSubscriptions`. -/
def findDueSubscriptions.condition (now : Instant) : SubscriptionWhere :=
  { status := [.ACTIVE, .PAST_DUE]
    currentPeriodEndLte := some now
    cancelAtPeriodEnd := some false
    paused := some false }

/-- Find all subscriptions due for billing right now. -/
def findDueSubscriptions : Service (List Subscription) := do
  let now ← dateNow
  prisma.subscription.findMany (findDueSubscriptions.condition now)

def advancePeriod (cfg : Config) (sub : SubscriptionWithPlan) : Service Unit := do
  let newStart := sub.currentPeriodEnd
  let newEnd := nextPeriod cfg.tz newStart sub.plan.interval sub.plan.intervalCount
  let _ ← prisma.subscription.update sub.id
    { status := some .ACTIVE
      currentPeriodStart := some (some newStart)
      currentPeriodEnd := some newEnd
      retryCount := some 0
      gracePeriodEndsAt := some none }

/-- `new Date(Date.now() + hours * 60 * 60 * 1000)`. -/
def hoursFrom (now : Instant) (hours : Int) : JsDate := timeClip (now.ms + hours * 3600000)

def handlePaymentFailure (cfg : Config) (sub : SubscriptionWithPlan)
    (paymentId : String) : Service Unit := do
  let retryCount := sub.retryCount + 1
  if (retryCount : Int) ≥ cfg.billing.maxRetries then
    -- Exceeded retries — enter grace period or cancel
    let now ← dateNow
    let gracePeriodEndsAt := hoursFrom now cfg.billing.gracePeriodHours
    let _ ← prisma.subscription.update sub.id
      { status := some .PAST_DUE
        retryCount := some retryCount
        gracePeriodEndsAt := some (some gracePeriodEndsAt) }
    emitWebhookEvent .PAYMENT_FAILED (some paymentId) (.object
      [("subscriptionId", .string sub.id),
       ("retryCount", .number (.finite retryCount)),
       ("gracePeriodEndsAt", match gracePeriodEndsAt with
          | some t => .string t.toISOString
          | none => .null)])
  else
    -- Exponential backoff: 2^retryCount hours; no code reads `nextRetryAt`
    let now ← dateNow
    let nextRetryAt := hoursFrom now (2 ^ retryCount)
    prisma.payment.updateMany sub.id .FAILED
      { status := some .RETRYING
        nextRetryAt := some nextRetryAt
        retryCount := some retryCount }
    let _ ← prisma.subscription.update sub.id { retryCount := some retryCount }

/-- `useSoroban`. -/
def useSoroban (cfg : Config) (plan : Plan) : Bool :=
  cfg.billing.useSorobanBilling && hasSorobanContract cfg && plan.contractPlanId.isSome

/-- The charge of `processBillingCycle`: Soroban, a simulated success in test
mode, or an error. -/
def chargePayment (cfg : Config) (sub : SubscriptionWithPlan) (paymentId : String)
    (idempotencyKey : String) : Service Unit := do
  if useSoroban cfg sub.plan then
    -- the plan's contract id, not the subscription's
    let _ ← executeSorobanBilling cfg
      { paymentId
        subscriberAddress := sub.wallet.address
        contractPlanId := sub.plan.contractPlanId.getD 0
        idempotencyKey }
  else if cfg.billing.testMode then
    -- Classic Horizon cannot pull from a subscriber wallet (no secret)
    let _ ← submitPayment cfg
      { paymentId
        fromSecret := cfg.stellar.treasurySecretKey
        toAddress := sub.plan.merchantAddress.getD sub.wallet.address
        amount := sub.plan.amount
        assetCode := sub.plan.assetCode
        assetIssuer := sub.plan.assetIssuer
        idempotencyKey }
  else
    throw (.error ("Live billing requires Soroban (USE_SOROBAN_BILLING + contractPlanId). "
      ++ "Horizon push-to-subscriber is not a valid subscription collection path."))

/-- The body of the `try` block of `processBillingCycle`. -/
def processBillingCycle.attempt (cfg : Config) (sub : SubscriptionWithPlan)
    (payment : Payment) (idempotencyKey : String) : Service Unit := do
  chargePayment cfg sub payment.id idempotencyKey
  -- from here on an error is handled like a failed charge
  advancePeriod cfg sub
  emitWebhookEvent .PAYMENT_SUCCESS (some payment.id) (.object
    [("subscriptionId", .string sub.id),
     ("amount", .string sub.plan.amount),
     ("assetCode", .string sub.plan.assetCode),
     ("mode", .string (if useSoroban cfg sub.plan then "soroban" else "horizon"))])

/-- The `data` of the payment created for the current period. -/
def processBillingCycle.paymentData (cfg : Config) (sub : SubscriptionWithPlan)
    (idempotencyKey : String) : PaymentCreate :=
  { subscriptionId := sub.id
    amount := sub.plan.amount
    assetCode := sub.plan.assetCode
    assetIssuer := sub.plan.assetIssuer
    idempotencyKey
    billingPeriodStart := sub.currentPeriodStart
    billingPeriodEnd := sub.currentPeriodEnd
    testMode := cfg.billing.testMode }

/-- `existing ?? await prisma.payment.create(…)`. -/
def processBillingCycle.paymentFor (cfg : Config) (sub : SubscriptionWithPlan)
    (idempotencyKey : String) : Option Payment → Service Payment
  | some payment => pure payment
  | none => prisma.payment.create (paymentData cfg sub idempotencyKey)

/-- The cycle of a subscription that was found open. -/
def processBillingCycle.rest (cfg : Config) (sub : SubscriptionWithPlan) : Service Unit := do
  let idempotencyKey := billingIdempotencyKey sub.id sub.currentPeriodEnd
  -- Avoid duplicate payments for the same period
  let existing ← prisma.payment.findUnique (.byKey idempotencyKey)
  if existing.any (fun p => p.status == .SUCCESS) then
    -- outside the `try`: an error here is the caller's
    advancePeriod cfg sub
  else
    let payment ← paymentFor cfg sub idempotencyKey existing
    tryCatch (attempt cfg sub payment idempotencyKey)
      (fun _ => handlePaymentFailure cfg sub payment.id)

/-- Process a single subscription billing cycle. -/
def processBillingCycle (cfg : Config) (subscriptionId : String) : Service Unit := do
  let sub ← prisma.subscription.findUniqueOrThrow subscriptionId
  -- neither `paused` nor `cancelAtPeriodEnd` is looked at
  if sub.status = .CANCELLED ∨ sub.status = .EXPIRED then
    pure ()
  else
    processBillingCycle.rest cfg sub

/-- Cancel one subscription whose grace period has expired. -/
def expireGracePeriods.cancel (sub : Subscription) : Service Unit := do
  -- the row found by the query is not read again
  let now ← dateNow
  let _ ← prisma.subscription.update sub.id
    { status := some .CANCELLED, cancelledAt := some (some (some now)) }
  emitWebhookEvent .SUBSCRIPTION_CANCELLED none (.object
    [("subscriptionId", .string sub.id), ("reason", .string "grace_period_expired")])

/-- The `where` of `expireGracePeriods`. -/
def expireGracePeriods.condition (now : Instant) : SubscriptionWhere :=
  { status := [.PAST_DUE], gracePeriodEndsAtLte := some now }

/-- Cancel subscriptions whose grace period has expired. -/
def expireGracePeriods : Service Unit := do
  let now ← dateNow
  let expired ← prisma.subscription.findMany (expireGracePeriods.condition now)
  Prog.forEach expired expireGracePeriods.cancel

end Sorobill
