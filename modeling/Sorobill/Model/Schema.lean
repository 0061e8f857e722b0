/-
  Sorobill.Model.Schema
  ─────────────────────
  **THE DATA MODEL** (`prisma/schema.prisma`, `src/config.ts`).

  Rows carry the columns that a modelled function reads or writes, and those of
  a subscription its `@updatedAt`, which Prisma sets with every write.  A
  `…Data` record is the `data` object of a Prisma `update`: an absent field
  is left as it is, and a nullable column takes `some none` for `null`.
  A `Date` in a `data` object may be the Invalid Date, which Prisma refuses.
-/
import Sorobill.Model.Dates
import Sorobill.Library.JsValue
import Sorobill.Library.Table

namespace Sorobill

open Relational
open JavaScript (JsValue)

/-! ## §1. Enumerations. -/

inductive SubscriptionStatus where
  | ACTIVE
  | PAST_DUE
  | CANCELLED
  | EXPIRED
  | TRIALING
  deriving DecidableEq, Repr

inductive PaymentStatus where
  | PENDING
  | PROCESSING
  | SUCCESS
  | FAILED
  | RETRYING
  deriving DecidableEq, Repr

inductive WebhookEventType where
  | PAYMENT_SUCCESS
  | PAYMENT_FAILED
  | SUBSCRIPTION_CREATED
  | SUBSCRIPTION_UPDATED
  | SUBSCRIPTION_CANCELLED
  deriving DecidableEq, Repr

inductive WebhookDeliveryStatus where
  | PENDING
  | DELIVERED
  | FAILED
  deriving DecidableEq, Repr

/-! ## §2. Configuration. -/

/-- `config.billing`. -/
structure BillingConfig where
  gracePeriodHours : Int := 48
  maxRetries : Int := 3
  testMode : Bool := false
  useSorobanBilling : Bool := true

/-- `config.stellar`. -/
structure StellarConfig where
  treasurySecretKey : String := ""
  subscriptionContractId : String := ""

/-- The configuration, the UTC offset of the host (ms), and the two parsers
of the Stellar SDK that may throw. -/
structure Config where
  billing : BillingConfig := {}
  stellar : StellarConfig := {}
  tz : Int := 0
  /-- `Keypair.fromSecret(s).publicKey()`; `none` when it throws. -/
  publicKeyOfSecret : String → Option String
  /-- `Address.fromString(a)` does not throw. -/
  isAddress : String → Bool

/-! ## §3. Rows. -/

structure Plan where
  id : String
  amount : String
  assetCode : String := "XLM"
  assetIssuer : Option String := none
  interval : BillingInterval
  intervalCount : Int := 1
  trialDays : Int := 0
  isActive : Bool := true
  merchantAddress : Option String := none
  contractPlanId : Option Nat := none
  deriving DecidableEq

/-- The flag `isVerified` is kept beside the rows, by `Server.verified`. -/
structure Wallet where
  id : String
  address : String
  deriving DecidableEq

structure Subscription where
  id : String
  planId : String
  walletId : String
  status : SubscriptionStatus := .ACTIVE
  currentPeriodStart : Instant
  currentPeriodEnd : Instant
  cancelAtPeriodEnd : Bool := false
  cancelledAt : Option Instant := none
  trialEndsAt : Option Instant := none
  gracePeriodEndsAt : Option Instant := none
  retryCount : Nat := 0
  contractPlanId : Option Nat := none
  paused : Bool := false
  updatedAt : Instant
  deriving DecidableEq

structure Payment where
  id : String
  subscriptionId : String
  amount : String
  assetCode : String := "XLM"
  assetIssuer : Option String := none
  status : PaymentStatus := .PENDING
  stellarTxHash : Option String := none
  stellarLedger : Option Int := none
  retryCount : Nat := 0
  nextRetryAt : Option Instant := none
  failureReason : Option String := none
  idempotencyKey : String
  testMode : Bool := false
  billingPeriodStart : Instant
  billingPeriodEnd : Instant
  deriving DecidableEq

structure WebhookEndpoint where
  id : String
  url : String
  secret : String
  events : List WebhookEventType
  isActive : Bool := true
  deriving DecidableEq

structure WebhookEvent where
  id : String
  type : WebhookEventType
  paymentId : Option String
  payload : JsValue
  createdAt : Instant

structure WebhookDelivery where
  id : String
  webhookEventId : String
  webhookEndpointId : String
  status : WebhookDeliveryStatus := .PENDING
  responseStatus : Option Int := none
  responseBody : Option String := none
  attemptCount : Nat := 0
  deliveredAt : Option Instant := none
  deriving DecidableEq

/-! ## §4. `data` objects. -/

/-- `data` of `prisma.subscription.update`. -/
structure SubscriptionData where
  status : Option SubscriptionStatus := none
  currentPeriodStart : Option JsDate := none
  currentPeriodEnd : Option JsDate := none
  cancelAtPeriodEnd : Option Bool := none
  cancelledAt : Option (Option JsDate) := none
  gracePeriodEndsAt : Option (Option JsDate) := none
  retryCount : Option Nat := none
  paused : Option Bool := none

/-- `data` of `prisma.payment.update` and `updateMany`. -/
structure PaymentData where
  status : Option PaymentStatus := none
  stellarTxHash : Option String := none
  stellarLedger : Option (Option Int) := none
  retryCount : Option Nat := none
  nextRetryAt : Option JsDate := none
  failureReason : Option (Option String) := none

/-- A date field of a `data` object is no Invalid Date. -/
def validDate? : Option JsDate → Bool
  | some none => false
  | _ => true

/-- The value a date field leaves in its column. -/
def setDate (d : Option JsDate) (old : Instant) : Instant :=
  (d.getD (some old)).getD old

/-- Likewise for a nullable column. -/
def setDate? (d : Option (Option JsDate)) (old : Option Instant) : Option Instant :=
  match d with
  | none => old
  | some none => none
  | some (some d) => d

def SubscriptionData.valid (d : SubscriptionData) : Bool :=
  validDate? d.currentPeriodStart && validDate? d.currentPeriodEnd
    && validDate? (d.cancelledAt.getD none) && validDate? (d.gracePeriodEndsAt.getD none)

/-- The row `s`, updated at the time `now`. -/
def SubscriptionData.apply (d : SubscriptionData) (now : Instant) (s : Subscription) :
    Subscription :=
  { s with
    status := d.status.getD s.status
    currentPeriodStart := setDate d.currentPeriodStart s.currentPeriodStart
    currentPeriodEnd := setDate d.currentPeriodEnd s.currentPeriodEnd
    cancelAtPeriodEnd := d.cancelAtPeriodEnd.getD s.cancelAtPeriodEnd
    cancelledAt := setDate? d.cancelledAt s.cancelledAt
    gracePeriodEndsAt := setDate? d.gracePeriodEndsAt s.gracePeriodEndsAt
    retryCount := d.retryCount.getD s.retryCount
    paused := d.paused.getD s.paused
    updatedAt := now }

def PaymentData.valid (d : PaymentData) : Bool := validDate? d.nextRetryAt

def PaymentData.apply (d : PaymentData) (p : Payment) : Payment :=
  { p with
    status := d.status.getD p.status
    -- no `data` object sets the hash or `nextRetryAt` to `null`
    stellarTxHash := d.stellarTxHash.or p.stellarTxHash
    stellarLedger := d.stellarLedger.getD p.stellarLedger
    retryCount := d.retryCount.getD p.retryCount
    nextRetryAt := (d.nextRetryAt.getD none).or p.nextRetryAt
    failureReason := d.failureReason.getD p.failureReason }

/-! ## §5. Tables. -/

/-- `@id`. -/
def Plan.Clash (a b : Plan) : Prop := a.id = b.id

/-- `@id` and the unique address. -/
def Wallet.Clash (a b : Wallet) : Prop := a.id = b.id ∨ a.address = b.address

/-- `@id`. -/
def Subscription.Clash (a b : Subscription) : Prop := a.id = b.id

/-- `@id`, the unique `idempotencyKey`, and the unique `stellarTxHash`, whose
`null`s do not count. -/
def Payment.Clash (a b : Payment) : Prop :=
  a.id = b.id ∨ a.idempotencyKey = b.idempotencyKey
    ∨ (a.stellarTxHash ≠ none ∧ a.stellarTxHash = b.stellarTxHash)

/-- `@id`. -/
def WebhookEndpoint.Clash (a b : WebhookEndpoint) : Prop := a.id = b.id

/-- `@id`. -/
def WebhookEvent.Clash (a b : WebhookEvent) : Prop := a.id = b.id

/-- `@id`. -/
def WebhookDelivery.Clash (a b : WebhookDelivery) : Prop := a.id = b.id

instance : DecidableRel Plan.Clash :=
  fun a b => inferInstanceAs (Decidable (a.id = b.id))

instance : DecidableRel Wallet.Clash :=
  fun a b => inferInstanceAs (Decidable (a.id = b.id ∨ a.address = b.address))

instance : DecidableRel Subscription.Clash :=
  fun a b => inferInstanceAs (Decidable (a.id = b.id))

instance : DecidableRel Payment.Clash :=
  fun a b => inferInstanceAs (Decidable (a.id = b.id ∨ a.idempotencyKey = b.idempotencyKey
    ∨ (a.stellarTxHash ≠ none ∧ a.stellarTxHash = b.stellarTxHash)))

instance : DecidableRel WebhookEvent.Clash :=
  fun a b => inferInstanceAs (Decidable (a.id = b.id))

instance : DecidableRel WebhookDelivery.Clash :=
  fun a b => inferInstanceAs (Decidable (a.id = b.id))

instance : Std.Symm Subscription.Clash := ⟨fun _ _ h => Eq.symm h⟩

instance : Std.Symm WebhookDelivery.Clash := ⟨fun _ _ h => Eq.symm h⟩

instance : Std.Symm Payment.Clash where
  symm a b := by
    unfold Payment.Clash
    intro h
    rcases h with h | h | ⟨h₁, h₂⟩
    · exact .inl h.symm
    · exact .inr (.inl h.symm)
    · exact .inr (.inr ⟨h₂ ▸ h₁, h₂.symm⟩)

end Sorobill
