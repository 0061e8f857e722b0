/-
  Sorobill.Rules.Footprints
  ─────────────────────────
  **WHICH CALLS EACH SERVICE FUNCTION MAKES.**

    • `emitWebhookEvent_calls` — an emission calls the webhook tables and the
      webhook queue only;
    • `chargePayment_calls` — a charge reads and updates the one payment it
      is made for, and talks to the network;
    • `processBillingCycle_calls` — a billing cycle writes no subscription
      but its own;
    • `operation_calls` — every other operation leaves payments and chain
      alone.
-/
import Sorobill.Rules.Serving
import Sorobill.Library.Contract

namespace Sorobill

open Effect

/-! ## §1. Emissions. -/

/-- The calls `emitWebhookEvent` makes. -/
def Call.isWebhook : Call → Prop
  | .webhookEndpointFindMany _ => True
  | .webhookEventCreate _ _ _ => True
  | .webhookDeliveryCreateAll _ _ => True
  | .webhookQueueAdd _ => True
  | _ => False

theorem Call.isWebhook.region {c : Call} (h : c.isWebhook) :
    c.region = .nothing ∨ c.region = .hooks := by
  cases c <;> first | exact .inl rfl | exact .inr rfl | exact h.elim

theorem promiseAll_calls {F : Call → Prop} :
    ∀ {ps : List (Service Unit)}, (∀ p ∈ ps, Calls api F p) → Calls api F (promiseAll ps) := by
  intro ps
  induction ps with
  | nil => exact fun _ => trivial
  | cons p ps ih =>
      intro h
      unfold promiseAll
      -- the promise is wrapped before its rejection is looked at
      refine calls_bind (fun rejection => ?_)
        (calls_tryCatch (fun e => calls_pure)
          (calls_bind (fun _ => calls_pure) (h p List.mem_cons_self)))
      refine calls_bind (fun _ => ?_) (ih (fun q hq => h q (List.mem_cons_of_mem p hq)))
      cases rejection with
      | none => exact calls_pure
      | some e => exact calls_throw

/-- **An emission touches webhook state only.** -/
theorem emitWebhookEvent_calls (type : WebhookEventType) (paymentId : Option String)
    (payload : JavaScript.JsValue) :
    Calls api Call.isWebhook (emitWebhookEvent type paymentId payload) := by
  unfold emitWebhookEvent
  refine calls_bind (fun endpoints => ?_) (calls_perform trivial)
  split
  · exact calls_pure
  · refine calls_bind (fun event => ?_) (calls_perform trivial)
    refine calls_bind (fun deliveries => ?_) (calls_perform trivial)
    apply promiseAll_calls
    intro p hp
    obtain ⟨delivery, -, rfl⟩ := List.mem_map.mp hp
    exact calls_perform trivial

/-- The worlds that differ in the webhook state only. -/
def SameButHooks (w w' : World) : Prop := w' = { w with hooks := w'.hooks }

theorem SameButHooks.refl (w : World) : SameButHooks w w := rfl

theorem SameButHooks.trans {a b c : World} (h₁ : SameButHooks a b) (h₂ : SameButHooks b c) :
    SameButHooks a c := by
  unfold SameButHooks at *
  rw [h₂, h₁]

theorem after_isWebhook {e : CallEvent} (h : e.call.isWebhook) :
    SameButHooks e.before (e.after api) := by
  have hc := serve_changed e.call e.env e.before
  rcases h.region with hr | hr
  · rw [hr] at hc
    unfold Event.after
    rw [hc.nothing_eq]
    exact .refl _
  · rw [hr] at hc
    unfold Event.after
    generalize (api.serve e.call e.env e.before).2 = w' at hc
    cases hc
    rfl

/-! ## §2. Charges. -/

/-- The row counts as paid in the check of `executeSorobanBilling`. -/
def Payment.settled (p : Payment) : Prop := (settledHash (some p)).isSome = true

theorem settled_iff {p : Payment} :
    p.settled ↔ p.status = .SUCCESS ∧ ∃ hash, p.stellarTxHash = some hash ∧ hash ≠ "" := by
  unfold Payment.settled settledHash
  cases h : p.stellarTxHash with
  | none => simp [h]
  | some hash => simp [h, Option.filter, and_comm]

/-- The call creates or writes a payment, or submits a charge. -/
def Call.isCharging : Call → Prop
  | .paymentCreate _ => True
  | .paymentUpdate _ _ => True
  | .sendTransaction _ _ => True
  | .submitTransaction _ _ _ _ _ => True
  | _ => False

/-- The call goes to the RPC or to Horizon. -/
def Call.isNetwork : Call → Prop
  | .getAccount _ => True
  | .simulateTransaction _ => True
  | .sendTransaction _ _ => True
  | .awaitTransaction _ => True
  | .loadAccount _ => True
  | .submitTransaction _ _ _ _ _ => True
  | _ => False

/-- The calls a charge of the payment `pid` makes. -/
def Call.isCharge (pid : String) : Call → Prop
  | .paymentFindUnique key => key = .byId pid
  | .paymentUpdate id _ => id = pid
  | .getAccount _ => True
  | .simulateTransaction _ => True
  | .sendTransaction _ _ => True
  | .awaitTransaction _ => True
  | .loadAccount _ => True
  | .submitTransaction _ _ _ _ _ => True
  | _ => False

/-- The statuses that a charge writes. -/
inductive ChargeStatus : Option PaymentStatus → Prop where
  | processing : ChargeStatus (some .PROCESSING)
  | succeeded : ChargeStatus (some .SUCCESS)
  | failed : ChargeStatus (some .FAILED)

/-- A call of a charge of `pid`, which writes a status and no retry time. -/
def Call.recordsCharge (pid : String) : Call → Prop
  | .paymentUpdate id data => id = pid ∧ ChargeStatus data.status ∧ data.nextRetryAt = none
  | c => c.isCharge pid

theorem Call.recordsCharge.isCharge {pid : String} {c : Call} (h : c.recordsCharge pid) :
    c.isCharge pid := by
  cases c <;> first | exact h.1 | exact h

theorem Call.isNetwork.recordsCharge {pid : String} {c : Call} (h : c.isNetwork) :
    c.recordsCharge pid := by
  cases c <;> first | exact h.elim | trivial

theorem Call.isCharge.region {pid : String} {c : Call} (h : c.isCharge pid) :
    c.region = .nothing ∨ c.region = .payments ∨ c.region = .chain := by
  cases c <;> first
    | exact .inl rfl | exact .inr (.inl rfl) | exact .inr (.inr rfl) | exact h.elim

section Charges

variable {cfg : Config}

theorem keypairFromSecret_calls {F : Call → Prop} (secret : String) :
    Calls api F (keypairFromSecret cfg secret) := by
  unfold keypairFromSecret
  split
  · exact calls_pure
  · exact calls_throw

theorem addressToScVal_calls {F : Call → Prop} (address : String) :
    Calls api F (addressToScVal cfg address) := by
  unfold addressToScVal
  split
  · exact calls_pure
  · exact calls_throw

theorem getContract_calls {F : Call → Prop} : Calls api F (getContract cfg) := by
  unfold getContract
  split
  · exact calls_throw
  · exact calls_pure

/-- An invocation talks to the network only. -/
theorem invokeAsAdmin_calls (issuedFor : String) (invocation : Invocation) :
    Calls api Call.isNetwork (invokeAsAdmin cfg issuedFor invocation) := by
  unfold invokeAsAdmin
  split
  · exact calls_throw
  · refine calls_bind (fun publicKey => ?_) (keypairFromSecret_calls _)
    refine calls_bind (fun _ => ?_) (calls_perform trivial)
    refine calls_bind (fun _ => ?_) getContract_calls
    refine calls_bind (fun simulated => ?_) (calls_perform trivial)
    cases simulated with
    | some error => exact calls_throw
    | none =>
        refine calls_bind (fun status => ?_) (calls_perform trivial)
        cases status with
        | ERROR detail => exact calls_throw
        | accepted hash =>
            exact calls_bind (fun result => calls_pure) (calls_perform trivial)

theorem executeSorobanBilling_records (params : SorobanBillingParams) :
    Calls api (Call.recordsCharge params.paymentId) (executeSorobanBilling cfg params) := by
  unfold executeSorobanBilling
  refine calls_bind (fun existing => ?_) (calls_perform rfl)
  split
  · exact calls_pure
  · split
    · exact calls_throw
    · split
      · exact calls_bind (fun _ => calls_pure) (calls_perform ⟨rfl, .succeeded, rfl⟩)
      · refine calls_bind (fun admin => ?_) (keypairFromSecret_calls _)
        refine calls_bind (fun _ => ?_) (calls_perform ⟨rfl, .processing, rfl⟩)
        refine calls_tryCatch (fun err => ?_) ?_
        · -- the `catch` block writes the payment row, or nothing
          cases err with
          | sorobanBillingFailed hash => exact calls_throw
          | error message =>
              exact calls_bind (fun _ => calls_throw) (calls_perform ⟨rfl, .failed, rfl⟩)
        · unfold executeSorobanBilling.attempt
          refine calls_bind (fun adminArg => ?_) (addressToScVal_calls _)
          refine calls_bind (fun subscriberArg => ?_) (addressToScVal_calls _)
          refine calls_bind (fun invoked => ?_)
            ((invokeAsAdmin_calls _ _).mono (fun _ h => h.recordsCharge))
          obtain ⟨hash, result⟩ := invoked
          dsimp only
          split
          · exact calls_bind (fun _ => calls_throw) (calls_perform ⟨rfl, .failed, rfl⟩)
          · exact calls_bind (fun _ => calls_pure) (calls_perform ⟨rfl, .succeeded, rfl⟩)

theorem submitPayment_records (params : PaymentParams) :
    Calls api (Call.recordsCharge params.paymentId) (submitPayment cfg params) := by
  unfold submitPayment
  refine calls_bind (fun existing => ?_) (calls_perform rfl)
  split
  · exact calls_pure
  · split
    · exact calls_bind (fun _ => calls_pure) (calls_perform ⟨rfl, .succeeded, rfl⟩)
    · refine calls_bind (fun publicKey => ?_) (keypairFromSecret_calls _)
      refine calls_bind (fun _ => ?_) (calls_perform trivial)
      refine calls_bind (fun _ => ?_) (calls_perform ⟨rfl, .processing, rfl⟩)
      refine calls_tryCatch
        (fun err => calls_bind (fun _ => calls_throw) (calls_perform ⟨rfl, .failed, rfl⟩)) ?_
      unfold submitPayment.attempt
      refine calls_bind (fun submitted => ?_) (calls_perform trivial)
      obtain ⟨hash, ledger⟩ := submitted
      exact calls_bind (fun _ => calls_pure) (calls_perform ⟨rfl, .succeeded, rfl⟩)

/-- **What a charge writes.** -/
theorem chargePayment_records (sub : SubscriptionWithPlan) (pid key : String) :
    Calls api (Call.recordsCharge pid) (chargePayment cfg sub pid key) := by
  unfold chargePayment
  split
  · exact calls_bind (fun _ => calls_pure) (executeSorobanBilling_records _)
  · split
    · exact calls_bind (fun _ => calls_pure) (submitPayment_records _)
    · exact calls_throw

/-- **A charge touches its own payment and the network only.** -/
theorem chargePayment_calls (sub : SubscriptionWithPlan) (pid key : String) :
    Calls api (Call.isCharge pid) (chargePayment cfg sub pid key) :=
  (chargePayment_records sub pid key).mono (fun _ h => h.isCharge)

end Charges

/-- Payments, chain and the record of successes apart, two worlds agree. -/
structure SameButPayments (w w' : World) : Prop where
  plans : w'.plans = w.plans
  subscriptions : w'.subscriptions = w.subscriptions
  billingQueue : w'.billingQueue = w.billingQueue

theorem SameButPayments.refl (w : World) : SameButPayments w w := ⟨rfl, rfl, rfl⟩

theorem SameButPayments.trans {a b c : World} (h₁ : SameButPayments a b)
    (h₂ : SameButPayments b c) : SameButPayments a c :=
  ⟨h₂.plans.trans h₁.plans, h₂.subscriptions.trans h₁.subscriptions,
    h₂.billingQueue.trans h₁.billingQueue⟩

theorem after_isCharge {pid : String} {e : CallEvent} (h : e.call.isCharge pid) :
    SameButPayments e.before (e.after api) := by
  have hc := serve_changed e.call e.env e.before
  have hr := h.region
  refine ⟨hc.plans_eq, hc.subscriptions_eq ?_, hc.billingQueue_eq ?_⟩ <;>
    rcases hr with hr | hr | hr <;> rw [hr] <;> decide

/-! ## §3. Billing cycles. -/

/-- **What a billing cycle that has read `sub` writes in the row.** -/
inductive Billed (cfg : Config) (sub : SubscriptionWithPlan) : SubscriptionData → Prop where
  /-- `advancePeriod`. -/
  | advance : Billed cfg sub
      { status := some .ACTIVE
        currentPeriodStart := some (some sub.currentPeriodEnd)
        currentPeriodEnd :=
          some (nextPeriod cfg.tz sub.currentPeriodEnd sub.plan.interval sub.plan.intervalCount)
        retryCount := some 0
        gracePeriodEndsAt := some none }
  /-- `handlePaymentFailure`, the retries being exhausted. -/
  | pastDue (now : Instant) : cfg.billing.maxRetries ≤ sub.retryCount + 1 → Billed cfg sub
      { status := some .PAST_DUE
        retryCount := some (sub.retryCount + 1)
        gracePeriodEndsAt := some (some (hoursFrom now cfg.billing.gracePeriodHours)) }
  /-- `handlePaymentFailure`, with retries left. -/
  | counted : sub.retryCount + 1 < cfg.billing.maxRetries → Billed cfg sub
      { retryCount := some (sub.retryCount + 1) }

/-- The calls a billing cycle makes once it has read `sub`. -/
def Call.isBilling (cfg : Config) (sub : SubscriptionWithPlan) : Call → Prop
  | .subscriptionFindUnique _ => False
  | .subscriptionFindUniqueWithPlan _ => False
  | .subscriptionFindMany _ => False
  | .subscriptionUpdate x data => x = sub.id ∧ Billed cfg sub data
  | .subscriptionCreate _ => False
  | .billingQueueAdd _ _ _ => False
  | .walletUpsert _ => False
  | .paymentCreate data =>
      data = processBillingCycle.paymentData cfg sub
        (billingIdempotencyKey sub.id sub.currentPeriodEnd)
  | .paymentUpdateMany x status data =>
      x = sub.id ∧ status = .FAILED ∧ data.status = some .RETRYING
  | _ => True

/-- The calls a billing cycle of the subscription `id` makes: its own row is
the only subscription it writes, with the status ACTIVE or PAST_DUE or none,
and a payment it creates has the key of its period. -/
def Call.isCycle (id : String) : Call → Prop
  | .subscriptionUpdate x data =>
      x = id ∧ (data.status = none ∨ data.status = some .ACTIVE ∨ data.status = some .PAST_DUE)
  | .subscriptionCreate _ => False
  | .billingQueueAdd _ _ _ => False
  | .walletUpsert _ => False
  | .paymentCreate data =>
      data.idempotencyKey = billingIdempotencyKey data.subscriptionId data.billingPeriodEnd
  | _ => True

/-- The only subscription row the call may write is `id`. -/
def Call.writesOnly (id : String) : Call → Prop
  | .subscriptionUpdate x _ => x = id
  | .subscriptionCreate _ => False
  | _ => True

/-- Other subscriptions are left as they are. -/
theorem after_writesOnly {id x : String} {e : CallEvent} (h : e.call.writesOnly id)
    (hx : x ≠ id) : (e.after api).sub? x = e.before.sub? x := by
  rcases lookup_after e x with hsame | ⟨data, old, hcall, -⟩ | ⟨data, start, finish, hcall, -⟩
  · exact hsame
  · rw [hcall] at h
    exact absurd h hx
  · -- such a call creates no subscription
    rw [hcall] at h
    exact h.elim

theorem Call.isCycle.writesOnly {id : String} {c : Call} (h : c.isCycle id) :
    c.writesOnly id := by
  cases c <;> first | exact h.1 | exact h.elim | trivial

theorem Call.isWebhook.writesOnly {id : String} {c : Call} (h : c.isWebhook) :
    c.writesOnly id := by
  cases c <;> trivial

theorem Call.isBilling.isCycle {cfg : Config} {sub : SubscriptionWithPlan} {c : Call}
    (h : c.isBilling cfg sub) : c.isCycle sub.id := by
  cases c with
  | subscriptionUpdate x data =>
      refine ⟨h.1, ?_⟩
      cases h.2 with
      | advance => exact .inr (.inl rfl)
      | pastDue => exact .inr (.inr rfl)
      | counted => exact .inl rfl
  | paymentCreate data =>
      have hd : data = _ := h
      rw [hd]
      rfl
  | subscriptionCreate data => exact h.elim
  | billingQueueAdd name data jobId => exact h.elim
  | walletUpsert address => exact h.elim
  | _ => trivial

theorem Call.isWebhook.isBilling {cfg : Config} {sub : SubscriptionWithPlan} {c : Call}
    (h : c.isWebhook) : c.isBilling cfg sub := by
  cases c <;> first | exact h.elim | trivial

theorem Call.isCharge.isBilling {cfg : Config} {sub : SubscriptionWithPlan} {pid : String}
    {c : Call} (h : c.isCharge pid) : c.isBilling cfg sub := by
  cases c <;> first | exact h.elim | trivial

/-- A subscription read with its plan is the stored row. -/
theorem withPlan_eq_some {w : World} {x : String} {sub : SubscriptionWithPlan}
    (h : (w.sub? x).bind w.withPlan = some sub) :
    w.sub? x = some sub.toSubscription ∧ sub.id = x := by
  obtain ⟨row, hrow, hplan⟩ := Option.bind_eq_some_iff.mp h
  -- the join adds plan and wallet and changes no column
  unfold World.withPlan at hplan
  obtain ⟨plan, -, hplan⟩ := Option.bind_eq_some_iff.mp hplan
  obtain ⟨wallet, -, hplan⟩ := Option.bind_eq_some_iff.mp hplan
  cases hplan
  exact ⟨hrow, sub?_id hrow⟩

section Cycle

variable {cfg : Config}

variable {sub : SubscriptionWithPlan}

theorem billing_emit (type : WebhookEventType) (pid : Option String)
    (payload : JavaScript.JsValue) :
    Calls api (Call.isBilling cfg sub) (emitWebhookEvent type pid payload) :=
  (emitWebhookEvent_calls type pid payload).mono (fun _ h => h.isBilling)

theorem advancePeriod_calls (sub : SubscriptionWithPlan) :
    Calls api (Call.isBilling cfg sub) (advancePeriod cfg sub) :=
  calls_bind (fun _ => calls_pure) (calls_perform ⟨rfl, .advance⟩)

theorem handlePaymentFailure_calls (sub : SubscriptionWithPlan) (pid : String) :
    Calls api (Call.isBilling cfg sub) (handlePaymentFailure cfg sub pid) := by
  unfold handlePaymentFailure
  dsimp only
  split
  next hmax =>
    refine calls_bind (fun now => ?_) (calls_perform trivial)
    refine calls_bind (fun _ => billing_emit _ _ _) (calls_perform ⟨rfl, ?_⟩)
    exact .pastDue now (by exact_mod_cast hmax)
  next hmax =>
    refine calls_bind (fun now => ?_) (calls_perform trivial)
    refine calls_bind (fun _ => ?_) (calls_perform ⟨rfl, rfl, rfl⟩)
    refine calls_bind (fun _ => calls_pure) (calls_perform ⟨rfl, .counted ?_⟩)
    push_cast at hmax
    omega

/-- The footprint of a cycle from those of its parts. -/
theorem rest_calls_of {F : Call → Prop} {sub : SubscriptionWithPlan}
    (hfind : ∀ key, F (.paymentFindUnique key))
    (hcreate : F (.paymentCreate (processBillingCycle.paymentData cfg sub
      (billingIdempotencyKey sub.id sub.currentPeriodEnd))))
    (hcharge : ∀ pid key, Calls api F (chargePayment cfg sub pid key))
    (hadvance : Calls api F (advancePeriod cfg sub))
    (hemit : ∀ type pid payload, Calls api F (emitWebhookEvent type pid payload))
    (hfailure : ∀ pid, Calls api F (handlePaymentFailure cfg sub pid)) :
    Calls api F (processBillingCycle.rest cfg sub) := by
  unfold processBillingCycle.rest
  refine calls_bind (fun existing => ?_) (calls_perform (hfind _))
  split
  · exact hadvance
  · refine calls_bind (fun payment => ?_) ?_
    · -- every error of the `try` block reaches the same handler
      refine calls_tryCatch (fun _ => hfailure _) (calls_bind (fun _ => ?_) (hcharge _ _))
      exact calls_bind (fun _ => hemit _ _ _) hadvance
    · cases existing with
      | some payment => exact calls_pure
      | none => exact calls_perform hcreate

/-- **What a billing cycle does with the subscription it has read.** -/
theorem rest_calls (sub : SubscriptionWithPlan) :
    Calls api (Call.isBilling cfg sub) (processBillingCycle.rest cfg sub) :=
  rest_calls_of (fun _ => trivial) rfl
    (fun _ _ => (chargePayment_calls sub _ _).mono (fun _ h => h.isBilling))
    (advancePeriod_calls sub) billing_emit (handlePaymentFailure_calls sub)

/-- **A billing cycle writes its own subscription only.** -/
theorem processBillingCycle_calls (id : String) :
    Calls api (Call.isCycle id) (processBillingCycle cfg id) := by
  refine ⟨trivial, fun env w => ?_⟩
  rcases serve_subscriptionFindUniqueWithPlan id env w with ⟨err, h⟩ | h
  · rw [h]
    trivial
  · rw [h]
    cases hrow : (w.sub? id).bind w.withPlan with
    | none => trivial
    | some sub =>
        -- the row that is written is the one that was asked for
        have hid := (withPlan_eq_some hrow).2
        subst hid
        show Calls api _ (if sub.status = .CANCELLED ∨ sub.status = .EXPIRED then _ else _)
        split
        · trivial
        · exact (rest_calls sub).mono (fun _ h => h.isCycle)

end Cycle

/-! ## §4. Operations without a billing cycle. -/

/-- What an operation may do to subscriptions and to the billing queue. -/
structure Permissions where
  /-- Write back the status it has read. -/
  writesBack : Bool := false
  /-- Begin the period anew. -/
  restarts : Bool := false
  creates : Bool := false
  enqueues : Bool := false

/-- A job under the id of a billing period is a job of its subscription. -/
def NamedFor (data : String) (jobId : Option String) : Prop :=
  ∀ x t, jobId = some ("billing:" ++ billingIdempotencyKey x t) → data = x

/-- **What such an operation writes in a subscription row.** -/
inductive Amended (may : Permissions) : SubscriptionData → Prop where
  /-- Cancelled at once. -/
  | cancelled (date : Option JsDate) : Amended may
      { cancelAtPeriodEnd := some false
        status := some .CANCELLED
        cancelledAt := some date }
  /-- Cancelled at the period end; the status is written back. -/
  | flagged (status : SubscriptionStatus) (date : Option JsDate) : may.writesBack = true →
      Amended may
        { cancelAtPeriodEnd := some true
          status := some status
          cancelledAt := some date }
  | paused : Amended may { paused := some true }
  | resumed (now : Instant) (newEnd : JsDate) : may.restarts = true → Amended may
      { paused := some false
        currentPeriodStart := some (some now)
        currentPeriodEnd := some newEnd }
  /-- The grace period has expired. -/
  | expired (now : Instant) : Amended may
      { status := some .CANCELLED
        cancelledAt := some (some (some now)) }

/-- A status other than CANCELLED is written only by a request that writes one
back. -/
theorem Amended.status {may : Permissions} {data : SubscriptionData} (h : Amended may data) :
    data.status = none ∨ data.status = some .CANCELLED ∨ may.writesBack = true := by
  cases h with
  | cancelled date => exact .inr (.inl rfl)
  | flagged status date hback => exact .inr (.inr hback)
  | paused => exact .inl rfl
  | resumed now newEnd hre => exact .inl rfl
  | expired now => exact .inr (.inl rfl)

/-- The period is written only by a request that begins it anew. -/
theorem Amended.period {may : Permissions} {data : SubscriptionData} (h : Amended may data)
    (hmay : may.restarts = false) :
    data.currentPeriodStart = none ∧ data.currentPeriodEnd = none := by
  cases h with
  | resumed now newEnd hre =>
      rw [hmay] at hre
      cases hre
  | _ => exact ⟨rfl, rfl⟩

/-- The calls of an operation that runs no billing cycle: payment rows and the
chain are left alone. -/
def Call.isOrdinary (may : Permissions) : Call → Prop
  | .subscriptionUpdate _ data => Amended may data
  | .subscriptionCreate data =>
      (data.status = .ACTIVE ∨ data.status = .TRIALING) ∧ may.creates = true
  | .billingQueueAdd _ data jobId => NamedFor data jobId ∧ may.enqueues = true
  | .paymentCreate _ => False
  | .paymentUpdate _ _ => False
  | .paymentUpdateMany _ _ _ => False
  | .sendTransaction _ _ => False
  | _ => True

/-- The calls of a create request: no stored subscription is written. -/
def Call.isCreation (c : Call) : Prop :=
  c.isOrdinary { creates := true } ∧ ∀ x data, c ≠ .subscriptionUpdate x data

/-- The calls of a request on the subscription `id`. -/
def Call.isRequest (may : Permissions) (id : String) (c : Call) : Prop :=
  c.isOrdinary may ∧ c.writesOnly id

/-- The calls of a tick: every row that it writes becomes CANCELLED. -/
def Call.isSweep (may : Permissions) (c : Call) : Prop :=
  c.isOrdinary may ∧ ∀ x data, c = .subscriptionUpdate x data → data.status = some .CANCELLED

theorem Call.isOrdinary.region {may : Permissions} {c : Call} (h : c.isOrdinary may) :
    c.region ≠ .payments ∧ c.region ≠ .chain := by
  cases c <;> first | exact h.elim | exact ⟨(nomatch ·), (nomatch ·)⟩

theorem Call.isWebhook.isOrdinary {may : Permissions} {c : Call} (h : c.isWebhook) :
    c.isOrdinary may := by
  cases c <;> trivial

theorem Call.isWebhook.isCreation {c : Call} (h : c.isWebhook) : c.isCreation := by
  refine ⟨h.isOrdinary, fun x data heq => ?_⟩
  rw [heq] at h
  exact h

theorem Call.isWebhook.isRequest {may : Permissions} {id : String} {c : Call}
    (h : c.isWebhook) : c.isRequest may id :=
  ⟨h.isOrdinary, h.writesOnly⟩

theorem Call.isWebhook.isSweep {may : Permissions} {c : Call} (h : c.isWebhook) :
    c.isSweep may :=
  ⟨h.isOrdinary, fun x data heq => absurd heq (h.isCreation.2 x data)⟩

def Operation.permissions : Operation → Permissions
  | .createSubscription _ => { creates := true }
  | .cancel _ immediately => { writesBack := !immediately }
  | .resume _ => { restarts := true }
  | .retryPayment _ => { enqueues := true }
  | .runBilling _ => { enqueues := true }
  | .tick => { enqueues := true }
  | _ => {}

section Ordinary

variable {cfg : Config} {may : Permissions}

theorem ordinary_emit (type : WebhookEventType) (pid : Option String)
    (payload : JavaScript.JsValue) :
    Calls api (Call.isOrdinary may) (emitWebhookEvent type pid payload) :=
  (emitWebhookEvent_calls type pid payload).mono (fun _ h => h.isOrdinary)

theorem ordinary_dateNow : Calls api (Call.isOrdinary may) dateNow := calls_perform trivial

theorem ordinary_upsert (address : String) :
    Calls api (Call.isOrdinary may) (prisma.wallet.upsert address) := calls_perform trivial

theorem create_calls (body : CreateSubscription) :
    Calls api Call.isCreation (subscriptions.create cfg body) := by
  unfold subscriptions.create
  split
  · exact calls_pure
  · refine calls_bind (fun found => ?_) (calls_perform ⟨trivial, by simp⟩)
    split
    · exact calls_pure
    · refine calls_bind (fun wallet => ?_) (calls_perform ⟨trivial, by simp⟩)
      refine calls_bind (fun now => ?_) (calls_perform ⟨trivial, by simp⟩)
      refine calls_bind (fun sub => ?_) (calls_perform ⟨⟨?_, rfl⟩, by simp⟩)
      · refine calls_bind (fun _ => calls_pure) ?_
        exact (emitWebhookEvent_calls _ _ _).mono (fun _ h => h.isCreation)
      · unfold subscriptions.createData
        dsimp only
        split
        · exact .inr rfl
        · exact .inl rfl

theorem cancel_calls (id : String) (immediately : Bool) :
    Calls api (Call.isRequest { writesBack := !immediately } id)
      (subscriptions.cancel id immediately) := by
  unfold subscriptions.cancel
  refine calls_bind (fun found => ?_) (calls_perform ⟨trivial, trivial⟩)
  cases found with
  | none => exact calls_pure
  | some sub =>
      refine calls_bind (fun cancelledAt => ?_) ?_
      · refine calls_bind (fun updated => ?_) (calls_perform ⟨?_, rfl⟩)
        · refine calls_bind (fun _ => calls_pure) ?_
          exact (emitWebhookEvent_calls _ _ _).mono (fun _ h => h.isRequest)
        · -- at once: CANCELLED; at the period end: the status that was read
          cases immediately with
          | true => exact .cancelled cancelledAt
          | false => exact .flagged sub.status cancelledAt rfl
      · unfold subscriptions.cancelledAt
        split
        · exact calls_bind (fun now => calls_pure) (calls_perform ⟨trivial, trivial⟩)
        · exact calls_pure

theorem pause_calls (may : Permissions) (id : String) :
    Calls api (Call.isRequest may id) (subscriptions.pause id) := by
  unfold subscriptions.pause
  refine calls_bind (fun found => ?_) (calls_perform ⟨trivial, trivial⟩)
  cases found with
  | none => exact calls_pure
  | some sub =>
      dsimp only
      split
      · exact calls_pure
      · exact calls_bind (fun updated => calls_pure) (calls_perform ⟨.paused, rfl⟩)

theorem resume_calls (id : String) :
    Calls api (Call.isRequest { restarts := true } id) (subscriptions.resume cfg id) := by
  unfold subscriptions.resume
  refine calls_bind (fun found => ?_) (calls_perform ⟨trivial, trivial⟩)
  cases found with
  | none => exact calls_pure
  | some sub =>
      dsimp only
      split
      · exact calls_pure
      · refine calls_bind (fun now => ?_) (calls_perform ⟨trivial, trivial⟩)
        exact calls_bind (fun updated => calls_pure) (calls_perform ⟨.resumed now _ rfl, rfl⟩)

/-- The call writes no status and no date. -/
def Call.marksNothing : Call → Prop
  | .subscriptionUpdate _ data => data.status = none ∧ data.cancelledAt = none
  | _ => True

theorem pause_marksNothing (x : String) :
    Calls api Call.marksNothing (subscriptions.pause x) := by
  unfold subscriptions.pause
  refine calls_bind (fun found => ?_) (calls_perform trivial)
  cases found with
  | none => exact calls_pure
  | some sub =>
      dsimp only
      split
      · exact calls_pure
      · exact calls_bind (fun updated => calls_pure) (calls_perform ⟨rfl, rfl⟩)

theorem resume_marksNothing (x : String) :
    Calls api Call.marksNothing (subscriptions.resume cfg x) := by
  unfold subscriptions.resume
  refine calls_bind (fun found => ?_) (calls_perform trivial)
  cases found with
  | none => exact calls_pure
  | some sub =>
      dsimp only
      split
      · exact calls_pure
      · refine calls_bind (fun now => ?_) (calls_perform trivial)
        exact calls_bind (fun updated => calls_pure) (calls_perform ⟨rfl, rfl⟩)

theorem retry_marksNothing (pid : String) :
    Calls api Call.marksNothing (payments.retry pid) := by
  unfold payments.retry
  refine calls_bind (fun found => ?_) (calls_perform trivial)
  cases found with
  | none => exact calls_pure
  | some payment =>
      dsimp only
      split
      · exact calls_pure
      · refine calls_bind (fun now => ?_) (calls_perform trivial)
        exact calls_bind (fun _ => calls_pure) (calls_perform trivial)

theorem namedFor_period (sub : Subscription) : NamedFor sub.id (some (billingJobId sub)) := by
  intro x t h
  have hkey := (String.append_right_inj "billing:").mp (Option.some.inj h)
  exact (billingIdempotencyKey_inj.mp hkey).1

theorem namedFor_retry (pid data : String) (n : Int) :
    NamedFor data (some s!"retry:{pid}:{n}") := by
  intro x t h
  -- the two ids differ in their first character
  have hhead := congrArg (fun s : String => s.toList.head?) (Option.some.inj h)
  simp [show toString "retry:" = "retry:" from rfl] at hhead

theorem retry_calls (pid : String) :
    Calls api (Call.isOrdinary { enqueues := true }) (payments.retry pid) := by
  unfold payments.retry
  refine calls_bind (fun found => ?_) (calls_perform trivial)
  cases found with
  | none => exact calls_pure
  | some payment =>
      dsimp only
      split
      · exact calls_pure
      · refine calls_bind (fun now => ?_) (calls_perform trivial)
        exact calls_bind (fun _ => calls_pure) (calls_perform ⟨namedFor_retry _ _ _, rfl⟩)

theorem expire_calls (may : Permissions) (sub : Subscription) :
    Calls api (fun c => c.isSweep may ∧ c.writesOnly sub.id) (expireGracePeriods.cancel sub) := by
  unfold expireGracePeriods.cancel
  refine calls_bind (fun now => ?_) (calls_perform ⟨⟨trivial, by simp⟩, trivial⟩)
  refine calls_bind (fun _ => ?_) (calls_perform ⟨⟨.expired now, ?_⟩, rfl⟩)
  · exact (emitWebhookEvent_calls _ _ _).mono (fun _ h => ⟨h.isSweep, h.writesOnly⟩)
  · intro x data heq
    cases heq
    rfl

theorem expireGracePeriods_calls (may : Permissions) :
    Calls api (Call.isSweep may) expireGracePeriods := by
  unfold expireGracePeriods
  refine calls_bind (fun now => ?_) (calls_perform ⟨trivial, by simp⟩)
  refine calls_bind (fun expired => ?_) (calls_perform ⟨trivial, by simp⟩)
  exact calls_forEach (fun sub _ => (expire_calls may sub).mono (fun _ h => h.1))

theorem tick_calls : Calls api (Call.isSweep { enqueues := true }) scheduleBillingJobs := by
  unfold scheduleBillingJobs findDueSubscriptions
  refine calls_bind (fun due => calls_bind (fun _ => expireGracePeriods_calls _) ?_)
    (calls_bind (fun now => ?_) (calls_perform ⟨trivial, by simp⟩))
  · exact calls_forEach (fun sub _ => calls_perform ⟨⟨namedFor_period sub, rfl⟩, by simp⟩)
  · exact calls_perform ⟨trivial, by simp⟩

theorem run_calls (id : String) :
    Calls api (Call.isOrdinary { enqueues := true }) (billing.run id) :=
  calls_bind (fun _ => calls_pure) (calls_perform ⟨fun _ _ => (nomatch ·), rfl⟩)

end Ordinary

/-- **Only billing cycles charge and book payments.** -/
theorem operation_calls (cfg : Config) (op : Operation) (h : op.bills = none) :
    Calls api (Call.isOrdinary op.permissions) (op.body cfg) := by
  cases op with
  | createSubscription body => exact calls_map ((create_calls body).mono (fun _ h => h.1))
  | cancel id immediately =>
      exact calls_map ((cancel_calls id immediately).mono (fun _ h => h.1))
  | pause id => exact calls_map ((pause_calls _ id).mono (fun _ h => h.1))
  | resume id => exact calls_map ((resume_calls id).mono (fun _ h => h.1))
  | retryPayment pid => exact calls_map (retry_calls pid)
  | runBilling id => exact calls_map (run_calls id)
  | tick => exact calls_map (tick_calls.mono (fun _ h => h.1))
  | expireGracePeriods => exact calls_map ((expireGracePeriods_calls _).mono (fun _ h => h.1))
  | runInline id => cases h
  | billingJob job => cases h

/-- What such an operation leaves alone. -/
structure SameMoney (w w' : World) : Prop where
  payments : w'.payments = w.payments
  successes : w'.successes = w.successes
  chain : w'.chain = w.chain

theorem SameMoney.refl (w : World) : SameMoney w w := ⟨rfl, rfl, rfl⟩

theorem SameMoney.trans {a b c : World} (h₁ : SameMoney a b) (h₂ : SameMoney b c) :
    SameMoney a c :=
  ⟨h₂.payments.trans h₁.payments, h₂.successes.trans h₁.successes, h₂.chain.trans h₁.chain⟩

theorem after_isOrdinary {may : Permissions} {e : CallEvent} (h : e.call.isOrdinary may) :
    SameMoney e.before (e.after api) := by
  have hc := serve_changed e.call e.env e.before
  obtain ⟨hpayments, hsuccesses⟩ := hc.payments_eq h.region.1
  exact ⟨hpayments, hsuccesses, hc.chain_eq h.region.2⟩

/-- **An execution without a billing cycle moves no money.** -/
theorem unbilled_same {cfg : Config} {x : Step} (hx : x.Of (serial cfg))
    (hb : x.op.bills = none) : SameMoney x.before x.after := by
  have hruns : Runs api (x.op.body cfg) x.before x.trace x.reply x.after := hx.runs
  exact ((operation_calls cfg x.op hb).runs SameMoney.refl (fun _ _ _ => SameMoney.trans)
    (fun _ => after_isOrdinary) hruns).1

/-! ## §5. Operations with a billing cycle. -/

/-- **The body of an operation that bills `x` is the billing cycle of `x`.** -/
theorem safe_billing {σ : Type} {C : Contract api σ} {cfg : Config} {op : Operation} {x : String}
    (h : op.bills = some x) {Q : World → σ → Prop} {w : World} {v : σ}
    (hs : Safe C (processBillingCycle cfg x) (fun _ w v => Q w v) w v) :
    Safe C (op.body cfg) (fun _ w v => Q w v) w v := by
  cases op with
  | runInline id =>
      cases h
      exact (Safe.map hs).map
  | billingJob job =>
      cases h
      exact hs.map
  | _ => cases h

theorem billing_calls (cfg : Config) {op : Operation} {x : String} (h : op.bills = some x) :
    Calls api (Call.isCycle x) (op.body cfg) := by
  cases op with
  | runInline id =>
      cases h
      exact calls_map (calls_bind (fun _ => calls_pure) (processBillingCycle_calls x))
  | billingJob job =>
      cases h
      exact calls_map (processBillingCycle_calls job.data)
  | _ => cases h

end Sorobill
