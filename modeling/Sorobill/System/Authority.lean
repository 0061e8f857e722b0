/-
  Sorobill.System.Authority
  ─────────────────────────
  **WHO MAY DO WHAT.**

  Each kind of operation makes few kinds of calls: a request or a job on a
  subscription writes the rows of that subscription only, ticks only cancel,
  and the indexer is reached by signed requests only.

    • `ServerOperation.May` — the calls that an operation may make;
    • `cycle_within` — a billing cycle keeps to the rows of its subscription;
    • `other_within`, `body_within` — every operation keeps to its calls;
    • `calls_are_within` — **every pending call is one that its operation may
      make**;
    • `chain_events_are_admitted` — the mirror of the chain is fed by wallets.
-/
import Sorobill.System.Attribution
import Sorobill.System.Messages

namespace Sorobill

open Effect
open Relational
open JavaScript (JsNumber JsValue)

/-! ## §1. What operations may do. -/

/-- The call writes rows of the subscription `x` only. -/
def Call.Within (s : Server) (x : String) : Call → Prop
  | .subscriptionUpdate id _ => id = x
  | .subscriptionCreate _ => False
  | .paymentCreate data => data.subscriptionId = x
  | .paymentUpdate id _ => ∀ p ∈ s.core.payments, p.id = id → p.subscriptionId = x
  | .paymentUpdateMany id _ _ => id = x
  | .sendTransaction key _ => ∃ p ∈ s.core.payments, p.idempotencyKey = key ∧ p.subscriptionId = x
  | _ => True

/-- The calls of a request that only adds a job to the billing queue. -/
def Call.isEnqueuing : Call → Prop
  | .dateNow => True
  | .paymentFindUnique _ => True
  | .billingQueueAdd _ _ _ => True
  | _ => False

/-- The call writes nothing in a subscription but a cancellation. -/
def Call.onlyCancels : Call → Prop
  | .subscriptionUpdate _ data => ∃ now,
      data = { status := some .CANCELLED, cancelledAt := some (some (some now)) }
  | _ => True

/-- What an operation of billing may do. -/
def Operation.May (s : Server) : Operation → Call → Prop
  | .createSubscription _, c => c.isCreation
  | .cancel id immediately, c => c.isRequest { writesBack := !immediately } id
  | .pause id, c => c.isRequest {} id
  | .resume id, c => c.isRequest { restarts := true } id
  | .retryPayment _, c => c.isEnqueuing
  | .runBilling _, c => c.isEnqueuing
  | .runInline id, c => c.isCycle id ∧ c.Within s id
  | .billingJob job, c => c.isCycle job.data ∧ c.Within s job.data
  | .tick, c => c.isSweep { enqueues := true } ∧ c.onlyCancels
  | .expireGracePeriods, c => c.isSweep {} ∧ c.onlyCancels

/-- What the worker may do for a delivery job. -/
def DeliveryCall.IsFor (job : JobQueue.Job String) : DeliveryCall → Prop
  | .webhookDeliveryFindUniqueOrThrow id => id = job.data
  | .post _ _ _ => True
  | .webhookDeliveryUpdate id _ => id = job.data
  | .moveToCompleted job' => job' = job
  | .moveToFailed job' => job' = job

/-- The headers carry a message that is signed with the key of the address. -/
def AuthHeaders.SignedBy (sdk : Sdk) (headers : AuthHeaders) (address : String) : Prop :=
  ∃ message signature, headers = ⟨.one address, .one message, .one signature⟩
    ∧ verifySignedMessage sdk address message signature = true

/-- What a request behind the `preHandler` may do. -/
def AuthHeaders.May (d : Deployment) (headers : AuthHeaders) : ServerCall → Prop
  | .walletUpsertVerified address => headers.SignedBy d.sdk address
  | .index _ => d.production = true → ∃ address, headers.SignedBy d.sdk address
  | _ => False

/-- **What an operation may do.** -/
def ServerOperation.May (d : Deployment) (s : Server) : ServerOperation → ServerCall → Prop
  | .billing op, .core c => op.May s c
  | .deliver _, .core c => c = .dateNow
  | .deliver job, .delivery c => c.IsFor job
  | .createPlan _, .planCreate _ => True
  | .createMerchantPlan address _, .planCreate data => data.merchantAddress = some address
  | .syncContract id _, .planUpdate id' data => id' = id ∧ data.isActive = none
  | .deactivatePlan id, .planUpdate id' data => id' = id ∧ data.contractPlanId = none
  | .createEndpoint body, .webhookEndpointCreate data => data = body
  | .deactivateEndpoint id, .webhookEndpointDeactivate id' => id' = id
  | .testEvent _ _, .core c => c.isWebhook
  | .verifyWallet body, .walletUpsertVerified address =>
      address = body.address
        ∧ verifySignedMessage d.sdk body.address body.message body.signature = true
  | .ingest headers _, c => headers.May d c
  | .poll headers _, c => headers.May d c
  | _, _ => False

/-- Without a billing cycle, the clock is read and events are announced. -/
theorem ServerOperation.May.core {d : Deployment} {s : Server} {op : ServerOperation} {c : Call}
    (hop : ∀ b, op ≠ .billing b) (h : op.May d s (.core c)) : c = .dateNow ∨ c.isWebhook := by
  cases op with
  | billing b => exact absurd rfl (hop b)
  | deliver job => exact .inl h
  | testEvent type payload => exact .inr h
  | _ => exact False.elim h

/-- What operations may do, as a law. -/
abbrev mayDo (d : Deployment) : OperationLaw := fun op s c => op.May d s c

/-! ## §2. Billing cycles. -/

section Cycles

variable {d : Epoch} {s : Server} {op : ServerOperation}

/-- The payment `pid` is the only one that the call updates or charges. -/
def Call.bills (pid key : String) : Call → Prop
  | .paymentCreate _ => False
  | .paymentUpdate id _ => id = pid
  | .sendTransaction k _ => k = key
  | _ => True

theorem Call.isWebhook.bills {pid key : String} {c : Call} (h : c.isWebhook) : c.bills pid key := by
  cases c <;> first | exact h.elim | trivial

theorem invokeAsAdmin_bills (cfg : Config) (pid key : String) (inv : Invocation) :
    Calls api (Call.bills pid key) (invokeAsAdmin cfg key inv) := by
  unfold invokeAsAdmin
  split
  · exact calls_throw
  refine calls_bind (fun _ => ?_) (keypairFromSecret_calls _)
  refine calls_bind (fun _ => ?_) (calls_perform trivial)
  refine calls_bind (fun _ => ?_) getContract_calls
  refine calls_bind (fun simulated => ?_) (calls_perform trivial)
  cases simulated with
  | some error => exact calls_throw
  | none =>
      refine calls_bind (fun status => ?_) (calls_perform rfl)
      cases status with
      | ERROR detail => exact calls_throw
      | accepted hash => exact calls_bind (fun _ => calls_pure) (calls_perform trivial)

theorem executeSorobanBilling_bills (cfg : Config) {params : SorobanBillingParams}
    {pid key : String} (hid : params.paymentId = pid) (hkey : params.idempotencyKey = key) :
    Calls api (Call.bills pid key) (executeSorobanBilling cfg params) := by
  subst hid hkey
  unfold executeSorobanBilling
  refine calls_bind (fun existing => ?_) (calls_perform trivial)
  split
  · exact calls_pure
  split
  · exact calls_throw
  split
  · exact calls_bind (fun _ => calls_pure) (calls_perform rfl)
  refine calls_bind (fun admin => ?_) (keypairFromSecret_calls _)
  refine calls_bind (fun _ => ?_) (calls_perform rfl)
  refine calls_tryCatch (fun err => ?_) ?_
  · cases err with
    | sorobanBillingFailed hash => exact calls_throw
    | error message => exact calls_bind (fun _ => calls_throw) (calls_perform rfl)
  · unfold executeSorobanBilling.attempt
    refine calls_bind (fun adminArg => ?_) (addressToScVal_calls _)
    refine calls_bind (fun subscriberArg => ?_) (addressToScVal_calls _)
    refine calls_bind (fun invoked => ?_) (invokeAsAdmin_bills cfg _ _ _)
    obtain ⟨hash, result⟩ := invoked
    dsimp only
    split
    · exact calls_bind (fun _ => calls_throw) (calls_perform rfl)
    · exact calls_bind (fun _ => calls_pure) (calls_perform rfl)

/-- Horizon is sent no Soroban transaction. -/
theorem submitPayment_bills (cfg : Config) {params : PaymentParams} {pid key : String}
    (hid : params.paymentId = pid) : Calls api (Call.bills pid key) (submitPayment cfg params) := by
  subst hid
  unfold submitPayment
  refine calls_bind (fun existing => ?_) (calls_perform trivial)
  split
  · exact calls_pure
  split
  · exact calls_bind (fun _ => calls_pure) (calls_perform rfl)
  refine calls_bind (fun publicKey => ?_) (keypairFromSecret_calls _)
  refine calls_bind (fun _ => ?_) (calls_perform trivial)
  refine calls_bind (fun _ => ?_) (calls_perform rfl)
  refine calls_tryCatch
    (fun err => calls_bind (fun _ => calls_throw) (calls_perform rfl)) ?_
  unfold submitPayment.attempt
  refine calls_bind (fun submitted => ?_) (calls_perform trivial)
  obtain ⟨hash, ledger⟩ := submitted
  exact calls_bind (fun _ => calls_pure) (calls_perform rfl)

/-- **A charge and its handler bill one payment.** -/
theorem attempt_bills (cfg : Config) (sub : SubscriptionWithPlan) (payment : Payment)
    (key : String) :
    Calls api (Call.bills payment.id key) (processBillingCycle.attempt cfg sub payment key) := by
  unfold processBillingCycle.attempt
  refine calls_bind (fun _ => calls_bind (fun _ => ?_) ?_) ?_
  · exact (emitWebhookEvent_calls _ _ _).mono (fun _ h => h.bills)
  · exact calls_bind (fun _ => calls_pure) (calls_perform trivial)
  · unfold chargePayment
    split
    · exact calls_bind (fun _ => calls_pure) (executeSorobanBilling_bills cfg rfl rfl)
    split
    · exact calls_bind (fun _ => calls_pure) (submitPayment_bills cfg rfl)
    · exact calls_throw

theorem handlePaymentFailure_bills (cfg : Config) (sub : SubscriptionWithPlan) (pid key : String) :
    Calls api (Call.bills pid key) (handlePaymentFailure cfg sub pid) := by
  unfold handlePaymentFailure
  dsimp only
  split
  · refine calls_bind (fun now => calls_bind (fun _ => ?_) (calls_perform trivial))
      (calls_perform trivial)
    exact (emitWebhookEvent_calls _ _ _).mono (fun _ h => h.bills)
  · refine calls_bind (fun now => calls_bind (fun _ => ?_) (calls_perform trivial))
      (calls_perform trivial)
    exact calls_bind (fun _ => calls_pure) (calls_perform trivial)

/-- What bills a payment of `x` keeps to the rows of `x`. -/
theorem Call.isBilling.within {cfg : Config} {sub : SubscriptionWithPlan} {pid key : String}
    {c : Call} (h : c.isBilling cfg sub) (hbills : c.bills pid key)
    (hrow : s.HasPayment pid key sub.id) : c.Within s sub.id := by
  obtain ⟨p, hp, hid, hkey, hsub⟩ := hrow
  cases c with
  | subscriptionUpdate id data => exact h.1
  | subscriptionCreate data => exact h
  | paymentCreate data => exact hbills.elim
  | paymentUpdate id data =>
      intro q hq hqid
      obtain rfl := payment_unique hp hq (hid.trans (hqid.trans hbills).symm)
      exact hsub
  | paymentUpdateMany id status data => exact h.1
  | sendTransaction k inv => exact ⟨p, hp, hkey.trans (Eq.symm hbills), hsub⟩
  | _ => trivial

variable {sub : SubscriptionWithPlan} {x : String}

/-- The charge of a payment that is known, with its handler. -/
theorem charge_within {payment : Payment} {key : String}
    (hmay : ∀ (s : Server) c, c.isCycle sub.id → c.Within s sub.id →
      op.May d.toDeployment s (.core c))
    (hrow : s.HasPayment payment.id key sub.id) :
    Safe (within (mayDo d.toDeployment) d)
      (tryCatch (processBillingCycle.attempt d.cfg sub payment key)
        (fun _ => handlePaymentFailure d.cfg sub payment.id)) (fun _ _ _ => True) s op := by
  refine within_calls (F := fun c => c.isBilling d.cfg sub ∧ c.bills payment.id key)
    (K := fun s => s.HasPayment payment.id key sub.id) (fun _ _ hgrows h => h.grow hgrows)
    (fun c s h hK => hmay s c h.1.isCycle (h.1.within h.2 hK)) hrow ?_
  refine Calls.and ?_ ?_
  · refine calls_tryCatch (fun _ => handlePaymentFailure_calls sub _) ?_
    exact calls_bind (fun _ => calls_bind (fun _ => billing_emit _ _ _) (advancePeriod_calls sub))
      ((chargePayment_calls sub _ _).mono (fun _ h => h.isBilling))
  · exact calls_tryCatch (fun _ => handlePaymentFailure_bills _ _ _ _) (attempt_bills _ _ _ _)

/-- **The cycle of a subscription that was read.** -/
theorem rest_within
    (hmay : ∀ (s : Server) c, c.isCycle sub.id → c.Within s sub.id →
      op.May d.toDeployment s (.core c)) :
    Safe (within (mayDo d.toDeployment) d) (processBillingCycle.rest d.cfg sub)
      (fun _ _ _ => True) s op := by
  refine safe_rest_amid (I := fun v => v = op) rfl ?_ ?_ ?_
  · intro c hc R s₁ v hgrows₁ hv herr hok
    subst hv
    refine within_call (fun s₂ _ _ => ?_) (fun s₂ env r w hvalid₂ hserve hgrows₂ => ?_)
    · cases c with
      | paymentFindUnique k => exact hmay s₂ _ trivial trivial
      | paymentCreate data =>
          have hc : data = processBillingCycle.paymentData d.cfg sub _ := hc
          subst hc
          exact hmay s₂ _ rfl rfl
      | _ => exact hc.elim
    · cases r with
      | error err => exact herr err _ _
      | ok a => exact hok a s₂ env w v hvalid₂ hserve (hgrows₁.trans _ _ _ hgrows₂) rfl
  · -- the period is advanced
    intro s₁ v _ _ hv _ _
    subst hv
    unfold advancePeriod
    dsimp only
    rw [safe_bind]
    refine within_call (fun s₂ _ _ => hmay s₂ _ ⟨rfl, .inr (.inl rfl)⟩ rfl) ?_
    exact fun _ _ r _ _ _ _ => by cases r <;> trivial
  · intro s₁ v payment _ hv hrow
    subst hv
    exact charge_within hmay hrow

/-- **A billing cycle keeps to the rows of its subscription.** -/
theorem cycle_within {id : String}
    (hmay : ∀ (s : Server) c, c.isCycle id → c.Within s id → op.May d.toDeployment s (.core c)) :
    Safe (within (mayDo d.toDeployment) d) (processBillingCycle d.cfg id)
      (fun _ _ _ => True) s op := by
  refine safe_cycle_amid (J := fun _ v => v = op) (fun herr hok => ?_) ?_
  · refine within_call (fun s₁ _ _ => hmay s₁ _ trivial trivial)
      (fun s₁ env r w hvalid₁ hserve _ => ?_)
    cases r with
    | error err => exact herr err _ _
    | ok found => exact hok found s₁ env w op hvalid₁ hserve (fun _ _ => rfl)
  · intro sub s₁ v hid _ hv
    subst hid hv
    exact rest_within hmay

end Cycles

/-! ## §3. The other operations. -/

section Operations

variable {d : Epoch} {s : Server} {α : Type}

theorem retry_isEnqueuing (id : String) : Calls api Call.isEnqueuing (payments.retry id) := by
  unfold payments.retry
  refine calls_bind (fun found => ?_) (calls_perform trivial)
  cases found with
  | none => exact calls_pure
  | some payment =>
      dsimp only
      split
      · exact calls_pure
      · refine calls_bind (fun now => ?_) (calls_perform trivial)
        exact calls_bind (fun _ => calls_pure) (calls_perform trivial)

theorem expireGracePeriods_onlyCancels : Calls api Call.onlyCancels expireGracePeriods := by
  unfold expireGracePeriods
  refine calls_bind (fun now => ?_) (calls_perform trivial)
  refine calls_bind (fun expired => ?_) (calls_perform trivial)
  refine calls_forEach (fun sub _ => ?_)
  unfold expireGracePeriods.cancel
  refine calls_bind (fun now => ?_) (calls_perform trivial)
  refine calls_bind (fun _ => ?_) (calls_perform ⟨now, rfl⟩)
  refine (emitWebhookEvent_calls _ _ _).mono (fun c h => ?_)
  cases c <;> first | exact h.elim | trivial

theorem tick_onlyCancels : Calls api Call.onlyCancels scheduleBillingJobs := by
  unfold scheduleBillingJobs findDueSubscriptions
  refine calls_bind (fun due => calls_bind (fun _ => expireGracePeriods_onlyCancels) ?_)
    (calls_bind (fun now => calls_perform trivial) (calls_perform trivial))
  exact calls_forEach (fun sub _ => calls_perform trivial)

/-- **Every operation of billing keeps to its calls.** -/
theorem operation_within (op : Operation) :
    Safe (within (mayDo d.toDeployment) d) (op.body d.cfg) (fun _ _ _ => True) s (.billing op) := by
  -- whoever keeps to a footprint keeps to what his operation may do
  have hcalls : ∀ F : Call → Prop, (∀ c (s : Server), F c → op.May s c) →
      Calls api F (op.body d.cfg) →
      Safe (within (mayDo d.toDeployment) d) (op.body d.cfg)
        (fun _ _ _ => True) s (.billing op) := by
    intro F hF hp
    have hmay : ∀ c (s : Server), F c → True →
        ServerOperation.May d.toDeployment s (.billing op) (.core c) := fun c s hc _ => hF c s hc
    exact within_calls (fun _ _ _ h => h) hmay trivial hp
  cases op with
  | createSubscription body => exact hcalls _ (fun _ _ h => h) (calls_map (create_calls body))
  | cancel id immediately =>
      exact hcalls _ (fun _ _ h => h) (calls_map (cancel_calls id immediately))
  | pause id => exact hcalls _ (fun _ _ h => h) (calls_map (pause_calls {} id))
  | resume id => exact hcalls _ (fun _ _ h => h) (calls_map (resume_calls id))
  | retryPayment id => exact hcalls _ (fun _ _ h => h) (calls_map (retry_isEnqueuing id))
  | runBilling id =>
      refine hcalls Call.isEnqueuing (fun _ _ h => h) (calls_map ?_)
      exact calls_bind (fun _ => calls_pure) (calls_perform trivial)
  | runInline id =>
      have hmay : ∀ (s : Server) c, c.isCycle id → c.Within s id →
          ServerOperation.May d.toDeployment s (.billing (.runInline id)) (.core c) :=
        fun _ _ hcycle hwithin => ⟨hcycle, hwithin⟩
      refine Safe.map ?_
      show Safe _ (processBillingCycle _ _ >>= _) _ _ _
      rw [safe_bind]
      exact (cycle_within hmay).mono (fun r _ _ _ => by cases r <;> trivial)
  | billingJob job =>
      have hmay : ∀ (s : Server) c, c.isCycle job.data → c.Within s job.data →
          ServerOperation.May d.toDeployment s (.billing (.billingJob job)) (.core c) :=
        fun _ _ hcycle hwithin => ⟨hcycle, hwithin⟩
      exact (cycle_within hmay).map
  | tick => exact hcalls _ (fun _ _ h => h) (calls_map (tick_calls.and tick_onlyCancels))
  | expireGracePeriods =>
      exact hcalls _ (fun _ _ h => h)
        (calls_map ((expireGracePeriods_calls {}).and expireGracePeriods_onlyCancels))

/-- The worker keeps to its job. -/
def WebhookApi.IsFor (job : JobQueue.Job String) : WebhookApi.Call → Prop
  | .inl c => c = .dateNow
  | .inr c => c.IsFor job

theorem worker_within (js : Builtins) (job : JobQueue.Job String) :
    Calls workerApi (WebhookApi.IsFor job) (webhookWorker.run js job) := by
  unfold webhookWorker.run webhookWorker deliverWebhook
  refine calls_tryCatch (fun _ => calls_perform rfl)
    (calls_bind (fun _ => calls_perform rfl) ?_)
  refine calls_bind (fun delivery => ?_) (calls_perform rfl)
  refine calls_bind (fun failure => ?_) (calls_tryCatch (fun _ => calls_pure) ?_)
  · cases failure with
    | none => exact calls_pure
    | some err =>
        exact calls_bind (fun text => calls_bind (fun _ => calls_throw) (calls_perform rfl))
          calls_evaluate
  · refine calls_bind (fun answer => ?_) (calls_perform trivial)
    cases answer with
    | error err => exact calls_pure
    | ok res =>
        refine calls_bind (fun text => ?_) calls_evaluate
        refine calls_bind (fun now => calls_bind (fun _ => calls_pure) (calls_perform rfl)) ?_
        show Calls _ _ (Prog.perform (I := Api) .dateNow).embed
        rw [Prog.embed_perform]
        exact calls_perform rfl

/-- **Behind the `preHandler`** nothing happens but for signed requests, or
outside production. -/
theorem withWalletAuth_within {d : Deployment} {headers : AuthHeaders}
    {handler : Handler RouteReply}
    (h : (d.production = true → ∃ address, headers.SignedBy d.sdk address) →
      Calls serverApi (headers.May d) handler) :
    Calls serverApi (headers.May d) (withWalletAuth d headers handler) := by
  unfold withWalletAuth requireWalletAuth
  split
  · split
    · exact calls_pure
    next hprod => exact h (fun hp => absurd hp hprod)
  · split
    next address message signature haddress hmessage hsignature =>
      split
      next hverified =>
        have hsigned : headers.SignedBy d.sdk address := by
          obtain ⟨a, m, sig⟩ := headers
          cases haddress
          cases hmessage
          cases hsignature
          exact ⟨message, signature, rfl, hverified⟩
        refine calls_bind (fun admission => ?_)
          (calls_bind (fun _ => calls_pure) (calls_perform hsigned))
        cases admission with
        | sent reply => exact calls_pure
        | _ => exact h (fun _ => ⟨address, hsigned⟩)
      next => exact calls_pure
    next => exact calls_pure

/-- The indexer behind the `preHandler`. -/
theorem indexer_within {d : Deployment} {headers : AuthHeaders} {p : Indexer.Service α}
    (h : d.production = true → ∃ address, headers.SignedBy d.sdk address) :
    Calls serverApi (headers.May d) (p.translate indexerOnServer) :=
  calls_translate indexerImplemented (F := fun _ => True) (fun _ _ => h) calls_any

end Operations

/-! ## §4. The whole server. -/

section Running

variable {d : Epoch} {s : Server}

/-- A handler that makes one call. -/
theorem handler_calls {α : Type} {F : ServerCall → Prop} {c : ServerCall} {f : c.Reply → α}
    (h : F c) : Calls serverApi F (awaitServer c >>= fun r => pure (f r)) :=
  calls_bind (fun _ => calls_pure) (calls_perform h)

/-- **An operation that is not of billing** keeps to its calls, whatever is
stored. -/
theorem other_within {d : Deployment} {op : ServerOperation} (hop : ∀ b, op ≠ .billing b) :
    Calls serverApi (fun c => ∀ s, op.May d s c) (op.body d) := by
  cases op with
  | billing op => exact absurd rfl (hop op)
  | deliver job =>
      refine (calls_translate workerImplemented (fun c hc s => ?_)
        (worker_within d.webhook job))
      cases c with
      | inl c => exact hc
      | inr c => exact hc
  | createPlan body =>
      refine calls_map ?_
      unfold plans.create
      split
      · exact calls_pure
      · exact handler_calls (fun _ => trivial)
  | createMerchantPlan address body =>
      refine calls_map ?_
      unfold merchants.create
      split
      · exact calls_pure
      · exact handler_calls (fun _ => rfl)
  | syncContract id contractPlanId =>
      refine calls_map ?_
      unfold plans.syncContract
      split
      · exact calls_pure
      · exact handler_calls (fun _ => ⟨rfl, rfl⟩)
  | deactivatePlan id => exact calls_map (handler_calls (fun _ => ⟨rfl, rfl⟩))
  | createEndpoint body =>
      refine calls_map ?_
      unfold webhooks.createEndpoint webhooks.createEndpointSchema
      split
      · exact calls_pure
      next data hdata =>
        split at hdata
        next =>
          cases hdata
          exact handler_calls (fun _ => rfl)
        next => cases hdata
  | deactivateEndpoint id => exact calls_map (handler_calls (fun _ => rfl))
  | testEvent type payload =>
      refine calls_map (calls_bind (fun _ => calls_pure) ?_)
      exact calls_translate servicesImplemented (fun _ hc _ => hc)
        (calls_onServer (emitWebhookEvent_calls type none _))
  | verifyWallet body =>
      refine calls_map ?_
      unfold wallets.verify
      split
      · exact calls_pure
      split
      next hsigned => exact handler_calls (fun _ => ⟨rfl, hsigned⟩)
      next => exact calls_pure
  | ingest headers body =>
      refine calls_map ?_
      refine (withWalletAuth_within (fun h => ?_)).mono (fun _ hc _ => hc)
      unfold indexer.ingest
      split
      · exact calls_pure
      split
      · exact calls_pure
      · exact calls_bind (fun _ => calls_pure) (indexer_within h)
  | poll headers startLedger =>
      refine calls_map ?_
      refine (withWalletAuth_within (fun h => ?_)).mono (fun _ hc _ => hc)
      unfold indexer.poll
      split
      · exact calls_pure
      · exact calls_bind (fun _ => calls_pure) (indexer_within h)

/-- **Every operation keeps to its calls.** -/
theorem body_within (op : ServerOperation) :
    Safe (keptTo (mayDo d.toDeployment) d) (op.body d.toDeployment) (fun _ _ _ => True) s op := by
  cases op with
  | billing op => exact body_of_services (operation_within op).map
  | _ => exact body_of_calls (other_within nofun)

end Running

/-- **Every execution does only what its operation may do**, in every state the
server reaches. -/
theorem calls_are_within (d : Deployment) (P : Pool ServerApi Server ServerOperation)
    (h : ReachedIn d P) (t : Thread ServerApi ServerOperation) (ht : t ∈ P.threads)
    (c : ServerCall) (hc : t.Awaits c) : t.view.May d P.world c :=
  ((h.sound (L := mayDo d) (fun op _ => body_within op)).pending
    (Shop.answers 0 []) ht hc trivial).2

namespace Shop

/-- The pool after a list of choices, each execution under its name. -/
def performed (cs : List (Choice ServerOperation ServerEnv))
    (P : Pool ServerApi Server ServerOperation) : Option (Pool ServerApi Server ServerOperation) :=
  Pool.advance (namedServer (deployment false)) (fun _ _ _ => true) cs P

theorem moves_of_performed {cs : List (Choice ServerOperation ServerEnv)}
    {P P' : Pool ServerApi Server ServerOperation} (h : performed cs P = some P') :
    Pool.Moves (namedServer (deployment false)) anyone (fun _ => True) P P' :=
  (Pool.advance_run (fun _ _ _ _ => trivial) h).moves

/-- The subscription whose cycle is about to send a transaction. -/
def sendsFor? (t : Thread ServerApi ServerOperation) : Option String :=
  match t.view, t.code with
  | .billing (.runInline id), .call (.core (.sendTransaction _ _)) _ => some id
  | _, _ => none

theorem sends_of {t : Thread ServerApi ServerOperation} {id : String} (h : sendsFor? t = some id) :
    t.view = .billing (.runInline id)
      ∧ ∃ key inv, t.Awaits (.core (.sendTransaction key inv)) := by
  obtain ⟨view, code⟩ := t
  unfold sendsFor? at h
  split at h
  next id' key inv next hview hcode =>
    cases h
    exact ⟨hview, key, inv, next, hcode⟩
  next => cases h

end Shop

/-- A cycle of `sub` is about to send a transaction. -/
theorem calls_are_within_shop :
    ∃ P, ∃ t ∈ P.threads, ∃ key inv, ReachedIn (Shop.deployment false) P
      ∧ t.view = .billing (.runInline "sub") ∧ t.Awaits (.core (.sendTransaction key inv))
      ∧ ∃ p ∈ P.world.core.payments, p.idempotencyKey = key ∧ p.subscriptionId = "sub" := by
  have hrun : (Shop.performed (Shop.opensShop ++ Shop.chargesSub.dropLast.dropLast)
      ⟨Server.fresh, []⟩).map (fun P => P.threads.map Shop.sendsFor?) = some [some "sub"] := by
    decide +kernel
  obtain ⟨P, hP, hsends⟩ := Option.map_eq_some_iff.mp hrun
  have hreached : ReachedIn (Shop.deployment false) P := Shop.moves_of_performed hP
  obtain ⟨t, ht, hsend⟩ := List.mem_map.mp (hsends ▸ List.mem_singleton_self (some "sub"))
  obtain ⟨hview, key, inv, hawaits⟩ := Shop.sends_of hsend
  have hmay := calls_are_within (Shop.deployment false) P hreached t ht _ hawaits
  rw [hview] at hmay
  obtain ⟨-, hwithin⟩ := hmay
  exact ⟨P, t, ht, key, inv, hreached, hview, hawaits, hwithin⟩

/-! ## §5. The mirror of the chain. -/

/-- **In production the mirror is fed by wallets only**: an event is stored, under
a normalised hash, after somebody has shown to hold the key of a wallet. -/
theorem chain_events_are_admitted (d : Deployment) (P : Pool ServerApi Server Unit)
    (h : ReachedBy d P) (hprod : d.production = true) (x : Indexer.ChainEvent)
    (hx : x ∈ P.world.index.chainEvents) :
    (∃ hash, x.txHash = Indexer.normalizeTxHash d.indexer hash)
      ∧ ∃ wallet ∈ P.world.core.wallets, wallet.address ∈ P.world.verified
        ∧ ∃ message signature,
          verifySignedMessage d.sdk wallet.address message signature = true := by
  obtain ⟨hverified, hnormal⟩ := h.valid.chainEvents x hx
  obtain ⟨a, ha⟩ := List.exists_mem_of_ne_nil _ (hverified hprod)
  obtain ⟨hsigned, wallet, hwallet, rfl⟩ := h.valid.verified a ha
  exact ⟨hnormal, wallet, hwallet, ha, hsigned⟩

/-- A signed request stores an event. -/
def Shop.ingests : List (Choice ServerOperation ServerEnv) :=
  [.start (.ingest
      ⟨.one wallet.address, .one "hello", .one (wallet.address ++ "hello")⟩
      { type := "subscribed", contractId := "CONTRACT", txHash := " HASH" }),
   .act 0 (answers 1 ["wallet"]), .act 0 (answers 1 [])]

theorem chain_events_are_admitted_shop :
    ∃ P, ReachedBy (Shop.deployment false) P
      ∧ ∃ x ∈ P.world.index.chainEvents, x.txHash = "hash"
        ∧ ∃ wallet ∈ P.world.core.wallets, wallet.address ∈ P.world.verified := by
  have hrun : (Shop.played false Shop.ingests ⟨Server.fresh, []⟩).map
      (fun P => P.world.index.chainEvents.rows.map (·.txHash)) = some ["hash"] := by
    decide +kernel
  obtain ⟨P, hP, hhashes⟩ := Option.map_eq_some_iff.mp hrun
  have hreached : ReachedBy (Shop.deployment false) P := Shop.moves_of_played hP
  obtain ⟨x, hx, hhash⟩ := List.mem_map.mp (hhashes ▸ List.mem_singleton_self "hash")
  obtain ⟨-, wallet, hwallet, hverified, -⟩ :=
    chain_events_are_admitted (Shop.deployment false) P hreached rfl x hx
  exact ⟨P, hreached, x, hx, hhash, wallet, hwallet, hverified⟩

end Sorobill
