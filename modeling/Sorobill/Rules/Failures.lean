/-
  Sorobill.Rules.Failures
  ───────────────────────
  **WHAT A CYCLE THAT FAILS ITS CHARGE MAKES OF THE PAYMENTS.**

  A charge that throws has set its row to FAILED, unless it threw before it
  began.  The handler then marks the FAILED rows of the subscription.

    • `ChargeBegins` — a live charge comes as far as its first write;
    • `Faulted` — the payment after a charge that has thrown;
    • `Marked` — the payments after `handlePaymentFailure`;
    • `FailedCycle`, `failed_cycle` — the payments after a cycle whose period
      is not paid.
-/
import Sorobill.Rules.Bookings
import Sorobill.Rules.Custody

namespace Sorobill

open Effect
open Relational
open JavaScript (JsValue)

/-! ## §1. Statements. -/

/-- **A live charge begins**: it goes through Soroban, and the treasury key
can be read. -/
def ChargeBegins (cfg : Config) (plan : Plan) : Prop :=
  useSoroban cfg plan = true
    ∧ (cfg.publicKeyOfSecret cfg.stellar.treasurySecretKey).isSome = true

/-- Of the payments, only the outcome of `pid` is written. -/
structure WritesOutcome (pid : String) (w w' : World) : Prop where
  others : ∀ p : Payment, p.id ≠ pid → (p ∈ w'.payments ↔ p ∈ w.payments)
  bills : ∀ p' ∈ w'.payments, ∃ p ∈ w.payments, SameBill p p'

/-- **The payment after a charge that has thrown.** -/
inductive Faulted (cfg : Config) (A : CallEvent → Prop) (plan : Plan) (pid key : String)
    (w w' : World) : Prop where
  | refused : Refusable A → Faulted cfg A plan pid key w w'
  | unbegun : ¬ ChargeBegins cfg plan → w'.payments = w.payments → Faulted cfg A plan pid key w w'
  | recorded : ChargeBegins cfg plan → RowAt pid key w' .FAILED → Faulted cfg A plan pid key w w'

/-- What `handlePaymentFailure` writes in payments. -/
def retryData (retryCount : Nat) (now : Instant) : PaymentData :=
  { status := some .RETRYING
    nextRetryAt := some (hoursFrom now (2 ^ retryCount))
    retryCount := some retryCount }

/-- **The payments after `handlePaymentFailure`**: with retries left, the
FAILED payments of the subscription are marked. -/
inductive Marked (cfg : Config) (A : CallEvent → Prop) (sub : SubscriptionWithPlan)
    (w w' : World) : Prop where
  | kept : Refusable A ∨ cfg.billing.maxRetries ≤ sub.retryCount + 1 →
      w'.payments = w.payments → Marked cfg A sub w w'
  | marked (e : CallEvent) : (sub.retryCount : Int) + 1 < cfg.billing.maxRetries →
      A e → e.call = .dateNow → (retryData (sub.retryCount + 1) e.env.now).valid = true →
      w.payments.update? (fun p => p.subscriptionId == sub.id && p.status == .FAILED)
        (retryData (sub.retryCount + 1) e.env.now).apply = some w'.payments →
      Marked cfg A sub w w'

/-- The failure was counted, or a call was rejected. -/
def FailureCounted (A : CallEvent → Prop) (sub : SubscriptionWithPlan) (w' : World) : Prop :=
  Refusable A ∨ ∃ s', w'.sub? sub.id = some s' ∧ s'.retryCount = sub.retryCount + 1

/-- **The payments after a cycle that has not paid its period.** -/
inductive FailedCycle (cfg : Config) (A : CallEvent → Prop) (sub : SubscriptionWithPlan)
    (w w' : World) : Prop where
  | unbegun : Refusable A → w' = w → FailedCycle cfg A sub w w'
  | handled (p : Payment) (w₁ w₂ : World) : Begun sub w p w₁ → WritesOutcome p.id w₁ w₂ →
      Faulted cfg A sub.plan p.id sub.currentKey w₁ w₂ →
      Marked cfg A sub w₂ w' → FailureCounted A sub w' → FailedCycle cfg A sub w w'

/-- The calls to the database and to the queues are all answered. -/
def DatabaseUp (t : List CallEvent) : Prop :=
  ∀ e ∈ t, ¬ e.call.isNetwork → isRejected e = false

instance (t : List CallEvent) : Decidable (DatabaseUp t) :=
  inferInstanceAs (Decidable (∀ e ∈ t, ¬ e.call.isNetwork → isRejected e = false))

theorem DatabaseUp.not_refusable {t : List CallEvent} (h : DatabaseUp t) :
    ¬ Refusable (· ∈ t) := by
  intro href
  obtain ⟨e, he, hstore, hrejected⟩ := href
  rw [h e he hstore.2] at hrejected
  cases hrejected

/-! ## §2. The errors of a charge. -/

/-- The polling loop throws plain errors. -/
theorem pollTransaction_plain {hash : String} {started : Instant} {first : TxStatus}
    {polls : List Poll} {err : Thrown} (h : pollTransaction hash started first polls = .error err) :
    ∃ message, err = .error message := by
  induction polls generalizing first with
  | nil =>
      cases first <;> cases h <;> exact ⟨_, rfl⟩
  | cons p polls ih =>
      cases first with
      | NOT_FOUND =>
          unfold pollTransaction at h
          split at h
          · cases h
            exact ⟨_, rfl⟩
          · exact ih h
      | FAILED =>
          cases h
          exact ⟨_, rfl⟩
      | SUCCESS returnValue => cases h

/-- The rejection of a call is no `sorobanBillingFailed`. -/
theorem plain_of_error {c : Call} {env : Env} {w : World} {err : Thrown}
    (h : (api.serve c env w).1 = .error err) : ∃ message, err = .error message := by
  rcases serve_cases c env w with ⟨message, -, hs⟩ | ⟨-, hs⟩
  · rw [hs] at h
    cases h
    exact ⟨message, rfl⟩
  · rw [hs] at h
    cases c with
    | webhookQueueAdd deliveryId => cases h
    | billingQueueAdd name subscriptionId jobId => cases h
    | awaitTransaction hash =>
        simp only [World.answer] at h
        split at h
        · exact pollTransaction_plain h
        · cases h
          exact ⟨_, rfl⟩
    | _ =>
        simp only [World.answer, World.createSubscription, World.updateSubscription,
          World.createPayment, World.updatePayment, World.updatePayments] at h
        (repeat' split at h) <;> cases h <;> exact ⟨_, rfl⟩

/-- What was thrown, if anything, is no `sorobanBillingFailed`. -/
def Plain {α : Type} : Post Api World Log α := fun r _ _ =>
  ∀ hash, r ≠ .error (.sorobanBillingFailed hash)

section Faults

variable {cfg : Config} {A : CallEvent → Prop} {w : World} {v : Log} {α β : Type}

theorem plain_perform {c : Call} :
    Safe (sequential A) (Prog.perform (I := Api) c) Plain w v := by
  refine seq_perform.mpr (fun env _ hash h => ?_)
  obtain ⟨message, hplain⟩ := plain_of_error h
  cases hplain

theorem plain_throw (message : String) :
    Safe (sequential A) (throw (.error message) : Service α) Plain w v :=
  fun _ h => nomatch h

theorem plain_bind {p : Service α} {f : α → Service β}
    (hp : Safe (sequential A) p Plain w v) (hf : ∀ a w v, Safe (sequential A) (f a) Plain w v) :
    Safe (sequential A) (p >>= f) Plain w v := by
  rw [safe_bind]
  apply hp.mono
  intro r w' v' h
  cases r with
  | ok a => exact hf a w' v'
  | error err => exact fun hash heq => h hash (congrArg _ (Except.error.inj heq))

/-- `invokeAsAdmin` throws plain errors. -/
theorem invokeAsAdmin_plain {key : String} {invocation : Invocation} :
    Safe (sequential A) (invokeAsAdmin cfg key invocation) Plain w v := by
  unfold invokeAsAdmin keypairFromSecret getContract
  split
  · exact plain_throw _
  split
  swap
  · exact plain_throw _
  show Safe _ (server.getAccount _ >>= _) _ _ _
  refine plain_bind plain_perform (fun _ w v => ?_)
  split
  · exact plain_throw _
  show Safe _ (server.simulateTransaction _ >>= _) _ _ _
  refine plain_bind plain_perform (fun simulated w v => ?_)
  cases simulated with
  | some error => exact plain_throw _
  | none =>
      refine plain_bind plain_perform (fun status w v => ?_)
      cases status with
      | ERROR detail => exact plain_throw _
      | accepted hash => exact plain_bind plain_perform (fun _ _ _ _ h => nomatch h)

/-- A `try` block that has thrown `sorobanBillingFailed` has set the row to
FAILED. -/
theorem attempt_recorded {params : SorobanBillingParams} {admin : String} {st : PaymentStatus}
    (hrow : RowAt params.paymentId params.idempotencyKey w st) :
    Safe (sequential A) (executeSorobanBilling.attempt cfg params admin)
      (fun r w' _ => ∀ hash, r = .error (.sorobanBillingFailed hash) →
        Refusable A ∨ RowAt params.paymentId params.idempotencyKey w' .FAILED) w v := by
  unfold executeSorobanBilling.attempt addressToScVal
  split
  swap
  · exact fun _ h => nomatch h
  show Safe _ ((if _ then pure _ else throw _ : Service String) >>= _) _ _ _
  split
  swap
  · exact fun _ h => nomatch h
  show Safe _ (invokeAsAdmin cfg params.idempotencyKey _ >>= _) _ _ _
  rw [safe_bind]
  apply (invokeAsAdmin_ends.and invokeAsAdmin_plain).mono
  intro r w₁ v₁ hpost
  obtain ⟨⟨hpay, -⟩, hplain⟩ := hpost
  have hrow₁ := hrow.congr hpay
  cases r with
  -- the call itself never throws SorobanBillingFailed
  | error err => exact fun hash h => absurd (congrArg _ (Except.error.inj h)) (hplain hash)
  | ok invoked =>
      obtain ⟨hash, result⟩ := invoked
      rw [andThen_ok]
      dsimp only
      split
      · rw [safe_bind]
        exact seq_paymentUpdate hrow₁ rfl (fun err h _ _ => .inl h)
          (fun a w₂ hrow₂ _ _ _ => .inr hrow₂)
      · rw [safe_bind]
        exact seq_paymentUpdate hrow₁ rfl (fun err h _ _ => .inl h)
          (fun a w₂ _ _ _ h => nomatch h)

/-- The `catch` block leaves the row FAILED. -/
theorem recordFailure_recorded {params : SorobanBillingParams} {err : Thrown}
    {st : PaymentStatus} (hrow : RowAt params.paymentId params.idempotencyKey w st)
    (hfailed : ∀ hash, err = .sorobanBillingFailed hash →
      Refusable A ∨ RowAt params.paymentId params.idempotencyKey w .FAILED) :
    Safe (sequential A) (executeSorobanBilling.recordFailure params err)
      (fun _ w' _ => Refusable A ∨ RowAt params.paymentId params.idempotencyKey w' .FAILED)
      w v := by
  cases err with
  | sorobanBillingFailed hash => exact hfailed hash rfl
  | error message =>
      show Safe _ (prisma.payment.update _ _ >>= _) _ _ _
      rw [safe_bind]
      exact seq_paymentUpdate hrow rfl (fun err h => .inl h) (fun a w₂ hrow₂ _ => .inr hrow₂)

theorem executeSorobanBilling_faults {params : SorobanBillingParams} {st : PaymentStatus}
    (hcontract : hasSorobanContract cfg = true) (hst : st ≠ .SUCCESS)
    (hrow : RowAt params.paymentId params.idempotencyKey w st) :
    Safe (sequential A) (executeSorobanBilling cfg params)
      (fun r w' _ => ∀ err, r = .error err → Refusable A
        ∨ (cfg.publicKeyOfSecret cfg.stellar.treasurySecretKey = none
            ∧ w'.payments = w.payments)
        ∨ ((cfg.publicKeyOfSecret cfg.stellar.treasurySecretKey).isSome = true
            ∧ RowAt params.paymentId params.idempotencyKey w' .FAILED)) w v := by
  unfold executeSorobanBilling
  apply seq_check hst hrow (fun err h _ _ => .inl h)
  intro existing hnone
  rw [hnone]
  dsimp only
  rw [if_neg (by rw [hcontract]; decide)]
  split
  · -- test mode: one update
    rw [safe_bind]
    exact seq_paymentUpdate hrow rfl (fun err h _ _ => .inl h) (fun a w₁ _ _ _ h => nomatch h)
  · unfold keypairFromSecret
    cases hkey : cfg.publicKeyOfSecret cfg.stellar.treasurySecretKey with
    -- no treasury key: it throws before its first write
    | none => exact fun _ _ => .inr (.inl ⟨rfl, rfl⟩)
    | some admin =>
        show Safe _ (prisma.payment.update _ _ >>= _) _ _ _
        rw [safe_bind]
        apply seq_paymentUpdate hrow rfl (fun err h _ _ => .inl h)
        intro a w₁ hrow₁ _
        rw [andThen_ok, safe_tryCatch]
        apply ((attempt_ends (v := v) (by decide) hrow₁).and (attempt_recorded hrow₁)).mono
        intro r w₂ v₂ hpost
        obtain ⟨⟨-, hend⟩, hrecorded⟩ := hpost
        cases r with
        | ok hash => exact fun _ h => nomatch h
        | error err =>
            obtain ⟨⟨st', -, hrow₂⟩, -⟩ := hend
            -- the handler leaves the row FAILED, or its own update was refused
            refine (recordFailure_recorded hrow₂ ?_).mono (fun r w₃ v₃ h _ _ => ?_)
            · exact fun hash h => hrecorded hash (congrArg _ h)
            · rcases h with h | h
              · exact .inl h
              · exact .inr (.inr ⟨rfl, h⟩)

/-- In test mode nothing but a rejected call fails a payment. -/
theorem submitPayment_faults {params : PaymentParams} {key : String} {st : PaymentStatus}
    (htest : cfg.billing.testMode = true) (hst : st ≠ .SUCCESS)
    (hrow : RowAt params.paymentId key w st) :
    Safe (sequential A) (submitPayment cfg params)
      (fun r _ _ => ∀ err, r = .error err → Refusable A) w v := by
  unfold submitPayment
  apply seq_check hst hrow (fun err h _ _ => h)
  intro existing hnone
  rw [hnone]
  dsimp only
  rw [if_pos htest, safe_bind]
  exact seq_paymentUpdate hrow rfl (fun err h _ _ => h) (fun a w₁ _ _ _ h => nomatch h)

theorem contract_of_useSoroban {plan : Plan} (h : useSoroban cfg plan = true) :
    hasSorobanContract cfg = true := by
  unfold useSoroban at h
  simp only [Bool.and_eq_true] at h
  exact h.1.2

/-- **What a charge that has thrown leaves behind.** -/
theorem chargePayment_faults {sub : SubscriptionWithPlan} {pid key : String} {st : PaymentStatus}
    (hst : st ≠ .SUCCESS) (hrow : RowAt pid key w st) :
    Safe (sequential A) (chargePayment cfg sub pid key)
      (fun r w' _ => ∀ err, r = .error err → Faulted cfg A sub.plan pid key w w') w v := by
  unfold chargePayment
  split
  next hsoroban =>
    rw [safe_bind]
    apply (executeSorobanBilling_faults (contract_of_useSoroban hsoroban) hst hrow).mono
    intro r w₁ v₁ h
    cases r with
    | ok _ => exact fun _ h => nomatch h
    | error err =>
        intro err' _
        rcases h err rfl with h | ⟨hkey, hsame⟩ | ⟨hkey, hfailed⟩
        · exact .refused h
        · refine .unbegun (fun hbegins => ?_) hsame
          have hsome := hbegins.2
          rw [hkey] at hsome
          cases hsome
        · exact .recorded ⟨hsoroban, hkey⟩ hfailed
  next hsoroban =>
    split
    next htest =>
      rw [safe_bind]
      apply (submitPayment_faults htest hst hrow).mono
      intro r w₁ v₁ h
      cases r with
      | ok _ => exact fun _ h => nomatch h
      | error err => exact fun _ _ => .refused (h err rfl)
    next => exact fun _ _ => .unbegun (fun hbegins => hsoroban hbegins.1) rfl

end Faults

/-! ## §3. The handler. -/

section Handler

variable {cfg : Config} {A : CallEvent → Prop} {w : World} {v : Log}

/-- **What `handlePaymentFailure` makes of the payments.** -/
theorem handlePaymentFailure_marks {sub : SubscriptionWithPlan} {s : Subscription}
    (hs : w.sub? sub.id = some s) (pid : String) :
    Safe (sequential A) (handlePaymentFailure cfg sub pid)
      (fun _ w' _ => Marked cfg A sub w w' ∧ FailureCounted A sub w') w v := by
  have hrefused : ∀ err : Thrown, Refusable A → Marked cfg A sub w w ∧ FailureCounted A sub w :=
    fun _ h => ⟨.kept (.inl h) rfl, .inl h⟩
  unfold handlePaymentFailure
  dsimp only
  split
  next hmax =>
    -- retries exhausted: no payment is written
    have hmax : cfg.billing.maxRetries ≤ sub.retryCount + 1 := by exact_mod_cast hmax
    rw [safe_bind]
    refine seq_dateNow hrefused (fun env _ => ?_)
    rw [andThen_ok, safe_bind]
    refine seq_subscriptionUpdate hs hrefused (fun now a w₁ _ hch hrow => ?_)
    have hpay := (hch.payments_eq (by decide)).1
    rw [andThen_ok]
    apply (emitWebhookEvent_ends _ _ _).mono
    intro r w₂ v₂ hpost
    have hhooks : w₂ = { w₁ with hooks := w₂.hooks } := hpost.1
    rw [hhooks]
    exact ⟨.kept (.inr hmax) hpay, .inr ⟨_, hrow, rfl⟩⟩
  next hmax =>
    -- retries left: the FAILED payments are marked, and the failure is counted
    have hleft : (sub.retryCount : Int) + 1 < cfg.billing.maxRetries := by
      push_cast at hmax
      omega
    rw [safe_bind]
    refine seq_dateNow hrefused (fun env ha => ?_)
    rw [andThen_ok, safe_bind]
    refine seq_ask id (by simp) (fun err h => hrefused err (h ⟨id, id⟩)) (fun env' a hmany => ?_)
    rcases serve_paymentUpdateMany sub.id .FAILED _ env' w with ⟨err, h⟩ | ⟨t, ht, h⟩
    · rw [h] at hmany
      cases hmany
    · rw [h, andThen_ok, safe_bind]
      have hmarked : ∀ w', w'.payments = t → Marked cfg A sub w w' := by
        intro w' hw'
        refine .marked _ hleft ha rfl (valid_of_updateMany hmany) ?_
        rw [hw']
        exact ht
      have hs₁ : ({ w with payments := t } : World).sub? sub.id = some s := hs
      refine seq_subscriptionUpdate hs₁ (fun err h => ⟨hmarked _ rfl, .inl h⟩)
        (fun now b w₁ _ hch hrow => ?_)
      exact ⟨hmarked _ (hch.payments_eq (by decide)).1, .inr ⟨_, hrow, rfl⟩⟩

/-- A paid period stays paid under calls outside a charge. -/
theorem isPaid_after {e : CallEvent} (he : e.call.isFree) {key : String}
    (h : e.before.isPaid key) : (e.after api).isPaid key := by
  obtain ⟨p, hp, hst⟩ := h
  obtain ⟨hmem, hkey⟩ := paymentByKey?_eq_some.mp hp
  rcases payment_fate e hmem with hmem' | ⟨data, hcall, -⟩
  · exact ⟨p, paymentByKey?_eq_some.mpr ⟨hmem', hkey⟩, hst⟩
  · -- a free call writes FAILED rows only
    rcases hcall with hcall | hcall
    · rw [hcall] at he
      exact he.elim
    · rw [hcall] at he
      have hfailed : p.status = .FAILED := he.1
      rw [hst] at hfailed
      cases hfailed

theorem seq_isPaid {α : Type} {key : String} {p : Service α} (hp : Calls api Call.isFree p) :
    Safe (sequential A) p (fun _ w' _ => w.isPaid key → w'.isPaid key) w v :=
  seq_frame (R := fun w w' => w.isPaid key → w'.isPaid key) (fun _ h => h)
    (fun _ _ _ h h' hp => h' (h hp)) (fun _ he => isPaid_after he) hp

end Handler

/-! ## §4. The cycle. -/

section Cycle

variable {cfg : Config} {A : CallEvent → Prop} {w : World} {v : Log}

theorem WritesOutcome.refl (pid : String) (w : World) : WritesOutcome pid w w :=
  ⟨fun _ _ => Iff.rfl, fun p hp => ⟨p, hp, .refl p⟩⟩

theorem WritesOutcome.trans {pid : String} {a b c : World} (h : WritesOutcome pid a b)
    (h' : WritesOutcome pid b c) : WritesOutcome pid a c := by
  refine ⟨fun p hp => (h'.others p hp).trans (h.others p hp), fun r hr => ?_⟩
  obtain ⟨q, hq, hqr⟩ := h'.bills r hr
  obtain ⟨p, hp, hpq⟩ := h.bills q hq
  exact ⟨p, hp, hpq.trans hqr⟩

/-- **A charge writes the outcome of its own row.** -/
theorem outcome_after {pid : String} {e : CallEvent} (he : e.call.isCharge pid) :
    WritesOutcome pid e.before (e.after api) := by
  have hother : ∀ {q : Payment} {data : PaymentData}, e.call.writesPayment q data → q.id = pid := by
    intro q data hcall
    rcases hcall with hcall | hcall
    · rw [hcall] at he
      exact he
    · rw [hcall] at he
      exact he.elim
  refine ⟨fun p hp => ⟨fun hmem => ?_, fun hmem => ?_⟩, fun p' hmem => ?_⟩
  · rcases payment_origin e hmem with hmem | ⟨old, -, data, rfl, hcall⟩ | ⟨data, id, hcall, -⟩
    · exact hmem
    · exact absurd (hother hcall) hp
    · rw [hcall] at he
      exact he.elim
  · rcases payment_fate e hmem with hmem | ⟨data, hcall, -⟩
    · exact hmem
    · exact absurd (hother hcall) hp
  · rcases payment_origin e hmem with hmem | ⟨old, hold, data, rfl, -⟩ | ⟨data, id, hcall, -⟩
    · exact ⟨p', hmem, .refl p'⟩
    · exact ⟨old, hold, .apply old data⟩
    · rw [hcall] at he
      exact he.elim

/-- The `try` block and its handler. -/
theorem attempt_or_handled_failed {sub : SubscriptionWithPlan} {p : Payment} {w₀ : World}
    (hbegun : Begun sub w₀ p w) (hs : w.sub? sub.id = some sub.toSubscription) :
    Safe (sequential A)
      (tryCatch (processBillingCycle.attempt cfg sub p sub.currentKey)
        (fun _ => handlePaymentFailure cfg sub p.id))
      (fun _ w' _ => ¬ w'.isPaid sub.currentKey → FailedCycle cfg A sub w₀ w') w v := by
  rw [safe_tryCatch]
  unfold processBillingCycle.attempt
  rw [safe_bind]
  have hsame : Safe (sequential A) (chargePayment cfg sub p.id sub.currentKey)
      (fun _ w' _ => SameButPayments w w' ∧ WritesOutcome p.id w w') w v :=
    seq_frame (R := fun w w' => SameButPayments w w' ∧ WritesOutcome p.id w w')
      (fun w => ⟨.refl w, .refl p.id w⟩)
      (fun _ _ _ h h' => ⟨h.1.trans h'.1, h.2.trans h'.2⟩)
      (fun _ h => ⟨after_isCharge h, outcome_after h⟩)
      (chargePayment_calls sub p.id sub.currentKey)
  have hcharge : Safe (sequential A) (chargePayment cfg sub p.id sub.currentKey)
      (ChargeEnd p.id sub.currentKey w v) w v := chargePayment_ends hbegun.unpaid hbegun.row
  apply ((hcharge.and (chargePayment_faults hbegun.unpaid hbegun.row)).and hsame).mono
  intro r w₁ v₁ hpost
  obtain ⟨⟨⟨-, hend⟩, hfault⟩, hsubs, hothers⟩ := hpost
  have hs₁ : w₁.sub? sub.id = some sub.toSubscription := by
    rw [World.sub?, hsubs.subscriptions]
    exact hs
  cases r with
  | error err =>
      apply (handlePaymentFailure_marks hs₁ p.id).mono
      intro r w' v' hmarked _
      exact .handled p w w₁ hbegun hothers (hfault err rfl) hmarked.1 hmarked.2
  | ok _ =>
      -- the period is paid, and stays so
      have hpaid : w₁.isPaid sub.currentKey := (isPaid_iff hend.1).mpr rfl
      rw [andThen_ok]
      apply (seq_isPaid (calls_bind (fun _ => free_emit _ _ _) (free_advance sub))).mono
      intro r w₂ v₂ hkept
      cases r with
      | ok _ => exact fun hunpaid => absurd (hkept hpaid) hunpaid
      | error err =>
          apply (seq_isPaid (free_handler sub p.id)).mono
          intro r w₃ v₃ hkept' hunpaid
          exact absurd (hkept' (hkept hpaid)) hunpaid

/-- **What a cycle that has not paid its period makes of the payments.** -/
theorem failed_cycle {x : String} {sub : SubscriptionWithPlan} (hopen : Opened w x sub) :
    Safe (sequential A) (processBillingCycle cfg x)
      (fun _ w' _ => ¬ w'.isPaid sub.currentKey → FailedCycle cfg A sub w w') w v := by
  refine safe_cycle (C := sequential A) (E := fun _ => Refusable A) (fun hc herr hok => ?_)
    (fun err _ h _ => .unbegun h rfl) (fun r h => absurd hopen (h sub))
    (fun sub' hopen' hpaid => ?_) (fun sub' payment w₁ hopen' _ hbegun => ?_)
  · obtain ⟨hstore, hawait⟩ := hc.isStore
    exact seq_ask hstore.1 hawait (fun err h => herr err v (h hstore)) hok
  · obtain rfl : sub' = sub := hopen.unique hopen'
    exact (seq_isPaid (free_advance sub')).mono
      (fun _ _ _ hkept hunpaid => absurd (hkept hpaid) hunpaid)
  · obtain rfl : sub' = sub := hopen.unique hopen'
    apply attempt_or_handled_failed hbegun
    rw [World.sub?, hbegun.changed.subscriptions_eq (by decide), hopen.id_eq]
    exact hopen.row

end Cycle

end Sorobill
