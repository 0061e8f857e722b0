/-
  Sorobill.Rules.Settling
  ───────────────────────
  **NO CHARGE AFTER SUCCESS.**

  In a cycle that nobody interrupts, the last call of a charge that returns
  is the one that sets the payment to SUCCESS, and a cycle that finds its
  period paid charges nothing.

    • `settling` — nothing is charged once a payment was set to SUCCESS;
    • `chargePayment_settling` — a charge sets its payment to SUCCESS last;
    • `billing_unpaid` — a period is charged while its payment is not SUCCESS.
-/
import Sorobill.Rules.Bookings

namespace Sorobill

open Effect
open Relational

/-! ## §1. The contract. -/

/-- The event has set payments to SUCCESS. -/
def settles (e : CallEvent) : Bool :=
  match e.call with
  | .paymentUpdate _ data => data.status == some .SUCCESS && !isRejected e
  | .paymentUpdateMany _ _ data => data.status == some .SUCCESS && !isRejected e
  | _ => false

/-- The contract under which nothing is charged once a payment was set to
SUCCESS. -/
def settling : Contract api Bool where
  rely := Eq
  assume _ _ := True
  guarantee v e := e.call.isCharging → v = false
  track v e := v || settles e

/-- The calls that set no payment to SUCCESS. -/
def Call.settlesNothing : Call → Prop
  | .paymentUpdate _ data => data.status ≠ some .SUCCESS
  | .paymentUpdateMany _ _ data => data.status ≠ some .SUCCESS
  | _ => True

theorem Call.settlesNothing.settles {e : CallEvent} (h : e.call.settlesNothing) :
    settles e = false := by
  obtain ⟨w, c, env⟩ := e
  cases c with
  | paymentUpdate pid data =>
      have h : data.status ≠ some .SUCCESS := h
      simp [Sorobill.settles, h]
  | paymentUpdateMany x status data =>
      have h : data.status ≠ some .SUCCESS := h
      simp [Sorobill.settles, h]
  | _ => rfl

/-- What a charge ends with: when it has thrown, nothing was set to SUCCESS. -/
def Unsettled {α : Type} : Post Api World Bool α := fun r _ v => ∀ err, r = .error err → v = false

/-! ## §2. Charges. -/

section Settling

variable {cfg : Config} {w : World} {v : Bool} {α : Type}

/-- A program without a charge. -/
theorem settling_quiet {p : Service α} (hp : Calls api (fun c => ¬ c.isCharging) p) :
    Safe settling p (fun _ _ _ => True) w v :=
  safe_views (K := fun _ => True) (fun _ _ he _ _ => ⟨fun h => absurd h he, trivial⟩) trivial hp

/-- A program that sets nothing to SUCCESS. -/
theorem settling_open {p : Service α} (hp : Calls api Call.settlesNothing p) :
    Safe settling p (fun _ _ v => v = false) w false :=
  safe_views (K := fun v => v = false) (fun v e he hv _ => ⟨fun _ => hv, by
    show (v || settles e) = false
    rw [hv, he.settles]
    rfl⟩) rfl hp

/-- One update of a payment. -/
theorem settling_update (pid : String) (data : PaymentData) :
    Safe settling (prisma.payment.update pid data) Unsettled w false := by
  refine safe_perform.mpr (fun w' env _ _ => ⟨fun _ => rfl, fun err herr => ?_⟩)
  -- a rejected update has set nothing
  show (false || settles ⟨w', .paymentUpdate pid data, env⟩) = false
  simp [settles, isRejected_of_error herr]

/-- A charge goes on with a program that sets nothing to SUCCESS. -/
theorem settling_bind {β : Type} {p : Service α} {f : α → Service β}
    (hp : Calls api Call.settlesNothing p) (hf : ∀ a w, Safe settling (f a) Unsettled w false) :
    Safe settling (p >>= f) Unsettled w false := by
  rw [safe_bind]
  apply (settling_open hp).mono
  intro r w' v' hv
  subst hv
  cases r with
  | error err => exact fun _ _ => rfl
  | ok a => exact hf a w'

/-- A charge ends with the update of its payment. -/
theorem settling_last {pid : String} {data : PaymentData} (a : α) :
    Safe settling (prisma.payment.update pid data >>= fun _ => pure a) Unsettled w false := by
  rw [safe_bind]
  apply (settling_update pid data).mono
  intro r w' v' h
  cases r with
  | error err => exact fun _ _ => h err rfl
  | ok _ => exact fun err herr => by cases herr

theorem settling_pure (a : α) : Safe settling (pure a : Service α) Unsettled w v :=
  fun err herr => by cases herr

theorem settling_throw (err : Thrown) : Safe settling (throw err : Service α) Unsettled w false :=
  fun _ _ => rfl

theorem invokeAsAdmin_settlesNothing (key : String) (invocation : Invocation) :
    Calls api Call.settlesNothing (invokeAsAdmin cfg key invocation) := by
  unfold invokeAsAdmin keypairFromSecret getContract
  split
  · exact calls_throw
  · refine calls_bind (fun publicKey => ?_) (by split <;> trivial)
    refine calls_bind (fun _ => ?_) (calls_perform trivial)
    refine calls_bind (fun _ => ?_) (by split <;> trivial)
    refine calls_bind (fun simulated => ?_) (calls_perform trivial)
    cases simulated with
    | some error => exact calls_throw
    | none =>
        refine calls_bind (fun status => ?_) (calls_perform trivial)
        cases status with
        | ERROR detail => exact calls_throw
        | accepted hash => exact calls_bind (fun _ => calls_pure) (calls_perform trivial)

theorem executeSorobanBilling_settling (params : SorobanBillingParams) :
    Safe settling (executeSorobanBilling cfg params) Unsettled w false := by
  unfold executeSorobanBilling
  refine settling_bind (calls_perform trivial) (fun existing w₁ => ?_)
  split
  · exact settling_pure _
  split
  · exact settling_throw _
  split
  · exact settling_last _
  refine settling_bind (by unfold keypairFromSecret; split <;> trivial) (fun admin w₂ => ?_)
  refine settling_bind (calls_perform (by simp [Call.settlesNothing])) (fun _ w₃ => ?_)
  have hattempt : Safe settling (executeSorobanBilling.attempt cfg params admin) Unsettled w₃
      false := by
    unfold executeSorobanBilling.attempt addressToScVal
    refine settling_bind (by split <;> trivial) (fun adminArg w₄ => ?_)
    refine settling_bind (by split <;> trivial) (fun subscriberArg w₅ => ?_)
    refine settling_bind (invokeAsAdmin_settlesNothing _ _) (fun invoked w₆ => ?_)
    obtain ⟨hash, result⟩ := invoked
    dsimp only
    split
    · exact settling_bind (calls_perform (by simp [Call.settlesNothing]))
        (fun _ _ => settling_throw _)
    · exact settling_last _
  rw [safe_tryCatch]
  apply hattempt.mono
  intro r w₄ v hr
  cases r with
  | ok hash => exact settling_pure hash
  | error err =>
      -- the `catch` block writes FAILED
      obtain rfl := hr err rfl
      show Safe settling (executeSorobanBilling.recordFailure params err) Unsettled w₄ false
      unfold executeSorobanBilling.recordFailure
      split
      · exact settling_throw _
      · exact settling_bind (calls_perform (by simp [Call.settlesNothing]))
          (fun _ _ => settling_throw _)

theorem submitPayment_settling (params : PaymentParams) :
    Safe settling (submitPayment cfg params) Unsettled w false := by
  unfold submitPayment
  refine settling_bind (calls_perform trivial) (fun existing w₁ => ?_)
  split
  · exact settling_pure _
  split
  · exact settling_last _
  refine settling_bind (by unfold keypairFromSecret; split <;> trivial) (fun publicKey w₂ => ?_)
  refine settling_bind (calls_perform trivial) (fun _ w₃ => ?_)
  refine settling_bind (calls_perform (by simp [Call.settlesNothing])) (fun _ w₄ => ?_)
  have hattempt : Safe settling (submitPayment.attempt params) Unsettled w₄ false := by
    unfold submitPayment.attempt
    exact settling_bind (calls_perform trivial) (fun submitted _ => settling_last _)
  rw [safe_tryCatch]
  apply hattempt.mono
  intro r w₅ v hr
  cases r with
  | ok hash => exact settling_pure hash
  | error err =>
      obtain rfl := hr err rfl
      exact settling_bind (calls_perform (by simp [Call.settlesNothing]))
        (fun _ _ => settling_throw _)

/-- **A charge sets its payment to SUCCESS last.** -/
theorem chargePayment_settling (sub : SubscriptionWithPlan) (pid key : String) :
    Safe settling (chargePayment cfg sub pid key) Unsettled w false := by
  unfold chargePayment
  have hdrop : ∀ (r : Except Thrown String) w' v', Unsettled r w' v' →
      andThen (fun _ => (pure () : Service Unit)) settling Unsettled r w' v' := by
    intro r w' v' h
    cases r with
    | ok _ => exact settling_pure ()
    | error err => exact fun _ _ => h err rfl
  split
  · rw [safe_bind]
    exact (executeSorobanBilling_settling _).mono hdrop
  split
  · rw [safe_bind]
    exact (submitPayment_settling _).mono hdrop
  · exact settling_throw _

/-! ## §3. Cycles. -/

/-- The `try` block of a cycle and its handler. -/
theorem attempt_settling (sub : SubscriptionWithPlan) (payment : Payment) :
    Safe settling
      (tryCatch (processBillingCycle.attempt cfg sub payment sub.currentKey)
        (fun _ => handlePaymentFailure cfg sub payment.id)) (fun _ _ _ => True) w false := by
  rw [safe_tryCatch]
  unfold processBillingCycle.attempt
  rw [safe_bind]
  apply (chargePayment_settling sub payment.id sub.currentKey).mono
  intro r w₁ v₁ _
  cases r with
  | error err => exact settling_quiet (handlePaymentFailure_uncharged sub payment.id)
  | ok _ =>
      apply (settling_quiet (calls_bind (fun _ => emit_uncharged _ _ _)
        (advancePeriod_uncharged sub))).mono
      intro r w₂ v₂ _
      cases r with
      | ok _ => trivial
      | error err => exact settling_quiet (handlePaymentFailure_uncharged sub payment.id)

/-- **A cycle of a period that is not paid** charges until it is. -/
theorem unpaid_settling {x : String} :
    Safe settling (processBillingCycle cfg x) (fun _ _ _ => True) w false := by
  refine safe_cycle (C := settling) (E := fun _ => True) (fun {c R} hc herr hok => ?_)
    (fun _ _ _ => trivial) (fun _ _ => trivial)
    (fun sub _ _ => settling_quiet (advancePeriod_uncharged sub))
    (fun sub payment w₁ _ _ _ => attempt_settling sub payment)
  -- a call that opens the cycle sets nothing to SUCCESS
  have hc : c.settlesNothing := by
    cases c <;> first | exact hc.elim | trivial
  refine safe_unnoticed (fun _ h => h) (fun env => ⟨fun _ => rfl, ?_⟩)
    (fun err => herr err _ trivial) hok
  exact Call.settlesNothing.settles (e := ⟨w, c, env⟩) hc

/-- **A cycle of a period that is paid** charges nothing. -/
theorem paid_settling {x : String} {sub : SubscriptionWithPlan} (hopen : Opened w x sub)
    (hpaid : w.isPaid sub.currentKey) :
    Safe settling (processBillingCycle cfg x) (fun _ _ _ => True) w v := by
  refine safe_reading (fun w' env heq _ => ⟨fun h => h.elim, fun sub' hopen' => ?_⟩)
  obtain rfl := heq
  obtain rfl : sub' = sub := hopen.unique hopen'
  obtain ⟨p, hp, hst⟩ := hpaid
  unfold processBillingCycle.rest
  rw [safe_bind]
  refine safe_perform.mpr (fun w₁ env₁ heq _ => ⟨fun h => h.elim, ?_⟩)
  obtain rfl := heq
  rcases serve_paymentFindUnique (.byKey (billingIdempotencyKey sub'.id sub'.currentPeriodEnd))
    env₁ w with ⟨err, h⟩ | h
  · rw [h]
    trivial
  · have hfound : w.payments.find?
        (PaymentKey.byKey (billingIdempotencyKey sub'.id sub'.currentPeriodEnd)).selects
        = some p := hp
    rw [h, andThen_ok, hfound, if_pos (by simp [hst])]
    exact settling_quiet (advancePeriod_uncharged sub')

/-- What becomes of a payment that is not SUCCESS. -/
theorem unpaid_after {key : String} {e : CallEvent} (he : settles e = false)
    (h : ¬ e.before.isPaid key) : ¬ (e.after api).isPaid key := by
  intro hpaid
  obtain ⟨p, hp, hst⟩ := hpaid
  obtain ⟨hmem, hkey⟩ := paymentByKey?_eq_some.mp hp
  have hbefore : ∀ q ∈ e.before.payments, q.idempotencyKey = key → q.status ≠ .SUCCESS :=
    fun q hq hqkey hqst => h ⟨q, paymentByKey?_eq_some.mpr ⟨hq, hqkey⟩, hqst⟩
  by_cases hrejected : isRejected e = true
  · rw [after_of_isRejected hrejected] at hmem
    exact hbefore p hmem hkey hst
  rcases payment_origin e hmem with hmem | ⟨old, hold, data, rfl, hcall⟩ | ⟨data, pid, hcall, rfl⟩
  · exact hbefore p hmem hkey hst
  · -- SUCCESS was not written, so it was there before
    have hdata : data.status ≠ some .SUCCESS := by
      intro hd
      rcases hcall with hcall | hcall
      · simp [settles, hcall, hd, hrejected] at he
      · simp [settles, hcall, hd, hrejected] at he
    refine hbefore old hold hkey ?_
    cases hs : data.status with
    | none => simpa [PaymentData.apply, hs] using hst
    | some st =>
        have hst : st = .SUCCESS := by simpa [PaymentData.apply, hs] using hst
        exact absurd (hs.trans (congrArg some hst)) hdata
  · cases hst

/-- **No charge is attempted for a period whose payment is SUCCESS.** -/
theorem billing_unpaid {x : Step} {id : String} {sub : SubscriptionWithPlan}
    (hx : x.Of (serial cfg)) (hb : x.op.bills = some id) (hopen : Opened x.before id sub) :
    ∀ e ∈ x.trace, e.call.isCharging → ¬ e.before.isPaid sub.currentKey := by
  intro e he hcharging
  by_cases hpaid : x.before.isPaid sub.currentKey
  · -- then there is no charging call
    have hsafe : Safe settling (x.op.body cfg) (fun _ _ _ => True) x.before true :=
      safe_billing hb (paid_settling hopen hpaid)
    obtain ⟨hevents, -⟩ := Safe.of_runs_keeping (C := settling) (J := fun v _ => v = true)
      (fun _ => rfl) (fun _ _ _ => trivial) (fun v e hv _ => by
        show (v || settles e) = true
        rw [hv]
        rfl) hx.runs rfl hsafe
    obtain ⟨u, hu, hguarantee⟩ := hevents e he
    rw [hguarantee hcharging] at hu
    cases hu
  · have hsafe : Safe settling (x.op.body cfg) (fun _ _ _ => True) x.before false :=
      safe_billing hb unpaid_settling
    obtain ⟨hevents, -⟩ := Safe.of_runs_keeping (C := settling)
      (J := fun v w => v = false → ¬ w.isPaid sub.currentKey) (fun _ => rfl)
      (fun _ _ _ => trivial) (fun v e hv _ hafter => by
        obtain ⟨rfl, hsettles⟩ := Bool.or_eq_false_iff.mp hafter
        exact unpaid_after hsettles (hv rfl)) hx.runs (fun _ => hpaid) hsafe
    obtain ⟨u, hu, hguarantee⟩ := hevents e he
    exact hu (hguarantee hcharging)

end Settling

end Sorobill
