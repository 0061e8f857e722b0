/-
  Sorobill.Charging.RetriedPayment
  ────────────────────────────────
  **DOES A RETRY RETRY THE PAYMENT IT WAS ASKED FOR?**

  The job that a retry request enqueues names the subscription only.  When it
  is executed, it bills the period that is current then: another payment, if
  the period has been paid or begun anew in the meantime.

    • `RetriesOnly` — the job creates and charges no other payment, and its
      payment is SUCCESS once a charge has succeeded;
    • `StaysOn` — the job finds nothing to charge, or the period of its
      payment;
    • `retries_only_iff` — the job is about its payment exactly then.
-/
import Sorobill.Model.Shop
import Sorobill.Rules.Failures
import Sorobill.Rules.Settling

namespace Sorobill

open Effect
open Relational

/-! ## §1. Statements. -/

/-- A charge comes as far as its first write. -/
def CanCharge (cfg : Config) (plan : Plan) : Prop :=
  cfg.billing.testMode = true ∨ ChargeBegins cfg plan

/-- **The execution creates and charges no payment other than `p`**, and if it
has set a payment to SUCCESS then `p` is SUCCESS. -/
structure RetriesOnly (p : Payment) (y : Step) : Prop where
  creates : ∀ q ∈ y.after.payments, ∃ q₀ ∈ y.before.payments, q₀.id = q.id
  charges : ∀ e ∈ y.trace, ∀ pid data, e.call = .paymentUpdate pid data → pid = p.id
  submits : Submitted p.idempotencyKey y.before y.after
  pays : ∀ e ∈ y.trace, settles e = true →
    ∃ p', y.after.payment? p.id = some p' ∧ p'.status = .SUCCESS

/-- **The condition** on the state in which the job is executed: an open
subscription whose current period is not paid is in the period of `p`, or has
a payment that cannot be charged. -/
def StaysOn (cfg : Config) (p : Payment) (w : World) : Prop :=
  ∀ sub, Opened w p.subscriptionId sub → ¬ w.isPaid sub.currentKey →
    sub.currentKey = p.idempotencyKey
      ∨ (∃ q, w.paymentByKey? sub.currentKey = some q) ∧ ¬ CanCharge cfg sub.plan

/-- **A retry of the payment `p` in `w₀`**: the request is answered with
queued, others do whatever they do, call by call, and the job that the request
has enqueued is executed. -/
inductive Retried (cfg : Config) (w₀ : World) (p : Payment) (y : Step) : Prop where
  | job {w₁ : World} {t : List CallEvent} {ts : List (Thread Api Unit)}
      {P : Pool Api World Unit} {name data jobId : String} {attemptsMade : Nat} :
      w₀.payment? p.id = some p →
      Runs api (payments.retry p.id) w₀ t (.ok ⟨200, .queued p.id⟩) w₁ →
      (∃ e ∈ t, e.call = .billingQueueAdd name data (some jobId)) →
      Pool.Run (running cfg) anyone ⟨w₁, ts⟩ P → y.before = P.world → y.Of (serial cfg) →
      y.op = .billingJob ⟨jobId, name, data, attemptsMade⟩ → Retried cfg w₀ p y

/-! ## §2. Charges that do not come to a write. -/

/-- The calls that neither update a payment nor submit a transaction. -/
def Call.chargesNothing : Call → Prop
  | .paymentUpdate _ _ => False
  | .sendTransaction _ _ => False
  | .submitTransaction _ _ _ _ _ => False
  | _ => True

section Idle

variable {cfg : Config} {A : CallEvent → Prop} {w : World} {v : Log}

theorem chargesNothing_of_uncharged {c : Call} (h : ¬ c.isCharging) : c.chargesNothing := by
  cases c <;> first | trivial | exact h trivial

/-- A charge that cannot be made looks at its payment at most. -/
theorem chargePayment_idle {sub : SubscriptionWithPlan} (h : ¬ CanCharge cfg sub.plan)
    (pid key : String) : Calls api Call.chargesNothing (chargePayment cfg sub pid key) := by
  obtain ⟨htest, hbegins⟩ := not_or.mp h
  unfold chargePayment
  split
  next hsoroban =>
    refine calls_bind (fun _ => calls_pure) ?_
    unfold executeSorobanBilling
    refine calls_bind (fun existing => ?_) (calls_perform trivial)
    split
    · exact calls_pure
    rw [if_neg htest]
    split
    · exact calls_throw
    · -- the treasury key cannot be read
      unfold keypairFromSecret
      cases hkey : cfg.publicKeyOfSecret cfg.stellar.treasurySecretKey with
      | none => exact calls_throw
      | some admin => exact absurd ⟨hsoroban, by rw [hkey]; rfl⟩ hbegins
  next => exact calls_throw

/-- The contract of executions that charge nothing. -/
def idling : Contract api Unit where
  rely := Eq
  assume _ _ := True
  guarantee _ e := e.call.chargesNothing
  track v _ := v

/-- A cycle whose charge cannot be made charges nothing. -/
theorem idle_cycle {y : Step} {id : String} {sub : SubscriptionWithPlan} (hy : y.Of (serial cfg))
    (hb : y.op.bills = some id) (hopen : Opened y.before id sub)
    (h : ¬ CanCharge cfg sub.plan) : ∀ e ∈ y.trace, e.call.chargesNothing := by
  have hcycle : Safe idling (processBillingCycle cfg id) (fun _ _ _ => True) y.before () := by
    refine safe_reading (fun w' env heq _ => ?_)
    obtain rfl := heq
    refine ⟨trivial, fun sub' hopen' => ?_⟩
    obtain rfl : sub' = sub := hopen.unique hopen'
    refine safe_frame (F := Call.chargesNothing) (R := fun _ _ => True) (fun _ _ _ => trivial)
      (fun _ => trivial) (fun _ _ _ _ _ => trivial) (fun _ e he _ => ⟨he, trivial⟩) ?_
    exact rest_calls_of (fun _ => trivial) trivial (chargePayment_idle h)
      ((advancePeriod_uncharged sub').mono (fun _ => chargesNothing_of_uncharged))
      (fun _ _ _ => (emit_uncharged _ _ _).mono (fun _ => chargesNothing_of_uncharged))
      (fun pid => (handlePaymentFailure_uncharged sub' pid).mono
        (fun _ => chargesNothing_of_uncharged))
  exact Guaranteed.forall (fun _ _ h => h)
    (Safe.of_runs (fun _ => rfl) hy.runs (safe_billing hb hcycle)
      (assumed_of_forall (fun _ _ _ => trivial))).1

end Idle

/-! ## §3. Charges that come to a write. -/

section Writing

variable {cfg : Config} {A : CallEvent → Prop} {w : World} {v : Log} {α : Type}

/-- A payment update is called, or a call is rejected. -/
def Updates (A : CallEvent → Prop) (pid : String) : Prop :=
  Refusable A ∨ ∃ e data, A e ∧ e.call = .paymentUpdate pid data

/-- What holds already holds at the end. -/
theorem seq_already {p : Service α} {P : Prop} (h : P) :
    Safe (sequential A) p (fun _ _ _ => P) w v :=
  seq_frame (R := fun _ _ => P) (F := fun _ => True) (fun _ => h) (fun _ _ _ _ h => h)
    (fun _ _ => h) calls_any

theorem updates_bind {β : Type} {pid : String} {p : Service α} {f : α → Service β}
    (h : Safe (sequential A) p (fun _ _ _ => Updates A pid) w v) :
    Safe (sequential A) (p >>= f) (fun _ _ _ => Updates A pid) w v := by
  rw [safe_bind]
  apply h.mono
  intro r w' v' h
  cases r with
  | ok a => exact seq_already h
  | error err => exact h

/-- The update itself. -/
theorem updates_update (pid : String) (data : PaymentData) :
    Safe (sequential A) (prisma.payment.update pid data) (fun _ _ _ => Updates A pid) w v :=
  seq_perform.mpr (fun _ ha => .inr ⟨_, data, ha, rfl⟩)

/-- **A charge that can be made writes its payment.** -/
theorem chargePayment_updates {sub : SubscriptionWithPlan} {pid key : String}
    {st : PaymentStatus} (hcan : CanCharge cfg sub.plan) (hst : st ≠ .SUCCESS)
    (hrow : RowAt pid key w st) :
    Safe (sequential A) (chargePayment cfg sub pid key) (fun _ _ _ => Updates A pid) w v := by
  unfold chargePayment
  split
  next hsoroban =>
    apply updates_bind
    unfold executeSorobanBilling
    apply seq_check hst hrow (fun err h => .inl h)
    intro existing hnone
    rw [hnone]
    dsimp only
    rw [if_neg (by rw [contract_of_useSoroban hsoroban]; decide)]
    split
    · exact updates_bind (updates_update pid _)
    -- live: the key of the treasury is readable, so PROCESSING is written
    next htest =>
      have hkey := (hcan.resolve_left htest).2
      unfold keypairFromSecret
      cases hadmin : cfg.publicKeyOfSecret cfg.stellar.treasurySecretKey with
      | none =>
          rw [hadmin] at hkey
          cases hkey
      | some admin =>
          show Safe _ (prisma.payment.update _ _ >>= _) _ _ _
          exact updates_bind (updates_update pid _)
  next hsoroban =>
    -- no Soroban billing: only test mode can charge
    have htest := hcan.resolve_right (fun hbegins => hsoroban hbegins.1)
    rw [if_pos htest]
    apply updates_bind
    unfold submitPayment
    apply seq_check hst hrow (fun err h => .inl h)
    intro existing hnone
    rw [hnone]
    dsimp only
    rw [if_pos htest]
    exact updates_bind (updates_update pid _)

/-- What a cycle of an unpaid period has done when it ends: it has created a
payment, or it has charged the one that was there. -/
inductive PeriodCharged (cfg : Config) (A : CallEvent → Prop) (sub : SubscriptionWithPlan)
    (w w' : World) : Prop where
  | refused : Refusable A → PeriodCharged cfg A sub w w'
  | created (q : Payment) : w.paymentByKey? sub.currentKey = none → q ∈ w'.payments →
      (∀ q₀ ∈ w.payments, q₀.id ≠ q.id) → PeriodCharged cfg A sub w w'
  | found (q : Payment) : w.paymentByKey? sub.currentKey = some q →
      (CanCharge cfg sub.plan → Updates A q.id) → PeriodCharged cfg A sub w w'

/-- The `try` block and its handler. -/
theorem attempt_or_handled_charged {sub : SubscriptionWithPlan} {p : Payment} {w₀ : World}
    (hbegun : Begun sub w₀ p w) :
    Safe (sequential A)
      (tryCatch (processBillingCycle.attempt cfg sub p sub.currentKey)
        (fun _ => handlePaymentFailure cfg sub p.id))
      (fun _ w' _ => PeriodCharged cfg A sub w₀ w') w v := by
  rcases hbegun.origin with ⟨hfound, -⟩ | ⟨hnone, -, -, ht⟩
  · by_cases hcan : CanCharge cfg sub.plan
    · have hcharge : Safe (sequential A)
          (tryCatch (processBillingCycle.attempt cfg sub p sub.currentKey)
            (fun _ => handlePaymentFailure cfg sub p.id)) (fun _ _ _ => Updates A p.id) w v := by
        rw [safe_tryCatch]
        apply (updates_bind (chargePayment_updates hcan hbegun.unpaid hbegun.row)).mono
        intro r w' v' h
        cases r with
        | ok _ => exact h
        | error err => exact seq_already h
      exact hcharge.mono (fun _ _ _ h => .found p hfound (fun _ => h))
    · exact (seq_already trivial).mono (fun _ _ _ _ => .found p hfound (fun h => absurd h hcan))
  · -- the row that was created is not deleted
    have hkept := seq_frame (A := A) (w := w) (v := v) (F := fun _ => True)
      (R := fun w w' => HasRow p.id p.idempotencyKey w → HasRow p.id p.idempotencyKey w')
      (fun _ h => h) (fun _ _ _ h h' hrow => h' (h hrow)) (fun e _ => hasRow_after e)
      (p := tryCatch (processBillingCycle.attempt cfg sub p sub.currentKey)
        (fun _ => handlePaymentFailure cfg sub p.id)) calls_any
    apply hkept.mono
    intro r w' v' hrow
    obtain ⟨q, hq, hid, -⟩ := hrow ⟨p, hbegun.stored, rfl, rfl⟩
    refine .created q hnone hq (fun q₀ hq₀ heq => ?_)
    exact Table.not_clash_of_insert ht q₀ hq₀ (.inl (heq.trans hid))

/-- **A cycle of an unpaid period** creates a payment or charges one. -/
theorem charged_cycle {x : String} {sub : SubscriptionWithPlan} (hopen : Opened w x sub)
    (hunpaid : ¬ w.isPaid sub.currentKey) :
    Safe (sequential A) (processBillingCycle cfg x)
      (fun _ w' _ => PeriodCharged cfg A sub w w') w v := by
  refine safe_cycle (C := sequential A) (E := fun _ => Refusable A) (fun hc herr hok => ?_)
    (fun err _ h => .refused h) (fun r h => absurd hopen (h sub))
    (fun sub' hopen' hpaid => ?_) (fun sub' payment w₁ hopen' _ hbegun => ?_)
  · obtain ⟨hstore, hawait⟩ := hc.isStore
    exact seq_ask hstore.1 hawait (fun err h => herr err v (h hstore)) hok
  · obtain rfl : sub' = sub := hopen.unique hopen'
    exact absurd hpaid hunpaid
  · obtain rfl : sub' = sub := hopen.unique hopen'
    exact attempt_or_handled_charged hbegun

end Writing

/-! ## §4. Charges that succeed. -/

section Settled

variable {cfg : Config} {y : Step} {id : String} {sub : SubscriptionWithPlan}

/-- **Once a payment was set to SUCCESS**, the period stays paid to the end of
an execution that then charges nothing. -/
theorem paid_of_settled {α : Type} {key : String} {p : Service α} {w w' : World}
    {t : List CallEvent} {r : Except Thrown α} (h : Runs api p w t r w')
    (hsettle : ∀ e ∈ t, settles e = true → (e.after api).isPaid key)
    (hquiet : ∀ e ∈ t, ¬ e.call.isCharging → e.before.isPaid key → (e.after api).isPaid key) :
    ∀ {v}, Guaranteed settling v t → (v = true → w.isPaid key) →
      (v = true ∨ ∃ e ∈ t, settles e = true) → w'.isPaid key := by
  induction h with
  | done =>
      intro v _ hpaid hv
      rcases hv with hv | ⟨e, he, -⟩
      · exact hpaid hv
      · cases he
  | fail =>
      intro v _ hpaid hv
      rcases hv with hv | ⟨e, he, -⟩
      · exact hpaid hv
      · cases he
  | @call c next w t r w' env _ ih =>
      intro v hg hpaid hv
      -- the rest of the run is asked with what this call has set
      refine ih (fun e he => hsettle e (List.mem_cons_of_mem _ he))
        (fun e he => hquiet e (List.mem_cons_of_mem _ he)) hg.2 (fun htrack => ?_) ?_
      · -- it has been set by now: by this call, or before it
        rcases (Bool.or_eq_true_iff).mp htrack with hv | hnow
        · refine hquiet ⟨w, c, env⟩ List.mem_cons_self (fun hcharging => ?_) (hpaid hv)
          rw [hg.1 hcharging] at hv
          cases hv
        · exact hsettle ⟨w, c, env⟩ List.mem_cons_self hnow
      · rcases hv with rfl | ⟨e, he, hs⟩
        · exact .inl rfl
        · rcases List.mem_cons.mp he with rfl | he
          · exact .inl (Bool.or_eq_true_iff.mpr (.inr hs))
          · exact .inr ⟨e, he, hs⟩

/-- A billing execution sets a payment to SUCCESS by its id. -/
theorem settles_update (hy : y.Of (serial cfg)) (hb : y.op.bills = some id) {e : CallEvent}
    (he : e ∈ y.trace) (hs : settles e = true) :
    ∃ pid data, e.call = .paymentUpdate pid data ∧ data.status = some .SUCCESS
      ∧ isRejected e = false := by
  have hopened := billing_opened hy hb e he
  obtain ⟨w, c, env⟩ := e
  cases c with
  | paymentUpdate pid data =>
      obtain ⟨hd, hanswered⟩ := Bool.and_eq_true_iff.mp hs
      exact ⟨pid, data, rfl, beq_iff_eq.mp hd, by simpa using hanswered⟩
  | paymentUpdateMany x status data =>
      -- the handler writes RETRYING
      obtain ⟨hd, -⟩ := Bool.and_eq_true_iff.mp hs
      rcases hopened with hcall | ⟨sub, -, -, -, hretrying⟩
      · cases hcall
      · rw [hretrying] at hd
        cases hd
  | _ => cases hs

/-- **A billing execution that has set a payment to SUCCESS** has paid the
period that it has read. -/
theorem billing_settled (hy : y.Of (serial cfg)) (hb : y.op.bills = some id)
    (hopen : Opened y.before id sub) {e : CallEvent} (he : e ∈ y.trace)
    (hs : settles e = true) : y.after.isPaid sub.currentKey := by
  have hgs : Guaranteed settling false y.trace :=
    (Safe.of_runs (fun _ => rfl) hy.runs (safe_billing hb unpaid_settling)
      (assumed_of_forall (fun _ _ _ => trivial))).1
  refine paid_of_settled hy.runs (fun e he hs => ?_) (fun e he hcharging hpaid => ?_) hgs
    (fun h => by cases h) (.inr ⟨e, he, hs⟩)
  · -- the row that is written is that of the period
    obtain ⟨pid, data, hcall, hd, hanswered⟩ := settles_update hy hb he hs
    obtain ⟨sub', hopen', -, p, hp, hid, hkey⟩ := billing_books hy hb e he pid data hcall
    obtain rfl : sub' = sub := hopen.unique hopen'
    obtain ⟨w, c, env⟩ := e
    have hcall : c = .paymentUpdate pid data := hcall
    subst hcall
    show (api.serve (.paymentUpdate pid data) env w).2.isPaid _
    rcases serve_paymentUpdate pid data env w with ⟨err, h⟩ | ⟨old, t, hold, ht, h⟩
    · rw [isRejected_of_error (congrArg Prod.fst h)] at hanswered
      cases hanswered
    · rw [h]
      refine ⟨data.apply p, paymentByKey?_eq_some.mpr ⟨?_, hkey⟩, ?_⟩
      · exact Table.mem_update_of_selected ht hp (by simpa using hid)
      · simp [PaymentData.apply, hd]
  · -- a call that charges nothing leaves it paid
    refine isPaid_after ?_ hpaid
    have hopened := billing_opened hy hb e he
    obtain ⟨w, c, env⟩ := e
    cases c with
    | paymentUpdateMany x status data =>
        rcases hopened with hcall | ⟨sub, -, -, hfailed, hretrying⟩
        · cases hcall
        · exact ⟨hfailed, hretrying⟩
    | paymentUpdate pid data => exact hcharging trivial
    | sendTransaction key invocation => exact hcharging trivial
    | _ => trivial

end Settled

/-! ## §5. The job. -/

section Job

variable {cfg : Config} {y : Step} {p : Payment}

/-- The payment is stored when the execution begins. -/
def Stored (p : Payment) (w : World) : Prop := ∃ p' ∈ w.payments, SameBill p p'

/-- Its row is there at every call and at the end. -/
theorem Stored.rows (h : Stored p y.before) (hy : y.Of (serial cfg)) :
    (∀ e ∈ y.trace, HasRow p.id p.idempotencyKey e.before)
      ∧ HasRow p.id p.idempotencyKey y.after := by
  obtain ⟨p', hp', hsame⟩ := h
  exact hy.runs.always (P := HasRow p.id p.idempotencyKey) ⟨p', hp', hsame.id, hsame.key⟩
    (fun e _ => hasRow_after e)

/-- Under the condition the current period has a payment. -/
theorem StaysOn.row {w : World} (h : StaysOn cfg p w) (hp : Stored p w)
    {sub : SubscriptionWithPlan} (hopen : Opened w p.subscriptionId sub) :
    ∃ q ∈ w.payments, q.idempotencyKey = sub.currentKey := by
  by_cases hpaid : w.isPaid sub.currentKey
  · obtain ⟨q, hq, -⟩ := hpaid
    exact ⟨q, paymentByKey?_eq_some.mp hq⟩
  · rcases h sub hopen hpaid with hkey | ⟨⟨q, hq⟩, -⟩
    · obtain ⟨p', hp', hsame⟩ := hp
      exact ⟨p', hp', hsame.key.trans hkey.symm⟩
    · exact ⟨q, paymentByKey?_eq_some.mp hq⟩

/-- No transaction is submitted by calls that charge nothing. -/
theorem chain_of_idle (hy : y.Of (serial cfg)) (h : ∀ e ∈ y.trace, e.call.chargesNothing) :
    y.after.chain = y.before.chain := by
  refine (hy.runs.always (P := fun w => w.chain = y.before.chain) rfl (fun e he hchain => ?_)).2
  have hregion : e.call.region ≠ .chain := by
    have hcall := h e he
    revert hcall
    cases e.call <;> first | exact fun h => h.elim | exact fun _ => Region.noConfusion
  exact ((serve_changed e.call e.env e.before).chain_eq hregion).trans hchain

/-- **Under the condition the job is about its payment only.** -/
theorem StaysOn.retries_only (h : StaysOn cfg p y.before) (hp : Stored p y.before)
    (hy : y.Of (serial cfg)) (hb : y.op.bills = some p.subscriptionId) : RetriesOnly p y where
  creates q hq := by
    cases bills_after hy hb q hq with
    | kept old hold hsame _ => exact ⟨old, hold, hsame.id.symm⟩
    | booked sub hopen _ hkey hbill =>
        rcases hbill with ⟨old, hold, hsame⟩ | -
        · exact ⟨old, hold, hsame.id.symm⟩
        · -- a payment with this key was there before
          obtain ⟨q₀, hq₀, hq₀key⟩ := h.row hp hopen
          obtain ⟨q', hq', hsame⟩ := (billing_bills hy hb).1 q₀ hq₀
          have hclash : q'.idempotencyKey = q.idempotencyKey :=
            hsame.key.trans (hq₀key.trans hkey.symm)
          obtain rfl : q' = q := Table.eq_of_clash hq' hq (.inr (.inl hclash))
          exact ⟨q₀, hq₀, hsame.id.symm⟩
  charges e he pid data hcall := by
    obtain ⟨sub, hopen, hunpaid, q, hq, hid, hkey⟩ := billing_books hy hb e he pid data hcall
    -- the current period is that of `p`, or the cycle makes no charge
    rcases h sub hopen hunpaid with hcurrent | ⟨-, hidle⟩
    · obtain ⟨p', hp', hpid, hpkey⟩ := (hp.rows hy).1 e he
      have hclash : q.idempotencyKey = p'.idempotencyKey :=
        hkey.trans (hcurrent.trans hpkey.symm)
      rw [← hid, Table.eq_of_clash hq hp' (.inr (.inl hclash)), hpid]
    · have hnot := idle_cycle hy hb hopen hidle e he
      rw [hcall] at hnot
      exact hnot.elim
  submits := by
    have hend := seq_runs hy.runs (fun _ _ => trivial) (billing_ends cfg (A := fun _ => True) hb)
    generalize hw : y.after = w' at hend
    generalize logOf y.trace = v' at hend
    cases hend with
    | untouched _ => exact .inl rfl
    | advanced _ _ _ _ hch _ => exact .inl (hch.chain_eq (by decide))
    | charged hopen hunpaid hsub _ =>
        rcases h _ hopen hunpaid with hcurrent | ⟨-, hidle⟩
        · rw [← hcurrent]
          exact hsub
        · rw [← hw]
          exact .inl (chain_of_idle hy (idle_cycle hy hb hopen hidle))
  pays e he hs := by
    obtain ⟨pid, data, hcall, -, -⟩ := settles_update hy hb he hs
    obtain ⟨sub, hopen, hunpaid, -⟩ := billing_books hy hb e he pid data hcall
    rcases h sub hopen hunpaid with hcurrent | ⟨-, hidle⟩
    · obtain ⟨p', hp', hpid, hpkey⟩ := (hp.rows hy).2
      have hpaid := billing_settled hy hb hopen he hs
      exact ⟨p', payment?_eq_some.mpr ⟨hp', hpid⟩,
        success_of_isPaid hpaid hp' (hpkey.trans hcurrent.symm)⟩
    · have hnot := idle_cycle hy hb hopen hidle e he
      rw [hcall] at hnot
      exact hnot.elim

/-- **And only under the condition**, if the database answers. -/
theorem RetriesOnly.stays_on (h : RetriesOnly p y) (hp : Stored p y.before)
    (hy : y.Of (serial cfg)) (hb : y.op.bills = some p.subscriptionId)
    (hup : DatabaseUp y.trace) : StaysOn cfg p y.before := by
  intro sub hopen hunpaid
  by_contra hstrays
  obtain ⟨hkey, hcharges⟩ := not_or.mp hstrays
  have hcharged : PeriodCharged cfg (· ∈ y.trace) sub y.before y.after :=
    seq_runs hy.runs (fun _ he => he) (safe_billing hb (charged_cycle hopen hunpaid))
  cases hcharged with
  | refused href => exact hup.not_refusable href
  | created q _ hq hfresh =>
      obtain ⟨q₀, hq₀, hid⟩ := h.creates q hq
      exact hfresh q₀ hq₀ hid
  | found q hq hupdates =>
      have hcan : CanCharge cfg sub.plan := by
        by_contra hidle
        exact hcharges ⟨⟨q, hq⟩, hidle⟩
      rcases hupdates hcan with href | ⟨e, data, he, hcall⟩
      · exact hup.not_refusable href
      · -- the payment that is charged has another key, so it is another one
        have hid := h.charges e he q.id data hcall
        obtain ⟨hmem, hqkey⟩ := paymentByKey?_eq_some.mp hq
        obtain ⟨p', hp', hsame⟩ := hp
        obtain rfl : q = p' := Table.eq_of_clash hmem hp' (.inl (hid.trans hsame.id.symm))
        exact hkey (hqkey.symm.trans hsame.key)

end Job

/-! ## §6. The claim. -/

section Claim

variable {cfg : Config} {p : Payment} {w w' : World}

theorem stored_after {e : CallEvent} (h : Stored p e.before) : Stored p (e.after api) := by
  obtain ⟨p', hp', hsame⟩ := h
  rcases payment_fate e hp' with hmem | ⟨data, -, hmem⟩
  · exact ⟨p', hmem, hsame⟩
  · exact ⟨_, hmem, hsame.trans (.apply p' data)⟩

/-- A payment is still stored after whatever others do. -/
theorem Stored.later {ts : List (Thread Api Unit)} {P : Pool Api World Unit} (h : Stored p w)
    (hrun : Pool.Run (running cfg) anyone ⟨w, ts⟩ P) : Stored p P.world := by
  refine hrun.frame (R := fun w w' => Stored p w → Stored p w') (fun _ h => h)
    (fun _ _ _ h h' hp => h' (h hp)) (fun _ h => stored_after h) (fun w w' hdrift hp => ?_) h
  obtain ⟨q, -, rfl⟩ := hdrift
  exact hp

/-- The calls that add no billing job but one for the given subscription. -/
def Call.addsFor (id : String) : Call → Prop
  | .billingQueueAdd _ data _ => data = id
  | _ => True

/-- The job of a retry request names the subscription of the payment. -/
theorem retry_enqueues {t : List CallEvent} {r : Except Thrown HttpReply}
    (h : Runs api (payments.retry p.id) w t r w') (hp : w.payment? p.id = some p) {e : CallEvent}
    (he : e ∈ t) {name data : String} {jobId : Option String}
    (hcall : e.call = .billingQueueAdd name data jobId) : data = p.subscriptionId := by
  unfold payments.retry at h
  obtain ⟨env, hfind⟩ := runs_perform_bind h
  rcases hfind with ⟨err, -, rfl, -⟩ | ⟨found, t', hread, rfl, hrest⟩
  · rw [List.mem_singleton.mp he] at hcall
    cases hcall
  obtain rfl : found = some p := (existing_of_read hread).trans hp
  rcases List.mem_cons.mp he with rfl | he
  · cases hcall
  · -- the calls that are left add one job
    have hcalls := Calls.events (F := Call.addsFor p.subscriptionId) ?_ hrest e he
    · rw [hcall] at hcalls
      exact hcalls
    dsimp only
    split
    · exact calls_pure
    · exact calls_bind (fun now => calls_bind (fun _ => calls_pure) (calls_perform rfl))
        (calls_perform trivial)

/-- A job of a retry bills the subscription of its payment, which is stored. -/
theorem Retried.bills {w₀ : World} {y : Step} (h : Retried cfg w₀ p y) :
    y.op.bills = some p.subscriptionId ∧ Stored p y.before := by
  cases h with
  | job hp hretry hadd hbetween hbefore _ hop =>
      obtain ⟨e, he, hcall⟩ := hadd
      refine ⟨?_, ?_⟩
      · rw [hop, ← retry_enqueues hretry hp he hcall]
        rfl
      · have hstored := (hretry.always (P := Stored p) ⟨p, (payment?_eq_some.mp hp).1, .refl p⟩
          (fun _ _ h => stored_after h)).2
        rw [hbefore]
        exact hstored.later hbetween

/-- **A retry retries its payment exactly under the condition**: for every
state, every payment for which the request is answered with queued, and
whatever other executions do, call by call, until the job that it has
enqueued is executed.  That the condition is needed is shown of executions
whose calls to the database are answered. -/
theorem retries_only_iff (cfg : Config) (w₀ : World) (p : Payment) (y : Step)
    (h : Retried cfg w₀ p y) :
    (StaysOn cfg p y.before → RetriesOnly p y)
      ∧ (DatabaseUp y.trace → RetriesOnly p y → StaysOn cfg p y.before) := by
  obtain ⟨hb, hstored⟩ := h.bills
  have hy : y.Of (serial cfg) := by
    cases h with
    | job _ _ _ _ _ hy _ => exact hy
  exact ⟨fun h => h.retries_only hstored hy hb, fun hup h => h.stays_on hstored hy hb hup⟩

end Claim

/-! ## §7. Scenarios. -/

section Scenarios

open Shop

/-- The charge of day 2 fails. -/
def failedOnDayTwo : List (Operation × List Env) :=
  [(.createSubscription ⟨"plan", wallet.address⟩, [on 1, on 1, on 1, fresh 1 "sub", on 1]),
   (.runInline "sub", charging 2 "pay" ++ unreachable 2)]

/-- The job that a retry request of day 2 enqueues. -/
def retryOfPay : JobQueue.Job String := ⟨s!"retry:pay:{(day 2).ms}", "retry-payment", "sub", 0⟩

/-- The call adds the job. -/
def addsRetryJob (e : CallEvent) : Bool :=
  match e.call with
  | .billingQueueAdd name data (some jobId) =>
      decide ((⟨jobId, name, data, 0⟩ : JobQueue.Job String) = retryOfPay)
  | _ => false

/-- A retry on day 2: what others do before the job is executed, and the
execution of the job. -/
def playRetry (between : List (Choice Operation Env)) (envs : List Env) :
    Option (List Step × Payment × Step) := do
  let (xs, w₀) ← (serial (cfg false)).play (fun _ _ => true) failedOnDayTwo [] (opening plan)
  let p ← w₀.payment? "pay"
  let (r, w₁) ← exec api (payments.retry p.id) [on 2, on 2, on 2] w₀
  let P ← Pool.advance (running (cfg false)) (fun _ _ _ => true) between ⟨w₁, []⟩
  let y ← (serial (cfg false)).execute (.billingJob retryOfPay) envs P.world
  if r = .ok ⟨200, .queued p.id⟩
      ∧ (execTrace api (payments.retry p.id) [on 2, on 2, on 2] w₀).any addsRetryJob = true then
    some (xs, p, y)
  else none

theorem playRetry_sound {between : List (Choice Operation Env)} {envs : List Env} {xs : List Step}
    {p : Payment} {y : Step} (h : playRetry between envs = some (xs, p, y)) :
    ∃ w₀, History (serial (cfg false)) (fun _ _ => True) (opening plan) xs w₀
      ∧ Retried (cfg false) w₀ p y := by
  unfold playRetry at h
  obtain ⟨⟨xs, w₀⟩, hplay, h⟩ := Option.bind_eq_some_iff.mp h
  obtain ⟨p, hp, h⟩ := Option.bind_eq_some_iff.mp h
  obtain ⟨⟨r, w₁⟩, hretry, h⟩ := Option.bind_eq_some_iff.mp h
  obtain ⟨P, hP, h⟩ := Option.bind_eq_some_iff.mp h
  obtain ⟨y, hy, h⟩ := Option.bind_eq_some_iff.mp h
  dsimp only at h hretry
  split at h
  next hqueued =>
    cases h
    obtain ⟨rfl, hadds⟩ := hqueued
    obtain ⟨e, he, hadd⟩ := List.any_eq_true.mp hadds
    obtain ⟨hbefore, hof⟩ := Serial.execute_of hy
    refine ⟨w₀, Serial.play_history (fun _ _ _ => trivial) .start hplay, ?_⟩
    unfold addsRetryJob at hadd
    split at hadd
    next name data jobId hcall =>
      have hop : y.op = .billingJob ⟨jobId, name, data, 0⟩ := by
        rw [Serial.execute_op hy, of_decide_eq_true hadd]
      refine .job ?_ (exec_runs hretry) ⟨e, he, hcall⟩
        (Pool.advance_run (fun _ _ _ _ => trivial) hP) hbefore hof hop
      rw [(payment?_eq_some.mp hp).2]
      exact hp
    next => cases hadd
  next => cases h

/-- The ids and statuses of the payments. -/
def World.outcomes (w : World) : List (String × PaymentStatus) :=
  w.payments.rows.map (fun p => (p.id, p.status))

/-- An inline run pays the period before the job is executed. -/
def paidInline : List (Choice Operation Env) :=
  .start (.runInline "sub") :: ([on 2, on 2, on 2, on 2] ++ confirmed 2 "tx").map (.act 0)

/-- **A retry that charges the next period.** -/
theorem next_period_charged :
    ¬ ∀ (cfg : Config) (w w₀ : World) (xs : List Step) (p : Payment) (y : Step),
      w.payments.rows = [] → History (serial cfg) (fun _ _ => True) w xs w₀ →
      Retried cfg w₀ p y → RetriesOnly p y := by
  intro hclaim
  have hrun : (playRetry paidInline (charging 3 "pay2" ++ confirmed 3 "tx2")).map
      (fun s => (s.2.2.before.outcomes, s.2.2.after.outcomes)) =
      some ([("pay", .SUCCESS)], [("pay", .SUCCESS), ("pay2", .SUCCESS)]) := by
    decide +kernel
  obtain ⟨⟨xs, p, y⟩, hretried, houtcomes⟩ := Option.map_eq_some_iff.mp hrun
  obtain ⟨hbefore, hafter⟩ := Prod.mk.inj houtcomes
  obtain ⟨w₀, hhistory, hretried⟩ := playRetry_sound hretried
  have honly := hclaim (cfg false) (opening plan) w₀ xs p y rfl hhistory hretried
  -- the second payment was not there
  obtain ⟨q, hq, hqid⟩ : ∃ q ∈ y.after.payments.rows, (q.id, q.status) = ("pay2", .SUCCESS) :=
    List.mem_map.mp (show _ ∈ y.after.outcomes from hafter ▸ by decide)
  obtain ⟨q₀, hq₀, hid⟩ := honly.creates q hq
  have hmem : (q₀.id, q₀.status) ∈ y.before.outcomes := List.mem_map_of_mem hq₀
  rw [hbefore, List.mem_singleton] at hmem
  rw [(Prod.mk.inj hmem).1, (Prod.mk.inj hqid).1] at hid
  revert hid
  decide

/-- The job finds the period of its payment. -/
def staysOn (p : Payment) (w : World) : Bool :=
  ((w.sub? p.subscriptionId).bind w.withPlan).all (·.currentKey == p.idempotencyKey)

theorem staysOn_sound {cfg : Config} {p : Payment} {w : World} (h : staysOn p w = true) :
    StaysOn cfg p w := by
  intro sub hopen _
  unfold staysOn at h
  rw [hopen.found] at h
  exact .inl (beq_iff_eq.mp h)

/-- Nobody interferes, and the retry succeeds. -/
theorem retries_only_iff_shop :
    ∃ w₀ p y, Retried (cfg false) w₀ p y ∧ y.after.outcomes = [("pay", .SUCCESS)]
      ∧ RetriesOnly p y := by
  have hrun : (playRetry [] ([on 3, on 3, on 3, on 3] ++ confirmed 3 "tx")).map
      (fun s => (staysOn s.2.1 s.2.2.before, s.2.2.after.outcomes)) =
      some (true, [("pay", .SUCCESS)]) := by
    decide +kernel
  obtain ⟨⟨xs, p, y⟩, hretried, hres⟩ := Option.map_eq_some_iff.mp hrun
  obtain ⟨hstays, hafter⟩ := Prod.mk.inj hres
  obtain ⟨w₀, -, hretried⟩ := playRetry_sound hretried
  exact ⟨w₀, p, y, hretried, hafter,
    (retries_only_iff (cfg false) w₀ p y hretried).1 (staysOn_sound hstays)⟩

end Scenarios

end Sorobill
