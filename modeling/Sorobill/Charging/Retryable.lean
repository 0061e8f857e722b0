/-
  Sorobill.Charging.Retryable
  ───────────────────────────
  **DOES A FAILED CYCLE LEAVE A PAYMENT THAT CAN BE RETRIED?**

  The handler of a failed charge marks payments by their status FAILED.  A
  charge that throws before its first write has not set it: without Soroban,
  or with a treasury key that cannot be read, a new payment stays PENDING,
  and the retry request refuses it.

    • `LeftRetryable` — RETRYING with the new count and time, or FAILED when
      the retries are exhausted;
    • `SetsFailed` — the charge begins, or the payment was retryable before;
    • `failed_cycle_retryable_iff` — the payment is left retryable exactly
      then, and a retry request accepts it.
-/
import Sorobill.Model.Shop
import Sorobill.Rules.Failures

namespace Sorobill

open Effect
open Relational

/-! ## §1. Statements. -/

/-- The time of the `n`-th retry, as the trace computes it. -/
def DueAt (t : List CallEvent) (n : Nat) (nextRetryAt : Option Instant) : Prop :=
  ∃ e ∈ t, e.call = .dateNow ∧ nextRetryAt = hoursFrom e.env.now (2 ^ n)

/-- **The payment of a failed cycle is retryable**, `s` being its subscription
and `t` the trace of the cycle. -/
def LeftRetryable (cfg : Config) (t : List CallEvent) (s : Subscription) (p : Payment) : Prop :=
  if (s.retryCount : Int) < cfg.billing.maxRetries then
    p.status = .RETRYING ∧ p.retryCount = s.retryCount ∧ DueAt t s.retryCount p.nextRetryAt
  else p.status = .FAILED ∨ p.status = .RETRYING

/-- The payment of the period is retryable after the cycle. -/
def RetryableAfter (cfg : Config) (sub : SubscriptionWithPlan) (t : List CallEvent)
    (w' : World) : Prop :=
  ∃ p' s', w'.paymentByKey? sub.currentKey = some p' ∧ w'.sub? sub.id = some s'
    ∧ LeftRetryable cfg t s' p'

/-- **The condition**: the charge begins; or the payment of the period was
FAILED before, or RETRYING with no retries left or with the very count and
time of the next retry. -/
def SetsFailed (cfg : Config) (sub : SubscriptionWithPlan) (w : World) (t : List CallEvent) :
    Prop :=
  ChargeBegins cfg sub.plan
    ∨ ∃ p, w.paymentByKey? sub.currentKey = some p
        ∧ (p.status = .FAILED
          ∨ p.status = .RETRYING ∧ (cfg.billing.maxRetries ≤ sub.retryCount + 1
            ∨ p.retryCount = sub.retryCount + 1 ∧ DueAt t (sub.retryCount + 1) p.nextRetryAt))

/-! ## §2. The payment after a failed cycle. -/

section Outcomes

variable {cfg : Config} {sub : SubscriptionWithPlan} {w w' : World} {t : List CallEvent}

/-- **What becomes of the payment `p`** of a failed cycle. -/
inductive FailedPayment (cfg : Config) (sub : SubscriptionWithPlan) (t : List CallEvent)
    (p : Payment) : Payment → Prop where
  | marked (p' : Payment) : ChargeBegins cfg sub.plan ∨ p.status = .FAILED →
      (sub.retryCount : Int) + 1 < cfg.billing.maxRetries → p'.status = .RETRYING →
      p'.retryCount = sub.retryCount + 1 → DueAt t (sub.retryCount + 1) p'.nextRetryAt →
      FailedPayment cfg sub t p p'
  | failed (p' : Payment) : ChargeBegins cfg sub.plan →
      cfg.billing.maxRetries ≤ sub.retryCount + 1 → p'.status = .FAILED →
      FailedPayment cfg sub t p p'
  | untouched : ¬ ChargeBegins cfg sub.plan →
      (p.status = .FAILED → cfg.billing.maxRetries ≤ sub.retryCount + 1) →
      FailedPayment cfg sub t p p

/-- A valid retry time is written. -/
theorem nextRetryAt_apply {n : Nat} {now : Instant} (h : (retryData n now).valid = true)
    (p : Payment) : ((retryData n now).apply p).nextRetryAt = hoursFrom now (2 ^ n) := by
  have hvalid : validDate? (some (hoursFrom now (2 ^ n))) = true := h
  show (hoursFrom now (2 ^ n)).or p.nextRetryAt = _
  cases hdate : hoursFrom now (2 ^ n) with
  | none =>
      rw [hdate] at hvalid
      cases hvalid
  | some d => rfl

/-- The payment when the handler begins: FAILED, or as the charge found it. -/
theorem faulted_payment {p : Payment} {w₁ w₂ : World} (hup : DatabaseUp t)
    (hkeys : KeysFit w) (hbegun : Begun sub w p w₁) (hwrites : WritesOutcome p.id w₁ w₂)
    (hfault : Faulted cfg (· ∈ t) sub.plan p.id sub.currentKey w₁ w₂) :
    ∃ p₂, w₂.paymentByKey? sub.currentKey = some p₂ ∧ p₂.subscriptionId = sub.id
      ∧ (ChargeBegins cfg sub.plan ∧ p₂.status = .FAILED
        ∨ ¬ ChargeBegins cfg sub.plan ∧ p₂ = p) := by
  have hsub : p.subscriptionId = sub.id := by
    rcases hbegun.origin with ⟨hfound, -⟩ | ⟨-, -, hsub, -⟩
    · have hkey := hkeys p (paymentByKey?_eq_some.mp hfound).1
      exact (billingIdempotencyKey_inj.mp (hkey.symm.trans hbegun.key)).1
    · exact hsub
  cases hfault with
  | refused h => exact absurd h hup.not_refusable
  | unbegun hnot hsame =>
      refine ⟨p, ?_, hsub, .inr ⟨hnot, rfl⟩⟩
      rw [paymentByKey?_eq_some, hsame]
      exact ⟨hbegun.stored, hbegun.key⟩
  | recorded hbegins hrow =>
      obtain ⟨p₂, hp₂, hkey, hst⟩ := hrow
      obtain ⟨hmem, hid⟩ := payment?_eq_some.mp hp₂
      refine ⟨p₂, paymentByKey?_eq_some.mpr ⟨hmem, hkey⟩, ?_, .inl ⟨hbegins, hst⟩⟩
      -- the row that was written is the one with which the charge began
      obtain ⟨q, hq, hbill⟩ := hwrites.bills p₂ hmem
      obtain rfl : q = p := Table.eq_of_clash hq hbegun.stored (.inl (hbill.id.symm.trans hid))
      exact hbill.subscriptionId.trans hsub

/-- **The payment after a failed cycle.** -/
theorem FailedCycle.payment (h : FailedCycle cfg (· ∈ t) sub w w') (hup : DatabaseUp t)
    (hkeys : KeysFit w) :
    ∃ p p' s', (w.paymentByKey? sub.currentKey = some p
        ∨ w.paymentByKey? sub.currentKey = none ∧ p.status = .PENDING)
      ∧ FailedPayment cfg sub t p p' ∧ w'.paymentByKey? sub.currentKey = some p'
      ∧ w'.sub? sub.id = some s' ∧ s'.retryCount = sub.retryCount + 1 := by
  cases h with
  | unbegun h _ => exact absurd h hup.not_refusable
  | handled p w₁ w₂ hbegun hwrites hfault hmarked hcounted =>
      obtain ⟨s', hs', hcount⟩ := hcounted.resolve_left hup.not_refusable
      -- the payment was there, or the cycle has created it
      have horigin : w.paymentByKey? sub.currentKey = some p
          ∨ w.paymentByKey? sub.currentKey = none ∧ p.status = .PENDING := by
        rcases hbegun.origin with ⟨hfound, -⟩ | ⟨hnone, hst, -⟩
        · exact .inl hfound
        · exact .inr ⟨hnone, hst⟩
      obtain ⟨p₂, hp₂, hsub, hcharged⟩ := faulted_payment hup hkeys hbegun hwrites hfault
      -- the retries are used up and the row is kept, or the FAILED rows are marked
      have houtcome : ∃ p', FailedPayment cfg sub t p p'
          ∧ w'.paymentByKey? sub.currentKey = some p' := by
        cases hmarked with
        | kept hmax hsame =>
            have hmax := hmax.resolve_left hup.not_refusable
            refine ⟨p₂, ?_, by rw [World.paymentByKey?, hsame]; exact hp₂⟩
            rcases hcharged with ⟨hbegins, hst⟩ | ⟨hnot, rfl⟩
            · exact .failed p₂ hbegins hmax hst
            · exact .untouched hnot (fun _ => hmax)
        | marked e hleft he hcall hvalid ht =>
            have hafter : w'.paymentByKey? sub.currentKey = _ :=
              paymentByKey?_update (s := w'.successes) ht sub.currentKey
            rw [hp₂, Option.map_some] at hafter
            have hdue : DueAt t (sub.retryCount + 1)
                ((retryData (sub.retryCount + 1) e.env.now).apply p₂).nextRetryAt :=
              ⟨e, he, hcall, nextRetryAt_apply hvalid p₂⟩
            by_cases hst : p₂.status = .FAILED
            · rw [if_pos (by simp [hsub, hst])] at hafter
              refine ⟨_, .marked _ ?_ hleft rfl rfl hdue, hafter⟩
              rcases hcharged with ⟨hbegins, -⟩ | ⟨-, rfl⟩
              · exact .inl hbegins
              · exact .inr hst
            · rw [if_neg (by simp [hst])] at hafter
              refine ⟨p₂, ?_, hafter⟩
              rcases hcharged with ⟨-, hfailed⟩ | ⟨hnot, rfl⟩
              · exact absurd hfailed hst
              · exact .untouched hnot (fun h => absurd h hst)
      obtain ⟨p', houtcome, hp'⟩ := houtcome
      exact ⟨p, p', s', horigin, houtcome, hp', hs', hcount⟩

/-- In terms of the payment with which the cycle went to its charge. -/
theorem setsFailed_iff {p : Payment} (h : w.paymentByKey? sub.currentKey = some p
      ∨ w.paymentByKey? sub.currentKey = none ∧ p.status = .PENDING) :
    SetsFailed cfg sub w t ↔ ChargeBegins cfg sub.plan ∨ p.status = .FAILED
      ∨ p.status = .RETRYING ∧ (cfg.billing.maxRetries ≤ sub.retryCount + 1
        ∨ p.retryCount = sub.retryCount + 1 ∧ DueAt t (sub.retryCount + 1) p.nextRetryAt) := by
  unfold SetsFailed
  rcases h with h | ⟨h, hst⟩
  · simp only [h, Option.some.injEq, exists_eq_left']
  · simp [h, hst]

/-- **The payment is left retryable exactly under the condition.** -/
theorem FailedCycle.retryable_iff (h : FailedCycle cfg (· ∈ t) sub w w') (hup : DatabaseUp t)
    (hkeys : KeysFit w) : RetryableAfter cfg sub t w' ↔ SetsFailed cfg sub w t := by
  obtain ⟨p, p', s', horigin, houtcome, hp', hs', hcount⟩ := h.payment hup hkeys
  -- both sides are about the row that the cycle has left
  have hafter : RetryableAfter cfg sub t w' ↔ LeftRetryable cfg t s' p' := by
    unfold RetryableAfter
    simp only [hp', hs', Option.some.injEq]
    exact ⟨fun ⟨_, _, hp, hs, h⟩ => hp ▸ hs ▸ h, fun h => ⟨p', s', rfl, rfl, h⟩⟩
  have hleft : (s'.retryCount : Int) < cfg.billing.maxRetries
      ↔ (sub.retryCount : Int) + 1 < cfg.billing.maxRetries := by
    rw [hcount]
    push_cast
    exact Iff.rfl
  rw [hafter, setsFailed_iff horigin]
  unfold LeftRetryable
  cases houtcome with
  | marked _ hset hretries hst hn hdue =>
      rw [if_pos (hleft.mpr hretries), hcount]
      exact iff_of_true ⟨hst, hn, hdue⟩ (hset.imp id .inl)
  | failed _ hbegins hmax hst =>
      rw [if_neg (fun hlt => absurd (hleft.mp hlt) (by omega))]
      exact iff_of_true (.inl hst) (.inl hbegins)
  | untouched hnot hfailed =>
      rw [or_iff_right hnot]
      by_cases hretries : (sub.retryCount : Int) + 1 < cfg.billing.maxRetries
      · -- with retries left the payment was not FAILED
        rw [if_pos (hleft.mpr hretries), hcount]
        have hst : p.status ≠ .FAILED := fun h => absurd (hfailed h) (by omega)
        have hmax : ¬ cfg.billing.maxRetries ≤ sub.retryCount + 1 := by omega
        rw [or_iff_right hst, or_iff_right hmax]
      · -- without retries left nothing is asked of it
        rw [if_neg (fun hlt => hretries (hleft.mp hlt))]
        have hmax : cfg.billing.maxRetries ≤ sub.retryCount + 1 := by omega
        simp [hmax]

/-- A retryable payment is FAILED or RETRYING. -/
theorem LeftRetryable.status {s : Subscription} {p : Payment} (h : LeftRetryable cfg t s p) :
    p.status = .FAILED ∨ p.status = .RETRYING := by
  unfold LeftRetryable at h
  split at h
  · exact .inr h.1
  · exact h

/-- **A retry request accepts** a payment that is FAILED or RETRYING. -/
theorem retry_accepts {A : CallEvent → Prop} {v : Log} {p : Payment}
    (hp : w.payment? p.id = some p) (hst : p.status = .FAILED ∨ p.status = .RETRYING) :
    Safe (sequential A) (payments.retry p.id)
      (fun r _ _ => Refusable A ∨ r = .ok ⟨200, .queued p.id⟩) w v := by
  unfold payments.retry
  rw [safe_bind]
  refine seq_read id (by simp) rfl (fun err h => .inl (h ⟨id, id⟩)) (fun env existing hread => ?_)
  obtain rfl : existing = some p := (existing_of_read hread).trans hp
  rw [andThen_ok]
  dsimp only
  rw [if_neg (fun h => hst.elim h.1 h.2), safe_bind]
  refine seq_dateNow (fun err h => .inl h) (fun env' _ => ?_)
  rw [andThen_ok, safe_bind]
  exact seq_ask id (by simp) (fun err h => .inl (h ⟨id, id⟩)) (fun _ _ _ => .inr rfl)

end Outcomes

/-! ## §3. The claim. -/

/-- **A failed cycle leaves a retryable payment exactly under the condition**:
in every reachable state, for every configuration, and for every cycle whose
calls to the database and the queues are answered and that does not end with
its period paid.  A retry request then accepts the payment. -/
theorem failed_cycle_retryable_iff (cfg : Config) (w₀ w' : World) (P : Pool Api World Unit)
    (id : String) (sub : SubscriptionWithPlan) (t : List CallEvent) (r : Except Thrown Unit)
    (hpayments : w₀.payments.rows = []) (hreach : Pool.Run (running cfg) anyone ⟨w₀, []⟩ P)
    (hopen : Opened P.world id sub) (h : Runs api (processBillingCycle cfg id) P.world t r w')
    (hup : DatabaseUp t) (hfailed : ¬ w'.isPaid sub.currentKey) :
    (RetryableAfter cfg sub t w' ↔ SetsFailed cfg sub P.world t)
      ∧ (RetryableAfter cfg sub t w' → ∀ p' t' r' w'', w'.paymentByKey? sub.currentKey = some p' →
          Runs api (payments.retry p'.id) w' t' r' w'' → DatabaseUp t' →
          r' = .ok ⟨200, .queued p'.id⟩) := by
  have hkeys : KeysFit P.world :=
    running_keysFit hreach (fun p hp => absurd hp (Table.not_mem_of_nil hpayments p))
  have hcycle : FailedCycle cfg (· ∈ t) sub P.world w' :=
    seq_runs h (fun _ he => he) (failed_cycle hopen) hfailed
  refine ⟨hcycle.retryable_iff hup hkeys, fun hafter p' t' r' w'' hp' hretry hup' => ?_⟩
  obtain ⟨q, s', hq, -, hleft⟩ := hafter
  obtain rfl : p' = q := Option.some.inj (hp'.symm.trans hq)
  have hfound : w'.payment? p'.id = some p' :=
    payment?_eq_some.mpr ⟨(paymentByKey?_eq_some.mp hp').1, rfl⟩
  exact (seq_runs hretry (fun _ he => he) (retry_accepts hfound hleft.status)).resolve_left
    hup'.not_refusable

/-! ## §4. Scenarios. -/

section Scenarios

open Shop

/-- The status of the only payment. -/
theorem status_of_rows {w : World} {st : PaymentStatus} {key : String} {p : Payment}
    (h : w.payments.rows.map (·.status) = [st]) (hp : w.paymentByKey? key = some p) :
    p.status = st := by
  have hmem : p.status ∈ w.payments.rows.map (·.status) :=
    List.mem_map_of_mem (paymentByKey?_eq_some.mp hp).1
  rw [h] at hmem
  exact List.mem_singleton.mp hmem

/-- A plan that is not on the contract. -/
def offChain : Plan := { plan with contractPlanId := none }

/-- Its charge on day 2 throws before it begins. -/
def notBegun : List Env := [on 2, on 2, fresh 2 "pay", on 2, on 2, on 2]

/-- **A failed cycle that leaves its payment PENDING.** -/
theorem left_pending :
    ¬ ∀ (cfg : Config) (w₀ w' : World) (P : Pool Api World Unit) (id : String)
      (sub : SubscriptionWithPlan) (t : List CallEvent) (r : Except Thrown Unit),
      w₀.payments.rows = [] → Pool.Run (running cfg) anyone ⟨w₀, []⟩ P →
      Opened P.world id sub → Runs api (processBillingCycle cfg id) P.world t r w' →
      DatabaseUp t → ¬ w'.isPaid sub.currentKey → RetryableAfter cfg sub t w' := by
  intro hclaim
  have hrun : (exec api (processBillingCycle (cfg false) "sub") notBegun
      (world offChain sub)).map (fun r => r.2.payments.rows.map (·.status))
      = some [.PENDING] := by
    decide +kernel
  have hup : DatabaseUp (execTrace api (processBillingCycle (cfg false) "sub") notBegun
      (world offChain sub)) := by
    decide +kernel
  obtain ⟨⟨r, w'⟩, hexec, hrows⟩ := Option.map_eq_some_iff.mp hrun
  have hunpaid : ¬ w'.isPaid (subOn offChain).currentKey := by
    intro hpaid
    obtain ⟨p, hp, hst⟩ := hpaid
    rw [status_of_rows hrows hp] at hst
    cases hst
  have hafter := hclaim (cfg false) (world offChain sub) w' ⟨world offChain sub, []⟩ "sub"
    (subOn offChain) _ r rfl .refl ⟨rfl, by decide, by decide⟩ (exec_runs hexec) hup hunpaid
  obtain ⟨p, s, hp, -, hleft⟩ := hafter
  have hst := hleft.status
  rw [status_of_rows hrows hp] at hst
  exact absurd hst (by decide)

/-- The RPC is down on day 2. -/
def rpcDown : List Env :=
  [on 2, on 2, fresh 2 "pay", on 2, on 2, rejected 2, on 2, on 2, on 2, on 2]

/-- The payment is marked for a retry two hours later. -/
theorem failed_cycle_retryable_iff_shop :
    ∃ t r w', Runs api (processBillingCycle (cfg false) "sub") (world plan sub) t r w'
      ∧ w'.payments.rows.map (·.status) = [.RETRYING]
      ∧ RetryableAfter (cfg false) (subOn plan) t w' := by
  have hrun : (exec api (processBillingCycle (cfg false) "sub") rpcDown
      (world plan sub)).map (fun r => r.2.payments.rows.map (·.status))
      = some [.RETRYING] := by
    decide +kernel
  have hup : DatabaseUp (execTrace api (processBillingCycle (cfg false) "sub") rpcDown
      (world plan sub)) := by
    decide +kernel
  obtain ⟨⟨r, w'⟩, hexec, hrows⟩ := Option.map_eq_some_iff.mp hrun
  refine ⟨_, r, w', exec_runs hexec, hrows, ?_⟩
  refine (failed_cycle_retryable_iff (cfg false) (world plan sub) w' ⟨world plan sub, []⟩ "sub"
    (subOn plan) _ r rfl .refl ⟨rfl, by decide, by decide⟩ (exec_runs hexec) hup
    (fun hpaid => ?_)).1.mpr (.inl ⟨by decide, rfl⟩)
  obtain ⟨p, hp, hst⟩ := hpaid
  rw [status_of_rows hrows hp] at hst
  cases hst

end Scenarios

end Sorobill
