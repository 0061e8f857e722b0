/-
  Sorobill.Rules.Attachments
  ──────────────────────────
  **PAYMENTS THAT ARE FOR THE CURRENT PERIOD.**

  A period is left behind when it is paid, by `advancePeriod`, or by a resume
  request, whatever its payment.  Let `B` be statuses other than SUCCESS that
  the handler of a failed charge does not bring about by itself.  As long as
  no resume request finds a payment with a status in `B`, every payment with
  one is for the current period of its subscription.

    • `Current` — payments with a status in `B` are for the current period;
    • `ResumesWithout` — a resume request finds none of them;
    • `Belonging`, `execution_belonging` — the invariant, and what one execution
      keeps of it.
-/
import Sorobill.Rules.Bookings
import Sorobill.Rules.Requests

namespace Sorobill

open Effect
open Relational

/-! ## §1. Statements. -/

/-- **Every payment with a status in `B`** of a subscription that goes on is
for its current period. -/
def Current (B : PaymentStatus → Prop) (w : World) : Prop :=
  ∀ p ∈ w.payments, B p.status → ∀ s, w.sub? p.subscriptionId = some s →
    s.status ≠ .CANCELLED → p.billingPeriodEnd = s.currentPeriodEnd

/-- A resume request that finds its subscription paused and not CANCELLED
finds no payment of it with a status in `B`. -/
def ResumesWithout (B : PaymentStatus → Prop) (x : Step) : Prop :=
  ∀ id s, x.op = .resume id → x.before.sub? id = some s → s.paused = true →
    s.status ≠ .CANCELLED → ∀ p ∈ x.before.payments, p.subscriptionId = id → ¬ B p.status

/-- **The invariant**: keys name subscription and period, and payments have
their subscription. -/
structure Belonging (B : PaymentStatus → Prop) (w : World) : Prop where
  keys : KeysFit w
  stored : ∀ p ∈ w.payments, ∃ s, w.sub? p.subscriptionId = some s
  current : Current B w

/-- Statuses of payments that are still to be settled. -/
structure Unsettling (B : PaymentStatus → Prop) : Prop where
  success : ¬ B .SUCCESS
  retrying : B .RETRYING → B .FAILED

/-- Marking a payment brings no new status of `B`. -/
theorem Unsettling.before {B : PaymentStatus → Prop} (hB : Unsettling B) {p old : Payment}
    (h : p.status = old.status ∨ old.status = .FAILED ∧ p.status = .RETRYING)
    (hst : B p.status) : B old.status := by
  rcases h with heq | ⟨hfailed, hretrying⟩
  · rw [← heq]
    exact hst
  · rw [hretrying] at hst
    rw [hfailed]
    exact hB.retrying hst

/-! ## §2. One execution. -/

section Executions

variable {cfg : Config} {x : Step} {B : PaymentStatus → Prop}

/-- **Without a billing cycle**: payments are the same, and a new period is
begun without a payment in `B`. -/
theorem unbilled_belonging (hx : x.Of (serial cfg)) (hb : x.op.bills = none)
    (hresume : ResumesWithout B x) (h : Belonging B x.before) : Belonging B x.after := by
  refine ⟨(execution_keysFit hx h.keys).2, payments_stored hx h.stored,
    fun p hp hst s' hs' hopen => ?_⟩
  rw [(unbilled_same hx hb).payments] at hp
  obtain ⟨s, hs⟩ := h.stored p hp
  obtain ⟨t, ht, hkept⟩ := row_after_unbilled hx hb hs
  obtain rfl : t = s' := Option.some.inj (ht.symm.trans hs')
  rcases hkept with hsame | hnew
  · -- no period was written
    have hbefore : s.status ≠ .CANCELLED := by
      intro hcancelled
      rcases hsame.status with heq | heq
      · exact hopen (heq.trans hcancelled)
      · exact hopen heq
    rw [hsame.finish]
    exact h.current p hp hst s hs hbefore
  · -- the request found no such payment
    obtain ⟨plan, env, finish, now, -, -, -, rfl⟩ := hnew.period
    have hid := sub?_id hs
    exact absurd hst (hresume s.id s hnew.op_eq (hid ▸ hs) hnew.paused hopen p hp hid.symm)

/-- A payment in `B` after a billing execution was for the current period
before it. -/
theorem was_current {id : String} {p : Payment} {s : Subscription}
    (hB : Unsettling B) (h : Belonging B x.before) (hkeys : p.idempotencyKey
      = billingIdempotencyKey p.subscriptionId p.billingPeriodEnd)
    (hbill : BillOf id x.before p) (hst : B p.status) (hid : p.subscriptionId = id)
    (hs : x.before.sub? id = some s) (hopen : s.status ≠ .CANCELLED) :
    p.billingPeriodEnd = s.currentPeriodEnd := by
  cases hbill with
  | kept old hold hsame hstatus =>
      rw [hsame.finish]
      refine h.current old hold (hB.before hstatus hst) s ?_ hopen
      rw [← hsame.subscriptionId, hid]
      exact hs
  | booked sub hopen' _ hkey _ =>
      -- the key says so
      obtain rfl : sub.toSubscription = s := Option.some.inj (hopen'.row.symm.trans hs)
      exact (billingIdempotencyKey_inj.mp (hkeys.symm.trans hkey)).2

/-- **With a billing cycle**: the period is advanced only when its payment is
SUCCESS. -/
theorem billing_belonging {id : String} (hB : Unsettling B) (hx : x.Of (serial cfg))
    (hb : x.op.bills = some id) (h : Belonging B x.before) : Belonging B x.after := by
  have hkeys := (execution_keysFit hx h.keys).2
  refine ⟨hkeys, payments_stored hx h.stored, fun p hp hst s' hs' hopen => ?_⟩
  obtain ⟨s, hs⟩ := stored_before hx hb h.stored hp
  by_cases hid : p.subscriptionId = id
  · rw [hid] at hs hs'
    -- a cancelled subscription is not billed, so it would be cancelled still
    have hbefore : s.status ≠ .CANCELLED := by
      intro hcancelled
      have hsame := cancelled_after_billing hx hb hs hcancelled
      obtain rfl : s = s' := Option.some.inj (hsame.symm.trans hs')
      exact hopen hcancelled
    have hcurrent : p.billingPeriodEnd = s.currentPeriodEnd :=
      was_current hB h (hkeys p hp) (bills_after hx hb p hp) hst hid hs hbefore
    obtain ⟨t, ht, -, -, hperiod⟩ := row_after_billing hx hb hs
    obtain rfl : t = s' := Option.some.inj (ht.symm.trans hs')
    rcases hperiod with hsame | ⟨sub, hnext, hpaid⟩
    · rw [hsame.finish]
      exact hcurrent
    · -- the period was advanced, so its payment is SUCCESS
      have hrow := hnext.opened.row
      obtain rfl : sub.toSubscription = s := Option.some.inj (hrow.symm.trans hs)
      have hsuccess : p.status = .SUCCESS := by
        refine success_of_isPaid hpaid hp ?_
        rw [hkeys p hp, hid, hcurrent, Subscription.currentKey, hnext.opened.id_eq]
      rw [hsuccess] at hst
      exact absurd hst hB.success
  · -- a payment of another subscription
    have hrow := other_after_billing hx hb hid
    cases bills_after hx hb p hp with
    | kept old hold hsame hstatus =>
        rw [hsame.finish]
        refine h.current old hold (hB.before hstatus hst) s' ?_ hopen
        rw [← hsame.subscriptionId, ← hrow]
        exact hs'
    | booked sub hopen' _ hkey _ =>
        have hsub := (billingIdempotencyKey_inj.mp ((hkeys p hp).symm.trans hkey)).1
        exact absurd (hsub.trans hopen'.id_eq) hid

/-- **What one execution keeps.** -/
theorem execution_belonging (hB : Unsettling B) (hx : x.Of (serial cfg))
    (hresume : ResumesWithout B x) (h : Belonging B x.before) : Belonging B x.after := by
  cases hb : x.op.bills with
  | none => exact unbilled_belonging hx hb hresume h
  | some id => exact billing_belonging hB hx hb h

end Executions

end Sorobill
