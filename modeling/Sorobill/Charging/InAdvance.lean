/-
  Sorobill.Charging.InAdvance
  ───────────────────────────
  **IS A PERIOD CHARGED BEFORE IT HAS ENDED?**

  The query of the scheduler asks for periods that have ended, but a job
  carries the subscription id only, and a billing cycle charges whatever
  period is current when it begins.  A job that runs once more after the
  period was advanced charges the next period at its start.

    • `BeginsDue` — an execution begins on a period that has ended, or has
      nothing to charge;
    • `billing_onTime` — what such an execution sets to SUCCESS is on time;
    • `success_on_time` — no success before the period's end in every history
      of such executions.
-/
import Sorobill.Model.Shop
import Sorobill.Rules.Bookings

namespace Sorobill

open Effect
open Relational

/-! ## §1. Statements. -/

/-- The requests, ticks and jobs that collect payments. -/
def Operation.isCollecting : Operation → Prop
  | .createSubscription _ => True
  | .retryPayment _ => True
  | .billingJob _ => True
  | .tick => True
  | _ => False

instance : (op : Operation) → Decidable op.isCollecting
  | .createSubscription _ | .retryPayment _ | .billingJob _ | .tick => .isTrue trivial
  | .cancel _ _ | .pause _ | .resume _ | .runBilling _ | .runInline _
  | .expireGracePeriods => .isFalse id

/-- **The condition**: when the execution bills a subscription, finds it open
and its current period not paid, that period has ended by the time of the
first call. -/
def BeginsDue (x : Step) : Prop :=
  ∀ id sub, x.op.bills = some id → Opened x.before id sub →
    ¬ x.before.isPaid sub.currentKey →
    ∀ e, x.trace.head? = some e → sub.currentPeriodEnd ≤ e.env.now

/-- The payment became SUCCESS after its billing period. -/
def Success.onTime (s : Success) : Prop := s.payment.billingPeriodEnd ≤ s.now

/-! ## §2. Histories. -/

section Histories

variable {cfg : Config} {x : Step}

/-- A clock that does not go back shows the time of the first call or a later one. -/
theorem head_le {t : List CallEvent} (h : t.Pairwise (fun e e' => e.env.now ≤ e'.env.now))
    {e : CallEvent} (he : e ∈ t) : ∃ first, t.head? = some first ∧ first.env.now ≤ e.env.now := by
  cases t with
  | nil => cases he
  | cons first t =>
      refine ⟨first, rfl, ?_⟩
      rcases List.mem_cons.mp he with rfl | he
      · exact le_rfl
      · exact (List.pairwise_cons.mp h).1 e he

/-- **A success of an execution that begins due is on time.** -/
theorem billing_onTime {id : String} (hx : x.Of (serial cfg)) (hb : x.op.bills = some id)
    (hdue : BeginsDue x) (hclock : x.trace.Pairwise (fun e e' => e.env.now ≤ e'.env.now))
    (hkeys : KeysFit x.before) {s : Success} (hs : s ∈ x.after.successes) :
    s ∈ x.before.successes ∨ s.onTime := by
  have hruns : Runs api (x.op.body cfg) x.before x.trace x.reply x.after := hx.runs
  -- a success that was not there before was recorded by one of the calls
  rcases hruns.origin (X := fun w => s ∈ w.successes)
    (N := fun e : CallEvent => ∃ pid data old, e.call = Call.paymentUpdate pid data
      ∧ e.before.payment? pid = some old ∧ s = ⟨data.apply old, e.env.now⟩)
    (fun e _ => success_origin e) hs with hs | ⟨e, he, pid, data, old, hcall, hold, rfl⟩
  · exact .inl hs
  · right
    obtain ⟨sub, hopen, hunpaid, row, hrow, hid, hkey⟩ := billing_books hx hb e he pid data hcall
    obtain ⟨hmem, hold⟩ := payment?_eq_some.mp hold
    have hsame : row = old := Table.eq_of_clash hrow hmem (.inl (hid.trans hold.symm))
    subst hsame
    -- the key of the row names the period it is for
    have hfit := (execution_keysFit hx hkeys).1 e he row hrow
    have hend : row.billingPeriodEnd = sub.currentPeriodEnd :=
      (billingIdempotencyKey_inj.mp (hfit.symm.trans hkey)).2
    obtain ⟨first, hfirst, hle⟩ := head_le hclock he
    show row.billingPeriodEnd ≤ e.env.now
    rw [hend]
    exact (hdue id sub hb hopen hunpaid first hfirst).trans hle

/-- **Nobody is charged in advance while cycles begin due**: in every history
of operations with a clock that does not go back, in which every billing
cycle of an open subscription with an unpaid current period begins after the
end of that period, every payment becomes SUCCESS after its period. -/
theorem success_on_time (cfg : Config) (w₀ w : World) (xs : List Step)
    (hpayments : w₀.payments.rows = []) (hsuccesses : w₀.successes = [])
    (h : History (serial cfg) (fun _ x => BeginsDue x) w₀ xs w) (hclock : Clocked xs) :
    ∀ s ∈ w.successes, s.onTime := by
  refine (h.invariant
    (J := fun xs w => KeysFit w ∧ (Clocked xs → ∀ s ∈ w.successes, s.onTime)) ?_ ?_ ?_).2 hclock
  · refine ⟨fun p hp => ?_, fun _ s hs => ?_⟩
    · exact absurd hp (Table.not_mem_of_nil hpayments p)
    · rw [hsuccesses] at hs
      cases hs
  · intro past x h hx hdue
    obtain ⟨hkeys, honTime⟩ := h
    refine ⟨(execution_keysFit hx hkeys).2, fun hclock s hs => ?_⟩
    obtain ⟨hpast, htrace, -⟩ := clocked_append.mp hclock
    cases hb : x.op.bills with
    | none =>
        -- only billing cycles record successes
        rw [(unbilled_same hx hb).successes] at hs
        exact honTime hpast s hs
    | some id =>
        exact (billing_onTime hx hb hdue htrace hkeys hs).elim (honTime hpast s) (fun h => h)
  · intro past w₁ _ hJ h
    obtain ⟨q, -, rfl⟩ := h
    exact hJ

end Histories

/-! ## §3. Scenarios. -/

section Scenarios

open Shop

/-- A subscription of day 1, the tick on day 2 that enqueues its job, and the
job, which is Paid. -/
def subscribeAndPay : List (Operation × List Env) :=
  [(.createSubscription ⟨"plan", wallet.address⟩,
      [on 1, on 1, on 1, fresh 1 "sub", on 1]),
   (.tick, [on 2, on 2, on 2, on 2, on 2]),
   (.billingJob enqueued,
    [on 2, on 2, fresh 2 "pay", on 2, on 2, answered 2 .account, answered 2 (.simulated none),
     answered 2 (.accepted "tx1" (some .Paid)),
     answered 2 (.polled (.SUCCESS (some (.string "Paid"))) (day 2) []), on 2, on 2, on 2])]

/-- The same job once more, on the same day. -/
def payAgain : Operation × List Env :=
  (.billingJob enqueued,
    [on 2, on 2, fresh 2 "pay2", on 2, on 2, answered 2 .account, answered 2 (.simulated none),
     answered 2 (.accepted "tx2" (some .Paid)),
     answered 2 (.polled (.SUCCESS (some (.string "Paid"))) (day 2) []), on 2, on 2, on 2])

/-- **A job that is executed twice charges the next period in advance.** -/
theorem charged_in_advance :
    ¬ ∀ (cfg : Config) (w₀ w : World) (xs : List Step),
      w₀.payments.rows = [] → w₀.successes = [] →
      History (serial cfg) (fun _ x => x.op.isCollecting) w₀ xs w → Clocked xs →
      ∀ s ∈ w.successes, s.onTime := by
  intro hclaim
  have hrun : ((serial (cfg false)).play (fun _ x => decide x.op.isCollecting)
      (subscribeAndPay ++ [payAgain]) [] (opening plan)).map (fun r => (decide (Clocked r.1),
        r.2.successes.map (fun s => (s.payment.billingPeriodEnd, s.now))))
      = some (true, [(day 2, day 2), (day 3, day 2)]) := by
    decide +kernel
  obtain ⟨⟨xs, w⟩, hplay, hres⟩ := Option.map_eq_some_iff.mp hrun
  obtain ⟨hclock, hsuccesses⟩ := Prod.mk.inj hres
  have h := hclaim (cfg false) (opening plan) w xs rfl rfl
    (Serial.play_history (fun _ _ h => of_decide_eq_true h) .start hplay)
    (of_decide_eq_true hclock)
  have hearly : (day 3, day 2) ∈ w.successes.map (fun s => (s.payment.billingPeriodEnd, s.now)) :=
    hsuccesses ▸ List.mem_cons_of_mem _ List.mem_cons_self
  obtain ⟨s, hs, heq⟩ := List.mem_map.mp hearly
  obtain ⟨hend, hnow⟩ := Prod.mk.inj heq
  have hle : s.payment.billingPeriodEnd ≤ s.now := h s hs
  rw [hend, hnow] at hle
  exact absurd (day_le.mp hle) (by decide)

/-- `BeginsDue` as a test. -/
def beginsDue (x : Step) : Bool :=
  match x.op.bills with
  | none => true
  | some id =>
      match (x.before.sub? id).bind x.before.withPlan with
      | none => true
      | some sub =>
          (x.before.paymentByKey? sub.currentKey).any (fun p => p.status == .SUCCESS)
            || x.trace.head?.all (fun e => decide (sub.currentPeriodEnd ≤ e.env.now))

theorem beginsDue_sound {x : Step} (h : beginsDue x = true) : BeginsDue x := by
  intro id sub hb hopen hunpaid e he
  unfold beginsDue at h
  rw [hb] at h
  dsimp only at h
  rw [hopen.found] at h
  rcases Bool.or_eq_true_iff.mp h with h | h
  · refine absurd ?_ hunpaid
    simpa [World.isPaid, Option.any_eq_true] using h
  · rw [he] at h
    exact of_decide_eq_true h

/-- The job is executed once. -/
theorem success_on_time_shop :
    ∃ xs w, History (serial (cfg false)) (fun _ x => BeginsDue x) (opening plan) xs w
      ∧ Clocked xs ∧ w.successes.length = 1 ∧ ∀ s ∈ w.successes, s.onTime := by
  have hrun : ((serial (cfg false)).play (fun _ x => beginsDue x) subscribeAndPay []
      (opening plan)).map (fun r => (decide (Clocked r.1), r.2.successes.length))
      = some (true, 1) := by
    decide +kernel
  obtain ⟨⟨xs, w⟩, hplay, hres⟩ := Option.map_eq_some_iff.mp hrun
  obtain ⟨hclock, hlength⟩ := Prod.mk.inj hres
  have h : History (serial (cfg false)) (fun _ x => BeginsDue x) (opening plan) xs w :=
    Serial.play_history (fun _ _ => beginsDue_sound) .start hplay
  exact ⟨xs, w, h, of_decide_eq_true hclock, hlength,
    success_on_time (cfg false) (opening plan) w xs rfl rfl h (of_decide_eq_true hclock)⟩

end Scenarios

end Sorobill
