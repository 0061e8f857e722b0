/-
  Sorobill.Charging.Overlaps
  ──────────────────────────
  **DOES A SUBSCRIBER PAY TWICE FOR THE SAME TIME?**

  A resume request begins a new period at the time of the request, whatever
  period was current and whatever was paid.  While billing cycles are started
  for due subscriptions only, every payment is for a period that has ended,
  so that a period begun later does not overlap it.

    • `BilledWhenDue` — a billing cycle begins when the query finds its
      subscription due;
    • `Spaced` — payments have ended, lie before the current period or are
      for it, and are apart from each other;
    • `unbilled_spaced`, `billing_spaced` — what one execution keeps;
    • `paid_periods_disjoint` — the paid periods of every history.
-/
import Mathlib.Data.Set.Lattice
import Mathlib.Order.CompletePartialOrder
import Mathlib.Order.Interval.Set.Defs
import Sorobill.Model.Shop
import Sorobill.Rules.Bookings
import Sorobill.Rules.Requests

namespace Sorobill

open Effect
open Relational

/-! ## §1. Statements. -/

/-- **A billing cycle is started for a due subscription**: the query of the
scheduler, made at the time of the first call, selects it. -/
def BilledWhenDue (x : Step) : Prop :=
  ∀ id, x.op.bills = some id → ∃ first s, x.trace.head? = some first
    ∧ x.before.sub? id = some s
    ∧ (findDueSubscriptions.condition first.env.now).selects s = true

/-- The billing period of a payment, its start included and its end not. -/
def Payment.period (p : Payment) : Set Instant :=
  Set.Ico p.billingPeriodStart p.billingPeriodEnd

/-- Some call of the past was made at `t` or later. -/
def Passed (past : List Step) (t : Instant) : Prop :=
  ∃ e ∈ past.flatMap (·.trace), t ≤ e.env.now

/-- One payment's period ends before the other's begins. -/
def Apart (p q : Payment) : Prop :=
  p.billingPeriodEnd ≤ q.billingPeriodStart ∨ q.billingPeriodEnd ≤ p.billingPeriodStart

/-- **The invariant** for the subscription `id`. -/
structure Spaced (past : List Step) (id : String) (w : World) : Prop where
  keys : KeysFit w
  counts : ∀ plan ∈ w.plans, 1 ≤ plan.intervalCount
  stored : ∀ p ∈ w.payments, p.subscriptionId = id → ∃ s, w.sub? id = some s
  forward : ∀ s, w.sub? id = some s → s.currentPeriodStart < s.currentPeriodEnd
  ended : ∀ p ∈ w.payments, p.subscriptionId = id → Passed past p.billingPeriodEnd
  placed : ∀ p ∈ w.payments, p.subscriptionId = id → ∀ s, w.sub? id = some s →
    p.billingPeriodEnd ≤ s.currentPeriodStart ∨ BillFor s p
  apart : ∀ p ∈ w.payments, ∀ q ∈ w.payments, p.subscriptionId = id → q.subscriptionId = id →
    p ≠ q → Apart p q

/-! ## §2. Lemmas. -/

theorem Apart.symm {p q : Payment} (h : Apart p q) : Apart q p := Or.symm h

theorem Apart.congr {p q p' q' : Payment} (h : Apart p q) (hp : SameBill p p')
    (hq : SameBill q q') : Apart p' q' := by
  unfold Apart
  rw [hp.start, hp.finish, hq.start, hq.finish]
  exact h

/-- Payments that are apart are for disjoint periods. -/
theorem Apart.disjoint {p q : Payment} (h : Apart p q) : Disjoint p.period q.period := by
  refine Set.disjoint_left.mpr (fun t hp hq => ?_)
  rcases h with h | h
  · exact absurd (hp.2.trans_le (h.trans hq.1)) (lt_irrefl t)
  · exact absurd (hq.2.trans_le (h.trans hp.1)) (lt_irrefl t)

theorem Passed.mono {past : List Step} {t : Instant} (h : Passed past t) (x : Step) :
    Passed (past ++ [x]) t := by
  obtain ⟨e, he, hle⟩ := h
  refine ⟨e, ?_, hle⟩
  rw [List.flatMap_append]
  exact List.mem_append_left _ he

/-- What has passed is not later than a call that follows. -/
theorem Passed.le {past : List Step} {x : Step} {t : Instant} (h : Passed past t)
    (hclock : Clocked (past ++ [x])) {e : CallEvent} (he : e ∈ x.trace) : t ≤ e.env.now := by
  obtain ⟨e', he', hle⟩ := h
  exact hle.trans ((clocked_append.mp hclock).2.2 e' he' e he)

/-! ## §3. One execution. -/

section Executions

variable {cfg : Config} {id : String} {past : List Step} {x : Step}

/-- **Without a billing cycle**: a new period begins after everything that has
passed. -/
theorem unbilled_spaced (hx : x.Of (serial cfg)) (hb : x.op.bills = none)
    (hclock : Clocked (past ++ [x])) (h : Spaced past id x.before) :
    Spaced (past ++ [x]) id x.after := by
  have hpayments := (unbilled_same hx hb).payments
  -- what becomes of the period of a row
  have hrow : ∀ s', x.after.sub? id = some s' → s'.currentPeriodStart < s'.currentPeriodEnd
      ∧ ∀ p ∈ x.before.payments, p.subscriptionId = id →
        p.billingPeriodEnd ≤ s'.currentPeriodStart ∨ BillFor s' p := by
    intro s' hs'
    cases hs : x.before.sub? id with
    | none =>
        -- created just now, so there are no payments yet
        obtain ⟨plan, hplan, hnext⟩ := (created_of_new hx hs hs').period
        refine ⟨?_, fun p hp hid => ?_⟩
        · exact Plan.next_progressive (h.counts plan (Table.find?_mem hplan).1) cfg _ _ hnext
        · obtain ⟨s, hs₁⟩ := h.stored p hp hid
          rw [hs] at hs₁
          cases hs₁
    | some s =>
        obtain ⟨t, ht, hkept⟩ := row_after_unbilled hx hb hs
        obtain rfl : t = s' := Option.some.inj (ht.symm.trans hs')
        rcases hkept with hsame | hnew
        · refine ⟨?_, fun p hp hid => ?_⟩
          · rw [hsame.start, hsame.finish]
            exact h.forward s hs
          · rw [hsame.start]
            refine (h.placed p hp hid s hs).imp_right (fun hbill => ?_)
            exact ⟨hbill.subscriptionId.trans hsame.id.symm, hbill.start.trans hsame.start.symm,
              hbill.finish.trans hsame.finish.symm⟩
        · -- resumed: the new period begins at the time of the request
          obtain ⟨plan, env, finish, now, hplan, hevent, hnext, rfl⟩ := hnew.period
          refine ⟨hplan.next_lt h.counts hnext, fun p hp hid => .inl ?_⟩
          exact (h.ended p hp hid).le hclock hevent
  refine ⟨(execution_keysFit hx h.keys).2, ?_, ?_, fun s' hs' => (hrow s' hs').1, ?_, ?_, ?_⟩
  · rw [plans_after hx]
    exact h.counts
  · intro p hp hid
    rw [hpayments] at hp
    obtain ⟨s, hs⟩ := h.stored p hp hid
    obtain ⟨s', hs', -⟩ := row_after_unbilled hx hb hs
    exact ⟨s', hs'⟩
  · intro p hp hid
    rw [hpayments] at hp
    exact (h.ended p hp hid).mono x
  · intro p hp hid s' hs'
    rw [hpayments] at hp
    exact (hrow s' hs').2 p hp hid
  · rw [hpayments]
    exact h.apart

/-- The current period of a subscription that is due has ended by the first
call. -/
theorem BilledWhenDue.passed (hdue : BilledWhenDue x) (hb : x.op.bills = some id)
    {s : Subscription} (hs : x.before.sub? id = some s) :
    Passed (past ++ [x]) s.currentPeriodEnd := by
  obtain ⟨first, t, hfirst, ht, hsel⟩ := hdue id hb
  obtain rfl : t = s := Option.some.inj (ht.symm.trans hs)
  refine ⟨first, ?_, ?_⟩
  · rw [List.flatMap_append]
    refine List.mem_append_right _ ?_
    simpa using List.mem_of_head? hfirst
  · simp only [SubscriptionWhere.selects, findDueSubscriptions.condition, Bool.and_eq_true,
      Option.all_some, decide_eq_true_eq] at hsel
    exact hsel.1.1.1.2

/-- A billing cycle leaves the payments in their places before the current
period, or books the one of that period. -/
theorem billing_placed {y : String} (hx : x.Of (serial cfg)) (hb : x.op.bills = some y)
    (h : Spaced past id x.before) {p : Payment} (hp : p ∈ x.after.payments)
    (hid : p.subscriptionId = id) {s : Subscription} (hs : x.before.sub? id = some s) :
    p.billingPeriodEnd ≤ s.currentPeriodStart ∨ BillFor s p := by
  rcases payment_carried hx hb hp hid with ⟨old, hmem, hold, hsame⟩ | ⟨-, t, ht, hbill⟩
  · rw [hsame.finish]
    exact (h.placed old hmem hold s hs).imp_right (fun hbill => hbill.congr hsame)
  · obtain rfl : t = s := Option.some.inj (ht.symm.trans hs)
    exact .inr hbill

/-- A payment for the current period is apart from those before it. -/
theorem billing_apart_new {y : String} (hx : x.Of (serial cfg)) (hb : x.op.bills = some y)
    (h : Spaced past id x.before) {p q : Payment} (hp : p ∈ x.after.payments)
    (hq : q ∈ x.after.payments) (hpid : p.subscriptionId = id) (hqid : q.subscriptionId = id)
    (hne : p ≠ q) {s : Subscription} (hs : x.before.sub? id = some s) (hbill : BillFor s p) :
    Apart p q := by
  have hkeys := (execution_keysFit hx h.keys).2
  rcases billing_placed hx hb h hq hqid hs with hle | hbill'
  · right
    rw [hbill.start]
    exact hle
  · -- one key, so one row
    refine absurd (Table.eq_of_clash hp hq (.inr (.inl ?_))) hne
    rw [hkeys p hp, hkeys q hq, hpid, hqid, hbill.finish, hbill'.finish]

/-- After a billing cycle, too, any two payments are apart. -/
theorem billing_apart {y : String} (hx : x.Of (serial cfg)) (hb : x.op.bills = some y)
    (h : Spaced past id x.before) {p q : Payment} (hp : p ∈ x.after.payments)
    (hq : q ∈ x.after.payments) (hpid : p.subscriptionId = id) (hqid : q.subscriptionId = id)
    (hne : p ≠ q) : Apart p q := by
  rcases payment_carried hx hb hp hpid with ⟨old, hmem, hold, hsame⟩ | ⟨-, s, hs, hbill⟩
  · rcases payment_carried hx hb hq hqid with ⟨old', hmem', hold', hsame'⟩ | ⟨-, s, hs, hbill⟩
    · refine (h.apart old hmem old' hmem' hold hold' (fun heq => hne ?_)).congr hsame hsame'
      subst heq
      exact Table.eq_of_clash hp hq (.inl (hsame.id.trans hsame'.id.symm))
    · exact (billing_apart_new hx hb h hq hp hqid hpid hne.symm hs hbill).symm
  · exact billing_apart_new hx hb h hp hq hpid hqid hne hs hbill

/-- **With a billing cycle**: the period that is billed has ended. -/
theorem billing_spaced {y : String} (hx : x.Of (serial cfg)) (hb : x.op.bills = some y)
    (hdue : BilledWhenDue x) (h : Spaced past id x.before) :
    Spaced (past ++ [x]) id x.after := by
  -- only a create request inserts a row
  have hrow : ∀ s', x.after.sub? id = some s' → ∃ s, x.before.sub? id = some s := by
    intro s' hs'
    cases hs : x.before.sub? id with
    | some s => exact ⟨s, rfl⟩
    | none =>
        obtain ⟨body, hop⟩ := (created_of_new hx hs hs').op_eq
        rw [hop] at hb
        cases hb
  refine ⟨(execution_keysFit hx h.keys).2, ?_, ?_, ?_, ?_, ?_,
    fun p hp q hq hpid hqid hne => billing_apart hx hb h hp hq hpid hqid hne⟩
  · rw [plans_after hx]
    exact h.counts
  · intro p hp hid
    have hs : ∃ s, x.before.sub? id = some s := by
      rcases payment_carried hx hb hp hid with ⟨old, hmem, hold, -⟩ | ⟨-, s, hs, -⟩
      · exact h.stored old hmem hold
      · exact ⟨s, hs⟩
    obtain ⟨s, hs⟩ := hs
    obtain ⟨s', hs', -⟩ := row_carried hx hb hs
    exact ⟨s', hs'⟩
  · intro s' hs'
    obtain ⟨s, hs⟩ := hrow s' hs'
    obtain ⟨t, ht, -, hperiod⟩ := row_carried hx hb hs
    obtain rfl : t = s' := Option.some.inj (ht.symm.trans hs')
    rcases hperiod with hsame | ⟨sub, hnext, rfl, -⟩
    · rw [hsame.start, hsame.finish]
      exact h.forward s hs
    · rw [hnext.start]
      exact hnext.opened.planOf.next_lt h.counts hnext.finish
  · intro p hp hid
    rcases payment_carried hx hb hp hid with ⟨old, hmem, hold, hsame⟩ | ⟨rfl, s, hs, hbill⟩
    · rw [hsame.finish]
      exact (h.ended old hmem hold).mono x
    · rw [hbill.finish]
      exact hdue.passed hb hs
  · intro p hp hid s' hs'
    obtain ⟨s, hs⟩ := hrow s' hs'
    obtain ⟨t, ht, hsid, hperiod⟩ := row_carried hx hb hs
    obtain rfl : t = s' := Option.some.inj (ht.symm.trans hs')
    have hbefore := billing_placed hx hb h hp hid hs
    rcases hperiod with hsame | ⟨sub, hnext, rfl, -⟩
    · rw [hsame.start]
      refine hbefore.imp_right (fun hbill => ?_)
      exact ⟨hbill.subscriptionId.trans hsid.symm, hbill.start.trans hsame.start.symm,
        hbill.finish.trans hsame.finish.symm⟩
    · -- the period has gone on
      left
      rw [hnext.start]
      rcases hbefore with hle | hbill
      · exact hle.trans (h.forward _ hs).le
      · exact hbill.finish.le

end Executions

/-! ## §4. Histories. -/

/-- **Nobody pays twice for the same time**: in every history of operations
with a clock that does not go back, with failures at any call, in which every
billing cycle begins when its subscription is due, the periods of a
subscription's payments, of those that are SUCCESS and of all others, are
pairwise disjoint. -/
theorem paid_periods_disjoint (cfg : Config) (w₀ w : World) (xs : List Step)
    (hsubscriptions : w₀.subscriptions.rows = []) (hpayments : w₀.payments.rows = [])
    (hcounts : ∀ plan ∈ w₀.plans, 1 ≤ plan.intervalCount)
    (h : History (serial cfg) (fun _ x => BilledWhenDue x) w₀ xs w) (hclock : Clocked xs)
    (id : String) :
    ∀ p ∈ w.payments, ∀ q ∈ w.payments, p.subscriptionId = id → q.subscriptionId = id →
      p ≠ q → Disjoint p.period q.period := by
  have hnone : ∀ p, p ∉ w₀.payments := Table.not_mem_of_nil hpayments
  have hJ : Clocked xs → Spaced xs id w := by
    refine h.invariant (J := fun xs w => Clocked xs → Spaced xs id w) ?_ ?_ ?_
    · refine fun _ => ⟨fun p hp => absurd hp (hnone p), hcounts, fun p hp => absurd hp (hnone p),
        fun s hs => ?_, fun p hp => absurd hp (hnone p), fun p hp => absurd hp (hnone p),
        fun p hp => absurd hp (hnone p)⟩
      exact absurd (sub?_eq_some.mp hs).1 (Table.not_mem_of_nil hsubscriptions s)
    · intro past x hJ hx hdue hclock
      have hpast : Clocked past := (clocked_append.mp hclock).1
      cases hb : x.op.bills with
      | none => exact unbilled_spaced hx hb hclock (hJ hpast)
      | some y => exact billing_spaced hx hb hdue (hJ hpast)
    · intro past w₁ _ hJ h hclock
      obtain ⟨q, -, rfl⟩ := h
      have hJ := hJ hclock
      exact ⟨hJ.keys, hJ.counts, hJ.stored, hJ.forward, hJ.ended, hJ.placed, hJ.apart⟩
  intro p hp q hq hpid hqid hne
  exact ((hJ hclock).apart p hp q hq hpid hqid hne).disjoint

/-! ## §5. Scenarios. -/

section Scenarios

open Shop

/-- The first day is paid on day 4; then the subscription is paused and
resumed, and the day that follows is paid. -/
def lateThenResumed : List (Operation × List Env) :=
  [(.createSubscription ⟨"plan", wallet.address⟩, [on 1, on 1, on 1, fresh 1 "sub", on 1]),
   (.runInline "sub", [on 4, on 4, fresh 4 "pay", on 4, on 4, on 4, on 4]),
   (.pause "sub", [on 4, on 4]),
   (.resume "sub", [on 4, on 4, on 4]),
   (.runInline "sub", [on 5, on 5, fresh 5 "pay2", on 5, on 5, on 5, on 5])]

/-- `BilledWhenDue` as a test. -/
def billedWhenDue (x : Step) : Bool :=
  match x.op.bills with
  | none => true
  | some id => x.trace.head?.any (fun first => (x.before.sub? id).any
      (findDueSubscriptions.condition first.env.now).selects)

theorem billedWhenDue_sound {x : Step} (h : billedWhenDue x = true) : BilledWhenDue x := by
  intro id hb
  unfold billedWhenDue at h
  rw [hb] at h
  obtain ⟨first, hfirst, hrow⟩ := (Option.any_eq_true _ _).mp h
  obtain ⟨s, hs, hsel⟩ := (Option.any_eq_true _ _).mp hrow
  exact ⟨first, s, hfirst, hs, hsel⟩

/-- The days 1 and 4 are paid. -/
theorem paid_periods_disjoint_shop :
    ∃ xs w, History (serial (cfg true)) (fun _ x => BilledWhenDue x) (opening plan) xs w
      ∧ w.payments.rows.map (fun p => (p.status, p.billingPeriodStart, p.billingPeriodEnd))
        = [(.SUCCESS, day 1, day 2), (.SUCCESS, day 4, day 5)]
      ∧ ∀ p ∈ w.payments, ∀ q ∈ w.payments, p.subscriptionId = "sub" →
        q.subscriptionId = "sub" → p ≠ q → Disjoint p.period q.period := by
  have hrun : ((serial (cfg true)).play (fun _ x => billedWhenDue x) lateThenResumed []
      (opening plan)).map (fun r => (decide (Clocked r.1), r.2.payments.rows.map
        (fun p => (p.status, p.billingPeriodStart, p.billingPeriodEnd))))
      = some (true, [(.SUCCESS, day 1, day 2), (.SUCCESS, day 4, day 5)]) := by
    decide +kernel
  obtain ⟨⟨xs, w⟩, hplay, hres⟩ := Option.map_eq_some_iff.mp hrun
  obtain ⟨hclock, hrows⟩ := Prod.mk.inj hres
  have h : History (serial (cfg true)) (fun _ x => BilledWhenDue x) (opening plan) xs w :=
    Serial.play_history (fun _ _ => billedWhenDue_sound) .start hplay
  refine ⟨xs, w, h, hrows, paid_periods_disjoint (cfg true) (opening plan) w xs rfl rfl ?_ h
    (of_decide_eq_true hclock) "sub"⟩
  intro p hp
  rw [List.mem_singleton.mp hp]
  decide

end Scenarios

end Sorobill
