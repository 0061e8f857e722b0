/-
  Sorobill.Charging.Tiling
  ────────────────────────
  **THE PAID PERIODS TILE THE TIMELINE.**

  A cycle advances the period past a payment that is SUCCESS, and nothing but
  a resume request writes the period otherwise.  Whatever fails on the way,
  the paid periods are those before the current one, and the current one when
  its payment is SUCCESS and its advance is still to come.

    • `Tiles` — the statement: paid periods, and the current period;
    • `Tiling` — the invariant, by the place of the current period;
    • `unbilled_tiling`, `billing_tiling` — what one execution keeps;
    • `paid_periods_tile` — every history without a resume request.
-/
import Sorobill.Model.Shop
import Sorobill.Rules.Requests
import Sorobill.Rules.Settling

namespace Sorobill

open Effect
open Relational
open Timeline (IsInterval Progressive point)

/-! ## §1. Statements. -/

/-- The SUCCESS payments of a subscription, sorted by `billingPeriodEnd`. -/
def World.paidInOrder (w : World) (id : String) : List Payment :=
  (w.payments.filter (fun p => p.subscriptionId == id && p.status == .SUCCESS)).insertionSort
    (fun p q => p.billingPeriodEnd ≤ q.billingPeriodEnd)

/-- **The paid periods are the first ones of the timeline**, one by one, and
the current period follows them, or is the last of them. -/
structure Tiles (cfg : Config) (id : String) (plan : Plan) (first : Instant) (w : World)
    (s : Subscription) : Prop where
  paid : ∀ i p, (w.paidInOrder id)[i]? = some p →
    IsPeriod cfg plan first i p.billingPeriodStart p.billingPeriodEnd
  current : point (plan.next cfg) first (w.paidInOrder id).length = some s.currentPeriodStart
    ∨ ∃ n, (w.paidInOrder id).length = n + 1
        ∧ point (plan.next cfg) first n = some s.currentPeriodStart ∧ w.isPaid s.currentKey

/-- The `i`-th period is paid. -/
def PaidPeriod (cfg : Config) (id : String) (plan : Plan) (first : Instant) (w : World)
    (i : Nat) : Prop :=
  ∃ p ∈ w.payments, p.subscriptionId = id ∧ p.status = .SUCCESS
    ∧ IsPeriod cfg plan first i p.billingPeriodStart p.billingPeriodEnd

/-- **The invariant**: the current period is the `k`-th; those before it are
paid, and there is no payment for a later one. -/
structure Tiling (cfg : Config) (id : String) (plan : Plan) (first : Instant) (w : World) :
    Prop where
  timeline : OnTimeline cfg id plan first w
  current : ∃ s k, w.sub? id = some s
    ∧ IsPeriod cfg plan first k s.currentPeriodStart s.currentPeriodEnd
    ∧ (∀ i < k, PaidPeriod cfg id plan first w i)
    ∧ ∀ p ∈ w.payments, p.subscriptionId = id → ∀ i,
        IsPeriod cfg plan first i p.billingPeriodStart p.billingPeriodEnd → i ≤ k

/-! ## §2. From the invariant to the statement. -/

section Statement

variable {cfg : Config} {id : String} {plan : Plan} {first : Instant} {w : World}

theorem mem_paidInOrder {p : Payment} :
    p ∈ w.paidInOrder id ↔ p ∈ w.payments ∧ p.subscriptionId = id ∧ p.status = .SUCCESS := by
  unfold World.paidInOrder
  rw [List.mem_insertionSort, Table.mem_filter, Bool.and_eq_true, beq_iff_eq, beq_iff_eq]

theorem paidInOrder_sorted :
    (w.paidInOrder id).Pairwise (fun p q => p.billingPeriodEnd ≤ q.billingPeriodEnd) := by
  have : Std.Total (fun p q : Payment => p.billingPeriodEnd ≤ q.billingPeriodEnd) :=
    ⟨fun p q => Int.le_total p.billingPeriodEnd.ms q.billingPeriodEnd.ms⟩
  have : IsTrans Payment (fun p q => p.billingPeriodEnd ≤ q.billingPeriodEnd) :=
    ⟨fun _ _ _ => le_trans⟩
  exact List.pairwise_insertionSort _ _

/-- Two payments of a subscription end at different times. -/
theorem OnTimeline.distinct_ends (h : OnTimeline cfg id plan first w) :
    (w.paidInOrder id).Pairwise (fun p q => p.billingPeriodEnd ≠ q.billingPeriodEnd) := by
  refine ((List.perm_insertionSort _ _).pairwise_iff (fun hne => hne.symm)).mpr ?_
  refine List.Pairwise.imp_of_mem (fun {p q} hp hq hclash hends => ?_)
    (w.payments.distinct.filter _)
  obtain ⟨hp, hpid⟩ := Table.mem_filter.mp hp
  obtain ⟨hq, hqid⟩ := Table.mem_filter.mp hq
  have hpid := beq_iff_eq.mp (Bool.and_eq_true_iff.mp hpid).1
  have hqid := beq_iff_eq.mp (Bool.and_eq_true_iff.mp hqid).1
  -- the same end would be the same key
  refine hclash (.inr (.inl ?_))
  rw [(h.booked p hp hpid).1, (h.booked q hq hqid).1, hends]

/-- The payment of the current period has the place of the current period. -/
theorem OnTimeline.isPaid_iff (h : OnTimeline cfg id plan first w) (hkeys : KeysFit w)
    (hstep : Progressive (plan.next cfg)) {s : Subscription} (hid : s.id = id) {k : Nat}
    (hk : IsPeriod cfg plan first k s.currentPeriodStart s.currentPeriodEnd) :
    w.isPaid s.currentKey ↔ PaidPeriod cfg id plan first w k := by
  constructor
  · intro hpaid
    obtain ⟨p, hp, hst⟩ := hpaid
    obtain ⟨hmem, hkey⟩ := paymentByKey?_eq_some.mp hp
    -- the key names the subscription and the end of the period
    obtain ⟨hsub, hend⟩ := billingIdempotencyKey_inj.mp ((hkeys p hmem).symm.trans hkey)
    have hsub : p.subscriptionId = id := hsub.trans hid
    obtain ⟨-, n, hn⟩ := h.booked p hmem hsub
    obtain rfl : n = k := (hend ▸ hn).index_eq hstep hk
    exact ⟨p, hmem, hsub, hst, hn⟩
  · intro hpaid
    obtain ⟨p, hmem, hsub, hst, hperiod⟩ := hpaid
    have hend : p.billingPeriodEnd = s.currentPeriodEnd :=
      Option.some.inj (hperiod.point_succ.symm.trans hk.point_succ)
    refine ⟨p, paymentByKey?_eq_some.mpr ⟨hmem, ?_⟩, hst⟩
    rw [hkeys p hmem, hsub, hend, Subscription.currentKey, hid]

/-- The payments of the first `n` periods, when all of them are paid. -/
theorem OnTimeline.tiles (h : OnTimeline cfg id plan first w)
    (hstep : Progressive (plan.next cfg)) {n : Nat}
    (hpaid : ∀ i < n, PaidPeriod cfg id plan first w i)
    (hbelow : ∀ i, PaidPeriod cfg id plan first w i → i < n) :
    (w.paidInOrder id).length = n ∧ ∀ i p, (w.paidInOrder id)[i]? = some p →
      IsPeriod cfg plan first i p.billingPeriodStart p.billingPeriodEnd := by
  refine Timeline.tiles_of_sorted hstep paidInOrder_sorted h.distinct_ends (fun p hp => ?_)
    (fun i hi => ?_)
  · obtain ⟨hmem, hid, hst⟩ := mem_paidInOrder.mp hp
    obtain ⟨-, i, hi⟩ := h.booked p hmem hid
    exact ⟨i, hbelow i ⟨p, hmem, hid, hst, hi⟩, hi⟩
  · obtain ⟨p, hmem, hid, hst, hperiod⟩ := hpaid i hi
    exact ⟨p, mem_paidInOrder.mpr ⟨hmem, hid, hst⟩, hperiod⟩

/-- **What the invariant says.** -/
theorem Tiling.tiles (h : Tiling cfg id plan first w) (hkeys : KeysFit w)
    (hstep : Progressive (plan.next cfg)) {s : Subscription} (hs : w.sub? id = some s) :
    Tiles cfg id plan first w s := by
  obtain ⟨t, k, ht, hk, hbefore, hlater⟩ := h.current
  obtain rfl : t = s := Option.some.inj (ht.symm.trans hs)
  have hle : ∀ i, PaidPeriod cfg id plan first w i → i ≤ k := by
    intro i hi
    obtain ⟨p, hmem, hid, -, hperiod⟩ := hi
    exact hlater p hmem hid i hperiod
  have hiff := h.timeline.isPaid_iff hkeys hstep (sub?_id hs) hk
  by_cases hpaid : w.isPaid t.currentKey
  · -- the current period is paid, and its advance is still to come
    obtain ⟨hlength, htiles⟩ := h.timeline.tiles hstep (n := k + 1) (fun i hi => by
      rcases Nat.lt_succ_iff_lt_or_eq.mp hi with hlt | rfl
      · exact hbefore i hlt
      · exact hiff.mp hpaid) (fun i hi => Nat.lt_succ_of_le (hle i hi))
    exact ⟨htiles, .inr ⟨k, hlength, hk.start, hpaid⟩⟩
  · obtain ⟨hlength, htiles⟩ := h.timeline.tiles hstep (n := k) hbefore (fun i hi => by
      refine lt_of_le_of_ne (hle i hi) (fun heq => hpaid (hiff.mpr ?_))
      exact heq ▸ hi)
    refine ⟨htiles, .inl ?_⟩
    rw [hlength]
    exact hk.start

end Statement

/-! ## §3. One execution. -/

section Executions

variable {cfg : Config} {id : String} {plan : Plan} {first : Instant} {x : Step}

/-- **A new subscription** begins the timeline. -/
theorem created_tiling (hx : x.Of (serial cfg)) {s : Subscription}
    (hnone : x.before.sub? id = none) (hs : x.after.sub? id = some s)
    (hpayments : ∀ p ∈ x.after.payments, p.subscriptionId ≠ id) :
    ∃ plan ∈ x.before.plans, Tiling cfg id plan s.currentPeriodStart x.after := by
  obtain ⟨plan, hplan, hnext⟩ := (created_of_new hx hnone hs).period
  have hid : plan.id = s.planId := find_plan_id hplan
  have hperiod : IsPeriod cfg plan s.currentPeriodStart 0 s.currentPeriodStart
      s.currentPeriodEnd := ⟨rfl, hnext⟩
  refine ⟨plan, (Table.find?_mem hplan).1, ⟨?_, ⟨s, hs, hid.symm, 0, hperiod⟩,
    fun p hp hsub => absurd hsub (hpayments p hp)⟩, s, 0, hs, hperiod, ?_, ?_⟩
  · rw [plans_after hx, hid]
    exact hplan
  · intro i hi
    exact absurd hi (Nat.not_lt_zero i)
  · exact fun p hp hsub => absurd hsub (hpayments p hp)

/-- **Without a billing cycle** period and payments stay. -/
theorem unbilled_tiling (hx : x.Of (serial cfg)) (hb : x.op.bills = none)
    (hop : x.op.resumes ≠ some id) (h : Tiling cfg id plan first x.before) :
    Tiling cfg id plan first x.after := by
  obtain ⟨s, k, hs, hk, hbefore, hlater⟩ := h.current
  have hpayments := (unbilled_same hx hb).payments
  obtain ⟨s', hs', hkept⟩ := row_after_unbilled hx hb hs
  have hsame : SameTerms s s' := by
    rcases hkept with hsame | hnew
    · exact hsame
    · -- a resume request of the subscription itself is excluded
      refine absurd ?_ hop
      rw [hnew.op_eq, sub?_id hs]
      rfl
  refine ⟨execution_keepsTimeline hx hop h.timeline, s', k, hs', ?_, ?_, ?_⟩
  · rw [hsame.start, hsame.finish]
    exact hk
  · unfold PaidPeriod
    rw [hpayments]
    exact hbefore
  · rw [hpayments]
    exact hlater

/-- **With a billing cycle** the period is advanced when it is paid. -/
theorem billing_tiling {y : String} (hx : x.Of (serial cfg)) (hb : x.op.bills = some y)
    (hop : x.op.resumes ≠ some id) (hkeys : KeysFit x.before)
    (hstep : Progressive (plan.next cfg)) (h : Tiling cfg id plan first x.before) :
    Tiling cfg id plan first x.after := by
  obtain ⟨s, k, hs, hk, hbefore, hlater⟩ := h.current
  have htimeline := execution_keepsTimeline hx hop h.timeline
  have hkeys' := (execution_keysFit hx hkeys).2
  -- what was paid stays paid
  have hpaid : ∀ i < k, PaidPeriod cfg id plan first x.after i := by
    intro i hi
    obtain ⟨p, hp, hid, hst, hperiod⟩ := hbefore i hi
    obtain ⟨p', hp', hsame, hst'⟩ := success_after_billing hx hb hp hst
    refine ⟨p', hp', hsame.subscriptionId.trans hid, hst', ?_⟩
    rw [hsame.start, hsame.finish]
    exact hperiod
  -- and there is no payment for a period after the one that was current
  have hnolater : ∀ p ∈ x.after.payments, p.subscriptionId = id → ∀ i,
      IsPeriod cfg plan first i p.billingPeriodStart p.billingPeriodEnd → i ≤ k := by
    intro p hp hid i hi
    rcases payment_carried hx hb hp hid with ⟨old, hmem, hold, hsame⟩ | ⟨-, t, ht, hbill⟩
    · rw [hsame.start, hsame.finish] at hi
      exact hlater old hmem hold i hi
    · obtain rfl : t = s := Option.some.inj (ht.symm.trans hs)
      rw [hbill.finish] at hi
      exact (hi.index_eq hstep hk).le
  obtain ⟨s', hs', hid', hperiod⟩ := row_carried hx hb hs
  rcases hperiod with hsame | ⟨sub, hnext, rfl, hpaidNow⟩
  · refine ⟨htimeline, s', k, hs', ?_, hpaid, hnolater⟩
    rw [hsame.start, hsame.finish]
    exact hk
  · -- advanced: the period that was current is paid
    have hplan : sub.plan = plan := (h.timeline.read hnext.opened.found).1
    have hfinish : plan.next cfg sub.currentPeriodEnd = some s'.currentPeriodEnd := by
      rw [← hplan]
      exact hnext.finish
    refine ⟨htimeline, s', k + 1, hs', ?_, fun i hi => ?_, fun p hp hid i hi => ?_⟩
    · rw [hnext.start]
      exact hk.next hfinish
    · rcases Nat.lt_succ_iff_lt_or_eq.mp hi with hlt | rfl
      · exact hpaid i hlt
      · exact (htimeline.isPaid_iff hkeys' hstep (sub?_id hs) hk).mp hpaidNow
    · exact (hnolater p hp hid i hi).trans (Nat.le_succ k)

end Executions

/-! ## §4. Histories. -/

/-- The subscription `id` is not there yet, and has no payments. -/
structure Absent (id : String) (w : World) : Prop where
  row : w.sub? id = none
  payments : ∀ p ∈ w.payments, p.subscriptionId ≠ id

/-- The subscription was created by an execution of the past, and its paid
periods tile the timeline from then on. -/
def TilingSince (cfg : Config) (id : String) (xs : List Step) (w : World) : Prop :=
  ∃ x s₀, ∃ plan ∈ w.plans, x ∈ xs ∧ x.before.sub? id = none ∧ x.after.sub? id = some s₀
    ∧ Tiling cfg id plan s₀.currentPeriodStart w

section Histories

variable {cfg : Config} {id : String} {past : List Step} {x : Step}

/-- Until a create request inserts it, a subscription stays absent. -/
theorem absent_after (hx : x.Of (serial cfg)) (h : Absent id x.before) :
    Absent id x.after ∨ TilingSince cfg id (past ++ [x]) x.after := by
  have hpayments : ∀ p ∈ x.after.payments, p.subscriptionId ≠ id := by
    intro p hp hid
    cases hb : x.op.bills with
    | none =>
        rw [(unbilled_same hx hb).payments] at hp
        exact h.payments p hp hid
    | some y =>
        rcases payment_carried hx hb hp hid with ⟨old, hmem, hold, -⟩ | ⟨-, s, hs, -⟩
        · exact h.payments old hmem hold
        · rw [h.row] at hs
          cases hs
  cases hs : x.after.sub? id with
  | none => exact .inl ⟨hs, hpayments⟩
  | some s₀ =>
      obtain ⟨plan, hplan, htiling⟩ := created_tiling hx h.row hs hpayments
      rw [← plans_after hx] at hplan
      exact .inr ⟨x, s₀, plan, hplan, by simp, h.row, hs, htiling⟩

/-- **What one execution keeps.** -/
theorem tilingSince_after (hx : x.Of (serial cfg)) (hop : x.op.resumes ≠ some id)
    (hkeys : KeysFit x.before) (hcounts : ∀ plan ∈ x.before.plans, 1 ≤ plan.intervalCount)
    (h : TilingSince cfg id past x.before) : TilingSince cfg id (past ++ [x]) x.after := by
  obtain ⟨y, s₀, plan, hplan, hy, hbefore, hafter, htiling⟩ := h
  have hstep : Progressive (plan.next cfg) := Plan.next_progressive (hcounts plan hplan) cfg
  refine ⟨y, s₀, plan, ?_, List.mem_append_left _ hy, hbefore, hafter, ?_⟩
  · rw [plans_after hx]
    exact hplan
  · cases hb : x.op.bills with
    | none => exact unbilled_tiling hx hb hop htiling
    | some z => exact billing_tiling hx hb hop hkeys hstep htiling

end Histories

/-- **Paid periods tile the timeline**: in every history of operations, with
failures at any call, in which the subscription is created and not resumed,
its SUCCESS payments, sorted by their ends, are the first periods from the
start at creation on, and the current period follows them, or is the last of
them; and no charge is attempted for a period whose payment is SUCCESS. -/
theorem paid_periods_tile (cfg : Config) (id : String) (w₀ w : World) (xs : List Step)
    (hnone : w₀.sub? id = none) (hpayments : w₀.payments.rows = [])
    (hcounts : ∀ plan ∈ w₀.plans, 1 ≤ plan.intervalCount)
    (h : History (serial cfg) (fun _ x => x.op.resumes ≠ some id) w₀ xs w) :
    (∀ s, w.sub? id = some s → ∃ x s₀ plan, x ∈ xs ∧ x.before.sub? id = none
        ∧ x.after.sub? id = some s₀ ∧ PlanOf w id plan
        ∧ Tiles cfg id plan s₀.currentPeriodStart w s)
      ∧ ∀ x ∈ xs, x.op.bills = some id → ∀ sub, Opened x.before id sub →
          ∀ e ∈ x.trace, e.call.isCharging → ¬ e.before.isPaid sub.currentKey := by
  have hnopayment : ∀ p, p ∉ w₀.payments := Table.not_mem_of_nil hpayments
  -- either the subscription is not there yet, or its payments tile its periods
  have hJ : KeysFit w ∧ (∀ plan ∈ w.plans, 1 ≤ plan.intervalCount)
      ∧ (Absent id w ∨ TilingSince cfg id xs w) := by
    refine h.invariant (J := fun xs w => KeysFit w ∧ (∀ plan ∈ w.plans, 1 ≤ plan.intervalCount)
      ∧ (Absent id w ∨ TilingSince cfg id xs w)) ?_ ?_ ?_
    · exact ⟨fun p hp => absurd hp (hnopayment p), hcounts,
        .inl ⟨hnone, fun p hp => absurd hp (hnopayment p)⟩⟩
    · -- one step: an absent subscription may be created, a present one goes on tiling
      intro past x hJ hx hop
      obtain ⟨hkeys, hcounts, hsub⟩ := hJ
      refine ⟨(execution_keysFit hx hkeys).2, ?_, ?_⟩
      · rw [plans_after hx]
        exact hcounts
      · rcases hsub with habsent | htiling
        · exact absent_after hx habsent
        · exact .inr (tilingSince_after hx hop hkeys hcounts htiling)
    · intro past w₁ _ hJ h
      obtain ⟨q, -, rfl⟩ := h
      obtain ⟨hkeys, hcounts, habsent | ⟨x, s₀, plan, hplan, hx, hb, ha, htiling⟩⟩ := hJ
      · exact ⟨hkeys, hcounts, .inl ⟨habsent.row, habsent.payments⟩⟩
      · refine ⟨hkeys, hcounts, .inr ⟨x, s₀, plan, hplan, hx, hb, ha, ?_, ?_⟩⟩
        · exact htiling.timeline.congr rfl rfl rfl
        · exact htiling.current
  obtain ⟨hkeys, hcounts, hsub⟩ := hJ
  refine ⟨fun s hs => ?_, fun x hx hb sub hopen => billing_unpaid (h.of_mem hx) hb hopen⟩
  rcases hsub with habsent | ⟨x, s₀, plan, hplan, hx, hbefore, hafter, htiling⟩
  · rw [habsent.row] at hs
    cases hs
  · refine ⟨x, s₀, plan, hx, hbefore, hafter, ?_, ?_⟩
    · obtain ⟨t, ht, hplanId, -⟩ := htiling.timeline.current
      exact ⟨t, ht, by rw [hplanId]; exact htiling.timeline.planned⟩
    · exact htiling.tiles hkeys (Plan.next_progressive (hcounts plan hplan) cfg) hs

/-! ## §5. Scenarios. -/

section Scenarios

open Shop

/-- A failed charge on day 2, then one that is paid and whose advance is
rejected; the period is advanced on day 3, and the next one paid. -/
def failedThenPaid : List (Operation × List Env) :=
  [(.createSubscription ⟨"plan", wallet.address⟩, [on 1, on 1, on 1, fresh 1 "sub", on 1]),
   (.runInline "sub", [on 2, on 2, fresh 2 "pay", rejected 2, on 2, on 2, on 2]),
   (.runInline "sub", [on 2, on 2, on 2, on 2, rejected 2, on 2, on 2, on 2]),
   (.runInline "sub", [on 3, on 3, on 3]),
   (.runInline "sub", [on 3, on 3, fresh 3 "pay2", on 3, on 3, on 3, on 3])]

/-- Two days are paid, and the third is current. -/
theorem paid_periods_tile_shop :
    ∃ xs w s, History (serial (cfg true)) (fun _ x => x.op.resumes ≠ some "sub")
        (opening plan) xs w
      ∧ (w.paidInOrder "sub").length = 2 ∧ w.sub? "sub" = some s
      ∧ ∃ x s₀ plan, x ∈ xs ∧ x.before.sub? "sub" = none ∧ x.after.sub? "sub" = some s₀
        ∧ PlanOf w "sub" plan ∧ Tiles (cfg true) "sub" plan s₀.currentPeriodStart w s := by
  have hrun : ((serial (cfg true)).play (fun _ x => decide (x.op.resumes ≠ some "sub"))
      failedThenPaid [] (opening plan)).map
        (fun r => ((r.2.paidInOrder "sub").length, (r.2.sub? "sub").isSome))
      = some (2, true) := by
    decide +kernel
  obtain ⟨⟨xs, w⟩, hplay, hres⟩ := Option.map_eq_some_iff.mp hrun
  obtain ⟨hlength, hsome⟩ := Prod.mk.inj hres
  obtain ⟨s, hs⟩ := Option.isSome_iff_exists.mp hsome
  have h : History (serial (cfg true)) (fun _ x => x.op.resumes ≠ some "sub") (opening plan)
      xs w := Serial.play_history (fun _ _ h => of_decide_eq_true h) .start hplay
  refine ⟨xs, w, s, h, hlength, hs, (paid_periods_tile (cfg true) "sub" (opening plan) w xs rfl
    rfl ?_ h).1 s hs⟩
  intro p hp
  rw [List.mem_singleton.mp hp]
  decide

end Scenarios

end Sorobill
