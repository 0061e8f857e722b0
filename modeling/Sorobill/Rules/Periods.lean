/-
  Sorobill.Rules.Periods
  ──────────────────────
  **THE PERIODS OF A SUBSCRIPTION LIE ON ONE TIMELINE.**

  Without a resume request the period of a subscription is written by
  `advancePeriod` only, from a snapshot that may be out of date.  However old
  the snapshot is, it was a period of the timeline that begins with the first
  period, and so is the period that follows it.

    • `Plan.next`, `IsPeriod` — the timeline of a plan;
    • `OnTimeline` — the stored period and the periods of all payments are
      periods of the timeline;
    • `operation_keepsTimeline` — every operation but a resume request of the
      subscription keeps it so, in whatever interleaving.
-/
import Sorobill.Library.Timeline
import Sorobill.Rules.Cycles

namespace Sorobill

open Effect
open Relational
open Timeline (IsInterval Progressive point)

/-! ## §1. The timeline of a plan. -/

/-- The end of the period that begins at `start`. -/
def Plan.next (cfg : Config) (plan : Plan) (start : Instant) : JsDate :=
  nextPeriod cfg.tz start plan.interval plan.intervalCount

/-- The `n`-th billing period of a subscription that began at `first`. -/
abbrev IsPeriod (cfg : Config) (plan : Plan) (first : Instant) (n : Nat)
    (start finish : Instant) : Prop :=
  IsInterval (plan.next cfg) first n start finish

theorem Plan.next_progressive {plan : Plan} (h : 1 ≤ plan.intervalCount) (cfg : Config) :
    Progressive (plan.next cfg) :=
  fun _ _ hnext => lt_nextPeriod h hnext

/-- The plan of a subscription that was read with its plan. -/
theorem plan_of_withPlan {w : World} {x : String} {sub : SubscriptionWithPlan}
    (h : (w.sub? x).bind w.withPlan = some sub) :
    w.plans.find? (·.id == sub.planId) = some sub.plan := by
  obtain ⟨row, -, hplan⟩ := Option.bind_eq_some_iff.mp h
  unfold World.withPlan at hplan
  obtain ⟨plan, hfound, hplan⟩ := Option.bind_eq_some_iff.mp hplan
  obtain ⟨wallet, -, hplan⟩ := Option.bind_eq_some_iff.mp hplan
  cases hplan
  exact hfound

theorem find_plan_id {w : World} {id : String} {plan : Plan}
    (h : w.plans.find? (·.id == id) = some plan) : plan.id = id :=
  beq_iff_eq.mp (Table.find?_mem h).2

/-- The plan of a stored subscription. -/
def PlanOf (w : World) (id : String) (plan : Plan) : Prop :=
  ∃ s, w.sub? id = some s ∧ w.plans.find? (·.id == s.planId) = some plan

theorem PlanOf.unique {w : World} {id : String} {plan plan' : Plan} (h : PlanOf w id plan)
    (h' : PlanOf w id plan') : plan = plan' := by
  obtain ⟨s, hs, hplan⟩ := h
  obtain ⟨s', hs', hplan'⟩ := h'
  obtain rfl : s = s' := Option.some.inj (hs.symm.trans hs')
  exact Option.some.inj (hplan.symm.trans hplan')

/-- A subscription keeps its plan. -/
theorem planOf_after (e : CallEvent) {id : String} {plan : Plan} (h : PlanOf e.before id plan) :
    PlanOf (e.after api) id plan := by
  obtain ⟨s, hs, hplan⟩ := h
  have hplans : (e.after api).plans = e.before.plans :=
    (serve_changed e.call e.env e.before).plans_eq
  rcases sub?_after e hs with hafter | ⟨data, -, -, hafter⟩
  · exact ⟨s, hafter, by rw [hplans]; exact hplan⟩
  · exact ⟨_, hafter, by rw [hplans]; exact hplan⟩

/-- The plan of a subscription that a cycle has read. -/
theorem Opened.planOf {w : World} {x : String} {sub : SubscriptionWithPlan} (h : Opened w x sub) :
    PlanOf w sub.id sub.plan := by
  have hrow := h.row
  rw [← h.id_eq] at hrow
  exact ⟨_, hrow, plan_of_withPlan h.found⟩

/-- The period that follows a point of time is later than it. -/
theorem PlanOf.next_lt {cfg : Config} {w : World} {id : String} {plan : Plan}
    (h : PlanOf w id plan) (hcounts : ∀ plan ∈ w.plans, 1 ≤ plan.intervalCount)
    {start finish : Instant} (hnext : plan.next cfg start = some finish) : start < finish := by
  obtain ⟨s, -, hplan⟩ := h
  exact Plan.next_progressive (hcounts plan (Table.find?_mem hplan).1) cfg start finish hnext

/-! ## §2. The invariant. -/

/-- **The subscription `id` and its payments are on the timeline** of `plan`
from `first` on. -/
structure OnTimeline (cfg : Config) (id : String) (plan : Plan) (first : Instant)
    (w : World) : Prop where
  planned : w.plans.find? (·.id == plan.id) = some plan
  current : ∃ s, w.sub? id = some s ∧ s.planId = plan.id
    ∧ ∃ n, IsPeriod cfg plan first n s.currentPeriodStart s.currentPeriodEnd
  booked : ∀ p ∈ w.payments, p.subscriptionId = id →
    p.idempotencyKey = billingIdempotencyKey id p.billingPeriodEnd
      ∧ ∃ n, IsPeriod cfg plan first n p.billingPeriodStart p.billingPeriodEnd

/-- The calls that write periods of the timeline only. -/
def Call.keepsTimeline (cfg : Config) (id : String) (plan : Plan) (first : Instant) :
    Call → Prop
  | .subscriptionUpdate x data => x = id →
      (data.currentPeriodStart = none ∧ data.currentPeriodEnd = none)
      ∨ ∃ n start finish, IsPeriod cfg plan first n start finish
          ∧ data.currentPeriodStart = some (some finish)
          ∧ data.currentPeriodEnd = some (plan.next cfg finish)
  | .paymentCreate data => data.subscriptionId = id →
      data.idempotencyKey = billingIdempotencyKey id data.billingPeriodEnd
        ∧ ∃ n, IsPeriod cfg plan first n data.billingPeriodStart data.billingPeriodEnd
  | _ => True

section Timelines

variable {cfg : Config} {id : String} {plan : Plan} {first : Instant}

/-- A written row is on the timeline. -/
theorem current_of_written {data : SubscriptionData} {now : Instant} {s : Subscription}
    (hvalid : data.valid = true)
    (hdata : (data.currentPeriodStart = none ∧ data.currentPeriodEnd = none)
      ∨ ∃ n start finish, IsPeriod cfg plan first n start finish
          ∧ data.currentPeriodStart = some (some finish)
          ∧ data.currentPeriodEnd = some (plan.next cfg finish))
    (hs : ∃ n, IsPeriod cfg plan first n s.currentPeriodStart s.currentPeriodEnd) :
    ∃ n, IsPeriod cfg plan first n (data.apply now s).currentPeriodStart
      (data.apply now s).currentPeriodEnd := by
  rcases hdata with ⟨hstart, hend⟩ | ⟨n, start, finish, hperiod, hstart, hend⟩
  · unfold SubscriptionData.apply
    rw [hstart, hend]
    exact hs
  · cases hnext : plan.next cfg finish with
    | none =>
        -- an Invalid Date is refused
        rw [hnext] at hend
        simp [SubscriptionData.valid, hend, validDate?] at hvalid
    | some newEnd =>
        rw [hnext] at hend
        refine ⟨n + 1, ?_⟩
        unfold SubscriptionData.apply
        rw [hstart, hend]
        exact hperiod.next hnext

/-- **What one call preserves.** -/
theorem timeline_after {e : CallEvent} (he : e.call.keepsTimeline cfg id plan first)
    (h : OnTimeline cfg id plan first e.before) : OnTimeline cfg id plan first (e.after api) := by
  obtain ⟨s, hs, hplanId, hperiod⟩ := h.current
  refine ⟨?_, ?_, fun p hp hid => ?_⟩
  · show (api.serve e.call e.env e.before).2.plans.find? _ = _
    rw [(serve_changed e.call e.env e.before).plans_eq]
    exact h.planned
  · rcases sub?_after e hs with hafter | ⟨data, hcall, hvalid, hafter⟩
    · exact ⟨s, hafter, hplanId, hperiod⟩
    · rw [hcall] at he
      exact ⟨_, hafter, hplanId, current_of_written hvalid (he rfl) hperiod⟩
  · rcases payment_origin e hp with hp | ⟨old, hold, data, rfl, -⟩ | ⟨data, x, hcall, rfl⟩
    · exact h.booked p hp hid
    · -- an update changes neither key nor period
      exact h.booked old hold hid
    · rw [hcall] at he
      exact he hid

/-- Subscriptions, payments and plans as before. -/
theorem OnTimeline.congr {w w' : World} (h : OnTimeline cfg id plan first w)
    (hplans : w'.plans = w.plans) (hsubs : w'.subscriptions = w.subscriptions)
    (hpayments : w'.payments = w.payments) : OnTimeline cfg id plan first w' := by
  refine ⟨?_, ?_, ?_⟩
  · rw [hplans]
    exact h.planned
  · unfold World.sub?
    rw [hsubs]
    exact h.current
  · rw [hpayments]
    exact h.booked

/-! ## §3. Every operation keeps the timeline. -/

/-- The contract under which every call finds the timeline and keeps it. -/
def timelineContract (cfg : Config) (id : String) (plan : Plan) (first : Instant) :
    Contract api Unit where
  rely _ _ := True
  assume _ e := OnTimeline cfg id plan first e.before
  guarantee _ e := e.call.keepsTimeline cfg id plan first
  track v _ := v

/-- A subscription that is read is read with its plan and a period of the
timeline. -/
theorem OnTimeline.read {w : World} (h : OnTimeline cfg id plan first w)
    {sub : SubscriptionWithPlan} (hfound : (w.sub? id).bind w.withPlan = some sub) :
    sub.plan = plan
      ∧ ∃ n, IsPeriod cfg plan first n sub.currentPeriodStart sub.currentPeriodEnd := by
  obtain ⟨s, hs, hplanId, hperiod⟩ := h.current
  obtain ⟨hrow, -⟩ := withPlan_eq_some hfound
  have hsame : s = sub.toSubscription := Option.some.inj (hs.symm.trans hrow)
  subst hsame
  refine ⟨?_, hperiod⟩
  have hplan := plan_of_withPlan hfound
  rw [hplanId] at hplan
  exact Option.some.inj (hplan.symm.trans h.planned)

/-- What a cycle does with a subscription it has read on the timeline. -/
theorem Call.isBilling.keepsTimeline {c : Call} {sub : SubscriptionWithPlan}
    (h : c.isBilling cfg sub) (hplan : sub.id = id → sub.plan = plan)
    (hperiod : sub.id = id →
      ∃ n, IsPeriod cfg plan first n sub.currentPeriodStart sub.currentPeriodEnd) :
    c.keepsTimeline cfg id plan first := by
  cases c with
  | subscriptionUpdate x data =>
      intro hx
      have hid : sub.id = id := h.1.symm.trans hx
      obtain ⟨n, hn⟩ := hperiod hid
      cases h.2 with
      | advance =>
          refine .inr ⟨n, _, _, hn, rfl, ?_⟩
          rw [hplan hid]
          rfl
      | pastDue => exact .inl ⟨rfl, rfl⟩
      | counted => exact .inl ⟨rfl, rfl⟩
  | paymentCreate data =>
      intro hx
      have hd : data = _ := h
      subst hd
      have hid : sub.id = id := hx
      refine ⟨?_, hperiod hid⟩
      rw [← hid]
      rfl
  | _ => trivial

/-- The subscription that the operation resumes. -/
def Operation.resumes : Operation → Option String
  | .resume id => some id
  | _ => none

/-- No payment is created, and the period of `id` is not written. -/
def Call.leavesPeriod (id : String) : Call → Prop
  | .subscriptionUpdate x data =>
      x = id → data.currentPeriodStart = none ∧ data.currentPeriodEnd = none
  | .paymentCreate _ => False
  | _ => True

theorem Call.leavesPeriod.keepsTimeline {c : Call} (h : c.leavesPeriod id) :
    c.keepsTimeline cfg id plan first := by
  cases c with
  | subscriptionUpdate x data => exact fun hx => .inl (h hx)
  | paymentCreate data => exact h.elim
  | _ => trivial

/-- **An operation that neither bills nor resumes leaves the period alone.** -/
theorem unbilled_leavesPeriod {op : Operation} (hb : op.bills = none)
    (hop : op.resumes ≠ some id) : Calls api (Call.leavesPeriod id) (op.body cfg) := by
  have hordinary : ∀ {may : Permissions} {c : Call}, c.isOrdinary may →
      (may.restarts = true → ∀ data, c ≠ .subscriptionUpdate id data) → c.leavesPeriod id := by
    intro may c h hc
    cases c with
    | subscriptionUpdate x data =>
        intro hx
        refine Amended.period h (Bool.eq_false_iff.mpr (fun hre => ?_))
        exact hc hre data (by rw [hx])
    | paymentCreate data => exact h.elim
    | _ => trivial
  by_cases hre : op.permissions.restarts = true
  · cases op with
    | resume y =>
        -- a resume request writes its own row only
        refine (calls_map (resume_calls y)).mono (fun c hc => hordinary hc.1 ?_)
        intro _ data heq
        rw [heq] at hc
        have hy : id = y := hc.2
        exact hop (by rw [hy]; rfl)
    | _ => cases hre
  · exact (operation_calls cfg op hb).mono (fun c hc => hordinary hc (fun h => absurd h hre))

/-- **Every operation but a resume request of `id` keeps the timeline.** -/
theorem operation_keepsTimeline {op : Operation} (hop : op.resumes ≠ some id) (w : World) :
    Safe (timelineContract cfg id plan first) (op.body cfg) (fun _ _ _ => True) w () := by
  have hframe : ∀ {α : Type} {p : Service α} {F : Call → Prop} {w : World}, Calls api F p →
      (∀ c, F c → c.keepsTimeline cfg id plan first) →
      Safe (timelineContract cfg id plan first) p (fun _ _ _ => True) w () :=
    fun hp hF => safe_frame (R := fun _ _ => True) (fun _ _ _ => trivial) (fun _ => trivial)
      (fun _ _ _ _ _ => trivial) (fun _ e he _ => ⟨hF e.call he, trivial⟩) hp
  cases hb : op.bills with
  | none => exact hframe (unbilled_leavesPeriod hb hop) (fun c hc => hc.keepsTimeline)
  | some x =>
      refine safe_billing hb (safe_reading (fun w' env _ htime => ⟨trivial, fun sub hopen => ?_⟩))
      apply hframe (rest_calls sub)
      intro c hc
      have hread : sub.id = id → sub.plan = plan
          ∧ ∃ n, IsPeriod cfg plan first n sub.currentPeriodStart sub.currentPeriodEnd := by
        intro hid
        have hfound := hopen.found
        rw [← hopen.id_eq, hid] at hfound
        exact htime.read hfound
      exact hc.keepsTimeline (fun hid => (hread hid).1) (fun hid => (hread hid).2)

/-- **An uninterrupted execution keeps the timeline.** -/
theorem execution_keepsTimeline {x : Step} (hx : x.Of (serial cfg))
    (hop : x.op.resumes ≠ some id) (h : OnTimeline cfg id plan first x.before) :
    OnTimeline cfg id plan first x.after :=
  (Safe.of_runs_keeping (C := timelineContract cfg id plan first)
    (J := fun _ w => OnTimeline cfg id plan first w) (fun _ => trivial) (fun _ _ h => h)
    (fun _ _ h hcall => timeline_after hcall h) hx.runs h (operation_keepsTimeline hop _)).2.1

end Timelines

end Sorobill
