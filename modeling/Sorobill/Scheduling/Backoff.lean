/-
  Sorobill.Scheduling.Backoff
  ───────────────────────────
  **IS THE BACKOFF HONOURED?**

  `handlePaymentFailure` writes `nextRetryAt` in the payment rows;
  `findDueSubscriptions` asks for the end of the period and for flags of the
  subscription, and no query asks for `nextRetryAt`.  A retry is put off only
  when its time lies within the period that is being paid, for until the end
  of the period the subscription is not due.

    • `Honoured` — while the retry is put off, the subscription is not due;
    • `honoured_iff` — which states have it;
    • `tick_skips` — a tick enqueues nothing for a subscription that its query
      does not select;
    • `backoff_honoured` — every state has it, in every history in which no
      payment is put off beyond the end of its own period.
-/
import Sorobill.Model.Shop
import Sorobill.Rules.Bookings

namespace Sorobill

open Effect
open Relational

/-! ## §1. The claim. -/

/-- The payment of the current period of `s` is to be retried at `n`. -/
def World.RetryAt (w : World) (s : Subscription) (n : Instant) : Prop :=
  ∃ p, w.paymentByKey? s.currentKey = some p ∧ p.status = .RETRYING ∧ p.nextRetryAt = some n

/-- **The backoff is honoured**: before the retry time the subscription is not
due. -/
def Honoured (w : World) : Prop :=
  ∀ id s n t, w.sub? id = some s → w.RetryAt s n → t < n →
    (findDueSubscriptions.condition t).selects s = false

/-- The tick adds no job of `id`. -/
def AddsNoJob (id : String) (x : Step) : Prop :=
  ∀ e ∈ x.trace, ∀ name jobId, e.call ≠ .billingQueueAdd name id jobId

/-- **The condition**: a retry is put off to a time within the period of the
payment. -/
def RetriesInPeriod (x : Step) : Prop :=
  ∀ e ∈ x.trace, ∀ id data n, e.call = .paymentUpdateMany id .FAILED data →
    data.nextRetryAt = some (some n) →
    ∀ p ∈ e.before.payments, p.subscriptionId = id → p.status = .FAILED → n ≤ p.billingPeriodEnd

/-! ## §2. States. -/

/-- The scheduler would bill the subscription. -/
def Billable (s : Subscription) : Prop :=
  (s.status = .ACTIVE ∨ s.status = .PAST_DUE) ∧ s.cancelAtPeriodEnd = false ∧ s.paused = false

theorem due_iff {t : Instant} {s : Subscription} :
    (findDueSubscriptions.condition t).selects s = true ↔ Billable s ∧ s.currentPeriodEnd ≤ t := by
  unfold SubscriptionWhere.selects findDueSubscriptions.condition Billable
  simp only [List.contains_cons, List.contains_nil, Bool.or_false, Option.all_some,
    Option.all_none, Bool.and_true, Bool.and_eq_true, Bool.or_eq_true, beq_iff_eq,
    decide_eq_true_eq]
  constructor
  · rintro ⟨⟨⟨hst, hend⟩, hflag⟩, hpaused⟩
    exact ⟨⟨hst, hflag, hpaused⟩, hend⟩
  · rintro ⟨⟨hst, hflag, hpaused⟩, hend⟩
    exact ⟨⟨⟨hst, hend⟩, hflag⟩, hpaused⟩

/-- **A state honours the backoff** when no retry of a billable subscription is
put off beyond the end of the current period. -/
theorem honoured_iff {w : World} :
    Honoured w ↔ ∀ id s n, w.sub? id = some s → Billable s → w.RetryAt s n →
      n ≤ s.currentPeriodEnd := by
  constructor
  · intro h id s n hs hbill hretry
    by_contra hlate
    have hlate : s.currentPeriodEnd < n := by
      rw [Instant.lt_def]
      rw [Instant.le_def] at hlate
      omega
    -- at the end of the period the subscription is due
    have hdue := h id s n s.currentPeriodEnd hs hretry hlate
    rw [due_iff.mpr ⟨hbill, le_refl _⟩] at hdue
    cases hdue
  · intro h id s n t hs hretry ht
    by_contra hdue
    obtain ⟨hbill, hend⟩ := due_iff.mp (Bool.not_eq_false _ ▸ hdue)
    exact absurd (lt_of_lt_of_le ht ((h id s n hs hbill hretry).trans hend)) (lt_irrefl t)

/-! ## §3. Ticks. -/

/-- The contract under which no job of `id` is added. -/
def idleContract (A : CallEvent → Prop) (id : String) : Contract api Unit where
  rely := Eq
  assume _ := A
  guarantee _ e := ∀ name jobId, e.call ≠ .billingQueueAdd name id jobId
  track v _ := v

section Walk

variable {A : CallEvent → Prop} {w : World} {id : String}

/-- **A tick adds no job of a subscription that its query does not select.** -/
theorem scheduleBillingJobs_idle {s : Subscription} (hs : w.sub? id = some s)
    (hA : ∀ e, A e → e.call = .dateNow →
      (findDueSubscriptions.condition e.env.now).selects s = false) :
    Safe (idleContract A id) scheduleBillingJobs (fun _ _ _ => True) w () := by
  have hsweep : ∀ {w v}, Safe (idleContract A id) expireGracePeriods (fun _ _ _ => True) w v := by
    intro w v
    refine safe_views (K := fun _ => True) (fun _ e he _ _ => ⟨fun name jobId hcall => ?_, trivial⟩)
      trivial (expireGracePeriods_calls {})
    rw [hcall] at he
    exact Bool.false_ne_true he.1.2
  unfold scheduleBillingJobs findDueSubscriptions dateNow prisma.subscription.findMany
  rw [safe_bind, safe_bind]
  refine safe_perform.mpr (fun w₁ env₁ heq ha => ⟨fun _ _ => (nomatch ·), ?_⟩)
  obtain rfl := heq
  rcases serve_dateNow env₁ w with ⟨err, h⟩ | h
  · rw [h]
    trivial
  rw [h, andThen_ok]
  refine safe_perform.mpr (fun w₂ env₂ heq _ => ⟨fun _ _ => (nomatch ·), ?_⟩)
  obtain rfl := heq
  rcases serve_subscriptionFindMany (findDueSubscriptions.condition env₁.now) env₂ w with
    ⟨err, h⟩ | ⟨due, h, hperm⟩
  · rw [h]
    trivial
  rw [h, andThen_ok, safe_bind]
  refine safe_forEach (fun _ _ => True) (fun sub hsub w₃ v₃ _ => ?_) (fun _ _ _ => hsweep) trivial
  -- the rows of the query are not the row of `id`
  have hne : sub.id ≠ id := by
    rintro rfl
    obtain ⟨hmem, hsel⟩ := Table.mem_filter.mp (hperm.subset hsub)
    obtain rfl : s = sub := Option.some.inj (hs.symm.trans (sub?_eq_some.mpr ⟨hmem, rfl⟩))
    rw [hA _ ha rfl] at hsel
    cases hsel
  refine safe_perform.mpr (fun w₄ env₄ _ _ => ⟨fun name jobId hcall => ?_, ?_⟩)
  · cases hcall
    exact hne rfl
  · cases (api.serve _ env₄ w₄).1 <;> trivial

end Walk

theorem tick_skips {cfg : Config} {id : String} {x : Step} (hx : x.Of (serial cfg))
    (hop : x.op = .tick) {s : Subscription} (hs : x.before.sub? id = some s)
    (hdue : ∀ e ∈ x.trace, (findDueSubscriptions.condition e.env.now).selects s = false) :
    AddsNoJob id x := by
  have hruns : Runs api (x.op.body cfg) x.before x.trace x.reply x.after := hx.runs
  rw [hop] at hruns
  have hsafe : Safe (idleContract (· ∈ x.trace) id) ((fun _ => none) <$> scheduleBillingJobs :
      Service (Option HttpReply)) (fun _ _ _ => True) x.before () :=
    (scheduleBillingJobs_idle hs (fun e he _ => hdue e he)).map
  obtain ⟨hg, -⟩ := Safe.of_runs (C := idleContract (· ∈ x.trace) id) (fun _ => rfl) hruns hsafe
    (assumed_of_forall (fun e he _ => he))
  exact hg.forall (fun _ _ h => h)

/-! ## §4. Histories. -/

/-- No payment is put off beyond the end of its own period. -/
def RetriesWithin (w : World) : Prop :=
  ∀ p ∈ w.payments, ∀ n, p.nextRetryAt = some n → n ≤ p.billingPeriodEnd

/-- The payment of the current period ends with it. -/
theorem RetriesWithin.honoured {w : World} (h : RetriesWithin w) (hkeys : KeysFit w) :
    Honoured w := by
  rw [honoured_iff]
  intro id s n hs _ hretry
  obtain ⟨p, hp, -, hn⟩ := hretry
  obtain ⟨hmem, hkey⟩ := paymentByKey?_eq_some.mp hp
  have hfit := hkeys p hmem
  rw [hkey] at hfit
  obtain ⟨-, hend⟩ := billingIdempotencyKey_inj.mp hfit
  rw [hend]
  exact h p hmem n hn

/-- Retry times are written by `updateMany` only, in FAILED rows. -/
def Call.keepsRetryTime : Call → Prop
  | .paymentUpdate _ data => data.nextRetryAt = none
  | .paymentUpdateMany _ status _ => status = .FAILED
  | _ => True

theorem Call.isWebhook.keepsRetryTime {c : Call} (h : c.isWebhook) : c.keepsRetryTime := by
  cases c <;> first | exact h.elim | trivial

theorem Call.recordsCharge.keepsRetryTime {pid : String} {c : Call} (h : c.recordsCharge pid) :
    c.keepsRetryTime := by
  cases c <;> first | exact h.2.2 | exact h.elim | trivial

theorem Call.isOrdinary.keepsRetryTime {may : Permissions} {c : Call} (h : c.isOrdinary may) :
    c.keepsRetryTime := by
  cases c <;> first | exact h.elim | trivial

section Executions

variable {cfg : Config} {x : Step}

theorem handlePaymentFailure_keepsRetryTime (sub : SubscriptionWithPlan) (pid : String) :
    Calls api Call.keepsRetryTime (handlePaymentFailure cfg sub pid) := by
  unfold handlePaymentFailure
  dsimp only
  split
  · refine calls_bind (fun now => calls_bind (fun _ => ?_) (calls_perform trivial))
      (calls_perform trivial)
    exact (emitWebhookEvent_calls _ _ _).mono (fun _ h => h.keepsRetryTime)
  · refine calls_bind (fun now => calls_bind (fun _ => ?_) (calls_perform rfl))
      (calls_perform trivial)
    exact calls_bind (fun _ => calls_pure) (calls_perform trivial)

theorem processBillingCycle_keepsRetryTime (id : String) :
    Calls api Call.keepsRetryTime (processBillingCycle cfg id) := by
  unfold processBillingCycle prisma.subscription.findUniqueOrThrow
  refine calls_bind (fun sub => ?_) (calls_bind (fun found => ?_) (calls_perform trivial))
  · split
    · exact calls_pure
    · refine rest_calls_of (fun _ => trivial) trivial (fun _ _ => ?_) ?_ (fun _ _ _ => ?_)
        (handlePaymentFailure_keepsRetryTime sub)
      · exact (chargePayment_records sub _ _).mono (fun _ h => h.keepsRetryTime)
      · exact calls_bind (fun _ => calls_pure) (calls_perform trivial)
      · exact (emitWebhookEvent_calls _ _ _).mono (fun _ h => h.keepsRetryTime)
  · cases found with
    | none => exact calls_throw
    | some sub => exact calls_pure

theorem operation_keepsRetryTime (op : Operation) :
    Calls api Call.keepsRetryTime (op.body cfg) := by
  cases hb : op.bills with
  | none => exact (operation_calls cfg op hb).mono (fun _ h => h.keepsRetryTime)
  | some id =>
      cases op with
      | runInline y =>
          exact calls_map (calls_bind (fun _ => calls_pure) (processBillingCycle_keepsRetryTime y))
      | billingJob job => exact calls_map (processBillingCycle_keepsRetryTime job.data)
      | _ => cases hb

/-- **What one call keeps.** -/
theorem retriesWithin_after {e : CallEvent} (he : e.call.keepsRetryTime)
    (hin : ∀ id data n, e.call = .paymentUpdateMany id .FAILED data →
      data.nextRetryAt = some (some n) → ∀ p ∈ e.before.payments, p.subscriptionId = id →
      p.status = .FAILED → n ≤ p.billingPeriodEnd)
    (h : RetriesWithin e.before) : RetriesWithin (e.after api) := by
  intro p hp n hn
  rcases payment_origin e hp with hp | ⟨old, hold, data, rfl, hcall | hcall⟩ | ⟨data, id, -, rfl⟩
  · exact h p hp n hn
  · rw [hcall] at he
    have hnone : data.nextRetryAt = none := he
    exact h old hold n (by simpa [PaymentData.apply, hnone] using hn)
  · rw [hcall] at he
    have hst : old.status = .FAILED := he
    rw [hst] at hcall
    -- a row that is marked gets the new time, if there is one
    rcases hdata : data.nextRetryAt with _ | _ | m
    · exact h old hold n (by simpa [PaymentData.apply, hdata] using hn)
    · exact h old hold n (by simpa [PaymentData.apply, hdata] using hn)
    · obtain rfl : m = n := by simpa [PaymentData.apply, hdata] using hn
      exact hin _ data m hcall hdata old hold rfl hst
  · cases hn

/-- **What one execution keeps.** -/
theorem execution_retriesWithin (hx : x.Of (serial cfg)) (hin : RetriesInPeriod x)
    (h : RetriesWithin x.before) : RetriesWithin x.after := by
  have hruns : Runs api (x.op.body cfg) x.before x.trace x.reply x.after := hx.runs
  have hcalls := (operation_keepsRetryTime x.op).events hruns
  exact (hruns.always h (fun e he => retriesWithin_after (hcalls e he) (hin e he))).2

end Executions

/-- **The backoff is honoured** in every history, from a store without
payments, in which every retry is put off to a time within the period of its
payment: in no state is the subscription due before the retry time, and no
tick before it adds a job. -/
theorem backoff_honoured (cfg : Config) (w₀ w : World) (xs : List Step)
    (hnone : ∀ p, p ∉ w₀.payments)
    (h : History (serial cfg) (fun _ x => RetriesInPeriod x) w₀ xs w) :
    Honoured w ∧ ∀ past x, past ++ [x] <+: xs → x.op = .tick →
      ∀ id s n, x.before.sub? id = some s → x.before.RetryAt s n →
        (∀ e ∈ x.trace, e.env.now < n) → AddsNoJob id x := by
  have hstart : RetriesWithin w₀ ∧ KeysFit w₀ :=
    ⟨fun p hp => absurd hp (hnone p), fun p hp => absurd hp (hnone p)⟩
  have hstep : ∀ x : Step, RetriesWithin x.before ∧ KeysFit x.before → x.Of (serial cfg) →
      RetriesInPeriod x → RetriesWithin x.after ∧ KeysFit x.after :=
    fun x hJ hx hin => ⟨execution_retriesWithin hx hin hJ.1, (execution_keysFit hx hJ.2).2⟩
  have hdrift : ∀ w₁ w₂, RetriesWithin w₁ ∧ KeysFit w₁ → (serial cfg).drift w₁ w₂ →
      RetriesWithin w₂ ∧ KeysFit w₂ := by
    intro w₁ w₂ hJ hd
    obtain ⟨q, -, rfl⟩ := hd
    exact hJ
  constructor
  · obtain ⟨hwithin, hkeys⟩ := h.invariant (J := fun _ w => RetriesWithin w ∧ KeysFit w) hstart
      (fun _ x hJ => hstep x hJ) (fun _ => hdrift)
    exact hwithin.honoured hkeys
  · refine h.each (J := fun _ w => RetriesWithin w ∧ KeysFit w) hstart (fun past x hJ hx hin => ?_)
      (fun _ => hdrift)
    refine ⟨fun hop id s n hs hretry hearly => ?_, hstep x hJ hx hin⟩
    exact tick_skips hx hop hs (fun e he => hJ.1.honoured hJ.2 id s n _ hs hretry (hearly e he))

/-! ## §5. Scenarios. -/

section Scenarios

open Shop

/-- A tick on day 2, and the job that it enqueues, whose charge fails. -/
def failedOnDay2 : List (Operation × List Env) :=
  [(.tick, [on 2, on 2, on 2, on 2, on 2]),
   (.billingJob enqueued, [on 2, on 2, fresh 2 "pay", on 2, on 2, rejected 2, on 2, on 2, on 2,
     on 2])]

/-- **A failed payment is due at once**: it is to be retried two hours later. -/
theorem retry_due_at_once :
    ¬ ∀ (cfg : Config) (w₀ w : World) (xs : List Step), (∀ p, p ∉ w₀.payments) →
      History (serial cfg) (fun _ _ => True) w₀ xs w → Honoured w := by
  intro hclaim
  have hrun : ((serial (cfg false)).play (fun _ _ => true) failedOnDay2 []
      (world plan sub)).bind (fun r => (r.2.sub? "sub").bind (fun s =>
        (r.2.paymentByKey? s.currentKey).map (fun p => (p.status,
          p.nextRetryAt.any (fun n => decide (day 2 < n)),
          (findDueSubscriptions.condition (day 2)).selects s))))
      = some (.RETRYING, true, true) := by
    decide +kernel
  obtain ⟨⟨xs, w⟩, hplay, hrest⟩ := Option.bind_eq_some_iff.mp hrun
  obtain ⟨s, hs, hrest⟩ := Option.bind_eq_some_iff.mp hrest
  obtain ⟨p, hp, hres⟩ := Option.map_eq_some_iff.mp hrest
  simp only [Prod.mk.injEq] at hres
  obtain ⟨hst, hretry, hdue⟩ := hres
  obtain ⟨n, hn, hlate⟩ := (Option.any_eq_true _ _).mp hretry
  have h : History (serial (cfg false)) (fun _ _ => True) (world plan sub) xs w :=
    Serial.play_history (fun _ _ _ => trivial) .start hplay
  have hskip := hclaim (cfg false) (world plan sub) w xs (fun p hp => (nomatch hp)) h "sub" s n
    (day 2) hs ⟨p, hp, hst, hn⟩ (of_decide_eq_true hlate)
  rw [hdue] at hskip
  cases hskip

/-- `RetriesInPeriod` as a test. -/
def retriesInPeriod (x : Step) : Bool :=
  x.trace.all (fun e => match e.call with
    | .paymentUpdateMany id status data =>
        status != .FAILED || match data.nextRetryAt with
          | some (some n) => e.before.payments.rows.all (fun p =>
              p.subscriptionId != id || p.status != .FAILED || decide (n ≤ p.billingPeriodEnd))
          | _ => true
    | _ => true)

theorem retriesInPeriod_sound {x : Step} (h : retriesInPeriod x = true) : RetriesInPeriod x := by
  intro e he id data n hcall hdata p hp hid hst
  have htest := List.all_eq_true.mp h e he
  rw [hcall] at htest
  simp only [hdata, bne_self_eq_false, Bool.false_or] at htest
  simpa [hid, hst] using List.all_eq_true.mp htest p hp

/-- A charge on day 1 fails, for the period that ends on day 2; the tick one
hour later passes the subscription over. -/
theorem backoff_honoured_shop :
    ∃ xs past x w, History (serial (cfg false)) (fun _ x => RetriesInPeriod x) (world plan sub) xs w
      ∧ past ++ [x] <+: xs ∧ x.op = .tick ∧ (∃ s n, x.before.sub? "sub" = some s
        ∧ x.before.RetryAt s n ∧ AddsNoJob "sub" x) ∧ Honoured w := by
  have hrun : ((serial (cfg false)).play (fun _ x => retriesInPeriod x)
      [(.runInline "sub", [on 1, on 1, fresh 1 "pay", on 1, on 1, rejected 1, on 1, on 1, on 1,
        on 1])] [] (world plan sub)).bind (fun r =>
        ((serial (cfg false)).execute .tick [on 1, on 1, on 1, on 1] r.2).bind (fun x =>
          (x.before.sub? "sub").bind (fun s => (x.before.paymentByKey? s.currentKey).map (fun p =>
            (p.status, p.nextRetryAt.any (fun n => x.trace.all (fun e => decide (e.env.now < n))),
              retriesInPeriod x)))))
      = some (.RETRYING, true, true) := by
    decide +kernel
  obtain ⟨⟨past, w⟩, hplay, hrest⟩ := Option.bind_eq_some_iff.mp hrun
  obtain ⟨x, hexec, hrest⟩ := Option.bind_eq_some_iff.mp hrest
  obtain ⟨s, hs, hrest⟩ := Option.bind_eq_some_iff.mp hrest
  obtain ⟨p, hp, hres⟩ := Option.map_eq_some_iff.mp hrest
  simp only [Prod.mk.injEq] at hres
  obtain ⟨hst, hretry, hin⟩ := hres
  obtain ⟨n, hn, hearly⟩ := (Option.any_eq_true _ _).mp hretry
  have hop := Serial.execute_op hexec
  have hxs : History (serial (cfg false)) (fun _ x => RetriesInPeriod x) (world plan sub)
      (past ++ [x]) x.after :=
    Serial.play_execute (fun _ _ => retriesInPeriod_sound) hplay hexec hin
  obtain ⟨hafter, hticks⟩ := backoff_honoured (cfg false) (world plan sub) x.after (past ++ [x])
    (fun p hp => (nomatch hp)) hxs
  exact ⟨past ++ [x], past, x, x.after, hxs, List.prefix_rfl, hop, ⟨s, n, hs, ⟨p, hp, hst, hn⟩,
    hticks past x List.prefix_rfl hop "sub" s n hs ⟨p, hp, hst, hn⟩
      (fun e he => of_decide_eq_true (List.all_eq_true.mp hearly e he))⟩, hafter⟩

end Scenarios

end Sorobill
