/-
  Sorobill.Lifecycle.Prolonging
  ─────────────────────────────
  **CAN A GRACE PERIOD BE PROLONGED?**

  The branch of `handlePaymentFailure` that makes a subscription PAST_DUE is
  taken again by every later failure: `retryCount` stays at the bound, and the
  branch does not ask whether the subscription is PAST_DUE already.

    • `graceAtEntry` — the grace period that the history tells of: the one set
      when the subscription became PAST_DUE;
    • `sweep_cancels` — a sweep that completes cancels a subscription whose
      grace period is over at all times it reads;
    • `grace_not_prolonged` — grace period and cancellation, in every history
      in which the cycles of a subscription that is PAST_DUE with its retries
      used up are paid or hindered.
-/
import Sorobill.Lifecycle.Grace
import Sorobill.Rules.Hindrances
import Sorobill.Rules.Ticks

namespace Sorobill

open Effect
open Relational

/-! ## §1. The claim. -/

/-- The grace period of the row. -/
def World.graceOf (w : World) (id : String) : Option Instant :=
  (w.sub? id).bind (·.gracePeriodEndsAt)

theorem pastDue_found {w : World} {id : String} (h : w.pastDue id = true) :
    ∃ s, w.sub? id = some s ∧ s.status = .PAST_DUE := by
  obtain ⟨s, hs, hst⟩ := (Option.any_eq_true _ _).mp h
  exact ⟨s, hs, beq_iff_eq.mp hst⟩

/-- The execution leaves `id` PAST_DUE as it was, with no successful payment. -/
def staysPastDue (id : String) (x : Step) : Bool :=
  x.before.pastDue id && outcome id x != some true

/-- One more execution: the grace period is the one that is set when the
subscription becomes PAST_DUE. -/
def trackGrace (id : String) (v : Option Instant) (x : Step) : Option Instant :=
  if x.after.pastDue id then
    if staysPastDue id x then v else x.after.graceOf id
  else none

/-- **The grace period set when `id` last became PAST_DUE.** -/
def graceAtEntry (id : String) (xs : List Step) : Option Instant := xs.foldl (trackGrace id) none

theorem graceAtEntry_append (id : String) (xs : List Step) (x : Step) :
    graceAtEntry id (xs ++ [x]) = trackGrace id (graceAtEntry id xs) x := by
  simp [graceAtEntry]

/-- **The claim for one execution**: a sweep that completes, and reads no time
before the end of the grace period set at the entry, cancels. -/
def CancelsInTime (id : String) (past : List Step) (x : Step) : Prop :=
  x.op.sweeps = true → (∃ reply, x.reply = .ok reply) → x.before.pastDue id = true →
    ∀ g, graceAtEntry id past = some g → (∀ e ∈ x.trace, g ≤ e.env.now) →
      ∃ s, x.after.sub? id = some s ∧ s.status = .CANCELLED

/-- **The condition**: a cycle that finds the subscription PAST_DUE and its
retries used up, and does not end with its period paid, is hindered. -/
def EntersOnce (cfg : Config) (id : String) (x : Step) : Prop :=
  x.op.bills = some id → staysPastDue id x = true → ∀ sub, Opened x.before id sub →
    cfg.billing.maxRetries ≤ sub.retryCount + 1 → ∃ e ∈ x.trace, hinders e = true

/-! ## §2. Sweeps that complete. -/

section Sweep

variable {A : CallEvent → Prop} {w : World} {v : Log} {id : String}

/-- The row is cancelled, or it is still to be reached. -/
def Reached (id : String) (left : List Subscription) (w : World) : Prop :=
  ∃ s, w.sub? id = some s ∧ (s.status = .CANCELLED ∨ id ∈ left.map (·.id))

/-- One round of the loop. -/
theorem expire_reached {s : Subscription} {left : List Subscription}
    (h : Reached id (s :: left) w) :
    Safe (sequential A) (expireGracePeriods.cancel s)
      (fun r w' _ => ∀ a, r = .ok a → Reached id left w') w v := by
  obtain ⟨r, hr, hreached⟩ := h
  by_cases hid : s.id = id
  · -- the round of the row itself
    subst hid
    unfold expireGracePeriods.cancel
    rw [safe_bind]
    refine seq_dateNow (fun _ _ _ => (nomatch ·)) (fun env _ => ?_)
    rw [andThen_ok, safe_bind]
    refine seq_updateRow hr (fun _ _ => (nomatch ·)) (fun now a w₁ _ hrows => ?_)
    have hrow := hrows s.id
    rw [if_pos rfl] at hrow
    rw [andThen_ok]
    apply (emitWebhookEvent_ends _ _ _).mono
    intro r' w₂ v₂ hpost _ _
    have hhooks := hpost.1
    unfold SameButHooks at hhooks
    rw [hhooks]
    exact ⟨_, hrow, .inl rfl⟩
  · apply (seq_keeps (fun h => hid h.symm) ((expire_calls {} s).mono (fun _ h => h.2))).mono
    intro r' w₁ v₁ hrow _ _
    refine ⟨r, hrow.trans hr, hreached.imp_right (fun hmem => ?_)⟩
    rcases List.mem_cons.mp hmem with heq | hmem
    · exact absurd heq.symm hid
    · exact hmem

/-- **A sweep that completes cancels the rows that it finds.** -/
theorem expireGracePeriods_cancels {s : Subscription} (hs : w.sub? id = some s)
    (hA : ∀ e, A e → e.call = .dateNow →
      (expireGracePeriods.condition e.env.now).selects s = true) :
    Safe (sequential A) expireGracePeriods (fun r w' _ => ∀ a, r = .ok a →
      ∃ s', w'.sub? id = some s' ∧ s'.status = .CANCELLED) w v := by
  unfold expireGracePeriods
  rw [safe_bind]
  refine seq_dateNow (fun _ _ _ => (nomatch ·)) (fun env ha => ?_)
  rw [andThen_ok, safe_bind]
  refine seq_findMany (fun _ _ => (nomatch ·)) (fun expired hperm => ?_)
  rw [andThen_ok]
  have hfound : s ∈ expired := by
    rw [hperm.mem_iff]
    exact Table.mem_filter.mpr ⟨(sub?_eq_some.mp hs).1, hA _ ha rfl⟩
  refine safe_forEach_left (fun left w' _ => Reached id left w') (fun r left w₁ v₁ h => ?_)
    (fun w₁ v₁ h _ _ => ?_)
    ⟨s, hs, .inr (List.mem_map.mpr ⟨s, hfound, sub?_id hs⟩)⟩
  · apply (expire_reached h).mono
    intro r' w₂ v₂ h₂
    cases r' with
    | ok a => exact h₂ a rfl
    | error err => exact fun _ => (nomatch ·)
  · -- no row is left
    obtain ⟨s', hs', hst | hmem⟩ := h
    · exact ⟨s', hs', hst⟩
    · cases hmem

/-- A tick comes to its sweep with the row as it was. -/
theorem scheduleBillingJobs_cancels {s : Subscription} (hs : w.sub? id = some s)
    (hA : ∀ e, A e → e.call = .dateNow →
      (expireGracePeriods.condition e.env.now).selects s = true) :
    Safe (sequential A) scheduleBillingJobs (fun r w' _ => ∀ a, r = .ok a →
      ∃ s', w'.sub? id = some s' ∧ s'.status = .CANCELLED) w v := by
  unfold scheduleBillingJobs findDueSubscriptions
  rw [safe_bind, safe_bind]
  refine seq_dateNow (fun _ _ _ => (nomatch ·)) (fun env _ => ?_)
  rw [andThen_ok]
  refine seq_findMany (fun _ _ => (nomatch ·)) (fun due _ => ?_)
  rw [andThen_ok, safe_bind]
  refine safe_forEach (fun w' _ => w'.sub? id = some s) (fun sub _ w₁ v₁ hrow => ?_)
    (fun _ _ h => expireGracePeriods_cancels h hA) hs
  apply seq_perform.mpr
  intro env' _
  rcases serve_billingQueueAdd "process-subscription" sub.id (some (billingJobId sub)) env' w₁ with
    ⟨err, h⟩ | h
  · rw [h]
    exact fun _ => (nomatch ·)
  · rw [h]
    exact hrow

end Sweep

/-- **A sweep cancels a subscription whose grace period is over.** -/
theorem sweep_cancels {cfg : Config} {id : String} {x : Step} (hx : x.Of (serial cfg))
    (hsweep : x.op.sweeps = true) (hok : ∃ reply, x.reply = .ok reply) {s : Subscription}
    (hs : x.before.sub? id = some s) {g : Instant} (hst : s.status = .PAST_DUE)
    (hg : s.gracePeriodEndsAt = some g) (hlate : ∀ e ∈ x.trace, g ≤ e.env.now) :
    ∃ s', x.after.sub? id = some s' ∧ s'.status = .CANCELLED := by
  obtain ⟨reply, hok⟩ := hok
  have hA : ∀ e, e ∈ x.trace → e.call = .dateNow →
      (expireGracePeriods.condition e.env.now).selects s = true := by
    intro e he _
    simp [expireGracePeriods.condition, SubscriptionWhere.selects, hst, hg, hlate e he]
  have hruns : ∀ {p : Service Unit}, x.op.body cfg = (fun _ => none) <$> p →
      Safe (sequential fun e => e ∈ x.trace) p (fun r w' _ => ∀ a, r = .ok a →
        ∃ s', w'.sub? id = some s' ∧ s'.status = .CANCELLED) x.before {} →
      ∃ s', x.after.sub? id = some s' ∧ s'.status = .CANCELLED := by
    intro p hbody hsafe
    have hmapped : Safe (sequential fun e => e ∈ x.trace) (x.op.body cfg) (fun r w' _ =>
        ∀ a, r = .ok a → ∃ s', w'.sub? id = some s' ∧ s'.status = .CANCELLED) x.before {} := by
      rw [hbody]
      apply Safe.mapped
      apply hsafe.mono
      intro r w' v hpost a heq
      cases r with
      | ok u => exact hpost u rfl
      | error err => cases heq
    exact seq_runs hx.runs (fun _ he => he) hmapped reply hok
  cases hop : x.op with
  | tick => exact hruns (by rw [hop]; rfl) (scheduleBillingJobs_cancels hs hA)
  | expireGracePeriods => exact hruns (by rw [hop]; rfl) (expireGracePeriods_cancels hs hA)
  | _ =>
      rw [hop] at hsweep
      cases hsweep

/-! ## §3. One execution. -/

/-- **What holds between operations.** -/
def GraceKept (id : String) (xs : List Step) (w : World) : Prop :=
  ∀ s, w.sub? id = some s → s.status = .PAST_DUE → s.gracePeriodEndsAt = graceAtEntry id xs

section Executions

variable {cfg : Config} {id : String} {xs : List Step} {x : Step}

/-- The row has the grace period of `s` while it is PAST_DUE. -/
def SameGrace (id : String) (s : Subscription) (w : World) : Prop :=
  ∃ r, w.sub? id = some r ∧ (r.status = .PAST_DUE → r.gracePeriodEndsAt = s.gracePeriodEndsAt)

/-- A cycle with retries left keeps the grace period, or ends the stay. -/
theorem sameGrace_after_billing (hx : x.Of (serial cfg)) (hb : x.op.bills = some id)
    (hleft : ∀ sub, Opened x.before id sub → ¬ cfg.billing.maxRetries ≤ sub.retryCount + 1)
    {s : Subscription} (hs : x.before.sub? id = some s) : SameGrace id s x.after := by
  have hstep : ∀ e ∈ x.trace, SameGrace id s e.before → SameGrace id s (e.after api) := by
    intro e he h
    obtain ⟨r, hr, hgrace⟩ := h
    by_cases hrejected : isRejected e = true
    · rw [after_of_isRejected hrejected]
      exact ⟨r, hr, hgrace⟩
    rcases sub?_after e hr with hafter | ⟨data, hcall, -, hafter⟩
    · exact ⟨r, hafter, hgrace⟩
    · rcases billing_opened hx hb e he with heq | ⟨sub, hopen, hbilling⟩
      · rw [heq] at hcall
        cases hcall
      · rw [hcall] at hbilling
        refine ⟨_, hafter, ?_⟩
        cases hbilling.2 with
        | advance => exact (nomatch ·)
        | pastDue now hmax => exact absurd hmax (hleft sub hopen)
        | counted _ => exact hgrace
  have hruns : Runs api (x.op.body cfg) x.before x.trace x.reply x.after := hx.runs
  exact (hruns.always (P := SameGrace id s) ⟨s, hs, fun _ => rfl⟩ hstep).2

/-- **A cycle that does not pay keeps the grace period** unless it penalises a
subscription whose retries are used up. -/
theorem sameGrace_after_failure (hx : x.Of (serial cfg)) (hb : x.op.bills = some id)
    (honce : ∀ sub, Opened x.before id sub → cfg.billing.maxRetries ≤ sub.retryCount + 1 →
      ∃ e ∈ x.trace, hinders e = true) (hstays : staysPastDue id x = true) {s : Subscription}
    (hs : x.before.sub? id = some s) : SameGrace id s x.after := by
  by_cases hused : ∃ sub, Opened x.before id sub ∧ cfg.billing.maxRetries ≤ sub.retryCount + 1
  · obtain ⟨sub, hopen, hmax⟩ := hused
    obtain rfl : sub.toSubscription = s := Option.some.inj (hopen.row.symm.trans hs)
    rcases spared_after_billing hx hb hopen (honce sub hopen hmax) with hpaid | hrow
    · -- the cycle has not paid
      have houtcome : outcome id x = some true := by
        unfold outcome
        rw [if_pos hb, opened?_eq_some.mpr hopen, Option.map_some, decide_eq_true hpaid]
      unfold staysPastDue at hstays
      rw [houtcome] at hstays
      simp at hstays
    · exact ⟨_, hrow, fun _ => rfl⟩
  · exact sameGrace_after_billing hx hb (fun sub hopen hmax => hused ⟨sub, hopen, hmax⟩) hs

/-- An execution that bills another subscription, or none. -/
theorem sameGrace_after_other (hx : x.Of (serial cfg)) (hb : x.op.bills ≠ some id)
    {s : Subscription} (hs : x.before.sub? id = some s) : SameGrace id s x.after := by
  cases hop : x.op.bills with
  | some y =>
      have hy : id ≠ y := by
        rintro rfl
        exact hb hop
      exact ⟨s, (other_after_billing hx hop hy).trans hs, fun _ => rfl⟩
  | none =>
      obtain ⟨s', hs', hterms | hrestart⟩ := row_after_unbilled hx hop hs
      · exact ⟨s', hs', fun _ => hterms.grace⟩
      · obtain ⟨_, _, _, _, _, _, _, rfl⟩ := hrestart.period
        exact ⟨_, hs', fun _ => rfl⟩

/-- **What one execution keeps.** -/
theorem execution_graceKept (hx : x.Of (serial cfg)) (honce : EntersOnce cfg id x)
    (h : GraceKept id xs x.before) : GraceKept id (xs ++ [x]) x.after := by
  intro s' hs' hst'
  have hgraceOf : x.after.graceOf id = s'.gracePeriodEndsAt := by
    unfold World.graceOf
    rw [hs', Option.bind_some]
  rw [graceAtEntry_append, trackGrace, if_pos ((pastDue_iff hs').mpr hst')]
  split
  next hstays =>
    -- it was PAST_DUE before, and nothing was paid
    have hbefore := (Bool.and_eq_true_iff.mp hstays).1
    obtain ⟨s, hs, hst⟩ := pastDue_found hbefore
    have hkept : SameGrace id s x.after := by
      by_cases hb : x.op.bills = some id
      · exact sameGrace_after_failure hx hb (honce hb hstays) hstays hs
      · exact sameGrace_after_other hx hb hs
    obtain ⟨r, hr, hgrace⟩ := hkept
    obtain rfl : r = s' := Option.some.inj (hr.symm.trans hs')
    rw [hgrace hst']
    exact h s hs hst
  next => exact hgraceOf.symm

end Executions

/-! ## §4. Histories. -/

/-- **A grace period is not prolonged** in every history, from a store without
the subscription, in which the cycles that find the subscription PAST_DUE and
its retries used up are paid or hindered: while it is PAST_DUE, without a
successful payment, its grace period is the one set when it became so, and the
first sweep that begins after the end of it and completes cancels. -/
theorem grace_not_prolonged (cfg : Config) (id : String) (w₀ w : World) (xs : List Step)
    (hnone : w₀.sub? id = none)
    (h : History (serial cfg) (fun _ x => EntersOnce cfg id x) w₀ xs w) :
    (∀ s, w.sub? id = some s → s.status = .PAST_DUE →
      s.gracePeriodEndsAt = graceAtEntry id xs)
    ∧ ∀ past x, past ++ [x] <+: xs → CancelsInTime id past x := by
  have hstart : GraceKept id [] w₀ := by
    intro s hs
    rw [hnone] at hs
    cases hs
  have hdrift : ∀ (xs : List Step) w₁ w₂, GraceKept id xs w₁ → (serial cfg).drift w₁ w₂ →
      GraceKept id xs w₂ := by
    intro xs w₁ w₂ hJ h
    obtain ⟨q, -, rfl⟩ := h
    exact hJ
  constructor
  · exact h.invariant (J := GraceKept id) hstart
      (fun _ _ hJ hx honce => execution_graceKept hx honce hJ) hdrift
  · refine h.each (J := GraceKept id) hstart (fun past x hJ hx honce => ?_) hdrift
    refine ⟨fun hsweep hok hdue g hg hlate => ?_, execution_graceKept hx honce hJ⟩
    obtain ⟨s, hs, hst⟩ := pastDue_found hdue
    exact sweep_cancels hx hsweep hok hs hst ((hJ s hs hst).trans hg) hlate

/-! ## §5. Scenarios. -/

section Scenarios

open Shop

/-- The job of a retry request on day `n`. -/
def retryJob (n : Nat) : JobQueue.Job String :=
  ⟨s!"retry:pay:{(day n).ms}", "retry-payment", "sub", 0⟩

/-- A retry request on day `n`, and its job, whose charge fails. -/
def retryFails (n : Nat) : List (Operation × List Env) :=
  [(.retryPayment "pay", [on n, on n, on n]),
   (.billingJob (retryJob n), [on n, on n, on n, on n, rejected n, on n, on n, on n, on n])]

/-- Created on day 1, and billed in vain on the days 2, 3 and 4. -/
def pastDueOnDay4 : List (Operation × List Env) :=
  [(.createSubscription ⟨"plan", wallet.address⟩, [on 1, on 1, on 1, fresh 1 "sub", on 1]),
   (.tick, [on 2, on 2, on 2, on 2, on 2]),
   (.billingJob enqueued, [on 2, on 2, fresh 2 "pay", on 2, on 2, rejected 2, on 2, on 2, on 2,
     on 2])]
  ++ retryFails 3 ++ retryFails 4

/-- **A retry on day 5 moves the grace period**: it ended on day 6, and ends on
day 7 now. -/
theorem retry_prolongs_grace :
    ¬ ∀ (cfg : Config) (id : String) (w₀ w : World) (xs : List Step), w₀.sub? id = none →
      History (serial cfg) (fun _ _ => True) w₀ xs w → Clocked xs →
      (∀ s, w.sub? id = some s → s.status = .PAST_DUE →
        s.gracePeriodEndsAt = graceAtEntry id xs)
      ∧ ∀ past x, past ++ [x] <+: xs → CancelsInTime id past x := by
  intro hclaim
  have hrun : ((serial (cfg false)).play (fun _ _ => true) (pastDueOnDay4 ++ retryFails 5) []
      (opening plan)).bind (fun r => (r.2.sub? "sub").map (fun s =>
        (decide (Clocked r.1), s.status, s.gracePeriodEndsAt, graceAtEntry "sub" r.1)))
      = some (true, .PAST_DUE, some (day 7), some (day 6)) := by
    decide +kernel
  obtain ⟨⟨xs, w⟩, hplay, hrow⟩ := Option.bind_eq_some_iff.mp hrun
  obtain ⟨s, hs, hres⟩ := Option.map_eq_some_iff.mp hrow
  simp only [Prod.mk.injEq] at hres
  obtain ⟨hclock, hst, hgrace, hentry⟩ := hres
  have h : History (serial (cfg false)) (fun _ _ => True) (opening plan) xs w :=
    Serial.play_history (fun _ _ _ => trivial) .start hplay
  have hsame := (hclaim (cfg false) "sub" (opening plan) w xs rfl h (of_decide_eq_true hclock)).1
    s hs hst
  rw [hgrace, hentry] at hsame
  exact absurd hsame (by decide)

/-- `EntersOnce` as a test. -/
def entersOnce (cfg : Config) (id : String) (x : Step) : Bool :=
  x.op.bills != some id || !staysPastDue id x || x.trace.any hinders
    || (x.before.opened? id).all (fun sub => decide (sub.retryCount + 1 < cfg.billing.maxRetries))

theorem entersOnce_sound {cfg : Config} {id : String} {x : Step}
    (h : entersOnce cfg id x = true) : EntersOnce cfg id x := by
  intro hb hstays sub hopen hmax
  unfold entersOnce at h
  rw [hb, hstays, bne_self_eq_false, Bool.not_true, Bool.false_or, Bool.false_or,
    opened?_eq_some.mpr hopen, Option.all_some, decide_eq_false (by omega), Bool.or_false] at h
  exact List.any_eq_true.mp h

/-- Nothing is retried any more: the tick of day 6 cancels. -/
theorem grace_not_prolonged_shop :
    ∃ xs past x w,
      History (serial (cfg false)) (fun _ x => EntersOnce (cfg false) "sub" x) (opening plan) xs w
      ∧ past ++ [x] <+: xs ∧ x.op.sweeps = true ∧ graceAtEntry "sub" past = some (day 6)
      ∧ CancelsInTime "sub" past x ∧ (w.sub? "sub").map (·.status) = some .CANCELLED := by
  have hrun : ((serial (cfg false)).play (fun _ x => entersOnce (cfg false) "sub" x)
      pastDueOnDay4 [] (opening plan)).bind (fun r =>
        ((serial (cfg false)).execute .tick (List.replicate 8 (on 6)) r.2).map
          (fun x => (graceAtEntry "sub" r.1, entersOnce (cfg false) "sub" x, x.op.sweeps,
            (x.after.sub? "sub").map (·.status))))
      = some (some (day 6), true, true, some .CANCELLED) := by
    decide +kernel
  obtain ⟨⟨past, w⟩, hplay, hrest⟩ := Option.bind_eq_some_iff.mp hrun
  obtain ⟨x, hexec, hres⟩ := Option.map_eq_some_iff.mp hrest
  simp only [Prod.mk.injEq] at hres
  obtain ⟨hentry, honce, hsweep, hst⟩ := hres
  have hxs : History (serial (cfg false)) (fun _ x => EntersOnce (cfg false) "sub" x) (opening plan)
      (past ++ [x]) x.after :=
    Serial.play_execute (fun _ _ => entersOnce_sound) hplay hexec honce
  exact ⟨past ++ [x], past, x, x.after, hxs, List.prefix_rfl, hsweep, hentry,
    (grace_not_prolonged (cfg false) "sub" (opening plan) x.after (past ++ [x]) rfl hxs).2 past x
      List.prefix_rfl, hst⟩

end Scenarios

end Sorobill
