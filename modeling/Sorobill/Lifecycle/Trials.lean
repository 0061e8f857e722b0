/-
  Sorobill.Lifecycle.Trials
  ─────────────────────────
  **DO TRIALS END?**

  A subscription to a plan with trial days is created as TRIALING, with the
  period that follows the trial as its first.  The status changes only in a
  billing cycle, billing cycles are enqueued for what
  `findDueSubscriptions` returns, and that query asks for ACTIVE and PAST_DUE.

    • `Fits` — the statuses a subscription can have, with and without trial;
    • `operation_fitting` — every operation writes fitting statuses, and
      enqueues subscriptions without trial only;
    • `selected_iff_no_trial` — in every reachable state a due subscription
      is selected exactly when its plan has no trial days.
-/
import Sorobill.Model.Shop
import Sorobill.Rules.Footprints

namespace Sorobill

open Effect
open Relational

/-! ## §1. The runs. -/

/-- Requests on subscriptions, ticks, and the jobs that ticks enqueue. -/
def Operation.isScheduled : Operation → Prop
  | .createSubscription _ => True
  | .cancel _ _ => True
  | .pause _ => True
  | .resume _ => True
  | .billingJob _ => True
  | .tick => True
  | .expireGracePeriods => True
  | .retryPayment _ => False
  | .runBilling _ => False
  | .runInline _ => False

instance : (op : Operation) → Decidable op.isScheduled
  | .createSubscription _ => .isTrue trivial
  | .cancel _ _ => .isTrue trivial
  | .pause _ => .isTrue trivial
  | .resume _ => .isTrue trivial
  | .billingJob _ => .isTrue trivial
  | .tick => .isTrue trivial
  | .expireGracePeriods => .isTrue trivial
  | .retryPayment _ => .isFalse id
  | .runBilling _ => .isFalse id
  | .runInline _ => .isFalse id

/-- The backend restricted to these operations. -/
abbrev scheduled (cfg : Config) : System Api World Env Operation Unit :=
  { concurrent cfg (fun _ => ()) (fun v _ => v) with
    enabled := fun w op => op.Enabled w ∧ op.isScheduled }

/-! ## §2. Statuses that fit. -/

/-- The statuses of a subscription with and without a trial. -/
def Fits (trialEndsAt : Option Instant) (status : SubscriptionStatus) : Prop :=
  match trialEndsAt with
  | some _ => status = .TRIALING ∨ status = .CANCELLED
  | none => status = .ACTIVE ∨ status = .PAST_DUE ∨ status = .CANCELLED

theorem fits_cancelled (trialEndsAt : Option Instant) : Fits trialEndsAt .CANCELLED := by
  cases trialEndsAt with
  | none => exact .inr (.inr rfl)
  | some t => exact .inr rfl

/-- The subscription `id` exists and has no trial. -/
def Paying (id : String) (w : World) : Prop :=
  ∃ s ∈ w.subscriptions, s.id = id ∧ s.trialEndsAt = none

/-- **The invariant.** -/
structure TrialsFit (w : World) : Prop where
  statuses : ∀ s ∈ w.subscriptions, Fits s.trialEndsAt s.status
  plans : ∀ s ∈ w.subscriptions, ∃ plan, w.plans.find? (·.id == s.planId) = some plan
    ∧ (s.trialEndsAt = none ↔ plan.trialDays ≤ 0)
  jobs : ∀ j ∈ w.billingQueue.unfinished, Paying j.2.data w

/-- What every step preserves: plans, and each subscription's trial. -/
structure TrialsKept (w w' : World) : Prop where
  plans : w'.plans = w.plans
  rows : ∀ s ∈ w.subscriptions, ∃ s' ∈ w'.subscriptions,
    s'.id = s.id ∧ s'.trialEndsAt = s.trialEndsAt

theorem TrialsKept.refl (w : World) : TrialsKept w w :=
  ⟨rfl, fun s hs => ⟨s, hs, rfl, rfl⟩⟩

theorem TrialsKept.trans {a b c : World} (h₁ : TrialsKept a b) (h₂ : TrialsKept b c) :
    TrialsKept a c := by
  refine ⟨h₂.plans.trans h₁.plans, fun s hs => ?_⟩
  obtain ⟨s', hs', hid', htrial'⟩ := h₁.rows s hs
  obtain ⟨s'', hs'', hid'', htrial''⟩ := h₂.rows s' hs'
  exact ⟨s'', hs'', hid''.trans hid', htrial''.trans htrial'⟩

theorem TrialsKept.paying {w w' : World} (h : TrialsKept w w') {id : String}
    (hp : Paying id w) : Paying id w' := by
  obtain ⟨s, hs, rfl, htrial⟩ := hp
  obtain ⟨s', hs', hid', htrial'⟩ := h.rows s hs
  exact ⟨s', hs', hid', htrial'.trans htrial⟩

theorem trialsKept_after (e : CallEvent) : TrialsKept e.before (e.after api) := by
  refine ⟨(serve_changed e.call e.env e.before).plans_eq, fun s hs => ?_⟩
  obtain ⟨s', hs', hid, -, htrial⟩ := subscription_kept e hs
  exact ⟨s', hs', hid, htrial⟩

/-- **The fitting calls**: a status is written to a subscription it fits, a
subscription is created as its plan asks, and one without trial is enqueued. -/
structure Fitting (e : CallEvent) : Prop where
  update : ∀ id data st, e.call = .subscriptionUpdate id data → data.status = some st →
    ∀ s ∈ e.before.subscriptions, s.id = id → Fits s.trialEndsAt st
  create : ∀ data, e.call = .subscriptionCreate data →
    data.status = (if data.trialEndsAt.isSome then .TRIALING else .ACTIVE)
      ∧ ∃ plan, e.before.plans.find? (·.id == data.planId) = some plan
          ∧ (data.trialEndsAt = none ↔ plan.trialDays ≤ 0)
  enqueue : ∀ name id jobId, e.call = .billingQueueAdd name id jobId → Paying id e.before

/-- **What one call preserves.** -/
theorem Fitting.keeps {e : CallEvent} (hf : Fitting e) (h : TrialsFit e.before) :
    TrialsFit (e.after api) := by
  have hkept := trialsKept_after e
  refine ⟨fun s hs => ?_, fun s hs => ?_, fun j hj => ?_⟩
  · -- the row was there, was there and is rewritten, or is new
    rcases subscription_origin e hs with
      hs | ⟨id, data, r, hcall, hr, hid, rfl⟩ | ⟨data, id, start, finish, hcall, htrial, rfl⟩
    · exact h.statuses s hs
    · cases hst : data.status with
      | none =>
          have hfits := h.statuses r hr
          simpa [SubscriptionData.apply, hst] using hfits
      | some st =>
          have hfits := hf.update id data st hcall hst r hr hid
          simpa [SubscriptionData.apply, hst] using hfits
    · obtain ⟨hstatus, -⟩ := hf.create data hcall
      show Fits (data.trialEndsAt.getD none) data.status
      rw [hstatus]
      cases hdata : data.trialEndsAt with
      | none => exact .inl rfl
      | some d =>
          cases d with
          | none => exact absurd hdata htrial
          | some t => exact .inl rfl
  · -- the plan of the row has trial days exactly when the row has a trial
    rw [hkept.plans]
    rcases subscription_origin e hs with
      hs | ⟨id, data, r, -, hr, -, rfl⟩ | ⟨data, id, start, finish, hcall, htrial, rfl⟩
    · exact h.plans s hs
    · exact h.plans r hr
    · obtain ⟨-, plan, hplan, hiff⟩ := hf.create data hcall
      refine ⟨plan, hplan, ?_⟩
      rw [← hiff]
      show data.trialEndsAt.getD none = none ↔ data.trialEndsAt = none
      cases hdata : data.trialEndsAt with
      | none => simp
      | some d =>
          cases d with
          | none => exact absurd hdata htrial
          | some t => simp
  · -- a job was there, or is added for a subscription that pays
    rcases billingJob_origin e hj with hj | ⟨name, jobId, -, hcall, -⟩
    · exact hkept.paying (h.jobs j hj)
    · exact hkept.paying (hf.enqueue name j.2.data jobId hcall)

/-! ## §3. Every operation fits. -/

def trialContract : Contract api Unit where
  rely := TrialsKept
  assume _ e := TrialsFit e.before
  guarantee _ e := Fitting e
  track v _ := v

/-- Without further permissions every call fits. -/
theorem fitting_of_ordinary {e : CallEvent} {b : Bool}
    (h : e.call.isOrdinary { restarts := b }) : Fitting e := by
  refine ⟨?_, ?_, ?_⟩
  · intro id data st hcall hst s _ _
    rw [hcall] at h
    rcases h.status with h | h | h
    · rw [h] at hst
      cases hst
    · rw [h] at hst
      cases hst
      exact fits_cancelled _
    · cases h
  · intro data hcall
    rw [hcall] at h
    cases h.2
  · intro name id jobId hcall
    rw [hcall] at h
    cases h.2

/-- A billing cycle of a subscription without trial fits. -/
theorem fitting_of_cycle {e : CallEvent} {id : String} (h : e.call.isCycle id)
    (hp : Paying id e.before) : Fitting e := by
  obtain ⟨s₀, hs₀, hid₀, htrial₀⟩ := hp
  refine ⟨?_, ?_, ?_⟩
  · intro x data st hcall hst s hs hid
    rw [hcall] at h
    -- a cycle writes its own row only, which has no trial
    have hsame : s = s₀ := Table.eq_of_clash hs hs₀ (hid.trans (h.1.trans hid₀.symm))
    rw [hsame, htrial₀]
    rcases h.2 with h | h | h
    · rw [h] at hst
      cases hst
    · rw [h] at hst
      cases hst
      exact .inl rfl
    · rw [h] at hst
      cases hst
      exact .inr (.inl rfl)
  · intro data hcall
    rw [hcall] at h
    exact h.elim
  · intro name x jobId hcall
    rw [hcall] at h
    exact h.elim

section Walk

variable {cfg : Config} {w : World} {α : Type}

theorem safe_ordinary {p : Service α} {b : Bool}
    (hp : Calls api (Call.isOrdinary { restarts := b }) p)
    {Q : Post Api World Unit α} (hQ : ∀ r w', TrialsKept w w' → Q r w' ()) :
    Safe trialContract p Q w () := by
  refine (safe_of_calls (C := trialContract) TrialsKept.refl (fun _ _ _ => TrialsKept.trans)
    (fun e he _ => ⟨fitting_of_ordinary he, trialsKept_after e, rfl⟩) hp).mono ?_
  intro r w' v hpost
  obtain ⟨hk, rfl⟩ := hpost
  exact hQ r w' hk

theorem safe_plain {p : Service α} (hp : Calls api (Call.isOrdinary {}) p)
    {Q : Post Api World Unit α} (hQ : ∀ r w', TrialsKept w w' → Q r w' ()) :
    Safe trialContract p Q w () :=
  safe_ordinary hp hQ

theorem processBillingCycle_fitting {id : String} (hp : Paying id w) :
    Safe trialContract (processBillingCycle cfg id) (fun _ _ _ => True) w () := by
  refine (safe_of_calls_while (C := trialContract) (J := Paying id) TrialsKept.refl
    (fun _ _ _ => TrialsKept.trans) (fun _ _ hk h => hk.paying h)
    (fun e he hpay _ => ⟨fitting_of_cycle he hpay, trialsKept_after e, rfl⟩) hp
    (processBillingCycle_calls id)).mono (fun _ _ _ _ => trivial)

/-- The subscription created for a plan is as the plan asks. -/
theorem createData_asks (cfg : Config) (plan : Plan) (wallet : Wallet) (now : Instant) :
    let data := subscriptions.createData cfg plan wallet now
    data.planId = plan.id
      ∧ data.status = (if data.trialEndsAt.isSome then .TRIALING else .ACTIVE)
      ∧ (data.trialEndsAt = none ↔ plan.trialDays ≤ 0) := by
  refine ⟨rfl, rfl, ?_⟩
  show (if plan.trialDays > 0 then _ else none) = none ↔ _
  split <;> simp <;> omega

theorem create_fitting (body : CreateSubscription) :
    Safe trialContract (subscriptions.create cfg body) (fun _ _ _ => True) w () := by
  unfold subscriptions.create
  split
  · trivial
  · rw [safe_bind]
    refine safe_perform.mpr (fun w₁ env _ _ =>
      ⟨fitting_of_ordinary (b := false) (e := ⟨w₁, .planFindUnique body.planId, env⟩) trivial, ?_⟩)
    rcases serve_planFindUnique body.planId env w₁ with ⟨err, h⟩ | h
    · rw [h]
      trivial
    · rw [h, andThen_ok]
      split
      · trivial
      next plan hplan =>
        obtain ⟨hfound, -⟩ := Option.filter_eq_some_iff.mp hplan
        have hid : plan.id = body.planId := beq_iff_eq.mp (Table.find?_mem hfound).2
        rw [safe_bind]
        apply safe_plain (ordinary_upsert _)
        intro r w₂ hk₂
        cases r with
        | error err => trivial
        | ok wallet =>
            rw [andThen_ok, safe_bind]
            apply safe_plain ordinary_dateNow
            intro r w₃ hk₃
            cases r with
            | error err => trivial
            | ok now =>
                rw [andThen_ok, safe_bind]
                obtain ⟨hplanId, hstatus, hiff⟩ := createData_asks cfg plan wallet now
                refine safe_perform.mpr (fun w₄ env' hk₄ _ => ⟨⟨?_, ?_, ?_⟩, ?_⟩)
                · -- a request for a new subscription updates no row
                  intros
                  contradiction
                · -- the plan is still the one that was read
                  intro data hcall
                  cases hcall
                  refine ⟨hstatus, plan, ?_, hiff⟩
                  have hplans : w₄.plans = w₁.plans :=
                    hk₄.plans.trans (hk₃.plans.trans hk₂.plans)
                  rw [hplanId, hid]
                  show w₄.plans.find? _ = _
                  rw [hplans]
                  exact hfound
                · -- and adds no job
                  intros
                  contradiction
                · cases (api.serve _ env' w₄).1 with
                  | error err => trivial
                  | ok sub =>
                      refine safe_plain (calls_bind (fun _ => calls_pure)
                        (ordinary_emit _ _ _)) (fun _ _ _ => trivial)

/-- A cancel request writes back a status that fitted, or CANCELLED. -/
theorem cancel_fitting (id : String) (immediately : Bool) :
    Safe trialContract (subscriptions.cancel id immediately) (fun _ _ _ => True) w () := by
  unfold subscriptions.cancel
  rw [safe_bind]
  refine safe_perform.mpr (fun w₁ env _ hfit =>
    ⟨fitting_of_ordinary (b := false) (e := ⟨w₁, .subscriptionFindUnique id, env⟩) trivial, ?_⟩)
  have hfit : TrialsFit w₁ := hfit
  rcases serve_subscriptionFindUnique id env w₁ with ⟨err, h⟩ | h
  · rw [h]
    trivial
  · rw [h]
    cases hrow : w₁.sub? id with
    | none => trivial
    | some sub =>
        obtain ⟨hsub, hid⟩ := sub?_eq_some.mp hrow
        show Safe _ (subscriptions.cancelledAt immediately >>= _) _ _ _
        rw [safe_bind]
        refine safe_plain ?_ (fun r w₂ hk₂ => ?_)
        · unfold subscriptions.cancelledAt
          split
          · exact calls_bind (fun _ => calls_pure) (calls_perform trivial)
          · exact calls_pure
        · cases r with
          | error err => trivial
          | ok cancelledAt =>
              rw [andThen_ok, safe_bind]
              refine safe_perform.mpr (fun w₃ env' hk₃ _ => ⟨⟨?_, ?_, ?_⟩, ?_⟩)
              · -- the row still has the trial with which its status was read
                intro x data st hcall hst s hs hx
                cases hcall
                obtain ⟨s', hs', hid', htrial'⟩ := (hk₂.trans hk₃).rows sub hsub
                have hsame : s = s' :=
                  Table.eq_of_clash hs hs' (hx.trans (hid.symm.trans hid'.symm))
                rw [hsame, htrial']
                cases immediately with
                | true =>
                    cases hst
                    exact fits_cancelled _
                -- the status that was read is written back
                | false =>
                    cases hst
                    exact hfit.statuses sub hsub
              · intros
                contradiction
              · intros
                contradiction
              · cases (api.serve _ env' w₃).1 with
                | error err => trivial
                | ok updated =>
                    exact safe_plain (calls_bind (fun _ => calls_pure) (ordinary_emit _ _ _))
                      (fun _ _ _ => trivial)

/-- What the due query returns has no trial. -/
theorem due_paying {now : Instant} (hfit : TrialsFit w) {s : Subscription}
    (hs : s ∈ w.subscriptions.filter (findDueSubscriptions.condition now).selects) :
    Paying s.id w := by
  obtain ⟨hs, hsel⟩ := Table.mem_filter.mp hs
  refine ⟨s, hs, rfl, ?_⟩
  have hstatus : s.status = .ACTIVE ∨ s.status = .PAST_DUE := by
    simp only [SubscriptionWhere.selects, findDueSubscriptions.condition,
      Bool.and_eq_true] at hsel
    simpa using hsel.1.1.1.1
  have hfits := hfit.statuses s hs
  cases htrial : s.trialEndsAt with
  | none => rfl
  | some t =>
      -- TRIALING and CANCELLED are not asked for
      rw [htrial] at hfits
      rcases hfits with h | h <;> rcases hstatus with h' | h' <;> rw [h] at h' <;> cases h'

theorem tick_fitting : Safe trialContract scheduleBillingJobs (fun _ _ _ => True) w () := by
  unfold scheduleBillingJobs findDueSubscriptions
  rw [safe_bind, safe_bind]
  apply safe_plain ordinary_dateNow
  intro r w₁ _
  cases r with
  | error err => trivial
  | ok now =>
      rw [andThen_ok]
      refine safe_perform.mpr (fun w₂ env _ hfit => ⟨fitting_of_ordinary (b := false)
        (e := ⟨w₂, .subscriptionFindMany (findDueSubscriptions.condition now), env⟩) trivial, ?_⟩)
      rcases serve_subscriptionFindMany (findDueSubscriptions.condition now) env w₂ with
        ⟨err, h⟩ | ⟨due, h, hperm⟩
      · rw [h]
        trivial
      · rw [h, andThen_ok, safe_bind]
        -- what was found due has no trial, now and when its job is enqueued
        refine safe_forEach (fun w' _ => ∀ s ∈ due, Paying s.id w') ?_ ?_ ?_
        · intro sub hsub w₃ _ hpay
          refine safe_perform.mpr (fun w₄ env' hk₄ _ => ⟨⟨?_, ?_, ?_⟩, ?_⟩)
          · intros
            contradiction
          · intros
            contradiction
          · intro name x jobId hcall
            cases hcall
            exact hk₄.paying (hpay sub hsub)
          · cases (api.serve (.billingQueueAdd "process-subscription" sub.id
                (some (billingJobId sub))) env' w₄).1 with
            | error err => trivial
            | ok _ =>
                intro s hs
                exact (trialsKept_after ⟨w₄, .billingQueueAdd "process-subscription" sub.id
                  (some (billingJobId sub)), env'⟩).paying (hk₄.paying (hpay s hs))
        · intro w₃ _ _
          exact safe_plain ((expireGracePeriods_calls {}).mono (fun _ h => h.1))
            (fun _ _ _ => trivial)
        · intro s hs
          exact due_paying hfit (hperm.subset hs)

/-- **Every scheduled operation fits.** -/
theorem operation_fitting {op : Operation} (hfit : TrialsFit w) (hen : op.Enabled w)
    (hop : op.isScheduled) :
    Safe trialContract ((fun _ => ()) <$> op.body cfg) (fun _ _ _ => True) w () := by
  have hbody : Safe trialContract (op.body cfg) (fun _ _ _ => True) w () := by
    cases op with
    | createSubscription body => exact (create_fitting body).map
    | cancel id immediately => exact (cancel_fitting id immediately).map
    | pause id =>
        exact safe_plain ((calls_map (pause_calls {} id)).mono (fun _ h => h.1))
          (fun _ _ _ => trivial)
    | resume id =>
        exact safe_ordinary ((calls_map (resume_calls id)).mono (fun _ h => h.1))
          (fun _ _ _ => trivial)
    | billingJob job =>
        obtain ⟨phase, hjob⟩ := hen
        exact (processBillingCycle_fitting (hfit.jobs (phase, job) hjob)).map
    | tick => exact tick_fitting.map
    | expireGracePeriods =>
        exact safe_plain ((calls_map (expireGracePeriods_calls {})).mono (fun _ h => h.1))
          (fun _ _ _ => trivial)
    | retryPayment pid => exact hop.elim
    | runBilling id => exact hop.elim
    | runInline id => exact hop.elim
  exact hbody.map

end Walk

/-! ## §4. The pool. -/

def trialsContract (cfg : Config) : Contract api Unit :=
  interference (scheduled cfg) (fun _ _ _ => True) (fun w _ => TrialsFit w) TrialsKept

theorem operation_trials {cfg : Config} {w : World} {op : Operation} (hfit : TrialsFit w)
    (hen : op.Enabled w) (hop : op.isScheduled) :
    Safe (trialsContract cfg) ((scheduled cfg).body op) (fun _ _ _ => True) w () := by
  have hsafe : Safe trialContract ((scheduled cfg).body op) (fun _ _ _ => True) w () :=
    operation_fitting hfit hen hop
  refine hsafe.weaken (fun _ _ h => h) ?_ ?_ rfl
  · intro v e h
    obtain ⟨pre, post, h, -⟩ := h
    exact h
  · intro v e _ hf
    exact ⟨trialsKept_after e, fun pre post h _ => hf.keeps h⟩

def trialDiscipline (cfg : Config) : Discipline (scheduled cfg) (fun _ _ _ => True) where
  inv w _ := TrialsFit w
  rely := TrialsKept
  ended _ := True
  rely_refl := TrialsKept.refl
  rely_trans _ _ _ := TrialsKept.trans
  start w vs op hfit hen := ⟨hfit, operation_trials hfit hen.1 hen.2⟩
  leave w pre v post _ hfit := hfit
  drift w w' vs hd hfit := by
    obtain ⟨q, hq, rfl⟩ := hd
    refine ⟨⟨hfit.statuses, hfit.plans, fun j hj => ?_⟩, ⟨rfl, fun s hs => ⟨s, hs, rfl, rfl⟩⟩⟩
    -- the worker moves jobs, and makes none up
    obtain ⟨i, hi, -, hdata⟩ := hq.mem hj
    obtain ⟨s, hs, hid, htrial⟩ := hfit.jobs i hi
    exact ⟨s, hs, hid.trans hdata, htrial⟩

/-- A live subscription is due: not paused, not to be cancelled, not ended,
and its current period has elapsed at `t`. -/
structure LiveAndDue (s : Subscription) (t : Instant) : Prop where
  notCancelled : s.status ≠ .CANCELLED
  notExpired : s.status ≠ .EXPIRED
  notPaused : s.paused = false
  notFlagged : s.cancelAtPeriodEnd = false
  elapsed : s.currentPeriodEnd ≤ t

/-- **Due subscriptions are selected exactly when their plan has no trial**:
in every state reached by create, cancel, pause and resume requests, ticks and
the jobs that ticks enqueue, in any interleaving, and for every time. -/
theorem selected_iff_no_trial (cfg : Config) (w₀ : World)
    (hsubs : w₀.subscriptions.rows = []) (hjobs : w₀.billingQueue.unfinished = [])
    (P : Pool Api World Unit)
    (h : Pool.Run (scheduled cfg) (fun _ _ _ => True) ⟨w₀, []⟩ P)
    (t : Instant) (s : Subscription) (hs : s ∈ P.world.subscriptions)
    (hdue : LiveAndDue s t) (env : Env) (due : List Subscription)
    (hquery : api.serve (.subscriptionFindMany (findDueSubscriptions.condition t)) env P.world
      = (.ok due, P.world)) :
    ∃ plan, P.world.plans.find? (·.id == s.planId) = some plan
      ∧ (s ∈ due ↔ plan.trialDays ≤ 0) := by
  have hidle : (trialDiscipline cfg).Sound ⟨w₀, []⟩ := by
    refine Discipline.sound_idle ⟨fun s hs => ?_, fun s hs => ?_, fun j hj => ?_⟩
    · exact absurd hs (Table.not_mem_of_nil hsubs s)
    · exact absurd hs (Table.not_mem_of_nil hsubs s)
    · rw [hjobs] at hj
      cases hj
  have hfit : TrialsFit P.world := (Discipline.run h hidle).1.1
  obtain ⟨plan, hplan, hiff⟩ := hfit.plans s hs
  refine ⟨plan, hplan, ?_⟩
  have hmem : s ∈ due ↔ s ∈ P.world.subscriptions.filter
      (findDueSubscriptions.condition t).selects := by
    rcases serve_subscriptionFindMany (findDueSubscriptions.condition t) env P.world with
      ⟨err, h⟩ | ⟨rows, h, hperm⟩
    · rw [h] at hquery
      cases hquery
    · rw [h] at hquery
      cases hquery
      exact hperm.mem_iff
  rw [hmem, Table.mem_filter, ← hiff]
  constructor
  · intro h
    obtain ⟨-, hsel⟩ := h
    obtain ⟨s', hs', hid, htrial⟩ := due_paying hfit (Table.mem_filter.mpr ⟨hs, hsel⟩)
    have hsame : s' = s := Table.eq_of_clash hs' hs hid
    rw [← hsame]
    exact htrial
  · intro htrial
    -- without a trial a status is ACTIVE, PAST_DUE or CANCELLED
    have hfits := hfit.statuses s hs
    rw [htrial] at hfits
    refine ⟨hs, ?_⟩
    have hstatus : s.status = .ACTIVE ∨ s.status = .PAST_DUE := by
      rcases hfits with h | h | h
      · exact .inl h
      · exact .inr h
      · exact absurd h hdue.notCancelled
    simp only [SubscriptionWhere.selects, findDueSubscriptions.condition, Option.all_some,
      Option.all_none, hdue.notPaused, hdue.notFlagged, hdue.elapsed, decide_true, Bool.and_true,
      beq_self_eq_true]
    rcases hstatus with h | h <;> rw [h] <;> rfl

/-! ## §5. Scenarios. -/

section Scenarios

open Shop

instance (cfg : Config) (w : World) (op : Operation) :
    Decidable ((scheduled cfg).enabled w op) :=
  inferInstanceAs (Decidable (op.Enabled w ∧ op.isScheduled))

/-- A create request on day 1. -/
def subscribeOnDayOne : List (Choice Operation Env) :=
  [.start (.createSubscription ⟨"plan", wallet.address⟩), .act 0 (on 1), .act 0 (on 1),
   .act 0 (on 1), .act 0 (fresh 1 "sub"), .act 0 (on 1)]

/-- The subscriptions created, and those of them the query on day 3 selects. -/
def createdAndDue (plan : Plan) : Option (List Subscription × List Subscription) :=
  (Pool.advance (scheduled (cfg true)) (fun _ _ _ => true) subscribeOnDayOne
    ⟨opening plan, []⟩).map (fun P => (P.world.subscriptions.rows,
      P.world.subscriptions.filter (findDueSubscriptions.condition (day 3)).selects))

/-- The subscription created for a plan without trial, and for a plan with a
trial of one day. -/
def created (trial : Bool) : Subscription :=
  { sub with
    status := if trial then .TRIALING else .ACTIVE
    currentPeriodStart := if trial then day 2 else day 1
    currentPeriodEnd := if trial then day 3 else day 2
    trialEndsAt := if trial then some (day 2) else none
    contractPlanId := some 1 }

/-- The query is answered with the rows it selects. -/
theorem query_answered (n : Nat) (t : Instant) (w : World) :
    ∃ due, api.serve (.subscriptionFindMany (findDueSubscriptions.condition t)) (on n) w
        = (.ok due, w)
      ∧ due.Perm (w.subscriptions.filter (findDueSubscriptions.condition t).selects) := by
  rcases serve_cases (.subscriptionFindMany (findDueSubscriptions.condition t)) (on n) w with
    ⟨message, hrej, -⟩ | ⟨-, h⟩
  · cases hrej
  · refine ⟨_, h, ?_⟩
    unfold arrange
    split
    · assumption
    · exact .refl _

/-- **A trial does not end**: on day 3 the first paid period of a subscription
with a trial of one day has elapsed, and the query does not select it. -/
theorem trial_never_selected :
    ¬ ∀ (cfg : Config) (w₀ : World), w₀.subscriptions.rows = [] →
      w₀.billingQueue.unfinished = [] → ∀ P : Pool Api World Unit,
      Pool.Run (scheduled cfg) (fun _ _ _ => True) ⟨w₀, []⟩ P →
      ∀ (t : Instant) (s : Subscription), s ∈ P.world.subscriptions → LiveAndDue s t →
      ∀ (env : Env) (due : List Subscription),
        api.serve (.subscriptionFindMany (findDueSubscriptions.condition t)) env P.world
          = (.ok due, P.world) → s ∈ due := by
  intro hclaim
  have hrun : createdAndDue { plan with trialDays := 1 } = some ([created true], []) := by
    decide +kernel
  obtain ⟨P, hP, hrows⟩ := Option.map_eq_some_iff.mp hrun
  obtain ⟨hsubs, hdue⟩ := Prod.mk.inj hrows
  obtain ⟨due, hquery, hperm⟩ := query_answered 3 (day 3) P.world
  have h := hclaim (cfg true) (opening { plan with trialDays := 1 }) rfl rfl P
    (Pool.advance_run (fun _ _ _ _ => trivial) hP) (day 3) (created true)
    (Table.mem_def.mpr (hsubs ▸ List.mem_singleton_self _))
    ⟨by decide, by decide, rfl, rfl, day_le.mpr (by decide)⟩ (on 3) due hquery
  rw [hdue] at hperm
  rw [hperm.eq_nil] at h
  cases h

/-- Without a trial the subscription is selected. -/
theorem selected_iff_no_trial_shop :
    ∃ P due, Pool.Run (scheduled (cfg true)) (fun _ _ _ => True) ⟨opening plan, []⟩ P
      ∧ api.serve (.subscriptionFindMany (findDueSubscriptions.condition (day 3))) (on 3)
          P.world = (.ok due, P.world)
      ∧ created false ∈ due
      ∧ ∃ plan, P.world.plans.find? (·.id == (created false).planId) = some plan
          ∧ (created false ∈ due ↔ plan.trialDays ≤ 0) := by
  have hrun : createdAndDue plan = some ([created false], [created false]) := by
    decide +kernel
  obtain ⟨P, hP, hrows⟩ := Option.map_eq_some_iff.mp hrun
  obtain ⟨hsubs, hdue⟩ := Prod.mk.inj hrows
  obtain ⟨due, hquery, hperm⟩ := query_answered 3 (day 3) P.world
  have h : Pool.Run (scheduled (cfg true)) (fun _ _ _ => True) ⟨opening plan, []⟩ P :=
    Pool.advance_run (fun _ _ _ _ => trivial) hP
  refine ⟨P, due, h, hquery, ?_, ?_⟩
  · rw [hdue] at hperm
    exact hperm.mem_iff.mpr (List.mem_singleton_self _)
  · exact selected_iff_no_trial (cfg true) (opening plan) rfl rfl P h (day 3) (created false)
      (Table.mem_def.mpr (hsubs ▸ List.mem_singleton_self _))
      ⟨by decide, by decide, rfl, rfl, day_le.mpr (by decide)⟩ (on 3) due hquery

end Scenarios

end Sorobill
