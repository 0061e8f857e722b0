/-
  Sorobill.Dates.Range
  ────────────────────
  **CAN EVERY STORED PLAN BE SUBSCRIBED TO?**

  `createPlanSchema` and the columns bound `intervalCount` and `trialDays` by
  2^31 - 1; `Date` ends 10^8 days after the epoch, on 13 September 275760.
  Beyond it `date-utils` computes Invalid Dates.

    • `daysLeft` — the days from a time to the end of `Date`;
    • `plan_dates_iff` — the dates of a stored plan are valid exactly when the
      trial and the first period take no more days than are left; and so for
      each later period;
    • `small_plan_valid` — a bound on the plan that is enough until 2100.
-/
import Sorobill.Dates.Months
import Sorobill.Model.Plans
import Sorobill.Model.Shop
import Sorobill.Rules.Footprints

namespace Sorobill

open Calendar Effect

/-! ## §1. Valid dates. -/

/-- The whole days from a time value to the last `Date`. -/
def daysLeft (ms : Int) : Int := (maxTimeMs - ms) / msPerDay

theorem tooFar_iff {start : Instant} {days : Int} :
    TooFar start days ↔ ¬ days ≤ daysLeft start.ms := by
  unfold TooFar daysLeft msPerDay
  omega

/-- **A period ends within `Date` exactly when its days are left.** -/
theorem nextPeriod_isSome_iff {tz : Int} {start : Instant} {interval : BillingInterval}
    {count : Int} (hcount : 0 ≤ count) :
    (nextPeriod tz start interval count).isSome
      ↔ daysAhead interval count (localMonth tz start) ≤ daysLeft start.ms := by
  have hdays := daysAhead_nonneg interval (localMonth tz start) hcount
  rw [nextPeriod_eq, Option.isSome_iff_ne_none, ne_eq, timeClip_days hdays, tooFar_iff, not_not]

/-- The three dates of a subscription are no Invalid Dates. -/
def SubscriptionCreate.DatesValid (data : SubscriptionCreate) : Prop :=
  data.currentPeriodStart.isSome ∧ data.currentPeriodEnd.isSome ∧ data.trialEndsAt ≠ some none

/-- When the first period of a subscription created at `now` begins, in ms. -/
def Plan.begins (plan : Plan) (now : Instant) : Int := now.ms + plan.trialDays * msPerDay

/-- The days from the creation to the end of the first period. -/
def Plan.firstDays (cfg : Config) (plan : Plan) (now : Instant) : Int :=
  plan.trialDays + daysAhead plan.interval plan.intervalCount
    (monthIndex ((plan.begins now + cfg.tz) / msPerDay))

section Create

variable {cfg : Config} {plan : Plan} {wallet : Wallet} {now : Instant}

theorem createData_start (htrial : 0 ≤ plan.trialDays) :
    (subscriptions.createData cfg plan wallet now).currentPeriodStart
      = timeClip (plan.begins now) := by
  unfold subscriptions.createData Plan.begins
  dsimp only
  split
  next => rfl
  next hzero =>
    rw [show plan.trialDays = 0 by omega, Int.zero_mul, Int.add_zero, timeClip_ms]
    rfl

/-- A trial that ends is where the first period begins. -/
theorem createData_trial (hstart :
    (subscriptions.createData cfg plan wallet now).currentPeriodStart ≠ none) :
    (subscriptions.createData cfg plan wallet now).trialEndsAt ≠ some none := by
  intro htrial
  apply hstart
  show (subscriptions.createData cfg plan wallet now).trialEndsAt.getD (some now) = none
  rw [htrial]
  rfl

/-- **The dates of a new subscription** are valid exactly when the trial and
the first period take no more days than are left. -/
theorem createData_valid_iff (hcount : 0 ≤ plan.intervalCount) (htrial : 0 ≤ plan.trialDays) :
    (subscriptions.createData cfg plan wallet now).DatesValid
      ↔ plan.firstDays cfg now ≤ daysLeft now.ms := by
  have hstart : (subscriptions.createData cfg plan wallet now).currentPeriodStart
      = timeClip (plan.begins now) := createData_start htrial
  have hend : (subscriptions.createData cfg plan wallet now).currentPeriodEnd
      = (subscriptions.createData cfg plan wallet now).currentPeriodStart.bind
          (fun start => nextPeriod cfg.tz start plan.interval plan.intervalCount) := rfl
  have hends : (subscriptions.createData cfg plan wallet now).currentPeriodStart ≠ none →
      (subscriptions.createData cfg plan wallet now).trialEndsAt ≠ some none := createData_trial
  generalize subscriptions.createData cfg plan wallet now = data at *
  unfold SubscriptionCreate.DatesValid Plan.firstDays
  rw [hend]
  rw [hstart] at hends ⊢
  cases hclip : timeClip (plan.begins now) with
  | none =>
      -- the trial alone takes too many
      have hfar := tooFar_iff.mp ((timeClip_days htrial).mp hclip)
      have hdays := daysAhead_nonneg plan.interval
        (monthIndex ((plan.begins now + cfg.tz) / msPerDay)) hcount
      constructor
      · rintro ⟨hnone, -, -⟩
        cases hnone
      · intro h
        omega
  | some start =>
      have hms := timeClip_eq_some hclip
      have hmonth : localMonth cfg.tz start
          = monthIndex ((plan.begins now + cfg.tz) / msPerDay) := by
        rw [← hms]
        rfl
      have hleft : daysLeft start.ms = daysLeft now.ms - plan.trialDays := by
        rw [hms]
        unfold daysLeft Plan.begins msPerDay
        omega
      rw [hclip] at hends
      rw [Option.bind_some, nextPeriod_isSome_iff hcount, hmonth, hleft]
      constructor
      · rintro ⟨-, h, -⟩
        omega
      · intro h
        exact ⟨rfl, by omega, hends (Option.some_ne_none start)⟩

end Create

/-! ## §2. What the executions store. -/

section Executions

variable {cfg : Config} {w w' : World} {t : List CallEvent}

/-- The clock answers with its time. -/
theorem answer_dateNow {env : Env} {now : Instant} (h : (api.serve .dateNow env w).1 = .ok now) :
    now = env.now := by
  rcases serve_dateNow env w with ⟨err, hserve⟩ | hserve
  · rw [hserve] at h
    cases h
  · rw [hserve] at h
    cases h
    rfl

/-- What a create request stores: the dates as of the time it has read. -/
theorem create_stores {request : CreateSubscription} {r : Except Thrown HttpReply}
    (h : Runs api (subscriptions.create cfg request) w t r w') :
    ∀ e ∈ t, ∀ data, e.call = .subscriptionCreate data → ∃ plan wallet,
      w.plans.find? (·.id == request.planId) = some plan
        ∧ ∃ e' ∈ t, e'.call = .dateNow
          ∧ data = subscriptions.createData cfg plan wallet e'.env.now := by
  unfold subscriptions.create at h
  split at h
  · obtain ⟨rfl, -, -⟩ := runs_done_iff.mp h
    exact fun e he => absurd he List.not_mem_nil
  obtain ⟨env₁, ⟨err, -, rfl, -, -⟩ | ⟨found, t₁, hfound, rfl, hsome⟩⟩ := runs_perform_bind h
  · simp
  rcases serve_planFindUnique request.planId env₁ w with ⟨err, hserve⟩ | hserve
  · rw [hserve] at hfound
    cases hfound
  rw [hserve] at hfound
  cases hfound
  split at hsome
  · obtain ⟨rfl, -, -⟩ := runs_done_iff.mp hsome
    simp
  -- an active plan was found
  next plan hplan =>
    obtain ⟨hplan, -⟩ := Option.filter_eq_some_iff.mp hplan
    obtain ⟨env₂, ⟨err, -, rfl, -, -⟩ | ⟨wallet, t₂, -, rfl, hnow⟩⟩ := runs_perform_bind hsome
    · simp
    obtain ⟨env₃, ⟨err, -, rfl, -, -⟩ | ⟨now, t₃, hread, rfl, hcreate⟩⟩ := runs_perform_bind hnow
    · simp
    obtain rfl : now = env₃.now := answer_dateNow hread
    have hdata : ∀ e ∈ t₃, ∀ data, e.call = .subscriptionCreate data →
        data = subscriptions.createData cfg plan wallet env₃.now := by
      obtain ⟨env₄, ⟨err, -, rfl, -, -⟩ | ⟨sub, t₄, -, rfl, hemit⟩⟩ := runs_perform_bind hcreate
      · rintro e he data hcall
        obtain rfl := List.mem_singleton.mp he
        cases hcall
        rfl
      · rintro e he data hcall
        rcases List.mem_cons.mp he with rfl | he
        · cases hcall
          rfl
        · -- an emission creates no subscription
          have hcalls : Calls api Call.isWebhook
              (emitWebhookEvent .SUBSCRIPTION_CREATED none
                (.object [("subscriptionId", .string sub.id)]) >>= fun _ =>
                  (pure ⟨201, .subscription sub⟩ : Service HttpReply)) :=
            calls_bind (fun _ => calls_pure) (emitWebhookEvent_calls _ _ _)
          have hhook := hcalls.events hemit e he
          rw [hcall] at hhook
          exact hhook.elim
    intro e he data hcall
    refine ⟨plan, wallet, hplan, _, .tail _ (.tail _ (.head _)), rfl, ?_⟩
    -- the first three calls create nothing
    simp only [List.mem_cons] at he
    rcases he with rfl | rfl | rfl | he
    · cases hcall
    · cases hcall
    · cases hcall
    · exact hdata e he data hcall

/-- What a period is advanced to. -/
theorem advance_stores {sub : SubscriptionWithPlan} {r : Except Thrown Unit}
    (h : Runs api (advancePeriod cfg sub) w t r w') :
    ∀ e ∈ t, ∃ data, e.call = .subscriptionUpdate sub.id data
      ∧ data.currentPeriodStart = some (some sub.currentPeriodEnd)
      ∧ data.currentPeriodEnd = some (nextPeriod cfg.tz sub.currentPeriodEnd sub.plan.interval
          sub.plan.intervalCount) := by
  unfold advancePeriod at h
  obtain ⟨env, ⟨err, -, rfl, -, -⟩ | ⟨_, t', -, rfl, hdone⟩⟩ := runs_perform_bind h
  · intro e he
    obtain rfl := List.mem_singleton.mp he
    exact ⟨_, rfl, rfl, rfl⟩
  · obtain ⟨rfl, -, -⟩ := runs_done_iff.mp hdone
    intro e he
    obtain rfl := List.mem_singleton.mp he
    exact ⟨_, rfl, rfl, rfl⟩

end Executions

/-! ## §3. Stored plans. -/

/-- **The dates of a stored plan**: a create request stores valid dates exactly
when the trial and the first period take no more days than are left at the
time it has read, and a period is advanced to a valid date exactly when the
next one takes no more than are left where it begins. -/
theorem plan_dates_iff {body : CreatePlan} {id : String} {plan : Plan}
    (hstored : plans.stored body id = some plan) (cfg : Config) :
    (∀ (request : CreateSubscription) (w w' : World) (t : List CallEvent)
        (r : Except Thrown HttpReply),
        Runs api (subscriptions.create cfg request) w t r w' →
        w.plans.find? (·.id == request.planId) = some plan →
        ∀ e ∈ t, ∀ data, e.call = .subscriptionCreate data →
          ∃ e' ∈ t, e'.call = .dateNow
            ∧ (data.DatesValid ↔ plan.firstDays cfg e'.env.now ≤ daysLeft e'.env.now.ms))
      ∧ ∀ (sub : SubscriptionWithPlan) (w w' : World) (t : List CallEvent)
          (r : Except Thrown Unit),
          Runs api (advancePeriod cfg sub) w t r w' → sub.plan = plan →
          ∀ e ∈ t, ∃ data finish, e.call = .subscriptionUpdate sub.id data
            ∧ data.currentPeriodStart = some (some sub.currentPeriodEnd)
            ∧ data.currentPeriodEnd = some finish
            ∧ (finish.isSome ↔ daysAhead plan.interval plan.intervalCount
                (localMonth cfg.tz sub.currentPeriodEnd) ≤ daysLeft sub.currentPeriodEnd.ms) := by
  obtain ⟨-, hcount, htrial⟩ := stored_accepted hstored
  refine ⟨fun request w w' t r hruns hplan e he data hcall => ?_,
    fun sub w w' t r hruns hplan e he => ?_⟩
  · obtain ⟨plan', wallet, hplan', e', he', hnow, rfl⟩ := create_stores hruns e he data hcall
    obtain rfl : plan = plan' := Option.some.inj (hplan.symm.trans hplan')
    exact ⟨e', he', hnow, createData_valid_iff (by omega) htrial⟩
  · obtain ⟨data, hcall, hstart, hend⟩ := advance_stores hruns e he
    subst hplan
    exact ⟨data, _, hcall, hstart, hend, nextPeriod_isSome_iff (by omega)⟩

/-- The days of the longest interval of a kind, twelve months taken as 31 days
each. -/
def BillingInterval.longest : BillingInterval → Int
  | .DAILY => 1
  | .WEEKLY => 7
  | .MONTHLY => 31
  | .YEARLY => 372

theorem firstOfMonth_add_le (k : Int) (n : Nat) :
    firstOfMonth (k + n) - firstOfMonth k ≤ 31 * n := by
  induction n with
  | zero => simp
  | succ n ih =>
      have hlength := (monthLength_bounds (k + n)).2
      unfold monthLength at hlength
      rw [show k + n + 1 = k + ((n + 1 : Nat) : Int) by omega] at hlength
      omega

theorem daysAhead_le (interval : BillingInterval) {count : Int} (k : Int) (hcount : 0 ≤ count) :
    daysAhead interval count k ≤ interval.longest * count := by
  obtain ⟨n, rfl⟩ := Int.eq_ofNat_of_zero_le hcount
  cases interval with
  | DAILY =>
      show (n : Int) ≤ 1 * n
      omega
  | WEEKLY => exact le_rfl
  | MONTHLY => exact firstOfMonth_add_le k n
  | YEARLY =>
      have hle := firstOfMonth_add_le k (12 * n)
      show firstOfMonth (k + 12 * n) - firstOfMonth k ≤ 372 * n
      push_cast at hle
      omega

/-- **Up to the end of 2100 there are 99952152 days left**: a plan that asks
for no more can be subscribed to. -/
theorem small_plan_valid {cfg : Config} {plan : Plan} {wallet : Wallet} {now : Instant}
    (hcount : 0 ≤ plan.intervalCount) (htrial : 0 ≤ plan.trialDays)
    (hsmall : plan.trialDays + plan.interval.longest * plan.intervalCount ≤ 99952152)
    (hnow : yearOfDay (now.ms / msPerDay) ≤ 2100) :
    (subscriptions.createData cfg plan wallet now).DatesValid := by
  rw [createData_valid_iff hcount htrial]
  have hdays := daysAhead_le plan.interval
    (monthIndex ((plan.begins now + cfg.tz) / msPerDay)) hcount
  have hyear := (yearOfDay_spec (now.ms / msPerDay)).2
  unfold dayFromYear at hyear
  unfold Plan.firstDays daysLeft
  unfold maxTimeMs msPerDay at *
  omega

/-- A month is billed at a time, after a trial of two weeks. -/
def monthly : CreatePlan :=
  { name := "Monthly", amount := "10.5", interval := .MONTHLY, trialDays := some (.finite 14) }

/-- 300000 years are billed at a time. -/
def centuries : CreatePlan :=
  { name := "Centuries", amount := "10", interval := .YEARLY,
    intervalCount := some (.finite 300000) }

def monthlyPlan : Plan := { id := "plan", amount := "10.5", interval := .MONTHLY, trialDays := 14 }

def centuriesPlan : Plan :=
  { id := "plan", amount := "10", interval := .YEARLY, intervalCount := 300000 }

example : plans.createPlanSchema.issues { monthly with amount := "10.", trialDays := some .nan }
    = ["amount", "trialDays", "trialDays"] := by decide

/-- The start of 2026. -/
def newYear : Instant := ⟨1767225600000, by decide⟩

/-- A request for the plan. -/
def request : Service HttpReply :=
  subscriptions.create (Shop.cfg false) ⟨"plan", Shop.wallet.address⟩

def atNewYear : Env := { now := newYear }

def drawing (id : String) : Env := { now := newYear, freshIds := [id] }

theorem plan_dates_iff_monthly :
    ∃ t r w', Runs api request (Shop.opening monthlyPlan) t r w'
      ∧ ∃ e ∈ t, ∃ data, e.call = .subscriptionCreate data ∧ data.DatesValid := by
  obtain ⟨⟨r, w'⟩, hexec⟩ : ∃ x, exec api request
      [atNewYear, drawing "wallet", atNewYear, drawing "sub", atNewYear]
      (Shop.opening monthlyPlan) = some x := ⟨_, rfl⟩
  have hruns := exec_runs hexec
  rw [show execTrace api request _ _ = [⟨_, .planFindUnique "plan", atNewYear⟩,
    ⟨_, .walletUpsert _, drawing "wallet"⟩, ⟨_, .dateNow, atNewYear⟩,
    ⟨_, .subscriptionCreate (subscriptions.createData (Shop.cfg false) monthlyPlan _ newYear),
      drawing "sub"⟩, ⟨_, .webhookEndpointFindMany _, atNewYear⟩] from rfl] at hruns
  obtain ⟨hcreate, -⟩ := plan_dates_iff (show plans.stored monthly "plan" = some monthlyPlan
    by decide) (Shop.cfg false)
  obtain ⟨e, he, hcall, hdates⟩ := hcreate _ _ _ _ _ hruns (by decide) _
    (.tail _ (.tail _ (.tail _ (.head _)))) _ rfl
  have hnow : e.env.now = newYear := by
    rcases he with _ | ⟨_, _ | ⟨_, _ | ⟨_, _ | ⟨_, _ | ⟨_, ⟨⟩⟩⟩⟩⟩⟩ <;> rfl
  rw [hnow] at hdates
  exact ⟨_, r, w', hruns, _, .tail _ (.tail _ (.tail _ (.head _))), _, rfl,
    hdates.mpr (by decide)⟩

theorem centuries_not_subscribable :
    plans.stored centuries "plan" = some centuriesPlan
      ∧ 2000 ≤ yearOfDay (newYear.ms / msPerDay) ∧ yearOfDay (newYear.ms / msPerDay) ≤ 2100
      ∧ ∃ t err w', Runs api request (Shop.opening centuriesPlan) t (.error err) w'
        ∧ ∃ e ∈ t, e.env.now = newYear ∧ ∃ data, e.call = .subscriptionCreate data
          ∧ data.currentPeriodEnd = none := by
  obtain ⟨err, w', hexec⟩ : ∃ err w', exec api request
      [atNewYear, drawing "wallet", atNewYear, drawing "sub"] (Shop.opening centuriesPlan)
      = some (.error err, w') := ⟨_, _, rfl⟩
  have hruns := exec_runs hexec
  rw [show execTrace api request _ _ = [⟨_, .planFindUnique "plan", atNewYear⟩,
    ⟨_, .walletUpsert _, drawing "wallet"⟩, ⟨_, .dateNow, atNewYear⟩,
    ⟨_, .subscriptionCreate (subscriptions.createData (Shop.cfg false) centuriesPlan _ newYear),
      drawing "sub"⟩] from rfl] at hruns
  exact ⟨by decide, by decide, by decide, _, err, w', hruns, _,
    .tail _ (.tail _ (.tail _ (.head _))), rfl, _, rfl, by decide⟩

end Sorobill
