/-
  Sorobill.Lifecycle.TrialEnds
  ────────────────────────────
  **IS A FREE TRIAL EVER CUT SHORT?**

  A create request begins the first period at the end of the trial, and a
  billing cycle only moves it forward.  A resume request begins a period at
  the time of the request and does not look at the trial.

    • `TrialsHonoured` — no period, and no payment's, begins before the trial
      of the subscription has ended;
    • `ResumesAfterTrial` — a resume request that begins a period reads a time
      after the trial;
    • `trials_honoured_iff` — the trials are honoured exactly while every
      resume request is of this kind.
-/
import Sorobill.Model.Shop
import Sorobill.Rules.Bookings
import Sorobill.Rules.Failures
import Sorobill.Rules.Requests

namespace Sorobill

open Effect
open Relational

/-! ## §1. Statements. -/

/-- **No trial is cut short.** -/
structure TrialsHonoured (w : World) : Prop where
  periods : ∀ id s t, w.sub? id = some s → s.trialEndsAt = some t → t ≤ s.currentPeriodStart
  payments : ∀ p ∈ w.payments, ∀ s t, w.sub? p.subscriptionId = some s →
    s.trialEndsAt = some t → t ≤ p.billingPeriodStart

/-- **The condition** on a resume request: if its subscription is paused and
has a trial, the clock that it reads says that the trial has ended. -/
def ResumesAfterTrial (x : Step) : Prop :=
  ∀ id s t, x.op = .resume id → x.before.sub? id = some s → s.paused = true →
    s.trialEndsAt = some t → ∀ e ∈ x.trace, e.call = .dateNow → t ≤ e.env.now

/-- **The invariant.** -/
structure AfterTrials (w : World) : Prop where
  counts : ∀ plan ∈ w.plans, 1 ≤ plan.intervalCount
  forward : ∀ id s, w.sub? id = some s → s.currentPeriodStart < s.currentPeriodEnd
  stored : ∀ p ∈ w.payments, ∃ s, w.sub? p.subscriptionId = some s
  honoured : TrialsHonoured w

/-! ## §2. Trials. -/

section Executions

variable {cfg : Config} {x : Step}

/-- A trial is never written again. -/
theorem trial_after (hx : x.Of (serial cfg)) {id : String} {s s' : Subscription}
    (hs : x.before.sub? id = some s) (hs' : x.after.sub? id = some s') :
    s'.trialEndsAt = s.trialEndsAt := by
  obtain ⟨t, ht, htrial⟩ := (hx.runs.always (P := fun w => ∃ t, w.sub? id = some t
    ∧ t.trialEndsAt = s.trialEndsAt) ⟨s, hs, rfl⟩ (fun e _ h => by
      obtain ⟨t, ht, htrial⟩ := h
      rcases sub?_after e ht with hafter | ⟨data, -, -, hafter⟩
      · exact ⟨t, hafter, htrial⟩
      · exact ⟨_, hafter, htrial⟩)).2
  obtain rfl : t = s' := Option.some.inj (ht.symm.trans hs')
  exact htrial

/-- **The first period begins when the trial ends.** -/
theorem created_at_trial_end (hx : x.Of (serial cfg)) {id : String} {s : Subscription}
    {t : Instant} (hnone : x.before.sub? id = none) (hs : x.after.sub? id = some s)
    (htrial : s.trialEndsAt = some t) : s.currentPeriodStart = t := by
  obtain ⟨body, hop⟩ := (created_of_new hx hnone hs).op_eq
  have hruns : Runs api (x.op.body cfg) x.before x.trace x.reply x.after := hx.runs
  rw [hop] at hruns
  have hcreates : Safe (sequential (fun _ => True)) (subscriptions.create cfg body)
      (fun _ w' _ => ∀ s, w'.sub? id = some s → ∀ t, s.trialEndsAt = some t →
        s.currentPeriodStart = t) x.before {} := by
    apply (create_ends body).mono
    intro r w' v' hend s hs t htrial
    cases hend with
    | unwritten hsubs =>
        rw [InsertsNone.of_eq hsubs id hnone] at hs
        cases hs
    | inserted plan wallet now created y start finish _ hstart _ _ ht _ =>
        have hrow : w'.sub? id = if id = y then
            some ((subscriptions.createData cfg plan wallet now).row created y start finish)
            else x.before.sub? id := sub?_insert ht id
        rw [hrow, hnone] at hs
        split at hs
        · cases hs
          have hgiven : (subscriptions.createData cfg plan wallet now).trialEndsAt.getD none
              = some t := htrial
          -- with a trial, the first period starts where the trial ends
          have hbegins : (subscriptions.createData cfg plan wallet now).currentPeriodStart
              = (subscriptions.createData cfg plan wallet now).trialEndsAt.getD (some now) := rfl
          rw [hstart] at hbegins
          cases hend : (subscriptions.createData cfg plan wallet now).trialEndsAt with
          | none =>
              rw [hend] at hgiven
              cases hgiven
          | some d =>
              rw [hend] at hgiven hbegins
              exact Option.some.inj (hbegins.trans hgiven)
        · cases hs
  exact seq_runs hruns (fun _ _ => trivial) hcreates.map s hs t htrial

/-! ## §3. One execution. -/

/-- **Without a billing cycle.** -/
theorem unbilled_afterTrials (hx : x.Of (serial cfg)) (hb : x.op.bills = none)
    (hresume : ResumesAfterTrial x) (h : AfterTrials x.before) : AfterTrials x.after := by
  have hpayments := (unbilled_same hx hb).payments
  refine ⟨?_, fun id s' hs' => ?_, payments_stored hx h.stored,
    ⟨fun id s' t hs' htrial => ?_, fun p hp s' t hs' htrial => ?_⟩⟩
  · rw [plans_after hx]
    exact h.counts
  · cases hs : x.before.sub? id with
    | none =>
        obtain ⟨plan, hplan, hnext⟩ := (created_of_new hx hs hs').period
        exact Plan.next_progressive (h.counts plan (Table.find?_mem hplan).1) cfg _ _ hnext
    | some s =>
        obtain ⟨u, hu, hkept⟩ := row_after_unbilled hx hb hs
        obtain rfl : u = s' := Option.some.inj (hu.symm.trans hs')
        rcases hkept with hsame | hnew
        · rw [hsame.start, hsame.finish]
          exact h.forward id s hs
        · obtain ⟨plan, env, finish, now, hplan, -, hnext, rfl⟩ := hnew.period
          exact hplan.next_lt h.counts hnext
  · cases hs : x.before.sub? id with
    -- created now: its period starts at the end of the trial
    | none => exact (created_at_trial_end hx hs hs' htrial).ge
    | some s =>
        have hbefore : s.trialEndsAt = some t := (trial_after hx hs hs').symm.trans htrial
        obtain ⟨u, hu, hkept⟩ := row_after_unbilled hx hb hs
        obtain rfl : u = s' := Option.some.inj (hu.symm.trans hs')
        rcases hkept with hsame | hnew
        · rw [hsame.start]
          exact h.honoured.periods id s t hs hbefore
        · -- resumed: the clock was read after the trial
          obtain ⟨plan, env, finish, now, -, hevent, -, rfl⟩ := hnew.period
          have hid := sub?_id hs
          exact hresume s.id s t hnew.op_eq (hid ▸ hs) hnew.paused hbefore _ hevent rfl
  · rw [hpayments] at hp
    obtain ⟨s, hs⟩ := h.stored p hp
    exact h.honoured.payments p hp s t hs ((trial_after hx hs hs').symm.trans htrial)

/-- **With a billing cycle.** -/
theorem billing_afterTrials {y : String} (hx : x.Of (serial cfg)) (hb : x.op.bills = some y)
    (h : AfterTrials x.before) : AfterTrials x.after := by
  -- only a create request inserts a row
  have hrow : ∀ id s', x.after.sub? id = some s' → ∃ s, x.before.sub? id = some s
      ∧ s'.trialEndsAt = s.trialEndsAt := by
    intro id s' hs'
    cases hs : x.before.sub? id with
    | some s => exact ⟨s, rfl, trial_after hx hs hs'⟩
    | none =>
        obtain ⟨body, hop⟩ := (created_of_new hx hs hs').op_eq
        rw [hop] at hb
        cases hb
  refine ⟨?_, fun id s' hs' => ?_, payments_stored hx h.stored,
    ⟨fun id s' t hs' htrial => ?_, fun p hp s' t hs' htrial => ?_⟩⟩
  · rw [plans_after hx]
    exact h.counts
  · obtain ⟨s, hs, -⟩ := hrow id s' hs'
    obtain ⟨u, hu, -, hperiod⟩ := row_carried hx hb hs
    obtain rfl : u = s' := Option.some.inj (hu.symm.trans hs')
    rcases hperiod with hsame | ⟨sub, hnext, rfl, -⟩
    · rw [hsame.start, hsame.finish]
      exact h.forward id s hs
    · rw [hnext.start]
      exact hnext.opened.planOf.next_lt h.counts hnext.finish
  · obtain ⟨s, hs, hkept⟩ := hrow id s' hs'
    have hbefore := h.honoured.periods id s t hs (hkept.symm.trans htrial)
    obtain ⟨u, hu, -, hperiod⟩ := row_carried hx hb hs
    obtain rfl : u = s' := Option.some.inj (hu.symm.trans hs')
    rcases hperiod with hsame | ⟨sub, hnext, rfl, -⟩
    · rw [hsame.start]
      exact hbefore
    · -- the period that ends has begun after the trial
      rw [hnext.start]
      exact hbefore.trans (h.forward id _ hs).le
  · obtain ⟨s, hs, hkept⟩ := hrow _ s' hs'
    have htrial := hkept.symm.trans htrial
    rcases payment_carried hx hb hp rfl with ⟨old, hmem, hold, hsame⟩ | ⟨-, u, hu, hbill⟩
    · rw [hsame.start]
      exact h.honoured.payments old hmem s t (hold ▸ hs) htrial
    · obtain rfl : u = s := Option.some.inj (hu.symm.trans hs)
      rw [hbill.start]
      exact h.honoured.periods _ u t hs htrial

/-- **A resume request begins a period at the time that it reads**, if its
calls are answered. -/
theorem resume_begins {id : String} {w w' : World} {t : List CallEvent}
    {r : Except Thrown HttpReply} (h : Runs api (subscriptions.resume cfg id) w t r w')
    (hup : DatabaseUp t) {s : Subscription} (hs : w.sub? id = some s) (hpaused : s.paused = true)
    {e : CallEvent} (he : e ∈ t) (hcall : e.call = .dateNow) :
    ∃ s', w'.sub? id = some s' ∧ s'.currentPeriodStart = e.env.now := by
  unfold subscriptions.resume at h
  obtain ⟨env, t₁, rfl, hgo⟩ := answered_runs h
  obtain ⟨found, hread, hrest⟩ := hgo (hup _ List.mem_cons_self (fun h => h))
  rcases List.mem_cons.mp he with rfl | he
  · cases hcall
  obtain rfl := found_of_read hread
  rw [serve_read rfl] at hrest
  cases hsub : (w.sub? id).bind w.withPlan with
  | none =>
      -- not found, so the clock is not read
      rw [hsub] at hrest
      obtain ⟨rfl, -, -⟩ := runs_done_iff.mp hrest
      cases he
  | some sub =>
      have hrow : sub.toSubscription = s :=
        Option.some.inj ((withPlan_eq_some hsub).1.symm.trans hs)
      rw [hsub] at hrest
      dsimp only at hrest
      rw [if_neg (by rw [show sub.paused = true from hrow ▸ hpaused]; decide)] at hrest
      obtain ⟨env₁, t₂, rfl, hgo₁⟩ := dateNow_runs hrest
      have hwrite := hgo₁ (hup _ (List.mem_cons_of_mem _ List.mem_cons_self) (fun h => h))
      obtain ⟨env₂, t₃, rfl, hgo₂⟩ := answered_runs hwrite
      obtain ⟨row, hread₂, hdone⟩ := hgo₂ (hup _
        (List.mem_cons_of_mem _ (List.mem_cons_of_mem _ List.mem_cons_self)) (fun h => h))
      obtain ⟨rfl, -, rfl⟩ := runs_done_iff.mp hdone
      rcases List.mem_cons.mp he with rfl | he
      swap
      · rw [List.mem_singleton.mp he] at hcall
        cases hcall
      rcases serve_subscriptionUpdate id _ env₂ w with
        ⟨err, hserve₂⟩ | ⟨old, u, hold, -, hu, hserve₂⟩
      · rw [hserve₂] at hread₂
        cases hread₂
      · rw [hserve₂]
        have hafter := sub?_update hold hu id
        rw [if_pos rfl] at hafter
        exact ⟨_, hafter, rfl⟩

end Executions

/-! ## §4. The claim. -/

/-- **Trials are honoured exactly under the condition**: in every history,
with failures at any call, in which every resume request meets it; and a
request whose calls are answered leaves them honoured only if it does.  A
history may begin with any plans, and with no subscriptions. -/
theorem trials_honoured_iff (cfg : Config) (w₀ w : World) (xs : List Step)
    (hsubscriptions : w₀.subscriptions.rows = []) (hpayments : w₀.payments.rows = [])
    (hcounts : ∀ plan ∈ w₀.plans, 1 ≤ plan.intervalCount)
    (h : History (serial cfg) (fun _ _ => True) w₀ xs w) :
    ((∀ x ∈ xs, ResumesAfterTrial x) → TrialsHonoured w)
      ∧ ∀ x ∈ xs, DatabaseUp x.trace → TrialsHonoured x.after → ResumesAfterTrial x := by
  refine ⟨fun hresumes => ?_, fun x hx hup hhonoured id s t hop hs hpaused htrial e he hcall => ?_⟩
  · have hstart : AfterTrials w₀ := by
      have hrow : ∀ id s, w₀.sub? id ≠ some s := fun id s hs =>
        Table.not_mem_of_nil hsubscriptions s (sub?_eq_some.mp hs).1
      have hnone : ∀ p, p ∉ w₀.payments := Table.not_mem_of_nil hpayments
      exact ⟨hcounts, fun id s hs => absurd hs (hrow id s), fun p hp => absurd hp (hnone p),
        ⟨fun id s _ hs _ => absurd hs (hrow id s), fun p hp => absurd hp (hnone p)⟩⟩
    refine ((h.restrict hresumes).invariant (J := fun _ w => AfterTrials w) hstart
      (fun past x hJ hx hresume => ?_) (fun _ w₁ _ hJ hdrift => ?_)).honoured
    · cases hb : x.op.bills with
      | none => exact unbilled_afterTrials hx hb hresume hJ
      | some y => exact billing_afterTrials hx hb hJ
    · obtain ⟨q, -, rfl⟩ := hdrift
      exact ⟨hJ.counts, hJ.forward, hJ.stored, hJ.honoured.periods, hJ.honoured.payments⟩
  · obtain ⟨henabled, hruns⟩ := h.of_mem hx
    rw [hop] at hruns
    obtain ⟨reply, hrequest⟩ := hruns.of_map
    obtain ⟨s', hs', hstart⟩ := resume_begins hrequest hup hs hpaused he hcall
    rw [← hstart]
    exact hhonoured.periods id s' t hs' ((trial_after (h.of_mem hx) hs hs').trans htrial)

/-! ## §5. Scenarios. -/

section Scenarios

open Shop

/-- The plan with a trial of three days. -/
def threeFreeDays : Plan := { plan with trialDays := 3 }

/-- Subscribed on day 1, paused on day 2 and resumed on day `n`. -/
def resumedOn (n : Nat) : List (Operation × List Env) :=
  [(.createSubscription ⟨"plan", wallet.address⟩, [on 1, on 1, on 1, fresh 1 "sub", on 1]),
   (.pause "sub", [on 2, on 2]),
   (.resume "sub", [on n, on n, on n])]

/-- The end of the trial, and the start of the current period. -/
def World.trial (w : World) : Option (Option Instant × Instant) :=
  (w.sub? "sub").map (fun s => (s.trialEndsAt, s.currentPeriodStart))

/-- **A trial that is cut short**: it ends on day 4, and the period begins on
day 2. -/
theorem trial_cut_short :
    ¬ ∀ (cfg : Config) (w₀ w : World) (xs : List Step), w₀.subscriptions.rows = [] →
      w₀.payments.rows = [] → (∀ plan ∈ w₀.plans, 1 ≤ plan.intervalCount) →
      History (serial cfg) (fun _ _ => True) w₀ xs w → Clocked xs → TrialsHonoured w := by
  intro hclaim
  have hrun : ((serial (cfg true)).play (fun _ _ => true) (resumedOn 2) []
      (opening threeFreeDays)).map (fun r => (decide (Clocked r.1), r.2.trial))
      = some (true, some (some (day 4), day 2)) := by
    decide +kernel
  obtain ⟨⟨xs, w⟩, hplay, hres⟩ := Option.map_eq_some_iff.mp hrun
  obtain ⟨hclock, hrow⟩ := Prod.mk.inj hres
  obtain ⟨s, hs, hperiod⟩ := Option.map_eq_some_iff.mp hrow
  obtain ⟨htrial, hstart⟩ := Prod.mk.inj hperiod
  have hhonoured := hclaim (cfg true) (opening threeFreeDays) w xs rfl rfl
    (fun p hp => by rw [List.mem_singleton.mp hp]; decide)
    (Serial.play_history (fun _ _ _ => trivial) .start hplay) (of_decide_eq_true hclock)
  have hle := hhonoured.periods "sub" s (day 4) hs htrial
  rw [hstart] at hle
  exact absurd (day_le.mp hle) (by decide)

/-- `ResumesAfterTrial` as a test. -/
def resumesAfterTrial (x : Step) : Bool :=
  match x.op with
  | .resume id => (x.before.sub? id).all (fun s => s.trialEndsAt.all (fun t =>
      x.trace.all (fun e => decide (t ≤ e.env.now))))
  | _ => true

theorem resumesAfterTrial_sound {x : Step} (h : resumesAfterTrial x = true) :
    ResumesAfterTrial x := by
  intro id s t hop hs _ htrial e he _
  unfold resumesAfterTrial at h
  rw [hop] at h
  dsimp only at h
  rw [hs, Option.all_some, htrial, Option.all_some] at h
  exact of_decide_eq_true (List.all_eq_true.mp h e he)

/-- Resumed on day 5: the period begins there. -/
theorem trials_honoured_iff_shop :
    ∃ xs w, History (serial (cfg true)) (fun _ _ => True) (opening threeFreeDays) xs w
      ∧ w.trial = some (some (day 4), day 5) ∧ TrialsHonoured w := by
  have hrun : ((serial (cfg true)).play (fun _ _ => true) (resumedOn 5) []
      (opening threeFreeDays)).map (fun r => (r.1.all resumesAfterTrial, r.2.trial))
      = some (true, some (some (day 4), day 5)) := by
    decide +kernel
  obtain ⟨⟨xs, w⟩, hplay, hres⟩ := Option.map_eq_some_iff.mp hrun
  obtain ⟨hresumes, hrow⟩ := Prod.mk.inj hres
  have h : History (serial (cfg true)) (fun _ _ => True) (opening threeFreeDays) xs w :=
    Serial.play_history (fun _ _ _ => trivial) .start hplay
  refine ⟨xs, w, h, hrow, (trials_honoured_iff (cfg true) (opening threeFreeDays) w xs rfl rfl
    ?_ h).1 (fun x hx => resumesAfterTrial_sound (List.all_eq_true.mp hresumes x hx))⟩
  intro p hp
  rw [List.mem_singleton.mp hp]
  decide

end Scenarios

end Sorobill
