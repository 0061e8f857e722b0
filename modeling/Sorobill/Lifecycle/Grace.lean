/-
  Sorobill.Lifecycle.Grace
  ────────────────────────
  **RETRIES AND GRACE PERIODS.**

  While every call on the database and every emission is answered, a billing
  cycle either advances the period and clears retries and grace period, or
  counts one more failure and, when the retries are used up, makes the
  subscription PAST_DUE with a grace period from then on.

    • `failures`, `enteredAt` — what the history tells: failed cycles since
      the last successful one, and when the subscription became PAST_DUE;
    • `grace_read` — a cycle writes a grace period from the time it has read;
    • `Counted` — the row agrees with the history;
    • `retries_and_grace_exact` — in every history, and for every cancellation
      by `expireGracePeriods`.
-/
import Sorobill.Model.Shop
import Sorobill.Rules.Bookings
import Sorobill.Rules.Requests
import Sorobill.Rules.Sweeps

namespace Sorobill

open Effect
open Relational

/-! ## §1. What the history tells. -/

/-- In a billing cycle of `id`, every call but those to the network is
answered. -/
def StoreAnswers (id : String) (x : Step) : Prop :=
  x.op.bills = some id → ∀ e ∈ x.trace, isRejected e = true → e.call.isNetwork

/-- The subscription that a billing cycle of `id` finds open. -/
def World.opened? (w : World) (id : String) : Option SubscriptionWithPlan :=
  ((w.sub? id).bind w.withPlan).filter
    (fun sub => sub.status != .CANCELLED && sub.status != .EXPIRED)

instance (w : World) (key : String) : Decidable (w.isPaid key) :=
  decidable_of_iff ((w.paymentByKey? key).any (fun p => p.status == .SUCCESS) = true)
    (by simp [World.isPaid, Option.any_eq_true])

/-- How the billing cycle of `id` ended, if the execution ran one: the period
that it found is paid afterwards, or it is not. -/
def outcome (id : String) (x : Step) : Option Bool :=
  if x.op.bills = some id then
    (x.before.opened? id).map (fun sub => decide (x.after.isPaid sub.currentKey))
  else none

/-- One more execution in the count of failures. -/
def countFailure (id : String) (n : Nat) (x : Step) : Nat :=
  match outcome id x with
  | none => n
  | some true => 0
  | some false => n + 1

/-- **The failed cycles of `id` since its last successful one.** -/
def failures (id : String) (xs : List Step) : Nat := xs.foldl (countFailure id) 0

/-- The last time that was read from the clock. -/
def lastRead (v : Option Instant) (e : CallEvent) : Option Instant :=
  match e.call with
  | .dateNow => some e.env.now
  | _ => v

/-- The subscription is PAST_DUE. -/
def World.pastDue (w : World) (id : String) : Bool :=
  (w.sub? id).any (fun s => s.status == .PAST_DUE)

/-- One more execution: when it makes the subscription PAST_DUE, it does so at
the time that it has read. -/
def trackEntry (id : String) (v : Option Instant) (x : Step) : Option Instant :=
  if x.after.pastDue id then
    if x.before.pastDue id then v else x.trace.foldl lastRead none
  else none

/-- **When `id` last became PAST_DUE**, if it is PAST_DUE. -/
def enteredAt (id : String) (xs : List Step) : Option Instant := xs.foldl (trackEntry id) none

theorem opened?_eq_some {w : World} {id : String} {sub : SubscriptionWithPlan} :
    w.opened? id = some sub ↔ Opened w id sub := by
  unfold World.opened?
  rw [Option.filter_eq_some_iff, Bool.and_eq_true, bne_iff_ne, bne_iff_ne]
  exact ⟨fun h => ⟨h.1, h.2.1, h.2.2⟩, fun h => ⟨h.found, h.notCancelled, h.notExpired⟩⟩

theorem failures_append (id : String) (xs : List Step) (x : Step) :
    failures id (xs ++ [x]) = countFailure id (failures id xs) x := by
  simp [failures]

theorem enteredAt_append (id : String) (xs : List Step) (x : Step) :
    enteredAt id (xs ++ [x]) = trackEntry id (enteredAt id xs) x := by
  simp [enteredAt]

theorem pastDue_iff {w : World} {id : String} {s : Subscription} (hs : w.sub? id = some s) :
    w.pastDue id = true ↔ s.status = .PAST_DUE := by
  unfold World.pastDue
  rw [hs, Option.any_some, beq_iff_eq]

/-- What was read last was read in the trace. -/
theorem lastRead_mem {t : List CallEvent} {v : Option Instant} {now : Instant}
    (h : t.foldl lastRead v = some now) : v = some now ∨ ∃ e ∈ t, e.env.now = now := by
  induction t generalizing v with
  | nil => exact .inl h
  | cons e t ih =>
      rcases ih h with hv | ⟨e', he', hnow⟩
      · unfold lastRead at hv
        split at hv
        · exact .inr ⟨e, List.mem_cons_self, Option.some.inj hv⟩
        · exact .inl hv
      · exact .inr ⟨e', List.mem_cons_of_mem _ he', hnow⟩

/-! ## §2. Which grace period a cycle writes. -/

/-- The contract under which the clock is read once, and a grace period is
written from that time on. -/
def graceContract (cfg : Config) : Contract api (Option Instant) where
  rely := Eq
  assume _ _ := True
  guarantee v e := (e.call = .dateNow → v = none)
    ∧ ∀ x data grace, e.call = .subscriptionUpdate x data →
        data.gracePeriodEndsAt = some (some grace) →
        ∃ t, v = some t ∧ grace = hoursFrom t cfg.billing.gracePeriodHours
  track := lastRead

/-- The calls that neither read the clock nor write a grace period. -/
def Call.writesNoGrace : Call → Prop
  | .dateNow => False
  | .subscriptionUpdate _ data => ∀ grace, data.gracePeriodEndsAt ≠ some (some grace)
  | _ => True

section Walk

variable {cfg : Config} {w : World} {v : Option Instant} {α : Type}

theorem Call.isWebhook.writesNoGrace {c : Call} (h : c.isWebhook) : c.writesNoGrace := by
  cases c <;> first | exact h.elim | trivial

theorem Call.isCharge.writesNoGrace {pid : String} {c : Call} (h : c.isCharge pid) :
    c.writesNoGrace := by
  cases c <;> first | exact h.elim | trivial

theorem Call.writesNoGrace.lastRead {e : CallEvent} (h : e.call.writesNoGrace) :
    lastRead v e = v := by
  unfold Sorobill.lastRead
  split
  next hcall =>
    rw [hcall] at h
    exact h.elim
  next => rfl

theorem Call.writesNoGrace.graced {e : CallEvent} (h : e.call.writesNoGrace) :
    (graceContract cfg).guarantee v e := by
  constructor
  · intro hcall
    rw [hcall] at h
    exact h.elim
  · intro x data grace hcall hgrace
    rw [hcall] at h
    exact absurd hgrace (h grace)

/-- A program of such calls. -/
theorem grace_unwritten {p : Service α} (hp : Calls api Call.writesNoGrace p) :
    Safe (graceContract cfg) p (fun _ _ v' => v' = v) w v := by
  refine safe_views (C := graceContract cfg) (K := fun v' => v' = v)
    (fun u e he hu _ => ⟨he.graced, ?_⟩) rfl hp
  show lastRead u e = v
  rw [he.lastRead]
  exact hu

theorem advancePeriod_unwritten (sub : SubscriptionWithPlan) :
    Calls api Call.writesNoGrace (advancePeriod cfg sub) :=
  calls_bind (fun _ => calls_pure) (calls_perform (fun grace h => by cases h))

/-- The failure handler reads the clock and writes the grace period. -/
theorem handlePaymentFailure_graced (sub : SubscriptionWithPlan) (pid : String) :
    Safe (graceContract cfg) (handlePaymentFailure cfg sub pid) (fun _ _ _ => True) w none := by
  -- the grace period is counted from the clock that was read last
  have hread : ∀ {β : Type} {f : Instant → Service β},
      (∀ now w', Safe (graceContract cfg) (f now) (fun _ _ _ => True) w' (some now)) →
      Safe (graceContract cfg) (dateNow >>= f) (fun _ _ _ => True) w none := by
    intro β f hf
    rw [safe_bind]
    refine safe_perform.mpr (fun w₁ env _ _ => ⟨⟨fun _ => rfl, ?_⟩, ?_⟩)
    · intro x data grace hcall
      cases hcall
    · rcases serve_dateNow env w₁ with ⟨err, h⟩ | h
      · rw [h]
        trivial
      · rw [h]
        exact hf env.now w₁
  unfold handlePaymentFailure
  dsimp only
  split
  · refine hread (fun now w₁ => ?_)
    rw [safe_bind]
    refine safe_perform.mpr (fun w₂ env _ _ => ⟨⟨?_, ?_⟩, ?_⟩)
    · intro hcall
      cases hcall
    · intro x data grace hcall hgrace
      cases hcall
      exact ⟨now, rfl, (Option.some.inj (Option.some.inj hgrace)).symm⟩
    · cases (api.serve _ env w₂).1 with
      | error err => trivial
      | ok _ =>
          refine (grace_unwritten ?_).mono (fun _ _ _ _ => trivial)
          exact (emitWebhookEvent_calls _ _ _).mono (fun _ h => h.writesNoGrace)
  · -- below the maximum no grace period is written
    refine hread (fun now w₁ => ?_)
    refine (grace_unwritten ?_).mono (fun _ _ _ _ => trivial)
    refine calls_bind (fun _ => ?_) (calls_perform trivial)
    exact calls_bind (fun _ => calls_pure) (calls_perform (fun grace h => by cases h))

/-- **A cycle reads the clock when its charge has failed.** -/
theorem processBillingCycle_graced (x : String) :
    Safe (graceContract cfg) (processBillingCycle cfg x) (fun _ _ _ => True) w none := by
  refine safe_cycle (C := graceContract cfg) (E := fun _ => True) (fun {c R} hc herr hok => ?_)
    (fun _ _ _ => trivial) (fun _ _ => trivial)
    (fun sub _ _ => (grace_unwritten (advancePeriod_unwritten sub)).mono (fun _ _ _ _ => trivial))
    (fun sub payment w₁ _ _ _ => ?_)
  · -- the calls that open a cycle
    have hc : c.writesNoGrace := by
      cases c <;> first | exact hc.elim | trivial
    exact safe_unnoticed (fun _ h => h)
      (fun env => ⟨hc.graced (e := ⟨w, c, env⟩), hc.lastRead (e := ⟨w, c, env⟩)⟩)
      (fun err => herr err none trivial) hok
  · rw [safe_tryCatch]
    unfold processBillingCycle.attempt
    refine (grace_unwritten (v := none) (calls_bind (fun _ => ?_)
      ((chargePayment_calls sub payment.id sub.currentKey).mono
        (fun _ h => h.writesNoGrace)))).mono ?_
    · exact calls_bind (fun _ => (emitWebhookEvent_calls _ _ _).mono
        (fun _ h => h.writesNoGrace)) (advancePeriod_unwritten sub)
    · intro r w₂ v hv
      subst hv
      cases r with
      | ok _ => trivial
      | error err => exact handlePaymentFailure_graced sub payment.id

/-- The row has kept the grace period of `s`, or has none, or one that runs
from the time that was read. -/
def GraceFrom (cfg : Config) (s s' : Subscription) (v : Option Instant) : Prop :=
  s'.gracePeriodEndsAt = s.gracePeriodEndsAt ∨ s'.gracePeriodEndsAt = none
    ∨ ∃ t g, v = some t ∧ hoursFrom t cfg.billing.gracePeriodHours = some g
        ∧ s'.gracePeriodEndsAt = some g

/-- A call of a cycle. -/
theorem graceFrom_after {id : String} {s r : Subscription} {e : CallEvent}
    (hguarantee : (graceContract cfg).guarantee v e) (hr : e.before.sub? id = some r)
    (h : GraceFrom cfg s r v) :
    ∃ r', (e.after api).sub? id = some r' ∧ GraceFrom cfg s r' (lastRead v e) := by
  obtain ⟨hclock, hwrite⟩ := hguarantee
  rcases sub?_after e hr with hafter | ⟨data, hcall, hvalid, hafter⟩
  · refine ⟨r, hafter, ?_⟩
    rcases h with h | h | ⟨t, g, hv, hg, h⟩
    · exact .inl h
    · exact .inr (.inl h)
    · -- the clock is not read again
      refine .inr (.inr ⟨t, g, ?_, hg, h⟩)
      unfold lastRead
      split
      next hcall =>
        rw [hclock hcall] at hv
        cases hv
      next => exact hv
  · have hlast : lastRead v e = v := by
      unfold lastRead
      rw [hcall]
    refine ⟨data.apply e.env.now r, hafter, ?_⟩
    rw [hlast]
    rcases hdata : data.gracePeriodEndsAt with _ | _ | grace
    · have hsame : (data.apply e.env.now r).gracePeriodEndsAt = r.gracePeriodEndsAt := by
        simp [SubscriptionData.apply, setDate?, hdata]
      unfold GraceFrom
      rw [hsame]
      exact h
    · exact .inr (.inl (by simp [SubscriptionData.apply, setDate?, hdata]))
    · obtain ⟨t, hv, rfl⟩ := hwrite id data grace hcall hdata
      cases hg : hoursFrom t cfg.billing.gracePeriodHours with
      | none =>
          -- an Invalid Date is refused
          simp [SubscriptionData.valid, hdata, hg, validDate?] at hvalid
      | some g =>
          refine .inr (.inr ⟨t, g, hv, hg, ?_⟩)
          simp [SubscriptionData.apply, setDate?, hdata, hg]

/-- **The grace period after a billing execution** is the one before it, or
none, or runs from the time that the execution has read. -/
theorem grace_read {x : Step} {id : String} (hx : x.Of (serial cfg)) (hb : x.op.bills = some id)
    {s s' : Subscription} (hs : x.before.sub? id = some s) (hs' : x.after.sub? id = some s') :
    GraceFrom cfg s s' (x.trace.foldl lastRead none) := by
  have hkeep : ∀ v (e : CallEvent), (∃ r, e.before.sub? id = some r ∧ GraceFrom cfg s r v) →
      (graceContract cfg).guarantee v e →
      ∃ r, (e.after api).sub? id = some r ∧ GraceFrom cfg s r (lastRead v e) := by
    intro v e hJ hguarantee
    obtain ⟨r, hr, h⟩ := hJ
    exact graceFrom_after hguarantee hr h
  obtain ⟨-, ⟨r, hr, h⟩, -⟩ := Safe.of_runs_keeping (C := graceContract cfg)
    (J := fun v w => ∃ r, w.sub? id = some r ∧ GraceFrom cfg s r v)
    (fun _ => rfl) (fun _ _ _ => trivial) hkeep hx.runs ⟨s, hs, .inl rfl⟩
    (safe_billing hb (processBillingCycle_graced id))
  obtain rfl : r = s' := Option.some.inj (hr.symm.trans hs')
  exact h

end Walk

/-! ## §3. One execution. -/

/-- The row is the one that the history tells of. -/
structure Exact (cfg : Config) (id : String) (xs : List Step) (s : Subscription) : Prop where
  retries : s.retryCount = failures id xs
  pastDue : s.status = .PAST_DUE ↔ cfg.billing.maxRetries ≤ s.retryCount
  grace : cfg.billing.maxRetries ≤ s.retryCount ↔ s.gracePeriodEndsAt ≠ none
  entered : s.status = .PAST_DUE → ∃ t g, enteredAt id xs = some t
    ∧ s.gracePeriodEndsAt = some g ∧ t.ms + cfg.billing.gracePeriodHours * 3600000 ≤ g.ms
    ∧ ∃ e ∈ xs.flatMap (·.trace), e.env.now = t

/-- **What holds between operations.** -/
structure Counted (cfg : Config) (id : String) (xs : List Step) (w : World) : Prop where
  unborn : w.sub? id = none → failures id xs = 0
  exact : ∀ s, w.sub? id = some s → s.status ≠ .CANCELLED → Exact cfg id xs s

section Executions

variable {cfg : Config} {id : String} {xs : List Step} {x : Step}

/-- The execution has neither counted a failure nor moved the status. -/
theorem Exact.carried {s s' : Subscription} (h : Exact cfg id xs s)
    (hs : x.before.sub? id = some s) (hs' : x.after.sub? id = some s')
    (hcount : failures id (xs ++ [x]) = failures id xs) (hstatus : s'.status = s.status)
    (hretries : s'.retryCount = s.retryCount)
    (hgrace : s'.gracePeriodEndsAt = s.gracePeriodEndsAt) :
    Exact cfg id (xs ++ [x]) s' := by
  refine ⟨?_, ?_, ?_, fun hdue => ?_⟩
  · rw [hretries, hcount]
    exact h.retries
  · rw [hstatus, hretries]
    exact h.pastDue
  · rw [hretries, hgrace]
    exact h.grace
  · obtain ⟨t, g, ht, hg, hle, e, he, hnow⟩ := h.entered (hstatus ▸ hdue)
    refine ⟨t, g, ?_, hgrace.trans hg, hle, e, ?_, hnow⟩
    · rw [enteredAt_append, trackEntry, if_pos ((pastDue_iff hs').mpr hdue),
        if_pos ((pastDue_iff hs).mpr (hstatus ▸ hdue)), ht]
    · rw [List.flatMap_append]
      exact List.mem_append_left _ he

/-- A row with retries left and no grace period. -/
theorem Exact.fresh {s : Subscription} (hretries : s.retryCount = failures id xs)
    (hleft : (s.retryCount : Int) < cfg.billing.maxRetries) (hst : s.status ≠ .PAST_DUE)
    (hgrace : s.gracePeriodEndsAt = none) : Exact cfg id xs s := by
  refine ⟨hretries, ?_, ?_, fun h => absurd h hst⟩
  · exact ⟨fun h => absurd h hst, fun h => absurd hleft (not_lt.mpr h)⟩
  · exact ⟨fun h => absurd hleft (not_lt.mpr h), fun h => absurd hgrace h⟩

/-- No cycle of `id` has found it open. -/
theorem failures_kept (h : outcome id x = none) : failures id (xs ++ [x]) = failures id xs := by
  rw [failures_append, countFailure, h]

theorem outcome_of_unbilled (hb : x.op.bills ≠ some id) : outcome id x = none := if_neg hb

theorem outcome_of_closed (h : ∀ sub, ¬ Opened x.before id sub) : outcome id x = none := by
  unfold outcome
  split
  · rw [Option.map_eq_none_iff, Option.eq_none_iff_forall_ne_some]
    exact fun sub hsub => h sub (opened?_eq_some.mp hsub)
  · rfl

theorem outcome_of_opened {sub : SubscriptionWithPlan} (hb : x.op.bills = some id)
    (h : Opened x.before id sub) :
    outcome id x = some (decide (x.after.isPaid sub.currentKey)) := by
  rw [outcome, if_pos hb, opened?_eq_some.mpr h, Option.map_some]

/-- **An execution that does not bill `id`.** -/
theorem unbilled_counted (hx : x.Of (serial cfg)) (hretries : 1 ≤ cfg.billing.maxRetries)
    (hb : x.op.bills ≠ some id) (h : Counted cfg id xs x.before) :
    Counted cfg id (xs ++ [x]) x.after := by
  have hcount : failures id (xs ++ [x]) = failures id xs :=
    failures_kept (outcome_of_unbilled hb)
  -- the row keeps its terms, or is new
  have hrow : ∀ s, x.before.sub? id = some s → ∃ s', x.after.sub? id = some s'
      ∧ (s'.status = s.status ∨ s'.status = .CANCELLED) ∧ s'.retryCount = s.retryCount
      ∧ s'.gracePeriodEndsAt = s.gracePeriodEndsAt := by
    intro s hs
    cases hbills : x.op.bills with
    | some y =>
        have hne : id ≠ y := fun heq => hb (heq ▸ hbills)
        exact ⟨s, (other_after_billing hx hbills hne).trans hs, .inl rfl, rfl, rfl⟩
    | none =>
        obtain ⟨s', hs', hterms⟩ := row_after_unbilled hx hbills hs
        refine ⟨s', hs', ?_⟩
        rcases hterms with hsame | hnew
        · exact ⟨hsame.status, hsame.retryCount, hsame.grace⟩
        · obtain ⟨_, _, _, _, -, -, -, rfl⟩ := hnew.period
          exact ⟨.inl rfl, rfl, rfl⟩
  refine ⟨fun hnone => ?_, fun s' hs' hopen => ?_⟩
  · rw [hcount]
    refine h.unborn ?_
    cases hs : x.before.sub? id with
    | none => rfl
    | some s =>
        obtain ⟨s', hs', -⟩ := hrow s hs
        rw [hs'] at hnone
        cases hnone
  cases hs : x.before.sub? id with
  | none =>
      -- the subscription is created, with no retries used
      have hnew := created_of_new hx hs hs'
      refine Exact.fresh ?_ ?_ ?_ hnew.grace
      · rw [hnew.retryCount, hcount, h.unborn hs]
      · rw [hnew.retryCount]
        exact_mod_cast hretries
      · rcases hnew.status with hst | hst <;> simp [hst]
  | some s =>
      obtain ⟨t, ht, hstatus, hretry, hgrace⟩ := hrow s hs
      obtain rfl : t = s' := Option.some.inj (ht.symm.trans hs')
      have hstatus : t.status = s.status := hstatus.resolve_right hopen
      exact (h.exact s hs (hstatus ▸ hopen)).carried hs hs' hcount hstatus hretry hgrace

/-- The failure that exhausts the retries. -/
theorem Exact.penalised {s s' : Subscription} (hx : x.Of (serial cfg)) (hb : x.op.bills = some id)
    (hclock : Clocked (xs ++ [x])) (h : Exact cfg id xs s)
    (hs : x.before.sub? id = some s) (hs' : x.after.sub? id = some s') {g now : Instant}
    (hcount : failures id (xs ++ [x]) = failures id xs + 1)
    (hmax : cfg.billing.maxRetries ≤ (s.retryCount : Int) + 1)
    (hrow : s' = { s with
      status := .PAST_DUE
      retryCount := s.retryCount + 1
      gracePeriodEndsAt := some g
      updatedAt := now }) : Exact cfg id (xs ++ [x]) s' := by
  have hg : s'.gracePeriodEndsAt = some g := by rw [hrow]
  have hst : s'.status = .PAST_DUE := by rw [hrow]
  have hretry : s'.retryCount = s.retryCount + 1 := by rw [hrow]
  have hmax : cfg.billing.maxRetries ≤ s'.retryCount := by
    rw [hretry]
    exact_mod_cast hmax
  have hafter : x.after.pastDue id = true := (pastDue_iff hs').mpr hst
  refine ⟨?_, ⟨fun _ => hmax, fun _ => hst⟩, ⟨fun _ => by simp [hg], fun _ => hmax⟩, fun _ => ?_⟩
  · rw [hretry, hcount, h.retries]
  rw [enteredAt_append, trackEntry, if_pos hafter, List.flatMap_append]
  have hread := grace_read hx hb hs hs'
  by_cases hdue : s.status = .PAST_DUE
  · -- it was PAST_DUE before
    obtain ⟨t₀, g₀, ht₀, hg₀, hle, e, he, hnow⟩ := h.entered hdue
    refine ⟨t₀, g, ?_, hg, ?_, e, List.mem_append_left _ he, hnow⟩
    · rw [if_pos ((pastDue_iff hs).mpr hdue), ht₀]
    rcases hread with hkept | hnone | ⟨t, g', ht, hg', hgrace⟩
    · rw [hg, hg₀] at hkept
      rwa [Option.some.inj hkept]
    · rw [hg] at hnone
      cases hnone
    · -- the clock was read after it became PAST_DUE
      obtain rfl : g = g' := Option.some.inj (hg.symm.trans hgrace)
      have hlater : t₀ ≤ t := by
        obtain hnone | ⟨e', he', rfl⟩ := lastRead_mem ht
        · cases hnone
        · rw [← hnow]
          exact (clocked_append.mp hclock).2.2 e he e' he'
      have hms := timeClip_eq_some hg'
      have := Instant.le_def.mp hlater
      omega
  · -- it becomes PAST_DUE now
    have hbefore : x.before.pastDue id = false :=
      Bool.eq_false_iff.mpr (fun hdue' => hdue ((pastDue_iff hs).mp hdue'))
    have hnone : s.gracePeriodEndsAt = none := by
      by_contra hgrace
      exact hdue (h.pastDue.mpr (h.grace.mpr hgrace))
    rw [hbefore, if_neg Bool.false_ne_true]
    rcases hread with hkept | hnone | ⟨t, g', ht, hg', hgrace⟩
    · rw [hg, hnone] at hkept
      cases hkept
    · rw [hg] at hnone
      cases hnone
    · obtain rfl : g = g' := Option.some.inj (hg.symm.trans hgrace)
      obtain hstart | ⟨e, he, hnow⟩ := lastRead_mem ht
      · cases hstart
      · exact ⟨t, g, ht, hg, (timeClip_eq_some hg').symm.le, e,
          List.mem_append_right _ (by simpa using he), hnow⟩

/-- Nothing was billed. -/
theorem closed_counted (hnot : ∀ sub, ¬ Opened x.before id sub)
    (hrow : x.after.sub? id = x.before.sub? id) (h : Counted cfg id xs x.before) :
    Counted cfg id (xs ++ [x]) x.after := by
  have hcount : failures id (xs ++ [x]) = failures id xs := failures_kept (outcome_of_closed hnot)
  refine ⟨fun hnone => ?_, fun s hs hopen => ?_⟩
  · rw [hcount]
    exact h.unborn (hrow ▸ hnone)
  · have hs₀ : x.before.sub? id = some s := hrow ▸ hs
    exact (h.exact s hs₀ hopen).carried hs₀ hs hcount rfl rfl rfl

/-- The period was paid and is advanced. -/
theorem advanced_counted (hretries : 1 ≤ cfg.billing.maxRetries) (hb : x.op.bills = some id)
    {sub : SubscriptionWithPlan} {newEnd now : Instant} (hopen : Opened x.before id sub)
    (hpaid : x.after.isPaid sub.currentKey)
    (hrow : x.after.sub? id = some (sub.advanced newEnd now)) :
    Counted cfg id (xs ++ [x]) x.after := by
  have hcount : failures id (xs ++ [x]) = 0 := by
    rw [failures_append, countFailure, outcome_of_opened hb hopen, decide_eq_true hpaid]
  refine ⟨fun _ => hcount, fun s hs _ => ?_⟩
  obtain rfl : sub.advanced newEnd now = s := Option.some.inj (hrow.symm.trans hs)
  have hactive : (sub.advanced newEnd now).status ≠ .PAST_DUE := by
    simp [SubscriptionWithPlan.advanced]
  exact Exact.fresh hcount.symm (by exact_mod_cast hretries) hactive rfl

/-- The charge has failed. -/
theorem failed_counted {A : CallEvent → Prop} (hA : ¬ Refusable A) (hx : x.Of (serial cfg))
    (hclock : Clocked (xs ++ [x])) (hb : x.op.bills = some id) {sub : SubscriptionWithPlan}
    {s' : Subscription} (hopen : Opened x.before id sub)
    (hunpaid : ¬ x.after.isPaid sub.currentKey)
    (hpen : Penalised cfg A sub.retryCount sub.toSubscription s')
    (hrow : x.after.sub? id = some s') (h : Counted cfg id xs x.before) :
    Counted cfg id (xs ++ [x]) x.after := by
  have hcount : failures id (xs ++ [x]) = failures id xs + 1 := by
    rw [failures_append, countFailure, outcome_of_opened hb hopen, decide_eq_false hunpaid]
  have hexact := h.exact _ hopen.row hopen.notCancelled
  refine ⟨fun hnone => ?_, fun s hs _ => ?_⟩
  · rw [hrow] at hnone
    cases hnone
  obtain rfl : s' = s := Option.some.inj (hrow.symm.trans hs)
  cases hpen with
  -- the store answers, so the failure was written
  | unwritten hrefuse => exact absurd hrefuse hA
  | pastDue g now hmax => exact hexact.penalised hx hb hclock hopen.row hs hcount hmax rfl
  | counted now hleft =>
      have hbefore : ¬ cfg.billing.maxRetries ≤ (sub.retryCount : Int) := by omega
      refine Exact.fresh ?_ (by exact_mod_cast hleft) ?_ ?_
      · show sub.retryCount + 1 = _
        rw [hexact.retries, hcount]
      · exact fun hdue => hbefore (hexact.pastDue.mp hdue)
      · by_contra hgrace
        exact hbefore (hexact.grace.mpr hgrace)

/-- **A billing cycle of `id`.** -/
theorem billing_counted (hx : x.Of (serial cfg)) (hretries : 1 ≤ cfg.billing.maxRetries)
    (hclock : Clocked (xs ++ [x])) (hanswers : StoreAnswers id x) (hb : x.op.bills = some id)
    (h : Counted cfg id xs x.before) : Counted cfg id (xs ++ [x]) x.after := by
  have hA : ¬ Refusable (fun e => isRejected e = true → e.call.isNetwork) := by
    intro hrefuse
    obtain ⟨e, hA, hstore, hrej⟩ := hrefuse
    exact hstore.2 (hA hrej)
  have hsent : (logOf x.trace).emissionRefused = false := by
    rw [logOf, log_of_trace]
    refine List.any_eq_false.mpr (fun e he hboth => ?_)
    obtain ⟨hweb, hrej⟩ := Bool.and_eq_true_iff.mp hboth
    have hweb := of_decide_eq_true hweb
    have hnet := hanswers hb e he hrej
    revert hweb hnet
    cases e.call <;> simp [Call.isWebhook, Call.isNetwork]
  obtain ⟨w', v', hw, hsent, hend⟩ : ∃ w' v', x.after = w' ∧ v'.emissionRefused = false
      ∧ CycleEnd cfg (fun e => isRejected e = true → e.call.isNetwork) id x.before {} w' v' :=
    ⟨_, _, rfl, hsent, seq_runs hx.runs (hanswers hb) (billing_ends cfg hb)⟩
  cases hend with
  | untouched hnot => exact closed_counted (hnot.resolve_left hA) (congrArg (·.sub? id) hw) h
  | @advanced sub _ newEnd now hopen hpaid hch hrow =>
      refine advanced_counted hretries hb hopen ?_ (hw ▸ hrow)
      rw [hw]
      exact (isPaid_congr (hch.payments_eq (by decide)).1 _).mpr hpaid
  | @charged sub _ _ hopen hunpaid hsub htail =>
      have hid := hopen.id_eq
      cases htail with
      | settled newEnd now hpaid _ _ hrow =>
          rw [hid, ← hw] at hrow
          exact advanced_counted hretries hb hopen (hw ▸ hpaid) hrow
      | unannounced newEnd now t _ _ _ hrefused =>
          -- a webhook call was rejected
          rw [hsent] at hrefused
          cases hrefused
      | unadvanced t _ _ hrefuse => exact absurd hrefuse hA
      | failed t hunpaid _ hpen hrow =>
          rw [hid, ← hw] at hrow
          exact failed_counted hA hx hclock hb hopen (hw ▸ hunpaid) hpen hrow h

/-- **What one execution keeps.** -/
theorem execution_counted (hx : x.Of (serial cfg)) (hretries : 1 ≤ cfg.billing.maxRetries)
    (hclock : Clocked (xs ++ [x])) (hanswers : StoreAnswers id x)
    (h : Counted cfg id xs x.before) : Counted cfg id (xs ++ [x]) x.after := by
  by_cases hb : x.op.bills = some id
  · exact billing_counted hx hretries hclock hanswers hb h
  · exact unbilled_counted hx hretries hb h

/-- **A sweep writes a row as it was found**, PAST_DUE with its grace period
over. -/
theorem swept_row (hx : x.Of (serial cfg)) (hsweep : x.op.sweeps = true)
    (hclock : x.trace.Pairwise (fun e e' => e.env.now ≤ e'.env.now)) {e : CallEvent}
    (he : e ∈ x.trace) {data : SubscriptionData} (hcall : e.call = .subscriptionUpdate id data) :
    ∃ s, x.before.sub? id = some s ∧ s.ExpiredBy e.env.now := by
  obtain ⟨s', hs', hdue, g, hg, hle⟩ := sweep_expired hx hsweep hclock e he id data hcall
  have hruns : Runs api (x.op.body cfg) x.before x.trace x.reply x.after := hx.runs
  have hcalls : Calls api (Call.isOrdinary { enqueues := true }) (x.op.body cfg) := by
    cases hop : x.op with
    | tick => exact calls_map (tick_calls.mono (fun _ h => h.1))
    | expireGracePeriods =>
        exact calls_map ((expireGracePeriods_calls _).mono (fun _ h => h.1))
    | _ =>
        rw [hop] at hsweep
        cases hsweep
  have hevents := hcalls.events hruns
  -- a row that is not CANCELLED is the row before the execution
  have hkept := (hruns.always (P := fun w => ∀ s', w.sub? id = some s' →
    ∃ s, x.before.sub? id = some s ∧ SameTerms s s') (fun s' hs' => ⟨s', hs', .refl s'⟩) ?_).1
  · obtain ⟨s, hs, hsame⟩ := hkept e he s' hs'
    have hstatus : s.status = .PAST_DUE := by
      rcases hsame.status with heq | heq
      · exact heq.symm.trans hdue
      · rw [hdue] at heq
        cases heq
    exact ⟨s, hs, hstatus, g, hsame.grace.symm.trans hg, hle⟩
  · intro e he hP s' hs'
    have hordinary := hevents e he
    cases hr : e.before.sub? id with
    | none =>
        rw [insertsNone_after (fun data heq => ?_) id hr] at hs'
        · cases hs'
        · rw [heq] at hordinary
          exact Bool.false_ne_true hordinary.2
    | some r =>
        obtain ⟨s, hs, hsame⟩ := hP r hr
        obtain ⟨r', hr', hterms⟩ := keepsTerms_after rfl rfl hordinary id r hr
        obtain rfl : r' = s' := Option.some.inj (hr'.symm.trans hs')
        exact ⟨s, hs, hsame.trans hterms⟩

end Executions

/-! ## §4. Histories. -/

/-- **When a sweep may write `id`**: after `maxRetries` failed cycles in a row,
and no sooner than `gracePeriodHours` after it became PAST_DUE. -/
def SweptLate (cfg : Config) (id : String) (past : List Step) (x : Step) : Prop :=
  x.op.sweeps = true → ∀ e ∈ x.trace, ∀ data, e.call = .subscriptionUpdate id data →
    cfg.billing.maxRetries ≤ failures id past
    ∧ ∃ t, enteredAt id past = some t
        ∧ t.ms + cfg.billing.gracePeriodHours * 3600000 ≤ e.env.now.ms

/-- **Retries and grace period, exactly.** In every history in which the
subscription is created, and in which the billing cycles of the subscription
fail at the network only: while it is not CANCELLED, its retry count is the
number of failed cycles since the last successful one, and it is PAST_DUE, the
retries are used up and there is a grace period all at the same time; and a
sweep cancels it late. -/
theorem retries_and_grace_exact (cfg : Config) (id : String) (w₀ w : World) (xs : List Step)
    (hretries : 1 ≤ cfg.billing.maxRetries) (hnone : w₀.sub? id = none)
    (h : History (serial cfg) (fun _ x => StoreAnswers id x) w₀ xs w) (hclock : Clocked xs) :
    (∀ s, w.sub? id = some s → s.status ≠ .CANCELLED →
      s.retryCount = failures id xs
        ∧ (s.status = .PAST_DUE ↔ cfg.billing.maxRetries ≤ s.retryCount)
        ∧ (cfg.billing.maxRetries ≤ s.retryCount ↔ s.gracePeriodEndsAt ≠ none))
    ∧ ∀ past x, past ++ [x] <+: xs → SweptLate cfg id past x := by
  have hstart : Clocked [] → Counted cfg id [] w₀ := by
    refine fun _ => ⟨fun _ => rfl, fun s hs => ?_⟩
    rw [hnone] at hs
    cases hs
  have hdrift : ∀ (xs : List Step) w₁ w₂, (Clocked xs → Counted cfg id xs w₁) →
      (serial cfg).drift w₁ w₂ → Clocked xs → Counted cfg id xs w₂ := by
    intro xs w₁ w₂ hJ h hclock
    obtain ⟨q, -, rfl⟩ := h
    exact ⟨(hJ hclock).unborn, (hJ hclock).exact⟩
  -- the count is exact after each step, as long as the clocks are in order
  have hstep : ∀ (xs : List Step) (x : Step), (Clocked xs → Counted cfg id xs x.before) →
      x.Of (serial cfg) → StoreAnswers id x → Clocked (xs ++ [x]) →
      Counted cfg id (xs ++ [x]) x.after := by
    intro xs x hJ hx hanswers hclock
    exact execution_counted hx hretries hclock hanswers (hJ (clocked_append.mp hclock).1)
  constructor
  · have hcounted := h.invariant (J := fun xs w => Clocked xs → Counted cfg id xs w) hstart hstep
      hdrift hclock
    intro s hs hopen
    have hexact := hcounted.exact s hs hopen
    exact ⟨hexact.retries, hexact.pastDue, hexact.grace⟩
  · intro past x hpast
    refine h.each (J := fun xs w => Clocked xs → Counted cfg id xs w)
      (P := fun past x => Clocked (past ++ [x]) → SweptLate cfg id past x) hstart
      (fun past x hJ hx hanswers => ?_) hdrift past x hpast (hclock.of_prefix hpast)
    refine ⟨fun hclock hsweep e he data hcall => ?_, hstep past x hJ hx hanswers⟩
    obtain ⟨hpast, htrace, -⟩ := clocked_append.mp hclock
    -- the row that is swept was PAST_DUE, with an entry that dates its grace period
    obtain ⟨s, hs, hdue, g, hg, hle⟩ := swept_row hx hsweep htrace he hcall
    have hexact := (hJ hpast).exact s hs (by simp [hdue])
    obtain ⟨t, g', ht, hg', hms, -⟩ := hexact.entered hdue
    obtain rfl : g = g' := Option.some.inj (hg.symm.trans hg')
    refine ⟨hexact.retries ▸ hexact.pastDue.mp hdue, t, ht, hms.trans (Instant.le_def.mp hle)⟩

/-! ## §5. A scenario. -/

section Scenarios

open Shop

/-- Created on day 1; two charges on day 2 and one on day 3 fail, for the RPC
is down; the sweep on day 5 finds the grace period over. -/
def failedThrice : List (Operation × List Env) :=
  [(.createSubscription ⟨"plan", wallet.address⟩, [on 1, on 1, on 1, fresh 1 "sub", on 1]),
   (.runInline "sub", [on 2, on 2, fresh 2 "pay", on 2, on 2, rejected 2, on 2, on 2, on 2,
     on 2]),
   (.runInline "sub", [on 2, on 2, on 2, on 2, rejected 2, on 2, on 2, on 2, on 2]),
   (.runInline "sub", [on 3, on 3, on 3, on 3, rejected 3, on 3, on 3, on 3, on 3]),
   (.expireGracePeriods, [on 5, on 5, on 5, on 5, on 5])]

/-- `StoreAnswers` as a test. -/
def storeAnswers (id : String) (x : Step) : Bool :=
  x.op.bills != some id || x.trace.all (fun e => !isRejected e || decide e.call.isNetwork)

theorem storeAnswers_sound {id : String} {x : Step} (h : storeAnswers id x = true) :
    StoreAnswers id x := by
  intro hb e he hrej
  unfold storeAnswers at h
  rw [hb, bne_self_eq_false, Bool.false_or] at h
  have htest := List.all_eq_true.mp h e he
  rw [hrej, Bool.not_true, Bool.false_or] at htest
  exact of_decide_eq_true htest

/-- Three failed cycles make the subscription PAST_DUE on day 3, and the sweep
of day 5 cancels it. -/
theorem retries_and_grace_exact_shop :
    ∃ (xs : List Step) (w : World),
      xs.map (outcome "sub") = [none, some false, some false, some false, none]
      ∧ (w.sub? "sub").map (·.status) = some .CANCELLED
      ∧ ∀ past x, past ++ [x] <+: xs → SweptLate (cfg false) "sub" past x := by
  have hrun : ((serial (cfg false)).play (fun _ x => storeAnswers "sub" x) failedThrice []
      (opening plan)).map (fun r => (decide (Clocked r.1), r.1.map (outcome "sub"),
        (r.2.sub? "sub").map (·.status)))
      = some (true, [none, some false, some false, some false, none], some .CANCELLED) := by
    decide +kernel
  obtain ⟨⟨xs, w⟩, hplay, hresult⟩ := Option.map_eq_some_iff.mp hrun
  obtain ⟨hclock, hresult⟩ := Prod.mk.inj hresult
  obtain ⟨houtcomes, hstatus⟩ := Prod.mk.inj hresult
  have h : History (serial (cfg false)) (fun _ x => StoreAnswers "sub" x) (opening plan) xs w :=
    Serial.play_history (fun _ _ => storeAnswers_sound) .start hplay
  exact ⟨xs, w, houtcomes, hstatus, (retries_and_grace_exact (cfg false) "sub" (opening plan) w xs
    (by decide) rfl h (of_decide_eq_true hclock)).2⟩

end Scenarios

end Sorobill
