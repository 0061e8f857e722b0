/-
  Sorobill.Rules.Sweeps
  ─────────────────────
  **WHICH ROWS `expireGracePeriods` CANCELS.**

  The query finds the expired rows once; the loop then writes them one after
  the other, with emissions in between, and reads none of them again.

    • `Sweep`, `trackSweep` — what an execution has found and not reached;
    • `operation_swept` — a tick writes a row only if its query has found it,
      at a time that has passed, and it has not been written yet;
    • `sweep_expired` — without interruption the rows it writes are expired.
-/
import Sorobill.Rules.Footprints

namespace Sorobill

open Effect
open Relational

/-! ## §1. Sweeps. -/

/-- The row is PAST_DUE and its grace period has ended by `t`. -/
def Subscription.ExpiredBy (s : Subscription) (t : Instant) : Prop :=
  s.status = .PAST_DUE ∧ ∃ g, s.gracePeriodEndsAt = some g ∧ g ≤ t

instance (s : Subscription) (t : Instant) : Decidable (s.ExpiredBy t) :=
  decidable_of_iff (s.status = .PAST_DUE ∧ s.gracePeriodEndsAt.any (fun g => decide (g ≤ t)) = true)
    (by simp [Subscription.ExpiredBy, Option.any_eq_true])

theorem expired_of_selects {condition : SubscriptionWhere} {s : Subscription} {t : Instant}
    (hstatus : condition.status = [.PAST_DUE]) (htime : condition.gracePeriodEndsAtLte = some t)
    (h : condition.selects s = true) : s.ExpiredBy t := by
  unfold SubscriptionWhere.selects at h
  rw [hstatus, htime] at h
  simp only [Bool.and_eq_true, Option.all_some, Option.any_eq_true, decide_eq_true_eq] at h
  obtain ⟨⟨⟨⟨hst, -⟩, hgrace⟩, -⟩, -⟩ := h
  exact ⟨by simpa using hst, hgrace⟩

/-- Where an execution is in `expireGracePeriods`. -/
structure Sweep where
  /-- It is a tick or an execution of `expireGracePeriods`. -/
  sweeping : Bool
  /-- The time of its last call. -/
  clock : Option Instant := none
  /-- The time by which it has found rows expired. -/
  asOf : Option Instant := none
  /-- The rows it has found and not reached. -/
  pending : List String := []

def Operation.sweeps : Operation → Bool
  | .tick => true
  | .expireGracePeriods => true
  | _ => false

def sweepOf (op : Operation) : Sweep := { sweeping := op.sweeps }

def trackSweep (v : Sweep) (e : CallEvent) : Sweep :=
  match e.call with
  | .subscriptionFindMany condition =>
      match condition.status, condition.gracePeriodEndsAtLte with
      | [.PAST_DUE], some t =>
          { v with
            clock := some e.env.now
            asOf := some t
            pending := (e.before.subscriptions.filter condition.selects).map (·.id) }
      | _, _ => { v with clock := some e.env.now }
  | .subscriptionUpdate x _ =>
      { v with clock := some e.env.now, pending := v.pending.filter (· != x) }
  | _ => { v with clock := some e.env.now }

/-- The clock of the execution does not go back. -/
def Sweep.Timely (v : Sweep) (e : CallEvent) : Prop :=
  ∀ t, v.clock = some t → t ≤ e.env.now

/-- A tick writes rows that it has found expired and not reached. -/
def Swept (v : Sweep) (e : CallEvent) : Prop :=
  v.sweeping = true → ∀ x data, e.call = .subscriptionUpdate x data →
    x ∈ v.pending ∧ ∃ t, v.asOf = some t ∧ t ≤ e.env.now

def sweepContract : Contract api Sweep where
  rely _ _ := True
  assume := Sweep.Timely
  guarantee := Swept
  track := trackSweep

/-! ## §2. Every operation honours the contract. -/

section Walk

variable {cfg : Config} {w : World} {v : Sweep}

theorem track_sweeping (v : Sweep) (e : CallEvent) :
    (trackSweep v e).sweeping = v.sweeping := by
  unfold trackSweep
  split
  · split <;> rfl
  · rfl
  · rfl

/-- The calls that neither query nor write subscriptions. -/
def Call.skipsRows : Call → Prop
  | .subscriptionFindMany _ => False
  | .subscriptionUpdate _ _ => False
  | _ => True

theorem track_skips {e : CallEvent} (h : e.call.skipsRows) (v : Sweep) :
    trackSweep v e = { v with clock := some e.env.now } := by
  obtain ⟨w, c, env⟩ := e
  cases c with
  | subscriptionFindMany condition => exact h.elim
  | subscriptionUpdate x data => exact h.elim
  | _ => rfl

/-- A query for expired rows, or another query. -/
theorem track_findMany (v : Sweep) (w : World) (condition : SubscriptionWhere) (env : Env) :
    (∃ t, condition.status = [.PAST_DUE] ∧ condition.gracePeriodEndsAtLte = some t
        ∧ trackSweep v ⟨w, .subscriptionFindMany condition, env⟩
          = { v with
              clock := some env.now
              asOf := some t
              pending := (w.subscriptions.filter condition.selects).map (·.id) })
      ∨ trackSweep v ⟨w, .subscriptionFindMany condition, env⟩
          = { v with clock := some env.now } := by
  unfold trackSweep
  dsimp only
  split
  next t hstatus htime => exact .inl ⟨t, hstatus, htime, rfl⟩
  next => exact .inr rfl

theorem Call.skipsRows.swept {e : CallEvent} (h : e.call.skipsRows) : Swept v e := by
  intro _ x data hcall
  rw [hcall] at h
  exact h.elim

theorem Call.isWebhook.skipsRows {c : Call} (h : c.isWebhook) : c.skipsRows := by
  cases c <;> trivial

/-- The rows `as` are still to be written, and were found at a time that has
passed. -/
def Left (as : List Subscription) (v : Sweep) : Prop :=
  (as.map (·.id)).Nodup ∧ (∀ s ∈ as, s.id ∈ v.pending)
    ∧ ∃ t, v.asOf = some t ∧ ∃ c, v.clock = some c ∧ t ≤ c

theorem Left.later {as : List Subscription} {e : CallEvent} (h : Left as v)
    (hskip : e.call.skipsRows) (ht : v.Timely e) : Left as (trackSweep v e) := by
  obtain ⟨hnodup, hmem, t, hasOf, c, hclock, htc⟩ := h
  rw [track_skips hskip]
  exact ⟨hnodup, hmem, t, hasOf, _, rfl, htc.trans (ht c hclock)⟩

theorem Left.tail {s : Subscription} {as : List Subscription} (h : Left (s :: as) v) :
    Left as v := by
  obtain ⟨hnodup, hmem, htime⟩ := h
  exact ⟨(List.nodup_cons.mp hnodup).2, fun r hr => hmem r (List.mem_cons_of_mem _ hr), htime⟩

/-- A row that is written is no longer left, the others still are. -/
theorem Left.written {s : Subscription} {as : List Subscription} {data : SubscriptionData}
    {env : Env} (h : Left (s :: as) v) (ht : v.Timely ⟨w, .subscriptionUpdate s.id data, env⟩) :
    Swept v ⟨w, .subscriptionUpdate s.id data, env⟩
      ∧ Left as (trackSweep v ⟨w, .subscriptionUpdate s.id data, env⟩) := by
  obtain ⟨hnodup, hmem, t, hasOf, c, hclock, htc⟩ := h
  have htime : t ≤ env.now := htc.trans (ht c hclock)
  obtain ⟨hs, hnodup⟩ := List.nodup_cons.mp hnodup
  refine ⟨?_, hnodup, fun r hr => ?_, t, hasOf, _, rfl, htime⟩
  · intro _ x data' hcall
    cases hcall
    exact ⟨hmem s List.mem_cons_self, t, hasOf, htime⟩
  · -- the ids are distinct
    have hne : r.id ≠ s.id := fun heq => hs (List.mem_map.mpr ⟨r, hr, heq⟩)
    exact List.mem_filter.mpr ⟨hmem r (List.mem_cons_of_mem _ hr), by simpa using hne⟩

/-- One round of the loop. -/
theorem cancel_swept {s : Subscription} {as : List Subscription} (h : Left (s :: as) v) :
    Safe sweepContract (expireGracePeriods.cancel s) (fun _ _ v => Left as v) w v := by
  unfold expireGracePeriods.cancel dateNow
  rw [safe_bind]
  refine safe_perform.mpr (fun w₁ env₁ _ ht₁ => ⟨Call.skipsRows.swept trivial, ?_⟩)
  have h₁ : Left (s :: as) (trackSweep v ⟨w₁, .dateNow, env₁⟩) := h.later trivial ht₁
  rcases serve_dateNow env₁ w₁ with ⟨err, hs⟩ | hs
  · rw [hs]
    exact h₁.tail
  · rw [hs, andThen_ok, safe_bind]
    refine safe_perform.mpr (fun w₂ env₂ _ ht₂ => ?_)
    obtain ⟨hswept, h₂⟩ := h₁.written ht₂
    refine ⟨hswept, ?_⟩
    cases (api.serve _ env₂ w₂).1 with
    | error err => exact h₂
    | ok _ =>
        rw [andThen_ok]
        -- the emission writes no row
        exact safe_views (fun u e he hu ht => ⟨he.skipsRows.swept, hu.later he.skipsRows ht⟩) h₂
          (emitWebhookEvent_calls _ _ _)

/-- The rows that the query finds. -/
theorem Left.found {t : Instant} {rows : List Subscription} {env : Env}
    (hperm : rows.Perm (w.subscriptions.filter (expireGracePeriods.condition t).selects))
    (ht : t ≤ env.now) :
    Left rows (trackSweep v
      ⟨w, .subscriptionFindMany (expireGracePeriods.condition t), env⟩) := by
  exact ⟨selected_nodup hperm, fun s hs => List.mem_map.mpr ⟨s, hperm.subset hs, rfl⟩, t, rfl, _,
    rfl, ht⟩

/-- **The rows that `expireGracePeriods` writes.** -/
theorem expireGracePeriods_swept (w : World) (v : Sweep) :
    Safe sweepContract expireGracePeriods (fun _ _ _ => True) w v := by
  unfold expireGracePeriods dateNow prisma.subscription.findMany
  rw [safe_bind]
  refine safe_perform.mpr (fun w₁ env₁ _ _ => ⟨Call.skipsRows.swept trivial, ?_⟩)
  rcases serve_dateNow env₁ w₁ with ⟨err, hs⟩ | hs
  · rw [hs]
    trivial
  · rw [hs, andThen_ok, safe_bind]
    refine safe_perform.mpr (fun w₂ env₂ _ ht₂ => ⟨?_, ?_⟩)
    · intro _ x data hcall
      cases hcall
    · rcases serve_subscriptionFindMany (expireGracePeriods.condition env₁.now) env₂ w₂ with
        ⟨err, hf⟩ | ⟨rows, hf, hperm⟩
      · rw [hf]
        trivial
      · rw [hf, andThen_ok]
        refine safe_forEach_left (fun left _ v => Left left v) (fun s as w v h => ?_)
          (fun _ _ _ => trivial) (Left.found hperm (ht₂ _ rfl))
        apply (cancel_swept h).mono
        intro r w v hv
        cases r with
        | ok _ => exact hv
        | error err => trivial

/-- Nothing is asked of a program that writes no subscription row. -/
theorem swept_unwritten {α : Type} {p : Service α}
    (hp : Calls api (fun c => ∀ x data, c ≠ .subscriptionUpdate x data) p) :
    Safe sweepContract p (fun _ _ _ => True) w v :=
  safe_views (K := fun _ => True)
    (fun _ _ he _ _ => ⟨fun _ x data hcall => absurd hcall (he x data), trivial⟩) trivial hp

/-- **The rows that a tick writes.** -/
theorem scheduleBillingJobs_swept (w : World) (v : Sweep) :
    Safe sweepContract scheduleBillingJobs (fun _ _ _ => True) w v := by
  have hdue : Calls api (fun c => ∀ x data, c ≠ .subscriptionUpdate x data)
      findDueSubscriptions :=
    calls_bind (fun _ => calls_perform (by simp)) (calls_perform (by simp))
  unfold scheduleBillingJobs
  rw [safe_bind]
  apply (swept_unwritten hdue).mono
  intro r w₁ v₁ _
  cases r with
  | error err => trivial
  | ok due =>
      rw [andThen_ok, safe_bind]
      apply (swept_unwritten (calls_forEach (fun s _ => calls_perform (by simp)))).mono
      intro r w₂ v₂ _
      cases r with
      | error err => trivial
      | ok _ => exact expireGracePeriods_swept w₂ v₂

/-- **A tick, or any other operation, honours the contract of sweeps.** -/
theorem operation_swept (cfg : Config) (op : Operation) (w : World) :
    Safe sweepContract (op.body cfg) (fun _ _ _ => True) w (sweepOf op) := by
  have hidle : ∀ {F : Call → Prop}, op.sweeps = false → Calls api F (op.body cfg) →
      Safe sweepContract (op.body cfg) (fun _ _ _ => True) w (sweepOf op) := by
    intro F hop hp
    refine Safe.mono (fun _ _ _ _ => trivial) (safe_views (K := fun v => v.sweeping = false)
      (fun u e _ hu _ => ⟨fun h => ?_, (track_sweeping u e).trans hu⟩) hop hp)
    rw [hu] at h
    cases h
  cases op with
  | tick => exact (scheduleBillingJobs_swept w _).map
  | expireGracePeriods => exact (expireGracePeriods_swept w _).map
  | runInline id => exact hidle rfl (billing_calls cfg rfl)
  | billingJob job => exact hidle rfl (billing_calls cfg rfl)
  | _ => exact hidle rfl (operation_calls cfg _ rfl)

end Walk

/-! ## §3. Uninterrupted sweeps. -/

/-- The rows that an execution has found after its own call. -/
theorem found_own {v : Sweep} {e : CallEvent}
    (h : ∀ x ∈ v.pending, ∃ t s, v.asOf = some t ∧ e.before.sub? x = some s ∧ s.ExpiredBy t) :
    ∀ x ∈ (trackSweep v e).pending, ∃ t s, (trackSweep v e).asOf = some t
      ∧ (e.after api).sub? x = some s ∧ s.ExpiredBy t := by
  intro x hx
  -- a pending row that is not written stays expired
  have hkept : x ∈ v.pending → (∀ data, e.call ≠ .subscriptionUpdate x data) →
      (trackSweep v e).asOf = v.asOf → ∃ t s, (trackSweep v e).asOf = some t
        ∧ (e.after api).sub? x = some s ∧ s.ExpiredBy t := by
    intro hx hcall hasOf
    obtain ⟨t, s, ht, hs, hexp⟩ := h x hx
    rcases sub?_after e hs with hafter | ⟨data, hwrite, -, -⟩
    · exact ⟨t, s, hasOf.trans ht, hafter, hexp⟩
    · exact absurd hwrite (hcall data)
  obtain ⟨w, c, env⟩ := e
  cases c with
  | subscriptionFindMany condition =>
      rcases track_findMany v w condition env with ⟨t, hstatus, htime, htrack⟩ | htrack
      · -- the query has just found the row
        rw [htrack] at hx ⊢
        obtain ⟨s, hs, rfl⟩ := List.mem_map.mp hx
        obtain ⟨hmem, hsel⟩ := Table.mem_filter.mp hs
        have hrow : (api.serve (.subscriptionFindMany condition) env w).2.sub? s.id = some s := by
          rw [serve_read rfl]
          exact sub?_eq_some.mpr ⟨hmem, rfl⟩
        exact ⟨t, s, rfl, hrow, expired_of_selects hstatus htime hsel⟩
      · rw [htrack] at hx hkept ⊢
        exact hkept hx (by simp) rfl
  | subscriptionUpdate y data =>
      -- the row that is written is pending no longer
      obtain ⟨hx, hne⟩ := List.mem_filter.mp hx
      refine hkept hx (fun data' heq => ?_) rfl
      cases heq
      simp at hne
  | _ => exact hkept hx (by simp) rfl

/-- The clock of an execution, along its trace. -/
theorem timely_of_clocked {t : List CallEvent}
    (h : t.Pairwise (fun e e' => e.env.now ≤ e'.env.now)) :
    ∀ {v : Sweep}, (∀ c, v.clock = some c → ∀ e ∈ t, c ≤ e.env.now) →
      Assumed sweepContract v t := by
  induction t with
  | nil => exact fun _ => trivial
  | cons e t ih =>
      intro v hv
      obtain ⟨he, ht⟩ := List.pairwise_cons.mp h
      refine ⟨fun c hc => hv c hc e List.mem_cons_self, ih ht (fun c hc e' he' => ?_)⟩
      have hclock : (trackSweep v e).clock = some e.env.now := by
        unfold trackSweep
        split
        · split <;> rfl
        · rfl
        · rfl
      obtain rfl : e.env.now = c := Option.some.inj (hclock.symm.trans hc)
      exact he e' he'

/-- **An uninterrupted sweep writes expired rows.** -/
theorem sweep_expired {cfg : Config} {x : Step} (hx : x.Of (serial cfg))
    (hop : x.op.sweeps = true) (hclock : x.trace.Pairwise (fun e e' => e.env.now ≤ e'.env.now)) :
    ∀ e ∈ x.trace, ∀ y data, e.call = .subscriptionUpdate y data →
      ∃ s, e.before.sub? y = some s ∧ s.ExpiredBy e.env.now := by
  intro e he y data hcall
  have hevents := Safe.of_runs_assuming (C := sweepContract)
    (J := fun v w => v.sweeping = true ∧ ∀ y ∈ v.pending, ∃ t s, v.asOf = some t
      ∧ w.sub? y = some s ∧ s.ExpiredBy t) (fun _ => trivial)
    (fun v e hJ _ _ => ⟨(track_sweeping v e).trans hJ.1, found_own hJ.2⟩)
    hx.runs ⟨hop, fun y hy => by cases hy⟩ (operation_swept cfg x.op x.before)
    (timely_of_clocked hclock (fun c hc => by cases hc))
  obtain ⟨u, ⟨hsweeping, hfound⟩, hswept⟩ := hevents e he
  obtain ⟨hy, t, ht, hle⟩ := hswept hsweeping y data hcall
  obtain ⟨t', s, ht', hs, hst, g, hg, hgt⟩ := hfound y hy
  obtain rfl : t = t' := Option.some.inj (ht.symm.trans ht')
  exact ⟨s, hs, hst, g, hg, hgt.trans hle⟩

end Sorobill
