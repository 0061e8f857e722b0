/-
  Sorobill.Scheduling.Starvation
  ──────────────────────────────
  **DOES ONE BAD SUBSCRIPTION STARVE THE OTHERS?**

  A tick has two loops, and what is thrown in either reaches the `catch` block
  of the scheduler.  The first `queue.add` that is rejected ends the tick, the
  sweep of the grace periods included, and the first emission that is rejected
  ends the sweep.  The next tick finds the same rows again.

    • `NoneStarved` — every subscription without a rejected call is offered to
      the queue, or CANCELLED;
    • `RejectedLast` — the rejected ones come last in what the queries return;
    • `none_starved_iff` — a tick starves none exactly then.
-/
import Sorobill.Rules.Rejections
import Sorobill.Scheduling.Retries

namespace Sorobill

open Effect
open Relational

/-! ## §1. Statements. -/

/-- Neither `queue.add` nor the emission is rejected for the subscription. -/
def Unaffected (A B : String → Bool) (id : String) : Prop := A id = false ∧ B id = false

/-- The grace period has expired, by every time that the tick reads. -/
def GraceExpired (w : World) (t : List CallEvent) (s : Subscription) : Prop :=
  s ∈ w.subscriptions ∧ ∀ e ∈ t, e.call = .dateNow → s.ExpiredBy e.env.now

/-- **No other subscription is starved** by those in `A` and `B`. -/
structure NoneStarved (A B : String → Bool) (due : List Subscription) (w : World)
    (t : List CallEvent) (w' : World) : Prop where
  offered : ∀ s ∈ due, Unaffected A B s.id → Offered t s
  cancelled : ∀ s, GraceExpired w t s → Unaffected A B s.id →
    ∃ s', w'.sub? s.id = some s' ∧ s'.status = .CANCELLED

/-- The sweep's query has returned the rows. -/
def SweepFound (t : List CallEvent) (expired : List Subscription) : Prop :=
  ∃ w env now, ⟨w, .subscriptionFindMany (expireGracePeriods.condition now), env⟩ ∈ t
    ∧ (api.serve (.subscriptionFindMany (expireGracePeriods.condition now)) env w).1 = .ok expired

/-- **The condition**: behind the first subscription whose `queue.add` is
rejected there are only others with a rejected call, and if there is one, the
grace period of no other has expired; and behind the first one whose emission
is rejected there are only others with a rejected call. -/
structure RejectedLast (A B : String → Bool) (due : List Subscription) (w : World)
    (t : List CallEvent) : Prop where
  adds : ∀ s ∈ behind A due, ¬ Unaffected A B s.id
  sweep : (∃ s ∈ due, A s.id = true) → ∀ s, GraceExpired w t s → ¬ Unaffected A B s.id
  emissions : ∀ expired, SweepFound t expired → ∀ s ∈ behind B expired, GraceExpired w t s →
    ¬ Unaffected A B s.id

/-! ## §2. The parts of a tick. -/

section Parts

variable {A B : String → Bool} {w w' : World} {t : List CallEvent} {r : Except Thrown Unit}

/-- A query at the time of the clock, and what follows. -/
theorem query_runs {α : Type} (condition : Instant → SubscriptionWhere)
    (f : List Subscription → Service α) {r : Except Thrown α}
    (h : Runs api (dateNow >>= fun now => prisma.subscription.findMany (condition now) >>= f)
      w t r w') (hanswers : answeredBy A B t = true) :
    ∃ env env' rows rest, t = ⟨w, .dateNow, env⟩
        :: ⟨w, .subscriptionFindMany (condition env.now), env'⟩ :: rest
      ∧ api.serve (.subscriptionFindMany (condition env.now)) env' w = (.ok rows, w)
      ∧ rows.Perm (w.subscriptions.filter (condition env.now).selects)
      ∧ Runs api (f rows) w rest r w' := by
  obtain ⟨env, t₁, rfl, hgo⟩ := dateNow_runs h
  obtain ⟨env', rest, rfl, hgo'⟩ := answered_runs (hgo (answeredBy_dateNow hanswers))
  obtain ⟨rows, hrows, hrest⟩ := hgo' (answeredBy_findMany (answeredBy_cons hanswers))
  rcases serve_subscriptionFindMany (condition env.now) env' w with
    ⟨err, hserve⟩ | ⟨rows', hserve, hperm⟩
  · rw [hserve] at hrows
    cases hrows
  rw [hserve] at hrows hrest
  obtain rfl := Except.ok.inj hrows
  exact ⟨env, env', rows', rest, rfl, hserve, hperm, hrest⟩

/-- The calls of the second loop: no query, and no job. -/
def Call.cancelsOnly : Call → Prop
  | .subscriptionFindMany _ => False
  | .billingQueueAdd _ _ _ => False
  | _ => True

theorem round_calls (s : Subscription) :
    Calls api Call.cancelsOnly (expireGracePeriods.cancel s) := by
  unfold expireGracePeriods.cancel
  refine calls_bind (fun now => calls_bind (fun _ => ?_) (calls_perform trivial))
    (calls_perform trivial)
  refine (emitWebhookEvent_calls _ _ _).mono (fun c hc => ?_)
  cases c <;> trivial

theorem cancelEach_calls {expired : List Subscription}
    (h : Runs api (Prog.forEach expired expireGracePeriods.cancel) w t r w') :
    ∀ e ∈ t, e.call.cancelsOnly :=
  (calls_forEach (fun s _ => round_calls s)).events h

/-- The sweep asks for the rows that are PAST_DUE. -/
theorem selects_of_expired {s : Subscription} {now : Instant} (h : s.ExpiredBy now) :
    (expireGracePeriods.condition now).selects s = true := by
  obtain ⟨hst, g, hg, hle⟩ := h
  simp [SubscriptionWhere.selects, expireGracePeriods.condition, hst, hg, hle]

/-- The rows of the first query, and the rest of the tick. -/
theorem tick_runs (h : Runs api scheduleBillingJobs w t r w')
    (hanswers : answeredBy A B t = true) :
    ∃ env env' due rest, t = ⟨w, .dateNow, env⟩
        :: ⟨w, .subscriptionFindMany (findDueSubscriptions.condition env.now), env'⟩ :: rest
      ∧ api.serve (.subscriptionFindMany (findDueSubscriptions.condition env.now)) env' w
          = (.ok due, w)
      ∧ due.Perm (w.subscriptions.filter (findDueSubscriptions.condition env.now).selects)
      ∧ Runs api (Prog.forEach due scheduleBillingJobs.enqueue >>= fun _ => expireGracePeriods)
          w rest r w' := by
  unfold scheduleBillingJobs findDueSubscriptions at h
  rw [Prog.bind_bind] at h
  exact query_runs findDueSubscriptions.condition
    (fun due => Prog.forEach due scheduleBillingJobs.enqueue >>= fun _ => expireGracePeriods)
    h hanswers

/-- The jobs are added between the queries. -/
theorem offered_iff {env env' : Env} {now : Instant} {t₁ t₂ : List CallEvent}
    (ht₂ : ∀ e ∈ t₂, ∀ name id jobId, e.call ≠ .billingQueueAdd name id jobId)
    (s : Subscription) :
    Offered (⟨w, .dateNow, env⟩
        :: ⟨w, .subscriptionFindMany (findDueSubscriptions.condition now), env'⟩ :: (t₁ ++ t₂)) s
      ↔ Offered t₁ s := by
  constructor
  · rintro ⟨e, he, hcall⟩
    rcases List.mem_cons.mp he with rfl | he
    · cases hcall
    rcases List.mem_cons.mp he with rfl | he
    · cases hcall
    rcases List.mem_append.mp he with he | he
    · exact ⟨e, he, hcall⟩
    · exact absurd hcall (ht₂ e he _ _ _)
  · rintro ⟨e, he, hcall⟩
    exact ⟨e, List.mem_cons_of_mem _ (List.mem_cons_of_mem _ (List.mem_append_left _ he)), hcall⟩

/-- What the sweep has found, it has found after the first loop. -/
theorem SweepFound.right {env env' : Env} {now : Instant} {t₁ t₂ : List CallEvent}
    {expired : List Subscription}
    (ht₁ : ∀ e ∈ t₁, ∀ condition, e.call ≠ .subscriptionFindMany condition)
    (h : SweepFound (⟨w, .dateNow, env⟩
      :: ⟨w, .subscriptionFindMany (findDueSubscriptions.condition now), env'⟩ :: (t₁ ++ t₂))
      expired) : SweepFound t₂ expired := by
  obtain ⟨w₁, env₁, now₁, hmem, hserve⟩ := h
  rcases List.mem_cons.mp hmem with heq | hmem
  · cases heq
  rcases List.mem_cons.mp hmem with heq | hmem
  · -- the first query asks for other rows
    have hcond : expireGracePeriods.condition now₁ = findDueSubscriptions.condition now := by
      injection heq with _ hcall _
      injection hcall
    have hstatus := congrArg SubscriptionWhere.status hcond
    cases hstatus
  rcases List.mem_append.mp hmem with hmem | hmem
  · exact absurd rfl (ht₁ _ hmem _)
  · exact ⟨w₁, env₁, now₁, hmem, hserve⟩

theorem SweepFound.left {t₁ t₂ : List CallEvent} {expired : List Subscription} {e₁ e₂ : CallEvent}
    (h : SweepFound t₂ expired) : SweepFound (e₁ :: e₂ :: (t₁ ++ t₂)) expired := by
  obtain ⟨w₁, env₁, now₁, hmem, hserve⟩ := h
  exact ⟨w₁, env₁, now₁,
    List.mem_cons_of_mem _ (List.mem_cons_of_mem _ (List.mem_append_right _ hmem)), hserve⟩

/-- The sweep makes one query. -/
theorem sweepFound_iff {env env' : Env} {t₃ : List CallEvent} {rows expired : List Subscription}
    (hserve : api.serve (.subscriptionFindMany (expireGracePeriods.condition env.now)) env' w
      = (.ok rows, w)) (ht₃ : ∀ e ∈ t₃, e.call.cancelsOnly) :
    SweepFound (⟨w, .dateNow, env⟩
      :: ⟨w, .subscriptionFindMany (expireGracePeriods.condition env.now), env'⟩ :: t₃) expired
      ↔ expired = rows := by
  constructor
  · rintro ⟨w₁, env₁, now₁, hmem, hread⟩
    rcases List.mem_cons.mp hmem with heq | hmem
    · cases heq
    rcases List.mem_cons.mp hmem with heq | hmem
    · -- the same query, at the same place, has the same answer
      injection heq with hw hcall henv
      injection hcall with hcond
      subst hw henv
      rw [hcond, hserve] at hread
      exact (Except.ok.inj hread).symm
    · exact (ht₃ _ hmem).elim
  · rintro rfl
    exact ⟨w, env', env.now, by simp, congrArg Prod.fst hserve⟩

/-- **What a tick has done when it ends**: the first loop has ended it, or it
has gone on with the second one. -/
inductive TickEnd (A B : String → Bool) (due : List Subscription) (w w' : World)
    (t : List CallEvent) : Prop where
  | stopped : (∃ s ∈ due, A s.id = true) → w'.subscriptions = w.subscriptions →
      (∀ expired, ¬ SweepFound t expired) → TickEnd A B due w w' t
  | swept (expired : List Subscription) : (∀ s ∈ due, A s.id = false) →
      (∀ expired', SweepFound t expired' ↔ expired' = expired) →
      (∀ s, GraceExpired w t s → s ∈ expired) →
      (∀ s ∈ expired, s ∉ behind B expired →
        ∃ s', w'.sub? s.id = some s' ∧ s'.status = .CANCELLED) →
      (∀ s ∈ behind B expired, w'.sub? s.id = some s ∧ s.status = .PAST_DUE) →
      TickEnd A B due w w' t

/-- The first loop makes no query. -/
theorem Enqueued.asks_nothing {due : List Subscription} (h : Enqueued A due w t r w') :
    ∀ e ∈ t, ∀ condition, e.call ≠ .subscriptionFindMany condition := by
  intro e he condition heq
  obtain ⟨s, -, hcall⟩ := h.calls e he
  rw [hcall] at heq
  cases heq

/-- The sweep adds no job. -/
theorem sweep_adds_none {env env' : Env} {condition : SubscriptionWhere} {t₃ : List CallEvent}
    (ht₃ : ∀ e ∈ t₃, e.call.cancelsOnly) :
    ∀ e ∈ ⟨w, .dateNow, env⟩ :: ⟨w, .subscriptionFindMany condition, env'⟩ :: t₃,
      ∀ name id jobId, e.call ≠ .billingQueueAdd name id jobId := by
  intro e he name id jobId hcall
  rcases List.mem_cons.mp he with rfl | he
  · cases hcall
  rcases List.mem_cons.mp he with rfl | he
  · cases hcall
  · have hround := ht₃ e he
    rw [hcall] at hround
    exact hround

/-- What the sweep finds and does, when the first loop has ended in `w₁`. -/
theorem sweep_runs {w₁ : World} (h : Runs api expireGracePeriods w₁ t r w')
    (hanswers : answeredBy A B t = true) :
    (∀ e ∈ t, ∀ name id jobId, e.call ≠ .billingQueueAdd name id jobId)
      ∧ ∃ expired, (∀ expired', SweepFound t expired' ↔ expired' = expired)
        ∧ (∀ s ∈ w₁.subscriptions, (∀ e ∈ t, e.call = .dateNow → s.ExpiredBy e.env.now) →
          s ∈ expired)
        ∧ (∀ s ∈ expired, s ∉ behind B expired →
          ∃ s', w'.sub? s.id = some s' ∧ s'.status = .CANCELLED)
        ∧ ∀ s ∈ behind B expired, w'.sub? s.id = some s ∧ s.status = .PAST_DUE := by
  unfold expireGracePeriods at h
  obtain ⟨env, env', expired, t₃, rfl, hserve, hperm, hcancels⟩ :=
    query_runs expireGracePeriods.condition
      (fun expired => Prog.forEach expired expireGracePeriods.cancel) h hanswers
  have ht₃ := cancelEach_calls hcancels
  have hloop := expire_runs (selected_nodup hperm) hcancels
    (answeredBy_cons (answeredBy_cons hanswers))
  refine ⟨sweep_adds_none ht₃, expired, fun expired' => sweepFound_iff hserve ht₃,
    fun s hs hexpired => ?_, hloop.cancelled, fun s hs => ?_⟩
  · have hnow := hexpired _ List.mem_cons_self rfl
    exact hperm.symm.subset (List.mem_filter.mpr ⟨hs, selects_of_expired hnow⟩)
  · have hmem := List.mem_filter.mp (hperm.subset (mem_of_mem_behind hs))
    rw [hloop.unreached s hs]
    exact ⟨sub?_eq_some.mpr ⟨hmem.1, rfl⟩, (expired_of_selects rfl rfl hmem.2).1⟩

theorem tick_ends (h : Runs api scheduleBillingJobs w t r w')
    (hanswers : answeredBy A B t = true) :
    ∃ due rest, Queried t due rest ∧ (∀ s ∈ due, Offered t s ↔ s ∉ behind A due)
      ∧ (∀ s, GraceExpired w t s → s.status = .PAST_DUE) ∧ TickEnd A B due w w' t := by
  obtain ⟨env, env', due, rest, rfl, hserve, hperm, hrest⟩ := tick_runs h hanswers
  have hanswers := answeredBy_cons (answeredBy_cons hanswers)
  refine ⟨due, rest, ⟨_, _, rfl, rfl, hserve⟩, ?_⟩
  have hpast : ∀ s, GraceExpired w (⟨w, .dateNow, env⟩
      :: ⟨w, .subscriptionFindMany (findDueSubscriptions.condition env.now), env'⟩ :: rest) s →
      s.status = .PAST_DUE := fun s hs => (hs.2 _ List.mem_cons_self rfl).1
  rcases runs_bind_iff.mp hrest with ⟨err, rfl, hadds⟩ | ⟨_, w₁, t₁, t₂, rfl, hadds, hsweep⟩
  · -- the first loop has thrown
    have hanswered : answeredBy A B (rest ++ []) = true := by rwa [List.append_nil]
    have hloop := enqueue_runs (selected_nodup hperm) hadds hanswered
    rw [← List.append_nil rest] at hpast ⊢
    refine ⟨fun s hs => ?_, hpast, .stopped ?_ hloop.rows (fun expired hfound => ?_)⟩
    · rw [offered_iff (fun e he => absurd he List.not_mem_nil), hloop.offers s hs]
    · by_contra hnone
      have hok := hloop.returns.mpr (fun s hs => by
        by_contra hA
        exact hnone ⟨s, hs, by simpa using hA⟩)
      cases hok
    · obtain ⟨_, _, _, hmem, -⟩ := hfound.right hloop.asks_nothing
      cases hmem
  · -- every due subscription was offered, and the sweep has run
    have hloop := enqueue_runs (selected_nodup hperm) hadds hanswers
    obtain ⟨hadds_none, expired, hfound, hexpired, hcancelled, hunreached⟩ :=
      sweep_runs hsweep (answeredBy_right hanswers)
    refine ⟨fun s hs => ?_, hpast, .swept expired (hloop.returns.mp rfl)
      (fun expired' => ⟨fun h => ?_, fun h => ?_⟩) (fun s hs => ?_) hcancelled hunreached⟩
    · rw [offered_iff hadds_none, hloop.offers s hs]
    · exact (hfound expired').mp (h.right hloop.asks_nothing)
    · exact ((hfound expired').mpr h).left
    · refine hexpired s (hloop.rows ▸ hs.1) (fun e he => hs.2 e ?_)
      exact List.mem_cons_of_mem _ (List.mem_cons_of_mem _ (List.mem_append_right _ he))

/-- A row that is as it was is not CANCELLED. -/
theorem not_cancelled {s : Subscription} (hst : s.status = .PAST_DUE)
    (hrow : w'.sub? s.id = some s) : ¬ ∃ s', w'.sub? s.id = some s' ∧ s'.status = .CANCELLED := by
  rintro ⟨s', hs', hcancelled⟩
  obtain rfl := Option.some.inj (hrow.symm.trans hs')
  rw [hst] at hcancelled
  cases hcancelled

end Parts

/-! ## §3. The condition. -/

/-- **A tick starves no other subscription exactly when the rejected ones come
last.** -/
theorem none_starved_iff (A B : String → Bool) (w w' : World) (t : List CallEvent)
    (r : Except Thrown Unit) (h : Runs api scheduleBillingJobs w t r w')
    (hanswers : answeredBy A B t = true) :
    ∃ due rest, Queried t due rest ∧ (NoneStarved A B due w t w' ↔ RejectedLast A B due w t) := by
  obtain ⟨due, rest, hquery, hoffers, hpast, hend⟩ := tick_ends h hanswers
  refine ⟨due, rest, hquery, fun hnone => ⟨?_, ?_, ?_⟩, fun hlast => ⟨?_, ?_⟩⟩
  · intro s hs hother
    have hmem := mem_of_mem_behind hs
    exact (hoffers s hmem).mp (hnone.offered s hmem hother) hs
  · rintro ⟨x, hx, hA⟩ s hs hother
    cases hend with
    | stopped _ hrows _ =>
        have hrow : w'.sub? s.id = some s := sub?_eq_some.mpr ⟨hrows ▸ hs.1, rfl⟩
        exact not_cancelled (hpast s hs) hrow (hnone.cancelled s hs hother)
    | swept expired hadds =>
        rw [hadds x hx] at hA
        cases hA
  · intro expired hfound s hbehind hs hother
    cases hend with
    | stopped _ _ hunasked => exact hunasked expired hfound
    | swept expired' _ hsweep _ _ hunreached =>
        obtain rfl := (hsweep expired).mp hfound
        exact not_cancelled (hpast s hs) (hunreached s hbehind).1 (hnone.cancelled s hs hother)
  · exact fun s hs hother => (hoffers s hs).mpr (fun hbehind => hlast.adds s hbehind hother)
  · intro s hs hother
    cases hend with
    | stopped hrejected _ _ => exact absurd hother (hlast.sweep hrejected s hs)
    | swept expired _ hsweep hexpired hcancelled _ =>
        refine hcancelled s (hexpired s hs) (fun hbehind => ?_)
        exact hlast.emissions expired ((hsweep expired).mpr rfl) s hbehind hs hother

section Scenarios

open Shop

/-- Another subscription that is due with the first. -/
def other : Subscription := { sub with id := "other" }

def twoDue : World :=
  { world plan sub with
    subscriptions := ⟨[sub, other], by simp [sub, other, Subscription.Clash]⟩ }

/-- The query returns the two in their order, and one is rejected. -/
def firstRejected : List Env := [on 2, on 2, rejected 2]

def secondRejected : List Env := [on 2, on 2, on 2, rejected 2]

/-- No job is added but those of `id`. -/
def Call.addsOnlyFor (id : String) : Call → Bool
  | .billingQueueAdd _ id' _ => id' == id
  | _ => true

/-- The second one is rejected: no other is behind it. -/
theorem none_starved_iff_last :
    ∃ w' t r, Runs api scheduleBillingJobs twoDue t r w'
      ∧ answeredBy (fun id => id == "other") (fun _ => false) t = true
      ∧ ∃ due rest, Queried t due rest
        ∧ (NoneStarved (fun id => id == "other") (fun _ => false) due twoDue t w'
          ↔ RejectedLast (fun id => id == "other") (fun _ => false) due twoDue t) := by
  have hrun : (exec api scheduleBillingJobs secondRejected twoDue).map
      (fun _ => answeredBy (fun id => id == "other") (fun _ => false)
        (execTrace api scheduleBillingJobs secondRejected twoDue))
      = some true := by
    decide +kernel
  obtain ⟨⟨r, w'⟩, hexec, hanswers⟩ := Option.map_eq_some_iff.mp hrun
  exact ⟨w', _, r, exec_runs hexec, hanswers,
    none_starved_iff _ _ twoDue w' _ r (exec_runs hexec) hanswers⟩

/-- **A bad subscription starves the next one**: the first `queue.add` is
rejected, and the second subscription is not offered. -/
theorem next_starved :
    ¬ ∀ (A B : String → Bool) (w w' : World) (t : List CallEvent) (r : Except Thrown Unit),
      Runs api scheduleBillingJobs w t r w' → answeredBy A B t = true →
      ∀ due rest, Queried t due rest → NoneStarved A B due w t w' := by
  intro hclaim
  have hrun : (exec api scheduleBillingJobs firstRejected twoDue).map
      (fun _ => let t := execTrace api scheduleBillingJobs firstRejected twoDue
        (answeredBy (fun id => id == "sub") (fun _ => false) t, t.head?.map (·.env.now),
          t.all (fun e => e.call.addsOnlyFor "sub")))
      = some (true, some (day 2), true) := by
    decide +kernel
  obtain ⟨⟨r, w'⟩, hexec, hres⟩ := Option.map_eq_some_iff.mp hrun
  simp only [Prod.mk.injEq] at hres
  obtain ⟨hanswers, hnow, hadds⟩ := hres
  obtain ⟨env, env', due, rest, ht, hserve, hperm, -⟩ := tick_runs (exec_runs hexec) hanswers
  rw [ht] at hnow
  have hnow : env.now = day 2 := Option.some.inj hnow
  have hmem : other ∈ due := by
    rw [hnow] at hperm
    exact hperm.mem_iff.mpr (by decide)
  have hnone := hclaim _ _ twoDue w' _ r (exec_runs hexec) hanswers due rest
    ⟨_, _, ht, rfl, hserve⟩
  obtain ⟨e, he, hcall⟩ := hnone.offered other hmem ⟨by decide, rfl⟩
  have hadd := List.all_eq_true.mp hadds e he
  rw [hcall] at hadd
  cases hadd

end Scenarios

end Sorobill
