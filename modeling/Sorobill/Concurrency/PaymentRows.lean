/-
  Sorobill.Concurrency.PaymentRows
  ────────────────────────────────
  **DO CONCURRENT WORKERS CREATE OVERLAPPING PAYMENT ROWS?**

  They do not, without a resume request.  A worker creates the payment row of
  the period it has read and advances to the period after it, so stored
  period, rows and snapshots are all periods of one timeline; and the unique
  index on the idempotency key admits one row for each of them.

    • `unresumed` — the running backend without resume requests of `id`;
    • `rows_cover_periods` — in every interleaving the stored period is a
      period of the timeline, every payment row covers exactly one, and
      distinct rows cover disjoint ones.
-/
import Sorobill.Model.Shop
import Sorobill.Rules.Periods

namespace Sorobill

open Effect
open Relational

/-! ## §1. The pool. -/

/-- The running backend without resume requests of `id`. -/
def unresumed (cfg : Config) (id : String) : System Api World Env Operation Unit :=
  { concurrent cfg (fun _ => ()) (fun v _ => v) with
    enabled := fun w op => op.Enabled w ∧ op.resumes ≠ some id }

instance (cfg : Config) (id : String) (w : World) (op : Operation) :
    Decidable ((unresumed cfg id).enabled w op) :=
  inferInstanceAs (Decidable (op.Enabled w ∧ op.resumes ≠ some id))

/-- Any call, answered or rejected. -/
def Unrestricted : Condition Api World Env Unit := fun _ _ _ => True

section Pool

variable {cfg : Config} {id : String} {plan : Plan} {first : Instant}

def timelineDiscipline (cfg : Config) (id : String) (plan : Plan) (first : Instant) :
    Discipline (unresumed cfg id) Unrestricted where
  inv w _ := OnTimeline cfg id plan first w
  rely _ _ := True
  ended _ := True
  rely_refl _ := trivial
  rely_trans _ _ _ _ _ := trivial
  start w vs op hinv hen := by
    refine ⟨hinv, ?_⟩
    have hsafe : Safe (timelineContract cfg id plan first) ((fun _ => ()) <$> op.body cfg)
        (fun _ _ _ => True) w () := (operation_keepsTimeline hen.2 w).map
    -- in the pool the timeline is found by the invariant and kept for it
    refine hsafe.weaken (fun _ _ _ => trivial) ?_ ?_ rfl
    · intro v e h
      obtain ⟨pre, post, htime, -⟩ := h
      exact htime
    · intro v e _ hg
      exact ⟨trivial, fun pre post htime _ => timeline_after hg htime⟩
  leave w pre v post _ hinv := hinv
  drift w w' vs hd hinv := by
    obtain ⟨q, -, rfl⟩ := hd
    exact ⟨hinv.congr rfl rfl rfl, trivial⟩

/-- Two payment rows of the subscription with the same period end are one. -/
theorem OnTimeline.row_eq {w : World} (h : OnTimeline cfg id plan first w) {p q : Payment}
    (hp : p ∈ w.payments) (hq : q ∈ w.payments) (hpid : p.subscriptionId = id)
    (hqid : q.subscriptionId = id) (hend : p.billingPeriodEnd = q.billingPeriodEnd) : p = q := by
  -- the end determines the key, and the key is unique
  have hkey : p.idempotencyKey = q.idempotencyKey := by
    rw [(h.booked p hp hpid).1, (h.booked q hq hqid).1, hend]
  exact Table.eq_of_clash hp hq (.inr (.inl hkey))

/-- **Concurrent workers never create overlapping payment rows**: from the
creation of a subscription on, in every interleaving, call by call, of any
operations but resume requests of it, any of which may be rejected, its
stored period is a period of the timeline, each of its payment rows covers
exactly one period of the timeline, and distinct rows cover distinct and
disjoint periods. -/
theorem rows_cover_periods (cfg : Config) (id : String) (w₀ : World) (s₀ : Subscription)
    (plan : Plan) (hsub : w₀.sub? id = some s₀)
    (hplan : w₀.plans.find? (·.id == s₀.planId) = some plan) (hcount : 1 ≤ plan.intervalCount)
    (hperiod : plan.next cfg s₀.currentPeriodStart = some s₀.currentPeriodEnd)
    (hpayments : ∀ p ∈ w₀.payments, p.subscriptionId ≠ id) (P : Pool Api World Unit)
    (h : Pool.Run (unresumed cfg id) Unrestricted ⟨w₀, []⟩ P) :
    (∃ s n, P.world.sub? id = some s
        ∧ IsPeriod cfg plan s₀.currentPeriodStart n s.currentPeriodStart s.currentPeriodEnd)
      ∧ (∀ p ∈ P.world.payments, p.subscriptionId = id →
          ∃! n, IsPeriod cfg plan s₀.currentPeriodStart n p.billingPeriodStart
            p.billingPeriodEnd)
      ∧ ∀ p ∈ P.world.payments, ∀ q ∈ P.world.payments, p.subscriptionId = id →
          q.subscriptionId = id → p ≠ q →
          (p.billingPeriodStart, p.billingPeriodEnd) ≠ (q.billingPeriodStart, q.billingPeriodEnd)
            ∧ (p.billingPeriodEnd ≤ q.billingPeriodStart
              ∨ q.billingPeriodEnd ≤ p.billingPeriodStart) := by
  have hid : plan.id = s₀.planId := find_plan_id hplan
  have hstart : OnTimeline cfg id plan s₀.currentPeriodStart w₀ := by
    refine ⟨by rw [hid]; exact hplan, ⟨s₀, hsub, hid.symm, 0, rfl, hperiod⟩, fun p hp hpid => ?_⟩
    exact absurd hpid (hpayments p hp)
  have hidle : (timelineDiscipline cfg id plan s₀.currentPeriodStart).Sound ⟨w₀, []⟩ :=
    Discipline.sound_idle hstart
  have htime : OnTimeline cfg id plan s₀.currentPeriodStart P.world :=
    (Discipline.run h hidle).1.1
  have hforward := Plan.next_progressive hcount cfg
  refine ⟨?_, fun p hp hpid => ?_, fun p hp q hq hpid hqid hne => ?_⟩
  · obtain ⟨s, hs, -, n, hn⟩ := htime.current
    exact ⟨s, n, hs, hn⟩
  · obtain ⟨n, hn⟩ := (htime.booked p hp hpid).2
    exact ⟨n, hn, fun m hm => hm.index_eq hforward hn⟩
  · have hends : p.billingPeriodEnd ≠ q.billingPeriodEnd :=
      fun hend => hne (htime.row_eq hp hq hpid hqid hend)
    obtain ⟨m, hm⟩ := (htime.booked p hp hpid).2
    obtain ⟨n, hn⟩ := (htime.booked q hq hqid).2
    refine ⟨fun heq => hends (Prod.mk.inj heq).2, ?_⟩
    -- periods of one index would have one end
    have hmn : m ≠ n := by
      intro heq
      subst heq
      exact hends (Option.some.inj (hm.point_succ.symm.trans hn.point_succ))
    exact hm.disjoint hforward hmn hn

end Pool

/-! ## §2. A scenario. -/

section Scenario

open Shop

/-- Two workers bill the first period, the second one from an old snapshot;
a third one bills the second period. -/
def threeWorkers : List (Choice Operation Env) :=
  [.start (.runInline "sub"), .start (.runInline "sub"),
   .act 0 (on 2), .act 1 (on 2), .act 0 (on 2), .act 1 (on 2), .act 0 (fresh 2 "pay"),
   .act 1 (fresh 2 "late"), .act 0 (on 2), .act 0 (on 2), .act 0 (on 2), .act 0 (on 2),
   .start (.runInline "sub"), .act 0 (on 3), .act 0 (on 3), .act 0 (fresh 3 "pay2"),
   .act 0 (on 3), .act 0 (on 3), .act 0 (on 3)]

theorem rows_cover_periods_shop :
    ∃ P, Pool.Run (unresumed (cfg true) "sub") Unrestricted ⟨world plan sub, []⟩ P
      ∧ P.world.payments.rows.map (fun p => (p.billingPeriodStart, p.billingPeriodEnd))
          = [(day 1, day 2), (day 2, day 3)]
      ∧ (∃ s n, P.world.sub? "sub" = some s ∧ IsPeriod (cfg true) plan (day 1) n
          s.currentPeriodStart s.currentPeriodEnd) := by
  have hrun : (Pool.advance (unresumed (cfg true) "sub") (fun _ _ _ => true) threeWorkers
      ⟨world plan sub, []⟩).map (fun P => P.world.payments.rows.map
        (fun p => (p.billingPeriodStart, p.billingPeriodEnd)))
      = some [(day 1, day 2), (day 2, day 3)] := by
    decide +kernel
  obtain ⟨P, hP, hrows⟩ := Option.map_eq_some_iff.mp hrun
  have h : Pool.Run (unresumed (cfg true) "sub") Unrestricted ⟨world plan sub, []⟩ P :=
    Pool.advance_run (fun _ _ _ _ => trivial) hP
  exact ⟨P, h, hrows, (rows_cover_periods (cfg true) "sub" (world plan sub) sub plan rfl rfl
    (by decide) rfl (by intro p hp; cases hp) P h).1⟩

end Scenario

end Sorobill
