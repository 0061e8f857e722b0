/-
  Sorobill.Charging.Orphans
  ─────────────────────────
  **DOES AN UNPAID PAYMENT BELONG TO THE CURRENT PERIOD?**

  The next billing cycle looks for the payment of the current period by its
  key.  A resume request starts a new period without a look at payments, and
  an unpaid payment of the period before is not found again.

    • `NoOrphans` — every unpaid payment of a subscription that is not
      CANCELLED is for its current period;
    • `ResumesPaid` — a subscription is resumed with all its payments SUCCESS;
    • `execution_attached` — what one execution keeps;
    • `no_orphans` — no orphans in every history of such executions.
-/
import Sorobill.Model.Shop
import Sorobill.Rules.Attachments

namespace Sorobill

open Effect
open Relational

/-! ## §1. Statements. -/

/-- **Every unpaid payment of a subscription that goes on** is the one that
its next cycle finds by key. -/
def NoOrphans (w : World) : Prop :=
  ∀ p ∈ w.payments, p.status ≠ .SUCCESS → ∀ s, w.sub? p.subscriptionId = some s →
    s.status ≠ .CANCELLED → p.billingPeriodEnd = s.currentPeriodEnd

/-- **The condition**: a resume request that finds its subscription paused and
not CANCELLED finds all its payments SUCCESS. -/
def ResumesPaid (x : Step) : Prop :=
  ∀ id s, x.op = .resume id → x.before.sub? id = some s → s.paused = true →
    s.status ≠ .CANCELLED → ∀ p ∈ x.before.payments, p.subscriptionId = id → p.status = .SUCCESS

/-- **The invariant**: keys name subscription and period, and payments have
their subscription. -/
structure Attached (w : World) : Prop where
  keys : KeysFit w
  stored : ∀ p ∈ w.payments, ∃ s, w.sub? p.subscriptionId = some s
  noOrphans : NoOrphans w

/-! ## §2. One execution. -/

theorem unsettling_unpaid : Unsettling (· ≠ .SUCCESS) where
  success h := h rfl
  retrying _ := PaymentStatus.noConfusion

theorem attached_iff {w : World} : Attached w ↔ Belonging (· ≠ .SUCCESS) w :=
  ⟨fun h => ⟨h.keys, h.stored, h.noOrphans⟩, fun h => ⟨h.keys, h.stored, h.current⟩⟩

theorem ResumesPaid.without {x : Step} (h : ResumesPaid x) : ResumesWithout (· ≠ .SUCCESS) x :=
  fun id s hop hs hpaused hopen p hp hid => not_not_intro (h id s hop hs hpaused hopen p hp hid)

/-- **What one execution keeps.** -/
theorem execution_attached {cfg : Config} {x : Step} (hx : x.Of (serial cfg))
    (hresume : ResumesPaid x) (h : Attached x.before) : Attached x.after :=
  attached_iff.mpr (execution_belonging unsettling_unpaid hx hresume.without (attached_iff.mp h))

/-! ## §3. Histories. -/

/-- **No orphans while resume requests find everything paid**: in every
history of operations, with failures at any call, from a store without
payments, in which a subscription that is not CANCELLED is resumed only with
all its payments SUCCESS, every unpaid payment of a subscription that is not
CANCELLED is for its current period. -/
theorem no_orphans (cfg : Config) (w₀ w : World) (xs : List Step)
    (hpayments : w₀.payments.rows = [])
    (h : History (serial cfg) (fun _ x => ResumesPaid x) w₀ xs w) : NoOrphans w := by
  have hnone : ∀ p, p ∉ w₀.payments := Table.not_mem_of_nil hpayments
  have hJ : Attached w := by
    refine h.invariant (J := fun _ w => Attached w) ?_ ?_ ?_
    · exact ⟨fun p hp => absurd hp (hnone p), fun p hp => absurd hp (hnone p),
        fun p hp => absurd hp (hnone p)⟩
    · exact fun _ x hJ hx hresume => execution_attached hx hresume hJ
    · intro past w₁ _ hJ h
      obtain ⟨q, -, rfl⟩ := h
      exact ⟨hJ.keys, hJ.stored, hJ.noOrphans⟩
  exact hJ.noOrphans

/-! ## §4. Scenarios. -/

section Scenarios

open Shop

/-- Created on day 1; the charge on day 2 fails, for the RPC is down; paused
and resumed on day 2. -/
def failedThenResumed : List (Operation × List Env) :=
  [(.createSubscription ⟨"plan", wallet.address⟩, [on 1, on 1, on 1, fresh 1 "sub", on 1]),
   (.tick, [on 2, on 2, on 2, on 2, on 2]),
   (.billingJob enqueued, [on 2, on 2, fresh 2 "pay", on 2, on 2, rejected 2, on 2, on 2, on 2,
     on 2]),
   (.pause "sub", [on 2, on 2]),
   (.resume "sub", [on 2, on 2, on 2])]

/-- `NoOrphans` fails, as a test. -/
def orphaned (w : World) : Bool :=
  w.payments.rows.any (fun p => p.status != .SUCCESS
    && (w.sub? p.subscriptionId).any (fun s =>
      s.status != .CANCELLED && p.billingPeriodEnd != s.currentPeriodEnd))

theorem orphaned_sound {w : World} (h : orphaned w = true) : ¬ NoOrphans w := by
  intro hnone
  obtain ⟨p, hp, htest⟩ := List.any_eq_true.mp h
  obtain ⟨hst, hsub⟩ := Bool.and_eq_true_iff.mp htest
  obtain ⟨s, hs, htest⟩ := (Option.any_eq_true _ _).mp hsub
  obtain ⟨hopen, hne⟩ := Bool.and_eq_true_iff.mp htest
  exact bne_iff_ne.mp hne (hnone p hp (bne_iff_ne.mp hst) s hs (bne_iff_ne.mp hopen))

/-- **A failed payment that no cycle finds again.** -/
theorem failed_payment_orphaned :
    ¬ ∀ (cfg : Config) (w₀ w : World) (xs : List Step), w₀.payments.rows = [] →
      History (serial cfg) (fun _ _ => True) w₀ xs w → NoOrphans w := by
  intro hclaim
  have hrun : ((serial (cfg false)).play (fun _ _ => true) failedThenResumed []
      (opening plan)).map (fun r => orphaned r.2) = some true := by
    decide +kernel
  obtain ⟨⟨xs, w⟩, hplay, horphaned⟩ := Option.map_eq_some_iff.mp hrun
  exact orphaned_sound horphaned (hclaim (cfg false) (opening plan) w xs rfl
    (Serial.play_history (fun _ _ _ => trivial) .start hplay))

/-- Paid on day 2, then paused and resumed; the charge on day 3 fails. -/
def paidThenResumed : List (Operation × List Env) :=
  [(.createSubscription ⟨"plan", wallet.address⟩, [on 1, on 1, on 1, fresh 1 "sub", on 1]),
   (.runInline "sub", [on 2, on 2, fresh 2 "pay", on 2, on 2, on 2, on 2]),
   (.pause "sub", [on 2, on 2]),
   (.resume "sub", [on 2, on 2, on 2]),
   (.runInline "sub", [on 3, on 3, fresh 3 "pay2", rejected 3, on 3, on 3, on 3])]

/-- `ResumesPaid` as a test. -/
def resumesPaid (x : Step) : Bool :=
  match x.op with
  | .resume id => (x.before.sub? id).all (fun s => !s.paused || s.status == .CANCELLED
      || x.before.payments.rows.all (fun p => p.subscriptionId != id || p.status == .SUCCESS))
  | _ => true

theorem resumesPaid_sound {x : Step} (h : resumesPaid x = true) : ResumesPaid x := by
  intro id s hop hs hpaused hopen p hp hid
  unfold resumesPaid at h
  rw [hop] at h
  dsimp only at h
  rw [hs, Option.all_some, hpaused, Bool.or_eq_true_iff] at h
  rcases h with h | h
  · simp [hopen] at h
  · have htest := List.all_eq_true.mp h p hp
    simpa [hid] using htest

/-- The payment of the resumed subscription is SUCCESS. -/
theorem no_orphans_shop :
    ∃ xs w, History (serial (cfg true)) (fun _ x => ResumesPaid x) (opening plan) xs w
      ∧ w.payments.rows.map (fun p => p.status) = [.SUCCESS, .PENDING] ∧ NoOrphans w := by
  have hrun : ((serial (cfg true)).play (fun _ x => resumesPaid x) paidThenResumed []
      (opening plan)).map (fun r => r.2.payments.rows.map (fun p => p.status))
      = some [.SUCCESS, .PENDING] := by
    decide +kernel
  obtain ⟨⟨xs, w⟩, hplay, hrows⟩ := Option.map_eq_some_iff.mp hrun
  have h : History (serial (cfg true)) (fun _ x => ResumesPaid x) (opening plan) xs w :=
    Serial.play_history (fun _ _ => resumesPaid_sound) .start hplay
  exact ⟨xs, w, h, hrows, no_orphans (cfg true) (opening plan) w xs rfl h⟩

end Scenarios

end Sorobill
