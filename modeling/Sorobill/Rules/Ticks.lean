/-
  Sorobill.Rules.Ticks
  ────────────────────
  **WHAT A TICK OF THE SCHEDULER LEAVES ALONE.**

    • `scheduleBillingJobs_keeps` — a tick writes no subscription row that
      the query of `expireGracePeriods` does not select;
    • `billing_keeps` — nor does a billing cycle of another subscription.
-/
import Sorobill.Rules.Cycles

namespace Sorobill

open Effect
open Relational

section Ticks

variable {A : CallEvent → Prop} {w : World} {v : Log}

/-- A program that writes no other row than `id` keeps the row `x`. -/
theorem seq_keeps {α : Type} {id x : String} (hx : x ≠ id) {p : Service α}
    (hp : Calls api (Call.writesOnly id) p) :
    Safe (sequential A) p (fun _ w' _ => w'.sub? x = w.sub? x) w v :=
  seq_frame (R := fun w w' => w'.sub? x = w.sub? x) (fun _ => rfl) (fun _ _ _ h h' => h'.trans h)
    (fun _ he => after_writesOnly he hx) hp

/-- **`expireGracePeriods` keeps a row that its query does not select**,
whatever time it reads. -/
theorem expireGracePeriods_keeps {x : String} {row : Option Subscription}
    (hrow : w.sub? x = row)
    (hA : ∀ e, A e → e.call = .dateNow → ∀ s, row = some s →
      (expireGracePeriods.condition e.env.now).selects s = false) :
    Safe (sequential A) expireGracePeriods (fun _ w' _ => w'.sub? x = row) w v := by
  unfold expireGracePeriods
  rw [safe_bind]
  refine seq_dateNow (fun _ _ => hrow) (fun env ha => ?_)
  rw [andThen_ok, safe_bind]
  refine seq_findMany (fun _ => hrow) (fun expired hperm => ?_)
  rw [andThen_ok]
  refine safe_forEach (fun w' _ => w'.sub? x = row) (fun sub hsub w₁ v₁ hrow₁ => ?_)
    (fun _ _ h => h) hrow
  -- the rows were selected at a time `env.now` at which `x` is not selected
  have hne : x ≠ sub.id := by
    intro heq
    obtain rfl := heq
    obtain ⟨hmem, hsel⟩ := Table.mem_filter.mp (hperm.subset hsub)
    have hsome : row = some sub := hrow.symm.trans (sub?_eq_some.mpr ⟨hmem, rfl⟩)
    rw [hA _ ha rfl sub hsome] at hsel
    cases hsel
  apply (seq_keeps hne ((expire_calls {} sub).mono (fun _ h => h.2))).mono
  intro r w₂ v₂ h
  have h : w₂.sub? x = row := h.trans hrow₁
  cases r <;> exact h

/-- **A tick keeps a row that `expireGracePeriods` does not select.** -/
theorem scheduleBillingJobs_keeps {x : String} {row : Option Subscription}
    (hrow : w.sub? x = row)
    (hA : ∀ e, A e → e.call = .dateNow → ∀ s, row = some s →
      (expireGracePeriods.condition e.env.now).selects s = false) :
    Safe (sequential A) scheduleBillingJobs (fun _ w' _ => w'.sub? x = row) w v := by
  unfold scheduleBillingJobs findDueSubscriptions
  rw [safe_bind, safe_bind]
  refine seq_dateNow (fun _ _ => hrow) (fun env _ => ?_)
  rw [andThen_ok]
  refine seq_findMany (fun _ => hrow) (fun due _ => ?_)
  rw [andThen_ok, safe_bind]
  -- the loop writes the billing queue only
  refine safe_forEach (fun w' _ => w'.sub? x = row) (fun sub _ w₁ v₁ hrow₁ => ?_)
    (fun _ _ h => expireGracePeriods_keeps h hA) hrow
  apply seq_perform.mpr
  intro env' _
  rcases serve_billingQueueAdd "process-subscription" sub.id (some (billingJobId sub)) env' w₁ with
    ⟨err, h⟩ | h
  · rw [h]
    exact hrow₁
  · rw [h]
    exact hrow₁

/-- An operation that bills another subscription keeps the row. -/
theorem billing_keeps {cfg : Config} {op : Operation} {x y : String} (h : op.bills = some y)
    (hx : x ≠ y) : Safe (sequential A) (op.body cfg) (fun _ w' _ => w'.sub? x = w.sub? x) w v :=
  seq_keeps hx ((billing_calls cfg h).mono (fun _ hc => hc.writesOnly))

end Ticks

end Sorobill
