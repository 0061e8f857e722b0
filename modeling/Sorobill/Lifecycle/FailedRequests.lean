/-
  Sorobill.Lifecycle.FailedRequests
  ─────────────────────────────────
  **WHAT A FAILED REQUEST LEAVES BEHIND.**

  A create and a cancel request write their subscription before they emit the
  webhook event.  A request that fails before its write leaves no trace in the
  table; one whose emission fails has written already, and says that it has
  failed.

    • `EmissionRefused` — a call of the emission was rejected;
    • `failed_requests_unchanged_iff` — the table is as before exactly when
      the emission was not refused;
    • `created_and_failed` — a subscription whose creation has failed.
-/
import Sorobill.Model.Shop
import Sorobill.Rules.Requests

namespace Sorobill

open Effect
open Relational

/-! ## §1. Statements. -/

/-- A call inside `emitWebhookEvent` was rejected. -/
def EmissionRefused (t : List CallEvent) : Prop :=
  ∃ e ∈ t, e.call.isWebhook ∧ isRejected e = true

/-- The clock has moved on since the row was last written. -/
def WrittenBefore (id : String) (w : World) (t : List CallEvent) : Prop :=
  ∀ s, w.sub? id = some s → ∀ e ∈ t, s.updatedAt < e.env.now

/-! ## §2. Requests. -/

section Requests

variable {cfg : Config} {w w' : World} {t : List CallEvent} {err : Thrown}

theorem emissionRefused_iff : EmissionRefused t ↔ (logOf t).emissionRefused = true := by
  unfold EmissionRefused logOf
  rw [log_of_trace]
  simp

/-- **A failed create request** has inserted a row, or not. -/
theorem failed_create_unchanged_iff {body : CreateSubscription}
    (h : Runs api (subscriptions.create cfg body) w t (.error err) w') :
    w'.subscriptions = w.subscriptions ↔ ¬ EmissionRefused t := by
  have hend := seq_runs (A := fun _ => True) h (fun _ _ => trivial) (create_ends body)
  rw [emissionRefused_iff]
  generalize hr : (Except.error err : Except Thrown HttpReply) = r at hend
  generalize hv : logOf t = v' at hend ⊢
  cases hend with
  | unwritten hsubs => exact ⟨fun _ => by simp, fun _ => hsubs⟩
  | inserted plan wallet now created x start finish _ _ _ _ ht herr =>
      exact ⟨fun heq => absurd heq (Table.ne_of_insert ht),
        fun hno => absurd (herr err hr.symm) hno⟩

/-- **A failed cancel request** has written its row, or not; its time shows
that it has. -/
theorem failed_cancel_unchanged {id : String} {immediately : Bool}
    (h : Runs api (subscriptions.cancel id immediately) w t (.error err) w') :
    (¬ EmissionRefused t → w'.subscriptions = w.subscriptions)
      ∧ (WrittenBefore id w t → w'.subscriptions = w.subscriptions → ¬ EmissionRefused t) := by
  have hend := seq_runs (A := (· ∈ t)) h (fun _ he => he) (cancel_ends id immediately)
  rw [emissionRefused_iff]
  generalize hr : (Except.error err : Except Thrown HttpReply) = r at hend
  generalize hv : logOf t = v' at hend ⊢
  cases hend with
  | unwritten => exact ⟨fun _ => rfl, fun _ _ => by simp⟩
  | written s now data env hs hmade hrow hwritten herr =>
      refine ⟨fun hno => absurd (herr err hr.symm) hno, fun hbefore hsame => ?_⟩
      obtain ⟨hmem, hid⟩ := sub?_eq_some.mp hs
      have hself : data.apply env.now s = s :=
        (Table.update_eq_self_iff hwritten).mp hsame s hmem (beq_iff_eq.mpr hid)
      have hupdated : env.now = s.updatedAt := congrArg Subscription.updatedAt hself
      exact absurd hupdated (ne_of_gt (hbefore s hs _ hmade))

end Requests

/-! ## §3. The claim. -/

/-- **A failed request leaves the table as it was if and only if its emission
was not refused**: for every database, every call that may be rejected, and
every create or cancel request that ends with an error.  That a cancellation
has written is seen by its time, in the row that it has found. -/
theorem failed_requests_unchanged_iff (cfg : Config) (w w' : World) (t : List CallEvent)
    (err : Thrown) :
    (∀ body, Runs api (subscriptions.create cfg body) w t (.error err) w' →
        (w'.subscriptions = w.subscriptions ↔ ¬ EmissionRefused t))
      ∧ ∀ id immediately, Runs api (subscriptions.cancel id immediately) w t (.error err) w' →
        (¬ EmissionRefused t → w'.subscriptions = w.subscriptions)
          ∧ (WrittenBefore id w t →
            (w'.subscriptions = w.subscriptions ↔ ¬ EmissionRefused t)) := by
  refine ⟨fun body h => failed_create_unchanged_iff h, fun id immediately h => ?_⟩
  obtain ⟨hkept, hseen⟩ := failed_cancel_unchanged h
  exact ⟨hkept, fun hbefore => ⟨hseen hbefore, hkept⟩⟩

/-! ## §4. Scenarios. -/

section Scenarios

open Shop

/-- **A subscription whose creation has failed**: the row is there, the
emission is rejected, and the request ends with an error. -/
theorem created_and_failed :
    ¬ ∀ (cfg : Config) (body : CreateSubscription) (w w' : World) (t : List CallEvent)
      (err : Thrown), Runs api (subscriptions.create cfg body) w t (.error err) w' →
      w'.subscriptions = w.subscriptions := by
  intro hclaim
  have hrun : (exec api (subscriptions.create (cfg true) ⟨"plan", wallet.address⟩)
      [on 1, on 1, on 1, fresh 1 "sub", rejected 1] (opening plan)).map
        (fun r => (r.1.isOk, r.2.subscriptions.rows.map (·.id))) = some (false, ["sub"]) := by
    decide +kernel
  obtain ⟨⟨r, w⟩, hexec, hres⟩ := Option.map_eq_some_iff.mp hrun
  obtain ⟨hr, hrows⟩ := Prod.mk.inj hres
  cases r with
  | ok reply => cases hr
  | error err =>
      have hsame := hclaim _ _ _ _ _ err (exec_runs hexec)
      rw [hsame] at hrows
      cases hrows

/-- The subscription with its cancellation asked for. -/
def flagged : World := world plan { sub with cancelAtPeriodEnd := true }

/-- A run that ends with an error, with its trace. -/
theorem runs_of_exec (p : Service HttpReply) (envs : List Env) (w : World)
    (h : (exec api p envs w).map (fun r => r.1.isOk) = some false) :
    ∃ err w', Runs api p w (execTrace api p envs w) (.error err) w' := by
  obtain ⟨⟨r, w'⟩, hexec, hres⟩ := Option.map_eq_some_iff.mp h
  cases r with
  | ok reply => cases hres
  | error err => exact ⟨err, w', exec_runs hexec⟩

/-- A creation whose insertion is rejected leaves the table; a cancellation that
repeats itself, and whose emission is rejected, does not. -/
theorem failed_requests_unchanged_iff_shop :
    (∃ t err w', Runs api (subscriptions.create (cfg true) ⟨"plan", wallet.address⟩)
        (opening plan) t (.error err) w' ∧ w'.subscriptions = (opening plan).subscriptions)
      ∧ ∃ t err w', Runs api (subscriptions.cancel "sub" false) flagged t (.error err) w'
        ∧ w'.subscriptions ≠ flagged.subscriptions := by
  constructor
  · let create := subscriptions.create (cfg true) ⟨"plan", wallet.address⟩
    let envs := [on 1, on 1, on 1, rejected 1]
    obtain ⟨err, w', hruns⟩ := runs_of_exec create envs (opening plan) (by decide +kernel)
    have hanswered : ¬ EmissionRefused (execTrace api create envs (opening plan)) :=
      emissionRefused_iff.not.mpr (by decide +kernel)
    exact ⟨_, err, w', hruns,
      ((failed_requests_unchanged_iff _ _ _ _ err).1 _ hruns).mpr hanswered⟩
  · let cancel := subscriptions.cancel "sub" false
    let envs := [on 3, on 3, rejected 3]
    obtain ⟨err, w', hruns⟩ := runs_of_exec cancel envs flagged (by decide +kernel)
    have hrefused : EmissionRefused (execTrace api cancel envs flagged) :=
      emissionRefused_iff.mpr (by decide +kernel)
    have hclock : (execTrace api cancel envs flagged).all (fun e => decide (day 1 < e.env.now))
        = true := by
      decide +kernel
    have hbefore : WrittenBefore "sub" flagged (execTrace api cancel envs flagged) := by
      intro s hs e he
      cases hs
      exact of_decide_eq_true (List.all_eq_true.mp hclock e he)
    exact ⟨_, err, w', hruns, fun hsame =>
      (((failed_requests_unchanged_iff (cfg true) _ _ _ err).2 _ _ hruns).2 hbefore).mp hsame
        hrefused⟩

end Scenarios

end Sorobill
