/-
  Sorobill.Charging.OtherPayments
  ───────────────────────────────
  **DOES A FAILURE TOUCH THE FAILED PAYMENT ONLY?**

  The handler of a failed charge marks every FAILED payment of the
  subscription.  One of an earlier period is left FAILED by a resume request
  that comes after the retries are exhausted; when a later period is paid,
  the retries begin anew, and the next failure marks the old payment too.

    • `OthersUnchanged` — the payments under other keys are the same;
    • `SparesOthers` — no retries are left, or no other payment is FAILED;
    • `others_unchanged_iff` — the frame holds exactly then, and always while
      resume requests find no FAILED payment.
-/
import Sorobill.Model.Shop
import Sorobill.Rules.Attachments
import Sorobill.Rules.Failures

namespace Sorobill

open Effect
open Relational

/-! ## §1. Statements. -/

/-- **Every payment under another key is unchanged.** -/
def OthersUnchanged (key : String) (w w' : World) : Prop :=
  ∀ p : Payment, p.idempotencyKey ≠ key → (p ∈ w'.payments ↔ p ∈ w.payments)

/-- **The condition** on the state in which the cycle begins: no retries are
left, or the subscription has no FAILED payment of another period. -/
def SparesOthers (cfg : Config) (w : World) (sub : SubscriptionWithPlan) : Prop :=
  cfg.billing.maxRetries ≤ sub.retryCount + 1
    ∨ ∀ p ∈ w.payments, p.subscriptionId = sub.id → p.status = .FAILED →
        p.idempotencyKey = sub.currentKey

/-- The operation is a billing cycle of `sub` that has not paid its period. -/
structure FailsCharge (x : Step) (sub : SubscriptionWithPlan) : Prop where
  bills : x.op.bills = some sub.id
  opened : Opened x.before sub.id sub
  unpaid : ¬ x.after.isPaid sub.currentKey

/-! ## §2. One cycle. -/

section Cycles

variable {cfg : Config} {A : CallEvent → Prop} {sub : SubscriptionWithPlan} {w w₁ w₂ w' : World}
  {p : Payment} {key : String}

theorem OthersUnchanged.refl (key : String) (w : World) : OthersUnchanged key w w :=
  fun _ _ => Iff.rfl

theorem OthersUnchanged.trans {a b c : World} (h : OthersUnchanged key a b)
    (h' : OthersUnchanged key b c) : OthersUnchanged key a c :=
  fun p hp => (h' p hp).trans (h p hp)

theorem OthersUnchanged.congr (h : OthersUnchanged key w w₁) (hp : w'.payments = w₁.payments) :
    OthersUnchanged key w w' := by
  unfold OthersUnchanged
  rw [hp]
  exact h

/-- Up to the charge, only the payment of the period is new. -/
theorem Begun.others (h : Begun sub w p w₁) : OthersUnchanged sub.currentKey w w₁ := by
  intro q hq
  rcases h.origin with ⟨-, hsame⟩ | ⟨-, -, -, ht⟩
  · rw [hsame]
  · rw [Table.mem_insert ht, or_iff_left]
    intro heq
    rw [heq] at hq
    exact hq h.key

/-- A charge writes the payment of the period. -/
theorem WritesOutcome.others_unchanged (h : WritesOutcome p.id w₁ w₂)
    (hbegun : Begun sub w p w₁) : OthersUnchanged sub.currentKey w₁ w₂ := by
  intro q hq
  by_cases hid : q.id = p.id
  · -- the row with this id has the key of the period, before and after
    refine iff_of_false (fun hmem => ?_) (fun hmem => ?_)
    · obtain ⟨r, hr, hbill⟩ := h.bills q hmem
      obtain rfl : r = p := Table.eq_of_clash hr hbegun.stored (.inl (hbill.id.symm.trans hid))
      exact hq (hbill.key.trans hbegun.key)
    · obtain rfl : q = p := Table.eq_of_clash hmem hbegun.stored (.inl hid)
      exact hq hbegun.key
  · exact h.others q hid

/-- **The handler marks no other payment** under the condition. -/
theorem Marked.others_unchanged (h : Marked cfg A sub w w') (hspares : SparesOthers cfg w sub) :
    OthersUnchanged sub.currentKey w w' := by
  cases h with
  | kept _ hsame => exact (OthersUnchanged.refl _ w).congr hsame
  | marked e hleft _ _ _ ht =>
      have hown := hspares.resolve_left (by omega)
      -- a row that is marked has the key of the period
      have hunmarked : ∀ r ∈ w.payments, r.idempotencyKey ≠ sub.currentKey →
          ¬ (r.subscriptionId == sub.id && r.status == .FAILED) = true := by
        intro r hr hkey hsel
        obtain ⟨hid, hst⟩ := Bool.and_eq_true_iff.mp hsel
        exact hkey (hown r hr (beq_iff_eq.mp hid) (beq_iff_eq.mp hst))
      intro p hp
      rw [Table.mem_update ht]
      constructor
      · intro h
        obtain ⟨r, hr, heq⟩ := h
        have hkey : p.idempotencyKey = r.idempotencyKey := by
          rw [heq]
          split <;> rfl
        rw [heq, if_neg (hunmarked r hr (hkey ▸ hp))]
        exact hr
      · exact fun hmem => ⟨p, hmem, (if_neg (hunmarked p hmem hp)).symm⟩

/-- **Only under the condition**, if no call was rejected. -/
theorem Marked.spares (h : Marked cfg A sub w w') (hA : ¬ Refusable A)
    (hsame : OthersUnchanged sub.currentKey w w') : SparesOthers cfg w sub := by
  cases h with
  | kept hmax _ => exact .inl (hmax.resolve_left hA)
  | marked e _ _ _ _ ht =>
      refine .inr (fun p hp hid hst => ?_)
      by_contra hkey
      -- the marked row and the unchanged one would be two rows with one id
      have hmarked := Table.mem_update_of_selected ht hp (by simp [hid, hst])
      have heq := Table.eq_of_clash hmarked ((hsame p hkey).mpr hp) (.inl rfl)
      have hstatus := congrArg Payment.status heq
      rw [hst] at hstatus
      cases hstatus

/-- The condition looks at other payments only. -/
theorem SparesOthers.congr (h : SparesOthers cfg w sub)
    (hsame : OthersUnchanged sub.currentKey w w') : SparesOthers cfg w' sub := by
  rcases h with hmax | hown
  · exact .inl hmax
  · refine .inr (fun p hp hid hst => ?_)
    by_contra hkey
    exact hkey (hown p ((hsame p hkey).mp hp) hid hst)

theorem OthersUnchanged.symm (h : OthersUnchanged key w w') : OthersUnchanged key w' w :=
  fun p hp => (h p hp).symm

theorem FailedCycle.others_unchanged (h : FailedCycle cfg A sub w w')
    (hspares : SparesOthers cfg w sub) : OthersUnchanged sub.currentKey w w' := by
  cases h with
  | unbegun _ hsame =>
      rw [hsame]
      exact .refl _ w
  | handled p w₁ w₂ hbegun hwrites _ hmarked _ =>
      have hcharge := hbegun.others.trans (hwrites.others_unchanged hbegun)
      exact hcharge.trans (hmarked.others_unchanged (hspares.congr hcharge))

theorem FailedCycle.spares (h : FailedCycle cfg A sub w w') (hA : ¬ Refusable A)
    (hsame : OthersUnchanged sub.currentKey w w') : SparesOthers cfg w sub := by
  cases h with
  | unbegun hrefused _ => exact absurd hrefused hA
  | handled p w₁ w₂ hbegun hwrites _ hmarked _ =>
      have hcharge := hbegun.others.trans (hwrites.others_unchanged hbegun)
      exact (hmarked.spares hA (hcharge.symm.trans hsame)).congr hcharge.symm

end Cycles

/-! ## §3. Executions. -/

section Executions

variable {cfg : Config} {x : Step} {sub : SubscriptionWithPlan}

theorem FailsCharge.cycle (h : FailsCharge x sub) (hx : x.Of (serial cfg)) :
    FailedCycle cfg (· ∈ x.trace) sub x.before x.after :=
  seq_runs hx.runs (fun _ he => he) (safe_billing h.bills (failed_cycle h.opened)) h.unpaid

theorem unsettling_failed : Unsettling (· = .FAILED) where
  success := PaymentStatus.noConfusion
  retrying _ := rfl

/-- When FAILED payments are for the current period, others are spared. -/
theorem Belonging.spares {w : World} (h : Belonging (· = .FAILED) w)
    (hopen : Opened w sub.id sub) : SparesOthers cfg w sub := by
  refine .inr (fun p hp hid hst => ?_)
  have hend := h.current p hp hst sub.toSubscription (hid ▸ hopen.row) hopen.notCancelled
  rw [h.keys p hp, hid, hend]
  rfl

end Executions

/-! ## §4. The claim. -/

/-- **A failure touches no other payment exactly under the condition**: in
every history, with failures at any call, a cycle that fails its charge leaves
every other payment unchanged if no retries are left or no other payment of
the subscription is FAILED, and only then if its calls to the database are
answered.  The condition holds in every history in which no resume request
finds a FAILED payment. -/
theorem others_unchanged_iff (cfg : Config) (w₀ w : World) (xs : List Step)
    (hpayments : w₀.payments.rows = []) (h : History (serial cfg) (fun _ _ => True) w₀ xs w) :
    (∀ x ∈ xs, ∀ sub, FailsCharge x sub →
        (SparesOthers cfg x.before sub → OthersUnchanged sub.currentKey x.before x.after)
          ∧ (DatabaseUp x.trace → OthersUnchanged sub.currentKey x.before x.after →
              SparesOthers cfg x.before sub))
      ∧ ((∀ x ∈ xs, ResumesWithout (· = .FAILED) x) → ∀ x ∈ xs, ∀ sub, FailsCharge x sub →
          OthersUnchanged sub.currentKey x.before x.after) := by
  refine ⟨fun x hx sub hfails => ?_, fun hresumes => ?_⟩
  · have hcycle := hfails.cycle (h.of_mem hx)
    exact ⟨hcycle.others_unchanged, fun hup => hcycle.spares hup.not_refusable⟩
  · have hnone : ∀ p, p ∉ w₀.payments := Table.not_mem_of_nil hpayments
    have hstart : Belonging (· = .FAILED) w₀ :=
      ⟨fun p hp => absurd hp (hnone p), fun p hp => absurd hp (hnone p),
        fun p hp => absurd hp (hnone p)⟩
    have heach := (h.restrict hresumes).each (J := fun _ w => Belonging (· = .FAILED) w)
      (P := fun _ x => ∀ sub, FailsCharge x sub →
        OthersUnchanged sub.currentKey x.before x.after) hstart
      (fun _ x hJ hx hresume => ?_) (fun _ w₁ _ hJ hdrift => ?_)
    · intro x hx
      obtain ⟨past, rest, rfl⟩ := List.append_of_mem hx
      exact heach past x ⟨rest, by simp⟩
    · refine ⟨fun sub hfails => ?_, execution_belonging unsettling_failed hx hresume hJ⟩
      exact (hfails.cycle hx).others_unchanged (hJ.spares hfails.opened)
    · obtain ⟨q, -, rfl⟩ := hdrift
      exact ⟨hJ.keys, hJ.stored, hJ.current⟩

/-! ## §5. Scenarios. -/

section Scenarios

open Shop

/-- Three failures on day 2, so that the retries are exhausted; paused and
resumed on day 2; paid on day 3; and a failure on day 4. -/
def failedAnew : List (Operation × List Env) :=
  [(.createSubscription ⟨"plan", wallet.address⟩, [on 1, on 1, on 1, fresh 1 "sub", on 1]),
   (.runInline "sub", charging 2 "pay" ++ unreachable 2),
   (.runInline "sub", [on 2, on 2, on 2, on 2] ++ unreachable 2),
   (.runInline "sub", [on 2, on 2, on 2, on 2] ++ unreachable 2),
   (.pause "sub", [on 2, on 2]),
   (.resume "sub", [on 2, on 2, on 2]),
   (.runInline "sub", charging 3 "pay2" ++ confirmed 3 "tx"),
   (.runInline "sub", charging 4 "pay3" ++ unreachable 4)]

/-- The payments of an execution that fails a charge and changes others, as a
test. -/
def changesOthers (x : Step) : Bool :=
  x.op.bills.any (fun id => ((x.before.sub? id).bind x.before.withPlan).any (fun sub =>
    sub.id == id && sub.status != .CANCELLED && sub.status != .EXPIRED
      && !(x.after.paymentByKey? sub.currentKey).any (·.status == .SUCCESS)
      && x.before.payments.rows.any (fun p => p.idempotencyKey != sub.currentKey
        && !x.after.payments.rows.contains p)))

theorem changesOthers_sound {x : Step} (h : changesOthers x = true) :
    ∃ sub, FailsCharge x sub ∧ ¬ OthersUnchanged sub.currentKey x.before x.after := by
  obtain ⟨id, hid, h⟩ := (Option.any_eq_true _ _).mp h
  obtain ⟨sub, hsub, h⟩ := (Option.any_eq_true _ _).mp h
  simp only [Bool.and_eq_true, Bool.not_eq_true', beq_iff_eq, bne_iff_ne] at h
  obtain ⟨⟨⟨⟨rfl, hcancelled⟩, hexpired⟩, hunpaid⟩, hother⟩ := h
  refine ⟨sub, ⟨hid, ⟨hsub, hcancelled, hexpired⟩, fun hpaid => ?_⟩, fun hsame => ?_⟩
  · obtain ⟨p, hp, hst⟩ := hpaid
    rw [hp] at hunpaid
    simp [hst] at hunpaid
  · obtain ⟨p, hp, h⟩ := List.any_eq_true.mp hother
    simp only [Bool.and_eq_true, Bool.not_eq_true', bne_iff_ne] at h
    obtain ⟨hkey, hgone⟩ := h
    have hmem : p ∈ x.after.payments := (hsame p hkey).mpr hp
    rw [List.contains_iff_mem.mpr hmem] at hgone
    cases hgone

/-- **A failure that marks a payment of an earlier period.** -/
theorem earlier_payment_marked :
    ¬ ∀ (cfg : Config) (w₀ w : World) (xs : List Step), w₀.payments.rows = [] →
      History (serial cfg) (fun _ _ => True) w₀ xs w → ∀ x ∈ xs, ∀ sub, FailsCharge x sub →
      OthersUnchanged sub.currentKey x.before x.after := by
  intro hclaim
  have hrun : ((serial (cfg false)).play (fun _ _ => true) failedAnew []
      (opening plan)).map (fun r => r.1.any changesOthers) = some true := by
    decide +kernel
  obtain ⟨⟨xs, w⟩, hplay, hchanges⟩ := Option.map_eq_some_iff.mp hrun
  obtain ⟨x, hx, hchanges⟩ := List.any_eq_true.mp hchanges
  obtain ⟨sub, hfails, hnot⟩ := changesOthers_sound hchanges
  exact hnot (hclaim (cfg false) (opening plan) w xs rfl
    (Serial.play_history (fun _ _ _ => trivial) .start hplay) x hx sub hfails)

/-- Paid on day 2, paused and resumed; the charge on day 4 fails. -/
def resumedUnfailed : List (Operation × List Env) :=
  [(.createSubscription ⟨"plan", wallet.address⟩, [on 1, on 1, on 1, fresh 1 "sub", on 1]),
   (.runInline "sub", charging 2 "pay" ++ confirmed 2 "tx"),
   (.pause "sub", [on 3, on 3]),
   (.resume "sub", [on 3, on 3, on 3]),
   (.runInline "sub", charging 4 "pay2" ++ unreachable 4)]

/-- `ResumesWithout` for FAILED payments, as a test. -/
def resumesUnfailed (x : Step) : Bool :=
  match x.op with
  | .resume id => (x.before.sub? id).all (fun s => !s.paused || s.status == .CANCELLED
      || x.before.payments.rows.all (fun p => p.subscriptionId != id || p.status != .FAILED))
  | _ => true

theorem resumesUnfailed_sound {x : Step} (h : resumesUnfailed x = true) :
    ResumesWithout (· = .FAILED) x := by
  intro id s hop hs hpaused hopen p hp hid
  unfold resumesUnfailed at h
  rw [hop] at h
  dsimp only at h
  rw [hs, Option.all_some, hpaused, Bool.or_eq_true_iff] at h
  rcases h with h | h
  · simp [hopen] at h
  · have htest := List.all_eq_true.mp h p hp
    simpa [hid] using htest

/-- The payment of day 2 stays as it is. -/
theorem others_unchanged_iff_shop :
    ∃ xs w, History (serial (cfg false)) (fun _ _ => True) (opening plan) xs w
      ∧ w.payments.rows.map (fun p => p.status) = [.SUCCESS, .RETRYING]
      ∧ ∀ x ∈ xs, ∀ sub, FailsCharge x sub →
          OthersUnchanged sub.currentKey x.before x.after := by
  have hrun : ((serial (cfg false)).play (fun _ _ => true) resumedUnfailed []
      (opening plan)).map (fun r => (r.1.all resumesUnfailed,
        r.2.payments.rows.map (fun p => p.status))) = some (true, [.SUCCESS, .RETRYING]) := by
    decide +kernel
  obtain ⟨⟨xs, w⟩, hplay, hres⟩ := Option.map_eq_some_iff.mp hrun
  obtain ⟨hresumes, hrows⟩ := Prod.mk.inj hres
  have h : History (serial (cfg false)) (fun _ _ => True) (opening plan) xs w :=
    Serial.play_history (fun _ _ _ => trivial) .start hplay
  refine ⟨xs, w, h, hrows, (others_unchanged_iff (cfg false) (opening plan) w xs rfl h).2 ?_⟩
  exact fun x hx => resumesUnfailed_sound (List.all_eq_true.mp hresumes x hx)

end Scenarios

end Sorobill
