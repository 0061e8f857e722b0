/-
  Sorobill.Rules.Hindrances
  ─────────────────────────
  **WHAT A CYCLE DOES WHEN THE DATABASE REFUSES ITS CALLS.**

  A cycle ends at the first of its own reads and writes that is refused, the
  calls of its charge apart.

    • `hinders` — one of these calls is refused;
    • `hindrances` — the contract that remembers it;
    • `spared_after_billing` — a cycle that was hindered has paid, or has left
      the row of its subscription as it was.
-/
import Sorobill.Rules.Failures

namespace Sorobill

open Effect
open Relational

/-! ## §1. The contract. -/

/-- The database has refused one of the calls without which a cycle does not
penalise: the reads of the subscription and of the payment of its period, the
creation of that payment, and the update of the subscription. -/
def hinders (e : CallEvent) : Bool :=
  match e.call with
  | .subscriptionFindUniqueWithPlan _ => isRejected e
  | .paymentFindUnique (.byKey _) => isRejected e
  | .paymentCreate _ => isRejected e
  | .subscriptionUpdate _ _ => isRejected e
  | _ => false

section Hindered

variable {cfg : Config} {w : World} {v : Bool} {key x : String} {s : Subscription} {α : Type}

/-- The contract that remembers whether a cycle was hindered. -/
def hindrances : Contract api Bool where
  rely := Eq
  assume _ _ := True
  guarantee _ _ := True
  track v e := v || hinders e

/-- A cycle that was hindered has paid, or has left the row as it was. -/
def Spared (key x : String) (s : Subscription) : Post Api World Bool α :=
  fun _ w' v' => v' = true → w'.isPaid key ∨ w'.sub? x = some s

/-- The calls that hinder nothing when they are refused. -/
def Call.isHarmless : Call → Prop
  | .subscriptionFindUniqueWithPlan _ => False
  | .paymentFindUnique (.byKey _) => False
  | .paymentCreate _ => False
  | .subscriptionUpdate _ _ => False
  | _ => True

theorem Call.isHarmless.hinders {e : CallEvent} (h : e.call.isHarmless) :
    hinders e = false := by
  obtain ⟨w, c, env⟩ := e
  cases c with
  | paymentFindUnique k =>
      cases k with
      | byId _ => rfl
      | byKey _ => exact h.elim
  | _ => first | exact h.elim | rfl

theorem Call.isWebhook.isHarmless {c : Call} (h : c.isWebhook) : c.isHarmless := by
  cases c <;> first | exact h.elim | trivial

theorem Call.isCharge.isHarmless {pid : String} {c : Call} (h : c.isCharge pid) :
    c.isHarmless := by
  cases c with
  | paymentFindUnique k =>
      have h : k = .byId pid := h
      rw [h]
      trivial
  | _ => first | exact h.elim | trivial

theorem hinders_of_answered {c : Call} {env : Env} {a : c.Reply}
    (h : (api.serve c env w).1 = .ok a) : hinders ⟨w, c, env⟩ = false := by
  have hanswered := isRejected_of_ok h
  unfold hinders
  split <;> first | exact hanswered | rfl

/-! ## §2. Rules. -/

/-- Nothing hinders. -/
theorem unhindered {p : Service α} (hp : Calls api Call.isHarmless p) :
    Safe hindrances p (fun _ _ v' => v' = false) w false :=
  safe_views (K := fun v => v = false) (fun v e he hv _ => ⟨trivial, by
    show (v || hinders e) = false
    rw [hv, he.hinders]
    rfl⟩) rfl hp

/-- A program that is paid stays so. -/
theorem spared_paid {p : Service α} (hp : Calls api Call.isFree p) (hpaid : w.isPaid key) :
    Safe hindrances p (fun _ w' _ => w'.isPaid key) w v :=
  (safe_frame (C := hindrances) (R := fun w w' => w.isPaid key → w'.isPaid key)
    (fun _ _ h hpaid => h ▸ hpaid) (fun _ h => h) (fun _ _ _ h h' hpaid => h' (h hpaid))
    (fun _ _ he _ => ⟨trivial, isPaid_after he⟩) hp).mono (fun _ _ _ h => h hpaid)

/-- A call that is refused leaves the row as it was. -/
theorem spared_ask {c : Call} {f : c.Reply → Service α} (hs : w.sub? x = some s)
    (hok : ∀ env a, (api.serve c env w).1 = .ok a →
      Safe hindrances (f a) (Spared key x s) (api.serve c env w).2 false) :
    Safe hindrances (Prog.perform (I := Api) c >>= f) (Spared key x s) w false := by
  rw [safe_bind]
  refine safe_perform.mpr (fun w' env heq _ => ⟨trivial, ?_⟩)
  obtain rfl := heq
  cases hr : (api.serve c env w).1 with
  | error err =>
      rw [after_of_error hr]
      exact fun _ => .inr hs
  | ok a =>
      show Safe hindrances (f a) _ _ (false || hinders ⟨w, c, env⟩)
      rw [hinders_of_answered hr]
      exact hok env a hr

/-- An update of the row, after which nothing hinders. -/
theorem spared_update {y : String} {data : SubscriptionData} {f : Subscription → Service α}
    (hs : w.sub? x = some s) (hf : ∀ a, Calls api Call.isHarmless (f a)) :
    Safe hindrances (prisma.subscription.update y data >>= f) (Spared key x s) w false :=
  spared_ask hs (fun _ a _ => (unhindered (hf a)).mono (fun _ _ _ hv h => by
    rw [hv] at h
    cases h))

/-! ## §3. Cycles. -/

/-- **A handler that is hindered** has not written the row. -/
theorem handler_spared (sub : SubscriptionWithPlan) (pid : String) (hs : w.sub? x = some s) :
    Safe hindrances (handlePaymentFailure cfg sub pid) (Spared key x s) w false := by
  unfold handlePaymentFailure
  dsimp only
  split
  · -- PAST_DUE: after the write nothing but the emission is left
    refine spared_ask hs (fun env now _ => ?_)
    rw [serve_read rfl]
    exact spared_update hs (fun _ => (emitWebhookEvent_calls _ _ _).mono
      (fun _ h => h.isHarmless))
  · refine spared_ask hs (fun env now _ => ?_)
    rw [serve_read rfl]
    refine spared_ask hs (fun env' a ha => ?_)
    rcases serve_paymentUpdateMany sub.id .FAILED _ env' w with ⟨err, h⟩ | ⟨t, ht, h⟩
    · rw [h] at ha
      cases ha
    · rw [h]
      exact spared_update hs (fun _ => calls_pure)

/-- The `try` block and its handler. -/
theorem attempt_spared {sub : SubscriptionWithPlan} {payment : Payment} {st : PaymentStatus}
    (hst : st ≠ .SUCCESS) (hrow : RowAt payment.id sub.currentKey w st)
    (hs : w.sub? x = some s) :
    Safe hindrances (tryCatch (processBillingCycle.attempt cfg sub payment sub.currentKey)
      (fun _ => handlePaymentFailure cfg sub payment.id)) (Spared sub.currentKey x s) w false := by
  rw [safe_tryCatch]
  unfold processBillingCycle.attempt
  rw [safe_bind]
  have hcalls : Calls api (Call.isCharge payment.id)
      (chargePayment cfg sub payment.id sub.currentKey) := chargePayment_calls sub _ _
  have hframe : Safe hindrances (chargePayment cfg sub payment.id sub.currentKey)
      (fun _ w' _ => SameButPayments w w') w false :=
    safe_frame (fun _ _ h => h ▸ .refl _) SameButPayments.refl (fun _ _ _ => SameButPayments.trans)
      (fun _ _ he _ => ⟨trivial, after_isCharge he⟩) hcalls
  have hends : Safe hindrances (chargePayment cfg sub payment.id sub.currentKey)
      (fun r w' _ => (∃ a, r = .ok a) → w'.isPaid sub.currentKey) w false := by
    refine safe_of_runs (fun _ _ h => h) (fun _ _ => trivial) (fun t r w' hrun hok => ?_)
    have hend := (seq_runs (A := fun _ => True) hrun (fun _ _ => trivial)
      (chargePayment_ends hst hrow)).2
    obtain ⟨a, rfl⟩ := hok
    exact (isPaid_iff hend.1).mpr rfl
  apply (((unhindered (hcalls.mono (fun _ h => h.isHarmless))).and hframe).and hends).mono
  intro r w₁ v₁ hpost
  obtain ⟨⟨rfl, hsame⟩, hpaid⟩ := hpost
  have hs₁ : w₁.sub? x = some s := by
    rw [World.sub?, hsame.subscriptions]
    exact hs
  cases r with
  | error err =>
      -- the charge has left the row of the subscription
      exact handler_spared sub payment.id hs₁
  | ok a =>
      -- it is paid, and stays paid
      rw [andThen_ok]
      apply (spared_paid (calls_bind (fun _ => free_emit _ _ _) (free_advance sub))
        (hpaid ⟨a, rfl⟩)).mono
      intro r w₂ v₂ hpaid₂
      cases r with
      | ok _ => exact fun _ => .inl hpaid₂
      | error err =>
          exact (spared_paid (free_handler sub payment.id) hpaid₂).mono
            (fun _ _ _ hpaid₃ _ => .inl hpaid₃)

/-- **A cycle that is hindered** has paid, or has left its row as it was. -/
theorem processBillingCycle_spared {sub : SubscriptionWithPlan} (hopen : Opened w x sub) :
    Safe hindrances (processBillingCycle cfg x)
      (Spared sub.currentKey x sub.toSubscription) w false := by
  refine safe_cycle (C := hindrances) (E := fun _ => True) (fun {c R} hc herr hok => ?_)
    (fun _ _ _ _ => .inr hopen.row) (fun r h => absurd hopen (h sub))
    (fun sub' hopen' _ => ?_) (fun sub' payment w₁ hopen' _ hbegun => ?_)
  · refine safe_perform.mpr (fun w' env heq _ => ⟨trivial, ?_⟩)
    obtain rfl := heq
    cases hr : (api.serve c env w).1 with
    | error err =>
        rw [after_of_error hr]
        exact herr err _ trivial
    | ok a =>
        show R (.ok a) _ (false || hinders ⟨w, c, env⟩)
        rw [hinders_of_answered hr]
        exact hok env a hr
  · exact spared_update hopen.row (fun _ => calls_pure)
  · obtain rfl : sub' = sub := hopen.unique hopen'
    refine attempt_spared hbegun.unpaid hbegun.row ?_
    rw [World.sub?, hbegun.changed.subscriptions_eq (by decide)]
    exact hopen.row

/-- What a hindered execution leaves. -/
theorem spared_after_billing {y : Step} {sub : SubscriptionWithPlan} (hy : y.Of (serial cfg))
    (hb : y.op.bills = some x) (hopen : Opened y.before x sub)
    (hhindered : ∃ e ∈ y.trace, hinders e = true) :
    y.after.isPaid sub.currentKey ∨ y.after.sub? x = some sub.toSubscription := by
  have hsafe : Safe hindrances (y.op.body cfg) (Spared sub.currentKey x sub.toSubscription)
      y.before false := safe_billing hb (processBillingCycle_spared hopen)
  obtain ⟨-, hspared⟩ := Safe.of_runs (C := hindrances) (fun _ => rfl) hy.runs hsafe
    (assumed_of_forall (fun _ _ _ => trivial))
  refine hspared ?_
  have hview : ∀ (t : List CallEvent) (v : Bool),
      t.foldl hindrances.track v = (v || t.any hinders) := by
    intro t
    induction t with
    | nil => exact fun v => (Bool.or_false v).symm
    | cons e t ih =>
        intro v
        rw [List.foldl_cons, ih, List.any_cons, ← Bool.or_assoc]
        rfl
  rw [hview, Bool.false_or]
  exact List.any_eq_true.mpr hhindered

end Hindered

end Sorobill
