/-
  Sorobill.Rules.Bookings
  ───────────────────────
  **WHAT AN UNINTERRUPTED BILLING CYCLE DOES TO PAYMENTS AND PERIODS.**

    • `billing_books` — it updates the payment of the period it has read, and
      no other;
    • `bills_after`, `bills_kept` — where the payments come from, and what
      becomes of them;
    • `row_after_billing` — it keeps the period, or advances it past a period
      that is paid.
-/
import Sorobill.Rules.Periods
import Sorobill.Rules.Ticks

namespace Sorobill

open Effect
open Relational

/-! ## §1. Keys. -/

/-- Every payment has the key of its subscription and period. -/
def KeysFit (w : World) : Prop :=
  ∀ p ∈ w.payments,
    p.idempotencyKey = billingIdempotencyKey p.subscriptionId p.billingPeriodEnd

/-- The calls that create no payment under another key. -/
def Call.keysFit : Call → Prop
  | .paymentCreate data =>
      data.idempotencyKey = billingIdempotencyKey data.subscriptionId data.billingPeriodEnd
  | _ => True

theorem keysFit_after {e : CallEvent} (he : e.call.keysFit) (h : KeysFit e.before) :
    KeysFit (e.after api) := by
  intro p hp
  rcases payment_origin e hp with hp | ⟨old, hold, data, rfl, -⟩ | ⟨data, id, hcall, rfl⟩
  · exact h p hp
  · -- an update changes neither key nor period
    exact h old hold
  · rw [hcall] at he
    exact he

theorem Call.isCycle.keysFit {id : String} {c : Call} (h : c.isCycle id) : c.keysFit := by
  cases c <;> first | exact h | trivial

theorem Call.isOrdinary.keysFit {may : Permissions} {c : Call} (h : c.isOrdinary may) :
    c.keysFit := by
  cases c <;> first | exact h.elim | trivial

theorem operation_keysFit (cfg : Config) (op : Operation) :
    Calls api Call.keysFit (op.body cfg) := by
  cases hb : op.bills with
  | none => exact (operation_calls cfg op hb).mono (fun _ h => h.keysFit)
  | some id => exact (billing_calls cfg hb).mono (fun _ h => h.keysFit)

/-- Keys fit before every event of an execution, and after it. -/
theorem execution_keysFit {cfg : Config} {x : Step} (hx : x.Of (serial cfg))
    (h : KeysFit x.before) : (∀ e ∈ x.trace, KeysFit e.before) ∧ KeysFit x.after := by
  have hruns : Runs api (x.op.body cfg) x.before x.trace x.reply x.after := hx.runs
  have hcalls := (operation_keysFit cfg x.op).events hruns
  exact hruns.always h (fun e he => keysFit_after (hcalls e he))

/-- Keys fit in every reachable state. -/
theorem running_keysFit {cfg : Config} {w₀ : World} {P : Pool Api World Unit}
    (h : Pool.Run (running cfg) anyone ⟨w₀, []⟩ P) (hkeys : KeysFit w₀) : KeysFit P.world := by
  refine h.keeps (fun op => calls_map (operation_keysFit cfg op)) (fun _ => keysFit_after) ?_ hkeys
  intro w w' hdrift hkeys
  obtain ⟨q, -, rfl⟩ := hdrift
  exact hkeys

/-! ## §2. Which payment a cycle updates. -/

/-- The event updates a payment only if it is the one of the current period
of `id`, which was open and not paid in `w`. -/
def BooksCurrent (id : String) (w : World) (e : CallEvent) : Prop :=
  ∀ pid data, e.call = .paymentUpdate pid data →
    ∃ sub, Opened w id sub ∧ ¬ w.isPaid sub.currentKey ∧ HasRow pid sub.currentKey e.before

def booking (id : String) (w : World) : Contract api Unit where
  rely := Eq
  assume _ _ := True
  guarantee _ e := BooksCurrent id w e
  track v _ := v

/-- The calls that update no single payment. -/
def Call.booksNothing : Call → Prop
  | .paymentUpdate _ _ => False
  | _ => True

theorem Call.opensCycle.booksNothing {c : Call} (h : c.opensCycle) : c.booksNothing := by
  cases c <;> first | exact h.elim | trivial

/-- An update is a charging call. -/
theorem booksNothing_of_uncharged {c : Call} (h : ¬ c.isCharging) : c.booksNothing := by
  cases c <;> first | trivial | exact h trivial

theorem Call.isWebhook.uncharged {c : Call} (h : c.isWebhook) : ¬ c.isCharging := by
  cases c <;> first | exact h.elim | exact id

section Walk

variable {cfg : Config} {id : String} {w w₁ : World} {α : Type}

theorem booksCurrent_of_nothing {e : CallEvent} (h : e.call.booksNothing) :
    BooksCurrent id w e := by
  intro pid data hcall
  rw [hcall] at h
  exact h.elim

/-- A program that updates no payment. -/
theorem books_nothing {p : Service α} (hp : Calls api Call.booksNothing p) :
    Safe (booking id w) p (fun _ _ _ => True) w₁ () :=
  safe_frame (R := fun _ _ => True) (fun _ _ _ => trivial) (fun _ => trivial)
    (fun _ _ _ _ _ => trivial) (fun _ _ he _ => ⟨booksCurrent_of_nothing he, trivial⟩) hp

/-- A call that updates no payment is answered, or has no effect. -/
theorem emit_uncharged (type : WebhookEventType) (pid : Option String)
    (payload : JavaScript.JsValue) :
    Calls api (fun c => ¬ c.isCharging) (emitWebhookEvent type pid payload) :=
  (emitWebhookEvent_calls type pid payload).mono (fun _ h => h.uncharged)

theorem handlePaymentFailure_uncharged (sub : SubscriptionWithPlan) (pid : String) :
    Calls api (fun c => ¬ c.isCharging) (handlePaymentFailure cfg sub pid) := by
  unfold handlePaymentFailure
  dsimp only
  split
  · refine calls_bind (fun now => ?_) (calls_perform id)
    exact calls_bind (fun _ => emit_uncharged _ _ _) (calls_perform id)
  · refine calls_bind (fun now => ?_) (calls_perform id)
    refine calls_bind (fun _ => ?_) (calls_perform id)
    exact calls_bind (fun _ => calls_pure) (calls_perform id)

theorem advancePeriod_uncharged (sub : SubscriptionWithPlan) :
    Calls api (fun c => ¬ c.isCharging) (advancePeriod cfg sub) :=
  calls_bind (fun _ => calls_pure) (calls_perform id)

/-- The `try` block and its handler update the payment they are given. -/
theorem attempt_books {sub : SubscriptionWithPlan} {payment : Payment} (hopen : Opened w id sub)
    (hunpaid : ¬ w.isPaid sub.currentKey) (hrow : HasRow payment.id sub.currentKey w₁) :
    Safe (booking id w)
      (tryCatch (processBillingCycle.attempt cfg sub payment sub.currentKey)
        (fun _ => handlePaymentFailure cfg sub payment.id)) (fun _ _ _ => True) w₁ () := by
  have hhandler : ∀ w₂, Safe (booking id w) (handlePaymentFailure cfg sub payment.id)
      (fun _ _ _ => True) w₂ () :=
    fun _ => books_nothing ((handlePaymentFailure_uncharged sub payment.id).mono
      (fun _ => booksNothing_of_uncharged))
  have hcharge : Safe (booking id w) (chargePayment cfg sub payment.id sub.currentKey)
      (fun _ _ _ => True) w₁ () := by
    refine (safe_of_footprint (C := booking id w) (F := Call.isCharge payment.id)
      (J := HasRow payment.id sub.currentKey)
      (R := fun a b => HasRow payment.id sub.currentKey a → HasRow payment.id sub.currentKey b)
      ?_ (fun _ h => h) (fun _ _ _ h h' hrow => h' (h hrow)) (fun _ _ h hrow => h hrow)
      (fun e he hrow _ => ⟨?_, hasRow_after e, rfl⟩) hrow
      (chargePayment_calls sub payment.id sub.currentKey)).mono (fun _ _ _ _ => trivial)
    · intro a _ heq hrow
      obtain rfl := heq
      exact hrow
    · intro pid data hcall
      rw [hcall] at he
      have hpid : pid = payment.id := he
      exact ⟨sub, hopen, hunpaid, hpid ▸ hrow⟩
  have hannounce : ∀ w₂, Safe (booking id w)
      (advancePeriod cfg sub >>= fun _ => emitWebhookEvent .PAYMENT_SUCCESS (some payment.id)
        (.object [("subscriptionId", .string sub.id), ("amount", .string sub.plan.amount),
          ("assetCode", .string sub.plan.assetCode),
          ("mode", .string (if useSoroban cfg sub.plan then "soroban" else "horizon"))]))
      (fun _ _ _ => True) w₂ () :=
    fun _ => books_nothing ((calls_bind (fun _ => emit_uncharged _ _ _)
      (advancePeriod_uncharged sub)).mono (fun _ => booksNothing_of_uncharged))
  -- charge, advance, announce: only the charge books, and only this payment
  rw [safe_tryCatch]
  unfold processBillingCycle.attempt
  rw [safe_bind]
  apply hcharge.mono
  intro r w₂ _ _
  cases r with
  | error err => exact hhandler w₂
  | ok _ =>
      apply (hannounce w₂).mono
      intro r w₃ _ _
      cases r with
      | error err => exact hhandler w₃
      | ok _ => trivial

/-- **A billing cycle updates the payment of the period it has read.** -/
theorem processBillingCycle_books (x : String) :
    Safe (booking x w) (processBillingCycle cfg x) (fun _ _ _ => True) w () := by
  refine safe_cycle (C := booking x w) (E := fun _ => True) (fun hc herr hok => ?_)
    (fun _ _ _ => trivial) (fun _ _ => trivial)
    (fun sub _ _ => books_nothing ((advancePeriod_uncharged sub).mono
      (fun _ => booksNothing_of_uncharged)))
    (fun sub payment w₁ hopen hunpaid hbegun => ?_)
  · exact safe_unnoticed (fun _ h => h)
      (fun env => ⟨booksCurrent_of_nothing hc.booksNothing, rfl⟩)
      (fun err => herr err () trivial) hok
  · exact attempt_books hopen hunpaid ⟨payment, hbegun.stored, rfl, hbegun.key⟩

/-- **An execution that bills `x` updates the payment of its current period.** -/
theorem billing_books {y : Step} {x : String} (hy : y.Of (serial cfg))
    (hb : y.op.bills = some x) : ∀ e ∈ y.trace, BooksCurrent x y.before e := by
  have hsafe : Safe (booking x y.before) (y.op.body cfg) (fun _ _ _ => True) y.before () :=
    safe_billing hb (processBillingCycle_books x)
  have hassumed : Assumed (booking x y.before) () y.trace :=
    assumed_of_forall (fun _ _ _ => trivial)
  exact Guaranteed.forall (fun _ _ h => h) (Safe.of_runs (fun _ => rfl) hy.runs hsafe hassumed).1

end Walk

/-! ## §3. What a cycle does with what it has read. -/

/-- The event reads the subscription `id`, or belongs to the billing of what
was open under this id in `w`. -/
def BillsOpened (cfg : Config) (id : String) (w : World) (e : CallEvent) : Prop :=
  e.call = .subscriptionFindUniqueWithPlan id
    ∨ ∃ sub, Opened w id sub ∧ e.call.isBilling cfg sub

def reading (cfg : Config) (id : String) (w : World) : Contract api Unit where
  rely := Eq
  assume _ _ := True
  guarantee _ e := BillsOpened cfg id w e
  track v _ := v

section Reading

variable {cfg : Config} {y : Step} {x : String}

/-- **Every call of a cycle is about the subscription it has read.** -/
theorem billing_opened (hy : y.Of (serial cfg)) (hb : y.op.bills = some x) :
    ∀ e ∈ y.trace, BillsOpened cfg x y.before e := by
  have hcycle : Safe (reading cfg x y.before) (processBillingCycle cfg x) (fun _ _ _ => True)
      y.before () := by
    refine safe_reading (fun w' env heq _ => ?_)
    obtain rfl := heq
    refine ⟨.inl rfl, fun sub hopen => ?_⟩
    exact safe_frame (R := fun _ _ => True) (fun _ _ _ => trivial) (fun _ => trivial)
      (fun _ _ _ _ _ => trivial) (fun _ e he _ => ⟨Or.inr ⟨sub, hopen, he⟩, trivial⟩)
      (rest_calls sub)
  have hassumed : Assumed (reading cfg x y.before) () y.trace :=
    assumed_of_forall (fun _ _ _ => trivial)
  exact Guaranteed.forall (fun _ _ h => h)
    (Safe.of_runs (fun _ => rfl) hy.runs (safe_billing hb hcycle) hassumed).1

/-- A row of another subscription is left as it is. -/
theorem other_after_billing (hy : y.Of (serial cfg)) (hb : y.op.bills = some x) {z : String}
    (hz : z ≠ x) : y.after.sub? z = y.before.sub? z :=
  seq_runs (A := fun _ => True) hy.runs (fun _ _ => trivial) (billing_keeps hb hz)

end Reading

/-! ## §4. Payments. -/

/-- The same payment, up to its outcome. -/
structure SameBill (p p' : Payment) : Prop where
  id : p'.id = p.id
  subscriptionId : p'.subscriptionId = p.subscriptionId
  key : p'.idempotencyKey = p.idempotencyKey
  start : p'.billingPeriodStart = p.billingPeriodStart
  finish : p'.billingPeriodEnd = p.billingPeriodEnd

theorem SameBill.refl (p : Payment) : SameBill p p := ⟨rfl, rfl, rfl, rfl, rfl⟩

theorem SameBill.trans {p q r : Payment} (h : SameBill p q) (h' : SameBill q r) :
    SameBill p r :=
  ⟨h'.id.trans h.id, h'.subscriptionId.trans h.subscriptionId, h'.key.trans h.key,
    h'.start.trans h.start, h'.finish.trans h.finish⟩

theorem SameBill.apply (p : Payment) (data : PaymentData) : SameBill p (data.apply p) :=
  ⟨rfl, rfl, rfl, rfl, rfl⟩

/-- A payment for the period of `sub`. -/
structure BillFor (sub : Subscription) (p : Payment) : Prop where
  subscriptionId : p.subscriptionId = sub.id
  start : p.billingPeriodStart = sub.currentPeriodStart
  finish : p.billingPeriodEnd = sub.currentPeriodEnd

theorem BillFor.congr {sub : Subscription} {p p' : Payment} (h : BillFor sub p)
    (hsame : SameBill p p') : BillFor sub p' :=
  ⟨hsame.subscriptionId.trans h.subscriptionId, hsame.start.trans h.start,
    hsame.finish.trans h.finish⟩

/-- **Where a payment comes from** after a billing execution of `id` that
began in `w`. -/
inductive BillOf (id : String) (w : World) (p : Payment) : Prop where
  /-- It was there before; at most, it was marked for a retry. -/
  | kept (old : Payment) : old ∈ w.payments → SameBill old p →
      (p.status = old.status ∨ old.status = .FAILED ∧ p.status = .RETRYING) → BillOf id w p
  /-- It has the key of the current period, which was not paid. -/
  | booked (sub : SubscriptionWithPlan) : Opened w id sub → ¬ w.isPaid sub.currentKey →
      p.idempotencyKey = sub.currentKey →
      ((∃ old ∈ w.payments, SameBill old p) ∨ BillFor sub.toSubscription p) → BillOf id w p

/-- Another row of the same bill. -/
theorem BillOf.outcome {id : String} {w : World} {p p' : Payment} (h : BillOf id w p)
    (hsame : SameBill p p')
    (hstatus : p'.status = p.status ∨ p.status = .FAILED ∧ p'.status = .RETRYING) :
    BillOf id w p' := by
  cases h with
  | kept old hold hbill hst =>
      refine .kept old hold (hbill.trans hsame) ?_
      rcases hstatus with hstatus | ⟨hfailed, hretrying⟩
      · rw [hstatus]
        exact hst
      · rcases hst with hst | ⟨-, hst⟩
        · exact .inr ⟨hst ▸ hfailed, hretrying⟩
        · rw [hfailed] at hst
          cases hst
  | booked sub hopen hunpaid hkey hbill =>
      refine .booked sub hopen hunpaid (hsame.key.trans hkey) ?_
      rcases hbill with ⟨old, hold, hbill⟩ | hbill
      · exact .inl ⟨old, hold, hbill.trans hsame⟩
      · exact .inr ⟨hsame.subscriptionId.trans hbill.subscriptionId,
          hsame.start.trans hbill.start, hsame.finish.trans hbill.finish⟩

/-- The row of the current period, once it is booked. -/
theorem BillOf.book {id : String} {w : World} {p p' : Payment} {sub : SubscriptionWithPlan}
    (h : BillOf id w p) (hsame : SameBill p p') (hopen : Opened w id sub)
    (hunpaid : ¬ w.isPaid sub.currentKey) (hkey : p.idempotencyKey = sub.currentKey) :
    BillOf id w p' := by
  refine .booked sub hopen hunpaid (hsame.key.trans hkey) ?_
  cases h with
  | kept old hold hbill _ => exact .inl ⟨old, hold, hbill.trans hsame⟩
  | booked sub' hopen' _ _ hbill =>
      obtain rfl : sub' = sub := hopen.unique hopen'
      rcases hbill with ⟨old, hold, hbill⟩ | hbill
      · exact .inl ⟨old, hold, hbill.trans hsame⟩
      · exact .inr ⟨hsame.subscriptionId.trans hbill.subscriptionId,
          hsame.start.trans hbill.start, hsame.finish.trans hbill.finish⟩

section Bills

variable {cfg : Config} {y : Step} {x : String}

/-- A row that was there before still has its key. -/
def KeepsKeys (w w' : World) : Prop :=
  ∀ p ∈ w.payments, ∃ p' ∈ w'.payments, SameBill p p'

theorem keepsKeys_after {w : World} (e : CallEvent) (h : KeepsKeys w e.before) :
    KeepsKeys w (e.after api) := by
  intro p hp
  obtain ⟨q, hq, hbill⟩ := h p hp
  rcases payment_fate e hq with hq | ⟨data, -, hq⟩
  · exact ⟨q, hq, hbill⟩
  · exact ⟨data.apply q, hq, hbill.trans (.apply q data)⟩

/-- What one call of the billing of an open subscription does to payments. -/
theorem bill_after {w : World} {e : CallEvent} (hopened : BillsOpened cfg x w e)
    (hbooks : BooksCurrent x w e) (hkeys : KeepsKeys w e.before)
    (h : ∀ p ∈ e.before.payments, BillOf x w p) :
    ∀ p ∈ (e.after api).payments, BillOf x w p := by
  intro p hp
  rcases payment_origin e hp with hp | ⟨old, hold, data, rfl, hcall | hcall⟩ |
    ⟨data, pid, hcall, rfl⟩
  · exact h p hp
  · -- one payment is updated: it is the one of the current period
    obtain ⟨sub, hopen, hunpaid, row, hrow, hid, hkey⟩ := hbooks _ data hcall
    obtain rfl : row = old := Table.eq_of_clash hrow hold (.inl hid)
    exact (h row hold).book (.apply row data) hopen hunpaid hkey
  · -- the failed payments are marked for a retry
    rcases hopened with heq | ⟨sub, -, hbilling⟩
    · rw [heq] at hcall
      cases hcall
    · rw [hcall] at hbilling
      obtain ⟨-, hfailed, hretrying⟩ := hbilling
      refine (h old hold).outcome (.apply old data) (.inr ⟨hfailed, ?_⟩)
      simp [PaymentData.apply, hretrying]
  · -- the payment of the current period is created
    rcases hopened with heq | ⟨sub, hopen, hbilling⟩
    · rw [heq] at hcall
      cases hcall
    · rw [hcall] at hbilling
      have hdata : data = _ := hbilling
      subst hdata
      by_cases hpaid : w.isPaid sub.currentKey
      · -- its key is taken, so nothing was inserted
        obtain ⟨q, hq, -⟩ := hpaid
        obtain ⟨hmem, hqkey⟩ := paymentByKey?_eq_some.mp hq
        obtain ⟨q₁, hq₁, hbill⟩ := hkeys q hmem
        have hstored : q₁ ∈ (e.after api).payments := by
          rcases payment_fate e hq₁ with hq₁ | ⟨data, hwrite | hwrite, -⟩
          · exact hq₁
          · rw [hcall] at hwrite
            cases hwrite
          · rw [hcall] at hwrite
            cases hwrite
        have hrow := Table.eq_of_clash hstored hp (.inr (.inl (hbill.key.trans hqkey)))
        exact h _ (hrow ▸ hq₁)
      · exact .booked sub hopen hpaid rfl (.inr ⟨rfl, rfl, rfl⟩)

/-- Keys and bills, before every event of a billing execution and after it. -/
theorem billing_bills (hy : y.Of (serial cfg)) (hb : y.op.bills = some x) :
    KeepsKeys y.before y.after ∧ ∀ p ∈ y.after.payments, BillOf x y.before p := by
  have hruns : Runs api (y.op.body cfg) y.before y.trace y.reply y.after := hy.runs
  refine (hruns.always (P := fun w => KeepsKeys y.before w ∧ ∀ p ∈ w.payments,
    BillOf x y.before p) ?_ ?_).2
  · exact ⟨fun p hp => ⟨p, hp, .refl p⟩, fun p hp => .kept p hp (.refl p) (.inl rfl)⟩
  · intro e he h
    obtain ⟨hkeys, hbills⟩ := h
    exact ⟨keepsKeys_after e hkeys, bill_after (billing_opened hy hb e he)
      (billing_books hy hb e he) hkeys hbills⟩

/-- **Where the payments come from.** -/
theorem bills_after (hy : y.Of (serial cfg)) (hb : y.op.bills = some x) :
    ∀ p ∈ y.after.payments, BillOf x y.before p :=
  (billing_bills hy hb).2

/-- **A payment that is SUCCESS stays so.** -/
theorem success_after_billing (hy : y.Of (serial cfg)) (hb : y.op.bills = some x) {p : Payment}
    (hp : p ∈ y.before.payments) (hst : p.status = .SUCCESS) :
    ∃ p' ∈ y.after.payments, SameBill p p' ∧ p'.status = .SUCCESS := by
  obtain ⟨hkeys, hbills⟩ := billing_bills hy hb
  obtain ⟨p', hp', hsame⟩ := hkeys p hp
  refine ⟨p', hp', hsame, ?_⟩
  cases hbills p' hp' with
  | kept old hold hbill hstatus =>
      obtain rfl : old = p := Table.eq_of_clash hold hp (.inl (hbill.id.symm.trans hsame.id))
      rcases hstatus with hstatus | ⟨hfailed, -⟩
      · exact hstatus.trans hst
      · rw [hst] at hfailed
        cases hfailed
  | booked sub hopen hunpaid hkey _ =>
      -- then the period was paid
      exact absurd ⟨p, paymentByKey?_eq_some.mpr ⟨hp, hsame.key.symm.trans hkey⟩, hst⟩ hunpaid

/-- The payment of a period that is paid is SUCCESS. -/
theorem success_of_isPaid {w : World} {key : String} (h : w.isPaid key) {p : Payment}
    (hp : p ∈ w.payments) (hkey : p.idempotencyKey = key) : p.status = .SUCCESS := by
  obtain ⟨q, hq, hst⟩ := h
  rw [paymentByKey?_eq_some.mpr ⟨hp, hkey⟩] at hq
  cases hq
  exact hst

/-- A subscription that is stored stays so. -/
theorem row_kept (hy : y.Of (serial cfg)) {z : String} {s : Subscription}
    (hs : y.before.sub? z = some s) : ∃ s', y.after.sub? z = some s' := by
  refine (hy.runs.always (P := fun w => ∃ s', w.sub? z = some s') ⟨s, hs⟩ (fun e _ h => ?_)).2
  obtain ⟨s', hs'⟩ := h
  rcases sub?_after e hs' with hafter | ⟨data, -, -, hafter⟩
  · exact ⟨s', hafter⟩
  · exact ⟨_, hafter⟩

/-- **Where the payments of `z` come from** after an execution that bills `x`. -/
theorem payment_carried (hy : y.Of (serial cfg)) (hb : y.op.bills = some x) {z : String}
    {p : Payment} (hp : p ∈ y.after.payments) (hz : p.subscriptionId = z) :
    (∃ old ∈ y.before.payments, old.subscriptionId = z ∧ SameBill old p)
      ∨ x = z ∧ ∃ s, y.before.sub? z = some s ∧ BillFor s p := by
  have hold : ∀ old, SameBill old p → old.subscriptionId = z :=
    fun old hsame => hsame.subscriptionId.symm.trans hz
  cases bills_after hy hb p hp with
  | kept old hmem hsame _ => exact .inl ⟨old, hmem, hold old hsame, hsame⟩
  | booked sub hopen _ hkey hbill =>
      rcases hbill with ⟨old, hmem, hsame⟩ | hbill
      · exact .inl ⟨old, hmem, hold old hsame, hsame⟩
      · have hx : x = z := hopen.id_eq.symm.trans (hbill.subscriptionId.symm.trans hz)
        exact .inr ⟨hx, sub.toSubscription, hx ▸ hopen.row, hbill⟩

/-- The payments after a billing execution are of subscriptions that were
stored before it. -/
theorem stored_before (hy : y.Of (serial cfg)) (hb : y.op.bills = some x)
    (h : ∀ p ∈ y.before.payments, ∃ s, y.before.sub? p.subscriptionId = some s) {p : Payment}
    (hp : p ∈ y.after.payments) : ∃ s, y.before.sub? p.subscriptionId = some s := by
  rcases payment_carried hy hb hp rfl with ⟨old, hmem, hold, -⟩ | ⟨-, s, hs, -⟩
  · exact hold ▸ h old hmem
  · exact ⟨s, hs⟩

/-- **Every payment is of a stored subscription**, as it was before. -/
theorem payments_stored (hy : y.Of (serial cfg))
    (h : ∀ p ∈ y.before.payments, ∃ s, y.before.sub? p.subscriptionId = some s) :
    ∀ p ∈ y.after.payments, ∃ s, y.after.sub? p.subscriptionId = some s := by
  intro p hp
  have hbefore : ∃ s, y.before.sub? p.subscriptionId = some s := by
    cases hb : y.op.bills with
    | none =>
        rw [(unbilled_same hy hb).payments] at hp
        exact h p hp
    | some x => exact stored_before hy hb h hp
  obtain ⟨s, hs⟩ := hbefore
  exact row_kept hy hs

end Bills

/-! ## §5. The row. -/

/-- The period is the same. -/
structure SamePeriod (s s' : Subscription) : Prop where
  start : s'.currentPeriodStart = s.currentPeriodStart
  finish : s'.currentPeriodEnd = s.currentPeriodEnd

/-- The period is the one that follows what was open under `id` in `w`. -/
structure NextPeriod (cfg : Config) (id : String) (w : World) (sub : SubscriptionWithPlan)
    (s' : Subscription) : Prop where
  opened : Opened w id sub
  start : s'.currentPeriodStart = sub.currentPeriodEnd
  finish : sub.nextEnd cfg = some s'.currentPeriodEnd

section Rows

variable {cfg : Config} {A : CallEvent → Prop} {y : Step} {x : String}

theorem SamePeriod.refl (s : Subscription) : SamePeriod s s := ⟨rfl, rfl⟩

theorem SamePeriod.trans {a b c : Subscription} (hab : SamePeriod a b) (hbc : SamePeriod b c) :
    SamePeriod a c :=
  ⟨hbc.start.trans hab.start, hbc.finish.trans hab.finish⟩

theorem NextPeriod.congr {w : World} {sub : SubscriptionWithPlan} {s s' : Subscription}
    (h : NextPeriod cfg x w sub s) (hsame : SamePeriod s s') : NextPeriod cfg x w sub s' := by
  refine ⟨h.opened, hsame.start.trans h.start, ?_⟩
  rw [hsame.finish]
  exact h.finish

theorem Penalised.keeps {n : Nat} {s s' : Subscription} (h : Penalised cfg A n s s') :
    SamePeriod s s' ∧ s'.id = s.id ∧ s'.planId = s.planId := by
  cases h <;> exact ⟨⟨rfl, rfl⟩, rfl, rfl⟩

/-- The row after each call of a billing execution. -/
theorem period_after {w : World} {s : Subscription} {e : CallEvent}
    (hopened : BillsOpened cfg x w e)
    (h : ∃ s', e.before.sub? x = some s' ∧ s'.id = s.id ∧ s'.planId = s.planId
      ∧ (SamePeriod s s' ∨ ∃ sub, NextPeriod cfg x w sub s')) :
    ∃ s', (e.after api).sub? x = some s' ∧ s'.id = s.id ∧ s'.planId = s.planId
      ∧ (SamePeriod s s' ∨ ∃ sub, NextPeriod cfg x w sub s') := by
  obtain ⟨s', hs', hid, hplan, hperiod⟩ := h
  rcases sub?_after e hs' with hafter | ⟨data, hcall, hvalid, hafter⟩
  · exact ⟨s', hafter, hid, hplan, hperiod⟩
  · refine ⟨data.apply e.env.now s', hafter, hid, hplan, ?_⟩
    rcases hopened with heq | ⟨sub, hopen, hbilling⟩
    · rw [heq] at hcall
      cases hcall
    · have hkept : SamePeriod s' (data.apply e.env.now s') →
          SamePeriod s (data.apply e.env.now s')
          ∨ ∃ sub, NextPeriod cfg x w sub (data.apply e.env.now s') := by
        intro hsame
        rcases hperiod with hperiod | ⟨sub, hnext⟩
        · exact .inl (hperiod.trans hsame)
        · exact .inr ⟨sub, hnext.congr hsame⟩
      rw [hcall] at hbilling
      cases hbilling.2 with
      | advance =>
          right
          cases hnext : sub.nextEnd cfg with
          | none =>
              -- an Invalid Date is refused
              have hnext : nextPeriod cfg.tz sub.currentPeriodEnd sub.plan.interval
                  sub.plan.intervalCount = none := hnext
              rw [hnext] at hvalid
              cases hvalid
          | some finish =>
              have hfinish : nextPeriod cfg.tz sub.currentPeriodEnd sub.plan.interval
                  sub.plan.intervalCount = some finish := hnext
              refine ⟨sub, hopen, rfl, ?_⟩
              rw [hnext, hfinish]
              rfl
      | pastDue => exact hkept ⟨rfl, rfl⟩
      | counted => exact hkept ⟨rfl, rfl⟩

/-- A cancelled subscription is not billed. -/
theorem cancelled_after_billing (hy : y.Of (serial cfg)) (hb : y.op.bills = some x)
    {s : Subscription} (hs : y.before.sub? x = some s) (hst : s.status = .CANCELLED) :
    y.after.sub? x = some s := by
  have hruns : Runs api (y.op.body cfg) y.before y.trace y.reply y.after := hy.runs
  refine (hruns.always (P := fun w => w.sub? x = some s) hs (fun e he hrow => ?_)).2
  rcases sub?_after e hrow with hafter | ⟨data, hcall, -, -⟩
  · exact hafter
  · rcases billing_opened hy hb e he with heq | ⟨sub, hopen, -⟩
    · rw [heq] at hcall
      cases hcall
    · obtain rfl : sub.toSubscription = s := Option.some.inj (hopen.row.symm.trans hs)
      exact absurd hst hopen.notCancelled

/-- **A billing execution keeps the period of its row, or advances it past a
period that is paid.** -/
theorem row_after_billing (hy : y.Of (serial cfg)) (hb : y.op.bills = some x) {s : Subscription}
    (hs : y.before.sub? x = some s) :
    ∃ s', y.after.sub? x = some s' ∧ s'.id = s.id ∧ s'.planId = s.planId
      ∧ (SamePeriod s s'
        ∨ ∃ sub, NextPeriod cfg x y.before sub s' ∧ y.after.isPaid sub.currentKey) := by
  have hruns : Runs api (y.op.body cfg) y.before y.trace y.reply y.after := hy.runs
  obtain ⟨s', hs', hid, hplan, hperiod⟩ := (hruns.always (P := fun w => ∃ s',
    w.sub? x = some s' ∧ s'.id = s.id ∧ s'.planId = s.planId
      ∧ (SamePeriod s s' ∨ ∃ sub, NextPeriod cfg x y.before sub s'))
    ⟨s, hs, rfl, rfl, .inl (.refl s)⟩
    (fun e he => period_after (billing_opened hy hb e he))).2
  refine ⟨s', hs', hid, hplan, ?_⟩
  rcases hperiod with hsame | ⟨sub, hnext⟩
  · exact .inl hsame
  -- the outcome of the cycle tells whether it was paid
  have hrow := hnext.opened.row
  obtain rfl : sub.toSubscription = s := Option.some.inj (hrow.symm.trans hs)
  have hunwritten : ∀ {n t}, Penalised cfg (fun _ => True) n sub.toSubscription t →
      y.after.sub? x = some t → SamePeriod sub.toSubscription s' := by
    intro n t hpen ht
    obtain rfl : t = s' := Option.some.inj (ht.symm.trans hs')
    exact hpen.keeps.1
  have hend := seq_runs hruns (fun _ _ => trivial) (billing_ends cfg (A := fun _ => True) hb)
  generalize hw : y.after = w' at hend
  generalize logOf y.trace = v' at hend
  cases hend with
  | untouched =>
      rw [hw, hs] at hs'
      cases hs'
      exact .inl (.refl _)
  | @advanced sub' _ newEnd now hopen hpaid hch hrow' =>
      obtain rfl : sub' = sub := hnext.opened.unique hopen
      refine .inr ⟨sub', hnext, ?_⟩
      exact (isPaid_congr (hch.payments_eq (by decide)).1 _).mpr hpaid
  | @charged sub' _ _ hopen hunpaid hsub htail =>
      obtain rfl : sub' = sub := hnext.opened.unique hopen
      have hid' : sub'.id = x := hopen.id_eq
      cases htail with
      | settled newEnd now hpaid => exact .inr ⟨sub', hnext, hpaid⟩
      | unannounced newEnd now t hpaid => exact .inr ⟨sub', hnext, hpaid⟩
      | unadvanced t hpaid => exact .inr ⟨sub', hnext, hpaid⟩
      | failed t hunpaid' _ hpen ht =>
          rw [hid', ← hw] at ht
          exact .inl (hunwritten hpen ht)

/-- The row of `z` after an execution that bills `x`. -/
theorem row_carried (hy : y.Of (serial cfg)) (hb : y.op.bills = some x) {z : String}
    {s : Subscription} (hs : y.before.sub? z = some s) :
    ∃ s', y.after.sub? z = some s' ∧ s'.id = s.id
      ∧ (SamePeriod s s' ∨ ∃ sub, NextPeriod cfg z y.before sub s' ∧ sub.toSubscription = s
        ∧ y.after.isPaid sub.currentKey) := by
  by_cases hz : z = x
  · subst hz
    obtain ⟨s', hs', hid, -, hperiod⟩ := row_after_billing hy hb hs
    refine ⟨s', hs', hid, ?_⟩
    rcases hperiod with hsame | ⟨sub, hnext, hpaid⟩
    · exact .inl hsame
    · exact .inr ⟨sub, hnext, Option.some.inj (hnext.opened.row.symm.trans hs), hpaid⟩
  · exact ⟨s, (other_after_billing hy hb hz).trans hs, rfl, .inl (.refl s)⟩

end Rows

end Sorobill
