/-
  Sorobill.Rules.Cycles
  ─────────────────────
  **WHAT ONE UNINTERRUPTED BILLING CYCLE DOES.**

    • `Opened` — the subscription is found, with its plan, and has not ended;
    • `Penalised` — what `handlePaymentFailure` makes of a row;
    • `CycleEnd`, `processBillingCycle_ends` — the outcomes of a cycle: it
      does nothing, it advances a period that is already paid, or it charges
      (`CycleTail`).
-/
import Sorobill.Rules.Charges

namespace Sorobill

open Effect
open Relational
open JavaScript (JsValue)

/-! ## §1. Statements. -/

/-- The billing cycle of `id` finds this subscription, and finds it open. -/
structure Opened (w : World) (id : String) (sub : SubscriptionWithPlan) : Prop where
  found : (w.sub? id).bind w.withPlan = some sub
  notCancelled : sub.status ≠ .CANCELLED
  notExpired : sub.status ≠ .EXPIRED

theorem Opened.row {w : World} {id : String} {sub : SubscriptionWithPlan}
    (h : Opened w id sub) : w.sub? id = some sub.toSubscription :=
  (withPlan_eq_some h.found).1

theorem Opened.id_eq {w : World} {id : String} {sub : SubscriptionWithPlan}
    (h : Opened w id sub) : sub.id = id :=
  (withPlan_eq_some h.found).2

theorem Opened.unique {w : World} {id : String} {sub sub' : SubscriptionWithPlan}
    (h : Opened w id sub) (h' : Opened w id sub') : sub' = sub := by
  have := h'.found
  rw [h.found] at this
  exact (Option.some.inj this).symm

/-- The idempotency key of the subscription's current period. -/
def Subscription.currentKey (s : Subscription) : String :=
  billingIdempotencyKey s.id s.currentPeriodEnd

/-- The row after an `advancePeriod` at the time `now`. -/
def SubscriptionWithPlan.advanced (sub : SubscriptionWithPlan) (newEnd now : Instant) :
    Subscription :=
  { sub.toSubscription with
    status := .ACTIVE
    currentPeriodStart := sub.currentPeriodEnd
    currentPeriodEnd := newEnd
    retryCount := 0
    gracePeriodEndsAt := none
    updatedAt := now }

/-- The end of the next period. -/
def SubscriptionWithPlan.nextEnd (cfg : Config) (sub : SubscriptionWithPlan) : JsDate :=
  nextPeriod cfg.tz sub.currentPeriodEnd sub.plan.interval sub.plan.intervalCount

/-- What `handlePaymentFailure` makes of the row `s`, from a snapshot with
this `retryCount`. -/
inductive Penalised (cfg : Config) (A : CallEvent → Prop) (retryCount : Nat)
    (s : Subscription) : Subscription → Prop where
  | unwritten : Refusable A → Penalised cfg A retryCount s s
  | pastDue (g now : Instant) : cfg.billing.maxRetries ≤ retryCount + 1 →
      Penalised cfg A retryCount s
        { s with
          status := .PAST_DUE
          retryCount := retryCount + 1
          gracePeriodEndsAt := some g
          updatedAt := now }
  | counted (now : Instant) : retryCount + 1 < cfg.billing.maxRetries →
      Penalised cfg A retryCount s { s with retryCount := retryCount + 1, updatedAt := now }

/-- The polling loop, if there was one, has returned a result that is not
read as Failed. -/
def ReadAsPaid (v v' : Log) : Prop :=
  v'.results = v.results
    ∨ ∃ a, v'.results = v.results ++ [a] ∧ parseBillingOutcome a ≠ some .Failed

/-- How a cycle that charges ends for its subscription. -/
inductive CycleTail (cfg : Config) (A : CallEvent → Prop) (sub : SubscriptionWithPlan)
    (v : Log) (w' : World) (v' : Log) : Prop where
  /-- Charged, and the period is advanced. -/
  | settled (newEnd now : Instant) : w'.isPaid sub.currentKey → ReadAsPaid v v' →
      sub.nextEnd cfg = some newEnd → w'.sub? sub.id = some (sub.advanced newEnd now) →
      CycleTail cfg A sub v w' v'
  /-- Charged and advanced; then the emission was rejected. -/
  | unannounced (newEnd now : Instant) (s' : Subscription) : w'.isPaid sub.currentKey →
      ReadAsPaid v v' → sub.nextEnd cfg = some newEnd → v'.emissionRefused = true →
      Penalised cfg A sub.retryCount (sub.advanced newEnd now) s' → w'.sub? sub.id = some s' →
      CycleTail cfg A sub v w' v'
  /-- Charged; the write that advances the period was rejected. -/
  | unadvanced (s' : Subscription) : w'.isPaid sub.currentKey → ReadAsPaid v v' →
      Refusable A → Penalised cfg A sub.retryCount sub.toSubscription s' →
      w'.sub? sub.id = some s' → CycleTail cfg A sub v w' v'
  /-- The charge has failed. -/
  | failed (s' : Subscription) : ¬ w'.isPaid sub.currentKey →
      (v'.results = v.results ∨ ∃ a, v'.results = v.results ++ [a]) →
      Penalised cfg A sub.retryCount sub.toSubscription s' → w'.sub? sub.id = some s' →
      CycleTail cfg A sub v w' v'

/-- **The outcomes of a billing cycle.** -/
inductive CycleEnd (cfg : Config) (A : CallEvent → Prop) (id : String) (w : World) (v : Log) :
    World → Log → Prop where
  | untouched : (Refusable A ∨ ∀ sub, ¬ Opened w id sub) → CycleEnd cfg A id w v w v
  | advanced {sub : SubscriptionWithPlan} {w' : World} (newEnd now : Instant) :
      Opened w id sub → w.isPaid sub.currentKey → ChangedIn w .subscriptions w' →
      w'.sub? id = some (sub.advanced newEnd now) → CycleEnd cfg A id w v w' v
  | charged {sub : SubscriptionWithPlan} {w' : World} {v' : Log} :
      Opened w id sub → ¬ w.isPaid sub.currentKey → Submitted sub.currentKey w w' →
      CycleTail cfg A sub v w' v' → CycleEnd cfg A id w v w' v'

/-! ## §2. The parts of a cycle. -/

section Parts

variable {cfg : Config} {A : CallEvent → Prop} {w : World} {v : Log}

/-- **A subscription row is written**, or the write is rejected. -/
theorem seq_subscriptionUpdate {x : String} {s : Subscription} {data : SubscriptionData}
    (hs : w.sub? x = some s) {Q : Post Api World Log Subscription}
    (herr : ∀ err, Refusable A → Q (.error err) w v)
    (hok : ∀ now a w', data.valid = true → ChangedIn w .subscriptions w' →
      w'.sub? x = some (data.apply now s) → Q (.ok a) w' v) :
    Safe (sequential A) (prisma.subscription.update x data) Q w v := by
  refine seq_ask id (by simp) (fun err h => herr err (h ⟨id, id⟩)) (fun env a ha => ?_)
  rcases serve_subscriptionUpdate x data env w with ⟨err, h⟩ | ⟨old, t, hold, hvalid, ht, h⟩
  · rw [h] at ha
    cases ha
  · rw [h]
    apply hok env.now a _ hvalid (.subscriptions t)
    rw [sub?_update hold ht, if_pos rfl]
    rw [hold] at hs
    rw [Option.some.inj hs]

/-- `advancePeriod` writes the next period, or its write is rejected. -/
theorem advancePeriod_ends {sub : SubscriptionWithPlan}
    (hs : w.sub? sub.id = some sub.toSubscription) {Q : Post Api World Log Unit}
    (herr : ∀ err, Refusable A → Q (.error err) w v)
    (hok : ∀ newEnd now w', sub.nextEnd cfg = some newEnd → ChangedIn w .subscriptions w' →
      w'.sub? sub.id = some (sub.advanced newEnd now) → Q (.ok ()) w' v) :
    Safe (sequential A) (advancePeriod cfg sub) Q w v := by
  show Safe _ (prisma.subscription.update _ _ >>= _) _ _ _
  rw [safe_bind]
  apply seq_subscriptionUpdate hs herr
  intro now a w' hvalid hch hrow
  cases hend : sub.nextEnd cfg with
  | none =>
      -- an Invalid Date in `data` is refused
      have : nextPeriod cfg.tz sub.currentPeriodEnd sub.plan.interval
          sub.plan.intervalCount = none := hend
      rw [this] at hvalid
      cases hvalid
  | some newEnd =>
      have : nextPeriod cfg.tz sub.currentPeriodEnd sub.plan.interval
          sub.plan.intervalCount = some newEnd := hend
      rw [this] at hrow
      exact hok newEnd now w' hend hch hrow

/-- Marking failed payments for a retry makes no payment SUCCESS. -/
theorem isPaid_retrying {subscriptionId : String} {data : PaymentData}
    (hd : data.status = some .RETRYING) {t : Table Payment Payment.Clash}
    (h : w.payments.update?
      (fun p => p.subscriptionId == subscriptionId && p.status == .FAILED) data.apply = some t)
    (key : String) : ({ w with payments := t } : World).isPaid key ↔ w.isPaid key := by
  have hkey := paymentByKey?_update (s := w.successes) h key
  unfold World.isPaid
  rw [show ({ w with payments := t } : World).paymentByKey? key = _ from hkey]
  cases w.paymentByKey? key with
  | none => simp
  | some p =>
      simp only [Option.map_some, Option.some.injEq, exists_eq_left']
      split
      next hsel =>
        -- a row that is marked was FAILED
        obtain ⟨-, hst⟩ := Bool.and_eq_true_iff.mp hsel
        rw [beq_iff_eq.mp hst]
        simp [PaymentData.apply, hd]
      next => exact Iff.rfl

theorem isPaid_congr {w' : World} (h : w'.payments = w.payments) (key : String) :
    w'.isPaid key ↔ w.isPaid key := by
  unfold World.isPaid World.paymentByKey?
  rw [h]

/-- What `handlePaymentFailure` ends with, from the snapshot `sub` and the
stored row `s`. -/
def HandlerEnd (cfg : Config) (A : CallEvent → Prop) (sub : SubscriptionWithPlan)
    (s : Subscription) (w : World) (v : Log) : World → Log → Prop := fun w' v' =>
  w'.chain = w.chain ∧ v'.results = v.results
    ∧ (v.emissionRefused = true → v'.emissionRefused = true)
    ∧ (∀ key, w'.isPaid key ↔ w.isPaid key)
    ∧ ∃ s', Penalised cfg A sub.retryCount s s' ∧ w'.sub? sub.id = some s'

theorem HandlerEnd.unwritten {sub : SubscriptionWithPlan} {s : Subscription}
    (hs : w.sub? sub.id = some s) (h : Refusable A) : HandlerEnd cfg A sub s w v w v :=
  ⟨rfl, rfl, id, fun _ => Iff.rfl, s, .unwritten h, hs⟩

/-- **What `handlePaymentFailure` does.** -/
theorem handlePaymentFailure_ends {sub : SubscriptionWithPlan} {s : Subscription}
    (hs : w.sub? sub.id = some s) (pid : String) :
    Safe (sequential A) (handlePaymentFailure cfg sub pid)
      (fun _ w' v' => HandlerEnd cfg A sub s w v w' v') w v := by
  unfold handlePaymentFailure
  dsimp only
  split
  next hmax =>
    -- retries exhausted: PAST_DUE, then the emission
    rw [safe_bind]
    refine seq_read id (by simp) rfl
      (fun err h => .unwritten hs (h ⟨id, id⟩)) (fun env now _ => ?_)
    rw [andThen_ok, safe_bind]
    refine seq_subscriptionUpdate hs (fun err h => .unwritten hs h)
      (fun updated a w₁ hv hch hrow => ?_)
    have hpay := (hch.payments_eq (by decide)).1
    have hpen : ∃ s', Penalised cfg A sub.retryCount s s' ∧ w₁.sub? sub.id = some s' := by
      refine ⟨_, ?_, hrow⟩
      cases hg : hoursFrom now cfg.billing.gracePeriodHours with
      | none =>
          rw [hg] at hv
          cases hv
      | some g => exact .pastDue g updated (by exact_mod_cast hmax)
    rw [andThen_ok]
    apply (emitWebhookEvent_ends _ _ _).mono
    intro r w₂ v₂ hpost
    obtain ⟨hhooks, hres, hmono, -⟩ := hpost
    unfold SameButHooks at hhooks
    obtain ⟨s', hs', hrow'⟩ := hpen
    refine ⟨?_, hres, hmono, fun key => ?_, s', hs', ?_⟩
    · rw [hhooks]
      exact hch.chain_eq (by decide)
    · exact isPaid_congr (by rw [hhooks]; exact hpay) key
    · rw [hhooks]
      exact hrow'
  next hmax =>
    -- retries left: the failed payments are marked, the count goes up
    rw [safe_bind]
    refine seq_read id (by simp) rfl
      (fun err h => .unwritten hs (h ⟨id, id⟩)) (fun env now _ => ?_)
    rw [andThen_ok, safe_bind]
    refine seq_ask id (by simp) (fun err h => .unwritten hs (h ⟨id, id⟩)) (fun env' a ha => ?_)
    rcases serve_paymentUpdateMany sub.id .FAILED _ env' w with ⟨err, h⟩ | ⟨t, ht, h⟩
    · rw [h] at ha
      cases ha
    · rw [h, andThen_ok, safe_bind]
      have hpaid : ∀ key, ({ w with payments := t } : World).isPaid key ↔ w.isPaid key :=
        isPaid_retrying rfl ht
      have hs₁ : ({ w with payments := t } : World).sub? sub.id = some s := hs
      refine seq_subscriptionUpdate hs₁ (fun err hr => ?_) (fun updated b w₁ hv hch hrow => ?_)
      · exact ⟨rfl, rfl, id, hpaid, s, .unwritten hr, hs₁⟩
      · refine ⟨hch.chain_eq (by decide), rfl, id, fun key => ?_, _, .counted updated ?_, hrow⟩
        · exact (isPaid_congr (hch.payments_eq (by decide)).1 key).trans (hpaid key)
        · push_cast at hmax
          omega

end Parts

/-! ## §3. The shape of a cycle. -/

/-- **A cycle reads its subscription**, and then bills what it has read. -/
theorem safe_reading {σ : Type} {C : Contract api σ} {cfg : Config} {x : String} {w : World}
    {v : σ}
    (hread : ∀ w' env, C.rely w w' → C.assume v ⟨w', .subscriptionFindUniqueWithPlan x, env⟩ →
      C.guarantee v ⟨w', .subscriptionFindUniqueWithPlan x, env⟩
        ∧ ∀ sub, Opened w' x sub → Safe C (processBillingCycle.rest cfg sub) (fun _ _ _ => True)
            w' (C.track v ⟨w', .subscriptionFindUniqueWithPlan x, env⟩)) :
    Safe C (processBillingCycle cfg x) (fun _ _ _ => True) w v := by
  unfold processBillingCycle prisma.subscription.findUniqueOrThrow
  rw [safe_bind, safe_bind]
  apply safe_perform.mpr
  intro w' env hrely hassume
  obtain ⟨hg, hrest⟩ := hread w' env hrely hassume
  refine ⟨hg, ?_⟩
  rcases serve_subscriptionFindUniqueWithPlan x env w' with ⟨err, h⟩ | h
  · rw [h]
    trivial
  · rw [h, andThen_ok]
    cases hfound : (w'.sub? x).bind w'.withPlan with
    | none => trivial
    | some sub =>
        show Safe C (if sub.status = .CANCELLED ∨ sub.status = .EXPIRED then _ else _) _ _ _
        split
        next => trivial
        next hopen =>
          rw [not_or] at hopen
          exact hrest sub ⟨hfound, hopen.1, hopen.2⟩

/-- The calls with which a cycle begins. -/
def Call.opensCycle : Call → Prop
  | .subscriptionFindUniqueWithPlan _ => True
  | .paymentFindUnique _ => True
  | .paymentCreate _ => True
  | _ => False

theorem Call.opensCycle.isStore {c : Call} (h : c.opensCycle) :
    c.isStore ∧ ∀ hash, c ≠ .awaitTransaction hash := by
  cases c <;> first | exact h.elim | exact ⟨⟨id, id⟩, by simp⟩

/-- A call of an uninterrupted execution of which the contract takes no notice. -/
theorem safe_unnoticed {σ : Type} {C : Contract api σ} {c : Call} {w : World} {v : σ}
    {Q : Post Api World σ c.Reply} (hrely : ∀ w', C.rely w w' → w = w')
    (hquiet : ∀ env, C.guarantee v ⟨w, c, env⟩ ∧ C.track v ⟨w, c, env⟩ = v)
    (herr : ∀ err, Q (.error err) w v)
    (hok : ∀ env a, (api.serve c env w).1 = .ok a → Q (.ok a) (api.serve c env w).2 v) :
    Safe C (Prog.perform (I := Api) c) Q w v := by
  refine safe_perform.mpr (fun w' env hw _ => ?_)
  obtain rfl := hrely w' hw
  obtain ⟨hguarantee, htrack⟩ := hquiet env
  refine ⟨hguarantee, ?_⟩
  rw [htrack]
  cases hr : (api.serve c env w).1 with
  | ok a => exact hok env a hr
  | error err =>
      rw [after_of_error hr]
      exact herr err

/-- The payment of the period, found or created, with which a cycle goes on to
its charge. -/
structure Begun (sub : SubscriptionWithPlan) (w : World) (p : Payment) (w₁ : World) : Prop where
  changed : ChangedIn w .payments w₁
  stored : p ∈ w₁.payments
  key : p.idempotencyKey = sub.currentKey
  unpaid : p.status ≠ .SUCCESS
  origin : (w.paymentByKey? sub.currentKey = some p ∧ w₁.payments = w.payments)
    ∨ (w.paymentByKey? sub.currentKey = none ∧ p.status = .PENDING
        ∧ p.subscriptionId = sub.id ∧ w.payments.insert? p = some w₁.payments)

theorem Begun.row {sub : SubscriptionWithPlan} {w w₁ : World} {p : Payment}
    (h : Begun sub w p w₁) : RowAt p.id sub.currentKey w₁ p.status :=
  ⟨p, payment?_eq_some.mpr ⟨h.stored, rfl⟩, h.key, rfl⟩

theorem begun_of_found {sub : SubscriptionWithPlan} {w : World} {p : Payment}
    (h : w.paymentByKey? sub.currentKey = some p) (hst : p.status ≠ .SUCCESS) :
    Begun sub w p w where
  changed := .same _
  stored := (paymentByKey?_eq_some.mp h).1
  key := (paymentByKey?_eq_some.mp h).2
  unpaid := hst
  origin := .inl ⟨h, rfl⟩

theorem begun_of_created {cfg : Config} {sub : SubscriptionWithPlan} {w : World} {pid : String}
    {t : Table Payment Payment.Clash} (h : w.paymentByKey? sub.currentKey = none)
    (ht : w.payments.insert?
      ((processBillingCycle.paymentData cfg sub sub.currentKey).row pid) = some t) :
    Begun sub w ((processBillingCycle.paymentData cfg sub sub.currentKey).row pid)
      { w with payments := t } where
  changed := .payments t w.successes
  stored := (Table.mem_insert ht).mpr (.inr rfl)
  key := rfl
  unpaid := PaymentStatus.noConfusion
  origin := .inr ⟨h, rfl, rfl, ht⟩

section Openings

variable {σ : Type} {C : Contract api σ} {E : σ → Prop} {cfg : Config} {x : String} {w : World}
  {v : σ} {Q : Post Api World σ Unit}

/-- The cycle of a subscription that was found open. -/
theorem safe_rest {sub : SubscriptionWithPlan}
    (hask : ∀ {c : Call} {R : Post Api World σ c.Reply}, c.opensCycle →
      (∀ err v', E v' → R (.error err) w v') →
      (∀ env a, (api.serve c env w).1 = .ok a → R (.ok a) (api.serve c env w).2 v) →
      Safe C (Prog.perform (I := Api) c) R w v)
    (hrefused : ∀ err v', E v' → Q (.error err) w v')
    (hadvance : w.isPaid sub.currentKey → Safe C (advancePeriod cfg sub) Q w v)
    (hcharge : ∀ payment w₁, ¬ w.isPaid sub.currentKey → Begun sub w payment w₁ →
      Safe C (tryCatch (processBillingCycle.attempt cfg sub payment sub.currentKey)
        (fun _ => handlePaymentFailure cfg sub payment.id)) Q w₁ v) :
    Safe C (processBillingCycle.rest cfg sub) Q w v := by
  unfold processBillingCycle.rest
  rw [safe_bind]
  refine hask trivial hrefused (fun env existing hread => ?_)
  rw [serve_read rfl]
  have hexisting : existing = w.paymentByKey? sub.currentKey := existing_of_read hread
  rw [andThen_ok]
  cases existing with
  | some payment =>
      have hrow : RowAt payment.id sub.currentKey w payment.status :=
        rowAt_of_key hexisting.symm
      by_cases hst : payment.status = .SUCCESS
      · rw [if_pos (by simp [hst])]
        exact hadvance ((isPaid_iff hrow).mpr hst)
      · rw [if_neg (by simp [hst])]
        exact hcharge payment w (fun h => hst ((isPaid_iff hrow).mp h))
          (begun_of_found hexisting.symm hst)
  | none =>
      -- no payment of the period yet: one is created
      have hunpaid : ¬ w.isPaid sub.currentKey := by
        intro h
        obtain ⟨p, hp, -⟩ := h
        rw [← hexisting] at hp
        cases hp
      rw [if_neg (by simp)]
      show Safe _ (prisma.payment.create _ >>= _) _ _ _
      rw [safe_bind]
      refine hask trivial hrefused (fun env' payment hcreate => ?_)
      rcases serve_paymentCreate (processBillingCycle.paymentData cfg sub
          (billingIdempotencyKey sub.id sub.currentPeriodEnd)) env' w with
        ⟨err, h⟩ | ⟨pid, t, ht, h⟩
      · rw [h] at hcreate
        cases hcreate
      · rw [h] at hcreate ⊢
        cases hcreate
        rw [andThen_ok]
        exact hcharge _ _ hunpaid (begun_of_created hexisting.symm ht)

/-- **A cycle ends before its charge, advances a period that is paid, or
charges**: the rule for any contract under which a call that opens the cycle
is answered, or else `E` holds of the view. -/
theorem safe_cycle
    (hask : ∀ {c : Call} {R : Post Api World σ c.Reply}, c.opensCycle →
      (∀ err v', E v' → R (.error err) w v') →
      (∀ env a, (api.serve c env w).1 = .ok a → R (.ok a) (api.serve c env w).2 v) →
      Safe C (Prog.perform (I := Api) c) R w v)
    (hrefused : ∀ err v', E v' → Q (.error err) w v')
    (hclosed : ∀ r, (∀ sub, ¬ Opened w x sub) → Q r w v)
    (hadvance : ∀ sub, Opened w x sub → w.isPaid sub.currentKey →
      Safe C (advancePeriod cfg sub) Q w v)
    (hcharge : ∀ sub payment w₁, Opened w x sub → ¬ w.isPaid sub.currentKey →
      Begun sub w payment w₁ →
      Safe C (tryCatch (processBillingCycle.attempt cfg sub payment sub.currentKey)
        (fun _ => handlePaymentFailure cfg sub payment.id)) Q w₁ v) :
    Safe C (processBillingCycle cfg x) Q w v := by
  unfold processBillingCycle prisma.subscription.findUniqueOrThrow
  rw [safe_bind, safe_bind]
  refine hask trivial hrefused (fun env found hfound => ?_)
  rw [serve_read rfl]
  have hfound : found = (w.sub? x).bind w.withPlan := found_of_read hfound
  rw [andThen_ok]
  cases found with
  | none =>
      apply hclosed _
      intro sub h
      rw [h.found] at hfound
      cases hfound
  | some sub =>
      show Safe _ (if sub.status = .CANCELLED ∨ sub.status = .EXPIRED then _ else _) _ _ _
      split
      next hended =>
        -- the subscription that was found has ended
        apply hclosed _
        intro sub' h
        obtain rfl : sub' = sub := Option.some.inj (h.found.symm.trans hfound.symm)
        exact hended.elim h.notCancelled h.notExpired
      next hstatus =>
        rw [not_or] at hstatus
        have hopen : Opened w x sub := ⟨hfound.symm, hstatus.1, hstatus.2⟩
        exact safe_rest hask hrefused (hadvance sub hopen)
          (fun payment w₁ => hcharge sub payment w₁ hopen)

end Openings

/-! ## §4. The cycle. -/

section Cycle

variable {cfg : Config} {A : CallEvent → Prop} {w : World} {v : Log}

/-- A failed charge, or what went wrong after a charge, is handled. -/
theorem handled_ends {sub : SubscriptionWithPlan} {id pid : String} {s : Subscription}
    {w₁ w₀ : World} {v₁ : Log} (hopen : Opened w₀ id sub) (hunpaid : ¬ w₀.isPaid sub.currentKey)
    (hs : w₁.sub? sub.id = some s) (hsub : Submitted sub.currentKey w₀ w₁)
    (htail : ∀ w' v', (w'.isPaid sub.currentKey ↔ w₁.isPaid sub.currentKey) →
      v'.results = v₁.results → (v₁.emissionRefused = true → v'.emissionRefused = true) →
      (∃ s', Penalised cfg A sub.retryCount s s' ∧ w'.sub? sub.id = some s') →
      CycleTail cfg A sub v w' v') :
    Safe (sequential A) (handlePaymentFailure cfg sub pid)
      (fun _ w' v' => CycleEnd cfg A id w₀ v w' v') w₁ v₁ := by
  apply (handlePaymentFailure_ends hs pid).mono
  intro r w' v' hpost
  obtain ⟨hchain, hres, hmono, hpaid, hpen⟩ := hpost
  exact .charged hopen hunpaid (hsub.congr hchain) (htail w' v' (hpaid _) hres hmono hpen)

/-- The emission that ends a paid cycle, and the handler of its rejection. -/
theorem announced_ends {sub : SubscriptionWithPlan} {id pid : String} {w₀ w₂ : World} {v₂ : Log}
    {newEnd now : Instant} (hopen : Opened w₀ id sub) (hunpaid : ¬ w₀.isPaid sub.currentKey)
    (hsub : Submitted sub.currentKey w₀ w₂) (hpaid : w₂.isPaid sub.currentKey)
    (hread : ∀ v' : Log, v'.results = v₂.results → ReadAsPaid v v')
    (hend : sub.nextEnd cfg = some newEnd)
    (hrow : w₂.sub? sub.id = some (sub.advanced newEnd now))
    (type : WebhookEventType) (paymentId : Option String) (payload : JavaScript.JsValue) :
    Safe (sequential A) (emitWebhookEvent type paymentId payload)
      (orElse (fun _ => handlePaymentFailure cfg sub pid) (sequential A)
        (fun _ w' v' => CycleEnd cfg A id w₀ v w' v')) w₂ v₂ := by
  apply (emitWebhookEvent_ends _ _ _).mono
  intro r w₃ v₃ hpost
  obtain ⟨hhooks, hres, -, herr⟩ := hpost
  unfold SameButHooks at hhooks
  have hpaid₃ : w₃.isPaid sub.currentKey := (isPaid_congr (by rw [hhooks]) _).mpr hpaid
  have hrow₃ : w₃.sub? sub.id = some (sub.advanced newEnd now) := by
    rw [hhooks]
    exact hrow
  have hsub₃ : Submitted sub.currentKey w₀ w₃ := hsub.congr (by rw [hhooks])
  cases r with
  | ok _ =>
      exact .charged hopen hunpaid hsub₃ (.settled newEnd now hpaid₃ (hread v₃ hres) hend hrow₃)
  | error err =>
      -- the emission has thrown, after the period was advanced
      apply handled_ends hopen hunpaid hrow₃ hsub₃
      intro w' v' hpaid' hres' hmono hpen
      obtain ⟨s', hpen, hs'⟩ := hpen
      exact .unannounced newEnd now s' (hpaid'.mpr hpaid₃) (hread v' (hres'.trans hres)) hend
        (hmono (herr err rfl)) hpen hs'

/-- The `try` block and its handler. -/
theorem attempt_or_handled_ends {sub : SubscriptionWithPlan} {id : String} {payment : Payment}
    (st : PaymentStatus) {w₀ : World} (hopen : Opened w₀ id sub)
    (hunpaid : ¬ w₀.isPaid sub.currentKey) (hs : w.sub? sub.id = some sub.toSubscription)
    (hchain : w.chain = w₀.chain) (hst : st ≠ .SUCCESS)
    (hrow : RowAt payment.id sub.currentKey w st) :
    Safe (sequential A)
      (tryCatch (processBillingCycle.attempt cfg sub payment sub.currentKey)
        (fun _ => handlePaymentFailure cfg sub payment.id))
      (fun _ w' v' => CycleEnd cfg A id w₀ v w' v') w v := by
  rw [safe_tryCatch]
  unfold processBillingCycle.attempt
  rw [safe_bind]
  have hframe : Safe (sequential A) (chargePayment cfg sub payment.id sub.currentKey)
      (fun _ w' _ => SameButPayments w w') w v :=
    seq_frame SameButPayments.refl (fun _ _ _ => SameButPayments.trans)
      (fun _ => after_isCharge) (chargePayment_calls sub payment.id sub.currentKey)
  apply ((chargePayment_ends hst hrow).and hframe).mono
  intro r w₁ v₁ hpost
  obtain ⟨⟨hsub, hr⟩, hsame⟩ := hpost
  -- a charge leaves the subscription row as the cycle has read it
  have hs₁ : w₁.sub? sub.id = some sub.toSubscription := by
    rw [World.sub?, hsame.subscriptions]
    exact hs
  have hsub₁ : Submitted sub.currentKey w₀ w₁ := hsub.from hchain
  cases r with
  | error err =>
      -- the charge has thrown
      obtain ⟨⟨st', hst', hrow'⟩, hlog⟩ := hr
      apply handled_ends hopen hunpaid hs₁ hsub₁
      intro w' v' hpaid hres _ hpen
      obtain ⟨s', hpen, hs'⟩ := hpen
      refine .failed s' ?_ ?_ hpen hs'
      · rw [hpaid, isPaid_iff hrow']
        exact hst'
      · rw [hres]
        rcases hlog with rfl | ⟨a, rfl⟩
        · exact .inl rfl
        · exact .inr ⟨a, rfl⟩
  | ok _ =>
      obtain ⟨hrow', hlog⟩ := hr
      have hpaid₁ : w₁.isPaid sub.currentKey := (isPaid_iff hrow').mpr rfl
      have hread : ∀ v' : Log, v'.results = v₁.results → ReadAsPaid v v' := by
        intro v' hres
        unfold ReadAsPaid
        rw [hres]
        rcases hlog with rfl | ⟨a, rfl, ha⟩
        · exact .inl rfl
        · exact .inr ⟨a, rfl, ha⟩
      rw [andThen_ok, safe_bind]
      refine advancePeriod_ends hs₁ (fun err hrefuse => ?_)
        (fun newEnd now w₂ hend hch hrow₂ => ?_)
      · -- the period could not be advanced
        apply handled_ends hopen hunpaid hs₁ hsub₁
        intro w' v' hpaid hres _ hpen
        obtain ⟨s', hpen, hs'⟩ := hpen
        exact .unadvanced s' (hpaid.mpr hpaid₁) (hread v' hres) hrefuse hpen hs'
      · have hpaid₂ : w₂.isPaid sub.currentKey :=
          (isPaid_congr (hch.payments_eq (by decide)).1 _).mpr hpaid₁
        have hsub₂ : Submitted sub.currentKey w₀ w₂ := hsub₁.congr (hch.chain_eq (by decide))
        rw [andThen_ok]
        exact announced_ends hopen hunpaid hsub₂ hpaid₂ hread hend hrow₂ _ _ _

/-- **What a billing cycle does.** -/
theorem processBillingCycle_ends (x : String) :
    Safe (sequential A) (processBillingCycle cfg x)
      (fun _ w' v' => CycleEnd cfg A x w v w' v') w v := by
  refine safe_cycle (C := sequential A) (E := fun v' => v' = v ∧ Refusable A)
    (fun hc herr hok => ?_) (fun err v' h => ?_) (fun r h => .untouched (.inr h))
    (fun sub hopen hpaid => ?_) (fun sub payment w₁ hopen hunpaid hbegun => ?_)
  · -- no call that opens a cycle is a polling loop or part of an emission
    obtain ⟨hstore, hawait⟩ := hc.isStore
    exact seq_ask hstore.1 hawait (fun err h => herr err v ⟨rfl, h hstore⟩) hok
  · obtain ⟨rfl, hrefused⟩ := h
    exact .untouched (.inl hrefused)
  · refine advancePeriod_ends (hopen.id_eq ▸ hopen.row) (fun err h => .untouched (.inl h))
      (fun newEnd now w' _ hch hrow => ?_)
    rw [hopen.id_eq] at hrow
    exact .advanced newEnd now hopen hpaid hch hrow
  · have hs : w₁.sub? sub.id = some sub.toSubscription := by
      rw [World.sub?, hbegun.changed.subscriptions_eq (by decide), hopen.id_eq]
      exact hopen.row
    exact attempt_or_handled_ends _ hopen hunpaid hs (hbegun.changed.chain_eq (by decide))
      hbegun.unpaid hbegun.row

/-- **What an operation that runs a billing cycle does.** -/
theorem billing_ends (cfg : Config) {op : Operation} {x : String} (h : op.bills = some x) :
    Safe (sequential A) (op.body cfg) (fun _ w' v' => CycleEnd cfg A x w v w' v') w v :=
  safe_billing h (processBillingCycle_ends x)

end Cycle

end Sorobill
