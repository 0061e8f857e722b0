/-
  Sorobill.Rules.Custody
  ──────────────────────
  **WHO MAY WRITE A PAYMENT ROW.**

  The only writes to a payment row come from the charge of that row, after
  its SUCCESS check and until the charge has ended.

    • `Custody`, `trackCustody` — the payment row an execution is charging;
    • `MockHash` — the hash a charge records in test mode;
    • `Custodial`, `operation_custodial` — every operation writes and charges
      only the row in its custody, whatever the other executions do and
      whichever calls are rejected.
-/
import Sorobill.Rules.Charges
import Sorobill.Rules.Periods

namespace Sorobill

open Effect
open Relational

/-! ## §1. Custody of a payment row. -/

/-- Which payment row an execution is charging. -/
inductive Custody where
  /-- It runs no billing cycle. -/
  | outsider
  /-- It is charging no row. -/
  | free
  /-- Its SUCCESS check has let the row pass. -/
  | holds (pid : String)
  deriving DecidableEq

def custodyOf (op : Operation) : Custody :=
  if op.bills.isSome then .free else .outsider

/-- A charge begins with the check of the row and ends with a write of SUCCESS
or FAILED that is answered, or with the failure handler, which begins by
reading the clock. -/
def trackCustody (v : Custody) (e : CallEvent) : Custody :=
  if v = .outsider then .outsider
  else match e.call with
    | .paymentFindUnique (.byId pid) =>
        if settledHash (e.before.payment? pid) = none then .holds pid else .free
    | .paymentUpdate _ data =>
        if (data.status = some .SUCCESS ∨ data.status = some .FAILED) ∧ isRejected e = false then
          .free
        else v
    | .dateNow => .free
    | _ => v

/-- **The hash that a charge for this key records in test mode.** -/
def MockHash (cfg : Config) (w : World) (key hash : String) : Prop :=
  ∃ id finish plan, key = billingIdempotencyKey id finish ∧ PlanOf w id plan
    ∧ hash = if useSoroban cfg plan then s!"soroban_test_{key}" else s!"test_{key}"

theorem MockHash.unique {cfg : Config} {w : World} {key hash hash' : String}
    (h : MockHash cfg w key hash) (h' : MockHash cfg w key hash') : hash = hash' := by
  obtain ⟨id, finish, plan, hkey, hplan, rfl⟩ := h
  obtain ⟨id', finish', plan', hkey', hplan', rfl⟩ := h'
  -- a key determines its subscription, and that its plan
  obtain ⟨rfl, -⟩ := billingIdempotencyKey_inj.mp (hkey.symm.trans hkey')
  rw [hplan.unique hplan']

theorem MockHash.ne_empty {cfg : Config} {w : World} {key hash : String}
    (h : MockHash cfg w key hash) : hash ≠ "" := by
  obtain ⟨id, finish, plan, -, -, rfl⟩ := h
  intro heq
  have hhead := congrArg (fun s : String => s.toList.head?) heq
  split at hhead <;> simp [show toString "soroban_test_" = "soroban_test_" from rfl,
    show toString "test_" = "test_" from rfl] at hhead

/-- What every step preserves: payment rows, and the plans of subscriptions. -/
structure Standing (w w' : World) : Prop where
  rows : ∀ pid key, HasRow pid key w → HasRow pid key w'
  plans : ∀ id plan, PlanOf w id plan → PlanOf w' id plan

theorem Standing.refl (w : World) : Standing w w := ⟨fun _ _ h => h, fun _ _ h => h⟩

theorem Standing.trans {a b c : World} (h₁ : Standing a b) (h₂ : Standing b c) : Standing a c :=
  ⟨fun pid key h => h₂.rows pid key (h₁.rows pid key h),
    fun id plan h => h₂.plans id plan (h₁.plans id plan h)⟩

theorem Standing.mock {cfg : Config} {w w' : World} {key hash : String} (h : Standing w w')
    (hm : MockHash cfg w key hash) : MockHash cfg w' key hash := by
  obtain ⟨id, finish, plan, hkey, hplan, hhash⟩ := hm
  exact ⟨id, finish, plan, hkey, h.plans id plan hplan, hhash⟩

theorem standing_after (e : CallEvent) : Standing e.before (e.after api) :=
  ⟨fun _ _ => hasRow_after e, fun _ _ => planOf_after e⟩

/-- An accepted transaction has a hash. -/
def Hashed (e : CallEvent) : Prop :=
  ∀ key invocation, e.call = .sendTransaction key invocation →
    ∀ hash applied, e.env.network = .accepted hash applied → hash ≠ ""

/-- **The writes and charges of an execution**, by the row in its custody. -/
inductive Custodial (cfg : Config) : Custody → CallEvent → Prop where
  /-- Payment rows and chain are left alone. -/
  | quiet {v e} : e.call.region ≠ .payments → e.call.region ≠ .chain → Custodial cfg v e
  | create {v w data env} : Custodial cfg v ⟨w, .paymentCreate data, env⟩
  | retrying {v w subscriptionId data env} : data.status = some .RETRYING →
      Custodial cfg v ⟨w, .paymentUpdateMany subscriptionId .FAILED data, env⟩
  | live {w pid data env} : cfg.billing.testMode = false →
      (data.status = some .SUCCESS → ∃ hash, data.stellarTxHash = some hash ∧ hash ≠ "") →
      Custodial cfg (.holds pid) ⟨w, .paymentUpdate pid data, env⟩
  | mock {w pid key hash env} : cfg.billing.testMode = true → HasRow pid key w →
      MockHash cfg w key hash →
      Custodial cfg (.holds pid)
        ⟨w, .paymentUpdate pid { status := some .SUCCESS, stellarTxHash := some hash }, env⟩
  | send {w pid key invocation env} : cfg.billing.testMode = false → HasRow pid key w →
      Custodial cfg (.holds pid) ⟨w, .sendTransaction key invocation, env⟩

def custodyContract (cfg : Config) : Contract api Custody where
  rely := Standing
  assume _ e := Hashed e
  guarantee := Custodial cfg
  track := trackCustody

/-! ## §2. The charge of a row. -/

section Walk

variable {cfg : Config} {w : World} {v : Custody} {α : Type}

theorem track_outsider (e : CallEvent) : trackCustody .outsider e = .outsider := if_pos rfl

/-- The calls that are admitted whatever is in custody. -/
def Call.isFree : Call → Prop
  | .paymentCreate _ => True
  | .paymentUpdate _ _ => False
  | .paymentUpdateMany _ status data => status = .FAILED ∧ data.status = some .RETRYING
  | .sendTransaction _ _ => False
  | _ => True

theorem Call.isFree.custodial {e : CallEvent} (h : e.call.isFree) : Custodial cfg v e := by
  obtain ⟨w, c, env⟩ := e
  cases c with
  | paymentCreate data => exact .create
  | paymentUpdate pid data => exact h.elim
  | paymentUpdateMany id status data =>
      obtain ⟨hstatus, hdata⟩ := h
      have hstatus : status = .FAILED := hstatus
      subst hstatus
      exact .retrying hdata
  | sendTransaction key invocation => exact h.elim
  | _ => exact .quiet (by simp [Call.region]) (by simp [Call.region])

/-- A program of such calls. -/
theorem safe_free {p : Service α} (hp : Calls api Call.isFree p) :
    Safe (custodyContract cfg) p (fun _ _ _ => True) w v :=
  safe_views (K := fun _ => True) (fun _ _ he _ _ => ⟨he.custodial, trivial⟩) trivial hp

/-- A request to the network in the charge of a row. -/
theorem safe_request {pid : String} {c : Call} (hregion : c.region = .nothing)
    (hid : ∀ x, c ≠ .paymentFindUnique (.byId x)) (hclock : c ≠ .dateNow)
    {Q : Post Api World Custody c.Reply} (hQ : ∀ r w', Standing w w' → Q r w' (.holds pid)) :
    Safe (custodyContract cfg) (Prog.perform (I := Api) c) Q w (.holds pid) := by
  refine safe_perform.mpr (fun w' env hw _ => ⟨.quiet ?_ ?_, ?_⟩)
  · rw [hregion]
    decide
  · rw [hregion]
    decide
  · have htrack : trackCustody (.holds pid) ⟨w', c, env⟩ = .holds pid := by
      cases c with
      | dateNow => exact absurd rfl hclock
      | paymentFindUnique key =>
          cases key with
          | byId x => exact absurd rfl (hid x)
          | byKey key => rfl
      | paymentUpdate x data => cases hregion
      | _ => rfl
    have hsame : (api.serve c env w').2 = w' := serve_read hregion env w'
    show Q _ (api.serve c env w').2 (trackCustody (.holds pid) ⟨w', c, env⟩)
    rw [htrack, hsame]
    exact hQ _ w' hw

/-- A write to the row in custody. -/
theorem safe_write {pid : String} {data : PaymentData}
    (hg : ∀ w' env, Standing w w' → Custodial cfg (.holds pid) ⟨w', .paymentUpdate pid data, env⟩)
    {Q : Post Api World Custody Payment}
    (hok : ∀ a w' v, Standing w w' →
      (data.status ≠ some .SUCCESS → data.status ≠ some .FAILED → v = .holds pid) →
      Q (.ok a) w' v)
    (herr : ∀ err w', Q (.error err) w' (.holds pid)) :
    Safe (custodyContract cfg) (prisma.payment.update pid data) Q w (.holds pid) := by
  refine safe_perform.mpr (fun w' env hw _ => ⟨hg w' env hw, ?_⟩)
  have hafter : Standing w (api.serve (.paymentUpdate pid data) env w').2 :=
    hw.trans (standing_after ⟨w', .paymentUpdate pid data, env⟩)
  show Q _ _ (trackCustody (.holds pid) ⟨w', .paymentUpdate pid data, env⟩)
  unfold trackCustody
  rw [if_neg (by simp)]
  dsimp only
  cases hr : (api.serve (.paymentUpdate pid data) env w').1 with
  | ok a =>
      apply hok a _ _ hafter
      intro hs hf
      exact if_neg (by simp [hs, hf])
  | error err =>
      -- a write that is rejected does not end the charge
      rw [if_neg (by simp [isRejected_of_error hr])]
      exact herr err _

/-- What `invokeAsAdmin` ends with: the row is still in custody, and the
transaction has a hash. -/
def admitted (pid : String) : Post Api World Custody (String × JavaScript.JsValue) :=
  fun r _ v => v = .holds pid ∧ ∀ hash result, r = .ok (hash, result) → hash ≠ ""

theorem admitted_error (pid : String) (err : Thrown) (w : World) :
    admitted pid (.error err) w (.holds pid) :=
  ⟨rfl, by simp⟩

theorem invokeAsAdmin_custodial {pid key : String} {invocation : Invocation}
    (hlive : cfg.billing.testMode = false) (hrow : HasRow pid key w) :
    Safe (custodyContract cfg) (invokeAsAdmin cfg key invocation) (admitted pid) w
      (.holds pid) := by
  unfold invokeAsAdmin keypairFromSecret getContract
  split
  · exact admitted_error pid _ w
  · split
    swap
    · exact admitted_error pid _ w
    show Safe _ (server.getAccount _ >>= _) _ _ _
    rw [safe_bind]
    refine safe_request rfl (by simp) (by simp) (fun r w₁ hw₁ => ?_)
    cases r with
    | error err => exact admitted_error pid err w₁
    | ok _ =>
        rw [andThen_ok]
        split
        · exact admitted_error pid _ w₁
        show Safe _ (server.simulateTransaction _ >>= _) _ _ _
        rw [safe_bind]
        refine safe_request rfl (by simp) (by simp) (fun r w₂ hw₂ => ?_)
        cases r with
        | error err => exact admitted_error pid err w₂
        | ok simulated =>
            rw [andThen_ok]
            cases simulated with
            | some error => exact admitted_error pid _ w₂
            | none =>
                dsimp only
                rw [safe_bind]
                -- the row of the key is in our charge when the transaction is sent
                refine safe_perform.mpr (fun w₃ env hw₃ hhash => ⟨.send hlive
                  ((hw₁.trans (hw₂.trans hw₃)).rows _ _ hrow), ?_⟩)
                show andThen _ _ _ _ _ (Custody.holds pid)
                rcases serve_sendTransaction key invocation env w₃ with
                  ⟨err, hs⟩ | ⟨detail, -, hs⟩ | ⟨hash, applied, hn, hs⟩
                · rw [hs]
                  exact admitted_error pid err w₃
                · rw [hs]
                  exact admitted_error pid _ w₃
                · rw [hs, andThen_ok]
                  dsimp only
                  rw [safe_bind]
                  refine safe_request rfl (by simp) (by simp) (fun r w₄ _ => ?_)
                  cases r with
                  | error err => exact admitted_error pid err w₄
                  | ok result =>
                      refine ⟨rfl, fun hash' result' heq => ?_⟩
                      cases heq
                      exact hhash _ _ rfl hash applied hn

/-- What the `try` block of `executeSorobanBilling` ends with: an error that
its `catch` block records leaves the row in custody. -/
def attemptedInCharge (pid : String) : Post Api World Custody String := fun r _ v =>
  ∀ message, r = .error (.error message) → v = .holds pid

theorem attempt_custodial {params : SorobanBillingParams} {admin : String}
    (hlive : cfg.billing.testMode = false)
    (hrow : HasRow params.paymentId params.idempotencyKey w) :
    Safe (custodyContract cfg) (executeSorobanBilling.attempt cfg params admin)
      (attemptedInCharge params.paymentId) w (.holds params.paymentId) := by
  unfold executeSorobanBilling.attempt addressToScVal
  split
  swap
  · exact fun _ _ => rfl
  show Safe _ ((if _ then pure _ else throw _ : Service String) >>= _) _ _ _
  split
  swap
  · exact fun _ _ => rfl
  show Safe _ (invokeAsAdmin cfg params.idempotencyKey _ >>= _) _ _ _
  rw [safe_bind]
  apply (invokeAsAdmin_custodial hlive hrow).mono
  intro r w' v hr
  obtain ⟨rfl, hhash⟩ := hr
  cases r with
  | error err => exact fun _ _ => rfl
  | ok invoked =>
      obtain ⟨hash, result⟩ := invoked
      rw [andThen_ok]
      dsimp only
      split
      · -- FAILED, with the hash: the error that follows is not recorded again
        rw [safe_bind]
        refine safe_write (fun _ _ _ => .live hlive (by simp)) (fun a w₁ v₁ _ _ => ?_)
          (fun err w₁ _ _ => rfl)
        intro message heq
        cases heq
      · rw [safe_bind]
        refine safe_write (fun _ _ _ => .live hlive (fun _ => ⟨hash, rfl, hhash hash result rfl⟩))
          (fun a w₁ v₁ _ _ message heq => ?_) (fun err w₁ _ _ => rfl)
        cases heq

/-- **What `executeSorobanBilling` writes.** -/
theorem executeSorobanBilling_custodial {params : SorobanBillingParams}
    (hrow : HasRow params.paymentId params.idempotencyKey w)
    (hmock : MockHash cfg w params.idempotencyKey
      (let key := params.idempotencyKey; s!"soroban_test_{key}")) :
    Safe (custodyContract cfg) (executeSorobanBilling cfg params) (fun _ _ _ => True) w
      .free := by
  unfold executeSorobanBilling
  rw [safe_bind]
  refine safe_perform.mpr (fun w₁ env hw₁ _ => ⟨.quiet (by simp [Call.region])
    (by simp [Call.region]), ?_⟩)
  rcases serve_paymentFindUnique (.byId params.paymentId) env w₁ with ⟨err, h⟩ | h
  · rw [h]
    trivial
  have hread : w₁.payments.find? (PaymentKey.byId params.paymentId).selects
      = w₁.payment? params.paymentId := rfl
  have htrack : (custodyContract cfg).track .free
        ⟨w₁, .paymentFindUnique (.byId params.paymentId), env⟩
      = if settledHash (w₁.payment? params.paymentId) = none then .holds params.paymentId
        else .free := rfl
  rw [htrack, h, andThen_ok, hread]
  cases settledHash (w₁.payment? params.paymentId) with
  -- paid already: its hash is the result
  | some hash => trivial
  | none =>
      rw [if_pos rfl]
      dsimp only
      split
      · trivial
      · split
        next htest =>
          -- test mode: the mock hash is written, nothing is sent
          rw [safe_bind]
          refine safe_write (fun w₂ _ hw₂ => .mock htest ((hw₁.trans hw₂).rows _ _ hrow)
            ((hw₁.trans hw₂).mock hmock)) (fun _ _ _ _ _ => trivial) (fun _ _ => trivial)
        next htest =>
          -- live: PROCESSING, then the attempt
          have hlive : cfg.billing.testMode = false := by simpa using htest
          unfold keypairFromSecret
          split
          swap
          · trivial
          show Safe _ (prisma.payment.update _ _ >>= _) _ _ _
          rw [safe_bind]
          refine safe_write (fun _ _ _ => .live hlive (by simp)) (fun a w₂ v hw₂ hv => ?_)
            (fun _ _ => trivial)
          obtain rfl := hv (by simp) (by simp)
          rw [andThen_ok, safe_tryCatch]
          apply (attempt_custodial hlive ((hw₁.trans hw₂).rows _ _ hrow)).mono
          intro r w₃ v hr
          cases r with
          | ok hash => trivial
          | error err =>
              cases err with
              -- FAILED was written inside the `try` already
              | sorobanBillingFailed hash => trivial
              | error message =>
                  obtain rfl := hr message rfl
                  show Safe _ (prisma.payment.update _ _ >>= _) _ _ _
                  rw [safe_bind]
                  exact safe_write (fun _ _ _ => .live hlive (by simp))
                    (fun _ _ _ _ _ => trivial) (fun _ _ => trivial)

/-- **What `submitPayment` writes in test mode.** -/
theorem submitPayment_custodial {params : PaymentParams} (htest : cfg.billing.testMode = true)
    (hrow : HasRow params.paymentId params.idempotencyKey w)
    (hmock : MockHash cfg w params.idempotencyKey
      (let key := params.idempotencyKey; s!"test_{key}")) :
    Safe (custodyContract cfg) (submitPayment cfg params) (fun _ _ _ => True) w .free := by
  unfold submitPayment
  rw [safe_bind]
  refine safe_perform.mpr (fun w₁ env hw₁ _ => ⟨.quiet (by simp [Call.region])
    (by simp [Call.region]), ?_⟩)
  rcases serve_paymentFindUnique (.byId params.paymentId) env w₁ with ⟨err, h⟩ | h
  · rw [h]
    trivial
  have hread : w₁.payments.find? (PaymentKey.byId params.paymentId).selects
      = w₁.payment? params.paymentId := rfl
  have htrack : (custodyContract cfg).track .free
        ⟨w₁, .paymentFindUnique (.byId params.paymentId), env⟩
      = if settledHash (w₁.payment? params.paymentId) = none then .holds params.paymentId
        else .free := rfl
  rw [htrack, h, andThen_ok, hread]
  cases settledHash (w₁.payment? params.paymentId) with
  | some hash => trivial
  | none =>
      rw [if_pos rfl, htest, if_pos rfl, safe_bind]
      exact safe_write (fun w₂ _ hw₂ => .mock htest ((hw₁.trans hw₂).rows _ _ hrow)
        ((hw₁.trans hw₂).mock hmock)) (fun _ _ _ _ _ => trivial) (fun _ _ => trivial)

/-- **What a charge writes.** -/
theorem chargePayment_custodial {sub : SubscriptionWithPlan} {pid : String}
    (hrow : HasRow pid sub.currentKey w) (hplan : PlanOf w sub.id sub.plan) :
    Safe (custodyContract cfg) (chargePayment cfg sub pid sub.currentKey) (fun _ _ _ => True) w
      .free := by
  unfold chargePayment
  split
  next hsoroban =>
    rw [safe_bind]
    refine (executeSorobanBilling_custodial hrow ?_).mono (fun r _ _ _ => by cases r <;> trivial)
    exact ⟨sub.id, sub.currentPeriodEnd, sub.plan, rfl, hplan, by rw [if_pos hsoroban]⟩
  next hsoroban =>
    split
    next htest =>
      rw [safe_bind]
      refine (submitPayment_custodial htest hrow ?_).mono (fun r _ _ _ => by cases r <;> trivial)
      exact ⟨sub.id, sub.currentPeriodEnd, sub.plan, rfl, hplan, by rw [if_neg hsoroban]⟩
    next => trivial

/-! ## §3. Every operation. -/

theorem Call.isWebhook.isFree {c : Call} (h : c.isWebhook) : c.isFree := by
  cases c <;> trivial

theorem free_emit (type : WebhookEventType) (pid : Option String)
    (payload : JavaScript.JsValue) :
    Calls api Call.isFree (emitWebhookEvent type pid payload) :=
  (emitWebhookEvent_calls type pid payload).mono (fun _ h => h.isFree)

theorem free_advance (sub : SubscriptionWithPlan) :
    Calls api Call.isFree (advancePeriod cfg sub) :=
  calls_bind (fun _ => calls_pure) (calls_perform trivial)

theorem free_handler (sub : SubscriptionWithPlan) (pid : String) :
    Calls api Call.isFree (handlePaymentFailure cfg sub pid) := by
  unfold handlePaymentFailure
  dsimp only
  split
  · refine calls_bind (fun _ => ?_) (calls_perform trivial)
    exact calls_bind (fun _ => free_emit _ _ _) (calls_perform trivial)
  · refine calls_bind (fun _ => ?_) (calls_perform trivial)
    refine calls_bind (fun _ => ?_) (calls_perform ⟨rfl, rfl⟩)
    exact calls_bind (fun _ => calls_pure) (calls_perform trivial)

/-- The `try` block of a cycle and its handler. -/
theorem attempt_or_handler_custodial {sub : SubscriptionWithPlan} {payment : Payment}
    (hrow : HasRow payment.id sub.currentKey w) (hplan : PlanOf w sub.id sub.plan) :
    Safe (custodyContract cfg)
      (tryCatch (processBillingCycle.attempt cfg sub payment sub.currentKey)
        (fun _ => handlePaymentFailure cfg sub payment.id)) (fun _ _ _ => True) w .free := by
  rw [safe_tryCatch]
  unfold processBillingCycle.attempt
  rw [safe_bind]
  apply (chargePayment_custodial hrow hplan).mono
  intro r w₁ v₁ _
  cases r with
  | error err => exact safe_free (free_handler sub payment.id)
  | ok _ =>
      rw [andThen_ok]
      apply (safe_free (calls_bind (fun _ => free_emit _ _ _) (free_advance sub))).mono
      intro r w₂ v₂ _
      cases r with
      | ok _ => trivial
      | error err => exact safe_free (free_handler sub payment.id)

/-- **What a billing cycle writes and charges.** -/
theorem rest_custodial {sub : SubscriptionWithPlan} (hplan : PlanOf w sub.id sub.plan) :
    Safe (custodyContract cfg) (processBillingCycle.rest cfg sub) (fun _ _ _ => True) w
      .free := by
  unfold processBillingCycle.rest
  rw [safe_bind]
  refine safe_perform.mpr (fun w₁ env hw₁ _ => ⟨Call.isFree.custodial trivial, ?_⟩)
  have hplan₁ : PlanOf w₁ sub.id sub.plan := hw₁.plans _ _ hplan
  show andThen _ _ _ _ _ Custody.free
  rcases serve_paymentFindUnique (.byKey (billingIdempotencyKey sub.id sub.currentPeriodEnd))
    env w₁ with ⟨err, h⟩ | h
  · rw [h]
    trivial
  rw [h, andThen_ok]
  cases hfound : w₁.payments.find?
      (PaymentKey.byKey (billingIdempotencyKey sub.id sub.currentPeriodEnd)).selects with
  | some payment =>
      -- the row of the period
      obtain ⟨hmem, hkey⟩ := paymentByKey?_eq_some.mp
        (show w₁.paymentByKey? sub.currentKey = some payment from hfound)
      split
      · exact safe_free (free_advance sub)
      · exact attempt_or_handler_custodial ⟨payment, hmem, rfl, hkey⟩ hplan₁
  | none =>
      rw [if_neg (by simp)]
      show Safe _ (prisma.payment.create _ >>= _) _ _ _
      rw [safe_bind]
      refine safe_perform.mpr (fun w₂ env₂ hw₂ _ => ⟨.create, ?_⟩)
      show andThen _ _ _ _ _ Custody.free
      rcases serve_paymentCreate (processBillingCycle.paymentData cfg sub
          (billingIdempotencyKey sub.id sub.currentPeriodEnd)) env₂ w₂ with
        ⟨err, hc⟩ | ⟨pid, t, ht, hc⟩
      · rw [hc]
        trivial
      · rw [hc, andThen_ok]
        refine attempt_or_handler_custodial
          ⟨_, (Table.mem_insert ht).mpr (.inr rfl), rfl, rfl⟩ ?_
        obtain ⟨s, hs, hp⟩ := hw₂.plans _ _ hplan₁
        exact ⟨s, hs, hp⟩

/-- **Every operation charges and writes only the payment row in its
custody.** -/
theorem operation_custodial (cfg : Config) (op : Operation) (w : World) :
    Safe (custodyContract cfg) (op.body cfg) (fun _ _ _ => True) w (custodyOf op) := by
  cases hb : op.bills with
  | none =>
      have hv : custodyOf op = .outsider := by
        unfold custodyOf
        rw [hb]
        rfl
      rw [hv]
      refine Safe.mono (fun _ _ _ _ => trivial)
        (safe_views (K := fun v => v = .outsider) (fun v e he hv _ => ⟨?_, ?_⟩) rfl
          (operation_calls cfg op hb))
      · exact .quiet he.region.1 he.region.2
      · rw [hv]
        exact track_outsider e
  | some x =>
      have hv : custodyOf op = .free := by
        unfold custodyOf
        rw [hb]
        rfl
      rw [hv]
      refine safe_billing hb (safe_reading (fun w' env _ _ => ⟨?_, fun sub hopen => ?_⟩))
      · exact Call.isFree.custodial trivial
      · exact rest_custodial hopen.planOf

end Walk

/-! ## §4. What custody tells of a call. -/

section Calls

variable {cfg : Config} {v : Custody} {e : CallEvent}

/-- How a row came into custody. -/
theorem holds_of_track {pid : String} (h : trackCustody v e = .holds pid) :
    v = .holds pid
      ∨ e.call = .paymentFindUnique (.byId pid) ∧ settledHash (e.before.payment? pid) = none := by
  obtain ⟨w, c, env⟩ := e
  unfold trackCustody at h
  split at h
  next => cases h
  next =>
    cases c with
    | paymentFindUnique key =>
        cases key with
        | byId x =>
            dsimp only at h
            split at h
            next hnone =>
              cases h
              exact .inr ⟨rfl, hnone⟩
            next => cases h
        | byKey key => exact .inl h
    | paymentUpdate x data =>
        dsimp only at h
        split at h
        next => cases h
        next => exact .inl h
    | dateNow => cases h
    | _ => exact .inl h

/-- **What is written in a payment row**, by the custody of the execution that
writes it. -/
theorem Custodial.written (h : Custodial cfg v e) {p : Payment} {data : PaymentData}
    (hp : p ∈ e.before.payments) (hw : e.call.writesPayment p data) :
    (p.status = .FAILED ∧ data.status = some .RETRYING)
      ∨ v = .holds p.id ∧ e.call = .paymentUpdate p.id data
        ∧ ((cfg.billing.testMode = false ∧ (data.status = some .SUCCESS →
              ∃ hash, data.stellarTxHash = some hash ∧ hash ≠ ""))
          ∨ (cfg.billing.testMode = true ∧ data.status = some .SUCCESS
              ∧ ∃ hash, data.stellarTxHash = some hash
                ∧ MockHash cfg e.before p.idempotencyKey hash)) := by
  cases h with
  | quiet hpay hchain =>
      rcases hw with hw | hw
      · rw [hw] at hpay
        exact absurd rfl hpay
      · rw [hw] at hpay
        exact absurd rfl hpay
  | create => rcases hw with hw | hw <;> cases hw
  | retrying hd =>
      rcases hw with hw | hw
      · cases hw
      · injection hw with _ hstatus hdata
        subst hdata
        exact .inl ⟨hstatus.symm, hd⟩
  | live hlive hhash =>
      rcases hw with hw | hw
      · injection hw with hid hdata
        subst hid
        subst hdata
        exact .inr ⟨rfl, rfl, .inl ⟨hlive, hhash⟩⟩
      · cases hw
  | @mock w pid key hash env htest hrow hmock =>
      rcases hw with hw | hw
      · injection hw with hid hdata
        subst hid
        subst hdata
        -- the row of this id is the row of this key
        obtain ⟨q, hq, hqid, hqkey⟩ := hrow
        have hqp : q = p := Table.eq_of_clash hq hp (.inl hqid)
        subst hqp
        subst hqkey
        exact .inr ⟨rfl, rfl, .inr ⟨htest, rfl, hash, rfl, hmock⟩⟩
      · cases hw
  | send => rcases hw with hw | hw <;> cases hw

end Calls

end Sorobill
