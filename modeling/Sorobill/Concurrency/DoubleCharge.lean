/-
  Sorobill.Concurrency.DoubleCharge
  ─────────────────────────────────
  **HOW OFTEN IS ONE BILLING PERIOD CHARGED UNDER CONCURRENCY?**

  The guard of a charge is a check followed by an act: `executeSorobanBilling`
  reads the payment row, and five awaits later it submits a transaction.  Two
  executions that both pass the check both submit.

    • `Stage`, `trackStage` — where an execution is in the charge of a
      payment row;
    • `Faultless` — no step fails and the RPC reports the truth;
    • `Lawful`, `operation_lawful` — what the executions do to payment rows
      and to the chain, stage by stage;
    • `charged_at_most_once` — one Paid transaction for each idempotency key
      in every interleaving in which no two executions are in the charge of
      one row at a time.
-/
import Sorobill.Model.Shop
import Sorobill.Rules.Footprints
import Sorobill.Rules.Outcomes

namespace Sorobill

open Effect
open Relational

/-! ## §1. Stages of a charge. -/

/-- Where an execution is in the charge of a payment row. -/
inductive Stage where
  /-- It runs no billing cycle. -/
  | bystander
  /-- It is not in the charge of a row. -/
  | idle
  /-- Its SUCCESS check has let the row pass. -/
  | charging (pid : String)
  /-- It has submitted the transaction. -/
  | sent (pid hash : String) (applied : Option BillingOutcome)
  deriving DecidableEq

/-- The payment row in whose charge the execution is. -/
def Stage.pid? : Stage → Option String
  | .charging pid => some pid
  | .sent pid _ _ => some pid
  | _ => none

def stageOf : Operation → Stage
  | .runInline _ => .idle
  | .billingJob _ => .idle
  | _ => .bystander

/-- The charge begins with the SUCCESS check on the row and ends with the
write of SUCCESS or FAILED. -/
def trackStage (v : Stage) (e : CallEvent) : Stage :=
  match e.call with
  | .paymentFindUnique (.byId pid) =>
      if v = .idle ∧ settledHash (e.before.payment? pid) = none then .charging pid else v
  | .sendTransaction _ _ =>
      match v, e.env.network with
      | .charging pid, .accepted hash applied => .sent pid hash applied
      | v, _ => v
  | .paymentUpdate pid data =>
      if v.pid? = some pid ∧ (data.status = some .SUCCESS ∨ data.status = some .FAILED) then
        .idle
      else v
  | _ => v

/-- No step fails, and the RPC reports each invocation truthfully. -/
structure Faultless (e : CallEvent) : Prop where
  answered : ∃ a, e.response api = .ok a
  simulates : ∀ invocation, e.call = .simulateTransaction invocation →
    e.env.network = .simulated none
  accepts : ∀ key invocation, e.call = .sendTransaction key invocation →
    ∃ hash applied, hash ≠ "" ∧ e.env.network = .accepted hash applied
  truthful : ∀ hash, e.call = .awaitTransaction hash →
    ∀ tx ∈ e.before.chain, tx.hash = hash → ∃ o v, tx.applied = some o ∧ Encodes o v
      ∧ api.serve (.awaitTransaction hash) e.env e.before = (.ok v, e.before)

/-- **The condition on interleavings**: when an execution makes the SUCCESS
check on a payment row, no other execution is in the charge of that row. -/
def OneAtATime : Condition Api World Env Stage := fun v others e =>
  ∀ pid, e.call = .paymentFindUnique (.byId pid) → v = .idle →
    ∀ u ∈ others, u.pid? ≠ some pid

/-! ## §2. What the executions do. -/

/-- What every step preserves: payment rows and accepted transactions. -/
structure Keeps (w w' : World) : Prop where
  rows : ∀ pid key, HasRow pid key w → HasRow pid key w'
  chain : ∀ tx ∈ w.chain, tx ∈ w'.chain

theorem Keeps.refl (w : World) : Keeps w w := ⟨fun _ _ h => h, fun _ h => h⟩

theorem Keeps.trans {a b c : World} (h₁ : Keeps a b) (h₂ : Keeps b c) : Keeps a c :=
  ⟨fun pid key h => h₂.rows pid key (h₁.rows pid key h), fun tx h => h₂.chain tx (h₁.chain tx h)⟩

theorem keeps_after (e : CallEvent) : Keeps e.before (e.after api) :=
  ⟨fun _ _ => hasRow_after e, fun _ => chain_kept e⟩

/-- **The lawful calls**, by the stage of the execution that makes them. -/
inductive Lawful : Stage → CallEvent → Prop where
  /-- Payment rows and chain are left alone. -/
  | quiet {v e} : e.call.region ≠ .payments → e.call.region ≠ .chain →
      trackStage v e = v → Lawful v e
  | create {v w data env} : Lawful v ⟨w, .paymentCreate data, env⟩
  | check {w pid env} : Lawful .idle ⟨w, .paymentFindUnique (.byId pid), env⟩
  | processing {w pid data env} : data.status = some .PROCESSING →
      Lawful (.charging pid) ⟨w, .paymentUpdate pid data, env⟩
  | send {w pid key invocation env} : HasRow pid key w →
      Lawful (.charging pid) ⟨w, .sendTransaction key invocation, env⟩
  | settle {w pid hash applied data env} : hash ≠ "" → data.status = some .SUCCESS →
      data.stellarTxHash = some hash →
      Lawful (.sent pid hash applied) ⟨w, .paymentUpdate pid data, env⟩
  | fail {v w pid data env} : v.pid? = some pid →
      (∀ hash, v ≠ .sent pid hash (some .Paid)) → data.status = some .FAILED →
      Lawful v ⟨w, .paymentUpdate pid data, env⟩
  | retrying {v w subscriptionId data env} : data.status = some .RETRYING →
      Lawful v ⟨w, .paymentUpdateMany subscriptionId .FAILED data, env⟩

def chargeContract : Contract api Stage where
  rely := Keeps
  assume _ e := Faultless e
  guarantee := Lawful
  track := trackStage

section Walk

variable {cfg : Config} {w : World} {v : Stage} {α : Type}

/-- The calls that concern neither payment rows nor the chain. -/
def Call.isQuiet (c : Call) : Prop :=
  c.region ≠ .payments ∧ c.region ≠ .chain ∧ ∀ pid, c ≠ .paymentFindUnique (.byId pid)

theorem track_quiet {e : CallEvent} (h : e.call.isQuiet) : trackStage v e = v := by
  obtain ⟨w, c, env⟩ := e
  obtain ⟨h₁, h₂, h₃⟩ := h
  cases c with
  | paymentFindUnique key =>
      cases key with
      | byId pid => exact absurd rfl (h₃ pid)
      | byKey key => rfl
  | sendTransaction key invocation => exact absurd rfl h₂
  | paymentUpdate pid data => exact absurd rfl h₁
  | _ => rfl

theorem track_send {pid key hash : String} {invocation : Invocation}
    {applied : Option BillingOutcome} {env : Env} (h : env.network = .accepted hash applied) :
    trackStage (.charging pid) ⟨w, .sendTransaction key invocation, env⟩
      = .sent pid hash applied := by
  unfold trackStage
  dsimp only
  rw [h]

/-- SUCCESS or FAILED ends the charge. -/
theorem track_end {pid : String} {data : PaymentData} (hv : v.pid? = some pid)
    (hd : data.status = some .SUCCESS ∨ data.status = some .FAILED) (w : World) (env : Env) :
    trackStage v ⟨w, .paymentUpdate pid data, env⟩ = .idle :=
  if_pos ⟨hv, hd⟩

/-- The check begins a charge, unless the row is settled. -/
theorem track_check (pid : String) (w : World) (env : Env) :
    trackStage .idle ⟨w, .paymentFindUnique (.byId pid), env⟩
      = if settledHash (w.payment? pid) = none then .charging pid else .idle := by
  show (if _ ∧ _ then _ else _) = _
  simp

/-- PROCESSING does not end the charge. -/
theorem track_processing (pid : String) (w : World) (env : Env) :
    trackStage (.charging pid) ⟨w, .paymentUpdate pid { status := some .PROCESSING }, env⟩
      = .charging pid :=
  if_neg (by simp)

theorem lawful_quiet {e : CallEvent} (h : e.call.isQuiet) : Lawful v e :=
  .quiet h.1 h.2.1 (track_quiet h)

/-- Quiet programs leave the stage alone. -/
theorem safe_quiet {p : Service α} {Q : Post Api World Stage α}
    (hp : Calls api Call.isQuiet p) (hQ : ∀ r w', Keeps w w' → Q r w' v) :
    Safe chargeContract p Q w v := by
  refine (safe_of_calls (C := chargeContract) Keeps.refl (fun _ _ _ => Keeps.trans)
    (fun e he _ => ⟨lawful_quiet he, keeps_after e, track_quiet he⟩) hp).mono ?_
  intro r w' v' hpost
  obtain ⟨hk, rfl⟩ := hpost
  exact hQ r w' hk

/-- In a faultless run no call rejects. -/
theorem Faultless.not_error {c : Call} {env : Env} (h : Faultless ⟨w, c, env⟩) {err : Thrown}
    {w' : World} : api.serve c env w ≠ (.error err, w') := by
  intro heq
  obtain ⟨a, ha⟩ := h.answered
  have : (api.serve c env w).1 = .ok a := ha
  rw [heq] at this
  cases this

/-- A call that only reads is answered, and the stage stays. -/
theorem safe_ask {c : Call} (hc : c.region = .nothing)
    (hid : ∀ pid, c ≠ .paymentFindUnique (.byId pid)) {Q : Post Api World Stage c.Reply}
    (hQ : ∀ w' env a, Keeps w w' → Faultless ⟨w', c, env⟩ →
      api.serve c env w' = (.ok a, w') → Q (.ok a) w' v) :
    Safe chargeContract (await c) Q w v := by
  have hquiet : c.isQuiet := ⟨by rw [hc]; decide, by rw [hc]; decide, hid⟩
  refine safe_perform.mpr (fun w' env hk hf => ⟨lawful_quiet hquiet, ?_⟩)
  obtain ⟨a, ha⟩ := hf.answered
  have hserve : api.serve c env w' = (.ok a, w') := Prod.ext ha (serve_read hc env w')
  have htrack : chargeContract.track v ⟨w', c, env⟩ = v := track_quiet hquiet
  rw [htrack, hserve]
  exact hQ w' env a hk hf hserve

/-- The write that ends a charge. -/
theorem safe_end {pid : String} {data : PaymentData} (hv : v.pid? = some pid)
    (hd : data.status = some .SUCCESS ∨ data.status = some .FAILED)
    (hl : ∀ w env, Lawful v ⟨w, .paymentUpdate pid data, env⟩)
    {Q : Post Api World Stage Payment} (hQ : ∀ a w, Q (.ok a) w .idle) :
    Safe chargeContract (prisma.payment.update pid data) Q w v := by
  refine safe_perform.mpr (fun w' env _ hf => ⟨hl w' env, ?_⟩)
  have htrack : chargeContract.track v ⟨w', .paymentUpdate pid data, env⟩ = .idle :=
    track_end hv hd w' env
  obtain ⟨a, ha⟩ := hf.answered
  have hanswer : (api.serve (.paymentUpdate pid data) env w').1 = .ok a := ha
  rw [htrack, hanswer]
  exact hQ a _

/-- What `invokeAsAdmin` ends with, called in the charge of `pid`: it has
thrown before it submitted, or the transaction is submitted and its result
encodes the outcome. -/
def invoked (pid : String) : Post Api World Stage (String × JavaScript.JsValue) := fun r _ v =>
  match r with
  | .ok (hash, result) => ∃ o, hash ≠ "" ∧ v = .sent pid hash (some o) ∧ Encodes o result
  | .error err => (∃ message, err = .error message) ∧ v = .charging pid

theorem invokeAsAdmin_lawful {pid key : String} {invocation : Invocation}
    (hrow : HasRow pid key w) :
    Safe chargeContract (invokeAsAdmin cfg key invocation) (invoked pid) w (.charging pid) := by
  unfold invokeAsAdmin keypairFromSecret getContract
  split
  · exact ⟨⟨_, rfl⟩, rfl⟩
  · split
    swap
    · exact ⟨⟨_, rfl⟩, rfl⟩
    show Safe _ (server.getAccount _ >>= _) _ _ _
    rw [safe_bind]
    apply safe_ask rfl (by simp)
    intro w₁ _ _ hk₁ _ _
    rw [andThen_ok]
    split
    · exact ⟨⟨_, rfl⟩, rfl⟩
    show Safe _ (server.simulateTransaction _ >>= _) _ _ _
    rw [safe_bind]
    apply safe_ask rfl (by simp)
    intro w₂ _ simulated hk₂ _ _
    rw [andThen_ok]
    cases simulated with
    | some error => exact ⟨⟨_, rfl⟩, rfl⟩
    | none =>
        dsimp only
        rw [safe_bind]
        have hrow₂ := hk₂.rows _ _ (hk₁.rows _ _ hrow)
        refine safe_perform.mpr (fun w₃ env hk₃ hf => ⟨.send (hk₃.rows _ _ hrow₂), ?_⟩)
        obtain ⟨hash, applied, hne, hnet⟩ := hf.accepts _ _ rfl
        have htrack : chargeContract.track (.charging pid)
            ⟨w₃, .sendTransaction key invocation, env⟩ = .sent pid hash applied :=
          track_send hnet
        rw [htrack]
        rcases serve_sendTransaction key invocation env w₃ with
          ⟨err, hs⟩ | ⟨detail, hr, -⟩ | ⟨hash', applied', hn, hs⟩
        · exact absurd hs hf.not_error
        · rw [hnet] at hr
          cases hr
        · -- the polling loop reports this very transaction
          rw [hnet] at hn
          cases hn
          rw [hs, andThen_ok]
          dsimp only
          rw [safe_bind]
          apply safe_ask rfl (by simp)
          intro w₄ env' result hk₄ hf' hserve
          obtain ⟨o, v, happlied, henc, hv⟩ := hf'.truthful hash rfl
            ⟨hash, key, invocation, applied⟩ (hk₄.chain _ (List.mem_append_right _ (by simp))) rfl
          have happlied : applied = some o := happlied
          have hresult : result = v := by
            have := hserve.symm.trans hv
            simpa using this
          exact ⟨o, hne, by rw [happlied], hresult ▸ henc⟩

/-- What the `try` block of `executeSorobanBilling` ends with: only an error
thrown before the submission leaves the execution in the charge. -/
def attempted (pid : String) : Post Api World Stage String := fun r _ v =>
  match r with
  | .error (.error _) => v = .charging pid
  | _ => v = .idle

theorem attempt_lawful {params : SorobanBillingParams} {admin : String}
    (hrow : HasRow params.paymentId params.idempotencyKey w) :
    Safe chargeContract (executeSorobanBilling.attempt cfg params admin)
      (attempted params.paymentId) w (.charging params.paymentId) := by
  unfold executeSorobanBilling.attempt addressToScVal
  split
  swap
  · exact rfl
  show Safe _ ((if _ then pure _ else throw _ : Service String) >>= _) _ _ _
  split
  swap
  · exact rfl
  show Safe _ (invokeAsAdmin cfg params.idempotencyKey _ >>= _) _ _ _
  rw [safe_bind]
  apply (invokeAsAdmin_lawful hrow).mono
  intro r w' v hr
  cases r with
  | error err =>
      -- nothing was submitted: the `catch` block may write FAILED
      obtain ⟨⟨message, rfl⟩, rfl⟩ := hr
      exact rfl
  | ok invocation =>
      obtain ⟨hash, result⟩ := invocation
      obtain ⟨o, hne, rfl, henc⟩ := hr
      rw [andThen_ok]
      dsimp only
      split
      next hfailed =>
        -- the result is read as Failed, so the transaction was not applied as Paid
        have hnotPaid : o ≠ .Paid := by
          intro heq
          obtain rfl := heq
          exact not_reads_of_encodes henc (parse_eq_failed_iff.mp hfailed)
        rw [safe_bind]
        refine safe_perform.mpr (fun w₁ env _ hf => ⟨.fail rfl ?_ rfl, ?_⟩)
        · intro h heq
          cases heq
          exact hnotPaid rfl
        · have htrack : chargeContract.track (.sent params.paymentId hash (some o))
              ⟨w₁, .paymentUpdate params.paymentId
                { status := some .FAILED
                  stellarTxHash := some hash
                  failureReason := some (some
                    "BillingOutcome::Failed (insufficient balance or allowance)") }, env⟩
              = .idle := by
            simp [chargeContract, trackStage, Stage.pid?]
          rw [htrack]
          obtain ⟨a, ha⟩ := hf.answered
          rw [show (api.serve _ env w₁).1 = _ from ha]
          exact rfl
      next hother =>
        -- SUCCESS is right whatever the outcome was
        rw [safe_bind]
        exact safe_end rfl (.inl rfl) (fun _ _ => .settle hne rfl rfl) (fun _ _ => rfl)

/-- An execution may end unless it has submitted a transaction that was
applied as Paid and not recorded it. -/
def Stage.Over (v : Stage) : Prop := ∀ pid hash, v ≠ .sent pid hash (some .Paid)

theorem over_idle : Stage.idle.Over := fun _ _ => by simp

theorem over_charging (pid : String) : (Stage.charging pid).Over := fun _ _ => by simp

/-- From the attempt on, a charge ends or has submitted nothing. -/
theorem attempted_lawful {params : SorobanBillingParams} {admin : String}
    (hrow : HasRow params.paymentId params.idempotencyKey w) :
    Safe chargeContract (tryCatch (executeSorobanBilling.attempt cfg params admin)
      (executeSorobanBilling.recordFailure params)) (fun _ _ v => v.Over) w
      (.charging params.paymentId) := by
  rw [safe_tryCatch]
  apply (attempt_lawful hrow).mono
  intro r w₃ v hr
  cases r with
  | ok hash =>
      have hv : v = .idle := hr
      exact hv ▸ over_idle
  | error err =>
      cases err with
      | sorobanBillingFailed hash =>
          have hv : v = .idle := hr
          exact hv ▸ over_idle
      | error message =>
          -- the `catch` block ends the charge
          have hv : v = .charging params.paymentId := hr
          subst hv
          show Safe _ (prisma.payment.update _ _ >>= _) _ _ _
          rw [safe_bind]
          exact safe_end rfl (.inr rfl) (fun _ _ => .fail rfl (over_charging _ _) rfl)
            (fun _ _ => over_idle)

theorem executeSorobanBilling_lawful {params : SorobanBillingParams}
    (hcontract : hasSorobanContract cfg = true) (hlive : cfg.billing.testMode = false)
    (hrow : HasRow params.paymentId params.idempotencyKey w) :
    Safe chargeContract (executeSorobanBilling cfg params) (fun _ _ v => v.Over) w .idle := by
  unfold executeSorobanBilling
  rw [safe_bind]
  refine safe_perform.mpr (fun w₁ env hk₁ hf => ⟨.check, ?_⟩)
  have hstage : chargeContract.track .idle
        ⟨w₁, .paymentFindUnique (.byId params.paymentId), env⟩
      = if settledHash (w₁.payment? params.paymentId) = none then
          .charging params.paymentId else .idle := track_check params.paymentId w₁ env
  rw [hstage]
  rcases serve_paymentFindUnique (.byId params.paymentId) env w₁ with ⟨err, h⟩ | h
  · exact absurd h hf.not_error
  have hread : w₁.payments.find? (PaymentKey.byId params.paymentId).selects
      = w₁.payment? params.paymentId := rfl
  rw [h, andThen_ok, hread]
  cases settledHash (w₁.payment? params.paymentId) with
  | some hash =>
      -- the row is settled: the charge is skipped
      show (if (some hash : Option String) = none then _ else Stage.idle).Over
      rw [if_neg (by simp)]
      exact over_idle
  | none =>
      rw [if_pos rfl, hcontract, hlive]
      simp only [Bool.not_true, Bool.false_eq_true, if_false]
      unfold keypairFromSecret
      split
      swap
      · exact over_charging _
      show Safe _ (prisma.payment.update _ _ >>= _) _ _ _
      rw [safe_bind]
      refine safe_perform.mpr (fun w₂ env₂ hk₂ hf₂ => ⟨.processing rfl, ?_⟩)
      have hstay : chargeContract.track (.charging params.paymentId)
          ⟨w₂, .paymentUpdate params.paymentId { status := some .PROCESSING }, env₂⟩
          = .charging params.paymentId := track_processing params.paymentId w₂ env₂
      have hrow₂ := (keeps_after
        ⟨w₂, .paymentUpdate params.paymentId { status := some .PROCESSING }, env₂⟩).rows _ _
        (hk₂.rows _ _ (hk₁.rows _ _ hrow))
      rw [hstay]
      obtain ⟨a, ha⟩ := hf₂.answered
      rw [show (api.serve (.paymentUpdate params.paymentId { status := some .PROCESSING })
        env₂ w₂).1 = .ok a from ha, andThen_ok]
      exact attempted_lawful hrow₂

theorem quiet_emit (type : WebhookEventType) (pid : Option String)
    (payload : JavaScript.JsValue) :
    Calls api Call.isQuiet (emitWebhookEvent type pid payload) := by
  refine (emitWebhookEvent_calls type pid payload).mono (fun c h => ⟨?_, ?_, ?_⟩)
  · rcases h.region with hr | hr <;> rw [hr] <;> decide
  · rcases h.region with hr | hr <;> rw [hr] <;> decide
  · intro pid heq
    obtain rfl := heq
    exact h

theorem quiet_dateNow : Calls api Call.isQuiet dateNow :=
  calls_perform ⟨by decide, by decide, by simp⟩

theorem quiet_update (id : String) (data : SubscriptionData) :
    Calls api Call.isQuiet (prisma.subscription.update id data) :=
  calls_perform ⟨by simp [Call.region], by simp [Call.region], by simp⟩

theorem quiet_advance (sub : SubscriptionWithPlan) :
    Calls api Call.isQuiet (advancePeriod cfg sub) :=
  calls_bind (fun _ => calls_pure) (quiet_update _ _)

theorem handlePaymentFailure_lawful {sub : SubscriptionWithPlan} {pid : String} (hv : v.Over) :
    Safe chargeContract (handlePaymentFailure cfg sub pid) (fun _ _ v => v.Over) w v := by
  unfold handlePaymentFailure
  dsimp only
  split
  · refine safe_quiet ?_ (fun _ _ _ => hv)
    refine calls_bind (fun _ => ?_) quiet_dateNow
    exact calls_bind (fun _ => quiet_emit _ _ _) (quiet_update _ _)
  · rw [safe_bind]
    apply safe_quiet quiet_dateNow
    intro r w₁ _
    cases r with
    | error err => exact hv
    | ok now =>
        rw [andThen_ok, safe_bind]
        refine safe_perform.mpr (fun w₂ env _ _ => ⟨.retrying rfl, ?_⟩)
        show andThen _ _ _ _ _ v
        cases (api.serve _ env w₂).1 with
        | error err => exact hv
        | ok _ =>
            refine safe_quiet (calls_bind (fun _ => calls_pure) (quiet_update _ _)) ?_
            exact fun _ _ _ => hv

/-- The payment of the cycle has the key of the period, found or created. -/
theorem paymentFor_lawful {sub : SubscriptionWithPlan} {key : String} {w w₁ : World} {env : Env}
    {existing : Option Payment} (hkey : key = billingIdempotencyKey sub.id sub.currentPeriodEnd)
    (hserve : api.serve (.paymentFindUnique (.byKey key)) env w = (.ok existing, w₁)) :
    Safe chargeContract (processBillingCycle.paymentFor cfg sub key existing)
      (fun r w v => v = .idle ∧ ∀ p, r = .ok p → HasRow p.id key w) w₁ .idle := by
  subst hkey
  cases existing with
  | some payment =>
      refine ⟨rfl, fun p hp => ?_⟩
      cases hp
      rcases serve_paymentFindUnique
          (.byKey (billingIdempotencyKey sub.id sub.currentPeriodEnd)) env w with
        ⟨err, h⟩ | h
      · rw [h] at hserve
        cases hserve
      · rw [h] at hserve
        simp only [Prod.mk.injEq, Except.ok.injEq] at hserve
        obtain ⟨hfound, rfl⟩ := hserve
        obtain ⟨hp, hkey⟩ := paymentByKey?_eq_some.mp
          (show w.paymentByKey? _ = some payment from hfound)
        exact ⟨payment, hp, rfl, hkey⟩
  | none =>
      refine safe_perform.mpr (fun w₂ env₂ _ hf => ⟨.create, rfl, ?_⟩)
      intro p hp
      rcases serve_paymentCreate (processBillingCycle.paymentData cfg sub
          (billingIdempotencyKey sub.id sub.currentPeriodEnd)) env₂ w₂ with
        ⟨err, h⟩ | ⟨id, t, ht, h⟩
      · exact absurd h hf.not_error
      · rw [h] at hp ⊢
        cases hp
        exact ⟨_, (Table.mem_insert ht).mpr (.inr rfl), rfl, rfl⟩

/-- The charge of a stored payment. -/
theorem chargePayment_lawful {sub : SubscriptionWithPlan} {pid key : String}
    (hlive : cfg.billing.testMode = false) (hrow : HasRow pid key w) :
    Safe chargeContract (chargePayment cfg sub pid key) (fun _ _ v => v.Over) w .idle := by
  unfold chargePayment
  split
  next hsoroban =>
    have hcontract : hasSorobanContract cfg = true := by
      simp only [useSoroban, Bool.and_eq_true] at hsoroban
      exact hsoroban.1.2
    rw [safe_bind]
    apply (executeSorobanBilling_lawful hcontract hlive hrow).mono
    intro r w' v hv
    cases r <;> exact hv
  next =>
    rw [if_neg (by rw [hlive]; decide)]
    exact over_idle

/-- The rest of a billing cycle that found its subscription open. -/
theorem billing_rest_lawful {sub : SubscriptionWithPlan}
    (hlive : cfg.billing.testMode = false) :
    Safe chargeContract (processBillingCycle.rest cfg sub) (fun _ _ v => v.Over) w .idle := by
  unfold processBillingCycle.rest
  dsimp only
  rw [safe_bind]
  apply safe_ask rfl (by simp)
  intro w₁ env existing hk₁ _ hserve
  rw [andThen_ok]
  split
  · exact safe_quiet (quiet_advance sub) (fun _ _ _ => over_idle)
  · rw [safe_bind]
    apply (paymentFor_lawful rfl hserve).mono
    intro r w₂ v hpost
    obtain ⟨rfl, hrow⟩ := hpost
    cases r with
    | error err => exact over_idle
    | ok payment =>
        rw [andThen_ok, safe_tryCatch]
        unfold processBillingCycle.attempt
        rw [safe_bind]
        apply (chargePayment_lawful hlive (hrow payment rfl)).mono
        intro r w₃ v hv
        cases r with
        | error err => exact handlePaymentFailure_lawful hv
        | ok _ =>
            refine safe_quiet (calls_bind (fun _ => quiet_emit _ _ _) (quiet_advance sub)) ?_
            intro r w₄ _
            cases r with
            | ok _ => exact hv
            | error err => exact handlePaymentFailure_lawful hv

theorem processBillingCycle_lawful (hlive : cfg.billing.testMode = false) (x : String) :
    Safe chargeContract (processBillingCycle cfg x) (fun _ _ v => v.Over) w .idle := by
  unfold processBillingCycle
  rw [safe_bind]
  unfold prisma.subscription.findUniqueOrThrow
  rw [safe_bind]
  apply safe_ask rfl (by simp)
  intro w₁ _ found _ _ _
  rw [andThen_ok]
  cases found with
  | none => exact over_idle
  | some sub =>
      show Safe _ (if sub.status = .CANCELLED ∨ sub.status = .EXPIRED then _ else _) _ _ _
      split
      · exact over_idle
      · exact billing_rest_lawful hlive

theorem track_bystander (e : CallEvent) : trackStage .bystander e = .bystander := by
  unfold trackStage
  split
  · exact if_neg (by simp)
  · rfl
  · exact if_neg (by simp [Stage.pid?])
  · rfl

/-- **Every operation acts lawfully**, stage by stage. -/
theorem operation_lawful (hlive : cfg.billing.testMode = false) (op : Operation) :
    Safe chargeContract ((fun _ => ()) <$> op.body cfg) (fun _ _ v => v.Over) w
      (stageOf op) := by
  apply Safe.map
  cases hop : op.bills with
  | none =>
      have hstage : stageOf op = .bystander := by
        cases op <;> first | rfl | cases hop
      rw [hstage]
      refine (safe_of_calls (C := chargeContract) Keeps.refl (fun _ _ _ => Keeps.trans)
        (fun e he _ => ?_) (operation_calls cfg op hop)).mono ?_
      · exact ⟨.quiet he.region.1 he.region.2 (track_bystander e), keeps_after e,
          track_bystander e⟩
      · intro r w' v hpost
        obtain ⟨-, rfl⟩ := hpost
        cases r <;> exact fun _ _ => by simp
  | some x =>
      have hstage : stageOf op = .idle := by
        cases op <;> first | rfl | cases hop
      rw [hstage]
      exact safe_billing hop (processBillingCycle_lawful hlive x)

end Walk

/-! ## §3. The invariant. -/

/-- **The invariant**: no two executions are in the charge of one row; no key
was paid twice; what was paid is recorded, or the execution that submitted it
still is to record it; and a row in charge is not settled. -/
structure Charges (w : World) (vs : List Stage) : Prop where
  exclusive : (vs.filterMap Stage.pid?).Nodup
  atMostOne : ∀ key, w.paidFor key ≤ 1
  accounted : ∀ key, 0 < w.paidFor key → ∃ p ∈ w.payments, p.idempotencyKey = key
    ∧ (p.settled ∨ ∃ hash, .sent p.id hash (some .Paid) ∈ vs)
  unsettled : ∀ v ∈ vs, ∀ p ∈ w.payments, v.pid? = some p.id → ¬ p.settled

/-- What was paid stays accounted for while no execution that is still to
record a payment goes. -/
theorem Charges.accounted_in {w : World} {vs us : List Stage} (hc : Charges w vs)
    (h : ∀ pid hash, .sent pid hash (some .Paid) ∈ vs → .sent pid hash (some .Paid) ∈ us)
    {key : String} (hpaid : 0 < w.paidFor key) : ∃ p ∈ w.payments, p.idempotencyKey = key
      ∧ (p.settled ∨ ∃ hash, .sent p.id hash (some .Paid) ∈ us) := by
  obtain ⟨p, hp, hkey, hs | ⟨hash, hsent⟩⟩ := hc.accounted key hpaid
  · exact ⟨p, hp, hkey, .inl hs⟩
  · exact ⟨p, hp, hkey, .inr ⟨hash, h _ _ hsent⟩⟩

theorem Charges.perm {w : World} {vs us : List Stage} (h : vs.Perm us) (hc : Charges w vs) :
    Charges w us where
  exclusive := (h.filterMap Stage.pid?).nodup_iff.mp hc.exclusive
  atMostOne := hc.atMostOne
  accounted _ := hc.accounted_in (fun _ _ hsent => h.subset hsent)
  unsettled v hv := hc.unsettled v (h.symm.subset hv)

/-- The others are not in the charge of the row an execution charges. -/
theorem Charges.others {w : World} {v : Stage} {us : List Stage} (hc : Charges w (v :: us))
    {pid : String} (hv : v.pid? = some pid) : ∀ u ∈ us, u.pid? ≠ some pid := by
  intro u hu hpid
  have h := hc.exclusive
  rw [List.filterMap_cons_some hv] at h
  exact (List.nodup_cons.mp h).1 (List.mem_filterMap.mpr ⟨u, hu, hpid⟩)

theorem Charges.tail_exclusive {w : World} {v : Stage} {us : List Stage}
    (hc : Charges w (v :: us)) : (us.filterMap Stage.pid?).Nodup := by
  have h := hc.exclusive
  cases hv : v.pid? with
  | none => rwa [List.filterMap_cons_none hv] at h
  | some pid =>
      rw [List.filterMap_cons_some hv] at h
      exact (List.nodup_cons.mp h).2

/-- **Writes to the row in charge**: the write leaves it unsettled, or it
settles the row and ends the charge. -/
theorem Charges.update {w : World} {v v' : Stage} {us : List Stage} {pid : String}
    {data : PaymentData} {t : Table Payment Payment.Clash} {s : List Success}
    (hc : Charges w (v :: us)) (hv : v.pid? = some pid)
    (ht : w.payments.update? (·.id == pid) data.apply = some t)
    (hv' : v' = v ∨ v' = .idle)
    (hsettles : v' = .idle → v.Over ∨ ∀ p, (data.apply p).settled)
    (hopen : v' = v → ∀ p, ¬ (data.apply p).settled) :
    Charges { w with payments := t, successes := s } (v' :: us) := by
  have hothers := hc.others hv
  have hkeep : ∀ {p}, p ∈ w.payments → p.id ≠ pid → p ∈ t := fun hp hne =>
    Table.mem_update_of_not ht hp (by simpa using hne)
  constructor
  · rcases hv' with rfl | rfl
    · exact hc.exclusive
    · exact hc.tail_exclusive
  · exact hc.atMostOne
  · intro key hpaid
    obtain ⟨p, hp, hkey, hs | ⟨hash, hsent⟩⟩ := hc.accounted key hpaid
    · -- a settled row is not in charge, so it is not the one written
      have hne : p.id ≠ pid := fun he => hc.unsettled v (by simp) p hp (he ▸ hv) hs
      exact ⟨p, hkeep hp hne, hkey, .inl hs⟩
    · rcases List.mem_cons.mp hsent with heq | hsent
      · -- the submitted transaction is our own
        have hpid : p.id = pid := by
          rw [← heq] at hv
          exact Option.some.inj hv
        rcases hv' with rfl | rfl
        · refine ⟨data.apply p, Table.mem_update_of_selected ht hp (by simpa using hpid), hkey,
            .inr ⟨hash, ?_⟩⟩
          rw [PaymentData.apply_id, ← heq]
          exact List.mem_cons_self
        · rcases hsettles rfl with hover | hset
          · exact absurd heq.symm (hover _ _)
          · exact ⟨data.apply p, Table.mem_update_of_selected ht hp (by simpa using hpid), hkey,
              .inl (hset p)⟩
      · -- another execution has submitted, for another row
        have hne : p.id ≠ pid := fun he => hothers _ hsent (congrArg some he)
        exact ⟨p, hkeep hp hne, hkey, .inr ⟨hash, List.mem_cons_of_mem _ hsent⟩⟩
  · intro u hu p hp hpid
    rcases Table.update_origin ht hp with hp | ⟨r, -, hsel, rfl⟩
    · rcases List.mem_cons.mp hu with rfl | hu
      · rcases hv' with rfl | rfl
        · exact hc.unsettled _ (by simp) p hp hpid
        · cases hpid
      · exact hc.unsettled u (List.mem_cons_of_mem _ hu) p hp hpid
    · have hsel : r.id = pid := beq_iff_eq.mp hsel
      rcases List.mem_cons.mp hu with rfl | hu
      · rcases hv' with rfl | rfl
        · exact hopen rfl r
        · cases hpid
      · have hpid : u.pid? = some r.id := hpid
        exact absurd (hsel ▸ hpid) (hothers u hu)

theorem Charges.check {w : World} {us : List Stage} {pid : String} {env : Env}
    (hc : Charges w (.idle :: us)) (hone : ∀ u ∈ us, u.pid? ≠ some pid) :
    Charges w (trackStage .idle ⟨w, .paymentFindUnique (.byId pid), env⟩ :: us) := by
  show Charges w ((if _ ∧ settledHash (w.payment? pid) = none then .charging pid else .idle) :: us)
  split
  next h =>
    refine ⟨?_, hc.atMostOne, fun key hpaid => ?_, fun u hu p hp hpid => ?_⟩
    · have hpid : (Stage.charging pid).pid? = some pid := rfl
      rw [List.filterMap_cons_some hpid]
      refine List.nodup_cons.mpr ⟨fun hmem => ?_, hc.tail_exclusive⟩
      obtain ⟨u, hu, hpid⟩ := List.mem_filterMap.mp hmem
      exact hone u hu hpid
    · apply hc.accounted_in _ hpaid
      intro pid' hash hsent
      rcases List.mem_cons.mp hsent with heq | hsent
      · cases heq
      · exact List.mem_cons_of_mem _ hsent
    · rcases List.mem_cons.mp hu with rfl | hu
      · -- the check has let the row pass
        have hrow : w.payment? pid = some p :=
          payment?_eq_some.mpr ⟨hp, (Option.some.inj hpid).symm⟩
        rw [Payment.settled, ← hrow, h.2]
        simp
      · exact hc.unsettled u (List.mem_cons_of_mem _ hu) p hp hpid
  next => exact hc

theorem Charges.create {w : World} {vs : List Stage} {data : PaymentCreate} {id : String}
    {t : Table Payment Payment.Clash} (hc : Charges w vs)
    (ht : w.payments.insert? (data.row id) = some t) :
    Charges { w with payments := t } vs := by
  refine ⟨hc.exclusive, hc.atMostOne, fun key hpaid => ?_, fun u hu p hp hpid => ?_⟩
  · obtain ⟨p, hp, hkey, h⟩ := hc.accounted key hpaid
    exact ⟨p, (Table.mem_insert ht).mpr (.inl hp), hkey, h⟩
  · rcases (Table.mem_insert ht).mp hp with hp | rfl
    · exact hc.unsettled u hu p hp hpid
    · rw [settled_iff]
      simp [PaymentCreate.row]

theorem Charges.retrying {w : World} {vs : List Stage} {subscriptionId : String}
    {data : PaymentData} {t : Table Payment Payment.Clash} (hc : Charges w vs)
    (hd : data.status = some .RETRYING)
    (ht : w.payments.update? (fun p => p.subscriptionId == subscriptionId && p.status == .FAILED)
      data.apply = some t) :
    Charges { w with payments := t } vs := by
  refine ⟨hc.exclusive, hc.atMostOne, fun key hpaid => ?_, fun u hu p hp hpid => ?_⟩
  · obtain ⟨p, hp, hkey, hs | ⟨hash, hsent⟩⟩ := hc.accounted key hpaid
    · -- a settled row is not FAILED, so it is not marked
      refine ⟨p, Table.mem_update_of_not ht hp ?_, hkey, .inl hs⟩
      simp [(settled_iff.mp hs).1]
    · rcases Table.update_fate ht hp with hp | ⟨-, hwritten⟩
      · exact ⟨p, hp, hkey, .inr ⟨hash, hsent⟩⟩
      · exact ⟨data.apply p, hwritten, hkey, .inr ⟨hash, hsent⟩⟩
  · rcases Table.update_origin ht hp with hp | ⟨r, -, -, rfl⟩
    · exact hc.unsettled u hu p hp hpid
    · rw [settled_iff]
      simp [PaymentData.apply, hd]

/-- **A submission**: nothing was paid for the key, because the row is neither
settled nor in the charge of another execution. -/
theorem Charges.send {w : World} {us : List Stage} {pid key hash : String}
    {invocation : Invocation} {applied : Option BillingOutcome}
    (hc : Charges w (.charging pid :: us)) (hrow : HasRow pid key w) :
    Charges { w with chain := w.chain ++ [⟨hash, key, invocation, applied⟩] }
      (.sent pid hash applied :: us) := by
  obtain ⟨q, hq, hqid, hqkey⟩ := hrow
  have hothers : ∀ u ∈ us, u.pid? ≠ some pid := hc.others rfl
  have hnone : w.paidFor key = 0 := by
    by_contra hpos
    -- what was paid for the key is accounted for by the row in charge itself
    obtain ⟨p, hp, hkey, h⟩ := hc.accounted key (Nat.pos_of_ne_zero hpos)
    have hpq : p = q := Table.eq_of_clash hp hq (.inr (.inl (hkey.trans hqkey.symm)))
    rcases h with hs | ⟨hash', hsent⟩
    · exact hc.unsettled (.charging pid) (by simp) p hp (by rw [hpq, hqid]; rfl) hs
    · rcases List.mem_cons.mp hsent with heq | hsent
      · cases heq
      · exact hothers _ hsent (by rw [hpq, hqid]; rfl)
  refine ⟨hc.exclusive, fun key' => ?_, fun key' hpaid => ?_, fun u hu p hp hpid => ?_⟩
  · rw [paidFor_append]
    split
    next h =>
      have hkey' : key = key' := h.1
      rw [← hkey', hnone]
    next => exact hc.atMostOne key'
  · rw [paidFor_append] at hpaid
    split at hpaid
    next h =>
      have hkey' : key = key' := h.1
      have happlied : applied = some .Paid := h.2
      refine ⟨q, hq, hqkey.trans hkey', .inr ⟨hash, ?_⟩⟩
      rw [hqid, happlied]
      exact List.mem_cons_self
    next =>
      apply hc.accounted_in _ hpaid
      intro pid' hash' hsent
      rcases List.mem_cons.mp hsent with heq | hsent
      · cases heq
      · exact List.mem_cons_of_mem _ hsent
  · rcases List.mem_cons.mp hu with rfl | hu
    · exact hc.unsettled (.charging pid) (by simp) p hp hpid
    · exact hc.unsettled u (List.mem_cons_of_mem _ hu) p hp hpid

/-- A world with the same payment rows and the same chain. -/
theorem Charges.same {w w' : World} {vs : List Stage} (hc : Charges w vs)
    (hp : w'.payments = w.payments) (hch : w'.chain = w.chain) : Charges w' vs := by
  have hpaid : ∀ key, w'.paidFor key = w.paidFor key := fun key => by
    rw [World.paidFor, World.paidFor, hch]
  refine ⟨hc.exclusive, fun key => ?_, fun key h => ?_, fun u hu p h => ?_⟩
  · rw [hpaid]
    exact hc.atMostOne key
  · rw [hp]
    exact hc.accounted key (hpaid key ▸ h)
  · exact hc.unsettled u hu p (hp ▸ h)

/-- The answered call that writes the row in charge. -/
theorem Charges.written {w : World} {v v' : Stage} {us : List Stage} {pid : String}
    {data : PaymentData} {env : Env} (hc : Charges w (v :: us))
    (hf : Faultless ⟨w, .paymentUpdate pid data, env⟩) (hv : v.pid? = some pid)
    (hv' : v' = v ∨ v' = .idle) (hsettles : v' = .idle → v.Over ∨ ∀ p, (data.apply p).settled)
    (hopen : v' = v → ∀ p, ¬ (data.apply p).settled) :
    Charges (api.serve (.paymentUpdate pid data) env w).2 (v' :: us) := by
  rcases serve_paymentUpdate pid data env w with ⟨err, h⟩ | ⟨old, t, -, ht, h⟩
  · exact absurd h hf.not_error
  · rw [h]
    exact hc.update hv ht hv' hsettles hopen

/-- **What one call preserves.** -/
theorem Lawful.charges {v : Stage} {e : CallEvent} {us : List Stage} (hl : Lawful v e)
    (hf : Faultless e) (hc : Charges e.before (v :: us)) (hone : OneAtATime v us e) :
    Charges (e.after api) (trackStage v e :: us) := by
  cases hl with
  | @quiet v e h₁ h₂ htrack =>
      rw [htrack]
      have hchanged := serve_changed e.call e.env e.before
      exact hc.same (hchanged.payments_eq h₁).1 (hchanged.chain_eq h₂)
  | @create v w data env =>
      show Charges (api.serve _ env w).2 (v :: us)
      rcases serve_paymentCreate data env w with ⟨err, h⟩ | ⟨id, t, ht, h⟩
      · exact absurd h hf.not_error
      · rw [h]
        exact hc.create ht
  | @check w pid env =>
      show Charges (api.serve _ env w).2 _
      rw [serve_read rfl]
      -- nobody else is charging this payment
      exact hc.check (hone pid rfl rfl)
  | @processing w pid data env hd =>
      have htrack : trackStage (.charging pid) ⟨w, .paymentUpdate pid data, env⟩
          = .charging pid := if_neg (by simp [hd])
      rw [htrack]
      refine hc.written hf rfl (.inl rfl) (fun h => by cases h) (fun _ p => ?_)
      -- PROCESSING settles nothing
      rw [settled_iff]
      simp [PaymentData.apply, hd]
  | @send w pid key invocation env hrow =>
      obtain ⟨hash, applied, -, hnet⟩ := hf.accepts _ _ rfl
      have hnet : env.network = .accepted hash applied := hnet
      rw [track_send hnet]
      show Charges (api.serve _ env w).2 _
      rcases serve_sendTransaction key invocation env w with
        ⟨err, h⟩ | ⟨detail, hr, -⟩ | ⟨hash', applied', hn, h⟩
      · exact absurd h hf.not_error
      · rw [hnet] at hr
        cases hr
      · rw [hnet] at hn
        cases hn
        rw [h]
        exact hc.send hrow
  | @settle w pid hash applied data env hne hd hhash =>
      rw [track_end rfl (.inl hd) w env]
      refine hc.written hf rfl (.inr rfl) (fun _ => .inr (fun p => ?_)) (fun h => by cases h)
      -- SUCCESS with the hash of the accepted transaction settles the row
      rw [settled_iff]
      exact ⟨by simp [PaymentData.apply, hd], hash, by simp [PaymentData.apply, hhash], hne⟩
  | @fail v w pid data env hv hover hd =>
      rw [track_end hv (.inr hd) w env]
      -- FAILED follows no transaction of its own that was applied as Paid
      refine hc.written hf hv (.inr rfl) (fun _ => .inl ?_) (fun h => ?_)
      · intro pid' hash heq
        rw [heq] at hv
        cases hv
        exact hover hash heq
      · rw [← h] at hv
        cases hv
  | @retrying v w subscriptionId data env hd =>
      show Charges (api.serve _ env w).2 (v :: us)
      rcases serve_paymentUpdateMany subscriptionId .FAILED data env w with
        ⟨err, h⟩ | ⟨t, ht, h⟩
      · exact absurd h hf.not_error
      · rw [h]
        exact hc.retrying hd ht

/-! ## §4. The pool. -/

/-- The backend, with the stage of each charge. -/
abbrev charges (cfg : Config) : System Api World Env Operation Stage :=
  concurrent cfg stageOf trackStage

/-- A faultless call that meets the condition. -/
def FaultlessOneAtATime : Condition Api World Env Stage := fun v others e =>
  Faultless e ∧ OneAtATime v others e

def chargesContract (cfg : Config) : Contract api Stage :=
  interference (charges cfg) FaultlessOneAtATime Charges Keeps

theorem operation_charges {cfg : Config} (hlive : cfg.billing.testMode = false) {w : World}
    (op : Operation) :
    Safe (chargesContract cfg) ((charges cfg).body op) (fun _ _ v => v.Over) w
      (stageOf op) := by
  have hlawful : Safe chargeContract ((charges cfg).body op) (fun _ _ v => v.Over) w
      (stageOf op) := operation_lawful hlive op
  -- a lawful call keeps the invariant, wherever the execution stands in the pool
  refine hlawful.weaken (fun _ _ h => h) ?_ ?_ rfl
  · intro v e h
    obtain ⟨pre, post, -, hf, -⟩ := h
    exact hf
  · intro v e _ hl
    refine ⟨keeps_after e, fun pre post hc ⟨hf, hone⟩ => ?_⟩
    have hc' := hl.charges hf (hc.perm List.perm_middle) hone
    exact hc'.perm List.perm_middle.symm

def chargeDiscipline (cfg : Config) (hlive : cfg.billing.testMode = false) :
    Discipline (charges cfg) FaultlessOneAtATime where
  inv := Charges
  rely := Keeps
  ended := Stage.Over
  rely_refl := Keeps.refl
  rely_trans _ _ _ := Keeps.trans
  start w vs op hc _ := by
    have hpid : (stageOf op).pid? = none := by cases op <;> rfl
    have hperm : (stageOf op :: vs).Perm (vs ++ [stageOf op]) :=
      (List.perm_append_singleton (stageOf op) vs).symm
    refine ⟨Charges.perm hperm
      ⟨?_, hc.atMostOne, fun key hpaid => ?_, fun u hu p hp hu' => ?_⟩, operation_charges hlive op⟩
    · rw [List.filterMap_cons_none hpid]
      exact hc.exclusive
    · exact hc.accounted_in (fun _ _ hsent => List.mem_cons_of_mem _ hsent) hpaid
    · rcases List.mem_cons.mp hu with rfl | hu
      · rw [hpid] at hu'
        cases hu'
      · exact hc.unsettled u hu p hp hu'
  leave w pre v post hover hc := by
    have hc' := hc.perm List.perm_middle
    refine ⟨hc'.tail_exclusive, hc.atMostOne, fun key hpaid => ?_, fun u hu => ?_⟩
    · -- an execution that ends has nothing left to record
      apply hc'.accounted_in _ hpaid
      intro pid hash hsent
      rcases List.mem_cons.mp hsent with heq | hsent
      · exact absurd heq.symm (hover _ _)
      · exact hsent
    · exact hc'.unsettled u (List.mem_cons_of_mem _ hu)
  drift w w' vs hd hc := by
    obtain ⟨q, -, rfl⟩ := hd
    exact ⟨hc.same rfl rfl, ⟨fun _ _ h => h, fun _ h => h⟩⟩

/-- **One charge for each period, one at a time**: in every interleaving of
any number of operations of a live backend in which no step fails, the RPC is
truthful, and no execution makes the SUCCESS check on a payment row while
another is in the charge of that row, at most one transaction submitted for
an idempotency key is applied as Paid. -/
theorem charged_at_most_once (cfg : Config) (hlive : cfg.billing.testMode = false)
    (w₀ : World) (hchain : w₀.chain = []) (P : Pool Api World Stage)
    (h : Pool.Run (charges cfg) FaultlessOneAtATime ⟨w₀, []⟩ P) (key : String) :
    P.world.paidFor key ≤ 1 := by
  have hnone : ∀ key, w₀.paidFor key = 0 := fun key => by simp [World.paidFor, hchain]
  have hidle : (chargeDiscipline cfg hlive).Sound ⟨w₀, []⟩ := by
    refine Discipline.sound_idle ⟨List.nodup_nil, fun key => ?_, fun key hpaid => ?_, ?_⟩
    · rw [hnone]
      exact Nat.zero_le 1
    · rw [hnone] at hpaid
      exact absurd hpaid (Nat.lt_irrefl 0)
    · intro u hu
      cases hu
  exact (Discipline.run h hidle).1.1.atMostOne key

/-! ## §5. Scenarios. -/

/-- `Faultless` as a test, for results that are strings. -/
def faultless (e : CallEvent) : Bool :=
  (match e.response api with
    | .ok _ => true
    | .error _ => false)
  && match e.call with
    | .simulateTransaction _ => (e.env.network matches .simulated none)
    | .sendTransaction _ _ =>
        match e.env.network with
        | .accepted hash _ => hash != ""
        | _ => false
    | .awaitTransaction hash =>
        match (api.serve (.awaitTransaction hash) e.env e.before).1 with
        | .ok (.string s) =>
            e.before.chain.all (fun tx => tx.hash != hash || tx.applied.any (·.name == s))
        | _ => false
    | _ => true

theorem faultless_sound {e : CallEvent} (h : faultless e = true) : Faultless e := by
  obtain ⟨w, c, env⟩ := e
  obtain ⟨hanswer, hcall⟩ := Bool.and_eq_true_iff.mp h
  refine ⟨?_, ?_, ?_, ?_⟩
  · split at hanswer
    next a ha => exact ⟨a, ha⟩
    next => cases hanswer
  · intro invocation heq
    obtain rfl := heq
    dsimp only at hcall ⊢
    split at hcall
    next hn => exact hn
    next => cases hcall
  · intro key invocation heq
    obtain rfl := heq
    dsimp only at hcall ⊢
    split at hcall
    next hash applied hn => exact ⟨hash, applied, by simpa using hcall, hn⟩
    next => cases hcall
  · intro hash heq tx htx hhash
    obtain rfl := heq
    dsimp only at hcall htx ⊢
    split at hcall
    next s hs =>
      have htx' := List.all_eq_true.mp hcall tx htx
      have hne : (tx.hash != hash) = false := by simpa using hhash
      rw [hne, Bool.false_or, Option.any_eq_true] at htx'
      obtain ⟨o, ho, hname⟩ := htx'
      have hname : s = o.name := (beq_iff_eq.mp hname).symm
      exact ⟨o, .string s, ho, hname, Prod.ext hs (serve_read rfl env w)⟩
    next => cases hcall

section Scenarios

open Shop

/-- The calls of one submission, from PROCESSING to the result. -/
def submission (i : Nat) (hash : String) : List (Choice Operation Env) :=
  [.act i (on 2), .act i (answered 2 .account), .act i (answered 2 (.simulated none)),
   .act i (answered 2 (.accepted hash (some .Paid))),
   .act i (answered 2 (.polled (.SUCCESS (some (.string "Paid"))) (day 2) []))]

/-- Two billing cycles make their checks before either submits. -/
def twoWorkers : List (Choice Operation Env) :=
  [.start (.runInline "sub"), .start (.runInline "sub"),
   .act 0 (on 2), .act 1 (on 2), .act 0 (on 2), .act 0 (fresh 2 "pay"), .act 1 (on 2),
   .act 0 (on 2), .act 1 (on 2)] ++ submission 0 "tx1" ++ submission 1 "tx2"

/-- **Two workers charge one period twice**, without a failing step. -/
theorem charged_twice :
    ¬ ∀ (cfg : Config), cfg.billing.testMode = false → ∀ (w₀ : World), w₀.chain = [] →
      ∀ (P : Pool Api World Stage),
        Pool.Run (charges cfg) (fun _ _ e => Faultless e) ⟨w₀, []⟩ P →
        ∀ key, P.world.paidFor key ≤ 1 := by
  intro hclaim
  have hrun : (Pool.advance (charges (cfg false)) (fun _ _ e => faultless e) twoWorkers
      ⟨world plan sub, []⟩).map
        (fun P => P.world.paidFor (billingIdempotencyKey "sub" (day 2))) = some 2 := by
    decide +kernel
  obtain ⟨P, hP, hpaid⟩ := Option.map_eq_some_iff.mp hrun
  have h := hclaim (cfg false) rfl (world plan sub) rfl P
    (Pool.advance_run (fun _ _ _ => faultless_sound) hP)
    (billingIdempotencyKey "sub" (day 2))
  rw [hpaid] at h
  exact absurd h (by decide)

/-- `OneAtATime` as a test. -/
def oneAtATime (others : List Stage) (e : CallEvent) : Bool :=
  match e.call with
  | .paymentFindUnique (.byId pid) => others.all (fun u => u.pid? != some pid)
  | _ => true

theorem oneAtATime_sound {v : Stage} {others : List Stage} {e : CallEvent}
    (h : oneAtATime others e = true) : OneAtATime v others e := by
  intro pid hcall _ u hu
  unfold oneAtATime at h
  rw [hcall] at h
  simpa using List.all_eq_true.mp h u hu

/-- The second worker starts when the first has recorded its payment. -/
theorem charged_once_shop :
    ∃ P, Pool.Run (charges (cfg false)) FaultlessOneAtATime ⟨world plan sub, []⟩ P
      ∧ P.world.paidFor (billingIdempotencyKey "sub" (day 2)) = 1
      ∧ ∀ key, P.world.paidFor key ≤ 1 := by
  have hrun : (Pool.advance (charges (cfg false))
      (fun _ others e => faultless e && oneAtATime others e)
      ([.start (.runInline "sub"), .start (.runInline "sub"), .act 0 (on 2), .act 0 (on 2),
        .act 0 (fresh 2 "pay"), .act 0 (on 2)] ++ submission 0 "tx1"
        ++ [.act 0 (on 2), .act 1 (on 2), .act 1 (on 2)]) ⟨world plan sub, []⟩).map
        (fun P => P.world.paidFor (billingIdempotencyKey "sub" (day 2))) = some 1 := by
    decide +kernel
  obtain ⟨P, hP, hpaid⟩ := Option.map_eq_some_iff.mp hrun
  have h : Pool.Run (charges (cfg false)) FaultlessOneAtATime ⟨world plan sub, []⟩ P := by
    refine Pool.advance_run (fun v vs e hok => ?_) hP
    obtain ⟨hf, hone⟩ := Bool.and_eq_true_iff.mp hok
    exact ⟨faultless_sound hf, oneAtATime_sound hone⟩
  exact ⟨P, h, hpaid, charged_at_most_once (cfg false) rfl (world plan sub) rfl P h⟩

end Scenarios

end Sorobill
