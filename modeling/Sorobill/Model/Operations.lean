/-
  Sorobill.Model.Operations
  ─────────────────────────
  **THE ENTRY POINTS**: `src/routes/subscriptions.ts`,
  `src/routes/payments.ts`, `src/routes/billing.ts`,
  `src/workers/billing.worker.ts`, `src/queues/index.ts`.

  An `Operation` is one execution of an entry point: a request, a job that
  the billing worker takes, or a tick of the scheduler.  The requests that
  only read are left out.
-/
import Sorobill.Library.History
import Sorobill.Library.Pool
import Sorobill.Model.Services

namespace Sorobill

open Effect
open JobQueue (Job Queue)

/-! ## §1. Replies. -/

inductive ReplyBody where
  | error (message : String)
  /-- `body.error.flatten()` of a request that does not parse. -/
  | invalid
  | subscription (sub : Subscription)
  | queued (id : String)
  | ok
  deriving DecidableEq

structure HttpReply where
  status : Nat
  body : ReplyBody
  deriving DecidableEq

/-! ## §2. `routes/subscriptions`. -/

structure CreateSubscription where
  planId : String
  walletAddress : String

/-- `z.string().length(56)` counts UTF-16 code units. -/
def utf16Length (s : String) : Nat :=
  (s.toList.map (fun c => if c.val < 0x10000 then 1 else 2)).sum

/-- The `data` of the subscription created at `now`. -/
def subscriptions.createData (cfg : Config) (plan : Plan) (wallet : Wallet) (now : Instant) :
    SubscriptionCreate :=
  -- `some none` is a trial whose end is an Invalid Date
  let trialEndsAt : Option JsDate :=
    if plan.trialDays > 0 then some (timeClip (now.ms + plan.trialDays * msPerDay)) else none
  let periodStart : JsDate := trialEndsAt.getD (some now)
  let periodEnd : JsDate :=
    periodStart.bind (fun start => nextPeriod cfg.tz start plan.interval plan.intervalCount)
  { planId := plan.id
    walletId := wallet.id
    status := if trialEndsAt.isSome then .TRIALING else .ACTIVE
    currentPeriodStart := periodStart
    currentPeriodEnd := periodEnd
    trialEndsAt
    contractPlanId := plan.contractPlanId }

/-- `POST /subscriptions`. -/
def subscriptions.create (cfg : Config) (body : CreateSubscription) : Service HttpReply := do
  if utf16Length body.walletAddress ≠ 56 then
    pure ⟨400, .invalid⟩
  else
    let found ← prisma.plan.findUnique body.planId
    match found.filter (·.isActive) with
    | none => pure ⟨404, .error "Plan not found"⟩
    | some plan =>
        let wallet ← prisma.wallet.upsert body.walletAddress
        let now ← dateNow
        let sub ← prisma.subscription.create (createData cfg plan wallet now)
        emitWebhookEvent .SUBSCRIPTION_CREATED none (.object [("subscriptionId", .string sub.id)])
        pure ⟨201, .subscription sub⟩

/-- `immediately ? new Date() : null`. -/
def subscriptions.cancelledAt (immediately : Bool) : Service (Option JsDate) := do
  if immediately then
    let now ← dateNow
    pure (some (some now))
  else pure none

/-- `POST /subscriptions/:id/cancel`. -/
def subscriptions.cancel (id : String) (immediately : Bool) : Service HttpReply := do
  match ← prisma.subscription.findUnique id with
  | none => pure ⟨404, .error "Subscription not found"⟩
  | some sub =>
      let cancelledAt ← cancelledAt immediately
      -- a cancellation at the period end writes back the status it has read
      let updated ← prisma.subscription.update id
        { cancelAtPeriodEnd := some (!immediately)
          status := some (if immediately then .CANCELLED else sub.status)
          cancelledAt := some cancelledAt }
      emitWebhookEvent .SUBSCRIPTION_CANCELLED none (.object
        [("subscriptionId", .string sub.id), ("immediately", .bool immediately)])
      pure ⟨200, .subscription updated⟩

/-- `POST /subscriptions/:id/pause`. -/
def subscriptions.pause (id : String) : Service HttpReply := do
  match ← prisma.subscription.findUnique id with
  | none => pure ⟨404, .error "Subscription not found"⟩
  | some sub =>
      if sub.paused then
        pure ⟨409, .error "Already paused"⟩
      else
        let updated ← prisma.subscription.update id { paused := some true }
        pure ⟨200, .subscription updated⟩

/-- `POST /subscriptions/:id/resume`. -/
def subscriptions.resume (cfg : Config) (id : String) : Service HttpReply := do
  match ← prisma.subscription.findUniqueWithPlan id with
  | none => pure ⟨404, .error "Subscription not found"⟩
  | some sub =>
      if !sub.paused then
        pure ⟨409, .error "Not paused"⟩
      else
        -- the period starts anew; status, grace period and retries are kept
        let now ← dateNow
        let updated ← prisma.subscription.update id
          { paused := some false
            currentPeriodStart := some (some now)
            currentPeriodEnd :=
              some (nextPeriod cfg.tz now sub.plan.interval sub.plan.intervalCount) }
        pure ⟨200, .subscription updated⟩

/-! ## §3. `routes/payments` and `routes/billing`. -/

/-- `POST /payments/:id/retry`. -/
def payments.retry (id : String) : Service HttpReply := do
  match ← prisma.payment.findUnique (.byId id) with
  | none => pure ⟨404, .error "Payment not found"⟩
  | some payment =>
      if payment.status ≠ .FAILED ∧ payment.status ≠ .RETRYING then
        pure ⟨400, .error "Payment is not in a retryable state"⟩
      else
        let now ← dateNow
        billingQueue.add "retry-payment" payment.subscriptionId
          (some s!"retry:{payment.id}:{now.ms}")
        pure ⟨200, .queued payment.id⟩

/-- `POST /billing/run/:subscriptionId`. -/
def billing.run (subscriptionId : String) : Service HttpReply := do
  -- without a `jobId` nothing is deduplicated
  billingQueue.add "bill" subscriptionId none
  pure ⟨202, .queued subscriptionId⟩

/-- `POST /billing/run-inline`. -/
def billing.runInline (cfg : Config) (subscriptionId : String) : Service HttpReply := do
  processBillingCycle cfg subscriptionId
  pure ⟨200, .ok⟩

/-! ## §4. `billing.worker`. -/

/-- `defaultJobOptions` of `billingQueue`. -/
def billingJobOptions : JobQueue.Options :=
  { attempts := 3, removeOnComplete := 100, removeOnFail := 500 }

/-- Worker: processes a single subscription billing cycle. -/
def billingWorker (cfg : Config) (job : Job String) : Service Unit :=
  processBillingCycle cfg job.data

/-- `billing:${sub.id}:${sub.currentPeriodEnd.toISOString()}`. -/
def billingJobId (sub : Subscription) : String :=
  "billing:" ++ billingIdempotencyKey sub.id sub.currentPeriodEnd

def scheduleBillingJobs.enqueue (sub : Subscription) : Service Unit :=
  billingQueue.add "process-subscription" sub.id (some (billingJobId sub))

/-- Scheduler: runs every minute, enqueues due subscriptions. -/
def scheduleBillingJobs : Service Unit := do
  let due ← findDueSubscriptions
  Prog.forEach due scheduleBillingJobs.enqueue
  -- reached only if every `queue.add` was answered
  expireGracePeriods

/-! ## §5. Operations. -/

inductive Operation where
  | createSubscription (body : CreateSubscription)
  | cancel (id : String) (immediately : Bool)
  | pause (id : String)
  | resume (id : String)
  | retryPayment (paymentId : String)
  | runBilling (subscriptionId : String)
  | runInline (subscriptionId : String)
  | billingJob (job : Job String)
  | tick
  | expireGracePeriods

/-- What the operation executes; requests yield their reply. -/
def Operation.body (cfg : Config) : Operation → Service (Option HttpReply)
  | .createSubscription body => some <$> subscriptions.create cfg body
  | .cancel id immediately => some <$> subscriptions.cancel id immediately
  | .pause id => some <$> subscriptions.pause id
  | .resume id => some <$> subscriptions.resume cfg id
  | .retryPayment paymentId => some <$> payments.retry paymentId
  | .runBilling subscriptionId => some <$> billing.run subscriptionId
  | .runInline subscriptionId => some <$> billing.runInline cfg subscriptionId
  | .billingJob job => (fun _ => none) <$> billingWorker cfg job
  | .tick => (fun _ => none) <$> scheduleBillingJobs
  | .expireGracePeriods => (fun _ => none) <$> Sorobill.expireGracePeriods

/-- A job is executed only while the queue has it unfinished. -/
def Operation.Enabled (w : World) : Operation → Prop
  | .billingJob job => ∃ phase, (phase, job) ∈ w.billingQueue.unfinished
  | _ => True

/-- The worker's bookkeeping: a job is taken, has returned or has thrown. -/
inductive QueueStep : Queue String → Queue String → Prop where
  | phase {q} (id : String) (phase : JobQueue.Phase) : QueueStep q (q.setPhase id phase)
  | complete {q} {phase} (job : Job String) :
      (phase, job) ∈ q.unfinished → QueueStep q (q.complete billingJobOptions job)
  | failAttempt {q} {phase} (job : Job String) :
      (phase, job) ∈ q.unfinished → QueueStep q (q.failAttempt billingJobOptions job)

/-- The subscription whose billing cycle the operation runs. -/
def Operation.bills : Operation → Option String
  | .runInline id => some id
  | .billingJob job => some job.data
  | _ => none

/-- An executed operation. -/
abbrev Step : Type := Execution Api World Env Operation (Option HttpReply)

/-- The clock does not go back. -/
def Clocked (xs : List Step) : Prop :=
  (xs.flatMap (·.trace)).Pairwise (fun e e' => e.env.now ≤ e'.env.now)

instance (xs : List Step) : Decidable (Clocked xs) :=
  inferInstanceAs (Decidable (List.Pairwise _ _))

theorem clocked_append {past : List Step} {x : Step} :
    Clocked (past ++ [x]) ↔ Clocked past
      ∧ x.trace.Pairwise (fun e e' => e.env.now ≤ e'.env.now)
      ∧ ∀ e ∈ past.flatMap (·.trace), ∀ e' ∈ x.trace, e.env.now ≤ e'.env.now := by
  unfold Clocked
  rw [List.flatMap_append, List.pairwise_append, List.flatMap_singleton]

theorem Clocked.of_prefix {past xs : List Step} (h : Clocked xs) (hpast : past <+: xs) :
    Clocked past := by
  obtain ⟨rest, rfl⟩ := hpast
  unfold Clocked at h
  rw [List.flatMap_append, List.pairwise_append] at h
  exact h.1

/-! ## §6. The running backend. -/

/-- **The backend, one operation at a time**, with the bookkeeping of the
worker in between. -/
def serial (cfg : Config) : Serial Api World Env Operation (Option HttpReply) where
  backend := api
  body op := op.body cfg
  enabled w op := op.Enabled w
  drift w w' := ∃ q, QueueStep w.billingQueue q ∧ w' = { w with billingQueue := q }

/-- **The running backend**: any number of operations, interleaved call by
call, and the bookkeeping of the worker.  `view` and `track` are what a
reader wants to remember of each execution. -/
def concurrent {σ : Type} (cfg : Config) (view : Operation → σ)
    (track : σ → CallEvent → σ) : System Api World Env Operation σ where
  backend := api
  body op := (fun _ => ()) <$> op.body cfg
  view
  track
  enabled w op := op.Enabled w
  drift w w' := ∃ q, QueueStep w.billingQueue q ∧ w' = { w with billingQueue := q }

/-- The running backend, with nothing remembered of its executions. -/
abbrev running (cfg : Config) : System Api World Env Operation Unit :=
  concurrent cfg (fun _ => ()) (fun v _ => v)

instance (w : World) : (op : Operation) → Decidable (op.Enabled w)
  | .billingJob job =>
      decidable_of_iff (job ∈ w.billingQueue.unfinished.map Prod.snd) (by
        simp [Operation.Enabled])
  | .createSubscription _ => .isTrue trivial
  | .cancel _ _ => .isTrue trivial
  | .pause _ => .isTrue trivial
  | .resume _ => .isTrue trivial
  | .retryPayment _ => .isTrue trivial
  | .runBilling _ => .isTrue trivial
  | .runInline _ => .isTrue trivial
  | .tick => .isTrue trivial
  | .expireGracePeriods => .isTrue trivial

instance (cfg : Config) (w : World) (op : Operation) : Decidable ((serial cfg).enabled w op) :=
  inferInstanceAs (Decidable (op.Enabled w))

instance {σ : Type} (cfg : Config) (view : Operation → σ) (track : σ → CallEvent → σ)
    (w : World) (op : Operation) : Decidable ((concurrent cfg view track).enabled w op) :=
  inferInstanceAs (Decidable (op.Enabled w))

end Sorobill
