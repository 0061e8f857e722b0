/-
  Sorobill.System.Executions
  ──────────────────────────
  **REQUESTS, TICKS AND JOBS MAKE LAWFUL CALLS.**

    • `operation_backed` — the requests of subscriptions, payments and billing,
      the billing worker, and the ticks of the scheduler;
    • `worker_backed` — the webhook worker, which posts authentic requests only.
-/
import Sorobill.System.Cycles

namespace Sorobill

open Effect
open Relational
open JobQueue (Job)

/-! ## §1. Requests of subscriptions, payments and billing. -/

section Requests

variable {d : Epoch} {s : Server}

/-- A footprint of calls that are lawful whatever is stored. -/
theorem safe_always {α : Type} {p : Service α}
    (hp : Calls api (fun c => ∀ s : Server, c.Lawful d s) p) :
    Safe (lawfully d) p (fun _ _ _ => True) s () :=
  safe_known (K := fun _ => True) (fun _ _ _ h => h) (fun _ s hc _ _ => hc s) trivial hp

theorem subscriptions_create_backed (body : CreateSubscription) :
    Safe (lawfully d) (subscriptions.create d.cfg body) (fun _ _ _ => True) s () := by
  unfold subscriptions.create
  split
  · trivial
  rw [safe_bind]
  refine safe_service (fun s₁ _ hvalid₁ => ⟨trivial, fun env r w hserve _ _ => ?_⟩)
  rcases serve_planFindUnique body.planId env s₁.core with ⟨err, hs⟩ | hs
  · rw [hs] at hserve
    cases hserve
    trivial
  rw [hs] at hserve
  cases hserve
  rw [andThen_ok]
  cases hfound : (s₁.core.plans.find? (·.id == body.planId)).filter (·.isActive) with
  | none => trivial
  | some plan =>
    obtain ⟨hread, hactive⟩ := Option.filter_eq_some_iff.mp hfound
    have hmem := (Table.find?_mem hread).1
    have hplan : s₁.HasPlan plan.id := ⟨plan, hmem, rfl⟩
    -- an active plan is none of the retired ones
    have hretired : ¬ d.RetiredPlan plan.id := by
      intro hretired
      rw [hvalid₁.retiredPlan hmem hretired] at hactive
      cases hactive
    show Safe _ (prisma.wallet.upsert _ >>= _) _ _ _
    rw [safe_bind]
    refine safe_service (fun s₂ hgrows₂ _ => ⟨trivial, fun env r w hserve _ hgrows₂ => ?_⟩)
    -- found or made, the wallet is stored from here on
    have hwallet : ∀ wallet, r = .ok wallet → (s₂.withCore w).HasWallet wallet.id := by
      rcases serve_walletUpsert body.walletAddress env s₂.core with
        ⟨err, hs⟩ | ⟨wallet, hmem, -, hs⟩ | ⟨id, t, ht, hs⟩
      · rw [hs] at hserve
        cases hserve
        exact nofun
      · rw [hs] at hserve
        cases hserve
        rintro _ ⟨⟩
        exact ⟨wallet, hmem, rfl⟩
      · rw [hs] at hserve
        cases hserve
        rintro _ ⟨⟩
        exact ⟨_, (Table.mem_insert ht).mpr (.inr rfl), rfl⟩
    cases r with
    | error err => trivial
    | ok wallet =>
      rw [andThen_ok, safe_bind]
      refine safe_unconditional (fun _ => trivial) (fun r s₃ hgrows₃ _ => ?_)
      cases r with
      | error err => trivial
      | ok now =>
        rw [andThen_ok, safe_bind]
        refine safe_service (fun s₄ hgrows₄ _ => ⟨⟨((hplan.grow hgrows₂).grow hgrows₃).grow hgrows₄,
          ((hwallet wallet rfl).grow hgrows₃).grow hgrows₄, ?_, hretired⟩,
          fun env r w hserve _ _ => ?_⟩)
        · -- a subscription starts TRIALING or ACTIVE
          show (if _ then _ else _) ≠ _
          split <;> nofun
        rcases serve_subscriptionCreate (subscriptions.createData d.cfg plan wallet now) env s₄.core
          with ⟨err, hs⟩ | ⟨id, start, finish, t, -, -, -, ht, hs⟩
        · rw [hs] at hserve
          cases hserve
          trivial
        rw [hs] at hserve
        cases hserve
        have hsub := (Table.mem_insert ht).mpr (.inr rfl)
        rw [andThen_ok, safe_bind]
        -- the row is stored before its event is announced
        refine (emitWebhookEvent_backed (fun s₅ hgrows₅ _ => .created _ ?_)).mono
          (fun r _ _ _ => by cases r <;> trivial)
        exact Server.HasSubscription.grow ⟨_, hsub, rfl⟩ hgrows₅

theorem subscriptions_cancel_backed (id : String) (immediately : Bool) :
    Safe (lawfully d) (subscriptions.cancel id immediately) (fun _ _ _ => True) s () := by
  unfold subscriptions.cancel
  rw [safe_bind]
  refine safe_service (fun s₁ _ hvalid₁ => ⟨trivial, fun env r w hserve _ hgrows₁ => ?_⟩)
  rcases serve_subscriptionFindUnique id env s₁.core with ⟨err, hs⟩ | hs
  · rw [hs] at hserve
    cases hserve
    trivial
  rw [hs] at hserve
  cases hserve
  rw [andThen_ok]
  cases hfound : s₁.core.sub? id with
  | none => trivial
  | some sub =>
    have hmem := (Table.find?_mem hfound).1
    show Safe _ (subscriptions.cancelledAt _ >>= _) _ _ _
    rw [safe_bind]
    have hclock : Safe (lawfully d) (subscriptions.cancelledAt immediately) (fun _ _ _ => True)
        s₁ () := by
      refine safe_always ?_
      unfold subscriptions.cancelledAt
      split
      · exact calls_bind (fun _ => calls_pure) (calls_perform (fun _ => trivial))
      · exact calls_pure
    apply (safe_remembered hclock).mono
    rintro r s₂ _ ⟨-, hgrows₂⟩
    cases r with
    | error err => trivial
    | ok cancelledAt =>
      rw [andThen_ok, safe_bind]
      -- the status that is written back was read from a row
      refine safe_unconditional (fun _ => ?_) (fun r s₃ hgrows₃ _ => ?_)
      · intro hstatus
        cases immediately with
        | true => cases hstatus
        | false => exact (hvalid₁.subscriptions sub hmem).2.2 (Option.some.inj hstatus)
      cases r with
      | error err => trivial
      | ok updated =>
        rw [andThen_ok, safe_bind]
        refine (emitWebhookEvent_backed (fun s₄ hgrows₄ _ => .cancelled _ _ ?_)).mono
          (fun r _ _ _ => by cases r <;> trivial)
        exact ((Server.HasSubscription.grow ⟨sub, hmem, rfl⟩ hgrows₂).grow hgrows₃).grow hgrows₄

theorem subscriptions_pause_backed (id : String) :
    Safe (lawfully d) (subscriptions.pause id) (fun _ _ _ => True) s () := by
  refine safe_always (calls_bind (fun found => ?_) (calls_perform (fun _ => trivial)))
  cases found with
  | none => exact calls_pure
  | some sub =>
      show Calls api _ (if _ then _ else _)
      split
      · exact calls_pure
      · exact calls_bind (fun _ => calls_pure) (calls_perform (fun _ h => by cases h))

theorem subscriptions_resume_backed (id : String) :
    Safe (lawfully d) (subscriptions.resume d.cfg id) (fun _ _ _ => True) s () := by
  refine safe_always (calls_bind (fun found => ?_) (calls_perform (fun _ => trivial)))
  cases found with
  | none => exact calls_pure
  | some sub =>
      show Calls api _ (if _ then _ else _)
      split
      · exact calls_pure
      · refine calls_bind (fun now => ?_) (calls_perform (fun _ => trivial))
        exact calls_bind (fun _ => calls_pure) (calls_perform (fun _ h => by cases h))

/-- The payment that is retried names a subscription that is there. -/
theorem payments_retry_backed (id : String) :
    Safe (lawfully d) (payments.retry id) (fun _ _ _ => True) s () := by
  unfold payments.retry
  rw [safe_bind]
  refine safe_service (fun s₁ _ hvalid₁ => ⟨trivial, fun env r w hserve _ _ => ?_⟩)
  rcases serve_paymentFindUnique (.byId id) env s₁.core with ⟨err, hs⟩ | hs
  · rw [hs] at hserve
    cases hserve
    trivial
  rw [hs] at hserve
  cases hserve
  rw [andThen_ok]
  cases hfound : s₁.core.payments.find? (PaymentKey.byId id).selects with
  | none => trivial
  | some payment =>
    obtain ⟨x, hx, hid, -⟩ := (hvalid₁.payments payment (Table.find?_mem hfound).1).price
    show Safe _ (if _ then _ else _) _ _ _
    split
    · trivial
    refine safe_known (F := fun c => c = .dateNow ∨ ∃ name jobId,
        c = .billingQueueAdd name payment.subscriptionId jobId)
      (K := fun s => s.HasSubscription payment.subscriptionId)
      (fun _ _ hgrows h => h.grow hgrows) ?_ ⟨x, hx, hid⟩ ?_
    · rintro _ s (rfl | ⟨name, jobId, rfl⟩) hK _
      · trivial
      · exact .inr hK
    · refine calls_bind (fun now => ?_) (calls_perform (.inl rfl))
      exact calls_bind (fun _ => calls_pure) (calls_perform (.inr ⟨_, _, rfl⟩))

theorem billing_run_backed (id : String) :
    Safe (lawfully d) (billing.run id) (fun _ _ _ => True) s () :=
  safe_always (calls_bind (fun _ => calls_pure) (calls_perform (fun _ => .inl rfl)))

theorem expireGracePeriods_cancel_backed {sub : Subscription} (h : s.HasSubscription sub.id) :
    Safe (lawfully d) (expireGracePeriods.cancel sub) (fun _ _ _ => True) s () := by
  unfold expireGracePeriods.cancel
  rw [safe_bind]
  refine safe_unconditional (fun _ => trivial) (fun r s₁ hgrows₁ _ => ?_)
  cases r with
  | error err => trivial
  | ok now =>
    rw [andThen_ok, safe_bind]
    refine safe_unconditional (fun _ h => by cases h) (fun r s₂ hgrows₂ _ => ?_)
    cases r with
    | error err => trivial
    | ok _ =>
      rw [andThen_ok]
      exact emitWebhookEvent_backed (fun s₃ hgrows₃ _ =>
        .expired _ (((h.grow hgrows₁).grow hgrows₂).grow hgrows₃))

/-- **A loop over subscriptions that were found**: they stay there while the
rounds before are executed. -/
theorem safe_forEach_found {f : Subscription → Service Unit} {subs : List Subscription}
    (hsubs : ∀ sub ∈ subs, s.HasSubscription sub.id)
    (hf : ∀ (sub : Subscription) (s₁ : Server), s₁.HasSubscription sub.id →
      Safe (lawfully d) (f sub) (fun _ _ _ => True) s₁ ()) :
    Safe (lawfully d) (Prog.forEach subs f) (fun _ _ _ => True) s () := by
  refine safe_forEach (fun s₁ _ => s.Grows s₁) (fun sub hsub s₁ _ hgrows₁ => ?_)
    (fun _ _ _ => trivial) (.refl s)
  apply (safe_remembered (hf sub s₁ ((hsubs sub hsub).grow hgrows₁))).mono
  rintro r s₂ _ ⟨-, hgrows₂⟩
  cases r with
  | ok _ => exact hgrows₁.trans _ _ _ hgrows₂
  | error err => trivial

/-- What a query finds is there. -/
theorem found_hasSubscription {s : Server} {cond : SubscriptionWhere} {rows : List Subscription}
    (h : rows.Perm (s.core.subscriptions.filter cond.selects)) :
    ∀ sub ∈ rows, s.HasSubscription sub.id :=
  fun sub hsub => ⟨sub, (Table.mem_filter.mp (h.mem_iff.mp hsub)).1, rfl⟩

theorem expireGracePeriods_backed :
    Safe (lawfully d) expireGracePeriods (fun _ _ _ => True) s () := by
  unfold expireGracePeriods
  rw [safe_bind]
  refine safe_unconditional (fun _ => trivial) (fun r s₁ _ _ => ?_)
  cases r with
  | error err => trivial
  | ok now =>
    rw [andThen_ok, safe_bind]
    refine safe_service (fun s₂ _ _ => ⟨trivial, fun env r w hserve _ _ => ?_⟩)
    rcases serve_subscriptionFindMany (expireGracePeriods.condition now) env s₂.core with
      ⟨err, hs⟩ | ⟨rows, hs, hperm⟩
    · rw [hs] at hserve
      cases hserve
      trivial
    rw [hs] at hserve
    cases hserve
    rw [andThen_ok]
    exact safe_forEach_found (found_hasSubscription hperm)
      (fun sub s₃ h => expireGracePeriods_cancel_backed h)

/-- **A tick** enqueues subscriptions that it has found, and cancels those whose
grace period is over. -/
theorem scheduleBillingJobs_backed :
    Safe (lawfully d) scheduleBillingJobs (fun _ _ _ => True) s () := by
  unfold scheduleBillingJobs findDueSubscriptions
  rw [safe_bind, safe_bind]
  refine safe_unconditional (fun _ => trivial) (fun r s₁ _ _ => ?_)
  cases r with
  | error err => trivial
  | ok now =>
    rw [andThen_ok]
    refine safe_service (fun s₂ _ _ => ⟨trivial, fun env r w hserve _ _ => ?_⟩)
    rcases serve_subscriptionFindMany (findDueSubscriptions.condition now) env s₂.core with
      ⟨err, hs⟩ | ⟨rows, hs, hperm⟩
    · rw [hs] at hserve
      cases hserve
      trivial
    rw [hs] at hserve
    cases hserve
    rw [andThen_ok, safe_bind]
    have henqueue := safe_forEach_found (d := d) (f := scheduleBillingJobs.enqueue)
      (found_hasSubscription hperm) (fun sub s₃ h =>
        safe_service (fun s₄ hgrows₄ _ => ⟨.inr (h.grow hgrows₄), fun _ _ _ _ _ _ => trivial⟩))
    apply henqueue.mono
    intro r s₃ _ _
    cases r with
    | error err => trivial
    | ok _ => exact expireGracePeriods_backed

/-- **Every request of subscriptions, payments and billing, every billing job
and every tick makes lawful calls.** -/
theorem operation_backed (op : Operation) :
    Safe (lawfully d) (op.body d.cfg) (fun _ _ _ => True) s () := by
  cases op with
  | createSubscription body => exact (subscriptions_create_backed body).map
  | cancel id immediately => exact (subscriptions_cancel_backed id immediately).map
  | pause id => exact (subscriptions_pause_backed id).map
  | resume id => exact (subscriptions_resume_backed id).map
  | retryPayment paymentId => exact (payments_retry_backed paymentId).map
  | runBilling id => exact (billing_run_backed id).map
  | runInline id =>
      refine Safe.map ?_
      show Safe _ (processBillingCycle _ _ >>= _) _ _ _
      rw [safe_bind]
      exact (processBillingCycle_backed id).mono (fun r _ _ _ => by cases r <;> trivial)
  | billingJob job => exact (processBillingCycle_backed job.data).map
  | tick => exact scheduleBillingJobs_backed.map
  | expireGracePeriods => exact expireGracePeriods_backed.map

end Requests

/-! ## §2. The webhook worker. -/

section Worker

variable {d : Epoch} {s s' : Server}

/-- **Lawful calls of the webhook worker.** -/
def workers (d : Epoch) : Growth workerApi Unit where
  valid := Server.Valid d
  grows := Server.Grows
  admits _ := True
  lawful _ e := (workerOnServer.call e.call).Lawful d e.before
  refl := Server.Grows.refl
  trans := Server.Grows.trans
  step _ e hvalid _ hlawful :=
    have hstep : e.before.Step d (e.after workerApi) := by
      obtain ⟨s, c, env⟩ := e
      cases c with
      | inl c => exact core_step hlawful env.toEnv
      | inr c => exact delivery_step hlawful env.toWebhookEnv
    ⟨hvalid.step hstep, hstep.grows⟩

/-- An authentic request stays authentic. -/
theorem Server.Authentic.grow {js : Builtins} {url body : String} {headers : List (String × String)}
    (h : s.Authentic js url body headers) (hs : s.Grows s') : s'.Authentic js url body headers := by
  obtain ⟨event, hevent, endpoint, hendpoint, htype, hurl, hbody, hheaders⟩ := h
  obtain ⟨_, hendpoint', ⟨_, rfl⟩, -⟩ := hs.endpoints endpoint hendpoint
  exact ⟨event, hs.events event hevent, _, hendpoint', htype, hurl, hbody, hheaders⟩

/-- The headers of the request for a delivery. -/
def DeliveryWithEvent.headers (js : Builtins) (x : DeliveryWithEvent) : List (String × String) :=
  [("Content-Type", "application/json"),
   ("X-Sorobill-Signature",
      signWebhookPayload js x.endpoint.secret (deliverWebhook.body js x.event)),
   ("X-Sorobill-Event", x.event.type.name)]

/-- The request for a delivery is authentic. -/
def DeliveryWithEvent.Authentic (js : Builtins) (x : DeliveryWithEvent) (s : Server) : Prop :=
  s.Authentic js x.endpoint.url (deliverWebhook.body js x.event) (x.headers js)

/-- **What is delivered is authentic**: the event and the endpoint that a
delivery joins belong together. -/
theorem Server.Valid.authentic {id : String} {delivery : DeliveryWithEvent} (h : s.Valid d)
    (hread : (s.core.hooks.deliveries.find? (·.id == id)).bind s.core.withEvent = some delivery) :
    delivery.Authentic d.webhook s := by
  obtain ⟨row, hrow, hjoin⟩ := Option.bind_eq_some_iff.mp hread
  unfold World.withEvent at hjoin
  obtain ⟨event, hevent, hjoin⟩ := Option.bind_eq_some_iff.mp hjoin
  obtain ⟨endpoint, hendpoint, hjoin⟩ := Option.bind_eq_some_iff.mp hjoin
  cases hjoin
  obtain ⟨hevent, heventId⟩ := Table.find?_mem hevent
  obtain ⟨hendpoint, hendpointId⟩ := Table.find?_mem hendpoint
  obtain ⟨event', hevent', hid, endpoint', hendpoint', hid', htype⟩ :=
    h.deliveries row (Table.find?_mem hrow).1
  obtain rfl := event_unique hevent hevent' ((beq_iff_eq.mp heventId).trans hid.symm)
  obtain rfl := endpoint_unique hendpoint hendpoint' ((beq_iff_eq.mp hendpointId).trans hid'.symm)
  exact ⟨event, hevent, endpoint, hendpoint, htype, rfl, rfl, rfl⟩

abbrev lawfulWork (d : Epoch) : Contract workerApi Unit := (workers d).contract (fun v _ => v)

/-- The calls of one delivery, after its look-up. -/
def DeliveryCall.isPosting (js : Builtins) (x : DeliveryWithEvent) : WebhookApi.Call → Prop
  | .inl c => c = .dateNow
  | .inr (.post url body headers) =>
      url = x.endpoint.url ∧ body = deliverWebhook.body js x.event ∧ headers = x.headers js
  | .inr (.webhookDeliveryUpdate _ _) => True
  | .inr _ => False

/-- **One delivery**: what is posted is authentic. -/
theorem deliverWebhook_backed (id : String) :
    Safe (lawfulWork d) (deliverWebhook d.webhook id) (fun _ _ _ => True) s () := by
  unfold deliverWebhook
  rw [safe_bind]
  refine Growth.safe_call (G := workers d) (fun s₁ env _ hvalid₁ _ => ⟨trivial, fun _ _ => ?_⟩)
  have hsame : (workerApi.serve (.inr (.webhookDeliveryFindUniqueOrThrow id)) env s₁).2 = s₁ :=
    congrArg s₁.withCore (serve_webhookDeliveryFindUniqueOrThrow id env.toWebhookEnv s₁.core)
  rw [hsame]
  cases hanswer : (workerApi.serve (.inr (.webhookDeliveryFindUniqueOrThrow id)) env s₁).1 with
  | error err => trivial
  | ok delivery =>
    have hread : (s₁.core.hooks.deliveries.find? (·.id == id)).bind s₁.core.withEvent
        = some delivery := delivery_of_read hanswer
    -- what was read is signed with the secret of its own endpoint
    have hauthentic := hvalid₁.authentic hread
    rw [andThen_ok]
    refine (Growth.safe_calls (G := workers d) (K := delivery.Authentic d.webhook)
      (F := DeliveryCall.isPosting d.webhook delivery) (fun _ => rfl)
      (fun _ _ hgrows h => Server.Authentic.grow h hgrows) ?_ hauthentic ?_).mono
      (fun _ _ _ _ => trivial)
    · rintro ⟨s₂, c, env⟩ hc hK _ _
      cases c with
      | inl c =>
          obtain rfl : c = .dateNow := hc
          trivial
      | inr c =>
          cases c with
          | post url body headers =>
              obtain ⟨rfl, rfl, rfl⟩ := hc
              exact hK
          | webhookDeliveryUpdate id data => trivial
          | _ => exact hc.elim
    · refine calls_bind (fun failure => ?_) (calls_tryCatch (fun _ => calls_pure) ?_)
      · cases failure with
        | none => exact calls_pure
        | some err =>
            exact calls_bind (fun text => calls_bind (fun _ => calls_throw) (calls_perform trivial))
              calls_evaluate
      · refine calls_bind (fun answer => ?_) (calls_perform ⟨rfl, rfl, rfl⟩)
        cases answer with
        | error err => exact calls_pure
        | ok res =>
            refine calls_bind (fun text => calls_bind (fun now => ?_) ?_) calls_evaluate
            · exact calls_bind (fun _ => calls_pure) (calls_perform trivial)
            · show Calls _ _ (Prog.perform (I := Api) .dateNow).embed
              rw [Prog.embed_perform]
              exact calls_perform rfl

/-- **An attempt of a job that the queue holds** makes lawful calls. -/
theorem worker_backed {job : Job String} (h : s.HasDelivery job.data) :
    Safe (lawfulWork d) (webhookWorker.run d.webhook job) (fun _ _ _ => True) s () := by
  unfold webhookWorker.run webhookWorker
  rw [safe_tryCatch]
  have hwork : Safe (lawfulWork d) (deliverWebhook d.webhook job.data >>= fun _ =>
      webhookQueue.moveToCompleted job) (fun _ _ _ => True) s () := by
    rw [safe_bind]
    apply (deliverWebhook_backed job.data).mono
    intro r s₁ _ _
    cases r with
    | error err => trivial
    | ok _ =>
        exact Growth.safe_call (G := workers d) (fun _ _ _ _ _ => ⟨trivial, fun _ _ => trivial⟩)
  apply (Growth.safe_grows (G := workers d) hwork).mono
  rintro r s₁ _ ⟨-, hgrows₁⟩
  cases r with
  | ok _ => trivial
  | error err =>
      -- BullMQ counts the attempt of a job whose delivery is there
      refine Growth.safe_call (G := workers d) (fun s₂ _ hgrows₂ _ _ => ⟨?_, fun _ _ => trivial⟩)
      exact (h.grow hgrows₁).grow hgrows₂

end Worker

end Sorobill
