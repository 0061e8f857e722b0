/-
  Sorobill.System.Steps
  ─────────────────────
  **EVERY LAWFUL CALL IS A STEP OF THE SERVER.**

    • `core_payments`, `core_subscriptions`, `core_hooks`, … — what a call of
      the services does to each table;
    • `core_step`, `delivery_step`, `index_step`, `planCreate_step`, … — the
      steps of each kind of call;
    • `lawful_step`, `drift_step` — **what a lawful call does, and what happens
      without one, is a step**;
    • `other_answer`, `other_drift` — the tables that only the services write.
-/
import Sorobill.System.Laws
import Sorobill.Rules.Deliveries

namespace Sorobill

open Effect
open Relational
open Relational.Table (Carries Evolves)
open JavaScript (JsValue)
open JobQueue.Queue (Stems)

/-! ## §1. How calls are served. -/

section Serving

variable {env : ServerEnv} {s : Server}

/-- A call is rejected, with no effect, or it is answered. -/
theorem server_cases (c : ServerCall) (env : ServerEnv) (s : Server) :
    (∃ err, serverApi.serve c env s = (.error err, s))
      ∨ serverApi.serve c env s = s.answer env c := by
  unfold serverApi
  dsimp only
  cases env.rejects with
  | some message => exact .inl ⟨_, rfl⟩
  | none => exact .inr rfl

theorem serve_rejected {c : Call} {env : Env} {w : World} {message : String}
    (h : env.rejects = some message) : api.serve c env w = (.error (.error message), w) := by
  unfold api
  dsimp only
  rw [h]

/-- A call of the services is served as in the services. -/
theorem serve_core (c : Call) (env : ServerEnv) (s : Server) :
    serverApi.serve (.core c) env s = coreApi.serve c env s := by
  unfold serverApi coreApi
  dsimp only
  cases h : env.rejects with
  | some message =>
      rw [serve_rejected h]
      rfl
  | none => rfl

/-- A call of the webhook worker is served as with the worker. -/
theorem serve_delivery (c : DeliveryCall) (env : ServerEnv) (s : Server) :
    serverApi.serve (.delivery c) env s = workerApi.serve (.inr c) env s := by
  have hrejects : ∀ message, env.rejects = some message →
      webhookApi.serve (.inr c) env.toWebhookEnv s.core = (.error (.error message), s.core) := by
    intro message h
    unfold webhookApi Backend.extend
    dsimp only
    rw [h]
  unfold serverApi workerApi
  dsimp only
  cases h : env.rejects with
  | some message =>
      rw [hrejects message h]
      rfl
  | none => rfl

/-- The services run on the server. -/
def servicesImplemented : Implements servicesOnServer coreApi serverApi where
  world s := s
  env e := e
  response c e s := congrArg Prod.fst (serve_core c e s)
  after c e s := congrArg Prod.snd (serve_core c e s)

/-- The webhook worker runs on the server. -/
def workerImplemented : Implements workerOnServer workerApi serverApi where
  world s := s
  env e := e
  response
    | .inl c, e, s => congrArg Prod.fst (serve_core c e s)
    | .inr c, e, s => congrArg Prod.fst (serve_delivery c e s)
  after
    | .inl c, e, s => congrArg Prod.snd (serve_core c e s)
    | .inr c, e, s => congrArg Prod.snd (serve_delivery c e s)

end Serving

/-! ## §2. What a call of the services does. -/

section Core

variable {d : Epoch} {s : Server} {c : Call} {env : Env}

/-- A call of the services, served by the core. -/
abbrev coreEvent (s : Server) (c : Call) (env : Env) : CallEvent := ⟨s.core, c, env⟩

theorem core_payments (h : c.Lawful d s) :
    Evolves (Payment.Written d.cfg s) (Payment.Created d.cfg s) s.core.payments
      ((coreEvent s c env).after api).payments := by
  cases paymentStep (coreEvent s c env) with
  | kept hpayments _ =>
      rw [hpayments]
      exact .refl (fun _ => .kept) _
  | @created data id hcall ht _ =>
      obtain rfl : c = .paymentCreate data := hcall
      obtain ⟨sub, hknows, hdata⟩ := h
      exact .insert (fun _ => .kept) ht ⟨sub, id, hknows, by rw [hdata]⟩
  | @updated id data old hcall _ ht _ =>
      obtain rfl : c = .paymentUpdate id data := hcall
      exact .update (fun _ => .kept) ht
        (fun p hp hsel => .recorded (h p hp (beq_iff_eq.mp hsel)))
  | @updatedMany id status data hcall ht _ =>
      obtain rfl : c = .paymentUpdateMany id status data := hcall
      obtain ⟨nextRetryAt, retryCount, rfl, rfl⟩ := h
      refine .update (fun _ => .kept) ht (fun p hp hsel => .recorded (.retrying _ _ ?_))
      simpa using (Bool.and_eq_true_iff.mp hsel).2

theorem PaymentRecord.success {cfg : Config} {p : Payment} {data : PaymentData}
    (h : PaymentRecord cfg s p data) (hs : (data.apply p).status = .SUCCESS) :
    data.status = some .SUCCESS := by
  cases h <;> first | rfl | cases hs

theorem core_booked (h : c.Lawful d s) :
    ∀ p' ∈ ((coreEvent s c env).after api).payments, p'.status = .SUCCESS →
      p' ∈ s.core.payments
        ∨ ∃ x ∈ ((coreEvent s c env).after api).successes, x.payment.id = p'.id := by
  intro p' hp' hsuccess
  cases paymentStep (coreEvent s c env) with
  | kept hpayments _ =>
      rw [hpayments] at hp'
      exact .inl hp'
  | @created data id hcall ht _ =>
      rcases (Table.mem_insert ht).mp hp' with hp' | rfl
      · exact .inl hp'
      · -- a new payment is PENDING
        cases hsuccess
  | @updated id data old hcall hold ht hsuccesses =>
      obtain rfl : c = .paymentUpdate id data := hcall
      rcases Table.update_origin ht hp' with hp' | ⟨p, hp, hsel, rfl⟩
      · exact .inl hp'
      · have hid : p.id = id := beq_iff_eq.mp hsel
        refine .inr ⟨⟨data.apply old, env.now⟩, ?_, ?_⟩
        · rw [hsuccesses, if_pos ((h p hp hid).success hsuccess)]
          exact List.mem_append_right _ (List.mem_singleton.mpr rfl)
        · show old.id = p.id
          rw [hid]
          exact (payment?_eq_some.mp hold).2
  | @updatedMany id status data hcall ht _ =>
      obtain rfl : c = .paymentUpdateMany id status data := hcall
      obtain ⟨nextRetryAt, retryCount, rfl, rfl⟩ := h
      rcases Table.update_origin ht hp' with hp' | ⟨p, hp, hsel, rfl⟩
      · exact .inl hp'
      · cases hsuccess

/-- A SUCCESS comes with a hash. -/
theorem PaymentRecord.receipt {cfg : Config} {p : Payment} {data : PaymentData}
    (h : PaymentRecord cfg s p data) (hs : data.status = some .SUCCESS) :
    (data.apply p).stellarTxHash ≠ none := by
  cases h <;> first | exact Option.some_ne_none _ | cases hs

theorem core_receipts (h : c.Lawful d s) :
    ∀ x ∈ ((coreEvent s c env).after api).successes, x ∈ s.core.successes
      ∨ ∃ p ∈ ((coreEvent s c env).after api).payments,
        p.id = x.payment.id ∧ p.stellarTxHash ≠ none := by
  intro x hx
  cases paymentStep (coreEvent s c env) with
  | kept _ hsuccesses =>
      rw [hsuccesses] at hx
      exact .inl hx
  | created _ _ hsuccesses =>
      rw [hsuccesses] at hx
      exact .inl hx
  | @updated id data old hcall hold ht hsuccesses =>
      obtain rfl : c = .paymentUpdate id data := hcall
      rw [hsuccesses] at hx
      split at hx
      next hdata =>
        refine (List.mem_append.mp hx).imp (fun hx => hx) (fun hx => ?_)
        obtain rfl := List.mem_singleton.mp hx
        obtain ⟨hmem, hid⟩ := payment?_eq_some.mp hold
        exact ⟨data.apply old, Table.mem_update_of_selected ht hmem (beq_iff_eq.mpr hid), rfl,
          (h old hmem hid).receipt hdata⟩
      next => exact .inl hx
  | updatedMany _ _ hsuccesses =>
      rw [hsuccesses] at hx
      exact .inl hx

theorem core_successes :
    ∀ x ∈ s.core.successes, x ∈ ((coreEvent s c env).after api).successes := by
  intro x hx
  cases paymentStep (coreEvent s c env) with
  | kept _ hsuccesses =>
      rw [hsuccesses]
      exact hx
  | created _ _ hsuccesses =>
      rw [hsuccesses]
      exact hx
  | updated _ _ _ hsuccesses =>
      rw [hsuccesses]
      split
      · exact List.mem_append_left _ hx
      · exact hx
  | updatedMany _ _ hsuccesses =>
      rw [hsuccesses]
      exact hx

theorem core_subscriptions (h : c.Lawful d s) :
    Evolves Subscription.Becomes
      (fun x => s.HasPlan x.planId ∧ s.HasWallet x.walletId ∧ x.status ≠ .EXPIRED
        ∧ ¬ d.RetiredPlan x.planId)
      s.core.subscriptions ((coreEvent s c env).after api).subscriptions := by
  cases subscriptionStep (coreEvent s c env) with
  | kept hsubs =>
      rw [hsubs]
      exact .refl Subscription.Becomes.refl _
  | @updated id data old hcall _ _ ht =>
      obtain rfl : c = .subscriptionUpdate id data := hcall
      refine .update Subscription.Becomes.refl ht
        (fun x _ _ => ⟨rfl, rfl, rfl, rfl, fun hexpired => ?_⟩)
      -- a status that is written is not EXPIRED
      have hstatus : data.status.getD x.status = .EXPIRED := hexpired
      cases hdata : data.status with
      | none => rwa [hdata] at hstatus
      | some status =>
          rw [hdata] at hstatus
          exact absurd (hdata.trans (congrArg some hstatus)) h
  | @created data id start finish hcall _ ht =>
      obtain rfl : c = .subscriptionCreate data := hcall
      exact .insert Subscription.Becomes.refl ht h

theorem core_wallets : ∀ x ∈ s.core.wallets, x ∈ ((coreEvent s c env).after api).wallets := by
  intro x hx
  by_cases hc : c.region = .wallets
  · cases c with
    | walletUpsert address =>
        unfold Event.after
        rcases serve_walletUpsert address env s.core with
          ⟨err, h⟩ | ⟨wallet, -, -, h⟩ | ⟨id, t, ht, h⟩
        · rw [h]
          exact hx
        · rw [h]
          exact hx
        · rw [h]
          exact (Table.mem_insert ht).mpr (.inl hx)
    | _ => cases hc
  · rw [show ((coreEvent s c env).after api).wallets = s.core.wallets from
      (serve_changed c env s.core).wallets_eq hc]
    exact hx

theorem core_chain (h : c.Lawful d s) :
    ∃ new, ((coreEvent s c env).after api).chain = s.core.chain ++ new
      ∧ ∀ tx ∈ new, Tx.Authorised d.cfg s tx.issuedFor tx.invocation := by
  have hsame : ∃ new, s.core.chain = s.core.chain ++ new
      ∧ ∀ tx ∈ new, Tx.Authorised d.cfg s tx.issuedFor tx.invocation :=
    ⟨[], (List.append_nil _).symm, by simp⟩
  by_cases hc : c.region = .chain
  · cases c with
    | sendTransaction key invocation =>
        unfold Event.after
        rcases serve_sendTransaction key invocation env s.core with
          ⟨err, hs⟩ | ⟨detail, -, hs⟩ | ⟨hash, applied, -, hs⟩
        · rw [hs]
          exact hsame
        · rw [hs]
          exact hsame
        · rw [hs]
          refine ⟨_, rfl, fun tx htx => ?_⟩
          rw [List.mem_singleton.mp htx]
          exact h
    | _ => cases hc
  · rw [show ((coreEvent s c env).after api).chain = s.core.chain from
      (serve_changed c env s.core).chain_eq hc]
    exact hsame

/-- The rows of `webhookDelivery.create`, one for each endpoint. -/
theorem mem_deliveryRows {eventId : String} {endpointIds ids : List String} {x : WebhookDelivery}
    (hx : x ∈ List.zipWith (fun id endpointId =>
      { id, webhookEventId := eventId, webhookEndpointId := endpointId : WebhookDelivery })
      ids endpointIds) :
    x.webhookEventId = eventId ∧ x.webhookEndpointId ∈ endpointIds := by
  rw [← List.map_uncurry_zip_eq_zipWith] at hx
  obtain ⟨⟨id, endpointId⟩, hmem, rfl⟩ := List.mem_map.mp hx
  exact ⟨rfl, (List.of_mem_zip hmem).2⟩

/-- What a lawful call of the services does to the webhook tables and queue. -/
structure HooksEvolve (d : Epoch) (s : Server) (h : Hooks) : Prop where
  endpoints : h.endpoints = s.core.hooks.endpoints
  events : Evolves Eq (fun x => Announced d.cfg s x.type x.paymentId x.payload)
    s.core.hooks.events h.events
  deliveries : Evolves WebhookDelivery.Becomes
    (fun x => x.Addressed s ∧ ¬ d.RetiredEndpoint x.webhookEndpointId)
    s.core.hooks.deliveries h.deliveries
  jobs : Stems (fun _ data => s.HasDelivery data) s.core.hooks.queue h.queue

theorem HooksEvolve.same (d : Epoch) (s : Server) : HooksEvolve d s s.core.hooks :=
  ⟨rfl, .refl (fun _ => rfl) _, .refl WebhookDelivery.Becomes.refl _, .refl _⟩

theorem core_hooks (h : c.Lawful d s) :
    HooksEvolve d s ((coreEvent s c env).after api).hooks := by
  unfold Event.after
  by_cases hc : c.region = .hooks
  · cases c with
    | webhookEventCreate type paymentId payload =>
        rcases serve_webhookEventCreate type paymentId payload env s.core with
          ⟨err, hs⟩ | ⟨id, t, ht, hs⟩
        · rw [hs]
          exact .same d s
        · rw [hs]
          exact { HooksEvolve.same d s with events := .insert (fun _ => rfl) ht h }
    | webhookDeliveryCreateAll eventId endpointIds =>
        rcases serve_cases (.webhookDeliveryCreateAll eventId endpointIds) env s.core with
          ⟨_, -, hs⟩ | ⟨-, hs⟩
        · rw [hs]
          exact .same d s
        · rw [hs]
          unfold World.answer
          dsimp only
          split
          next => exact .same d s
          next t ht =>
            split
            swap
            · exact .same d s
            refine { HooksEvolve.same d s with deliveries := ⟨fun x hx => ?_, fun x hx => ?_⟩ }
            · exact ⟨x, (mem_insertAll ht).mpr (.inl hx), .refl x⟩
            · refine ((mem_insertAll ht).mp hx).imp (fun hx => ⟨x, hx, .refl x⟩) (fun hx => ?_)
              -- every new row is for the stored event and an endpoint subscribed to it
              obtain ⟨event, hevent, hid, hall⟩ := h
              obtain ⟨hxevent, hxendpoint⟩ := mem_deliveryRows hx
              obtain ⟨hsubscribes, hretired⟩ := hall _ hxendpoint
              exact ⟨⟨event, hevent, hid.trans hxevent.symm, hsubscribes⟩, hretired⟩
    | webhookQueueAdd deliveryId =>
        rcases serve_webhookQueueAdd deliveryId env s.core with ⟨err, hs⟩ | hs
        · rw [hs]
          exact .same d s
        · rw [hs]
          exact { HooksEvolve.same d s with jobs := .add _ h }
    | _ => cases hc
  · rw [(serve_changed c env s.core).hooks_eq hc]
    exact .same d s

theorem core_billingJobs (h : c.Lawful d s) :
    Stems (fun name data => name = "bill" ∨ s.HasSubscription data)
      s.core.billingQueue ((coreEvent s c env).after api).billingQueue := by
  unfold Event.after
  by_cases hc : c.region = .billingQueue
  · cases c with
    | billingQueueAdd name subscriptionId jobId =>
        rcases serve_billingQueueAdd name subscriptionId jobId env s.core with ⟨err, hs⟩ | hs
        · rw [hs]
          exact .refl _
        · rw [hs]
          exact .add _ h
    | _ => cases hc
  · rw [(serve_changed c env s.core).billingQueue_eq hc]
    exact .refl _

/-- **A lawful call of the services.** -/
theorem core_step (h : c.Lawful d s) (env : Env) :
    s.Step d (s.withCore ((coreEvent s c env).after api)) := by
  have hplans : ((coreEvent s c env).after api).plans = s.core.plans :=
    (serve_changed c env s.core).plans_eq
  have hhooks : HooksEvolve d s ((coreEvent s c env).after api).hooks := core_hooks h
  obtain ⟨hendpoints, hevents, hdeliveries, hjobs⟩ := hhooks
  exact
    { Server.Step.refl d s with
      plans := by
        show Evolves _ _ _ ((coreEvent s c env).after api).plans
        rw [hplans]
        exact .refl Plan.Becomes.refl _
      recorded := by
        intro p hp
        have hp : p ∈ ((coreEvent s c env).after api).plans := hp
        rw [hplans] at hp
        exact .inl ⟨p, hp, rfl, rfl⟩
      wallets := core_wallets
      signed := fun a ha => .inl ha
      subscriptions := core_subscriptions h
      payments := core_payments h
      successes := core_successes
      booked := core_booked h
      receipts := core_receipts h
      chain := core_chain h
      endpoints := by
        show Evolves _ _ _ ((coreEvent s c env).after api).hooks.endpoints
        rw [hendpoints]
        exact .refl WebhookEndpoint.Becomes.refl _
      events := hevents
      deliveries := hdeliveries
      deliveryJobs := hjobs
      billingJobs := core_billingJobs h }

end Core

/-! ## §3. What the other calls do. -/

section Others

variable {d : Epoch} {s : Server}

theorem serve_delivery_after (c : DeliveryCall) (env : WebhookEnv) (w : World)
    {P : World → Prop} (hsame : P w)
    (hrow : ∀ id data, c = .webhookDeliveryUpdate id data → ∀ t,
      w.hooks.deliveries.update? (·.id == id) data.apply = some t →
      P { w with hooks := { w.hooks with deliveries := t } })
    (hcompleted : ∀ job, c = .moveToCompleted job →
      P (w.withQueue (w.hooks.queue.complete webhookJobOptions job)))
    (hfailed : ∀ job, c = .moveToFailed job →
      P (w.withQueue (w.hooks.queue.failAttempt webhookJobOptions job))) :
    P (webhookApi.serve (.inr c) env w).2 := by
  cases c with
  | webhookDeliveryFindUniqueOrThrow id =>
      rw [serve_webhookDeliveryFindUniqueOrThrow]
      exact hsame
  | post url body headers =>
      rw [serve_post]
      exact hsame
  | webhookDeliveryUpdate id data =>
      rcases serve_webhookDeliveryUpdate id data env w with ⟨err, h⟩ | ⟨old, t, -, ht, h⟩
      · rw [h]
        exact hsame
      · rw [h]
        exact hrow id data rfl t ht
  | moveToCompleted job =>
      rcases serve_moveToCompleted job env w with ⟨err, h⟩ | h
      · rw [h]
        exact hsame
      · rw [h]
        exact hcompleted job rfl
  | moveToFailed job =>
      rcases serve_moveToFailed job env w with ⟨err, h⟩ | h
      · rw [h]
        exact hsame
      · rw [h]
        exact hfailed job rfl

/-- **A lawful call of the webhook worker.** -/
theorem delivery_step {c : DeliveryCall} (h : (ServerCall.delivery c).Lawful d s)
    (env : WebhookEnv) : s.Step d (s.withCore (webhookApi.serve (.inr c) env s.core).2) := by
  refine serve_delivery_after c env s.core (P := fun w => s.Step d (s.withCore w)) (.refl d s)
    (fun id data _ t ht => ?_) (fun job _ => ?_) (fun job hcall => ?_)
  · exact { Server.Step.refl d s with
      deliveries := .update WebhookDelivery.Becomes.refl ht (fun _ _ _ => ⟨rfl, rfl, rfl⟩) }
  · exact { Server.Step.refl d s with
      deliveryJobs := JobQueue.Queue.finishes_complete.stems }
  · subst hcall
    exact { Server.Step.refl d s with deliveryJobs := .failAttempt (.inr h) }

/-- Where a chain event comes from. -/
theorem chainEvent_origin (c : Indexer.Call) (env : Indexer.Env) (w : Indexer.World)
    {x : Indexer.ChainEvent} (hx : x ∈ (Indexer.api.serve c env w).2.chainEvents) :
    (∃ y ∈ w.chainEvents, y.txHash = x.txHash)
      ∨ ∃ args, c = .chainEventUpsert args ∧ x.txHash = args.create.txHash := by
  unfold Indexer.api at hx
  dsimp only at hx
  cases hrejects : env.rejects with
  | some message =>
      rw [hrejects] at hx
      exact .inl ⟨x, hx, rfl⟩
  | none =>
      rw [hrejects] at hx
      cases c with
      | getLatestLedger => exact .inl ⟨x, hx, rfl⟩
      | getEvents startLedger contractIds limit => exact .inl ⟨x, hx, rfl⟩
      | chainEventUpsert args =>
          unfold Indexer.World.answer at hx
          dsimp only at hx
          split at hx
          next created updated _ _ =>
            split at hx
            next table ht =>
              unfold Table.upsert? at ht
              split at ht
              · rcases Table.update_origin ht hx with hx | ⟨r, hr, -, rfl⟩
                · exact .inl ⟨x, hx, rfl⟩
                · -- an update rewrites no hash
                  exact .inl ⟨r, hr, rfl⟩
              · rcases (Table.mem_insert ht).mp hx with hx | rfl
                · exact .inl ⟨x, hx, rfl⟩
                · exact .inr ⟨args, rfl, rfl⟩
            next => exact .inl ⟨x, hx, rfl⟩
          next => exact .inl ⟨x, hx, rfl⟩

/-- **A lawful call of the indexer.** -/
theorem index_step {c : Indexer.Call} (h : (ServerCall.index c).Lawful d s) (env : Indexer.Env) :
    s.Step d { s with index := (Indexer.api.serve c env s.index).2 } := by
  refine { Server.Step.refl d s with chainEvents := fun x hx => ?_ }
  refine (chainEvent_origin c env s.index hx).imp_right (fun ⟨args, hcall, hhash⟩ => ?_)
  subst hcall
  obtain ⟨hverified, hcreate, hash, hnormal⟩ := h
  exact ⟨hverified, hash, hhash.trans (hcreate.trans hnormal)⟩

/-- A plan was stored under the contract id that is recorded. -/
theorem withPlan_contracts (s : Server) (t : Table Plan Plan.Clash) (plan : Plan) (n : Nat)
    (h : plan.contractPlanId = some n) : (plan.id, n) ∈ (s.withPlan t plan).contracts := by
  unfold Server.withPlan
  rw [h]
  exact List.mem_append_right _ (List.mem_singleton_self _)

theorem planCreate_step {data : CreatePlanData} (h : (ServerCall.planCreate data).Lawful d s)
    (id : String) : s.Step d (s.createPlan id data).2 := by
  unfold Server.createPlan
  split
  next => exact .refl d s
  next plan hrow =>
    split
    next => exact .refl d s
    next t ht =>
      refine { Server.Step.refl d s with
        plans := .insert Plan.Becomes.refl ht (h id plan hrow)
        contracts := fun c hc => List.mem_append_left _ hc
        recorded := fun p hp => ?_ }
      rcases (Table.mem_insert ht).mp hp with hp | rfl
      · exact .inl ⟨p, hp, rfl, rfl⟩
      · exact .inr (withPlan_contracts s t p)

/-- An update that activates no plan. -/
theorem PlanData.becomes {data : PlanData} (h : data.isActive ≠ some true) (p : Plan) :
    p.Becomes (data.apply p) := by
  refine ⟨⟨_, _, rfl⟩, fun hp => ?_⟩
  show data.isActive.getD p.isActive = false
  cases hactive : data.isActive with
  | none => exact hp
  | some b =>
      cases b with
      | true => exact absurd hactive h
      | false => rfl

theorem planUpdate_step {id : String} {data : PlanData}
    (h : (ServerCall.planUpdate id data).Lawful d s) : s.Step d (s.updatePlan id data).2 := by
  unfold Server.updatePlan
  split
  swap
  · exact .refl d s
  split
  next => exact .refl d s
  next old hold =>
    split
    next => exact .refl d s
    next t ht =>
      refine { Server.Step.refl d s with
        plans := .update Plan.Becomes.refl ht (fun p _ _ => PlanData.becomes h p)
        contracts := fun c hc => List.mem_append_left _ hc
        recorded := fun p hp => ?_ }
      rcases Table.update_origin ht hp with hp | ⟨r, hr, hsel, rfl⟩
      · exact .inl ⟨p, hp, rfl, rfl⟩
      · -- the row that is written is the one that is recorded
        obtain ⟨holdmem, holdid⟩ := Table.find?_mem hold
        have hclash : Plan.Clash r old := (beq_iff_eq.mp hsel).trans (beq_iff_eq.mp holdid).symm
        rw [plan_unique hr holdmem hclash]
        exact .inr (withPlan_contracts s t (data.apply old))

theorem endpointCreate_step {data : EndpointCreate}
    (h : (ServerCall.webhookEndpointCreate data).Lawful d s) (id : String) :
    s.Step d (s.createEndpoint id data).2 := by
  unfold Server.createEndpoint
  split
  next => exact .refl d s
  next t ht =>
    exact { Server.Step.refl d s with
      endpoints := .insert WebhookEndpoint.Becomes.refl ht (h id) }

theorem endpointDeactivate_step (d : Epoch) (s : Server) (id : String) :
    s.Step d (s.deactivateEndpoint id).2 := by
  unfold Server.deactivateEndpoint
  split
  next => exact .refl d s
  next old hold =>
    split
    next => exact .refl d s
    next t ht =>
      exact { Server.Step.refl d s with
        endpoints := .update WebhookEndpoint.Becomes.refl ht
          (fun e _ _ => ⟨⟨false, rfl⟩, fun _ => rfl⟩) }

theorem walletVerify_step {address : String}
    (h : (ServerCall.walletUpsertVerified address).Lawful d s) (id : String) :
    s.Step d (s.verifyWallet id address).2 := by
  unfold Server.verifyWallet
  split
  next wallet hwallet =>
    obtain ⟨hmem, haddress⟩ := Table.find?_mem hwallet
    refine { Server.Step.refl d s with
      verified := fun a ha => List.mem_append_left _ ha
      signed := fun a ha => (List.mem_append.mp ha).imp_right (fun ha => ?_) }
    rw [List.mem_singleton.mp ha]
    exact ⟨h, wallet, hmem, beq_iff_eq.mp haddress⟩
  next =>
    split
    next => exact .refl d s
    next t ht =>
      refine { Server.Step.refl d s with
        wallets := fun x hx => (Table.mem_insert ht).mpr (.inl hx)
        verified := fun a ha => List.mem_append_left _ ha
        signed := fun a ha => (List.mem_append.mp ha).imp_right (fun ha => ?_) }
      rw [List.mem_singleton.mp ha]
      exact ⟨h, _, (Table.mem_insert ht).mpr (.inr rfl), rfl⟩

end Others

/-! ## §4. Every step. -/

/-- **A lawful call is a step.** -/
theorem lawful_step {d : Epoch} {e : ServerEvent} (h : e.call.Lawful d e.before) :
    e.before.Step d (e.after serverApi) := by
  obtain ⟨s, c, env⟩ := e
  show s.Step d (serverApi.serve c env s).2
  rcases server_cases c env s with ⟨err, hs⟩ | hs
  · rw [hs]
    exact .refl d s
  · rw [hs]
    cases c with
    | core c => exact core_step h env.toEnv
    | delivery c => exact delivery_step h env.toWebhookEnv
    | index c => exact index_step h env.index
    | planCreate data => exact planCreate_step h _
    | planUpdate id data => exact planUpdate_step h
    | webhookEndpointCreate data => exact endpointCreate_step h _
    | webhookEndpointDeactivate id => exact endpointDeactivate_step d s id
    | walletUpsertVerified address => exact walletVerify_step h _

/-- **What happens without an execution is a step.** -/
theorem drift_step {d : Epoch} {s s' : Server} (h : ServerDrift s s') : s.Step d s' := by
  cases h with
  | @billingQueue q hq =>
      refine { Server.Step.refl d s with billingJobs := ?_ }
      cases hq with
      | phase id phase => exact .setPhase _ _ _
      | complete job hmem => exact JobQueue.Queue.finishes_complete.stems
      | failAttempt job hmem => exact .failAttempt (.inl ⟨_, hmem⟩)
  | @webhookQueue w hw =>
      cases hw with
      | phase id phase =>
          exact { Server.Step.refl d s with deliveryJobs := .setPhase _ _ _ }
      | stalled job hmem _ =>
          exact { Server.Step.refl d s with
            deliveryJobs := JobQueue.Queue.finishes_fail.stems }
  | ledger log => exact { Server.Step.refl d s with }

/-! ## §5. What only the services write. -/

/-- No subscription, payment or transaction is written. -/
def Server.BillsNobody (s s' : Server) : Prop :=
  s'.core.subscriptions = s.core.subscriptions ∧ s'.core.payments = s.core.payments
    ∧ s'.core.chain = s.core.chain

/-- No event and no delivery is written. -/
def Server.SameMail (s s' : Server) : Prop :=
  s'.core.hooks.events = s.core.hooks.events ∧ s'.core.hooks.deliveries = s.core.hooks.deliveries

theorem Server.BillsNobody.refl (s : Server) : s.BillsNobody s := ⟨rfl, rfl, rfl⟩

theorem Server.SameMail.refl (s : Server) : s.SameMail s := ⟨rfl, rfl⟩

/-- **The calls that are not of the services** write none of these tables; of a
delivery the worker writes what it was answered. -/
theorem other_answer (s : Server) {c : ServerCall} (hc : ∀ c', c ≠ .core c') (env : ServerEnv) :
    s.BillsNobody (s.answer env c).2
      ∧ ((∀ id data, c ≠ .delivery (.webhookDeliveryUpdate id data)) →
        s.SameMail (s.answer env c).2) := by
  have hboth : ∀ s' : Server, s.BillsNobody s' ∧ s.SameMail s' → s.BillsNobody s'
      ∧ ((∀ id data, c ≠ .delivery (.webhookDeliveryUpdate id data)) → s.SameMail s') :=
    fun _ h => ⟨h.1, fun _ => h.2⟩
  cases c with
  | core c => exact absurd rfl (hc c)
  | delivery c =>
      refine serve_delivery_after c env.toWebhookEnv s.core
        (P := fun w => s.BillsNobody (s.withCore w)
          ∧ ((∀ id data, ServerCall.delivery c ≠ .delivery (.webhookDeliveryUpdate id data)) →
            s.SameMail (s.withCore w)))
        (hboth s ⟨.refl s, .refl s⟩) (fun id data hcall t _ => ⟨⟨rfl, rfl, rfl⟩, fun h => ?_⟩)
        (fun _ _ => hboth _ ⟨⟨rfl, rfl, rfl⟩, rfl, rfl⟩)
        (fun _ _ => hboth _ ⟨⟨rfl, rfl, rfl⟩, rfl, rfl⟩)
      exact absurd (congrArg ServerCall.delivery hcall) (h id data)
  | index c => exact hboth _ ⟨⟨rfl, rfl, rfl⟩, rfl, rfl⟩
  | planCreate data =>
      apply hboth
      show s.BillsNobody (s.createPlan (env.freshIds.headD "") data).2
        ∧ s.SameMail (s.createPlan (env.freshIds.headD "") data).2
      unfold Server.createPlan
      split
      · exact ⟨.refl s, .refl s⟩
      split
      · exact ⟨.refl s, .refl s⟩
      · exact ⟨⟨rfl, rfl, rfl⟩, rfl, rfl⟩
  | planUpdate id data =>
      apply hboth
      show s.BillsNobody (s.updatePlan id data).2 ∧ s.SameMail (s.updatePlan id data).2
      unfold Server.updatePlan
      split
      · split
        · exact ⟨.refl s, .refl s⟩
        split
        · exact ⟨.refl s, .refl s⟩
        · exact ⟨⟨rfl, rfl, rfl⟩, rfl, rfl⟩
      · exact ⟨.refl s, .refl s⟩
  | webhookEndpointCreate data =>
      apply hboth
      show s.BillsNobody (s.createEndpoint (env.freshIds.headD "") data).2
        ∧ s.SameMail (s.createEndpoint (env.freshIds.headD "") data).2
      unfold Server.createEndpoint
      split
      · exact ⟨.refl s, .refl s⟩
      · exact ⟨⟨rfl, rfl, rfl⟩, rfl, rfl⟩
  | webhookEndpointDeactivate id =>
      apply hboth
      show s.BillsNobody (s.deactivateEndpoint id).2 ∧ s.SameMail (s.deactivateEndpoint id).2
      unfold Server.deactivateEndpoint
      split
      · exact ⟨.refl s, .refl s⟩
      split
      · exact ⟨.refl s, .refl s⟩
      · exact ⟨⟨rfl, rfl, rfl⟩, rfl, rfl⟩
  | walletUpsertVerified address =>
      apply hboth
      show s.BillsNobody (s.verifyWallet (env.freshIds.headD "") address).2
        ∧ s.SameMail (s.verifyWallet (env.freshIds.headD "") address).2
      unfold Server.verifyWallet
      split
      · exact ⟨⟨rfl, rfl, rfl⟩, rfl, rfl⟩
      split
      · exact ⟨.refl s, .refl s⟩
      · exact ⟨⟨rfl, rfl, rfl⟩, rfl, rfl⟩

theorem billsNobody_other (s : Server) {c : ServerCall} (hc : ∀ c', c ≠ .core c')
    (env : ServerEnv) : s.BillsNobody (s.answer env c).2 :=
  (other_answer s hc env).1

theorem other_drift {s s' : Server} (h : ServerDrift s s') : s.BillsNobody s' ∧ s.SameMail s' := by
  cases h with
  | billingQueue hq => exact ⟨⟨rfl, rfl, rfl⟩, rfl, rfl⟩
  | webhookQueue hw => cases hw <;> exact ⟨⟨rfl, rfl, rfl⟩, rfl, rfl⟩
  | ledger log => exact ⟨⟨rfl, rfl, rfl⟩, rfl, rfl⟩

theorem billsNobody_drift {s s' : Server} (h : ServerDrift s s') : s.BillsNobody s' :=
  (other_drift h).1

end Sorobill
