/-
  Sorobill.System.Deliveries
  ──────────────────────────
  **EVENTS AND THEIR DELIVERIES**, in every state the server reaches.

    • `trackEvent`, `body_addresses` — deliveries of an event are made by the
      execution that has stored it, once, for different endpoints;
    • `mail_same`, `mail_updated` — what calls do to events and deliveries;
    • `governs_tickets` — events as keys that are issued once and spent once;
    • `deliveries_are_unique` — **an endpoint is told of an event by one
      delivery**.
-/
import Sorobill.Library.Tickets
import Sorobill.System.Authority

namespace Sorobill

open Effect
open Relational
open JavaScript (JsValue)
open Shop

/-! ## §1. Events in flight. -/

/-- Events are stored, and deliveries are made of them. -/
def eventTickets : Tickets Server String where
  issued s id := ∃ x ∈ s.core.hooks.events, x.id = id
  spent s id := ∃ x ∈ s.core.hooks.deliveries, x.webhookEventId = id

/-- The event that an execution has stored and not yet made deliveries of. -/
def trackEvent (v : Option String) : ServerEvent → Option String
  | ⟨s, .core (.webhookEventCreate type paymentId payload), env⟩ =>
      match (serverApi.serve (.core (.webhookEventCreate type paymentId payload)) env s).1 with
      | .ok event => some event.id
      | .error _ => v
  | ⟨_, .core (.webhookDeliveryCreateAll _ _), _⟩ => none
  | _ => v

theorem trackEvent_create (type : WebhookEventType) (paymentId : Option String) (payload : JsValue)
    (s : Server) (env : ServerEnv) (v : Option String) :
    trackEvent v ⟨s, .core (.webhookEventCreate type paymentId payload), env⟩
      = match (api.serve (.webhookEventCreate type paymentId payload) env.toEnv s.core).1 with
        | .ok event => some event.id
        | .error _ => v := by
  show (match (serverApi.serve (.core (.webhookEventCreate type paymentId payload)) env s).1 with
    | .ok event => some event.id
    | .error _ => v) = _
  rw [serve_core]
  rfl

/-- An event that has been stored is the one to make deliveries of. -/
theorem trackEvent_stored {type : WebhookEventType} {paymentId : Option String} {payload : JsValue}
    {s : Server} {env : ServerEnv} {event : WebhookEvent} {w : World} {v : Option String}
    (h : api.serve (.webhookEventCreate type paymentId payload) env.toEnv s.core = (.ok event, w)) :
    trackEvent v ⟨s, .core (.webhookEventCreate type paymentId payload), env⟩ = some event.id := by
  rw [trackEvent_create, h]

/-- One that has not been stored leaves the execution what it had. -/
theorem trackEvent_rejected {type : WebhookEventType} {paymentId : Option String}
    {payload : JsValue} {s : Server} {env : ServerEnv} {err : Thrown} {w : World}
    {v : Option String}
    (h : api.serve (.webhookEventCreate type paymentId payload) env.toEnv s.core
      = (.error err, w)) :
    trackEvent v ⟨s, .core (.webhookEventCreate type paymentId payload), env⟩ = v := by
  rw [trackEvent_create, h]

/-- Deliveries are made of the event that the execution has stored, one for
each endpoint. -/
def Call.Addresses (v : Option String) : Call → Prop
  | .webhookDeliveryCreateAll eventId endpointIds => v = some eventId ∧ endpointIds.Nodup
  | _ => True

def ServerCall.Addresses (v : Option String) : ServerCall → Prop
  | .core c => c.Addresses v
  | _ => True

/-- The call stores no event and makes no deliveries. -/
def Call.isMute : Call → Prop
  | .webhookEventCreate _ _ _ => False
  | .webhookDeliveryCreateAll _ _ => False
  | _ => True

theorem Call.isMute.addresses {c : Call} (h : c.isMute) (v : Option String) :
    c.Addresses v := by
  cases c <;> first | exact h.elim | trivial

def ServerCall.isMute : ServerCall → Prop
  | .core c => c.isMute
  | _ => True

theorem ServerCall.isMute.addresses {c : ServerCall} (h : c.isMute) (v : Option String) :
    c.Addresses v := by
  cases c with
  | core c => exact Call.isMute.addresses h v
  | _ => trivial

/-- The running server, each execution with the event that it has stored. -/
abbrev addressingServer (d : Deployment) :
    System ServerApi Server ServerEnv ServerOperation (Option String) :=
  (runningServer d).viewed (fun _ => none) trackEvent

/-- The same for programs of the services. -/
def addressing : Contract coreApi (Option String) where
  rely _ _ := True
  assume _ _ := True
  guarantee v e := e.call.Addresses v
  track v e := trackEvent v ⟨e.before, .core e.call, e.env⟩

section Addressing

variable {α : Type}

/-- One awaited call. -/
theorem addressing_call {c : Call} {v : Option String} {s : Server}
    {Q : Post Api Server (Option String) c.Reply} (hc : c.Addresses v)
    (h : ∀ (s₁ : Server) (env : ServerEnv) r w, api.serve c env.toEnv s₁.core = (r, w) →
      Q r (s₁.withCore w) (trackEvent v ⟨s₁, .core c, env⟩)) :
    Safe addressing (await c) Q s v :=
  safe_perform.mpr (fun s₁ env _ _ => ⟨hc, h s₁ env _ _ rfl⟩)

theorem mute_addresses {p : Service α} (h : Calls api Call.isMute p) : Always addressing p :=
  always_of_calls (fun v _ he => he.addresses v) (calls_onServer h)

/-- **An emission makes deliveries once**, of the event that it has stored, for
different endpoints. -/
theorem emitWebhookEvent_addresses (type : WebhookEventType) (paymentId : Option String)
    (payload : JsValue) : Always addressing (emitWebhookEvent type paymentId payload) := by
  intro s v
  unfold emitWebhookEvent
  rw [safe_bind]
  refine addressing_call trivial (fun s₁ env r w hserve => ?_)
  rcases serve_webhookEndpointFindMany type env.toEnv s₁.core with ⟨err, hs⟩ | hs
  · rw [hs] at hserve
    cases hserve
    trivial
  rw [hs] at hserve
  cases hserve
  -- the endpoints of one query are distinct rows
  have hdistinct : ((s₁.core.hooks.endpoints.filter
      (fun e => e.isActive && e.events.contains type)).map (·.id)).Nodup :=
    Table.nodup_keys (fun _ _ h => h) s₁.core.hooks.endpoints _
  rw [andThen_ok]
  split
  · trivial
  rw [safe_bind]
  refine addressing_call trivial (fun s₂ env₂ r w hserve => ?_)
  rcases serve_webhookEventCreate type paymentId payload env₂.toEnv s₂.core
    with ⟨err, hs⟩ | ⟨id, t, ht, hs⟩
  · rw [hs] at hserve
    cases hserve
    trivial
  rw [hs] at hserve
  cases hserve
  -- the event is stored: its ticket is held until the rows are created
  rw [trackEvent_stored hs, andThen_ok, safe_bind]
  refine addressing_call ⟨rfl, hdistinct⟩ (fun s₃ env₃ r w hserve => ?_)
  cases r with
  | error err => trivial
  | ok rows =>
    rw [andThen_ok]
    refine mute_addresses (promiseAll_calls (fun p hp => ?_)) _ _
    obtain ⟨x, -, rfl⟩ := List.mem_map.mp hp
    exact calls_perform trivial

theorem mute_call {c : Call} (h : c.isMute) : Always addressing (await c) :=
  mute_addresses (calls_perform h)

theorem Call.isCharge.mute {pid : String} {c : Call} (h : c.isCharge pid) : c.isMute := by
  cases c <;> first | exact h.elim | trivial

/-- **A billing cycle emits once at most**, and after everything else. -/
theorem processBillingCycle_addresses (cfg : Config) (id : String) :
    Always addressing (processBillingCycle cfg id) := by
  have hadvance : ∀ sub, Always addressing (advancePeriod cfg sub) := fun _ =>
    always_bind (fun _ => always_pure) (mute_call trivial)
  unfold processBillingCycle prisma.subscription.findUniqueOrThrow
  refine always_bind (fun sub => ?_) (always_bind (fun found => ?_) (mute_call trivial))
  · split
    · exact always_pure
    unfold processBillingCycle.rest
    refine always_bind (fun existing => ?_) (mute_call trivial)
    split
    · exact hadvance sub
    refine always_bind (fun payment => always_tryCatch (fun _ => ?_) ?_) ?_
    · unfold handlePaymentFailure
      dsimp only
      split
      · -- past due: one event
        refine always_bind (fun now => always_bind (fun _ => ?_) (mute_call trivial))
          (mute_call trivial)
        exact emitWebhookEvent_addresses _ _ _
      · -- a counted retry: none
        refine always_bind (fun now => always_bind (fun _ => ?_) (mute_call trivial))
          (mute_call trivial)
        exact always_bind (fun _ => always_pure) (mute_call trivial)
    · refine always_bind (fun _ => always_bind (fun _ => ?_) (hadvance sub))
        (mute_addresses ((chargePayment_calls sub _ _).mono (fun _ h => h.mute)))
      exact emitWebhookEvent_addresses _ _ _
    · cases existing with
      | some payment => exact always_pure
      | none => exact mute_call trivial
  · cases found with
    | some sub => exact always_pure
    | none => exact always_throw

theorem expireGracePeriods_addresses : Always addressing expireGracePeriods := by
  unfold expireGracePeriods
  refine always_bind (fun now => always_bind (fun expired => ?_) (mute_call trivial))
    (mute_call trivial)
  refine always_forEach (fun sub _ => always_bind (fun now => ?_) (mute_call trivial))
  refine always_bind (fun _ => ?_) (mute_call trivial)
  exact emitWebhookEvent_addresses _ _ _

theorem subscriptions_create_addresses (cfg : Config) (body : CreateSubscription) :
    Always addressing (subscriptions.create cfg body) := by
  unfold subscriptions.create
  split
  · exact always_pure
  refine always_bind (fun found => ?_) (mute_call trivial)
  split
  · exact always_pure
  refine always_bind (fun wallet => ?_) (mute_call trivial)
  refine always_bind (fun now => ?_) (mute_call trivial)
  refine always_bind (fun sub => ?_) (mute_call trivial)
  exact always_bind (fun _ => always_pure) (emitWebhookEvent_addresses _ _ _)

theorem subscriptions_cancel_addresses (id : String) (immediately : Bool) :
    Always addressing (subscriptions.cancel id immediately) := by
  refine always_bind (fun found => ?_) (mute_call trivial)
  cases found with
  | none => exact always_pure
  | some sub =>
      refine always_bind (fun cancelledAt => ?_) ?_
      · refine always_bind (fun updated => ?_) (mute_call trivial)
        exact always_bind (fun _ => always_pure) (emitWebhookEvent_addresses _ _ _)
      · cases immediately with
        | true => exact always_bind (fun _ => always_pure) (mute_call trivial)
        | false => exact always_pure

/-- **Every operation of billing** makes its deliveries right after their event. -/
theorem operation_addresses (cfg : Config) (op : Operation) :
    Always addressing (op.body cfg) := by
  cases op with
  | createSubscription body => exact always_map (subscriptions_create_addresses cfg body)
  | cancel id immediately => exact always_map (subscriptions_cancel_addresses id immediately)
  | pause id =>
      refine always_map (always_bind (fun found => ?_) (mute_call trivial))
      cases found with
      | none => exact always_pure
      | some sub =>
          show Always addressing (if _ then _ else _)
          split
          · exact always_pure
          · exact always_bind (fun _ => always_pure) (mute_call trivial)
  | resume id =>
      refine always_map (always_bind (fun found => ?_) (mute_call trivial))
      cases found with
      | none => exact always_pure
      | some sub =>
          show Always addressing (if _ then _ else _)
          split
          · exact always_pure
          refine always_bind (fun now => ?_) (mute_call trivial)
          exact always_bind (fun _ => always_pure) (mute_call trivial)
  | retryPayment id =>
      refine always_map (mute_addresses ((retry_isEnqueuing id).mono (fun c h => ?_)))
      cases c <;> first | exact h.elim | trivial
  | runBilling id => exact always_map (always_bind (fun _ => always_pure) (mute_call trivial))
  | runInline id =>
      exact always_map (always_bind (fun _ => always_pure) (processBillingCycle_addresses cfg id))
  | billingJob job => exact always_map (processBillingCycle_addresses cfg job.data)
  | tick =>
      refine always_map (always_bind (fun due => ?_) ?_)
      · refine always_bind (fun _ => expireGracePeriods_addresses) ?_
        exact always_forEach (fun sub _ => mute_call trivial)
      · exact always_bind (fun now => mute_call trivial) (mute_call trivial)
  | expireGracePeriods => exact always_map expireGracePeriods_addresses

/-- What neither bills nor tests webhooks reads the clock at most. -/
theorem ServerOperation.May.dateNow {d : Deployment} {s : Server} {op : ServerOperation} {c : Call}
    (hbills : ∀ b, op ≠ .billing b) (htests : ∀ type payload, op ≠ .testEvent type payload)
    (h : op.May d s (.core c)) : c = .dateNow := by
  cases op with
  | billing b => exact absurd rfl (hbills b)
  | testEvent type payload => exact absurd rfl (htests type payload)
  | deliver job => exact h
  | _ => exact False.elim h

/-- A program of the services, on the server. -/
theorem services_address {d : Deployment} {p : Service α} (h : Always addressing p) :
    Always (Tickets.contract (addressingServer d) ServerCall.Addresses)
      (p.translate servicesOnServer) := by
  intro s v
  refine (Safe.translate servicesImplemented (fun _ _ h => h) (fun _ _ _ _ h => h)
    (fun _ _ _ _ _ h => h) (fun _ _ _ _ => rfl) (h s v)).mono (fun _ _ _ _ => trivial)

/-- **Every operation of the server** makes its deliveries right after their
event. -/
theorem body_addresses (d : Deployment) (op : ServerOperation) :
    Always (Tickets.contract (addressingServer d) ServerCall.Addresses) (op.body d) := by
  cases op with
  | billing op => exact services_address (always_map (operation_addresses d.cfg op))
  | testEvent type payload =>
      refine always_map (always_bind (fun _ => always_pure) ?_)
      exact services_address (emitWebhookEvent_addresses _ _ _)
  | _ =>
      refine always_of_calls (F := ServerCall.isMute) (fun v _ h => h.addresses v)
        ((other_within (by exact nofun)).mono (fun c h => ?_))
      cases c with
      | core c =>
          obtain rfl := (h Server.fresh).dateNow (by exact nofun) (by exact nofun)
          trivial
      | _ => trivial

end Addressing

/-! ## §2. What calls do to events and deliveries. -/

/-- The events are the same, and no delivery is new. -/
structure Server.KeepsMail (s s' : Server) : Prop where
  events : s'.core.hooks.events = s.core.hooks.events
  deliveries : ∀ x' ∈ s'.core.hooks.deliveries, ∃ x ∈ s.core.hooks.deliveries, x.Becomes x'

section Serving

variable {s s' : Server}

theorem Server.SameMail.keeps (h : s.SameMail s') : s.KeepsMail s' :=
  ⟨h.1, fun x hx => ⟨x, h.2 ▸ hx, .refl x⟩⟩

theorem delivery_unique {w : World} {x y : WebhookDelivery} (hx : x ∈ w.hooks.deliveries)
    (hy : y ∈ w.hooks.deliveries) (h : x.id = y.id) : x = y :=
  Table.eq_of_clash hx hy h

/-- **The calls that are mute** leave events and deliveries as they are, but for
what the worker writes of a delivery. -/
theorem mail_same {c : ServerCall} (hc : c.isMute)
    (hupdate : ∀ id data, c ≠ .delivery (.webhookDeliveryUpdate id data)) (env : ServerEnv)
    (s : Server) : s.SameMail (serverApi.serve c env s).2 := by
  rcases server_cases c env s with ⟨err, hs⟩ | hs
  · rw [hs]
    exact .refl s
  rw [hs]
  cases c with
  | core c =>
      show s.SameMail (s.withCore (api.serve c env.toEnv s.core).2)
      by_cases hregion : c.region = .hooks
      · cases c with
        | webhookEventCreate type paymentId payload => exact hc.elim
        | webhookDeliveryCreateAll eventId endpointIds => exact hc.elim
        | webhookQueueAdd deliveryId =>
            rcases serve_webhookQueueAdd deliveryId env.toEnv s.core with ⟨err, hs⟩ | hs
            · rw [hs]
              exact .refl s
            · rw [hs]
              exact ⟨rfl, rfl⟩
        | _ => cases hregion
      · have hhooks := (serve_changed c env.toEnv s.core).hooks_eq hregion
        exact ⟨congrArg Hooks.events hhooks, congrArg Hooks.deliveries hhooks⟩
  | _ => exact (other_answer s (fun _ h => by cases h) env).2 hupdate

/-- **What the worker writes of a delivery.** -/
theorem mail_updated (id : String) (data : WebhookDeliveryData) (env : ServerEnv) (s : Server) :
    let s' := (serverApi.serve (.delivery (.webhookDeliveryUpdate id data)) env s).2
    s'.core.hooks.events = s.core.hooks.events
      ∧ (∀ x' ∈ s'.core.hooks.deliveries,
          ∃ x ∈ s.core.hooks.deliveries, x' = x ∨ x' = data.apply x)
      ∧ ∀ x ∈ s.core.hooks.deliveries,
          x ∈ s'.core.hooks.deliveries ∨ data.apply x ∈ s'.core.hooks.deliveries := by
  dsimp only
  rcases server_cases (.delivery (.webhookDeliveryUpdate id data)) env s with ⟨err, hs⟩ | hs
  · rw [hs]
    exact ⟨rfl, fun x hx => ⟨x, hx, .inl rfl⟩, fun _ hx => .inl hx⟩
  rw [hs]
  refine serve_delivery_after (.webhookDeliveryUpdate id data) env.toWebhookEnv s.core
    (P := fun w => w.hooks.events = s.core.hooks.events
      ∧ (∀ x' ∈ w.hooks.deliveries, ∃ x ∈ s.core.hooks.deliveries, x' = x ∨ x' = data.apply x)
      ∧ ∀ x ∈ s.core.hooks.deliveries, x ∈ w.hooks.deliveries ∨ data.apply x ∈ w.hooks.deliveries)
    ⟨rfl, fun x hx => ⟨x, hx, .inl rfl⟩, fun _ hx => .inl hx⟩
    (fun _ _ hcall t ht => ⟨rfl, fun x' hx' => ?_, fun x hx => ?_⟩)
    (fun _ hcall => by cases hcall) (fun _ hcall => by cases hcall)
  · cases hcall
    obtain ⟨x, hx, rfl⟩ := (Table.mem_update ht).mp hx'
    refine ⟨x, hx, ?_⟩
    split
    · exact .inr rfl
    · exact .inl rfl
  · cases hcall
    have hrow := (Table.mem_update ht).mpr ⟨x, hx, rfl⟩
    split at hrow
    · exact .inr hrow
    · exact .inl hrow

theorem mail_kept {c : ServerCall} (hc : c.isMute) (env : ServerEnv) (s : Server) :
    s.KeepsMail (serverApi.serve c env s).2 := by
  by_cases hupdate : ∃ id data, c = .delivery (.webhookDeliveryUpdate id data)
  · obtain ⟨id, data, rfl⟩ := hupdate
    obtain ⟨hevents, hrows, -⟩ := mail_updated id data env s
    refine ⟨hevents, fun x' hx' => ?_⟩
    obtain ⟨x, hx, rfl | rfl⟩ := hrows x' hx'
    · exact ⟨x', hx, .refl x'⟩
    · exact ⟨x, hx, rfl, rfl, rfl⟩
  · exact (mail_same hc (fun id data h => hupdate ⟨id, data, h⟩) env s).keeps

/-- **Deliveries are made**, one for each endpoint, or none. -/
theorem serve_deliveries (eventId : String) (endpointIds : List String) (env : Env) (w : World) :
    (∃ err, api.serve (.webhookDeliveryCreateAll eventId endpointIds) env w = (.error err, w))
      ∨ ∃ rows t, rows.map (·.webhookEndpointId) = endpointIds
          ∧ (∀ x ∈ rows, ∃ id endpointId,
            x = { id, webhookEventId := eventId, webhookEndpointId := endpointId })
          ∧ insertAll w.hooks.deliveries rows = some t
          ∧ api.serve (.webhookDeliveryCreateAll eventId endpointIds) env w
              = (.ok rows, { w with hooks := { w.hooks with deliveries := t } }) := by
  rcases serve_cases (.webhookDeliveryCreateAll eventId endpointIds) env w
    with ⟨_, -, h⟩ | ⟨-, h⟩
  · exact .inl ⟨_, h⟩
  rw [h]
  unfold World.answer
  dsimp only
  split
  next => exact .inl ⟨_, rfl⟩
  next t ht =>
    split
    swap
    · exact .inl ⟨_, rfl⟩
    next hlength =>
      rw [List.length_zipWith] at hlength
      refine .inr ⟨_, t, ?_, fun x hx => ?_, ht, rfl⟩
      · rw [← List.map_uncurry_zip_eq_zipWith, List.map_map]
        exact List.map_snd_zip (by omega)
      · rw [← List.map_uncurry_zip_eq_zipWith] at hx
        obtain ⟨⟨id, endpointId⟩, -, rfl⟩ := List.mem_map.mp hx
        exact ⟨id, endpointId, rfl⟩

end Serving

/-! ## §3. Interleavings. -/

/-- No two deliveries tell an endpoint of the same event. -/
def Server.TellsOnce (s : Server) : Prop :=
  ∀ x ∈ s.core.hooks.deliveries, ∀ y ∈ s.core.hooks.deliveries,
    x.webhookEventId = y.webhookEventId → x.webhookEndpointId = y.webhookEndpointId → x = y

section Tickets

variable {s s' : Server} {v : Option String}

theorem Server.KeepsMail.handles (h : s.KeepsMail s') : eventTickets.Handles s s' v v := by
  refine .keeps v (fun id ⟨x, hx, hid⟩ => ⟨x, h.events ▸ hx, hid⟩) (fun id ⟨x', hx', hid⟩ => ?_)
  obtain ⟨x, hx, hb⟩ := h.deliveries x' hx'
  exact ⟨x, hx, hb.webhookEventId.symm.trans hid⟩

theorem Server.KeepsMail.tellsOnce (h : s.KeepsMail s') (hs : s.TellsOnce) : s'.TellsOnce := by
  intro x' hx' y' hy' hevent hendpoint
  obtain ⟨x, hx, hxb⟩ := h.deliveries x' hx'
  obtain ⟨y, hy, hyb⟩ := h.deliveries y' hy'
  have hxy : x = y := by
    refine hs x hx y hy ?_ ?_
    · exact hxb.webhookEventId.symm.trans (hevent.trans hyb.webhookEventId)
    · exact hxb.webhookEndpointId.symm.trans (hendpoint.trans hyb.webhookEndpointId)
  exact delivery_unique hx' hy' (hxb.id.trans (hxy ▸ hyb.id.symm))

theorem trackEvent_mute {e : ServerEvent} (h : e.call.isMute) : trackEvent v e = v := by
  obtain ⟨s, c, env⟩ := e
  cases c with
  | core c => cases c <;> first | rfl | exact h.elim
  | _ => rfl

/-- A new event is in nobody's hands. -/
theorem event_handled (type : WebhookEventType) (paymentId : Option String) (payload : JsValue)
    (env : ServerEnv) (s : Server) (v : Option String) :
    let e : ServerEvent := ⟨s, .core (.webhookEventCreate type paymentId payload), env⟩
    eventTickets.Handles s (e.after serverApi) v (trackEvent v e)
      ∧ (s.TellsOnce → (e.after serverApi).TellsOnce) := by
  dsimp only
  have hafter : (⟨s, .core (.webhookEventCreate type paymentId payload), env⟩ : ServerEvent).after
      serverApi = s.withCore (api.serve (.webhookEventCreate type paymentId payload) env.toEnv
        s.core).2 := congrArg Prod.snd (serve_core _ env s)
  rw [hafter]
  rcases serve_webhookEventCreate type paymentId payload env.toEnv s.core
    with ⟨err, hs⟩ | ⟨id, t, ht, hs⟩
  · rw [hs, trackEvent_rejected hs]
    exact ⟨(Server.SameMail.refl s).keeps.handles, fun h => h⟩
  · rw [trackEvent_stored hs, hs]
    have hnew : ¬ eventTickets.issued s id := fun ⟨x, hx, hid⟩ =>
      Table.not_clash_of_insert ht x hx hid
    refine ⟨.issues v id hnew ⟨_, (Table.mem_insert ht).mpr (.inr rfl), rfl⟩ ?_ (fun _ h => h),
      fun h => h⟩
    rintro j ⟨x, hx, hid⟩
    exact ⟨x, (Table.mem_insert ht).mpr (.inl hx), hid⟩

/-- **Deliveries are made of an event that has none.** -/
theorem deliveries_handled {eventId : String} {endpointIds : List String}
    (hnodup : endpointIds.Nodup) (env : ServerEnv) (s : Server) :
    let e : ServerEvent := ⟨s, .core (.webhookDeliveryCreateAll eventId endpointIds), env⟩
    eventTickets.Handles s (e.after serverApi) (some eventId) none
      ∧ (¬ eventTickets.spent s eventId → s.TellsOnce → (e.after serverApi).TellsOnce) := by
  dsimp only
  have hafter : (⟨s, .core (.webhookDeliveryCreateAll eventId endpointIds), env⟩ :
      ServerEvent).after serverApi = s.withCore
        (api.serve (.webhookDeliveryCreateAll eventId endpointIds) env.toEnv s.core).2 :=
    congrArg Prod.snd (serve_core _ env s)
  rw [hafter]
  rcases serve_deliveries eventId endpointIds env.toEnv s.core
    with ⟨err, hs⟩ | ⟨rows, t, hkeys, hrows, ht, hs⟩
  · rw [hs]
    exact ⟨.spends eventId (fun _ h => h) (fun _ h => .inl h), fun _ h => h⟩
  rw [hs]
  -- all rows are of this event, one for each endpoint
  have hevent : ∀ x ∈ rows, x.webhookEventId = eventId := by
    intro x hx
    obtain ⟨_, _, rfl⟩ := hrows x hx
    rfl
  refine ⟨.spends eventId (fun _ h => h) ?_, fun hunspent honce x hx y hy hsame hendpoint => ?_⟩
  · rintro j ⟨x, hx, hid⟩
    rcases (mem_insertAll ht).mp hx with hx | hx
    · exact .inl ⟨x, hx, hid⟩
    · exact .inr (hid.symm.trans (hevent x hx))
  rcases (mem_insertAll ht).mp hx with hx | hx <;> rcases (mem_insertAll ht).mp hy with hy | hy
  · exact honce x hx y hy hsame hendpoint
  · -- the event had no delivery before
    exact absurd ⟨x, hx, hsame.trans (hevent y hy)⟩ hunspent
  · exact absurd ⟨y, hy, hsame.symm.trans (hevent x hx)⟩ hunspent
  · -- the endpoints are different ones
    exact List.inj_on_of_nodup_map (hkeys ▸ hnodup) hx hy hendpoint

/-- **Each event is delivered from by the execution that has stored it.** -/
theorem governs_tickets (d : Deployment) :
    eventTickets.Governs (addressingServer d) ServerCall.Addresses Server.TellsOnce := by
  have hcall : ∀ v (e : ServerEvent), e.call.Addresses v →
      eventTickets.Handles e.before (e.after serverApi) v (trackEvent v e)
        ∧ ((∀ k, v = some k → ¬ eventTickets.spent e.before k) → e.before.TellsOnce →
          (e.after serverApi).TellsOnce) := by
    rintro v ⟨s, c, env⟩ hc
    by_cases hmute : c.isMute
    · have hkept : s.KeepsMail (serverApi.serve c env s).2 := mail_kept hmute env s
      rw [trackEvent_mute hmute]
      exact ⟨hkept.handles, fun _ h => hkept.tellsOnce h⟩
    · cases c with
      | core c =>
          cases c with
          | webhookEventCreate type paymentId payload =>
              obtain ⟨hhandles, honce⟩ := event_handled type paymentId payload env s v
              exact ⟨hhandles, fun _ => honce⟩
          | webhookDeliveryCreateAll eventId endpointIds =>
              obtain ⟨rfl, hnodup⟩ := hc
              obtain ⟨hhandles, honce⟩ := deliveries_handled hnodup env s
              exact ⟨hhandles, fun hunspent => honce (hunspent eventId rfl)⟩
          | _ => exact absurd trivial hmute
      | _ => exact absurd trivial hmute
  exact {
    view := fun _ => rfl
    body := body_addresses d
    handles := fun v e hc => (hcall v e hc).1
    keeps := fun v e hc => (hcall v e hc).2
    drift := fun s s' hdrift =>
      ⟨(other_drift hdrift).2.keeps.handles, (other_drift hdrift).2.keeps.tellsOnce⟩ }

end Tickets

/-- **An endpoint is told of an event by one delivery**, in every state that the
server reaches. -/
theorem deliveries_are_unique (d : Deployment) (P : Pool ServerApi Server Unit)
    (h : ReachedBy d P) (x y : WebhookDelivery) (hx : x ∈ P.world.core.hooks.deliveries)
    (hy : y ∈ P.world.core.hooks.deliveries) (hevent : x.webhookEventId = y.webhookEventId)
    (hendpoint : x.webhookEndpointId = y.webhookEndpointId) : x = y := by
  obtain ⟨ts, hmoves, -⟩ := h.viewed (fun _ => none) trackEvent (show codes [] = codes [] from rfl)
  refine Tickets.moves (governs_tickets d) hmoves ?_ ?_ x hx y hy hevent hendpoint
  · rintro k ⟨z, hz, -⟩
    exact absurd hz (Table.not_mem_of_nil rfl z)
  · exact fun z hz => absurd hz (Table.not_mem_of_nil rfl z)

/-- A second endpoint that wants the same events. -/
def opensTill : List (Choice ServerOperation ServerEnv) :=
  [.start (.createEndpoint ⟨"https://till.example", "fedcba9876543210", [.PAYMENT_SUCCESS]⟩),
   .act 0 (answers 1 ["till"])]

/-- The payment is booked, and its event has a delivery for each endpoint. -/
def tellsBoth : List (Choice ServerOperation ServerEnv) :=
  answersAll 2 3 ++ [.act 0 (answers 2 ["event"]), .act 0 (answers 2 ["delivery", "notice"])]

/-- The event of the first cycle has two deliveries, to two endpoints. -/
theorem deliveries_are_unique_shop :
    ∃ P, ReachedBy (deployment false) P
      ∧ ∃ x ∈ P.world.core.hooks.deliveries, ∃ y ∈ P.world.core.hooks.deliveries,
        x.id = "delivery" ∧ y.id = "notice" ∧ x.webhookEventId = y.webhookEventId
          ∧ x.webhookEndpointId ≠ y.webhookEndpointId := by
  have hrun : (played false (opensShop ++ opensTill ++ chargesSub ++ tellsBoth)
      ⟨Server.fresh, []⟩).map
      (fun P => P.world.core.hooks.deliveries.rows.map (fun x => (x.id, x.webhookEventId)))
      = some [("delivery", "event"), ("notice", "event")] := by
    decide +kernel
  obtain ⟨P, hP, hrows⟩ := Option.map_eq_some_iff.mp hrun
  have hreached : ReachedBy (deployment false) P := moves_of_played hP
  obtain ⟨x, hx, hxrow⟩ := List.mem_map.mp
    (show ("delivery", "event") ∈ P.world.core.hooks.deliveries.rows.map _ from
      hrows ▸ List.mem_cons_self)
  obtain ⟨y, hy, hyrow⟩ := List.mem_map.mp
    (show ("notice", "event") ∈ P.world.core.hooks.deliveries.rows.map _ from
      hrows ▸ List.mem_cons_of_mem _ List.mem_cons_self)
  obtain ⟨hxid, hxevent⟩ := Prod.mk.inj hxrow
  obtain ⟨hyid, hyevent⟩ := Prod.mk.inj hyrow
  refine ⟨P, hreached, x, hx, y, hy, hxid, hyid, hxevent.trans hyevent.symm, fun hendpoint => ?_⟩
  -- rows of one event and one endpoint would be one row
  obtain rfl := deliveries_are_unique (deployment false) P hreached x y hx hy
    (hxevent.trans hyevent.symm) hendpoint
  rw [hxid] at hyid
  exact absurd hyid (by decide)

end Sorobill
