/-
  Sorobill.System.Emissions
  ─────────────────────────
  **THE CALLS OF THE SERVICES, AND THE EMISSION OF AN EVENT.**

    • `services`, `lawfully` — lawful calls of the services as a `Growth`, and
      the contract of an execution that makes no others;
    • `safe_service` — the rule for one awaited call;
    • `emitWebhookEvent_backed` — **an event that may be announced is stored,
      addressed to endpoints that have subscribed to it, and queued for
      delivery**.
-/
import Sorobill.System.Validity

namespace Sorobill

open Effect
open Relational
open JavaScript (JsValue)

/-! ## §1. The services on the server. -/

/-- **Lawful calls of the services.** -/
def services (d : Epoch) : Growth coreApi Unit where
  valid := Server.Valid d
  grows := Server.Grows
  admits _ := True
  lawful _ e := e.call.Lawful d e.before
  refl := Server.Grows.refl
  trans := Server.Grows.trans
  step _ e hvalid _ hlawful :=
    have hstep : e.before.Step d (e.after coreApi) := core_step hlawful e.env.toEnv
    ⟨hvalid.step hstep, hstep.grows⟩

/-- Nothing is remembered of an execution. -/
abbrev lawfully (d : Epoch) : Contract coreApi Unit :=
  (services d).contract (fun v _ => v)

section Rules

variable {d : Epoch} {s : Server} {α : Type}

/-- **One awaited call**: it is lawful in every state that the start has grown
to, and the execution goes on with its answer. -/
theorem safe_service {c : Call} {Q : Post Api Server Unit c.Reply}
    (h : ∀ s₁ : Server, s.Grows s₁ → s₁.Valid d → c.Lawful d s₁
      ∧ ∀ env r w, api.serve c env s₁.core = (r, w) → (s₁.withCore w).Valid d →
          s.Grows (s₁.withCore w) → Q r (s₁.withCore w) ()) :
    Safe (lawfully d) (await c) Q s () := by
  refine Growth.safe_call (G := services d) (fun s₁ env hgrows hvalid _ => ?_)
  obtain ⟨hlawful, hQ⟩ := h s₁ hgrows hvalid
  exact ⟨hlawful, fun hvalid' hgrows' => hQ env.toEnv _ _ rfl hvalid' hgrows'⟩

/-- An awaited call that is lawful whatever is stored. -/
theorem safe_unconditional {c : Call} {Q : Post Api Server Unit c.Reply}
    (hc : ∀ s, c.Lawful d s) (h : ∀ r s₁, s.Grows s₁ → s₁.Valid d → Q r s₁ ()) :
    Safe (lawfully d) (await c) Q s () :=
  safe_service (fun s₁ _ _ => ⟨hc s₁, fun _ r _ _ hvalid hgrows => h r _ hgrows hvalid⟩)

/-- A footprint of the services is one on the server. -/
theorem calls_onServer {F : Call → Prop} {p : Service α} : Calls api F p → Calls coreApi F p := by
  induction p with
  | done a => exact fun _ => trivial
  | fail e => exact fun _ => trivial
  | call c next ih => exact fun hp => ⟨hp.1, fun env s => ih _ (hp.2 env.toEnv s.core)⟩

/-- A footprint of calls that are lawful once `K` is known. -/
theorem safe_known {F : Call → Prop} {K : Server → Prop}
    (hK : ∀ s s₁ : Server, s.Grows s₁ → K s → K s₁)
    (hF : ∀ c (s : Server), F c → K s → s.Valid d → c.Lawful d s) {p : Service α}
    (hs : K s) (hp : Calls api F p) : Safe (lawfully d) p (fun _ _ _ => True) s () := by
  have hlawful : ∀ e : Event Api Server ServerEnv, F e.call → K e.before →
      (services d).valid e.before → (services d).admits e → (services d).lawful () e :=
    fun e hc hk hvalid _ => hF e.call e.before hc hk hvalid
  exact (Growth.safe_calls (G := services d) (K := K) (fun _ => rfl) hK hlawful hs
    (calls_onServer hp)).mono (fun _ _ _ _ => trivial)

/-- What is known of the start is known at the end. -/
theorem safe_remembered {p : Service α} {Q : Post Api Server Unit α}
    (h : Safe (lawfully d) p Q s ()) :
    Safe (lawfully d) p (fun r s₁ v => Q r s₁ v ∧ s.Grows s₁) s () :=
  Growth.safe_grows (G := services d) h

/-! ## §2. Emissions. -/

/-- **The emission of an event that may be announced** once it is stored. -/
theorem emitWebhookEvent_backed {type : WebhookEventType} {paymentId : Option String}
    {payload : JsValue} (h : ∀ s₁ : Server, s.Grows s₁ → s₁.Valid d →
      Announced d.cfg s₁ type paymentId payload) :
    Safe (lawfully d) (emitWebhookEvent type paymentId payload) (fun _ _ _ => True) s () := by
  unfold emitWebhookEvent
  rw [safe_bind]
  refine safe_service (fun s₁ _ hvalid₁ => ⟨trivial, fun env r w hserve _ hgrows => ?_⟩)
  rcases serve_webhookEndpointFindMany type env s₁.core with ⟨err, hs⟩ | hs
  · rw [hs] at hserve
    cases hserve
    trivial
  rw [hs] at hserve
  cases hserve
  rw [andThen_ok]
  split
  · trivial
  -- every endpoint that was found is active and has subscribed to the type
  have hfound : ∀ id ∈ (s₁.core.hooks.endpoints.filter
      (fun e => e.isActive && e.events.contains type)).map (·.id),
      s₁.Subscribes id type ∧ ¬ d.RetiredEndpoint id := by
    intro id hid
    obtain ⟨e, he, rfl⟩ := List.mem_map.mp hid
    obtain ⟨hmem, hsel⟩ := Table.mem_filter.mp he
    obtain ⟨hactive, hevents⟩ := Bool.and_eq_true_iff.mp hsel
    refine ⟨⟨e, hmem, rfl, List.contains_iff_mem.mp hevents⟩, fun hretired => ?_⟩
    rw [hvalid₁.retiredEndpoint hmem hretired] at hactive
    cases hactive
  rw [safe_bind]
  refine safe_service (fun s₂ hgrows₂ hvalid₂ => ⟨h s₂ (hgrows.trans _ _ _ hgrows₂) hvalid₂,
    fun env r w hserve _ hgrows₂ => ?_⟩)
  rcases serve_webhookEventCreate type paymentId payload env s₂.core
    with ⟨err, hs⟩ | ⟨id, t, ht, hs⟩
  · rw [hs] at hserve
    cases hserve
    trivial
  rw [hs] at hserve
  cases hserve
  rw [andThen_ok, safe_bind]
  have hevent := (Table.mem_insert ht).mpr (.inr rfl)
  refine safe_service (fun s₃ hgrows₃ _ => ⟨⟨_, hgrows₃.events _ hevent, rfl, fun x hx =>
    ⟨((hfound x hx).1.grow hgrows₂).grow hgrows₃, (hfound x hx).2⟩⟩,
    fun env r w hserve _ hgrows₃ => ?_⟩)
  rcases serve_webhookDeliveryCreateAll id _ env s₃.core with ⟨err, hs⟩ | ⟨rows, t, -, ht, hs⟩
  · rw [hs] at hserve
    cases hserve
    trivial
  rw [hs] at hserve
  cases hserve
  rw [andThen_ok]
  refine safe_known (F := fun c => ∃ x ∈ rows, c = .webhookQueueAdd x.id)
    (K := fun s => ∀ x ∈ rows, s.HasDelivery x.id)
    (fun _ _ hgrows hK x hx => (hK x hx).grow hgrows) ?_
    (fun x hx => ⟨x, (mem_insertAll ht).mpr (.inr hx), rfl⟩) (promiseAll_calls ?_)
  · rintro _ s ⟨x, hx, rfl⟩ hK _
    exact hK x hx
  · intro p hp
    obtain ⟨x, hx, rfl⟩ := List.mem_map.mp hp
    exact calls_perform ⟨x, hx, rfl⟩

end Rules

end Sorobill
