/-
  Sorobill.Rules.Deliveries
  ─────────────────────────
  **WHAT THE CALLS OF THE WEBHOOK WORKER DO.**

    • `serve_webhookDeliveryUpdate`, `serve_moveToFailed`, … — the outcomes of
      one call of the worker;
    • `World.Settled` — a delivery has been DELIVERED or FAILED;
    • `delivery_kept`, `delivery_origin` — the services insert PENDING deliveries
      and do no more;
    • `settled_services`, `settled_update` — a settled delivery stays settled.
-/
import Sorobill.Model.Deliveries
import Sorobill.Rules.Serving

namespace Sorobill

open Effect
open Relational
open JobQueue (Job Queue)

/-! ## §1. Outcomes of single calls. -/

/-- A call of the worker rejects and changes nothing, or is answered. -/
theorem serve_delivery_cases (c : DeliveryCall) (env : WebhookEnv) (w : World) :
    (∃ err, webhookApi.serve (.inr c) env w = (.error err, w))
      ∨ webhookApi.serve (.inr c) env w = w.answerDelivery env c := by
  unfold webhookApi Backend.extend
  dsimp only
  cases env.rejects with
  | some message => exact .inl ⟨_, rfl⟩
  | none => exact .inr rfl

/-- The look-up and the request leave the world as it is. -/
theorem serve_webhookDeliveryFindUniqueOrThrow (id : String) (env : WebhookEnv) (w : World) :
    (webhookApi.serve (.inr (.webhookDeliveryFindUniqueOrThrow id)) env w).2 = w := by
  rcases serve_delivery_cases (.webhookDeliveryFindUniqueOrThrow id) env w with ⟨_, h⟩ | h
  · rw [h]
  · rw [h]
    unfold World.answerDelivery
    dsimp only
    split <;> rfl

/-- What the look-up answers. -/
theorem delivery_of_read {id : String} {env : WebhookEnv} {w : World} {delivery : DeliveryWithEvent}
    (h : (webhookApi.serve (.inr (.webhookDeliveryFindUniqueOrThrow id)) env w).1
      = .ok delivery) :
    (w.hooks.deliveries.find? (·.id == id)).bind w.withEvent = some delivery := by
  rcases serve_delivery_cases (.webhookDeliveryFindUniqueOrThrow id) env w with ⟨_, hs⟩ | hs
  · rw [hs] at h
    cases h
  · rw [hs] at h
    unfold World.answerDelivery at h
    dsimp only at h
    split at h
    next => cases h
    next found hfound =>
      rw [hfound]
      exact congrArg some (Except.ok.inj h)

theorem serve_post (url body : String) (headers : List (String × String)) (env : WebhookEnv)
    (w : World) : (webhookApi.serve (.inr (.post url body headers)) env w).2 = w := by
  rcases serve_delivery_cases (.post url body headers) env w with ⟨_, h⟩ | h
  · rw [h]
  · rw [h]
    rfl

/-- **The row is updated**, or the call rejects. -/
theorem serve_webhookDeliveryUpdate (id : String) (data : WebhookDeliveryData) (env : WebhookEnv)
    (w : World) :
    (∃ err, webhookApi.serve (.inr (.webhookDeliveryUpdate id data)) env w = (.error err, w))
      ∨ ∃ old t, w.hooks.deliveries.find? (·.id == id) = some old
          ∧ w.hooks.deliveries.update? (·.id == id) data.apply = some t
          ∧ webhookApi.serve (.inr (.webhookDeliveryUpdate id data)) env w
              = (.ok (), { w with hooks := { w.hooks with deliveries := t } }) := by
  rcases serve_delivery_cases (.webhookDeliveryUpdate id data) env w with h | h
  · exact .inl h
  · rw [h]
    show (∃ err, w.updateDelivery id data = (.error err, w)) ∨ ∃ old t, _ ∧ _
      ∧ w.updateDelivery id data = _
    unfold World.updateDelivery
    cases hold : w.hooks.deliveries.find? (·.id == id) with
    | none => exact .inl ⟨_, rfl⟩
    | some old =>
        cases ht : w.hooks.deliveries.update? (·.id == id) data.apply with
        | none => exact .inl ⟨_, rfl⟩
        | some t => exact .inr ⟨old, t, rfl, rfl, rfl⟩

/-- The job is completed, or the call rejects. -/
theorem serve_moveToCompleted (job : Job String) (env : WebhookEnv) (w : World) :
    (∃ err, webhookApi.serve (.inr (.moveToCompleted job)) env w = (.error err, w))
      ∨ webhookApi.serve (.inr (.moveToCompleted job)) env w
          = (.ok (), w.withQueue (w.hooks.queue.complete webhookJobOptions job)) := by
  rcases serve_delivery_cases (.moveToCompleted job) env w with h | h
  · exact .inl h
  · rw [h]
    unfold World.answerDelivery
    dsimp only
    split
    · exact .inr rfl
    · exact .inl ⟨_, rfl⟩

/-- The attempt has failed, or the call rejects. -/
theorem serve_moveToFailed (job : Job String) (env : WebhookEnv) (w : World) :
    (∃ err, webhookApi.serve (.inr (.moveToFailed job)) env w = (.error err, w))
      ∨ webhookApi.serve (.inr (.moveToFailed job)) env w
          = (.ok (), w.withQueue (w.hooks.queue.failAttempt webhookJobOptions job)) := by
  rcases serve_delivery_cases (.moveToFailed job) env w with h | h
  · exact .inl h
  · rw [h]
    unfold World.answerDelivery
    dsimp only
    split
    · exact .inr rfl
    · exact .inl ⟨_, rfl⟩

/-- The message of an error is text. -/
theorem AxiosError.text_message (js : Builtins) (message : String) :
    AxiosError.text js ⟨message, none⟩ = .ok message := by
  show js.string (.string message) = .ok message
  unfold Builtins.string
  rw [JavaScript.JsValue.toString?_string]

/-! ## §2. Settled deliveries. -/

/-- The delivery has been DELIVERED or FAILED. -/
def World.Settled (w : World) (id : String) : Prop :=
  ∃ d ∈ w.hooks.deliveries, d.id = id ∧ d.status ≠ .PENDING

/-- No other row has the id. -/
theorem World.Settled.not_pending {w : World} {d : WebhookDelivery} (h : w.Settled d.id)
    (hd : d ∈ w.hooks.deliveries) : d.status ≠ .PENDING := by
  obtain ⟨d', hd', hid, hst⟩ := h
  rw [← Table.eq_of_clash hd' hd hid]
  exact hst

/-- **The services delete and change no delivery.** -/
theorem delivery_kept (c : Call) (env : Env) (w : World) {d : WebhookDelivery}
    (hd : d ∈ w.hooks.deliveries) : d ∈ (api.serve c env w).2.hooks.deliveries := by
  have hstep : HooksStep w.hooks (api.serve c env w).2.hooks := serve_hooks c env w
  generalize (api.serve c env w).2.hooks = h' at hstep
  cases hstep with
  | deliveries ht => exact (mem_insertAll ht).mpr (.inl hd)
  | _ => exact hd

/-- The services insert deliveries that are PENDING. -/
theorem delivery_origin (c : Call) (env : Env) (w : World) {d : WebhookDelivery}
    (hd : d ∈ (api.serve c env w).2.hooks.deliveries) :
    d ∈ w.hooks.deliveries ∨ d.status = .PENDING ∧ d.deliveredAt = none := by
  by_cases hc : c.region = .hooks
  · cases c with
    | webhookEventCreate type paymentId payload =>
        rcases serve_webhookEventCreate type paymentId payload env w with ⟨_, h⟩ | ⟨_, _, -, h⟩
        · rw [h] at hd
          exact .inl hd
        · rw [h] at hd
          exact .inl hd
    | webhookDeliveryCreateAll eventId endpointIds =>
        rcases serve_webhookDeliveryCreateAll eventId endpointIds env w
          with ⟨_, h⟩ | ⟨rows, t, hrows, ht, h⟩
        · rw [h] at hd
          exact .inl hd
        · rw [h] at hd
          exact ((mem_insertAll ht).mp hd).imp_right (hrows d)
    | webhookQueueAdd deliveryId =>
        rcases serve_webhookQueueAdd deliveryId env w with ⟨_, h⟩ | h
        · rw [h] at hd
          exact .inl hd
        · rw [h] at hd
          exact .inl hd
    | _ => cases hc
  · rw [(serve_changed c env w).hooks_eq hc] at hd
    exact .inl hd

theorem settled_services (c : Call) (env : Env) {w : World} {id : String} (h : w.Settled id) :
    (api.serve c env w).2.Settled id := by
  obtain ⟨d, hd, hd'⟩ := h
  exact ⟨d, delivery_kept c env w hd, hd'⟩

/-- **An update that settles the delivery** settles no other one, and unsettles
none. -/
theorem settled_update {w : World} {id : String} {data : WebhookDeliveryData}
    {old : WebhookDelivery} {t : Table WebhookDelivery WebhookDelivery.Clash}
    (hold : w.hooks.deliveries.find? (·.id == id) = some old)
    (ht : w.hooks.deliveries.update? (·.id == id) data.apply = some t)
    (hdata : data.status ≠ .PENDING) (x : String) :
    ({ w with hooks := { w.hooks with deliveries := t } } : World).Settled x
      ↔ w.Settled x ∨ x = id := by
  constructor
  · rintro ⟨d, hd, rfl, hst⟩
    rcases Table.update_origin ht hd with hd | ⟨r, -, hid, rfl⟩
    · exact .inl ⟨d, hd, rfl, hst⟩
    · exact .inr (beq_iff_eq.mp hid)
  · rintro (⟨d, hd, rfl, hst⟩ | rfl)
    · rcases Table.update_fate ht hd with hd | ⟨-, hwritten⟩
      · exact ⟨d, hd, rfl, hst⟩
      · exact ⟨data.apply d, hwritten, rfl, hdata⟩
    · obtain ⟨hmem, hid⟩ := Table.find?_mem hold
      exact ⟨data.apply old, Table.mem_update_of_selected ht hmem hid, beq_iff_eq.mp hid, hdata⟩

end Sorobill
