/-
  Sorobill.Endpoints.Verification
  ───────────────────────────────
  **WHICH SIGNATURES ARE ACCEPTED?**

  A signature is compared by the bytes of its UTF-8 encoding, which does not
  tell all strings apart.  It tells a digest apart from every other string:
  its digits are ASCII.

    • `verify_eq` — `verifyWebhookSignature` does not throw, and accepts the
      signature and nothing else;
    • `verification_exact` — so do the wrappers, and with them the header that
      `deliverWebhook` sends.
-/
import Sorobill.Model.Shop
import Sorobill.Rules.Deliveries

namespace Sorobill

open Effect
open Utf16 (units encode Ascii)

/-! ## §1. Verification. -/

theorem hexDigit_ascii (d : Fin 16) : (hexDigit d).toNat < 0x80 := by
  have hall : ∀ d : Fin 16, (hexDigit d).toNat < 0x80 := by decide
  exact hall d

/-- A digest is ASCII. -/
theorem ascii_text (h : HexDigest) : Ascii (units h.text) := by
  apply Utf16.ascii_units
  intro c hc
  rw [HexDigest.text, String.toList_ofList] at hc
  obtain ⟨d, -, rfl⟩ := List.mem_map.mp hc
  exact hexDigit_ascii d

/-- **Verification is equality of strings**, and never throws. -/
theorem verify_eq (hmac : Hmac) (secret body signature : List UInt16) :
    webhookCrypto.verifyWebhookSignature hmac secret body signature
      = .ok (decide (signature = webhookCrypto.signWebhookPayload hmac secret body)) := by
  have hascii : Ascii (webhookCrypto.signWebhookPayload hmac secret body) :=
    ascii_text (hmac secret body)
  unfold webhookCrypto.verifyWebhookSignature
  dsimp only
  generalize webhookCrypto.signWebhookPayload hmac secret body = expected at *
  have hbytes : encode signature = encode expected ↔ signature = expected :=
    Utf16.encode_eq_iff hascii
  split_ifs with hlength
  · -- strings of different byte lengths are different
    have hne : signature ≠ expected := fun h => hlength (by rw [h])
    rw [decide_eq_false hne]
  · rw [timingSafeEqual, if_neg hlength]
    congr 1
    rw [Bool.eq_iff_iff, beq_iff_eq, decide_eq_true_eq, eq_comm]
    exact hbytes

/-! ## §2. The header of a delivery. -/

section Deliveries

variable {js : Builtins} {id : String} {w w' : World} {t : List WebhookCallEvent}

/-- A request to the endpoint is the one for the delivery. -/
def DeliveryCall.posts (js : Builtins) (delivery : DeliveryWithEvent) (c : DeliveryCall) : Prop :=
  ∀ url body headers, c = .post url body headers →
    url = delivery.endpoint.url ∧ body = deliverWebhook.body js delivery.event
      ∧ headers =
        [("Content-Type", "application/json"),
         ("X-Sorobill-Signature", signWebhookPayload js delivery.endpoint.secret body),
         ("X-Sorobill-Event", delivery.event.type.name)]

/-- The footprint of a delivery after the look-up. -/
def Posting (js : Builtins) (delivery : DeliveryWithEvent) (c : WebhookApi.Call) : Prop :=
  ∀ c', c = .inr c' → c'.posts js delivery

theorem posting_await {delivery : DeliveryWithEvent} {c : DeliveryCall} (h : c.posts js delivery) :
    Calls webhookApi (Posting js delivery) (awaitDelivery c) :=
  calls_perform (fun c' hc => by
    cases hc
    exact h)

theorem attempt_posts (delivery : DeliveryWithEvent) :
    Calls webhookApi (Posting js delivery)
      (deliverWebhook.attempt js id delivery (deliverWebhook.body js delivery.event)
        (signWebhookPayload js delivery.endpoint.secret
          (deliverWebhook.body js delivery.event))) := by
  unfold deliverWebhook.attempt
  refine calls_bind (fun outcome => ?_) (posting_await ?_)
  · cases outcome with
    | error err => exact calls_pure
    | ok res =>
        refine calls_bind (fun text => ?_) calls_evaluate
        refine calls_bind (fun now => ?_) (calls_embed (fun c _ hc => by cases hc))
        exact calls_bind (fun _ => calls_pure) (posting_await (fun _ _ _ hc => by cases hc))
  · intro url body headers hc
    cases hc
    exact ⟨rfl, rfl, rfl⟩

/-- What a delivery posts. -/
theorem deliver_posts {r : Except Thrown Unit}
    (h : Runs webhookApi (deliverWebhook js id) w t r w') :
    ∀ e ∈ t, ∀ url body headers, e.call = .inr (.post url body headers) →
      ∃ delivery, (w.hooks.deliveries.find? (·.id == id)).bind w.withEvent = some delivery
        ∧ DeliveryCall.posts js delivery (.post url body headers) := by
  unfold deliverWebhook at h
  intro e he url body headers hcall
  obtain ⟨env, ⟨err, -, rfl, -, -⟩ | ⟨delivery, t', hfound, rfl, hrest⟩⟩ := runs_perform_bind h
  · obtain rfl := List.mem_singleton.mp he
    cases hcall
  · rcases List.mem_cons.mp he with rfl | he
    · cases hcall
    refine ⟨delivery, ?_, ?_⟩
    · -- the delivery is the stored one, with its event and endpoint
      rcases serve_delivery_cases (.webhookDeliveryFindUniqueOrThrow id) env w with
        ⟨err, hserve⟩ | hserve
      · rw [hserve] at hfound
        cases hfound
      · rw [hserve] at hfound
        unfold World.answerDelivery at hfound
        dsimp only at hfound
        split at hfound
        · cases hfound
        next hstored =>
          cases hfound
          exact hstored
    · -- and after the lookup only that delivery is posted
      refine Calls.events (F := Posting js delivery) ?_ hrest e he _ hcall
      refine calls_bind (fun failure => ?_) (calls_tryCatch (fun _ => calls_pure)
        (attempt_posts delivery))
      cases failure with
      | none => exact calls_pure
      | some err =>
          refine calls_bind (fun text => ?_) calls_evaluate
          exact calls_bind (fun _ => calls_throw) (posting_await (fun _ _ _ hc => by cases hc))

end Deliveries

/-- **Verification accepts exactly the signature**, through the wrappers too,
and the header of every delivery is the signature of its body. -/
theorem verification_exact (hmac : Hmac) :
    (∀ secret body signature,
        webhookCrypto.verifyWebhookSignature hmac secret body signature
          = .ok (decide (signature = webhookCrypto.signWebhookPayload hmac secret body))
        ∧ webhookService.signPayload hmac body secret
          = webhookCrypto.signWebhookPayload hmac secret body
        ∧ webhookService.verifyWebhookSignature hmac body signature secret
          = .ok (decide (signature = webhookService.signPayload hmac body secret)))
      ∧ ∀ (js : Builtins) (id : String) (w w' : World) (t : List WebhookCallEvent)
          (r : Except Thrown Unit),
          Runs webhookApi (deliverWebhook (js.signing hmac) id) w t r w' →
          ∀ e ∈ t, ∀ url body headers, e.call = .inr (.post url body headers) →
            ∃ delivery header,
              (w.hooks.deliveries.find? (·.id == id)).bind w.withEvent = some delivery
              ∧ url = delivery.endpoint.url ∧ body = deliverWebhook.body js delivery.event
              ∧ headers.lookup "X-Sorobill-Signature" = some header
              ∧ units header = webhookService.signPayload hmac (units body)
                  (units delivery.endpoint.secret)
              ∧ ∀ signature, webhookService.verifyWebhookSignature hmac (units body) signature
                  (units delivery.endpoint.secret) = .ok (decide (signature = units header)) := by
  refine ⟨fun secret body signature => ⟨verify_eq _ _ _ _, rfl, verify_eq _ _ _ _⟩, ?_⟩
  intro js id w w' t r hruns e he url body headers hcall
  obtain ⟨delivery, hstored, hposts⟩ := deliver_posts hruns e he url body headers hcall
  obtain ⟨rfl, rfl, rfl⟩ := hposts url body headers rfl
  exact ⟨delivery, _, hstored, rfl, rfl, rfl, rfl, fun signature => verify_eq _ _ _ _⟩

section Scenarios

open Shop

/-- The event waits for its delivery. -/
def waiting : World :=
  { registered with
    hooks :=
      { registered.hooks with
        events := ⟨[⟨"event", .PAYMENT_SUCCESS, none, .object [], day 0⟩],
          List.pairwise_singleton _ _⟩
        deliveries :=
          ⟨[{ id := "delivery", webhookEventId := "event", webhookEndpointId := "endpoint" }],
            List.pairwise_singleton _ _⟩ } }

/-- The delivery is looked up, posted, answered with 200, and recorded. -/
def answersDelivery : List WebhookEnv :=
  [{ toEnv := on 1 }, { toEnv := on 1, response := some ⟨200, .null⟩ }, { toEnv := on 1 },
   { toEnv := on 1 }]

/-- What was posted. -/
def posted (t : List WebhookCallEvent) : Option (String × String × List (String × String)) :=
  t.findSome? (fun e => match e.call with
    | .inr (.post url body headers) => some (url, body, headers)
    | _ => none)

/-- The header of the delivery is what the receiver accepts. -/
theorem verification_exact_shop :
    ∃ t w', Runs webhookApi (deliverWebhook (onEvent.signing fun _ _ => eventDigest) "delivery")
        waiting t (.ok ()) w'
      ∧ ∃ e ∈ t, ∃ url body headers, e.call = .inr (.post url body headers)
        ∧ url = "https://merchant.example/hook"
        ∧ ∃ header, headers.lookup "X-Sorobill-Signature" = some header
          ∧ webhookService.verifyWebhookSignature (fun _ _ => eventDigest) (units body)
              (units header) (units "whsec_0123456789") = .ok true := by
  have hrun : ((exec webhookApi (deliverWebhook (onEvent.signing fun _ _ => eventDigest)
      "delivery") answersDelivery waiting).map (fun r => (r.1.isOk,
        (posted (execTrace webhookApi (deliverWebhook (onEvent.signing fun _ _ => eventDigest)
          "delivery") answersDelivery waiting)).map (·.1))))
      = some (true, some "https://merchant.example/hook") := by
    decide +kernel
  obtain ⟨⟨reply, w'⟩, hexec, hres⟩ := Option.map_eq_some_iff.mp hrun
  obtain ⟨hok, hposted⟩ := Prod.mk.inj hres
  obtain rfl := ok_of_isOk hok
  obtain ⟨⟨url, body, headers⟩, hfound, hurl⟩ := Option.map_eq_some_iff.mp hposted
  obtain ⟨e, he, hcall⟩ := List.exists_of_findSome?_eq_some hfound
  have hcall : e.call = .inr (.post url body headers) := by
    split at hcall
    next url' body' headers' heq =>
      cases hcall
      exact heq
    next => cases hcall
  have hruns := exec_runs hexec
  obtain ⟨delivery, header, hstored, -, -, hheader, -, hverify⟩ :=
    (verification_exact fun _ _ => eventDigest).2 onEvent "delivery" waiting w' _ _ hruns e he url
      body headers hcall
  have hread : ((waiting.hooks.deliveries.find? (·.id == "delivery")).bind
      waiting.withEvent).map (·.endpoint.secret) = some "whsec_0123456789" := rfl
  rw [hstored] at hread
  refine ⟨_, w', hruns, e, he, url, body, headers, hcall, hurl, header, hheader, ?_⟩
  have hsecret : delivery.endpoint.secret = "whsec_0123456789" := Option.some.inj hread
  rw [← hsecret, hverify, decide_eq_true rfl]

end Scenarios

end Sorobill
