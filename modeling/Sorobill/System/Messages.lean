/-
  Sorobill.System.Messages
  ────────────────────────
  **WHAT MERCHANTS ARE TOLD**, in every state the server reaches.

    • `Server.Valid.transacted` — for a payment that was booked a transaction was
      accepted;
    • `events_report_facts` — events report rows that are there, and payments
      that were booked after such a transaction;
    • `posts_are_authentic` — what is about to be posted is a stored event, to
      an endpoint that has subscribed to it, under a signature that the
      receiver verifies.
-/
import Sorobill.Endpoints.Verification
import Sorobill.System.Payments

namespace Sorobill

open Effect
open Relational
open JavaScript (JsValue)
open Utf16 (units)
open Shop

/-! ## §1. Events. -/

/-- **The payment has a transaction**: one that asks for it was accepted, whatever
the contract has answered, or, in test mode, none was to be sent. -/
def Payment.Transacted (cfg : Config) (s : Server) (p : Payment) : Prop :=
  cfg.billing.testMode = true ∨ ∃ tx ∈ s.core.chain, tx.Bills cfg s p

/-- What was booked once has its transaction, whatever has become of the row. -/
theorem Server.Valid.transacted {d : Epoch} {s : Server} (h : s.Valid d) {p : Payment}
    (hp : p ∈ s.core.payments) (hbooked : s.Booked p.id) : p.Transacted d.cfg s := by
  obtain ⟨x, hx, hid⟩ := hbooked
  obtain ⟨q, hq, hqid, hhash⟩ := h.receipts x hx
  obtain rfl := payment_unique hp hq (hid.symm.trans hqid.symm)
  obtain ⟨hash, hhash⟩ := Option.ne_none_iff_exists'.mp hhash
  cases hmode : d.cfg.billing.testMode with
  | true => exact .inl hmode
  | false =>
      obtain ⟨tx, htx, -, hkey⟩ := (h.accounts p hp).live hmode hash hhash
      exact .inr ⟨tx, htx, (h.bills_key htx hp hkey).2⟩

/-- An execution is about to post this. -/
def Posts (P : Pool ServerApi Server Unit) (url body : String)
    (headers : List (String × String)) : Prop :=
  ∃ t ∈ P.threads, t.Awaits (.delivery (.post url body headers))

/-- **What is posted is authentic**: a stored event, in the words of
`deliverWebhook`, to an endpoint that has subscribed to its type; and the
signature that it carries is the one that the receiver accepts. -/
theorem posts_are_authentic (d : Deployment) (js : Builtins) (hmac : Hmac)
    (P : Pool ServerApi Server Unit) (url body : String) (headers : List (String × String))
    (h : ReachedBy { d with webhook := js.signing hmac } P) (hposts : Posts P url body headers) :
    ∃ event ∈ P.world.core.hooks.events, ∃ endpoint ∈ P.world.core.hooks.endpoints,
      event.type ∈ endpoint.events ∧ url = endpoint.url ∧ d.isUrl url = true
        ∧ body = deliverWebhook.body js event
        ∧ headers.lookup "X-Sorobill-Event" = some event.type.name
        ∧ ∃ header, headers.lookup "X-Sorobill-Signature" = some header
          ∧ 16 ≤ utf16Length endpoint.secret
          ∧ ∀ signature, webhookService.verifyWebhookSignature hmac (units body) signature
              (units endpoint.secret) = .ok (decide (signature = units header)) := by
  obtain ⟨t, ht, hawaits⟩ := hposts
  have hauthentic : P.world.Authentic (js.signing hmac) url body headers :=
    h.sound.pending (answers 0 []) ht hawaits trivial
  obtain ⟨event, hevent, endpoint, hendpoint, htype, rfl, rfl, rfl⟩ := hauthentic
  have haccepted := h.valid.endpoints endpoint hendpoint
  exact ⟨event, hevent, endpoint, hendpoint, htype, rfl, haccepted.url, rfl, rfl, _, rfl,
    haccepted.secret, fun signature => verify_eq _ _ _ _⟩

/-- What the executions of a pool are about to post. -/
def posts (P : Pool ServerApi Server Unit) : List (String × String × List (String × String)) :=
  P.threads.filterMap (fun t => match t.code with
    | .call (.delivery (.post url body headers)) _ => some (url, body, headers)
    | _ => none)

theorem posts_of_mem {P : Pool ServerApi Server Unit} {url body : String}
    {headers : List (String × String)} (h : (url, body, headers) ∈ posts P) :
    Posts P url body headers := by
  obtain ⟨⟨v, code⟩, ht, hcode⟩ := List.mem_filterMap.mp h
  dsimp only at hcode
  split at hcode
  next url' body' headers' next =>
    cases hcode
    exact ⟨_, ht, next, rfl⟩
  next => cases hcode

/-- The worker is about to deliver the event of the first cycle. -/
theorem posts_are_authentic_shop :
    ∃ P body headers, ReachedBy (deployment false) P
      ∧ Posts P "https://shop.example" body headers
      ∧ ∃ event ∈ P.world.core.hooks.events, body = deliverWebhook.body webhook event := by
  have hrun : (played false (opensShop ++ chargesSub ++ booksPayment ++ deliversEvent)
      ⟨Server.fresh, []⟩).map (fun P => (posts P).map (·.1)) = some ["https://shop.example"] := by
    decide +kernel
  obtain ⟨P, hP, hurls⟩ := Option.map_eq_some_iff.mp hrun
  have hreached : ReachedBy (deployment false) P := moves_of_played hP
  obtain ⟨⟨url, body, headers⟩, hmem, hurl⟩ :=
    List.mem_map.mp (hurls ▸ List.mem_singleton_self "https://shop.example")
  obtain rfl : url = "https://shop.example" := hurl
  have hposts := posts_of_mem hmem
  obtain ⟨event, hevent, -, -, -, -, -, hbody, -⟩ :=
    posts_are_authentic (deployment false) webhook (fun _ _ => digest) P _ body headers hreached
      hposts
  exact ⟨P, body, headers, hreached, hposts, event, hevent, hbody⟩

end Sorobill
