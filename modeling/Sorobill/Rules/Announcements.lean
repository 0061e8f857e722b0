/-
  Sorobill.Rules.Announcements
  ────────────────────────────
  **WHAT AN EXECUTION STILL HAS TO ANNOUNCE.**

  The write that makes a payment SUCCESS or a subscription CANCELLED, and the
  creation of the webhook event that tells of it, are separate calls: in
  between the execution owes the event.

    • `Announcement` — what is told by an event of its own;
    • `trackOwed` — whether an execution has brought it about and not told;
    • `operation_announces` — an execution that is answered while it owes the
      event ends without owing it.
-/
import Sorobill.Rules.Custody

namespace Sorobill

open Effect
open Relational
open JavaScript (JsValue)

/-! ## §1. Announcements. -/

/-- What is told by an event of its own. -/
inductive Announcement where
  | paid (paymentId : String)
  | cancelled (subscriptionId : String)
  deriving DecidableEq

namespace Announcement

def type : Announcement → WebhookEventType
  | .paid _ => .PAYMENT_SUCCESS
  | .cancelled _ => .SUBSCRIPTION_CANCELLED

/-- An event of this content tells of it. -/
def toldBy (a : Announcement) (type : WebhookEventType) (paymentId : Option String)
    (payload : JsValue) : Bool :=
  type == a.type && match a with
    | .paid pid => paymentId == some pid
    | .cancelled id => (payload.prop "subscriptionId").isString id

/-- It has come about. -/
def HoldsIn : Announcement → World → Prop
  | .paid pid, w => ∃ p ∈ w.payments, p.id = pid ∧ p.status = .SUCCESS
  | .cancelled id, w => ∃ s ∈ w.subscriptions, s.id = id ∧ s.status = .CANCELLED

/-- An event tells of it. -/
def ToldIn (a : Announcement) (w : World) : Prop :=
  ∃ event ∈ w.hooks.events, a.toldBy event.type event.paymentId event.payload = true

end Announcement

/-- An active endpoint is subscribed to the type. -/
def World.hears (w : World) (type : WebhookEventType) : Prop :=
  ∃ endpoint ∈ w.hooks.endpoints, endpoint.isActive = true ∧ type ∈ endpoint.events

/-- The execution owes the event of `a`, after one more of its calls. -/
def trackOwed (a : Announcement) (v : Bool) (e : CallEvent) : Bool :=
  if isRejected e then v
  else
    match e.call with
    | .paymentUpdate pid data => v || (a == .paid pid && data.status == some .SUCCESS)
    | .subscriptionUpdate id data => v || (a == .cancelled id && data.status == some .CANCELLED)
    | .webhookEventCreate type paymentId payload => v && !a.toldBy type paymentId payload
    | _ => v

/-- The call brings about no announcement but those that `trackOwed` sees. -/
def Call.isSeen : Call → Prop
  | .subscriptionCreate data => data.status ≠ .CANCELLED
  | .paymentUpdateMany _ _ data => data.status = some .RETRYING
  | _ => True

/-! ## §2. One call. -/

section Step

variable {a : Announcement}

theorem hooks_endpoints_after (e : CallEvent) :
    (e.after api).hooks.endpoints = e.before.hooks.endpoints := by
  have hstep : HooksStep e.before.hooks (e.after api).hooks := serve_hooks e.call e.env e.before
  generalize (e.after api).hooks = h' at hstep
  cases hstep <;> rfl

theorem hears_after {e : CallEvent} {type : WebhookEventType} (h : e.before.hears type) :
    (e.after api).hears type := by
  unfold World.hears
  rw [hooks_endpoints_after e]
  exact h

/-- **Events are never deleted.** -/
theorem event_kept (e : CallEvent) {event : WebhookEvent} (h : event ∈ e.before.hooks.events) :
    event ∈ (e.after api).hooks.events := by
  have hstep : HooksStep e.before.hooks (e.after api).hooks := serve_hooks e.call e.env e.before
  generalize (e.after api).hooks = h' at hstep
  cases hstep with
  | event ht => exact (Table.mem_insert ht).mpr (.inl h)
  | _ => exact h

theorem told_after {e : CallEvent} (h : a.ToldIn e.before) : a.ToldIn (e.after api) := by
  obtain ⟨event, hevent, htold⟩ := h
  exact ⟨event, event_kept e hevent, htold⟩

/-- **What is owed stays owed until it is told.** -/
theorem owed_after {e : CallEvent} :
    trackOwed a true e = true ∨ a.ToldIn (e.after api) := by
  unfold trackOwed
  split
  next => exact .inl rfl
  next hrej =>
    obtain ⟨w, c, env⟩ := e
    cases c with
    | webhookEventCreate type paymentId payload =>
        by_cases htold : a.toldBy type paymentId payload = true
        · right
          show a.ToldIn (api.serve (.webhookEventCreate type paymentId payload) env w).2
          rcases serve_webhookEventCreate type paymentId payload env w
            with ⟨_, hs⟩ | ⟨_, _, ht, hs⟩
          · simp [isRejected, Event.response, hs] at hrej
          · rw [hs]
            exact ⟨_, (Table.mem_insert ht).mpr (.inr rfl), htold⟩
        · left
          simpa using htold
    | _ => exact .inl rfl

/-- **What comes about is owed** by the execution that has made the call. -/
theorem owed_of_new {v : Bool} {e : CallEvent} (he : e.call.isSeen)
    (hbefore : ¬ a.HoldsIn e.before) (h : a.HoldsIn (e.after api)) : trackOwed a v e = true := by
  have hrej : ¬ isRejected e = true := by
    intro hrej
    rw [after_of_isRejected hrej] at h
    exact hbefore h
  unfold trackOwed
  rw [if_neg hrej]
  cases a with
  | paid pid =>
      obtain ⟨p, hp, rfl, hst⟩ := h
      rcases payment_origin e hp with hp | ⟨old, hold, data, rfl, hwrite⟩ | ⟨data, id, -, rfl⟩
      · exact absurd ⟨p, hp, rfl, hst⟩ hbefore
      · -- the row was not SUCCESS before: `data` says so
        have hd : data.status = some .SUCCESS := by
          unfold PaymentData.apply at hst
          cases hd : data.status with
          | none =>
              rw [hd] at hst
              exact absurd ⟨old, hold, rfl, hst⟩ hbefore
          | some st =>
              rw [hd] at hst
              exact congrArg some hst
        -- an update of one row owes the event; updateMany writes RETRYING only
        rcases hwrite with hcall | hcall
        · rw [hcall]
          simp [hd]
        · -- a subscription is never created CANCELLED
          rw [hcall] at he
          rw [show data.status = some .RETRYING from he] at hd
          cases hd
      · cases hst
  | cancelled id =>
      obtain ⟨s, hs, rfl, hst⟩ := h
      rcases subscription_origin e hs with hs | ⟨id, data, old, hcall, hold, hid, rfl⟩ |
        ⟨data, id, start, finish, hcall, -, rfl⟩
      · -- the row was CANCELLED before
        exact absurd ⟨s, hs, rfl, hst⟩ hbefore
      · have hd : data.status = some .CANCELLED := by
          unfold SubscriptionData.apply at hst
          cases hd : data.status with
          | none =>
              rw [hd] at hst
              exact absurd ⟨old, hold, rfl, hst⟩ hbefore
          | some st =>
              rw [hd] at hst
              exact congrArg some hst
        rw [hcall, ← hid]
        simp [hd]
      · rw [hcall] at he
        exact absurd hst he

end Step

/-! ## §3. The contract. -/

/-- While it owes the event, the execution is answered. -/
def AnsweredWhileOwing (v : Bool) (e : CallEvent) : Prop := v = true → isRejected e = false

def announcing (a : Announcement) : Contract api Bool where
  rely _ _ := True
  assume v e := e.before.hears a.type ∧ AnsweredWhileOwing v e
  guarantee _ e := e.call.isSeen
  track := trackOwed a

/-- The call brings nothing about that has to be announced. -/
def Call.isSilent : Call → Prop
  | .paymentUpdate _ data => data.status ≠ some .SUCCESS
  | .subscriptionUpdate _ data => data.status ≠ some .CANCELLED
  | .subscriptionCreate data => data.status ≠ .CANCELLED
  | .paymentUpdateMany _ _ data => data.status = some .RETRYING
  | _ => True

theorem Call.isSilent.isSeen {c : Call} (h : c.isSilent) : c.isSeen := by
  cases c <;> first | exact h | trivial

theorem Call.isSilent.track {a : Announcement} {e : CallEvent} (h : e.call.isSilent) :
    trackOwed a false e = false := by
  obtain ⟨w, c, env⟩ := e
  unfold trackOwed
  split
  · rfl
  · cases c with
    | paymentUpdate pid data => simp [show data.status ≠ some .SUCCESS from h]
    | subscriptionUpdate id data => simp [show data.status ≠ some .CANCELLED from h]
    | _ => rfl

theorem Call.isWebhook.isSilent {c : Call} (h : c.isWebhook) : c.isSilent := by
  cases c <;> first | exact h.elim | trivial

theorem Call.isNetwork.isSilent {c : Call} (h : c.isNetwork) : c.isSilent := by
  cases c <;> first | exact h.elim | trivial

section Rules

variable {α β : Type} {w : World} {v : Bool} {a : Announcement}

/-- A program of silent calls. -/
theorem announcing_silent {p : Service α} (hp : Calls api Call.isSilent p) :
    Safe (announcing a) p (fun _ _ v => v = false) w false :=
  safe_views (K := fun v => v = false)
    (fun _ e he hv _ => ⟨he.isSeen, by rw [hv]; exact he.track⟩) rfl hp

/-- Silent calls first. -/
theorem announcing_after {p : Service α} {f : α → Service β}
    {Q : Post Api World Bool β} (hp : Calls api Call.isSilent p)
    (hf : ∀ b w, Safe (announcing a) (f b) Q w false)
    (hthrown : ∀ err w, Q (.error err) w false) :
    Safe (announcing a) (p >>= f) Q w false := by
  rw [safe_bind]
  apply (announcing_silent hp).mono
  intro r w' v' hv
  subst hv
  cases r with
  | error err => exact hthrown err w'
  | ok b => exact hf b w'

/-- **One call**: it is rejected only while nothing is owed. -/
theorem announcing_perform {c : Call} (hc : c.isSeen)
    {Q : Post Api World Bool c.Reply}
    (herr : ∀ err w', v = false → Q (.error err) w' false)
    (hok : ∀ w' env r, w'.hears a.type → (api.serve c env w').1 = .ok r →
      Q (.ok r) (api.serve c env w').2 (trackOwed a v ⟨w', c, env⟩)) :
    Safe (announcing a) (Prog.perform (I := Api) c) Q w v := by
  refine safe_perform.mpr (fun w' env _ hassume => ⟨hc, ?_⟩)
  obtain ⟨hheard, hanswered⟩ := hassume
  cases hr : (api.serve c env w').1 with
  | ok r => exact hok w' env r hheard hr
  | error err =>
      have hrej : isRejected ⟨w', c, env⟩ = true := isRejected_of_error hr
      have hv : v = false := by
        cases v with
        | false => rfl
        | true =>
            rw [hanswered rfl] at hrej
            cases hrej
      have htrack : trackOwed a v ⟨w', c, env⟩ = false := by
        unfold trackOwed
        rw [if_pos hrej, hv]
      show Q _ _ (trackOwed a v ⟨w', c, env⟩)
      rw [htrack]
      exact herr err _ hv

/-- **An emission tells what it is about.** -/
theorem emitWebhookEvent_tells_owed {type : WebhookEventType} {paymentId : Option String}
    {payload : JsValue} (htold : a.toldBy type paymentId payload = true) :
    Safe (announcing a) (emitWebhookEvent type paymentId payload) (fun _ _ v => v = false) w
      true := by
  have htype : type = a.type := by
    unfold Announcement.toldBy at htold
    exact beq_iff_eq.mp (Bool.and_eq_true_iff.mp htold).1
  unfold emitWebhookEvent
  rw [safe_bind]
  refine announcing_perform (c := .webhookEndpointFindMany type) trivial (fun _ _ _ => rfl)
    (fun w₁ env₁ endpoints hheard hr => ?_)
  have htrack₁ : trackOwed a true ⟨w₁, .webhookEndpointFindMany type, env₁⟩ = true := ite_self _
  rw [htrack₁, andThen_ok]
  -- the subscribed endpoint is among those that are found
  have hfound : ¬ endpoints.isEmpty = true := by
    obtain ⟨endpoint, hmem, hactive, hsubscribed⟩ := hheard
    rcases serve_webhookEndpointFindMany type env₁ w₁ with ⟨err, hs⟩ | hs
    · rw [hs] at hr
      cases hr
    · rw [hs] at hr
      obtain rfl := Except.ok.inj hr
      have hin : endpoint ∈ w₁.hooks.endpoints.filter
          (fun e => e.isActive && e.events.contains type) :=
        Table.mem_filter.mpr ⟨hmem, by simp [hactive, htype, hsubscribed]⟩
      intro hempty
      rw [List.isEmpty_iff.mp hempty] at hin
      cases hin
  rw [if_neg hfound, safe_bind]
  refine announcing_perform (c := .webhookEventCreate type paymentId payload) trivial
    (fun _ _ _ => rfl) (fun w₂ env₂ event _ hr => ?_)
  have htrack₂ : trackOwed a true ⟨w₂, .webhookEventCreate type paymentId payload, env₂⟩
      = false := by
    unfold trackOwed
    rw [if_neg (by simp [isRejected_of_ok hr])]
    simp [htold]
  rw [htrack₂, andThen_ok]
  refine announcing_silent (calls_bind (fun deliveries => ?_) (calls_perform trivial))
  apply promiseAll_calls
  intro p hp
  obtain ⟨delivery, -, rfl⟩ := List.mem_map.mp hp
  exact calls_perform trivial

theorem emitWebhookEvent_silent (type : WebhookEventType) (paymentId : Option String)
    (payload : JsValue) : Calls api Call.isSilent (emitWebhookEvent type paymentId payload) :=
  (emitWebhookEvent_calls type paymentId payload).mono (fun _ h => h.isSilent)

/-- **An emission tells what is owed.** -/
theorem emitWebhookEvent_tells {type : WebhookEventType} {paymentId : Option String}
    {payload : JsValue} (htold : v = true → a.toldBy type paymentId payload = true) :
    Safe (announcing a) (emitWebhookEvent type paymentId payload) (fun _ _ v => v = false) w v := by
  cases v with
  | false => exact announcing_silent (emitWebhookEvent_silent type paymentId payload)
  | true => exact emitWebhookEvent_tells_owed (htold rfl)

end Rules

/-! ## §4. Every operation. -/

section Walk

variable {cfg : Config} {w : World} {a : Announcement}

/-- What a charge of `pid` ends with. -/
def Charged {α : Type} (a : Announcement) (pid : String) : Post Api World Bool α := fun r _ v =>
  match r with
  | .ok _ => v = true → a = .paid pid
  | .error _ => v = false

theorem Charged.of_false {α : Type} {pid : String} {r : Except Thrown α} :
    Charged a pid r w false := by
  cases r with
  | error err => rfl
  | ok b => exact (nomatch ·)

/-- The payment row is written, and the charge returns. -/
theorem charged_record {α : Type} {pid : String} {data : PaymentData} {b : α} :
    Safe (announcing a) (prisma.payment.update pid data >>= fun _ => (pure b : Service α))
      (Charged a pid) w false := by
  rw [safe_bind]
  refine announcing_perform (c := .paymentUpdate pid data) trivial (fun _ _ _ => rfl)
    (fun w₁ env r _ hr => ?_)
  show trackOwed a false ⟨w₁, .paymentUpdate pid data, env⟩ = true → a = .paid pid
  unfold trackOwed
  rw [if_neg (by simp [isRejected_of_ok hr])]
  intro howed
  exact (by simpa using howed : a = .paid pid ∧ _).1

theorem charged_silent {α : Type} {pid : String} {p : Service α}
    (hp : Calls api Call.isSilent p) : Safe (announcing a) p (Charged a pid) w false := by
  apply (announcing_silent hp).mono
  intro r w' v hv
  rw [hv]
  exact .of_false

theorem executeSorobanBilling_announces (params : SorobanBillingParams) :
    Safe (announcing a) (executeSorobanBilling cfg params) (Charged a params.paymentId) w
      false := by
  unfold executeSorobanBilling
  refine announcing_after (calls_perform trivial) (fun existing w₁ => ?_) (fun _ _ => rfl)
  split
  · exact (nomatch ·)
  · split
    · rfl
    · split
      · exact charged_record
      · refine announcing_after (keypairFromSecret_calls _) (fun admin w₂ => ?_) (fun _ _ => rfl)
        refine announcing_after (calls_perform (by simp [Call.isSilent])) (fun _ w₃ => ?_)
          (fun _ _ => rfl)
        rw [safe_tryCatch]
        have hattempt : Safe (announcing a) (executeSorobanBilling.attempt cfg params admin)
            (Charged a params.paymentId) w₃ false := by
          unfold executeSorobanBilling.attempt
          refine announcing_after (addressToScVal_calls _) (fun adminArg w₄ => ?_)
            (fun _ _ => rfl)
          refine announcing_after (addressToScVal_calls _) (fun subscriberArg w₅ => ?_)
            (fun _ _ => rfl)
          refine announcing_after ((invokeAsAdmin_calls _ _).mono (fun _ h => h.isSilent))
            (fun invoked w₆ => ?_) (fun _ _ => rfl)
          obtain ⟨hash, result⟩ := invoked
          dsimp only
          split
          · -- the contract has answered Failed: no SUCCESS, and no event is owed
            exact charged_silent
              (calls_bind (fun _ => calls_throw) (calls_perform (by simp [Call.isSilent])))
          · exact charged_record
        apply hattempt.mono
        intro r w₄ v hr
        cases r with
        | ok hash => exact hr
        | error err =>
            -- what threw has booked nothing, and the handler writes FAILED at most
            obtain rfl : v = false := hr
            rw [orElse_error]
            apply charged_silent
            cases err with
            | sorobanBillingFailed hash => exact calls_throw
            | error message =>
                exact calls_bind (fun _ => calls_throw) (calls_perform (by simp [Call.isSilent]))

theorem submitPayment_announces (params : PaymentParams) :
    Safe (announcing a) (submitPayment cfg params) (Charged a params.paymentId) w false := by
  unfold submitPayment
  refine announcing_after (calls_perform trivial) (fun existing w₁ => ?_) (fun _ _ => rfl)
  split
  · exact (nomatch ·)
  · split
    · exact charged_record
    · refine announcing_after (keypairFromSecret_calls _) (fun publicKey w₂ => ?_)
        (fun _ _ => rfl)
      refine announcing_after (calls_perform trivial) (fun _ w₃ => ?_) (fun _ _ => rfl)
      refine announcing_after (calls_perform (by simp [Call.isSilent])) (fun _ w₄ => ?_)
        (fun _ _ => rfl)
      rw [safe_tryCatch]
      have hattempt : Safe (announcing a) (submitPayment.attempt params)
          (Charged a params.paymentId) w₄ false := by
        unfold submitPayment.attempt
        refine announcing_after (calls_perform trivial) (fun submitted w₅ => ?_) (fun _ _ => rfl)
        obtain ⟨hash, ledger⟩ := submitted
        exact charged_record
      apply hattempt.mono
      intro r w₅ v hr
      cases r with
      | ok hash => exact hr
      | error err =>
          obtain rfl : v = false := hr
          rw [orElse_error]
          exact charged_silent
            (calls_bind (fun _ => calls_throw) (calls_perform (by simp [Call.isSilent])))

/-- **A charge that returns owes its payment**, and one that throws nothing. -/
theorem chargePayment_announces (sub : SubscriptionWithPlan) (pid key : String) :
    Safe (announcing a) (chargePayment cfg sub pid key) (Charged a pid) w false := by
  have hdrop : ∀ {p : Service String}, Safe (announcing a) p (Charged a pid) w false →
      Safe (announcing a) (p >>= fun _ => (pure () : Service Unit)) (Charged a pid) w false := by
    intro p hp
    rw [safe_bind]
    apply hp.mono
    intro r w' v hr
    cases r <;> exact hr
  unfold chargePayment
  split
  · exact hdrop (executeSorobanBilling_announces _)
  · split
    · exact hdrop (submitPayment_announces _)
    · rfl

theorem handlePaymentFailure_silent (sub : SubscriptionWithPlan) (pid : String) :
    Calls api Call.isSilent (handlePaymentFailure cfg sub pid) := by
  refine ((handlePaymentFailure_calls sub pid).and (free_handler sub pid)).mono
    (fun c hc => ?_)
  obtain ⟨hbilling, hfree⟩ := hc
  cases c with
  | subscriptionUpdate x data => cases hbilling.2 <;> simp [Call.isSilent]
  | subscriptionCreate data => exact hbilling.elim
  | paymentUpdate pid data => exact hfree.elim
  | paymentUpdateMany x status data => exact hfree.2
  | _ => trivial

/-- The `try` block of a cycle and its handler. -/
theorem attempt_or_handler_announces (sub : SubscriptionWithPlan) (payment : Payment)
    (key : String) :
    Safe (announcing a) (tryCatch (processBillingCycle.attempt cfg sub payment key)
      (fun _ => handlePaymentFailure cfg sub payment.id)) (fun _ _ v => v = false) w false := by
  have hhandler : ∀ w, Safe (announcing a) (handlePaymentFailure cfg sub payment.id)
      (fun _ _ v => v = false) w false :=
    fun w => announcing_silent (handlePaymentFailure_silent sub payment.id)
  rw [safe_tryCatch]
  unfold processBillingCycle.attempt
  rw [safe_bind]
  apply (chargePayment_announces sub payment.id key).mono
  intro r w₁ v hr
  cases r with
  | error err =>
      obtain rfl : v = false := hr
      exact hhandler w₁
  | ok _ =>
      have hv : v = true → a = .paid payment.id := hr
      rw [andThen_ok]
      show Safe (announcing a) (advancePeriod cfg sub >>= _) _ _ _
      unfold advancePeriod
      rw [safe_bind, safe_bind]
      refine announcing_perform (c := .subscriptionUpdate sub.id _) trivial
        (fun err w' _ => hhandler w') (fun w₂ env updated _ _ => ?_)
      -- the period is advanced, and the payment is still owed
      have htrack : ∀ data : SubscriptionData, data.status ≠ some .CANCELLED →
          trackOwed a v ⟨w₂, .subscriptionUpdate sub.id data, env⟩ = v := by
        intro data hdata
        simp [trackOwed, hdata]
      rw [htrack _ (by simp), andThen_ok]
      have htold : ∀ payload : JsValue, v = true →
          a.toldBy .PAYMENT_SUCCESS (some payment.id) payload = true := by
        intro payload howed
        rw [hv howed]
        simp [Announcement.toldBy, Announcement.type]
      apply (emitWebhookEvent_tells (htold _)).mono
      intro r w₃ v₃ hv₃
      subst hv₃
      cases r with
      | error err => exact hhandler w₃
      | ok _ => rfl

/-- **A cycle announces what it charges.** -/
theorem processBillingCycle_announces (id : String) :
    Safe (announcing a) (processBillingCycle cfg id) (fun _ _ v => v = false) w false := by
  unfold processBillingCycle
  have hread : Calls api Call.isSilent (prisma.subscription.findUniqueOrThrow id) := by
    refine calls_bind (fun found => ?_) (calls_perform trivial)
    cases found with
    | none => exact calls_throw
    | some sub => exact calls_pure
  refine announcing_after hread (fun sub w₁ => ?_) (fun _ _ => rfl)
  split
  · rfl
  · unfold processBillingCycle.rest
    refine announcing_after (calls_perform trivial) (fun existing w₂ => ?_) (fun _ _ => rfl)
    split
    · -- the period is paid already, and no event is made here
      exact announcing_silent
        (calls_bind (fun _ => calls_pure) (calls_perform (by simp [Call.isSilent])))
    · refine announcing_after ?_ (fun payment w₃ => attempt_or_handler_announces sub payment _)
        (fun _ _ => rfl)
      cases existing with
      | some payment => exact calls_pure
      | none => exact calls_perform trivial

/-- A subscription may be set to CANCELLED, and then the event is emitted. -/
theorem cancelled_announces {α : Type} {id : String} {data : SubscriptionData}
    {f : Subscription → Service α}
    (hf : ∀ updated w v, (v = true → a = .cancelled id) →
      Safe (announcing a) (f updated) (fun _ _ v => v = false) w v) :
    Safe (announcing a) (prisma.subscription.update id data >>= f) (fun _ _ v => v = false) w
      false := by
  rw [safe_bind]
  refine announcing_perform (c := .subscriptionUpdate id data) trivial (fun _ _ _ => rfl)
    (fun w₁ env updated _ hr => ?_)
  rw [andThen_ok]
  apply hf
  unfold trackOwed
  rw [if_neg (by simp [isRejected_of_ok hr])]
  intro howed
  exact (by simpa using howed : a = .cancelled id ∧ _).1

theorem cancelled_told {id : String} (ha : a = .cancelled id) {payload : JsValue}
    (hid : (payload.prop "subscriptionId").isString id = true) :
    a.toldBy .SUBSCRIPTION_CANCELLED none payload = true := by
  rw [ha]
  simp [Announcement.toldBy, Announcement.type, hid]

theorem cancel_announces (id : String) (immediately : Bool) :
    Safe (announcing a) (subscriptions.cancel id immediately) (fun _ _ v => v = false) w false := by
  unfold subscriptions.cancel
  rw [safe_bind]
  refine announcing_perform (c := .subscriptionFindUnique id) trivial (fun _ _ _ => rfl)
    (fun w₁ env found _ hr => ?_)
  have htrack : trackOwed a false ⟨w₁, .subscriptionFindUnique id, env⟩ = false := ite_self _
  have hfound : found = w₁.sub? id := by
    rcases serve_subscriptionFindUnique id env w₁ with ⟨err, hs⟩ | hs
    · rw [hs] at hr
      cases hr
    · rw [hs] at hr
      exact (Except.ok.inj hr).symm
  rw [htrack, andThen_ok]
  cases found with
  | none => rfl
  | some sub =>
      have hid : sub.id = id := sub?_id hfound.symm
      refine announcing_after ?_ (fun cancelledAt w₂ => ?_) (fun _ _ => rfl)
      · unfold subscriptions.cancelledAt
        split
        · exact calls_bind (fun _ => calls_pure) (calls_perform trivial)
        · exact calls_pure
      · refine cancelled_announces (fun updated w₃ v hv => ?_)
        rw [safe_bind]
        apply (emitWebhookEvent_tells (fun howed => cancelled_told (hv howed)
          (by simp [JsValue.prop, JsValue.isString, hid]))).mono
        intro r w₄ v₄ hv₄
        cases r <;> exact hv₄

/-- **A sweep announces what it cancels.** -/
theorem expireGracePeriods_announces :
    Safe (announcing a) expireGracePeriods (fun _ _ v => v = false) w false := by
  unfold expireGracePeriods
  refine announcing_after (calls_perform trivial) (fun now w₁ => ?_) (fun _ _ => rfl)
  refine announcing_after (calls_perform trivial) (fun expired w₂ => ?_) (fun _ _ => rfl)
  refine safe_forEach (fun _ v => v = false) (fun sub _ w₃ v₃ hv => ?_) (fun _ _ hv => hv) rfl
  subst hv
  have hround : Safe (announcing a) (expireGracePeriods.cancel sub) (fun _ _ v => v = false) w₃
      false := by
    unfold expireGracePeriods.cancel
    refine announcing_after (calls_perform trivial) (fun now w₄ => ?_) (fun _ _ => rfl)
    refine cancelled_announces (fun updated w₅ v hv => ?_)
    exact emitWebhookEvent_tells (fun howed => cancelled_told (hv howed)
      (by simp [JsValue.prop, JsValue.isString]))
  apply hround.mono
  intro r w₄ v₄ hv₄
  cases r <;> exact hv₄

theorem scheduleBillingJobs_announces :
    Safe (announcing a) scheduleBillingJobs (fun _ _ v => v = false) w false := by
  unfold scheduleBillingJobs
  refine announcing_after (calls_bind (fun _ => calls_perform trivial) (calls_perform trivial))
    (fun due w₁ => ?_) (fun _ _ => rfl)
  exact announcing_after (calls_forEach (fun sub _ => calls_perform trivial))
    (fun _ w₂ => expireGracePeriods_announces) (fun _ _ => rfl)

/-- A request that neither cancels nor charges. -/
theorem request_silent {α : Type} {may : Permissions} {p : Service α}
    (hordinary : Calls api (Call.isOrdinary may) p) (hmarks : Calls api Call.marksNothing p) :
    Calls api Call.isSilent p := by
  refine (hordinary.and hmarks).mono (fun c hc => ?_)
  obtain ⟨hordinary, hmarks⟩ := hc
  cases c with
  | subscriptionUpdate x data => simp [Call.isSilent, hmarks.1]
  | subscriptionCreate data =>
      rcases hordinary.1 with h | h <;> simp [Call.isSilent, h]
  | paymentUpdate pid data => exact hordinary.elim
  | paymentUpdateMany x status data => exact hordinary.elim
  | _ => trivial

/-- **Every operation announces what it brings about.** -/
theorem operation_announces (cfg : Config) (op : Operation) (w : World) :
    Safe (announcing a) (op.body cfg) (fun _ _ v => v = false) w false := by
  cases op with
  | createSubscription body =>
      refine announcing_silent (calls_map (request_silent
        ((create_calls body).mono (fun _ h => h.1)) ((create_calls body).mono (fun c hc => ?_))))
      cases c <;> first | exact absurd rfl (hc.2 _ _) | trivial
  | cancel id immediately => exact (cancel_announces id immediately).map
  | pause id =>
      exact announcing_silent (calls_map (request_silent
        ((pause_calls {} id).mono (fun _ h => h.1)) (pause_marksNothing id)))
  | resume id =>
      exact announcing_silent (calls_map (request_silent
        ((resume_calls id).mono (fun _ h => h.1)) (resume_marksNothing id)))
  | retryPayment pid =>
      exact announcing_silent (calls_map (request_silent (retry_calls pid)
        (retry_marksNothing pid)))
  | runBilling id =>
      exact announcing_silent
        (calls_map (calls_bind (fun _ => calls_pure) (calls_perform trivial)))
  | runInline id => exact safe_billing rfl (processBillingCycle_announces id)
  | billingJob job => exact safe_billing rfl (processBillingCycle_announces job.data)
  | tick => exact scheduleBillingJobs_announces.map
  | expireGracePeriods => exact expireGracePeriods_announces.map

end Walk

end Sorobill
