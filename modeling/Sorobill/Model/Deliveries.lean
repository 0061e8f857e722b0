/-
  Sorobill.Model.Deliveries
  ─────────────────────────
  **THE DELIVERY OF WEBHOOKS**: `deliverWebhook` of
  `src/services/webhook.service.ts`, `src/lib/webhook-crypto.ts`,
  `src/workers/webhook.worker.ts`, and `webhookQueue` of
  `src/queues/index.ts`.

  The worker's calls are added to those of the services: the look-up of a
  delivery, the request to the endpoint, the update of the row, and the two
  moves by which BullMQ ends an attempt.  An attempt whose process has stopped
  leaves its job active; BullMQ takes such a stalled job again, or fails it.
-/
import Sorobill.Model.Operations

namespace Sorobill

open Effect
open JavaScript (JsNumber JsValue)
open JobQueue (Job Queue)

/-! ## §1. The outside. -/

structure HttpResponse where
  status : Int
  data : JsValue

/-- What `axios.post` rejects with: a response that is no success has come,
or none. -/
structure AxiosError where
  message : String
  response : Option HttpResponse

/-- The promise of `axios.post` resolves with a status from 200 to 299. -/
def settle (response : Option HttpResponse) (message : String) : Except AxiosError HttpResponse :=
  match response with
  | some r => if 200 ≤ r.status ∧ r.status < 300 then .ok r else .error ⟨message, some r⟩
  | none => .error ⟨message, none⟩

/-- What the outside decides, with the answer of the endpoint. -/
structure WebhookEnv extends Env where
  response : Option HttpResponse := none
  message : String := "timeout of 10000ms exceeded"

/-- `JSON.stringify`, the decimal digits of a number, and the HMAC-SHA256 of a
body under a secret in hexadecimal digits. -/
structure Builtins where
  stringify : JsValue → String
  digits : JsNumber → String
  hmacSha256 : String → String → String

/-- `String(v)`, or the `TypeError` that it throws. -/
def Builtins.string (js : Builtins) (v : JsValue) : Except Thrown String :=
  match v.toString? js.digits with
  | some s => .ok s
  | none => .error (.error "Cannot convert object to primitive value")

/-- `defaultJobOptions` of `webhookQueue`. -/
def webhookJobOptions : JobQueue.Options :=
  { attempts := 5, removeOnComplete := 200, removeOnFail := 500 }

/-! ## §2. Calls. -/

/-- A delivery with its `event` and `endpoint`. -/
structure DeliveryWithEvent extends WebhookDelivery where
  event : WebhookEvent
  endpoint : WebhookEndpoint

/-- `data` of `prisma.webhookDelivery.update`; the attempt is counted, and an
absent field is left as it is. -/
structure WebhookDeliveryData where
  status : WebhookDeliveryStatus
  responseStatus : Option Int
  responseBody : String
  deliveredAt : Option Instant := none

def WebhookDeliveryData.apply (data : WebhookDeliveryData) (d : WebhookDelivery) :
    WebhookDelivery :=
  { d with
    status := data.status
    responseStatus := data.responseStatus.or d.responseStatus
    responseBody := some data.responseBody
    deliveredAt := data.deliveredAt.or d.deliveredAt
    attemptCount := d.attemptCount + 1 }

inductive DeliveryCall where
  /-- `findUniqueOrThrow` with `include: { event: true, endpoint: true }`. -/
  | webhookDeliveryFindUniqueOrThrow (id : String)
  | post (url body : String) (headers : List (String × String))
  | webhookDeliveryUpdate (id : String) (data : WebhookDeliveryData)
  /-- The job has returned. -/
  | moveToCompleted (job : Job String)
  /-- The job has thrown. -/
  | moveToFailed (job : Job String)

@[reducible] def DeliveryCall.Reply : DeliveryCall → Type
  | .webhookDeliveryFindUniqueOrThrow _ => DeliveryWithEvent
  -- the rejection of the request is a value: the `catch` block reads its response
  | .post _ _ _ => Except AxiosError HttpResponse
  | .webhookDeliveryUpdate _ _ => Unit
  | .moveToCompleted _ => Unit
  | .moveToFailed _ => Unit

/-- The interface of the backend with the webhook worker. -/
@[reducible] def WebhookApi : Interface := Api.extend DeliveryCall DeliveryCall.Reply

abbrev WebhookService (α : Type) : Type := Prog WebhookApi α

/-- `include: { event: true, endpoint: true }`; both relations are required. -/
def World.withEvent (w : World) (d : WebhookDelivery) : Option DeliveryWithEvent := do
  let event ← w.hooks.events.find? (·.id == d.webhookEventId)
  let endpoint ← w.hooks.endpoints.find? (·.id == d.webhookEndpointId)
  return { d with event, endpoint }

/-- `prisma.webhookDelivery.update({ where: { id }, data })`. -/
def World.updateDelivery (w : World) (id : String) (data : WebhookDeliveryData) :
    Except Thrown Unit × World :=
  if (w.hooks.deliveries.find? (·.id == id)).isNone then
    (.error (.error "Record to update not found."), w)
  else
    match w.hooks.deliveries.update? (·.id == id) data.apply with
    | none => (.error (.error "Unique constraint failed"), w)
    | some deliveries => (.ok (), { w with hooks := { w.hooks with deliveries } })

/-- The webhook queue has changed. -/
def World.withQueue (w : World) (queue : Queue String) : World :=
  { w with hooks := { w.hooks with queue } }

/-- A call that does not reject. -/
def World.answerDelivery (w : World) (env : WebhookEnv) :
    (c : DeliveryCall) → Except Thrown c.Reply × World
  | .webhookDeliveryFindUniqueOrThrow id =>
      match (w.hooks.deliveries.find? (·.id == id)).bind w.withEvent with
      | none => (.error (.error "No WebhookDelivery found"), w)
      | some delivery => (.ok delivery, w)
  | .post _ _ _ => (.ok (settle env.response env.message), w)
  | .webhookDeliveryUpdate id data => w.updateDelivery id data
  | .moveToCompleted job =>
      if w.hooks.queue.pending job.id then
        (.ok (), w.withQueue (w.hooks.queue.complete webhookJobOptions job))
      else (.error (.error s!"Missing key for job {job.id}"), w)
  | .moveToFailed job =>
      -- BullMQ compares the attempts of the job as the worker has taken it
      if w.hooks.queue.pending job.id then
        (.ok (), w.withQueue (w.hooks.queue.failAttempt webhookJobOptions job))
      else (.error (.error s!"Missing key for job {job.id}"), w)

/-- The backend with the webhook worker. -/
def webhookApi : Backend WebhookApi World WebhookEnv :=
  api.extend (·.toEnv) (fun c env w =>
    match env.rejects with
    | some message => (.error (.error message), w)
    | none => w.answerDelivery env c)

/-- An event of a run with the webhook worker. -/
abbrev WebhookCallEvent := Effect.Event WebhookApi World WebhookEnv

/-! ## §3. `webhook.service`. -/

/-- `await` on a call of the worker. -/
def awaitDelivery (c : DeliveryCall) : WebhookService c.Reply :=
  Prog.perform (I := WebhookApi) (.inr c)

def prisma.webhookDelivery.findUniqueOrThrow (id : String) : WebhookService DeliveryWithEvent :=
  awaitDelivery (.webhookDeliveryFindUniqueOrThrow id)

def prisma.webhookDelivery.update (id : String) (data : WebhookDeliveryData) :
    WebhookService Unit :=
  awaitDelivery (.webhookDeliveryUpdate id data)

def axios.post (url body : String) (headers : List (String × String)) :
    WebhookService (Except AxiosError HttpResponse) :=
  awaitDelivery (.post url body headers)

def WebhookEventType.name : WebhookEventType → String
  | .PAYMENT_SUCCESS => "PAYMENT_SUCCESS"
  | .PAYMENT_FAILED => "PAYMENT_FAILED"
  | .SUBSCRIPTION_CREATED => "SUBSCRIPTION_CREATED"
  | .SUBSCRIPTION_UPDATED => "SUBSCRIPTION_UPDATED"
  | .SUBSCRIPTION_CANCELLED => "SUBSCRIPTION_CANCELLED"

def signWebhookPayload (js : Builtins) (secret body : String) : String :=
  js.hmacSha256 secret body

/-- The body that is signed and posted. -/
def deliverWebhook.body (js : Builtins) (event : WebhookEvent) : String :=
  js.stringify (.object
    [("id", .string event.id),
     ("type", .string event.type.name),
     ("createdAt", .string event.createdAt.toISOString),
     ("data", event.payload)])

/-- The body of the `try`; the error that reaches the `catch` block is its
value. -/
def deliverWebhook.attempt (js : Builtins) (deliveryId : String) (delivery : DeliveryWithEvent)
    (body signature : String) : WebhookService (Option AxiosError) := do
  match ← axios.post delivery.endpoint.url body
      [("Content-Type", "application/json"),
       ("X-Sorobill-Signature", signature),
       ("X-Sorobill-Event", delivery.event.type.name)] with
  | .error err => pure (some err)
  | .ok res =>
      let text ← Prog.evaluate (js.string res.data)
      let now ← dateNow.embed
      prisma.webhookDelivery.update deliveryId
        { status := .DELIVERED
          responseStatus := some res.status
          responseBody := JavaScript.sliceTo 500 text
          deliveredAt := some now }
      pure none

/-- `String(err?.response?.data ?? err?.message)`. -/
def AxiosError.text (js : Builtins) (err : AxiosError) : Except Thrown String :=
  let data : JsValue := (err.response.map (·.data)).getD .undefined
  js.string (data.nullish (.string err.message))

/-- The `catch` block. -/
def deliverWebhook.recordFailure (js : Builtins) (deliveryId : String) (err : AxiosError) :
    WebhookService Unit := do
  -- what `String` throws here is caught by nothing
  let text ← Prog.evaluate (err.text js)
  prisma.webhookDelivery.update deliveryId
    { status := .FAILED
      responseStatus := err.response.map (·.status)
      responseBody := JavaScript.sliceTo 500 text }
  throw (.error err.message)

/-- Deliver a single WebhookDelivery. -/
def deliverWebhook (js : Builtins) (deliveryId : String) : WebhookService Unit := do
  let delivery ← prisma.webhookDelivery.findUniqueOrThrow deliveryId
  let body := deliverWebhook.body js delivery.event
  let signature := signWebhookPayload js delivery.endpoint.secret body
  -- neither a rejected call nor a `TypeError` has a response
  let failure ← tryCatch (deliverWebhook.attempt js deliveryId delivery body signature)
    (fun err => pure (some ⟨err.message, none⟩))
  match failure with
  | none => pure ()
  | some err => deliverWebhook.recordFailure js deliveryId err

/-! ## §4. `webhook.worker`. -/

def webhookQueue.moveToCompleted (job : Job String) : WebhookService Unit :=
  awaitDelivery (.moveToCompleted job)

def webhookQueue.moveToFailed (job : Job String) : WebhookService Unit :=
  awaitDelivery (.moveToFailed job)

/-- The processor of the worker. -/
def webhookWorker (js : Builtins) (job : Job String) : WebhookService Unit :=
  deliverWebhook js job.data

/-- One attempt of BullMQ: the job is completed when the processor returns, and
fails when the processor or its completion throws. -/
def webhookWorker.run (js : Builtins) (job : Job String) : WebhookService Unit :=
  tryCatch (webhookWorker js job >>= fun _ => webhookQueue.moveToCompleted job)
    (fun _ => webhookQueue.moveToFailed job)

/-! ## §5. The running backend. -/

inductive WebhookOperation where
  | emitWebhookEvent (type : WebhookEventType) (paymentId : Option String) (payload : JsValue)
  | deliver (job : Job String)

def WebhookOperation.body (js : Builtins) : WebhookOperation → WebhookService Unit
  | .emitWebhookEvent type paymentId payload =>
      (Sorobill.emitWebhookEvent type paymentId payload).embed
  | .deliver job => webhookWorker.run js job

/-- A job is attempted only while the queue has it unfinished. -/
def WebhookOperation.Enabled (w : World) : WebhookOperation → Prop
  | .emitWebhookEvent _ _ _ => True
  | .deliver job => ∃ phase, (phase, job) ∈ w.hooks.queue.unfinished

/-- What BullMQ does on its own: a job changes its phase, and an active job
that has stalled too often fails, where `mayFail` admits it. -/
inductive WebhookQueueStep (mayFail : World → Job String → Prop) : World → World → Prop where
  | phase {w} (id : String) (phase : JobQueue.Phase) :
      WebhookQueueStep mayFail w (w.withQueue (w.hooks.queue.setPhase id phase))
  | stalled {w} (job : Job String) : (.active, job) ∈ w.hooks.queue.unfinished → mayFail w job →
      WebhookQueueStep mayFail w (w.withQueue (w.hooks.queue.fail webhookJobOptions job))

/-- **Events and their deliveries**: any number of emissions and attempts,
interleaved call by call, and what BullMQ does on its own. -/
def deliveries {σ : Type} (js : Builtins) (mayFail : World → Job String → Prop)
    (view : WebhookOperation → σ) (track : σ → WebhookCallEvent → σ) :
    System WebhookApi World WebhookEnv WebhookOperation σ where
  backend := webhookApi
  body op := op.body js
  view
  track
  enabled w op := op.Enabled w
  drift := WebhookQueueStep mayFail

instance WebhookOperation.decidableEnabled (w : World) :
    (op : WebhookOperation) → Decidable (op.Enabled w)
  | .emitWebhookEvent _ _ _ => .isTrue trivial
  | .deliver job =>
      decidable_of_iff (∃ x ∈ w.hooks.queue.unfinished, x.2 = job) (by
        constructor
        · rintro ⟨⟨phase, _⟩, hmem, rfl⟩
          exact ⟨phase, hmem⟩
        · rintro ⟨phase, hmem⟩
          exact ⟨_, hmem, rfl⟩)

instance {σ : Type} (js : Builtins) (mayFail : World → Job String → Prop)
    (view : WebhookOperation → σ) (track : σ → WebhookCallEvent → σ) (w : World)
    (op : WebhookOperation) : Decidable ((deliveries js mayFail view track).enabled w op) :=
  inferInstanceAs (Decidable (op.Enabled w))

end Sorobill
