/-
  Sorobill.Model.Server
  ─────────────────────
  **THE WHOLE SERVER**: the services, the workers and the scheduler together
  with the routes that the other model files leave out,
  `src/routes/plans.ts`, `src/routes/merchants.ts`, `src/routes/webhooks.ts`,
  `src/routes/wallets.ts`, `src/routes/indexer.ts`, `src/middleware/auth.ts`,
  and `verifySignedMessage` of `src/services/payment.service.ts`.

  Every request that writes, every job and every tick is an operation of one
  system.  The requests that only read are left out.

  The server has a record that no code reads: `contracts` lists the contract
  ids that plans were stored with.
-/
import Sorobill.Library.Composition
import Sorobill.Model.Deliveries
import Sorobill.Model.Indexer
import Sorobill.Model.Plans

namespace Sorobill

open Effect
open Relational
open JavaScript (JsValue JsNumber)
open JobQueue (Job)

/-! ## §1. The outside. -/

structure Server where
  core : World
  index : Indexer.World := {}
  /-- The addresses of the wallets with `isVerified`. -/
  verified : List String := []
  contracts : List (String × Nat) := []

structure ServerEnv extends WebhookEnv where
  index : Indexer.Env := {}

/-- `Keypair.fromPublicKey` and `verify` of the Stellar SDK, which are `none`
where they throw, `Buffer.from(_, "utf8")` and `Buffer.from(_, "base64")`. -/
structure Sdk where
  Keypair : Type
  fromPublicKey : String → Option Keypair
  verify : Keypair → List UInt8 → List UInt8 → Option Bool
  utf8 : String → List UInt8
  base64 : String → List UInt8

/-- The configuration of a deployment, and what it is built on. -/
structure Deployment where
  cfg : Config
  sdk : Sdk
  webhook : Builtins
  indexer : Indexer.Builtins
  /-- `process.env.NODE_ENV === "production"`. -/
  production : Bool := true
  /-- The check of `z.string().url()`. -/
  isUrl : String → Bool

/-! ## §2. Calls. -/

/-- `data` of `prisma.plan.update`; an absent field is left as it is. -/
structure PlanData where
  contractPlanId : Option Int := none
  isActive : Option Bool := none

def PlanData.apply (data : PlanData) (p : Plan) : Plan :=
  { p with
    contractPlanId := (data.contractPlanId.map Int.toNat).or p.contractPlanId
    isActive := data.isActive.getD p.isActive }

/-- `data` of `prisma.webhookEndpoint.create`. -/
structure EndpointCreate where
  url : String
  secret : String
  events : List WebhookEventType

def EndpointCreate.row (data : EndpointCreate) (id : String) : WebhookEndpoint :=
  { id, url := data.url, secret := data.secret, events := data.events }

instance : DecidableRel WebhookEndpoint.Clash :=
  fun a b => inferInstanceAs (Decidable (a.id = b.id))

inductive ServerCall where
  /-- A call of the services. -/
  | core (c : Call)
  /-- A call of the webhook worker. -/
  | delivery (c : DeliveryCall)
  /-- A call of the indexer. -/
  | index (c : Indexer.Call)
  | planCreate (data : CreatePlanData)
  | planUpdate (id : String) (data : PlanData)
  | webhookEndpointCreate (data : EndpointCreate)
  /-- `data: { isActive: false }`. -/
  | webhookEndpointDeactivate (id : String)
  /-- `upsert` with `isVerified: true` in `create` and in `update`. -/
  | walletUpsertVerified (address : String)

@[reducible] def ServerCall.Reply : ServerCall → Type
  | .core c => c.Reply
  | .delivery c => c.Reply
  | .index c => c.Reply
  | .planCreate _ => Plan
  | .planUpdate _ _ => Plan
  | .webhookEndpointCreate _ => WebhookEndpoint
  | .webhookEndpointDeactivate _ => WebhookEndpoint
  | .walletUpsertVerified _ => Wallet

@[reducible] def ServerApi : Interface where
  Call := ServerCall
  Reply := ServerCall.Reply
  Error := Thrown

/-- A request handler. -/
abbrev Handler (α : Type) : Type := Prog ServerApi α

/-- The core has changed. -/
def Server.withCore (s : Server) (core : World) : Server := { s with core }

/-- A plan was stored: the contract id it has is recorded. -/
def Server.withPlan (s : Server) (plans : Table Plan Plan.Clash) (plan : Plan) : Server :=
  { s with
    core := { s.core with plans }
    contracts := s.contracts ++ (plan.contractPlanId.map (plan.id, ·)).toList }

/-- `prisma.plan.create`. -/
def Server.createPlan (s : Server) (id : String) (data : CreatePlanData) :
    Except Thrown Plan × Server :=
  match data.row id with
  | none => (.error (.error "Unable to fit value into an INT4"), s)
  | some plan =>
      match s.core.plans.insert? plan with
      | none => (.error (.error "Unique constraint failed"), s)
      | some plans => (.ok plan, s.withPlan plans plan)

/-- `prisma.plan.update({ where: { id }, data })`. -/
def Server.updatePlan (s : Server) (id : String) (data : PlanData) :
    Except Thrown Plan × Server :=
  if data.contractPlanId.all int4 then
    match s.core.plans.find? (·.id == id) with
    | none => (.error (.error "Record to update not found."), s)
    | some old =>
        match s.core.plans.update? (·.id == id) data.apply with
        | none => (.error (.error "Unique constraint failed"), s)
        | some plans => (.ok (data.apply old), s.withPlan plans (data.apply old))
  else (.error (.error "Unable to fit value into an INT4"), s)

/-- `prisma.webhookEndpoint.create`. -/
def Server.createEndpoint (s : Server) (id : String) (data : EndpointCreate) :
    Except Thrown WebhookEndpoint × Server :=
  match s.core.hooks.endpoints.insert? (data.row id) with
  | none => (.error (.error "Unique constraint failed"), s)
  | some endpoints =>
      (.ok (data.row id),
        s.withCore { s.core with hooks := { s.core.hooks with endpoints } })

/-- `prisma.webhookEndpoint.update({ where: { id }, data: { isActive: false } })`. -/
def Server.deactivateEndpoint (s : Server) (id : String) :
    Except Thrown WebhookEndpoint × Server :=
  match s.core.hooks.endpoints.find? (·.id == id) with
  | none => (.error (.error "Record to update not found."), s)
  | some old =>
      match s.core.hooks.endpoints.update? (·.id == id) (fun e => { e with isActive := false }) with
      | none => (.error (.error "Unique constraint failed"), s)
      | some endpoints =>
          (.ok { old with isActive := false },
            s.withCore { s.core with hooks := { s.core.hooks with endpoints } })

/-- `prisma.wallet.upsert` of a verified wallet. -/
def Server.verifyWallet (s : Server) (id address : String) : Except Thrown Wallet × Server :=
  match s.core.wallets.find? (·.address == address) with
  | some wallet => (.ok wallet, { s with verified := s.verified ++ [address] })
  | none =>
      match s.core.wallets.insert? { id, address } with
      | none => (.error (.error "Unique constraint failed"), s)
      | some wallets =>
          (.ok { id, address },
            { s with core := { s.core with wallets }, verified := s.verified ++ [address] })

/-- A call that does not reject; those of the parts are served as in the parts. -/
def Server.answer (s : Server) (env : ServerEnv) :
    (c : ServerCall) → Except Thrown c.Reply × Server
  | .core c =>
      let r := api.serve c env.toEnv s.core
      (r.1, s.withCore r.2)
  | .delivery c =>
      let r := webhookApi.serve (.inr c) env.toWebhookEnv s.core
      (r.1, s.withCore r.2)
  | .index c =>
      let r := Indexer.api.serve c env.index s.index
      (r.1, { s with index := r.2 })
  | .planCreate data => s.createPlan (env.freshIds.headD "") data
  | .planUpdate id data => s.updatePlan id data
  | .webhookEndpointCreate data => s.createEndpoint (env.freshIds.headD "") data
  | .webhookEndpointDeactivate id => s.deactivateEndpoint id
  | .walletUpsertVerified address => s.verifyWallet (env.freshIds.headD "") address

/-- **The backend of the server**: a rejected call has no effect. -/
def serverApi : Backend ServerApi Server ServerEnv where
  serve c env s :=
    match env.rejects with
    | some message => (.error (.error message), s)
    | none => s.answer env c

abbrev ServerEvent := Effect.Event ServerApi Server ServerEnv

/-- The backend of the services, on the server. -/
def coreApi : Backend Api Server ServerEnv where
  serve c env s :=
    let r := api.serve c env.toEnv s.core
    (r.1, s.withCore r.2)

/-- The backend of the webhook worker, on the server. -/
def workerApi : Backend WebhookApi Server ServerEnv where
  serve c env s :=
    let r := webhookApi.serve c env.toWebhookEnv s.core
    (r.1, s.withCore r.2)

def servicesOnServer : Translation Api ServerApi := ⟨.core, fun _ r => r, id⟩

def workerOnServer : Translation WebhookApi ServerApi where
  call
    | .inl c => .core c
    | .inr c => .delivery c
  response
    | .inl _, r => r
    | .inr _, r => r
  error := id

def indexerOnServer : Translation Indexer.Api ServerApi := ⟨.index, fun _ r => r, id⟩

/-- `await` on a call of the server. -/
def awaitServer (c : ServerCall) : Handler c.Reply := Prog.perform (I := ServerApi) c

def prisma.plan.create (data : CreatePlanData) : Handler Plan := awaitServer (.planCreate data)

def prisma.plan.update (id : String) (data : PlanData) : Handler Plan :=
  awaitServer (.planUpdate id data)

def prisma.webhookEndpoint.create (data : EndpointCreate) : Handler WebhookEndpoint :=
  awaitServer (.webhookEndpointCreate data)

def prisma.webhookEndpoint.deactivate (id : String) : Handler WebhookEndpoint :=
  awaitServer (.webhookEndpointDeactivate id)

def prisma.wallet.upsertVerified (address : String) : Handler Wallet :=
  awaitServer (.walletUpsertVerified address)

/-! ## §3. Replies. -/

inductive RouteBody where
  | error (message : String)
  /-- `body.error.flatten()` of a request that does not parse. -/
  | invalid
  | empty
  | plan (plan : Plan)
  | endpoint (endpoint : WebhookEndpoint)
  | queued (type : WebhookEventType)
  | verified (walletId : String)
  | event (event : Indexer.ChainEvent)
  | polled (result : Indexer.PollResult)

structure RouteReply where
  status : Nat
  body : RouteBody

/-! ## §4. `routes/plans` and `routes/merchants`. -/

/-- `createPlanSchema.safeParse(req.body)`. -/
@[irreducible] def plans.createPlanSchema.safeParse (body : CreatePlan) : Option CreatePlanData :=
  plans.createPlanSchema body

/-- `POST /plans`. -/
def plans.create (body : CreatePlan) : Handler RouteReply := do
  match plans.createPlanSchema.safeParse body with
  | none => pure ⟨400, .invalid⟩
  | some data =>
      let plan ← prisma.plan.create data
      pure ⟨201, .plan plan⟩

/-- The schema of `routes/merchants`, which has no `merchantAddress`. -/
@[irreducible] def merchants.createPlanSchema (body : CreatePlan) : Option CreatePlanData :=
  plans.createPlanSchema { body with merchantAddress := none }

/-- `POST /merchants/:address/plans`; the address is not checked. -/
def merchants.create (address : String) (body : CreatePlan) : Handler RouteReply := do
  match merchants.createPlanSchema body with
  | none => pure ⟨400, .invalid⟩
  | some data =>
      let plan ← prisma.plan.create { data with merchantAddress := some address }
      pure ⟨201, .plan plan⟩

/-- `z.number().int().min(0)`. -/
def naturalNumber? (n : JsNumber) : Option Int := if atLeast 0 n then integer? n else none

/-- `PATCH /plans/:id/contract`. -/
def plans.syncContract (id : String) (contractPlanId : JsNumber) : Handler RouteReply := do
  match naturalNumber? contractPlanId with
  | none => pure ⟨400, .invalid⟩
  | some n =>
      let plan ← prisma.plan.update id { contractPlanId := some n }
      pure ⟨200, .plan plan⟩

/-- `DELETE /plans/:id`. -/
def plans.deactivate (id : String) : Handler RouteReply := do
  let _ ← prisma.plan.update id { isActive := some false }
  pure ⟨204, .empty⟩

/-! ## §5. `routes/webhooks`. -/

/-- `createEndpointSchema`. -/
def webhooks.createEndpointSchema (isUrl : String → Bool) (body : EndpointCreate) :
    Option EndpointCreate :=
  if isUrl body.url && decide (16 ≤ utf16Length body.secret) && decide (1 ≤ body.events.length)
  then some body else none

/-- `POST /webhooks/endpoints`. -/
def webhooks.createEndpoint (d : Deployment) (body : EndpointCreate) : Handler RouteReply := do
  match webhooks.createEndpointSchema d.isUrl body with
  | none => pure ⟨400, .invalid⟩
  | some data =>
      let endpoint ← prisma.webhookEndpoint.create data
      pure ⟨201, .endpoint endpoint⟩

/-- `DELETE /webhooks/endpoints/:id`. -/
def webhooks.deactivateEndpoint (id : String) : Handler RouteReply := do
  let _ ← prisma.webhookEndpoint.deactivate id
  pure ⟨204, .empty⟩

/-- `{ ...payload, [k]: v }`: a key that is there keeps its place. -/
def withProp (k : String) (v : JsValue) (props : List (String × JsValue)) :
    List (String × JsValue) :=
  if props.any (·.1 == k) then props.map (fun p => if p.1 == k then (k, v) else p)
  else props ++ [(k, v)]

/-- `POST /webhooks/test`. -/
def webhooks.test (type : WebhookEventType) (payload : Option (List (String × JsValue))) :
    Handler RouteReply := do
  (emitWebhookEvent type none
    (.object (withProp "test" (.bool true) (payload.getD [])))).translate servicesOnServer
  pure ⟨200, .queued type⟩

/-! ## §6. Wallet authentication. -/

/-- `verifySignedMessage`. -/
def verifySignedMessage (sdk : Sdk) (publicKey message signature : String) : Bool :=
  match sdk.fromPublicKey publicKey with
  | none => false
  | some keypair =>
      (sdk.verify keypair (sdk.utf8 message) (sdk.base64 signature)).getD false

/-- A header: absent, a string, or several values. -/
inductive Header where
  | absent
  | one (value : String)
  | many (values : List String)

/-- `!header`. -/
def Header.isFalsy : Header → Bool
  | .absent => true
  | .one value => value == ""
  | .many _ => false

structure AuthHeaders where
  address : Header
  message : Header
  signature : Header

/-- What the `preHandler` decides; a reply that it sends ends the request. -/
inductive Admission where
  | sent (reply : RouteReply)
  | anonymous
  | wallet (address : String)

/-- `requireWalletAuth`. -/
def requireWalletAuth (d : Deployment) (headers : AuthHeaders) : Handler Admission := do
  if headers.address.isFalsy || headers.message.isFalsy || headers.signature.isFalsy then
    if d.production then
      pure (.sent ⟨401, .error "Wallet auth headers required"⟩)
    else pure .anonymous
  else
    match headers.address, headers.message, headers.signature with
    | .one address, .one message, .one signature =>
        if verifySignedMessage d.sdk address message signature then
          let _ ← prisma.wallet.upsertVerified address
          pure (.wallet address)
        else pure (.sent ⟨401, .error "Invalid wallet signature"⟩)
    | _, _, _ => pure (.sent ⟨400, .error "Invalid auth headers"⟩)

/-- `{ preHandler: requireWalletAuth }`. -/
def withWalletAuth (d : Deployment) (headers : AuthHeaders) (handler : Handler RouteReply) :
    Handler RouteReply := do
  match ← requireWalletAuth d headers with
  | .sent reply => pure reply
  | _ => handler

structure VerifyWallet where
  address : String
  message : String
  signature : String

/-- `POST /wallets/verify`. -/
def wallets.verify (d : Deployment) (body : VerifyWallet) : Handler RouteReply := do
  if utf16Length body.address ≠ 56 ∨ body.message = "" ∨ body.signature = "" then
    pure ⟨400, .invalid⟩
  else if verifySignedMessage d.sdk body.address body.message body.signature then
    let wallet ← prisma.wallet.upsertVerified body.address
    pure ⟨200, .verified wallet.id⟩
  else pure ⟨401, .error "Invalid signature"⟩

/-! ## §7. `routes/indexer`. -/

structure IngestBody where
  type : String
  contractId : String
  txHash : String
  ledger : Option JsNumber := none
  payload : Option (List (String × JsValue)) := none
  strict : Option Bool := none

/-- The body parses; `ledger` is an integer. -/
def IngestBody.parse (body : IngestBody) : Option Indexer.IngestEventInput :=
  if body.type = "" ∨ body.contractId = "" ∨ body.txHash = "" ∨
      body.ledger.any (fun n => (integer? n).isNone) then none
  else
    some
      { type := .string body.type
        contractId := body.contractId
        txHash := body.txHash
        ledger := body.ledger.bind integer?
        payload := .object (body.payload.getD []) }

/-- `POST /indexer/ingest`, behind the `preHandler`. -/
def indexer.ingest (d : Deployment) (body : IngestBody) : Handler RouteReply := do
  match body.parse with
  | none => pure ⟨400, .invalid⟩
  | some input =>
      match Indexer.assertIngestableType body.type (body.strict.getD true) with
      | .error err => pure ⟨400, .error err.message⟩
      | .ok _ =>
          let created ← (Indexer.ingestChainEvent d.indexer input).translate indexerOnServer
          pure ⟨201, .event created⟩

/-- `z.number().int().positive()`. -/
def positiveInteger? (n : JsNumber) : Option Int := if positive n then integer? n else none

/-- `POST /indexer/poll`, behind the `preHandler`. -/
def indexer.poll (d : Deployment) (startLedger : Option JsNumber) : Handler RouteReply := do
  if startLedger.any (fun n => (positiveInteger? n).isNone) then
    pure ⟨400, .invalid⟩
  else
    let result ← (Indexer.pollSorobanEvents d.cfg d.indexer
      (startLedger.bind positiveInteger?)).translate indexerOnServer
    pure ⟨200, .polled result⟩

/-! ## §8. The running server. -/

inductive ServerOperation where
  /-- A request of subscriptions, payments or billing, a billing job, a tick. -/
  | billing (op : Operation)
  /-- A webhook job. -/
  | deliver (job : Job String)
  | createPlan (body : CreatePlan)
  | createMerchantPlan (address : String) (body : CreatePlan)
  | syncContract (id : String) (contractPlanId : JsNumber)
  | deactivatePlan (id : String)
  | createEndpoint (body : EndpointCreate)
  | deactivateEndpoint (id : String)
  | testEvent (type : WebhookEventType) (payload : Option (List (String × JsValue)))
  | verifyWallet (body : VerifyWallet)
  | ingest (headers : AuthHeaders) (body : IngestBody)
  | poll (headers : AuthHeaders) (startLedger : Option JsNumber)

/-- The reply is sent and forgotten. -/
def answering (handler : Handler RouteReply) : Handler Unit := (fun _ => ()) <$> handler

def ServerOperation.body (d : Deployment) : ServerOperation → Handler Unit
  | .billing op => ((fun _ => ()) <$> op.body d.cfg).translate servicesOnServer
  | .deliver job => (webhookWorker.run d.webhook job).translate workerOnServer
  | .createPlan body => answering (plans.create body)
  | .createMerchantPlan address body => answering (merchants.create address body)
  | .syncContract id contractPlanId => answering (plans.syncContract id contractPlanId)
  | .deactivatePlan id => answering (plans.deactivate id)
  | .createEndpoint body => answering (webhooks.createEndpoint d body)
  | .deactivateEndpoint id => answering (webhooks.deactivateEndpoint id)
  | .testEvent type payload => answering (webhooks.test type payload)
  | .verifyWallet body => answering (wallets.verify d body)
  | .ingest headers body => answering (withWalletAuth d headers (indexer.ingest d body))
  | .poll headers startLedger => answering (withWalletAuth d headers (indexer.poll d startLedger))

/-- A job is executed only while its queue has it unfinished. -/
def ServerOperation.Enabled (s : Server) : ServerOperation → Prop
  | .billing op => op.Enabled s.core
  | .deliver job => (WebhookOperation.deliver job).Enabled s.core
  | _ => True

/-- What happens to the server without an execution: BullMQ's bookkeeping, and
new events on the ledger. -/
inductive ServerDrift : Server → Server → Prop where
  | billingQueue {s q} : QueueStep s.core.billingQueue q →
      ServerDrift s (s.withCore { s.core with billingQueue := q })
  | webhookQueue {s w} : WebhookQueueStep (fun _ _ => True) s.core w →
      ServerDrift s (s.withCore w)
  | ledger {s} (log : List Indexer.SorobanEvent) :
      ServerDrift s { s with index := { s.index with log } }

/-- **The running server**: any number of requests, jobs and ticks, interleaved
call by call. -/
def server {σ : Type} (d : Deployment) (view : ServerOperation → σ)
    (track : σ → ServerEvent → σ) : System ServerApi Server ServerEnv ServerOperation σ where
  backend := serverApi
  body op := op.body d
  view
  track
  enabled s op := op.Enabled s
  drift := ServerDrift

/-- The running server, with nothing remembered of its executions. -/
abbrev runningServer (d : Deployment) :
    System ServerApi Server ServerEnv ServerOperation Unit :=
  server d (fun _ => ()) (fun v _ => v)

instance ServerOperation.decidableEnabled (s : Server) :
    (op : ServerOperation) → Decidable (op.Enabled s)
  | .billing op => inferInstanceAs (Decidable (op.Enabled s.core))
  | .deliver job => WebhookOperation.decidableEnabled s.core (.deliver job)
  | .createPlan _ => .isTrue trivial
  | .createMerchantPlan _ _ => .isTrue trivial
  | .syncContract _ _ => .isTrue trivial
  | .deactivatePlan _ => .isTrue trivial
  | .createEndpoint _ => .isTrue trivial
  | .deactivateEndpoint _ => .isTrue trivial
  | .testEvent _ _ => .isTrue trivial
  | .verifyWallet _ => .isTrue trivial
  | .ingest _ _ => .isTrue trivial
  | .poll _ _ => .isTrue trivial

instance Server.decidableEnabled {σ : Type} (d : Deployment) (view : ServerOperation → σ)
    (track : σ → ServerEvent → σ) (s : Server) (op : ServerOperation) :
    Decidable ((server d view track).enabled s op) :=
  ServerOperation.decidableEnabled s op

/-- An empty database, empty queues, and no transaction sent. -/
def Server.fresh : Server where
  core := { plans := .empty, wallets := .empty, subscriptions := .empty, payments := .empty }

end Sorobill
