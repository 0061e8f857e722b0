/-
  Sorobill.Model.Indexer
  ──────────────────────
  **THE CHAIN EVENT INDEXER**: the `ChainEvent` table, the two requests to the
  Soroban RPC, and
  `src/lib/chain-event-types.ts`, `src/lib/event-topic.ts`,
  `src/lib/tx-hash.ts`, `src/lib/json.ts`,
  `src/services/indexer.validators.ts`, `src/services/indexer.service.ts`,
  `src/services/indexer.poller.ts`.

  What the RPC answers comes in through `Env`, any list of events.  The world
  has a record that no code reads: `log` lists the events of the contract that
  are on the ledger, in the order of the ledger.
-/
import Sorobill.Library.History
import Sorobill.Model.Services

namespace Sorobill.Indexer

open Effect
open Relational
open JavaScript (JsValue)

/-! ## §1. Data. -/

/-- The built-ins that rest on tables and prototypes from outside: `String(v)`
of a number or an object, and the lower case of a letter.  `String` does not
throw here: topics and values come from the RPC client, which builds them with
the SDK's classes, and these have the `toString` of every object. -/
structure Builtins where
  string : JsValue → String
  toLowerCase : String → String

/-- An event as `getEvents` returns it; `ledger` when it is a number. -/
structure SorobanEvent where
  topic : Option (List JsValue)
  txHash : Option String
  ledger : Option Int
  value : JsValue := .undefined

structure ChainEvent where
  id : String
  type : String
  contractId : String
  txHash : String
  ledger : Option Int
  payload : JsValue

/-- `@id` and the unique `txHash`. -/
def ChainEvent.Clash (a b : ChainEvent) : Prop := a.id = b.id ∨ a.txHash = b.txHash

instance : DecidableRel ChainEvent.Clash :=
  fun a b => inferInstanceAs (Decidable (a.id = b.id ∨ a.txHash = b.txHash))

instance : Std.Symm ChainEvent.Clash := ⟨fun _ _ h => h.imp Eq.symm Eq.symm⟩

/-- `IngestEventInput`; the type is what the caller's topic decodes to. -/
structure IngestEventInput where
  type : JsValue
  contractId : String
  txHash : String
  ledger : Option Int
  payload : JsValue

/-- `create` of `prisma.chainEvent.upsert`. -/
structure ChainEventCreate where
  type : JsValue
  contractId : String
  txHash : String
  ledger : Option Int
  payload : JsValue

/-- `update` of `prisma.chainEvent.upsert`. -/
structure ChainEventUpdate where
  type : JsValue
  payload : JsValue
  ledger : Option Int

/-- The argument of `prisma.chainEvent.upsert`, whose `where` is a hash. -/
structure ChainEventUpsert where
  txHash : String
  create : ChainEventCreate
  update : ChainEventUpdate

structure PollResult where
  polled : Bool
  ingested : Nat
  latestLedger : Option Int := none
  reason : Option String := none

/-! ## §2. The outside. -/

/-- The events of the contract, in the order of the ledger. -/
def InLedgerOrder (log : List SorobanEvent) : Prop :=
  (∀ ev ∈ log, ev.ledger.isSome = true)
    ∧ log.Pairwise (fun a b => a.ledger.getD 0 ≤ b.ledger.getD 0)

structure World where
  chainEvents : Table ChainEvent ChainEvent.Clash := .empty
  log : List SorobanEvent := []

/-- What the outside decides about one call. -/
structure Env where
  rejects : Option String := none
  freshId : String := ""
  sequence : Int := 0
  events : Option (List SorobanEvent) := none

inductive Call where
  | getLatestLedger
  | getEvents (startLedger : Int) (contractIds : List String) (limit : Nat)
  | chainEventUpsert (args : ChainEventUpsert)

/-- What a call is answered with: the sequence number of the latest ledger,
the `events` of the response, the row. -/
def Call.Reply : Call → Type
  | .getLatestLedger => Int
  | .getEvents _ _ _ => Option (List SorobanEvent)
  | .chainEventUpsert _ => ChainEvent

def Api : Interface := ⟨Call, Call.Reply, Thrown⟩

abbrev Service (α : Type) : Type := Prog Api α

/-- A column of 32 bits. -/
def fitsInt (n : Int) : Bool := -2147483648 ≤ n && n ≤ 2147483647

/-- `data` with this `type` and this `ledger` is valid; the type as stored. -/
def validType (type : JsValue) (ledger : Option Int) : Option String :=
  match type with
  | .string s => if ledger.all fitsInt then some s else none
  | _ => none

def World.event? (w : World) (txHash : String) : Option ChainEvent :=
  w.chainEvents.find? (fun e => e.txHash == txHash)

/-- A field that `update` leaves undefined keeps its value. -/
def ChainEventUpdate.apply (u : ChainEventUpdate) (type : String) (e : ChainEvent) : ChainEvent :=
  { e with type, payload := u.payload, ledger := u.ledger.or e.ledger }

def ChainEventCreate.row (c : ChainEventCreate) (id type : String) : ChainEvent :=
  { id, type, contractId := c.contractId, txHash := c.txHash, ledger := c.ledger
    payload := c.payload }

def World.answer (w : World) (env : Env) : (c : Call) → Api.Response c × World
  | .getLatestLedger => (.ok env.sequence, w)
  | .getEvents _ _ _ => (.ok env.events, w)
  | .chainEventUpsert args =>
      match validType args.create.type args.create.ledger,
          validType args.update.type args.update.ledger with
      | some created, some updated =>
          let new := args.create.row env.freshId created
          match w.chainEvents.upsert? (fun e => e.txHash == args.txHash) new
              (args.update.apply updated) with
          | some table =>
              (.ok (((w.event? args.txHash).map (args.update.apply updated)).getD new),
                { w with chainEvents := table })
          | none => (.error (.error "Unique constraint failed"), w)
      | _, _ => (.error (.error "Invalid value provided"), w)

/-- **The backend**: a rejected call has no effect. -/
def api : Backend Api World Env where
  serve c env w :=
    match env.rejects with
    | some message => (.error (.error message), w)
    | none => w.answer env c

abbrev CallEvent := Effect.Event Api World Env

/-- `await` on the outside. -/
def await (c : Call) : Service c.Reply := Prog.perform (I := Api) c

namespace prisma

def chainEvent.upsert (args : ChainEventUpsert) : Service ChainEvent :=
  await (.chainEventUpsert args)

end prisma

namespace server

def getLatestLedger : Service Int := await .getLatestLedger

def getEvents (startLedger : Int) (contractIds : List String) (limit : Nat) :
    Service (Option (List SorobanEvent)) :=
  await (.getEvents startLedger contractIds limit)

end server

/-! ## §3. Pure parts. -/

def CHAIN_EVENT_TYPES : List String :=
  ["plan_created", "plan_updated", "plan_deactivated", "plan_reactivated", "subscribed",
    "sub_cancelled", "sub_paused", "sub_resumed", "payment_executed", "payment_failed"]

def isKnownChainEventType (type : JsValue) : Bool := CHAIN_EVENT_TYPES.any (type.isString ·)

/-- What `assertIngestableType` throws. -/
structure IndexerValidationError where
  message : String

/-- Of the ingest route, which passes `strict` unless the request says otherwise. -/
def assertIngestableType (type : String) (strict : Bool := false) :
    Except IndexerValidationError Unit :=
  if strict && !isKnownChainEventType (.string type) then
    .error ⟨"Unknown chain event type: " ++ type⟩
  else .ok ()

/-- What the first of the members `_value`, `value`, `sym` holds; the source
declares that it is a string. -/
def topicSymbol (topic : JsValue) : JsValue :=
  match topic with
  | .string s => .string s
  | _ =>
      if topic.isObject then
        (((topic.prop "_value").nullish (topic.prop "value")).nullish
          (topic.prop "sym")).nullish .null
      else .null

def normalizeTxHash (js : Builtins) (hash : String) : String :=
  js.toLowerCase (JavaScript.trim hash)

def asInputJson (value : JsValue) : JsValue := value.nullish .undefined

/-! ## §4. `indexer.service` and `indexer.poller`. -/

/-- The argument of the upsert. -/
def ingestChainEvent.args (js : Builtins) (input : IngestEventInput) : ChainEventUpsert :=
  let payload := (asInputJson input.payload).nullish (.object [])
  { txHash := normalizeTxHash js input.txHash
    create :=
      { type := input.type
        contractId := input.contractId
        txHash := normalizeTxHash js input.txHash
        ledger := input.ledger
        payload }
    update := { type := input.type, payload, ledger := input.ledger } }

def ingestChainEvent (js : Builtins) (input : IngestEventInput) : Service ChainEvent :=
  prisma.chainEvent.upsert (ingestChainEvent.args js input)

section Poller

variable (cfg : Config) (js : Builtins)

/-- What the loop passes to `ingestChainEvent`; `none` where it goes on with
the next event. -/
def pollSorobanEvents.input? (ev : SorobanEvent) : Option IngestEventInput :=
  let topics := ev.topic.getD []
  let type := (topicSymbol (topics.headD .undefined)).nullish (.string "unknown")
  -- an unlisted type passes: only the string "unknown" is skipped
  if !isKnownChainEventType type && type.isString "unknown" then none
  else
    match ev.txHash with
    | none => none
    | some txHash =>
        if txHash = "" then none
        else
          some
            { type
              contractId := cfg.stellar.subscriptionContractId
              txHash
              ledger := ev.ledger
              payload := .object
                [("topics", .array (topics.map (fun t =>
                    (topicSymbol t).nullish (.string (js.string t))))),
                  ("value", match ev.value with
                    | .undefined => .null
                    | value => .string (js.string value))] }

/-- The loop over the events of the response. -/
def pollSorobanEvents.ingestAll : List SorobanEvent → Nat → Service Nat
  | [], ingested => pure ingested
  | ev :: events, ingested =>
      match pollSorobanEvents.input? cfg js ev with
      | none => pollSorobanEvents.ingestAll events ingested
      | some input => do
          let _ ← ingestChainEvent js input
          pollSorobanEvents.ingestAll events (ingested + 1)

/-- `Math.max` over the ledgers, of which those that are no numbers count as 0. -/
def pollSorobanEvents.latestLedger (fromLedger : Int) : List SorobanEvent → Int
  | [] => fromLedger
  | ev :: events => events.foldl (fun n ev => max n (ev.ledger.getD 0)) (ev.ledger.getD 0)

/-- The ledger to start from; `none` when it could not be read. -/
def pollSorobanEvents.fromLedger (startLedger : Option Int) : Service (Option Int) :=
  match startLedger with
  | some fromLedger => pure (some fromLedger)
  | none =>
      tryCatch (do
        let sequence ← server.getLatestLedger
        return some (max 1 (sequence - 50)))
        (fun _ => pure none)

def pollSorobanEvents (startLedger : Option Int) : Service PollResult := do
  if !hasSorobanContract cfg then
    pure { polled := false, ingested := 0, reason := some "SUBSCRIPTION_CONTRACT_ID not set" }
  else if cfg.billing.testMode then
    pure { polled := false, ingested := 0, reason := some "TEST_MODE skips RPC polling" }
  else
    match ← pollSorobanEvents.fromLedger startLedger with
    | none => pure { polled := false, ingested := 0, reason := some "getLatestLedger failed" }
    | some fromLedger =>
        -- `none` is a rejected call, `some none` a response without `events`
        let response ← tryCatch
          (some <$> server.getEvents fromLedger [cfg.stellar.subscriptionContractId] 100)
          (fun _ => pure none)
        match response with
        | none => pure { polled := false, ingested := 0, reason := some "getEvents failed" }
        | some events =>
            let ingested ← pollSorobanEvents.ingestAll cfg js (events.getD []) 0
            let latestLedger := pollSorobanEvents.latestLedger fromLedger (events.getD [])
            pure { polled := true, ingested, latestLedger := some latestLedger }

/-- **The indexer**, one poll after the other.  In between, the log grows at
its end, and requests may ingest events. -/
def indexer : Serial Api World Env (Option Int) PollResult where
  backend := api
  body startLedger := pollSorobanEvents cfg js startLedger
  enabled _ _ := True
  drift w w' := ∃ new, w'.log = w.log ++ new ∧ InLedgerOrder w'.log

instance (w : World) (startLedger : Option Int) :
    Decidable ((indexer cfg js).enabled w startLedger) := .isTrue trivial

/-- A poll that was executed. -/
abbrev Poll : Type := Execution Api World Env (Option Int) PollResult

end Poller

end Sorobill.Indexer
