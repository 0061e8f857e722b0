/-
  Sorobill.System.Handlers
  ────────────────────────
  **THE WHOLE SERVER MAKES LAWFUL CALLS.**

    • `requireWalletAuth_backed` — in production no request passes the
      `preHandler` before a wallet has been verified;
    • `ingest_backed`, `poll_backed` — what the indexer stores;
    • `body_backed` — every request, job and tick;
    • `governs` — **the running server is governed by its ledger**, and what
      follows for every state it reaches.
-/
import Sorobill.System.Executions

namespace Sorobill

open Effect
open Relational
open JavaScript (JsNumber JsValue)

/-! ## §1. Handlers. -/

/-- An execution of the server, of which nothing is remembered. -/
abbrev lawfulServer (d : Epoch) : Contract serverApi Unit :=
  (ledger d).contract (fun v _ => v)

section Handlers

variable {d : Epoch} {s : Server} {α : Type}

/-- **One awaited call of the server.** -/
theorem safe_server {c : ServerCall} {Q : Post ServerApi Server Unit c.Reply}
    (h : ∀ s₁ env, s.Grows s₁ → s₁.Valid d → c.Lawful d s₁
      ∧ (s.Grows (serverApi.serve c env s₁).2 → Q (serverApi.serve c env s₁).1
          (serverApi.serve c env s₁).2 ())) :
    Safe (lawfulServer d) (awaitServer c) Q s () := by
  refine Growth.safe_call (G := ledger d) (fun s₁ env hgrows hvalid _ => ?_)
  obtain ⟨hlawful, hQ⟩ := h s₁ env hgrows hvalid
  exact ⟨hlawful, fun _ hgrows' => hQ hgrows'⟩

/-- A handler that makes one call, and ends with what it is answered. -/
theorem safe_server_map {c : ServerCall} {f : c.Reply → α} (hc : ∀ s : Server, c.Lawful d s) :
    Safe (lawfulServer d) (f <$> awaitServer c) (fun _ _ _ => True) s () :=
  Safe.map (safe_server (fun s₁ _ _ _ => ⟨hc s₁, fun _ => trivial⟩))

/-- What a program of the services is on the server. -/
theorem safe_onServer {p : Service α} (h : Safe (lawfully d) p (fun _ _ _ => True) s ()) :
    Safe (lawfulServer d) (p.translate servicesOnServer) (fun _ _ _ => True) s () :=
  Growth.safe_translate (G := services d) (Q := fun _ _ => True)
    servicesImplemented (fun _ _ h => h) (fun _ h => h) (fun _ _ _ h => h) (fun _ _ _ _ h => h)
    (fun _ _ _ _ => rfl) h

theorem safe_workOnServer {p : WebhookService α}
    (h : Safe (lawfulWork d) p (fun _ _ _ => True) s ()) :
    Safe (lawfulServer d) (p.translate workerOnServer) (fun _ _ _ => True) s () :=
  Growth.safe_translate (G := workers d) (Q := fun _ _ => True)
    workerImplemented (fun _ _ h => h) (fun _ h => h) (fun _ _ _ h => h) (fun _ _ _ _ h => h)
    (fun _ _ _ _ => rfl) h

/-- **A row that is stored for accepted data is accepted.** -/
theorem row_accepted {data : CreatePlanData} {id : String} {plan : Plan}
    (hrow : data.row id = some plan)
    (h : Regex.test amountRegex data.amount ∧ 1 ≤ data.intervalCount ∧ 0 ≤ data.trialDays) :
    plan.Accepted := by
  unfold CreatePlanData.row at hrow
  split at hrow
  next =>
    cases hrow
    exact ⟨h.1, h.2.1, h.2.2⟩
  next => cases hrow

theorem plans_create_backed (body : CreatePlan) :
    Safe (lawfulServer d) (plans.create body) (fun _ _ _ => True) s () := by
  unfold plans.create
  split
  · trivial
  next data hdata =>
    unfold plans.createPlanSchema.safeParse at hdata
    have haccepts := createPlanSchema_accepts hdata
    exact safe_server_map (fun _ _ _ hrow => row_accepted hrow haccepts)

/-- The schema of the merchant route accepts no other plans. -/
theorem merchants_create_backed (address : String) (body : CreatePlan) :
    Safe (lawfulServer d) (merchants.create address body) (fun _ _ _ => True) s () := by
  unfold merchants.create
  split
  · trivial
  next data hdata =>
    unfold merchants.createPlanSchema at hdata
    have haccepts := createPlanSchema_accepts hdata
    exact safe_server_map (fun _ _ _ hrow => row_accepted hrow haccepts)

theorem syncContract_backed (id : String) (contractPlanId : JsNumber) :
    Safe (lawfulServer d) (plans.syncContract id contractPlanId) (fun _ _ _ => True) s () := by
  unfold plans.syncContract
  split
  · trivial
  · exact safe_server_map (fun _ h => by cases h)

theorem deactivatePlan_backed (id : String) :
    Safe (lawfulServer d) (plans.deactivate id) (fun _ _ _ => True) s () :=
  safe_server_map (fun _ h => by cases h)

/-- **An endpoint that is stored** is accepted by the schema. -/
theorem createEndpoint_backed (body : EndpointCreate) :
    Safe (lawfulServer d) (webhooks.createEndpoint d.toDeployment body)
      (fun _ _ _ => True) s () := by
  unfold webhooks.createEndpoint webhooks.createEndpointSchema
  split
  · trivial
  next data hdata =>
    split at hdata
    next hchecks =>
      cases hdata
      rw [Bool.and_eq_true, Bool.and_eq_true, decide_eq_true_eq, decide_eq_true_eq] at hchecks
      obtain ⟨⟨hurl, hsecret⟩, hevents⟩ := hchecks
      exact safe_server_map (fun _ _ => ⟨hurl, hsecret, List.ne_nil_of_length_pos hevents⟩)
    next => cases hdata

theorem deactivateEndpoint_backed (id : String) :
    Safe (lawfulServer d) (webhooks.deactivateEndpoint id) (fun _ _ _ => True) s () :=
  safe_server_map (fun _ => trivial)

theorem testEvent_backed (type : WebhookEventType) (payload : Option (List (String × JsValue))) :
    Safe (lawfulServer d) (webhooks.test type payload) (fun _ _ _ => True) s () := by
  unfold webhooks.test
  rw [safe_bind]
  refine (safe_onServer (emitWebhookEvent_backed (fun _ _ _ => .test type _))).mono ?_
  intro r _ _ _
  cases r <;> trivial

theorem wallets_verify_backed (body : VerifyWallet) :
    Safe (lawfulServer d) (wallets.verify d.toDeployment body) (fun _ _ _ => True) s () := by
  unfold wallets.verify
  split
  · trivial
  split
  next hsigned => exact safe_server_map (fun _ => ⟨_, _, hsigned⟩)
  next => trivial

/-! ## §2. The `preHandler`, and the indexer behind it. -/

/-- The address is recorded. -/
theorem verifyWallet_records {s : Server} {id address : String} {wallet : Wallet}
    (h : (s.verifyWallet id address).1 = .ok wallet) :
    address ∈ (s.verifyWallet id address).2.verified := by
  have hlast : address ∈ s.verified ++ [address] :=
    List.mem_append_right _ (List.mem_singleton_self address)
  unfold Server.verifyWallet at h ⊢
  split
  next => exact hlast
  next hnone =>
    rw [hnone] at h
    dsimp only at h
    split
    next hclash =>
      rw [hclash] at h
      cases h
    next => exact hlast

/-- **In production, a request that passes the `preHandler` comes after a wallet
was verified.** -/
theorem requireWalletAuth_backed (headers : AuthHeaders) :
    Safe (lawfulServer d) (requireWalletAuth d.toDeployment headers)
      (fun r s₁ _ => ∀ admission, r = .ok admission → (∃ reply, admission = .sent reply)
        ∨ (d.production = true → s₁.verified ≠ [])) s () := by
  unfold requireWalletAuth
  split
  · split
    · -- 401 without headers in production
      rintro _ ⟨⟩
      exact .inl ⟨_, rfl⟩
    -- outside production the request goes on unsigned
    next hprod =>
      rintro _ ⟨⟩
      exact .inr (fun hp => absurd hp hprod)
  · split
    next address message signature _ _ _ =>
      split
      next hsigned =>
        show Safe _ (awaitServer _ >>= _) _ _ _
        rw [safe_bind]
        refine safe_server (fun s₁ env _ _ => ⟨⟨message, signature, hsigned⟩, fun _ => ?_⟩)
        cases hanswer : (serverApi.serve (.walletUpsertVerified address) env s₁).1 with
        | error err => exact nofun
        | ok wallet =>
            rw [andThen_ok]
            rintro _ ⟨⟩
            -- signed: the wallet is marked verified before the handler runs
            refine .inr (fun _ => ?_)
            rcases server_cases (.walletUpsertVerified address) env s₁ with ⟨err, hs⟩ | hs
            · rw [hs] at hanswer
              cases hanswer
            · rw [hs] at hanswer ⊢
              exact List.ne_nil_of_mem (verifyWallet_records hanswer)
      next =>
        rintro _ ⟨⟩
        exact .inl ⟨_, rfl⟩
    next =>
      rintro _ ⟨⟩
      exact .inl ⟨_, rfl⟩

/-- The indexer runs on the server. -/
def indexerImplemented : Implements indexerOnServer Indexer.api serverApi where
  world s := s.index
  env e := { e.index with rejects := e.rejects.or e.index.rejects }
  response c e s := by
    unfold serverApi Indexer.api indexerOnServer
    dsimp only
    cases e.rejects with
    | some message => rfl
    | none => rfl
  after c e s := by
    unfold serverApi Indexer.api indexerOnServer
    dsimp only
    cases e.rejects with
    | some message => rfl
    | none => rfl

/-- An upsert under a hash that was normalised. -/
def Indexer.Call.isNormalised (js : Indexer.Builtins) : Indexer.Call → Prop
  | .chainEventUpsert args => args.create.txHash = args.txHash
      ∧ ∃ hash, args.txHash = Indexer.normalizeTxHash js hash
  | _ => True

theorem ingestChainEvent_calls (js : Indexer.Builtins) (input : Indexer.IngestEventInput) :
    Calls Indexer.api (Indexer.Call.isNormalised js) (Indexer.ingestChainEvent js input) :=
  calls_perform ⟨rfl, _, rfl⟩

theorem ingestAll_calls (cfg : Config) (js : Indexer.Builtins)
    {events : List Indexer.SorobanEvent} : ∀ n, Calls Indexer.api (Indexer.Call.isNormalised js)
      (Indexer.pollSorobanEvents.ingestAll cfg js events n) := by
  induction events with
  | nil => exact fun _ => trivial
  | cons ev events ih =>
      intro n
      unfold Indexer.pollSorobanEvents.ingestAll
      split
      · exact ih n
      · exact calls_bind (fun _ => ih (n + 1)) (ingestChainEvent_calls js _)

/-- **A poll stores events under normalised hashes.** -/
theorem pollSorobanEvents_calls (cfg : Config) (js : Indexer.Builtins) (startLedger : Option Int) :
    Calls Indexer.api (Indexer.Call.isNormalised js)
      (Indexer.pollSorobanEvents cfg js startLedger) := by
  unfold Indexer.pollSorobanEvents Indexer.pollSorobanEvents.fromLedger
  split
  · trivial
  split
  · trivial
  refine calls_bind (fun fromLedger => ?_) ?_
  · cases fromLedger with
    | none => trivial
    | some fromLedger =>
        refine calls_bind (fun response => ?_)
          (calls_tryCatch (fun _ => calls_pure) (calls_map (calls_perform trivial)))
        cases response with
        | none => trivial
        | some events => exact calls_bind (fun _ => calls_pure) (ingestAll_calls cfg js 0)
  · split
    · trivial
    · exact calls_tryCatch (fun _ => calls_pure)
        (calls_bind (fun _ => calls_pure) (calls_perform trivial))

/-- What the indexer does behind the `preHandler`. -/
theorem safe_indexer {p : Indexer.Service α}
    (hp : Calls Indexer.api (Indexer.Call.isNormalised d.indexer) p)
    (h : d.production = true → s.verified ≠ []) :
    Safe (lawfulServer d) (p.translate indexerOnServer) (fun _ _ _ => True) s () := by
  have hcalls := calls_translate (G := fun c => ∃ c', c = ServerCall.index c'
    ∧ c'.isNormalised d.indexer) indexerImplemented (fun c hc => ⟨c, rfl, hc⟩) hp
  refine (Growth.safe_calls (G := ledger d) (K := fun s => d.production = true → s.verified ≠ [])
    (fun _ => rfl) (fun a b hgrows hK hprod => ?_) ?_ h hcalls).mono (fun _ _ _ _ => trivial)
  · obtain ⟨x, hx⟩ := List.exists_mem_of_ne_nil _ (hK hprod)
    exact List.ne_nil_of_mem (hgrows.verified x hx)
  · rintro ⟨s₁, _, env⟩ ⟨c, rfl, hnormal⟩ hK _ _
    cases c with
    | chainEventUpsert args => exact ⟨hK, hnormal.1, hnormal.2⟩
    | _ => trivial

theorem ingest_backed {body : IngestBody} (h : d.production = true → s.verified ≠ []) :
    Safe (lawfulServer d) (indexer.ingest d.toDeployment body) (fun _ _ _ => True) s () := by
  unfold indexer.ingest
  split
  · trivial
  next input _ =>
    split
    · trivial
    · exact (safe_indexer (ingestChainEvent_calls d.indexer input) h).map

theorem poll_backed {startLedger : Option JsNumber} (h : d.production = true → s.verified ≠ []) :
    Safe (lawfulServer d) (indexer.poll d.toDeployment startLedger) (fun _ _ _ => True) s () := by
  unfold indexer.poll
  split
  · trivial
  · exact (safe_indexer (pollSorobanEvents_calls d.cfg d.indexer _) h).map

theorem withWalletAuth_backed {headers : AuthHeaders} {handler : Handler RouteReply}
    (h : ∀ s₁ : Server, (d.production = true → s₁.verified ≠ []) →
      Safe (lawfulServer d) handler (fun _ _ _ => True) s₁ ()) :
    Safe (lawfulServer d) (withWalletAuth d.toDeployment headers handler)
      (fun _ _ _ => True) s () := by
  unfold withWalletAuth
  rw [safe_bind]
  apply (requireWalletAuth_backed headers).mono
  intro r s₁ _ hr
  cases r with
  | error err => trivial
  | ok admission =>
      rw [andThen_ok]
      rcases hr admission rfl with ⟨reply, rfl⟩ | hverified
      · trivial
      · cases admission with
        | sent reply => trivial
        | anonymous => exact h s₁ hverified
        | wallet address => exact h s₁ hverified

end Handlers

/-! ## §3. The running server. -/

section Running

variable {d : Epoch}

theorem answering_backed {s : Server} {handler : Handler RouteReply}
    (h : Safe (lawfulServer d) handler (fun _ _ _ => True) s ()) :
    Safe (lawfulServer d) (answering handler) (fun _ _ _ => True) s () :=
  Safe.map h

/-- **Every operation that is enabled makes lawful calls.** -/
theorem body_backed {s : Server} (hvalid : s.Valid d) {op : ServerOperation}
    (henabled : op.Enabled s) :
    Safe (lawfulServer d) (op.body d.toDeployment) (fun _ _ _ => True) s () := by
  cases op with
  | billing op => exact safe_onServer (operation_backed op).map
  | deliver job =>
      obtain ⟨phase, hjob⟩ := henabled
      exact safe_workOnServer (worker_backed (hvalid.deliveryJobs _ hjob))
  | createPlan body => exact answering_backed (plans_create_backed body)
  | createMerchantPlan address body =>
      exact answering_backed (merchants_create_backed address body)
  | syncContract id contractPlanId =>
      exact answering_backed (syncContract_backed id contractPlanId)
  | deactivatePlan id => exact answering_backed (deactivatePlan_backed id)
  | createEndpoint body => exact answering_backed (createEndpoint_backed body)
  | deactivateEndpoint id => exact answering_backed (deactivateEndpoint_backed id)
  | testEvent type payload => exact answering_backed (testEvent_backed type payload)
  | verifyWallet body => exact answering_backed (wallets_verify_backed body)
  | ingest headers body =>
      exact answering_backed (withWalletAuth_backed (fun _ h => ingest_backed h))
  | poll headers startLedger =>
      exact answering_backed (withWalletAuth_backed (fun _ h => poll_backed h))

/-- **The running server is governed by its ledger.** -/
theorem governs (d : Epoch) :
    (ledger d).Governs (S := runningServer d.toDeployment) (fun _ _ _ => True) where
  start _ _ hvalid henabled := body_backed hvalid henabled
  admits _ _ _ _ := trivial
  drift s s' hdrift hvalid :=
    have hstep : s.Step d s' := drift_step hdrift
    ⟨hvalid.step hstep, hstep.grows⟩

/-- The states the server reaches from an empty database, whatever requests
come, whatever the outside answers, and wherever executions stop. -/
def ReachedBy (d : Deployment) (P : Pool ServerApi Server Unit) : Prop :=
  Pool.Moves (runningServer d) anyone (fun _ => True) ⟨Server.fresh, []⟩ P

theorem ReachedBy.sound {d : Deployment} {P : Pool ServerApi Server Unit} (h : ReachedBy d P) :
    Growth.Sound (S := runningServer d) (ledger { d with }) P :=
  (Growth.moves (governs { d with }) h (Growth.sound_idle (fresh_valid d))).1

theorem ReachedBy.valid {d : Deployment} {P : Pool ServerApi Server Unit} (h : ReachedBy d P) :
    P.world.Valid { d with } :=
  h.sound.1

end Running

end Sorobill
