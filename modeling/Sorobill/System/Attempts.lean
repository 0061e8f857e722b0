/-
  Sorobill.System.Attempts
  ────────────────────────
  **WHAT IS RECORDED OF AN ATTEMPT TO DELIVER**, in every state the server
  reaches.

    • `Exchange`, `trackExchange` — what an execution has posted, and what it was
      answered;
    • `Reported`, `deliverWebhook_reported` — the worker records the answer;
    • `records_are_answers` — **whatever is about to be recorded of a delivery is
      what its own endpoint has answered**;
    • `deliveries_report_answers` — **a delivery is DELIVERED after a success
      only**, PENDING until something was recorded, and nothing recorded is lost.
-/
import Sorobill.System.Attribution
import Sorobill.System.Deliveries

namespace Sorobill

open Effect
open Relational
open JavaScript (JsValue)
open JobQueue (Job)
open Shop

/-! ## §1. Exchanges. -/

/-- A request to an endpoint, and its answer. -/
structure Exchange where
  url : String
  answer : Except AxiosError HttpResponse

/-- The last exchange of an execution. -/
def trackExchange (v : Option Exchange) : ServerEvent → Option Exchange
  | ⟨s, .delivery (.post url body headers), env⟩ =>
      match (serverApi.serve (.delivery (.post url body headers)) env s).1 with
      | .ok answer => some ⟨url, answer⟩
      | .error _ => v
  | _ => v

/-- The running server, each execution with its last exchange. -/
abbrev exchangingServer (d : Deployment) :
    System ServerApi Server ServerEnv ServerOperation (Option Exchange) :=
  server d (fun _ => none) trackExchange

/-- The delivery `id` goes to this url. -/
def Server.Sends (s : Server) (id url : String) : Prop :=
  ∃ x ∈ s.core.hooks.deliveries, x.id = id
    ∧ ∃ endpoint ∈ s.core.hooks.endpoints, endpoint.id = x.webhookEndpointId ∧ endpoint.url = url

/-- **What the worker may record of the delivery `id`.** -/
inductive Reported (js : Builtins) (s : Server) (id : String) :
    Option Exchange → WebhookDeliveryData → Prop where
  | delivered (url : String) (res : HttpResponse) (text : String) (now : Instant) :
      s.Sends id url → 200 ≤ res.status → res.status < 300 → js.string res.data = .ok text →
      Reported js s id (some ⟨url, .ok res⟩)
        { status := .DELIVERED
          responseStatus := some res.status
          responseBody := JavaScript.sliceTo 500 text
          deliveredAt := some now }
  | refused (url : String) (err : AxiosError) (text : String) :
      s.Sends id url → err.text js = .ok text →
      Reported js s id (some ⟨url, .error err⟩)
        { status := .FAILED
          responseStatus := err.response.map (·.status)
          responseBody := JavaScript.sliceTo 500 text }
  /-- A success has come, with a body that `String` does not convert. -/
  | unconverted (url : String) (res : HttpResponse) (err : Thrown) :
      s.Sends id url → 200 ≤ res.status → res.status < 300 → js.string res.data = .error err →
      Reported js s id (some ⟨url, .ok res⟩)
        { status := .FAILED
          responseStatus := none
          responseBody := JavaScript.sliceTo 500 err.message }
  /-- No answer has come, or a call of the worker after a success was rejected. -/
  | broken (v : Option Exchange) (message : String) :
      (∀ url answer, v = some ⟨url, answer⟩ →
        ∃ res text, answer = .ok res ∧ js.string res.data = .ok text) →
      Reported js s id v
        { status := .FAILED
          responseStatus := none
          responseBody := JavaScript.sliceTo 500 message }

/-- What a call may record. -/
def mayReport (js : Builtins) (v : Option Exchange) (s : Server) : ServerCall → Prop
  | .delivery (.webhookDeliveryUpdate id data) => Reported js s id v data
  | _ => True

section Worker

variable {d : Epoch} {s s' : Server} {id url : String} {v : Option Exchange}

theorem Server.Sends.grow (h : s.Sends id url) (hs : s.Grows s') : s'.Sends id url := by
  obtain ⟨x, hx, hid, endpoint, hendpoint, heid, hurl⟩ := h
  obtain ⟨x', hx', hb⟩ := hs.deliveries x hx
  obtain ⟨_, hendpoint', ⟨_, rfl⟩, -⟩ := hs.endpoints endpoint hendpoint
  exact ⟨x', hx', hb.id.trans hid, _, hendpoint', heid.trans hb.webhookEndpointId.symm, hurl⟩

/-- A delivery that was read with its endpoint is sent to it. -/
theorem sends_of_read {delivery : DeliveryWithEvent}
    (hread : (s.core.hooks.deliveries.find? (·.id == id)).bind s.core.withEvent = some delivery) :
    s.Sends id delivery.endpoint.url := by
  obtain ⟨row, hrow, hjoin⟩ := Option.bind_eq_some_iff.mp hread
  unfold World.withEvent at hjoin
  obtain ⟨event, hevent, hjoin⟩ := Option.bind_eq_some_iff.mp hjoin
  obtain ⟨endpoint, hendpoint, hjoin⟩ := Option.bind_eq_some_iff.mp hjoin
  cases hjoin
  obtain ⟨hmem, hid⟩ := Table.find?_mem hrow
  obtain ⟨hendpoint, heid⟩ := Table.find?_mem hendpoint
  exact ⟨row, hmem, beq_iff_eq.mp hid, endpoint, hendpoint, beq_iff_eq.mp heid, rfl⟩

/-- Calls of the webhook worker, kept to what may be recorded. -/
def reportingWork (d : Epoch) : Growth workerApi (Option Exchange) where
  valid := Server.Valid d
  grows := Server.Grows
  admits e := (workerOnServer.call e.call).Lawful d e.before
  lawful v e := mayReport d.webhook v e.before (workerOnServer.call e.call)
  refl := Server.Grows.refl
  trans := Server.Grows.trans
  step _ e hvalid hlawful _ := (workers d).step () e hvalid trivial hlawful

/-- What the worker remembers is what the server does. -/
def trackWork (v : Option Exchange) (e : Event WebhookApi Server ServerEnv) : Option Exchange :=
  trackExchange v ⟨e.before, workerOnServer.call e.call, e.env⟩

abbrev workReports (d : Epoch) : Contract workerApi (Option Exchange) :=
  (reportingWork d).contract trackWork

/-- One awaited call of the worker. -/
theorem report_call {c : WebhookApi.Call}
    {Q : Post WebhookApi Server (Option Exchange) (WebhookApi.Reply c)}
    (hc : ∀ s₁ : Server, s.Grows s₁ → mayReport d.webhook v s₁ (workerOnServer.call c))
    (h : ∀ (s₁ : Server) env, s.Grows (workerApi.serve c env s₁).2 →
      Q (workerApi.serve c env s₁).1 (workerApi.serve c env s₁).2 (trackWork v ⟨s₁, c, env⟩)) :
    Safe (workReports d) (Prog.perform c) Q s v :=
  Growth.safe_call (G := reportingWork d) (fun s₁ env hgrows _ _ =>
    ⟨hc s₁ hgrows, fun _ hgrows' => h s₁ env hgrows'⟩)

/-- What an answer does to what is remembered. -/
theorem trackWork_post (url body : String) (headers : List (String × String)) (env : ServerEnv)
    (s : Server) (v : Option Exchange) :
    trackWork v ⟨s, .inr (.post url body headers), env⟩
      = match (workerApi.serve (.inr (.post url body headers)) env s).1 with
        | .ok answer => some ⟨url, answer⟩
        | .error _ => v := by
  show (match (serverApi.serve (.delivery (.post url body headers)) env s).1 with
    | .ok answer => some (⟨url, answer⟩ : Exchange)
    | .error _ => v) = _
  rw [serve_delivery]
  rfl

/-- A success has a status from 200 to 299. -/
theorem post_ok {url body : String} {headers : List (String × String)} {env : ServerEnv}
    {s : Server} {res : HttpResponse}
    (h : (workerApi.serve (.inr (.post url body headers)) env s).1 = .ok (.ok res)) :
    200 ≤ res.status ∧ res.status < 300 := by
  have hanswer : (webhookApi.serve (.inr (.post url body headers)) env.toWebhookEnv s.core).1
      = .ok (.ok res) := h
  rcases serve_delivery_cases (.post url body headers) env.toWebhookEnv s.core with ⟨_, hs⟩ | hs
  · rw [hs] at hanswer
    cases hanswer
  rw [hs] at hanswer
  have hsettle : settle env.response env.message = .ok res := Except.ok.inj hanswer
  unfold settle at hsettle
  split at hsettle
  · split at hsettle
    next hstatus =>
      cases hsettle
      exact hstatus
    next => cases hsettle
  · cases hsettle

/-- **An attempt** that fails is remembered with its answer, or its error may be
recorded. -/
theorem attempt_reported {delivery : DeliveryWithEvent} {body signature : String}
    (hsends : s.Sends id delivery.endpoint.url) :
    Safe (workReports d) (deliverWebhook.attempt d.webhook id delivery body signature)
      (fun r s₁ v => match r with
        | .ok none => True
        | .ok (some err) => v = some ⟨delivery.endpoint.url, .error err⟩
        | .error err => ∀ s₂ : Server, s₁.Grows s₂ → Reported d.webhook s₂ id v
            { status := .FAILED
              responseStatus := none
              responseBody := JavaScript.sliceTo 500 err.message }) s none := by
  unfold deliverWebhook.attempt
  rw [safe_bind]
  refine report_call (fun _ _ => trivial) (fun s₁ env hgrows₁ => ?_)
  rw [trackWork_post]
  cases hanswer : (workerApi.serve (.inr (.post delivery.endpoint.url body
    [("Content-Type", "application/json"), ("X-Sorobill-Signature", signature),
     ("X-Sorobill-Event", delivery.event.type.name)])) env s₁).1 with
  -- the post was not made
  | error err => exact fun _ _ => .broken none err.message (fun _ _ h => by cases h)
  | ok answer =>
    rw [andThen_ok]
    cases answer with
    -- no answer from 200 to 299: the catch block records it
    | error err => rfl
    | ok res =>
      obtain ⟨hmin, hmax⟩ := post_ok hanswer
      have hsends₁ := hsends.grow hgrows₁
      show Safe _ (Prog.evaluate (I := WebhookApi) (d.webhook.string res.data) >>= _) _ _ _
      rw [safe_bind, safe_evaluate]
      cases htext : d.webhook.string res.data with
      | error err =>
        -- `String(res.data)` throws after a good answer
        exact fun s₂ hgrows₂ => .unconverted _ res err (hsends₁.grow hgrows₂) hmin hmax htext
      | ok text =>
        -- from here on a rejection leaves a good answer that is not recorded
        have hbroken : ∀ (s₂ : Server) (message : String),
            Reported d.webhook s₂ id (some ⟨delivery.endpoint.url, .ok res⟩)
              ⟨.FAILED, none, JavaScript.sliceTo 500 message, none⟩ :=
          fun s₂ message => .broken _ message (fun url answer h => by
            cases h
            exact ⟨res, text, rfl, htext⟩)
        show Safe _ ((Prog.perform (I := Api) .dateNow).embed >>= _) _ _ _
        rw [Prog.embed_perform, safe_bind]
        refine report_call (fun _ _ => trivial) (fun s₂ env₂ hgrows₂ => ?_)
        cases (workerApi.serve (.inl .dateNow) env₂ s₂).1 with
        | error err => exact fun _ _ => hbroken _ err.message
        | ok now =>
          rw [andThen_ok, safe_bind]
          refine report_call (fun s₃ hgrows₃ => ?_) (fun s₃ env₃ _ => ?_)
          · exact .delivered _ res text now ((hsends₁.grow hgrows₂).grow hgrows₃) hmin hmax htext
          · cases (workerApi.serve (.inr (.webhookDeliveryUpdate id _)) env₃ s₃).1 with
            | error err => exact fun _ _ => hbroken _ err.message
            | ok _ => trivial

/-- **A failure is recorded**, and thrown; or its text cannot be had. -/
theorem recordFailure_reported {err : AxiosError}
    (h : ∀ (s₁ : Server) text, s.Grows s₁ → err.text d.webhook = .ok text →
      Reported d.webhook s₁ id v
        { status := .FAILED
          responseStatus := err.response.map (·.status)
          responseBody := JavaScript.sliceTo 500 text }) :
    Safe (workReports d) (deliverWebhook.recordFailure d.webhook id err)
      (fun _ _ _ => True) s v := by
  unfold deliverWebhook.recordFailure
  rw [safe_bind, safe_evaluate]
  cases htext : err.text d.webhook with
  | error thrown => trivial
  | ok text =>
    rw [andThen_ok, safe_bind]
    refine report_call (fun s₁ hgrows => h s₁ text hgrows htext) (fun s₁ env _ => ?_)
    cases (workerApi.serve (.inr (.webhookDeliveryUpdate id _)) env s₁).1 <;> trivial

/-- **A delivery records what it was answered.** -/
theorem deliverWebhook_reported (id : String) :
    Safe (workReports d) (deliverWebhook d.webhook id) (fun _ _ _ => True) s none := by
  unfold deliverWebhook
  rw [safe_bind]
  refine report_call (fun _ _ => trivial) (fun s₁ env _ => ?_)
  have hsame : (workerApi.serve (.inr (.webhookDeliveryFindUniqueOrThrow id)) env s₁).2 = s₁ :=
    congrArg s₁.withCore (serve_webhookDeliveryFindUniqueOrThrow id env.toWebhookEnv s₁.core)
  rw [hsame]
  cases hanswer : (workerApi.serve (.inr (.webhookDeliveryFindUniqueOrThrow id)) env s₁).1 with
  | error err => trivial
  | ok delivery =>
    have hsends := sends_of_read (delivery_of_read hanswer)
    rw [andThen_ok]
    dsimp only
    rw [safe_bind, safe_tryCatch]
    apply (Growth.safe_grows (G := reportingWork d) (attempt_reported hsends)).mono
    rintro r s₂ v ⟨hr, hgrows₂⟩
    cases r with
    | error err =>
        refine recordFailure_reported (fun s₃ text hgrows₃ htext => ?_)
        rw [AxiosError.text_message] at htext
        cases htext
        exact hr s₃ hgrows₃
    | ok failure =>
        cases failure with
        | none => trivial
        | some err =>
            obtain rfl := hr
            exact recordFailure_reported (fun s₃ text hgrows₃ htext =>
              .refused _ err text ((hsends.grow hgrows₂).grow hgrows₃) htext)

/-- **An attempt of the webhook worker.** -/
theorem worker_reported (job : Job String) :
    Safe (workReports d) (webhookWorker.run d.webhook job) (fun _ _ _ => True) s none := by
  unfold webhookWorker.run webhookWorker
  rw [safe_tryCatch, safe_bind]
  apply (deliverWebhook_reported job.data).mono
  intro r s₁ v _
  have hfailed : Safe (workReports d) (webhookQueue.moveToFailed job) (fun _ _ _ => True) s₁ v :=
    report_call (fun _ _ => trivial) (fun _ _ _ => trivial)
  cases r with
  | error err => exact hfailed
  | ok _ =>
      refine report_call (fun _ _ => trivial) (fun s₂ env _ => ?_)
      cases (workerApi.serve (.inr (.moveToCompleted job)) env s₂).1 with
      | error err => exact report_call (fun _ _ => trivial) (fun _ _ _ => trivial)
      | ok _ => trivial

end Worker

/-! ## §2. The whole server. -/

section Running

variable {d : Epoch} {s s' : Server}

/-- Only the worker records what it was answered. -/
theorem ServerOperation.May.reports {js : Builtins} {op : ServerOperation} {c : ServerCall}
    (hbills : ∀ b, op ≠ .billing b) (hdelivers : ∀ job, op ≠ .deliver job)
    (h : op.May d.toDeployment s c) (v : Option Exchange) (s' : Server) : mayReport js v s' c := by
  cases c with
  | delivery c =>
      cases op with
      | billing b => exact absurd rfl (hbills b)
      | deliver job => exact absurd rfl (hdelivers job)
      | _ => exact False.elim h
  | _ => trivial

/-- **Every operation records what it was answered.** -/
theorem body_reports (op : ServerOperation) :
    Safe ((serverUnder (mayReport d.webhook) d).contract trackExchange) (op.body d.toDeployment)
      (fun _ _ _ => True) s none := by
  have hcalls : ∀ {p : Handler Unit},
      Calls serverApi (fun c => ∀ v s, mayReport d.webhook v s c) p →
      Safe ((serverUnder (mayReport d.webhook) d).contract trackExchange) p
        (fun _ _ _ => True) s none :=
    fun hp => always_of_calls (fun v e h => h v e.before) hp s none
  cases op with
  | billing op =>
      exact hcalls (calls_translate servicesImplemented (fun _ _ _ _ => trivial) calls_any)
  | deliver job =>
      exact Growth.safe_translate (G := reportingWork d) (Q := fun _ _ => True) workerImplemented
        (fun _ _ h => h) (fun _ h => h) (fun _ _ _ h => h) (fun _ _ _ _ h => h)
        (fun _ _ _ _ => rfl) (worker_reported job)
  | _ =>
      refine hcalls ((other_within (by exact nofun)).mono (fun c h v s' => ?_))
      exact (h Server.fresh).reports (by exact nofun) (by exact nofun) v s'

end Running

namespace Shop

/-- The endpoint answers 200, and the clock is read. -/
def answersPost : List (Choice ServerOperation ServerEnv) :=
  [.act 0 { now := day 2, response := some ⟨200, .null⟩ }] ++ answersAll 2 1

end Shop

/-- **What a delivery says of itself**: it is PENDING until an attempt was
recorded, and DELIVERED after a success. -/
structure WebhookDelivery.Reports (x : WebhookDelivery) : Prop where
  pending : x.status = .PENDING ↔ x.attemptCount = 0
  untried : x.attemptCount = 0 →
    x.responseStatus = none ∧ x.responseBody = none ∧ x.deliveredAt = none
  delivered : x.status = .DELIVERED → x.deliveredAt ≠ none
    ∧ ∃ status, x.responseStatus = some status ∧ 200 ≤ status ∧ status < 300
  body : 0 < x.attemptCount → ∃ body, x.responseBody = some body ∧ utf16Length body ≤ 500

/-- **A delivery is attempted**: nothing changes without being counted, and what
was delivered once stays delivered. -/
structure WebhookDelivery.Attempted (x x' : WebhookDelivery) : Prop where
  row : x.Becomes x'
  counted : x.attemptCount ≤ x'.attemptCount
  same : x'.attemptCount = x.attemptCount → x' = x
  delivered : x.deliveredAt ≠ none → x'.deliveredAt ≠ none

section Rows

variable {js : Builtins} {s s' s'' : Server} {x y z : WebhookDelivery}

theorem utf16Length_takeUnits (cs : List Char) (n : Nat) :
    ((JavaScript.takeUnits n cs).map (fun c => if c.val < 0x10000 then 1 else 2)).sum ≤ n := by
  induction cs generalizing n with
  | nil => exact Nat.zero_le n
  | cons c cs ih =>
      unfold JavaScript.takeUnits
      dsimp only
      generalize hk : (if c.val < 0x10000 then 1 else 2) = k
      split
      next hle =>
        have hrest := ih (n - k)
        rw [List.map_cons, List.sum_cons, hk]
        omega
      next => exact Nat.zero_le n

/-- `slice(0, n)` leaves at most `n` code units. -/
theorem utf16Length_sliceTo (n : Nat) (text : String) :
    utf16Length (JavaScript.sliceTo n text) ≤ n := by
  unfold utf16Length JavaScript.sliceTo
  rw [String.toList_ofList]
  exact utf16Length_takeUnits _ _

theorem WebhookDelivery.Attempted.refl (x : WebhookDelivery) : x.Attempted x :=
  ⟨.refl x, Nat.le_refl _, fun _ => rfl, fun h => h⟩

theorem WebhookDelivery.Attempted.trans (h : x.Attempted y) (h' : y.Attempted z) :
    x.Attempted z where
  row := h.row.trans _ _ _ h'.row
  counted := h.counted.trans h'.counted
  same hcount := by
    have hxy := h.counted
    have hyz := h'.counted
    rw [h'.same (by omega), h.same (by omega)]
  delivered hx := h'.delivered (h.delivered hx)

/-- What is recorded is the last word on the delivery. -/
theorem Reported.reports {id : String} {v : Option Exchange} {data : WebhookDeliveryData}
    (h : Reported js s id v data) (x : WebhookDelivery) : (data.apply x).Reports := by
  have hcount : (data.apply x).attemptCount ≠ 0 := Nat.succ_ne_zero _
  have hbody : ∃ text, data.responseBody = JavaScript.sliceTo 500 text := by
    cases h <;> exact ⟨_, rfl⟩
  obtain ⟨text, htext⟩ := hbody
  refine ⟨⟨fun hp => ?_, fun h0 => absurd h0 hcount⟩, fun h0 => absurd h0 hcount, fun hd => ?_,
    fun _ => ⟨_, rfl, htext ▸ utf16Length_sliceTo 500 text⟩⟩
  · cases h <;> cases hp
  · cases h with
    | delivered url res text now _ hmin hmax => exact ⟨nofun, _, rfl, hmin, hmax⟩
    | _ => cases hd

theorem attempted_apply (data : WebhookDeliveryData) (x : WebhookDelivery) :
    x.Attempted (data.apply x) where
  row := ⟨rfl, rfl, rfl⟩
  counted := Nat.le_succ _
  same h := absurd h (Nat.succ_ne_self _)
  delivered hx := by
    show data.deliveredAt.or x.deliveredAt ≠ none
    cases data.deliveredAt with
    | none => exact hx
    | some now => exact nofun

/-- Deliveries are made, and attempted. -/
structure Server.Logs (s s' : Server) : Prop where
  reports : (∀ x ∈ s.core.hooks.deliveries, x.Reports) → ∀ x ∈ s'.core.hooks.deliveries, x.Reports
  rows : ∀ x ∈ s.core.hooks.deliveries, ∃ x' ∈ s'.core.hooks.deliveries, x.Attempted x'

theorem Server.SameMail.logs (h : s.SameMail s') : s.Logs s' :=
  ⟨fun hs x hx => hs x (h.2 ▸ hx), fun x hx => ⟨x, h.2 ▸ hx, .refl x⟩⟩

theorem Server.Logs.trans (h : s.Logs s') (h' : s'.Logs s'') : s.Logs s'' := by
  refine ⟨fun hs => h'.reports (h.reports hs), fun x hx => ?_⟩
  obtain ⟨x', hx', hstep⟩ := h.rows x hx
  obtain ⟨x'', hx'', hstep'⟩ := h'.rows x' hx'
  exact ⟨x'', hx'', hstep.trans hstep'⟩

/-- A delivery that is new is PENDING. -/
theorem created_logs (eventId : String) (endpointIds : List String) (env : Env) (s : Server) :
    s.Logs (s.withCore
      (api.serve (.webhookDeliveryCreateAll eventId endpointIds) env s.core).2) := by
  rcases serve_deliveries eventId endpointIds env s.core with
    ⟨err, hs⟩ | ⟨rows, t, -, hrows, ht, hs⟩
  · rw [hs]
    exact (Server.SameMail.refl s).logs
  rw [hs]
  refine ⟨fun hvalid x hx => ?_, fun x hx => ⟨x, (mem_insertAll ht).mpr (.inl hx), .refl x⟩⟩
  rcases (mem_insertAll ht).mp hx with hx | hx
  · exact hvalid x hx
  · obtain ⟨id, endpointId, rfl⟩ := hrows x hx
    exact ⟨⟨fun _ => rfl, fun _ => rfl⟩, fun _ => ⟨rfl, rfl, rfl⟩, nofun,
      fun h => absurd h (Nat.lt_irrefl 0)⟩

/-- **Every call that records what was answered** leaves rows that tell it. -/
theorem call_logs {v : Option Exchange} {e : ServerEvent}
    (h : mayReport js v e.before e.call) : e.before.Logs (e.after serverApi) := by
  obtain ⟨s, c, env⟩ := e
  show s.Logs (serverApi.serve c env s).2
  by_cases hupdate : ∃ id data, c = .delivery (.webhookDeliveryUpdate id data)
  · obtain ⟨id, data, rfl⟩ := hupdate
    obtain ⟨-, hback, hforth⟩ := mail_updated id data env s
    refine ⟨fun hs x' hx' => ?_, fun x hx => ?_⟩
    · obtain ⟨x, hx, rfl | rfl⟩ := hback x' hx'
      · exact hs x' hx
      · exact Reported.reports h x
    · rcases hforth x hx with hx' | hx'
      · exact ⟨x, hx', .refl x⟩
      · exact ⟨_, hx', attempted_apply data x⟩
  by_cases hmute : c.isMute
  · exact (mail_same hmute (fun id data h => hupdate ⟨id, data, h⟩) env s).logs
  cases c with
  | core c =>
      rw [show (serverApi.serve (.core c) env s).2 = s.withCore (api.serve c env.toEnv s.core).2
        from congrArg Prod.snd (serve_core c env s)]
      cases c with
      | webhookEventCreate type paymentId payload =>
          rcases serve_webhookEventCreate type paymentId payload env.toEnv s.core
            with ⟨err, hs⟩ | ⟨id, t, -, hs⟩
          · rw [hs]
            exact (Server.SameMail.refl s).logs
          · rw [hs]
            exact ⟨fun hs => hs, fun x hx => ⟨x, hx, .refl x⟩⟩
      | webhookDeliveryCreateAll eventId endpointIds => exact created_logs _ _ env.toEnv s
      | _ => exact absurd trivial hmute
  | _ => exact absurd trivial hmute

end Rows

/-- **Deliveries report what was answered**, in every state that the server
reaches, and nothing that was reported is lost. -/
theorem deliveries_report_answers (d : Deployment) (P P' : Pool ServerApi Server Unit)
    (h : ReachedBy d P)
    (hmoves : Pool.Moves (runningServer d) anyone (fun _ => True) P P') :
    (∀ x ∈ P.world.core.hooks.deliveries, x.Reports)
      ∧ ∀ x ∈ P.world.core.hooks.deliveries,
        ∃ x' ∈ P'.world.core.hooks.deliveries, x.Attempted x' := by
  have hgoverns : (attributed (mayReport d.webhook) { d with }).Governs
      (S := exchangingServer d) anyone :=
    governs_attributed (d := { d with }) anyone (fun op _ => body_reports op)
  have hlogs : ∀ {Q Q' : Pool ServerApi Server (Option Exchange)},
      Growth.Sound (S := exchangingServer d) (attributed (mayReport d.webhook) { d with }) Q →
      Pool.Moves (exchangingServer d) anyone (fun _ => True) Q Q' → Q.world.Logs Q'.world :=
    fun hsound hpath => Growth.relates hgoverns (fun s => (Server.SameMail.refl s).logs)
      (fun _ _ _ h h' => h.trans h') (fun _ _ _ _ _ hlawful => call_logs hlawful.2)
      (fun _ _ hdrift _ => (other_drift hdrift).2.logs) hsound hpath
  obtain ⟨ts, hpast, hts⟩ := h.viewed (fun _ => none) trackExchange
    (show codes [] = codes [] from rfl)
  obtain ⟨ts', hfuture, -⟩ := hmoves.viewed (fun _ => none) trackExchange hts
  have hidle := Growth.sound_idle (S := exchangingServer d)
    (G := attributed (mayReport d.webhook) { d with }) (fresh_valid d)
  refine ⟨(hlogs hidle hpast).reports (fun x hx => absurd hx (Table.not_mem_of_nil rfl x)),
    (hlogs (Growth.moves hgoverns hpast hidle).1 hfuture).rows⟩

/-- The delivery of the first cycle. -/
theorem deliveries_report_answers_shop :
    ∃ P P' : Pool ServerApi Server Unit, ReachedBy (deployment false) P
      ∧ ∃ x ∈ P.world.core.hooks.deliveries, x.id = "delivery" ∧ x.Reports
        ∧ ∃ x' ∈ P'.world.core.hooks.deliveries, x'.status = .DELIVERED ∧ x.Attempted x' := by
  have hrun : (played false (opensShop ++ chargesSub ++ booksPayment) ⟨Server.fresh, []⟩).bind
      (fun P => (played false (deliversEvent ++ answersPost ++ answersAll 2 2) P).map (fun P' =>
        (P.world.core.hooks.deliveries.rows.map (·.id),
          P'.world.core.hooks.deliveries.rows.map (·.status))))
      = some (["delivery"], [.DELIVERED]) := by
    decide +kernel
  obtain ⟨P, hP, hrest⟩ := Option.bind_eq_some_iff.mp hrun
  obtain ⟨P', hP', hrows⟩ := Option.map_eq_some_iff.mp hrest
  obtain ⟨hids, hstatuses⟩ := Prod.mk.inj hrows
  have hreached : ReachedBy (deployment false) P := moves_of_played hP
  obtain ⟨x, hx, hid⟩ := List.mem_map.mp (hids ▸ List.mem_singleton_self "delivery")
  obtain ⟨hreports, hfuture⟩ :=
    deliveries_report_answers (deployment false) P P' hreached (moves_of_played hP')
  obtain ⟨x', hx', hstep⟩ := hfuture x hx
  have hstatus : x'.status = .DELIVERED := List.mem_singleton.mp
    (hstatuses ▸ List.mem_map_of_mem (f := (·.status)) hx')
  exact ⟨P, P', hreached, x, hx, hid, hreports x hx, x', hx', hstatus, hstep⟩

end Sorobill
