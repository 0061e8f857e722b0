/-
  Sorobill.Rules.Charges
  ──────────────────────
  **WHAT ONE UNINTERRUPTED CHARGE DOES.**

    • `Log` — what the polling loops of an execution returned, whether it has
      made an emission, and whether a call of it was rejected;
    • `sequential` — the contract of uninterrupted executions;
    • `chargePayment_ends` — a charge of an open payment row submits at most
      one transaction, leaves the row at SUCCESS when it returns and not at
      SUCCESS when it throws, and returns on no result that is read as Failed;
    • `emitWebhookEvent_ends` — an emission throws only when one of its calls
      was rejected.
-/
import Sorobill.Rules.Footprints

namespace Sorobill

open Effect
open Relational
open JavaScript (JsValue)

/-! ## §1. The log of an execution. -/

instance : DecidablePred Call.isWebhook
  | .webhookEndpointFindMany _ | .webhookEventCreate _ _ _ | .webhookDeliveryCreateAll _ _
  | .webhookQueueAdd _ => .isTrue trivial
  | .dateNow | .planFindUnique _ | .walletUpsert _ | .subscriptionFindUnique _
  | .subscriptionFindUniqueWithPlan _ | .subscriptionFindMany _ | .subscriptionCreate _
  | .subscriptionUpdate _ _ | .paymentFindUnique _ | .paymentCreate _ | .paymentUpdate _ _
  | .paymentUpdateMany _ _ _ | .billingQueueAdd _ _ _ | .getAccount _
  | .simulateTransaction _ | .sendTransaction _ _ | .awaitTransaction _ | .loadAccount _
  | .submitTransaction _ _ _ _ _ => .isFalse id

instance : DecidablePred Call.isNetwork := fun c => by
  cases c <;> first | exact .isTrue trivial | exact .isFalse id

/-- The calls outside emissions and network. -/
def Call.isStore (c : Call) : Prop := ¬ c.isWebhook ∧ ¬ c.isNetwork

/-- A call that is not rejected is answered, and what follows goes on with the
answer. -/
theorem answered_runs {α : Type} {c : Call} {f : c.Reply → Service α} {w w' : World}
    {t : List CallEvent} {r : Except Thrown α} (h : Runs api (Prog.perform c >>= f) w t r w') :
    ∃ env t', t = ⟨w, c, env⟩ :: t' ∧ (isRejected ⟨w, c, env⟩ = false →
      ∃ a, (api.serve c env w).1 = .ok a ∧ Runs api (f a) (api.serve c env w).2 t' r w') := by
  obtain ⟨env, ⟨err, herr, rfl, -, -⟩ | ⟨a, t', ha, rfl, hrest⟩⟩ := runs_perform_bind h
  · refine ⟨env, [], rfl, fun hanswered => ?_⟩
    rw [isRejected_of_error herr] at hanswered
    cases hanswered
  · exact ⟨env, t', rfl, fun _ => ⟨a, ha, hrest⟩⟩

/-- The clock is read, and what follows goes on with the time. -/
theorem dateNow_runs {α : Type} {f : Instant → Service α} {w w' : World} {t : List CallEvent}
    {r : Except Thrown α} (h : Runs api (dateNow >>= f) w t r w') :
    ∃ env t', t = ⟨w, .dateNow, env⟩ :: t' ∧ (isRejected ⟨w, .dateNow, env⟩ = false →
      Runs api (f env.now) w t' r w') := by
  obtain ⟨env, t', rfl, hgo⟩ := answered_runs h
  refine ⟨env, t', rfl, fun hanswered => ?_⟩
  obtain ⟨now, hnow, hrest⟩ := hgo hanswered
  rcases serve_dateNow env w with ⟨err, hserve⟩ | hserve
  · rw [hserve] at hnow
    cases hnow
  · rw [hserve] at hnow hrest
    obtain rfl := Except.ok.inj hnow
    exact hrest

/-- The value that a polling loop returned. -/
def resultOf (e : CallEvent) : Option JsValue :=
  match e.call with
  | .awaitTransaction hash => (api.serve (.awaitTransaction hash) e.env e.before).1.toOption
  | _ => none

structure Log where
  results : List JsValue := []
  emitted : Bool := false
  emissionRefused : Bool := false

def Log.add (v : Log) (e : CallEvent) : Log where
  results := v.results ++ (resultOf e).toList
  emitted := v.emitted || decide e.call.isWebhook
  emissionRefused := v.emissionRefused || (decide e.call.isWebhook && isRejected e)

/-- One more result. -/
def Log.push (v : Log) (a : JsValue) : Log := { v with results := v.results ++ [a] }

theorem log_of_trace (t : List CallEvent) (v : Log) :
    t.foldl Log.add v
      = { results := v.results ++ t.filterMap resultOf
          emitted := v.emitted || t.any (fun e => decide e.call.isWebhook)
          emissionRefused := v.emissionRefused
            || t.any (fun e => decide e.call.isWebhook && isRejected e) } := by
  induction t generalizing v with
  | nil => simp
  | cons e t ih =>
      rw [List.foldl_cons, ih]
      cases h : resultOf e <;>
        simp [Log.add, h, Bool.or_assoc]

theorem add_plain {v : Log} {e : CallEvent} (h : ¬ e.call.isWebhook)
    (h' : ∀ hash, e.call ≠ .awaitTransaction hash) : v.add e = v := by
  have hres : resultOf e = none := by
    unfold resultOf
    split
    next hash heq => exact absurd heq (h' hash)
    next => rfl
  simp [Log.add, hres, h]

theorem add_await {v : Log} {w : World} {hash : String} {env : Env} :
    v.add ⟨w, .awaitTransaction hash, env⟩
      = match (api.serve (.awaitTransaction hash) env w).1 with
        | .ok a => v.push a
        | .error _ => v := by
  have hweb : ¬ (Call.awaitTransaction hash).isWebhook := id
  have hres : resultOf ⟨w, .awaitTransaction hash, env⟩
      = (api.serve (.awaitTransaction hash) env w).1.toOption := rfl
  unfold Log.add
  rw [hres]
  cases (api.serve (.awaitTransaction hash) env w).1 with
  | ok a => simp [hweb, Log.push, Except.toOption]
  | error err => simp [hweb, Except.toOption]

/-! ## §2. Uninterrupted executions. -/

/-- The contract of an uninterrupted execution whose events satisfy `A`. -/
def sequential (A : CallEvent → Prop) : Contract api Log where
  rely := Eq
  assume _ := A
  guarantee _ _ := True
  track := Log.add

/-- `A` admits that a call outside emissions and network is rejected. -/
def Refusable (A : CallEvent → Prop) : Prop :=
  ∃ e, A e ∧ e.call.isStore ∧ isRejected e = true

section Rules

variable {A : CallEvent → Prop} {w : World} {v : Log} {α : Type}

theorem seq_perform {c : Call} {Q : Post Api World Log c.Reply} :
    Safe (sequential A) (Prog.perform (I := Api) c) Q w v
      ↔ ∀ env, A ⟨w, c, env⟩ →
          Q (api.serve c env w).1 (api.serve c env w).2 (v.add ⟨w, c, env⟩) := by
  rw [safe_perform]
  constructor
  · exact fun h env ha => (h w env rfl ha).2
  · intro h w' env heq ha
    obtain rfl := heq
    exact ⟨trivial, h env ha⟩

/-- **A call outside emissions**: it is rejected, with no effect, or it is
answered. -/
theorem seq_made {c : Call} (hc : ¬ c.isWebhook) (hawait : ∀ hash, c ≠ .awaitTransaction hash)
    {Q : Post Api World Log c.Reply}
    (herr : ∀ err, (c.isStore → Refusable A) → Q (.error err) w v)
    (hok : ∀ env a, A ⟨w, c, env⟩ → (api.serve c env w).1 = .ok a →
      Q (.ok a) (api.serve c env w).2 v) :
    Safe (sequential A) (Prog.perform (I := Api) c) Q w v := by
  apply seq_perform.mpr
  intro env ha
  rw [add_plain hc hawait]
  cases hr : (api.serve c env w).1 with
  | ok a => exact hok env a ha hr
  | error err =>
      rw [after_of_error hr]
      -- the event itself witnesses that `A` admits a rejection
      exact herr err (fun hstore => ⟨⟨w, c, env⟩, ha, hstore, isRejected_of_error hr⟩)

/-- Likewise, whatever was admitted. -/
theorem seq_ask {c : Call} (hc : ¬ c.isWebhook) (hawait : ∀ hash, c ≠ .awaitTransaction hash)
    {Q : Post Api World Log c.Reply}
    (herr : ∀ err, (c.isStore → Refusable A) → Q (.error err) w v)
    (hok : ∀ env a, (api.serve c env w).1 = .ok a → Q (.ok a) (api.serve c env w).2 v) :
    Safe (sequential A) (Prog.perform (I := Api) c) Q w v :=
  seq_made hc hawait herr (fun env a _ => hok env a)

/-- A call that writes nothing and is no polling loop. -/
theorem seq_read {c : Call} (hc : ¬ c.isWebhook) (hawait : ∀ hash, c ≠ .awaitTransaction hash)
    (hregion : c.region = .nothing) {Q : Post Api World Log c.Reply}
    (herr : ∀ err, (c.isStore → Refusable A) → Q (.error err) w v)
    (hok : ∀ env a, (api.serve c env w).1 = .ok a → Q (.ok a) w v) :
    Safe (sequential A) (Prog.perform (I := Api) c) Q w v := by
  apply seq_ask hc hawait herr
  intro env a ha
  rw [serve_read hregion]
  exact hok env a ha

/-- The clock is read. -/
theorem seq_dateNow {Q : Post Api World Log Instant}
    (herr : ∀ err, Refusable A → Q (.error err) w v)
    (hok : ∀ env, A ⟨w, .dateNow, env⟩ → Q (.ok env.now) w v) :
    Safe (sequential A) dateNow Q w v := by
  apply seq_perform.mpr
  intro env ha
  rw [add_plain (e := ⟨w, .dateNow, env⟩) id (by simp)]
  rcases serve_dateNow env w with ⟨err, h⟩ | h
  · rw [h]
    exact herr err ⟨_, ha, ⟨id, id⟩, isRejected_of_error (congrArg Prod.fst h)⟩
  · rw [h]
    exact hok env ha

/-- Rows are queried. -/
theorem seq_findMany {condition : SubscriptionWhere} {Q : Post Api World Log (List Subscription)}
    (herr : ∀ err, Q (.error err) w v)
    (hok : ∀ rows : List Subscription,
      rows.Perm (w.subscriptions.filter condition.selects) → Q (.ok rows) w v) :
    Safe (sequential A) (prisma.subscription.findMany condition) Q w v := by
  apply seq_perform.mpr
  intro env _
  rw [add_plain (e := ⟨w, .subscriptionFindMany condition, env⟩) id (by simp)]
  rcases serve_subscriptionFindMany condition env w with ⟨err, h⟩ | ⟨rows, h, hperm⟩
  · rw [h]
    exact herr err
  · rw [h]
    exact hok rows hperm

/-- The subscription is looked up. -/
theorem seq_findUnique {x : String} {Q : Post Api World Log (Option Subscription)}
    (herr : ∀ err, Q (.error err) w v) (hok : Q (.ok (w.sub? x)) w v) :
    Safe (sequential A) (prisma.subscription.findUnique x) Q w v := by
  apply seq_perform.mpr
  intro env _
  rw [add_plain (e := ⟨w, .subscriptionFindUnique x, env⟩) id (by simp)]
  rcases serve_subscriptionFindUnique x env w with ⟨err, h⟩ | h
  · rw [h]
    exact herr err
  · rw [h]
    exact hok

/-- A program that makes no other calls than those of `F` keeps what they keep. -/
theorem seq_frame {R : World → World → Prop} (hrefl : ∀ w, R w w)
    (htrans : ∀ a b c, R a b → R b c → R a c) {F : Call → Prop}
    (hF : ∀ e : CallEvent, F e.call → R e.before (e.after api)) {p : Service α}
    (hp : Calls api F p) : Safe (sequential A) p (fun _ w' _ => R w w') w v :=
  safe_frame (by rintro a _ rfl; exact hrefl a) hrefl htrans
    (fun _ e he _ => ⟨trivial, hF e he⟩) hp

/-- The log of a trace. -/
def logOf (t : List CallEvent) : Log := t.foldl Log.add {}

/-- **What a contract says of an uninterrupted run.** -/
theorem seq_runs {p : Service α} {Q : Post Api World Log α} {w' : World} {t : List CallEvent}
    {r : Except Thrown α} (h : Runs api p w t r w') (hA : ∀ e ∈ t, A e)
    (hs : Safe (sequential A) p Q w {}) : Q r w' (logOf t) := by
  exact (Safe.of_runs (C := sequential A) (fun _ => rfl) h hs
    (assumed_of_forall (fun e he _ => hA e he))).2

/-- What a contract says of an execution. -/
theorem seq_ends {cfg : Config} {x : Step} (hx : x.Of (serial cfg)) {op : Operation}
    (hop : x.op = op) (hA : ∀ e ∈ x.trace, A e) {Q : Post Api World Log (Option HttpReply)}
    (hs : Safe (sequential A) (op.body cfg) Q x.before {}) :
    Q x.reply x.after (logOf x.trace) := by
  subst hop
  exact seq_runs hx.runs hA hs

end Rules

/-! ## §3. Emissions. -/

section Emissions

variable {A : CallEvent → Prop} {w : World} {v : Log}

/-- What an emission ends with: nothing but webhook state has changed, and
when it has thrown one of its calls was rejected. -/
def Emitted {α : Type} (w : World) (v : Log) : Post Api World Log α := fun r w' v' =>
  SameButHooks w w' ∧ v'.results = v.results
    ∧ (v.emissionRefused = true → v'.emissionRefused = true)
    ∧ ∀ err, r = .error err → v'.emissionRefused = true

theorem Emitted.trans {α β : Type} {w₁ w₂ : World} {v₁ v₂ : Log} {r : Except Thrown α}
    {r' : Except Thrown β} (h₁ : Emitted w v r w₁ v₁) (h₂ : Emitted w₁ v₁ r' w₂ v₂) :
    Emitted w v r' w₂ v₂ :=
  ⟨h₁.1.trans h₂.1, h₂.2.1.trans h₁.2.1, fun h => h₂.2.2.1 (h₁.2.2.1 h), h₂.2.2.2⟩

/-- What was thrown may be caught. -/
theorem Emitted.caught {α β : Type} {w' : World} {v' : Log} {r : Except Thrown α}
    (h : Emitted w v r w' v') (b : β) : Emitted w v (.ok b) w' v' :=
  ⟨h.1, h.2.1, h.2.2.1, fun _ => (nomatch ·)⟩

/-- A call of an emission. -/
theorem emit_perform {c : Call} (hc : c.isWebhook) :
    Safe (sequential A) (Prog.perform (I := Api) c) (Emitted w v) w v := by
  refine seq_perform.mpr (fun env _ => ⟨after_isWebhook (e := ⟨w, c, env⟩) hc, ?_, ?_, ?_⟩)
  · have hres : resultOf ⟨w, c, env⟩ = none := by
      cases c <;> first | rfl | exact hc.elim
    simp [Log.add, hres]
  · intro h
    simp [Log.add, h]
  · intro err herr
    simp [Log.add, hc, isRejected_of_error herr]

/-- Emissions in sequence. -/
theorem emit_bind {α β : Type} {p : Service α} {f : α → Service β}
    (hp : ∀ w v, Safe (sequential A) p (Emitted w v) w v)
    (hf : ∀ a w v, Safe (sequential A) (f a) (Emitted w v) w v) :
    Safe (sequential A) (p >>= f) (Emitted w v) w v := by
  rw [safe_bind]
  apply (hp w v).mono
  intro r w₁ v₁ h₁
  cases r with
  | error err => exact ⟨h₁.1, h₁.2.1, h₁.2.2.1, fun _ _ => h₁.2.2.2 err rfl⟩
  | ok a =>
      rw [andThen_ok]
      exact (hf a w₁ v₁).mono (fun r' w₂ v₂ h₂ => h₁.trans h₂)

theorem emit_pure {α : Type} (a : α) :
    Safe (sequential A) (pure a : Service α) (Emitted w v) w v :=
  ⟨.refl w, rfl, id, fun _ => (nomatch ·)⟩

/-- `Promise.all` throws only what one of its promises has thrown. -/
theorem promiseAll_ends {ps : List (Service Unit)}
    (hps : ∀ p ∈ ps, ∀ w v, Safe (sequential A) p (Emitted w v) w v) :
    ∀ {w v}, Safe (sequential A) (promiseAll ps) (Emitted w v) w v := by
  induction ps with
  | nil => exact emit_pure ()
  | cons p ps ih =>
      intro w v
      unfold promiseAll
      have hcaught : ∀ w v, Safe (sequential A)
          (tryCatch (p >>= fun _ => pure none) (fun e => pure (some e)) : Service (Option Thrown))
          (fun r w' v' => Emitted w v r w' v'
            ∧ ∀ e, r = .ok (some e) → v'.emissionRefused = true) w v := by
        intro w v
        rw [safe_tryCatch, safe_bind]
        apply (hps p List.mem_cons_self w v).mono
        intro r w₁ v₁ h₁
        cases r with
        | ok _ => exact ⟨h₁.caught _, fun e h => by cases h⟩
        | error err => exact ⟨h₁.caught _, fun _ _ => h₁.2.2.2 err rfl⟩
      rw [safe_bind]
      apply (hcaught w v).mono
      intro r w₁ v₁ hpost
      obtain ⟨h₁, hrej⟩ := hpost
      cases r with
      | error err => exact ⟨h₁.1, h₁.2.1, h₁.2.2.1, fun _ _ => h₁.2.2.2 err rfl⟩
      | ok rejection =>
          rw [andThen_ok, safe_bind]
          refine (ih (fun q hq => hps q (List.mem_cons_of_mem p hq))).mono ?_
          intro r' w₂ v₂ h₂
          have h := h₁.trans h₂
          cases r' with
          | error err => exact ⟨h.1, h.2.1, h.2.2.1, fun _ _ => h.2.2.2 err rfl⟩
          | ok _ =>
              -- the rejection that was kept is thrown now
              cases rejection with
              | none => exact h
              | some e =>
                  exact ⟨h.1, h.2.1, h.2.2.1, fun _ _ => h₂.2.2.1 (hrej e rfl)⟩

/-- **An emission throws only when one of its calls was rejected.** -/
theorem emitWebhookEvent_ends (type : WebhookEventType) (pid : Option String)
    (payload : JsValue) :
    Safe (sequential A) (emitWebhookEvent type pid payload) (Emitted w v) w v := by
  unfold emitWebhookEvent
  refine emit_bind (fun _ _ => emit_perform trivial) (fun endpoints w₁ v₁ => ?_)
  split
  · exact emit_pure ()
  · refine emit_bind (fun _ _ => emit_perform trivial) (fun event w₂ v₂ => ?_)
    refine emit_bind (fun _ _ => emit_perform trivial) (fun deliveries w₃ v₃ => ?_)
    apply promiseAll_ends
    intro p hp w v
    obtain ⟨delivery, -, rfl⟩ := List.mem_map.mp hp
    exact emit_perform trivial

end Emissions

/-! ## §4. Charges. -/

/-- The payment row `pid` with this key has this status. -/
def RowAt (pid key : String) (w : World) (status : PaymentStatus) : Prop :=
  ∃ p, w.payment? pid = some p ∧ p.idempotencyKey = key ∧ p.status = status

/-- The payment for this key is SUCCESS. -/
def World.isPaid (w : World) (key : String) : Prop :=
  ∃ p, w.paymentByKey? key = some p ∧ p.status = .SUCCESS

/-- At most one transaction was submitted, for `key`. -/
def Submitted (key : String) (w w' : World) : Prop :=
  w'.chain = w.chain ∨ ∃ tx, tx.issuedFor = key ∧ w'.chain = w.chain ++ [tx]

theorem Submitted.congr {key : String} {w w₁ w' : World} (h : Submitted key w w₁)
    (hc : w'.chain = w₁.chain) : Submitted key w w' := by
  unfold Submitted
  rw [hc]
  exact h

theorem Submitted.from {key : String} {w w₁ w' : World} (h : Submitted key w₁ w')
    (hc : w₁.chain = w.chain) : Submitted key w w' := by
  unfold Submitted
  rw [← hc]
  exact h

section Charges

variable {A : CallEvent → Prop} {w : World} {v : Log} {pid key : String}

theorem RowAt.congr {w' : World} {st : PaymentStatus} (h : RowAt pid key w st)
    (hp : w'.payments = w.payments) : RowAt pid key w' st := by
  unfold RowAt World.payment? at *
  rw [hp]
  exact h

theorem isPaid_iff {st : PaymentStatus} (h : RowAt pid key w st) :
    w.isPaid key ↔ st = .SUCCESS := by
  obtain ⟨p, hp, hkey, hst⟩ := h
  have hp' : w.paymentByKey? key = some p :=
    paymentByKey?_eq_some.mpr ⟨(payment?_eq_some.mp hp).1, hkey⟩
  unfold World.isPaid
  rw [hp', ← hst]
  simp

/-- A row found by its key. -/
theorem rowAt_of_key {p : Payment} (h : w.paymentByKey? key = some p) :
    RowAt p.id key w p.status := by
  obtain ⟨hp, hkey⟩ := paymentByKey?_eq_some.mp h
  exact ⟨p, payment?_eq_some.mpr ⟨hp, rfl⟩, hkey, rfl⟩

/-- **A status is written in a payment row.** -/
theorem seq_paymentUpdate {st st' : PaymentStatus} {data : PaymentData}
    (hrow : RowAt pid key w st) (hd : data.status = some st')
    {Q : Post Api World Log Payment} (herr : ∀ err, Refusable A → Q (.error err) w v)
    (hok : ∀ a w', RowAt pid key w' st' → w'.chain = w.chain → Q (.ok a) w' v) :
    Safe (sequential A) (prisma.payment.update pid data) Q w v := by
  refine seq_ask id (by simp) (fun err h => herr err (h ⟨id, id⟩)) (fun env a ha => ?_)
  obtain ⟨p, hp, hkey, -⟩ := hrow
  rcases serve_paymentUpdate pid data env w with ⟨err, h⟩ | ⟨old, t, hold, ht, h⟩
  · rw [h] at ha
    cases ha
  · rw [h]
    refine hok a _ ⟨data.apply old, ?_, ?_, ?_⟩ rfl
    · rw [payment?_update hold ht, if_pos rfl]
    · -- an update keeps the idempotency key
      rw [hold] at hp
      cases hp
      exact hkey
    · simp [PaymentData.apply, hd]

/-- What a charge of the row `pid` ends with. -/
def ChargeEnd {α : Type} (pid key : String) (w : World) (v : Log) : Post Api World Log α :=
  fun r w' v' => Submitted key w w' ∧ match r with
    | .ok _ => RowAt pid key w' .SUCCESS
        ∧ (v' = v ∨ ∃ a, v' = v.push a ∧ parseBillingOutcome a ≠ some .Failed)
    | .error _ => (∃ st, st ≠ .SUCCESS ∧ RowAt pid key w' st) ∧ (v' = v ∨ ∃ a, v' = v.push a)

/-- What `invokeAsAdmin` ends with. -/
def InvokeEnd (key : String) (w : World) (v : Log) : Post Api World Log (String × JsValue) :=
  fun r w' v' => w'.payments = w.payments ∧ Submitted key w w' ∧ match r with
    | .ok (_, a) => v' = v.push a
    | .error _ => v' = v

theorem invokeAsAdmin_ends {cfg : Config} {invocation : Invocation} :
    Safe (sequential A) (invokeAsAdmin cfg key invocation) (InvokeEnd key w v) w v := by
  unfold invokeAsAdmin keypairFromSecret getContract
  have hstart : ∀ err : Thrown, InvokeEnd key w v (.error err) w v :=
    fun err => ⟨rfl, .inl rfl, rfl⟩
  split
  · exact hstart _
  · split
    swap
    · exact hstart _
    show Safe _ (server.getAccount _ >>= _) _ _ _
    rw [safe_bind]
    refine seq_read id (by simp) rfl (fun err _ => hstart err) (fun env _ _ => ?_)
    rw [andThen_ok]
    split
    · exact hstart _
    show Safe _ (server.simulateTransaction _ >>= _) _ _ _
    rw [safe_bind]
    refine seq_read id (by simp) rfl (fun err _ => hstart err) (fun env simulated _ => ?_)
    rw [andThen_ok]
    cases simulated with
    | some error => exact hstart _
    | none =>
        dsimp only
        rw [safe_bind]
        refine seq_ask id (by simp) (fun err _ => hstart err) (fun env status hstatus => ?_)
        rw [andThen_ok]
        rcases serve_sendTransaction key invocation env w with
          ⟨err, h⟩ | ⟨detail, -, h⟩ | ⟨hash, applied, -, h⟩
        · rw [h] at hstatus
          cases hstatus
        · -- refused: nothing was submitted
          rw [h] at hstatus ⊢
          cases hstatus
          exact hstart _
        · -- accepted: from here on the transaction stands, whatever the polling says
          rw [h] at hstatus ⊢
          cases hstatus
          dsimp only
          have hsent : Submitted key w
              { w with chain := w.chain ++ [⟨hash, key, invocation, applied⟩] } :=
            .inr ⟨_, rfl, rfl⟩
          rw [safe_bind]
          apply seq_perform.mpr
          intro env' _
          rw [add_await, serve_read rfl]
          cases (api.serve (.awaitTransaction hash) env' _).1 with
          | error err => exact ⟨rfl, hsent, rfl⟩
          | ok result => exact ⟨rfl, hsent, rfl⟩

theorem attempt_ends {cfg : Config} {params : SorobanBillingParams} {admin : String}
    {st : PaymentStatus} (hst : st ≠ .SUCCESS)
    (hrow : RowAt params.paymentId params.idempotencyKey w st) :
    Safe (sequential A) (executeSorobanBilling.attempt cfg params admin)
      (ChargeEnd params.paymentId params.idempotencyKey w v) w v := by
  unfold executeSorobanBilling.attempt addressToScVal
  have hstart : ∀ err : Thrown, ChargeEnd (α := String) params.paymentId
      params.idempotencyKey w v (.error err) w v :=
    fun err => ⟨.inl rfl, ⟨st, hst, hrow⟩, .inl rfl⟩
  split
  swap
  · exact hstart _
  show Safe _ ((if _ then pure _ else throw _ : Service String) >>= _) _ _ _
  split
  swap
  · exact hstart _
  show Safe _ (invokeAsAdmin cfg params.idempotencyKey _ >>= _) _ _ _
  rw [safe_bind]
  apply invokeAsAdmin_ends.mono
  intro r w₁ v₁ hpost
  obtain ⟨hpay, hsub, hr⟩ := hpost
  have hrow₁ := hrow.congr hpay
  cases r with
  | error err => exact ⟨hsub, ⟨st, hst, hrow₁⟩, .inl hr⟩
  | ok invoked =>
      obtain ⟨hash, result⟩ := invoked
      have hr : v₁ = v.push result := hr
      subst hr
      rw [andThen_ok]
      dsimp only
      split
      next hfailed =>
        -- Failed: the row says so, and the error is thrown
        rw [safe_bind]
        refine seq_paymentUpdate hrow₁ rfl
          (fun err _ => ⟨hsub, ⟨st, hst, hrow₁⟩, .inr ⟨result, rfl⟩⟩) (fun a w₂ hrow₂ hc => ?_)
        exact ⟨hsub.congr hc, ⟨.FAILED, by decide, hrow₂⟩, .inr ⟨result, rfl⟩⟩
      next hother =>
        -- anything else counts as Paid
        rw [safe_bind]
        refine seq_paymentUpdate hrow₁ rfl
          (fun err _ => ⟨hsub, ⟨st, hst, hrow₁⟩, .inr ⟨result, rfl⟩⟩) (fun a w₂ hrow₂ hc => ?_)
        exact ⟨hsub.congr hc, hrow₂, .inr ⟨result, rfl, hother⟩⟩

/-- The `catch` block leaves the row failed, or as it was. -/
theorem recordFailure_ends {params : SorobanBillingParams} {err : Thrown} {w₁ : World}
    {v₁ : Log} (h : ChargeEnd (α := String) params.paymentId params.idempotencyKey w v
      (.error err) w₁ v₁) :
    Safe (sequential A) (executeSorobanBilling.recordFailure params err)
      (ChargeEnd params.paymentId params.idempotencyKey w v) w₁ v₁ := by
  obtain ⟨hsub, ⟨st, hst, hrow⟩, hlog⟩ := h
  cases err with
  -- thrown on without a write
  | sorobanBillingFailed hash => exact ⟨hsub, ⟨st, hst, hrow⟩, hlog⟩
  | error message =>
      show Safe _ (prisma.payment.update _ _ >>= _) _ _ _
      rw [safe_bind]
      refine seq_paymentUpdate hrow rfl (fun err _ => ⟨hsub, ⟨st, hst, hrow⟩, hlog⟩)
        (fun a w₂ hrow₂ hc => ?_)
      exact ⟨hsub.congr hc, ⟨.FAILED, by decide, hrow₂⟩, hlog⟩

/-- A row that is not SUCCESS is not settled. -/
theorem settledHash_eq_none {p : Payment} (h : p.status ≠ .SUCCESS) :
    settledHash (some p) = none := by
  unfold settledHash
  rw [Option.bind_some, Option.filter_eq_none_iff]
  simp [h]

/-- The SUCCESS check on a row that is not SUCCESS lets it pass. -/
theorem seq_check {st : PaymentStatus} (hst : st ≠ .SUCCESS) (hrow : RowAt pid key w st)
    {β : Type} {f : Option Payment → Service β} {Q : Post Api World Log β}
    (herr : ∀ err, Refusable A → Q (.error err) w v)
    (hok : ∀ existing, settledHash existing = none → Safe (sequential A) (f existing) Q w v) :
    Safe (sequential A) (prisma.payment.findUnique (.byId pid) >>= f) Q w v := by
  rw [safe_bind]
  refine seq_read id (by simp) rfl (fun err h => herr err (h ⟨id, id⟩)) (fun env existing h => ?_)
  rw [andThen_ok]
  apply hok existing
  obtain ⟨p, hp, -, hstatus⟩ := hrow
  have hfound : existing = some p := (existing_of_read h).trans hp
  rw [hfound]
  exact settledHash_eq_none (hstatus ▸ hst)

theorem executeSorobanBilling_ends {cfg : Config} {params : SorobanBillingParams}
    {st : PaymentStatus} (hst : st ≠ .SUCCESS)
    (hrow : RowAt params.paymentId params.idempotencyKey w st) :
    Safe (sequential A) (executeSorobanBilling cfg params)
      (ChargeEnd params.paymentId params.idempotencyKey w v) w v := by
  unfold executeSorobanBilling
  have hstart : ∀ err : Thrown, ChargeEnd (α := String) params.paymentId
      params.idempotencyKey w v (.error err) w v :=
    fun err => ⟨.inl rfl, ⟨st, hst, hrow⟩, .inl rfl⟩
  apply seq_check hst hrow (fun err _ => hstart err)
  intro existing hnone
  rw [hnone]
  dsimp only
  split
  · exact hstart _
  · split
    · -- test mode: SUCCESS without a transaction
      rw [safe_bind]
      apply seq_paymentUpdate hrow rfl (fun err _ => hstart err)
      intro a w₁ hrow₁ hc
      exact ⟨.inl hc, hrow₁, .inl rfl⟩
    · unfold keypairFromSecret
      split
      swap
      · exact hstart _
      show Safe _ (prisma.payment.update _ _ >>= _) _ _ _
      rw [safe_bind]
      apply seq_paymentUpdate hrow rfl (fun err _ => hstart err)
      intro a w₁ hrow₁ hc
      -- the row is PROCESSING when the `try` block begins
      rw [andThen_ok, safe_tryCatch]
      apply (attempt_ends (by decide) hrow₁).mono
      intro r w₂ v₂ h
      have hend : ChargeEnd params.paymentId params.idempotencyKey w v r w₂ v₂ :=
        ⟨h.1.from hc, h.2⟩
      cases r with
      | ok hash => exact hend
      | error err => exact recordFailure_ends hend

theorem submitPayment_ends {cfg : Config} {params : PaymentParams} {st : PaymentStatus}
    (hst : st ≠ .SUCCESS) (hrow : RowAt params.paymentId key w st) :
    Safe (sequential A) (submitPayment cfg params) (ChargeEnd params.paymentId key w v) w v := by
  unfold submitPayment
  have hstart : ∀ err : Thrown, ChargeEnd (α := String) params.paymentId key w v
      (.error err) w v :=
    fun err => ⟨.inl rfl, ⟨st, hst, hrow⟩, .inl rfl⟩
  apply seq_check hst hrow (fun err _ => hstart err)
  intro existing hnone
  rw [hnone]
  dsimp only
  split
  · rw [safe_bind]
    apply seq_paymentUpdate hrow rfl (fun err _ => hstart err)
    intro a w₁ hrow₁ hc
    exact ⟨.inl hc, hrow₁, .inl rfl⟩
  · unfold keypairFromSecret
    split
    swap
    · exact hstart _
    show Safe _ (server.loadAccount _ >>= _) _ _ _
    rw [safe_bind]
    refine seq_read id (by simp) rfl (fun err _ => hstart err) (fun env _ _ => ?_)
    rw [andThen_ok, safe_bind]
    apply seq_paymentUpdate hrow rfl (fun err _ => hstart err)
    intro a w₁ hrow₁ hc₁
    have hmiddle : ∀ err : Thrown, ChargeEnd (α := String) params.paymentId key w v
        (.error err) w₁ v :=
      fun err => ⟨.inl hc₁, ⟨.PROCESSING, by decide, hrow₁⟩, .inl rfl⟩
    -- every error of the `try` block leaves the row FAILED, or PROCESSING
    have hcatch : ∀ err : Thrown, Safe (sequential A) (submitPayment.recordFailure params err)
        (ChargeEnd params.paymentId key w v) w₁ v := by
      intro err
      unfold submitPayment.recordFailure
      rw [safe_bind]
      apply seq_paymentUpdate hrow₁ rfl (fun err _ => hmiddle err)
      intro a w₂ hrow₂ hc₂
      exact ⟨.inl (hc₂.trans hc₁), ⟨.FAILED, by decide, hrow₂⟩, .inl rfl⟩
    rw [andThen_ok, safe_tryCatch]
    unfold submitPayment.attempt
    rw [safe_bind]
    refine seq_read id (by simp) rfl (fun err _ => hcatch err) (fun env submitted _ => ?_)
    obtain ⟨hash, ledger⟩ := submitted
    rw [andThen_ok]
    dsimp only
    rw [safe_bind]
    apply seq_paymentUpdate hrow₁ rfl (fun err _ => hcatch err)
    intro a w₂ hrow₂ hc₂
    exact ⟨.inl (hc₂.trans hc₁), hrow₂, .inl rfl⟩

/-- **What a charge of an open row does.** -/
theorem chargePayment_ends {cfg : Config} {sub : SubscriptionWithPlan} {st : PaymentStatus}
    (hst : st ≠ .SUCCESS) (hrow : RowAt pid key w st) :
    Safe (sequential A) (chargePayment cfg sub pid key) (ChargeEnd pid key w v) w v := by
  unfold chargePayment
  have hdrop : ∀ (r : Except Thrown String) w' v', ChargeEnd pid key w v r w' v' →
      andThen (fun _ => (pure () : Service Unit)) (sequential A) (ChargeEnd pid key w v)
        r w' v' := by
    intro r w' v' h
    cases r <;> exact h
  split
  · rw [safe_bind]
    exact (executeSorobanBilling_ends hst hrow).mono hdrop
  · split
    · rw [safe_bind]
      exact (submitPayment_ends hst hrow).mono hdrop
    · exact ⟨.inl rfl, ⟨st, hst, hrow⟩, .inl rfl⟩

end Charges

end Sorobill
