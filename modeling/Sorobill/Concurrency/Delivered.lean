/-
  Sorobill.Concurrency.Delivered
  ──────────────────────────────
  **IS DELIVERED FINAL?**

  An attempt does not look at the status before it posts the event, and its
  `catch` block writes FAILED whatever the row has become in the meantime.
  When a job runs more than once, an attempt that fails late takes a delivery
  back that another one has made.

    • `Stamped` — deliveries have a time exactly when they are DELIVERED;
    • `OnTime` — an attempt that has failed writes to its delivery only while
      that is not DELIVERED;
    • `delivered_final_iff` — DELIVERED is final, and the time fits, exactly
      while every call is of this kind.
-/
import Sorobill.Concurrency.Stranding

namespace Sorobill

open Effect
open Relational
open JobQueue (Job Queue)

/-! ## §1. Statements. -/

def World.Delivered (w : World) (id : String) : Prop :=
  ∃ d ∈ w.hooks.deliveries, d.id = id ∧ d.status = .DELIVERED

/-- `deliveredAt` is set exactly while the status is DELIVERED. -/
def Stamped (w : World) : Prop :=
  ∀ d ∈ w.hooks.deliveries, d.deliveredAt ≠ none ↔ d.status = .DELIVERED

/-- What is DELIVERED stays DELIVERED. -/
def DeliveredKept (w w' : World) : Prop := ∀ id, w.Delivered id → w'.Delivered id

/-- The endpoint does not answer with success, or with a body that `String` does
not convert, or the call is rejected. -/
def isRefusal (js : Builtins) : (c : WebhookApi.Call) → WebhookApi.Response c → Bool
  | .inr (.post _ _ _), .ok (.error _) => true
  | .inr (.post _ _ _), .ok (.ok res) => !(js.string res.data).isOk
  | _, .ok _ => false
  | _, .error _ => true

def refuses (js : Builtins) (e : WebhookCallEvent) : Bool :=
  isRefusal js e.call (e.response webhookApi)

/-- The running backend, each execution with whether it has failed. -/
def trying (js : Builtins) (mayFail : World → Job String → Prop) :
    System WebhookApi World WebhookEnv WebhookOperation Bool :=
  deliveries js mayFail (fun _ => false) (fun failed e => failed || refuses js e)

/-- **The condition on calls**: an execution that has failed has no update
answered while its delivery is DELIVERED. -/
def OnTime : Condition WebhookApi World WebhookEnv Bool := fun failed _ e =>
  ∀ id data, failed = true → e.call = .inr (.webhookDeliveryUpdate id data) →
    e.fails webhookApi = false → ¬ e.before.Delivered id

/-! ## §2. What attempts write. -/

/-- What an execution writes to a delivery, by whether it has failed. -/
inductive Reports : Bool → WebhookDeliveryData → Prop where
  | delivered {data} : data.status = .DELIVERED → data.deliveredAt ≠ none → Reports false data
  | failed {data} : data.status = .FAILED → data.deliveredAt = none → Reports true data

/-- The contract of an execution whose updates are of this kind. -/
def reporting (js : Builtins) : Contract webhookApi Bool where
  rely _ _ := True
  assume _ _ := True
  guarantee failed e := ∀ id data, e.call = .inr (.webhookDeliveryUpdate id data) →
    Reports failed data
  track failed e := failed || refuses js e

/-- An answer leaves the execution as it was, an error makes it a failed one. -/
def FailsOnError {α : Type} (failed : Bool) : Post WebhookApi World Bool α := fun r _ failed' =>
  match r with
  | .ok _ => failed' = failed
  | .error _ => failed' = true

/-- Only a response with success, and a body that is converted, leaves the
execution as it was. -/
def PostReports (js : Builtins) : Post WebhookApi World Bool (Except AxiosError HttpResponse) :=
  fun r _ failed =>
    match r with
    | .ok (.ok res) => failed = !(js.string res.data).isOk
    | _ => failed = true

section Walks

variable {js : Builtins} {w : World} {failed : Bool}

theorem isRefusal_error {c : WebhookApi.Call} {err : Thrown} :
    isRefusal js c (.error err) = true := by
  cases c with
  | inl c => rfl
  | inr c => cases c <;> rfl

/-- A call of the worker whose answer is not looked at. -/
theorem call_reports {c : DeliveryCall}
    (hc : ∀ id data, c = .webhookDeliveryUpdate id data → Reports failed data)
    (hpost : ∀ url body headers, c ≠ .post url body headers) :
    Safe (reporting js) (awaitDelivery c) (FailsOnError failed) w failed := by
  unfold awaitDelivery
  rw [safe_perform]
  intro w' env _ _
  refine ⟨fun id data h => hc id data (Sum.inr.inj h), ?_⟩
  show FailsOnError failed _ _
    (failed || isRefusal js (.inr c) (webhookApi.serve (.inr c) env w').1)
  generalize (webhookApi.serve (.inr c) env w').1 = response
  cases response with
  | error err =>
      rw [isRefusal_error]
      exact Bool.or_true failed
  | ok a =>
      have hanswered : isRefusal js (.inr c) (.ok a) = false := by
        cases c with
        | post url body headers => exact absurd rfl (hpost url body headers)
        | _ => rfl
      rw [hanswered]
      exact Bool.or_false failed

/-- A call of the services. -/
theorem service_reports {c : Call} :
    Safe (reporting js) (Prog.embed (Prog.perform (I := Api) c)) (FailsOnError failed) w
      failed := by
  rw [safe_embed_perform]
  intro w' env _ _
  refine ⟨fun id data h => (nomatch h), ?_⟩
  show FailsOnError failed _ _
    (failed || isRefusal js (.inl c) (webhookApi.serve (.inl c) env w').1)
  generalize (webhookApi.serve (.inl c) env w').1 = response
  cases response with
  | error err => exact Bool.or_true failed
  | ok a => exact Bool.or_false failed

/-- The request to the endpoint. -/
theorem post_reports (url body : String) (headers : List (String × String)) :
    Safe (reporting js) (axios.post url body headers) (PostReports js) w false := by
  unfold axios.post awaitDelivery
  rw [safe_perform]
  intro w' env _ _
  refine ⟨fun id data h => (nomatch h), ?_⟩
  show PostReports js _ _ (false || isRefusal js _
    (webhookApi.serve (.inr (.post url body headers)) env w').1)
  generalize (webhookApi.serve (.inr (.post url body headers)) env w').1 = response
  cases response with
  | error err => rfl
  | ok answer => cases answer <;> rfl

/-- The body of the `try` returns without an error, or it has failed. -/
theorem attempt_reports (id : String) (delivery : DeliveryWithEvent) (body signature : String) :
    Safe (reporting js) (deliverWebhook.attempt js id delivery body signature)
      (fun r _ failed => r = .ok none ∨ failed = true) w false := by
  unfold deliverWebhook.attempt
  rw [safe_bind]
  apply (post_reports _ _ _).mono
  intro r w₁ failed h
  cases r with
  | error err => exact .inr h
  | ok answer =>
      cases answer with
      | error err => exact .inr h
      | ok res =>
          -- a good answer counts as failed when its body does not convert
          have h : failed = !(js.string res.data).isOk := h
          show Safe (reporting js) (Prog.evaluate (js.string res.data) >>= _) _ w₁ _
          rw [safe_bind, safe_evaluate]
          cases htext : js.string res.data with
          | error err =>
              rw [htext] at h
              exact .inr h
          | ok text =>
              rw [htext] at h
              obtain rfl : failed = false := h
              show Safe (reporting js) (dateNow.embed >>= _) _ w₁ _
              rw [safe_bind]
              -- from here on a rejection makes the attempt a failed one
              apply service_reports.mono
              intro r w₂ failed h
              cases r with
              | error err => exact .inr h
              | ok now =>
                  obtain rfl : failed = false := h
                  show Safe (reporting js) (prisma.webhookDelivery.update id _ >>= _) _ w₂ _
                  rw [safe_bind]
                  apply (call_reports (fun _ _ h => ?_) (fun _ _ _ h => by cases h)).mono
                  · intro r w₃ failed h
                    cases r with
                    | error err => exact .inr h
                    | ok _ => exact .inl rfl
                  · cases h
                    exact .delivered rfl (by simp)

/-- The `catch` block. -/
theorem recordFailure_reports (id : String) (err : AxiosError) :
    Safe (reporting js) (deliverWebhook.recordFailure js id err) (fun _ _ _ => True) w true := by
  unfold deliverWebhook.recordFailure
  rw [safe_bind, safe_evaluate]
  cases err.text js with
  | error thrown => trivial
  | ok text =>
      show Safe (reporting js) (prisma.webhookDelivery.update id _ >>= _) _ w _
      rw [safe_bind]
      apply (call_reports (fun _ _ h => ?_) (fun _ _ _ h => by cases h)).mono
      · intro r _ _ _
        cases r <;> exact trivial
      · cases h
        exact .failed rfl rfl

/-- **`deliverWebhook` writes DELIVERED before it has failed, and FAILED
after.** -/
theorem deliverWebhook_reports (id : String) :
    Safe (reporting js) (deliverWebhook js id) (fun _ _ _ => True) w false := by
  unfold deliverWebhook prisma.webhookDelivery.findUniqueOrThrow
  rw [safe_bind]
  apply (call_reports (fun _ _ h => by cases h) (fun _ _ _ h => by cases h)).mono
  intro r w₁ failed h
  cases r with
  | error err => exact trivial
  | ok delivery =>
      obtain rfl : failed = false := h
      show Safe (reporting js) (tryCatch (deliverWebhook.attempt js id delivery _ _) _ >>= _) _ w₁ _
      rw [safe_bind, safe_tryCatch]
      apply (attempt_reports id delivery _ _).mono
      intro r w₂ failed h
      cases r with
      | error err =>
          obtain rfl : failed = true := h.resolve_left (by simp)
          exact recordFailure_reports id _
      | ok failure =>
          cases failure with
          | none => exact trivial
          | some err =>
              obtain rfl : failed = true := h.resolve_left (by simp)
              exact recordFailure_reports id err

/-- Ending the job updates no delivery. -/
theorem ending_reports {c : DeliveryCall} (hc : ∀ id data, c ≠ .webhookDeliveryUpdate id data)
    (hpost : ∀ url body headers, c ≠ .post url body headers) :
    Safe (reporting js) (awaitDelivery c) (fun _ _ _ => True) w failed :=
  (call_reports (fun id data h => absurd h (hc id data)) hpost).mono (fun _ _ _ _ => trivial)

/-- **Every execution honours the contract.** -/
theorem operation_reports (op : WebhookOperation) :
    Safe (reporting js) (op.body js) (fun _ _ _ => True) w false := by
  cases op with
  | emitWebhookEvent type paymentId payload =>
      refine safe_embed (fun _ e c hc id data h => ?_)
      rw [hc] at h
      cases h
  | deliver job =>
      have hfailed : ∀ w failed, Safe (reporting js) (webhookQueue.moveToFailed job)
          (fun _ _ _ => True) w failed := fun _ _ =>
        ending_reports (fun _ _ h => by cases h) (fun _ _ _ h => by cases h)
      show Safe (reporting js) (webhookWorker.run js job) _ w false
      unfold webhookWorker.run webhookWorker
      rw [safe_tryCatch, safe_bind]
      apply (deliverWebhook_reports job.data).mono
      intro r w₁ failed _
      cases r with
      | error err => exact hfailed w₁ failed
      | ok _ =>
          have hended : Safe (reporting js) (webhookQueue.moveToCompleted job) (fun _ _ _ => True)
              w₁ failed := ending_reports (fun _ _ h => by cases h) (fun _ _ _ h => by cases h)
          apply hended.mono
          intro r w₂ failed _
          cases r with
          | ok _ => exact trivial
          | error err => exact hfailed w₂ failed

end Walks

/-! ## §3. What a call does to the deliveries. -/

section Calls

variable {w : World}

/-- Rows that are the same. -/
theorem kept_of_eq {w' : World} (h : w'.hooks.deliveries = w.hooks.deliveries) :
    DeliveredKept w w' ∧ (Stamped w → Stamped w') := by
  unfold DeliveredKept World.Delivered Stamped
  rw [h]
  exact ⟨fun _ h => h, fun h => h⟩

/-- A call of the services inserts PENDING rows at most. -/
theorem services_keep (c : Call) (env : Env) (w : World) :
    DeliveredKept w (api.serve c env w).2 ∧ (Stamped w → Stamped (api.serve c env w).2) := by
  refine ⟨fun id h => ?_, fun h d hd => ?_⟩
  · obtain ⟨d, hd, hdelivered⟩ := h
    exact ⟨d, delivery_kept c env w hd, hdelivered⟩
  · rcases delivery_origin c env w hd with hd | ⟨hst, hat⟩
    · exact h d hd
    · rw [hst, hat]
      exact iff_of_false (fun h => h rfl) WebhookDeliveryStatus.noConfusion

/-- **A timely update** undoes no DELIVERED. -/
theorem update_keeps {id : String} {data : WebhookDeliveryData} {failed : Bool}
    {t : Table WebhookDelivery WebhookDelivery.Clash} (hdata : Reports failed data)
    (ht : w.hooks.deliveries.update? (·.id == id) data.apply = some t)
    (htime : failed = true → ¬ w.Delivered id) :
    DeliveredKept w { w with hooks := { w.hooks with deliveries := t } }
      ∧ (Stamped w → Stamped { w with hooks := { w.hooks with deliveries := t } }) := by
  refine ⟨fun x h => ?_, fun h d hd => ?_⟩
  · obtain ⟨d, hd, rfl, hst⟩ := h
    rcases Table.update_fate ht hd with hkept | ⟨hid, hwritten⟩
    · exact ⟨d, hkept, rfl, hst⟩
    · refine ⟨data.apply d, hwritten, rfl, ?_⟩
      cases hdata with
      | delivered hdelivered _ => exact hdelivered
      | failed _ _ => exact absurd ⟨d, hd, beq_iff_eq.mp hid, hst⟩ (htime rfl)
  · rcases Table.update_origin ht hd with hd | ⟨r, hr, hid, rfl⟩
    · exact h d hd
    · show data.deliveredAt.or r.deliveredAt ≠ none ↔ data.status = .DELIVERED
      cases hdata with
      | delivered hdelivered hat =>
          refine iff_of_true (fun hnone => hat ?_) hdelivered
          exact (Option.or_eq_none_iff.mp hnone).1
      | failed hfailed hat =>
          -- the row was not DELIVERED, so it has no time to keep
          have hnot : r.status ≠ .DELIVERED :=
            fun hst => htime rfl ⟨r, hr, beq_iff_eq.mp hid, hst⟩
          rw [hat, Option.none_or, hfailed]
          exact iff_of_false (fun hat => hnot ((h r hr).mp hat)) WebhookDeliveryStatus.noConfusion

/-- The update of an execution that has failed leaves no DELIVERED behind. -/
theorem not_delivered_of_update {id : String} {data : WebhookDeliveryData}
    {t : Table WebhookDelivery WebhookDelivery.Clash} (hdata : Reports true data)
    (ht : w.hooks.deliveries.update? (·.id == id) data.apply = some t) :
    ¬ ({ w with hooks := { w.hooks with deliveries := t } } : World).Delivered id := by
  rintro ⟨d, hd, hid, hst⟩
  obtain ⟨r, -, rfl⟩ := (Table.mem_update ht).mp hd
  by_cases hsel : (r.id == id) = true
  · rw [if_pos hsel] at hst
    cases hdata with
    | failed hfailed _ =>
        have hst : data.status = .DELIVERED := hst
        rw [hfailed] at hst
        cases hst
  · rw [if_neg hsel] at hid
    exact hsel (beq_iff_eq.mpr hid)

/-- **A call keeps DELIVERED exactly when it is on time.** -/
theorem call_keeps_iff {failed : Bool} {vs : List Bool} {e : WebhookCallEvent}
    (h : (reporting js).guarantee failed e) :
    OnTime failed vs e ↔ DeliveredKept e.before (e.after webhookApi)
      ∧ (Stamped e.before → Stamped (e.after webhookApi)) := by
  obtain ⟨w, c, env⟩ := e
  show _ ↔ DeliveredKept w (webhookApi.serve c env w).2
    ∧ (Stamped w → Stamped (webhookApi.serve c env w).2)
  cases c with
  | inl c => exact iff_of_true (fun _ _ _ hcall => by cases hcall) (services_keep c env.toEnv w)
  | inr c =>
      cases c with
      | webhookDeliveryUpdate id data =>
          have hdata := h id data rfl
          rcases serve_webhookDeliveryUpdate id data env w with
            ⟨err, hserve⟩ | ⟨old, t, -, ht, hserve⟩
          · rw [hserve]
            -- a rejected update changes nothing, and the condition asks nothing of it
            refine iff_of_true (fun _ _ _ _ hanswered => ?_) (kept_of_eq rfl)
            rw [Event.fails_of_error (congrArg Prod.fst hserve)] at hanswered
            cases hanswered
          · rw [hserve]
            have hanswered := Event.fails_of_ok (congrArg Prod.fst hserve)
            refine ⟨fun htime => update_keeps hdata ht (fun hfailed =>
              htime id data hfailed rfl hanswered), fun hkept => ?_⟩
            -- conversely: a late FAILED over DELIVERED is seen in the row
            rintro _ _ rfl ⟨⟩ - hdelivered
            exact absurd (hkept.1 id hdelivered) (not_delivered_of_update hdata ht)
      | webhookDeliveryFindUniqueOrThrow id =>
          -- the other calls write no delivery
          rw [serve_webhookDeliveryFindUniqueOrThrow]
          exact iff_of_true (fun _ _ _ hcall => by cases hcall) (kept_of_eq rfl)
      | post url body headers =>
          rw [serve_post]
          exact iff_of_true (fun _ _ _ hcall => by cases hcall) (kept_of_eq rfl)
      | moveToCompleted job =>
          refine iff_of_true (fun _ _ _ hcall => by cases hcall) (kept_of_eq ?_)
          rcases serve_moveToCompleted job env w with ⟨err, hserve⟩ | hserve
          · rw [hserve]
          · rw [hserve]
            rfl
      | moveToFailed job =>
          refine iff_of_true (fun _ _ _ hcall => by cases hcall) (kept_of_eq ?_)
          rcases serve_moveToFailed job env w with ⟨err, hserve⟩ | hserve
          · rw [hserve]
          · rw [hserve]
            rfl

end Calls

/-! ## §4. The claim. -/

/-- **DELIVERED is final exactly under the condition**: in every run of
emissions and attempts, interleaved call by call and stopped between two
calls, with any responses and with failures at any call, as long as every call
is on time, `deliveredAt` is set exactly while the status is DELIVERED and
what is DELIVERED stays so.  In every run whatever, a call keeps both if and
only if it is on time. -/
theorem delivered_final_iff (js : Builtins) (mayFail : World → Job String → Prop) (w₀ : World)
    (hw₀ : Stamped w₀) :
    (∀ P, Pool.Moves (trying js mayFail) OnTime (fun _ => True) ⟨w₀, []⟩ P → Stamped P.world
        ∧ ∀ P', Pool.Moves (trying js mayFail) OnTime (fun _ => True) P P' →
          DeliveredKept P.world P'.world)
      ∧ ∀ w pre failed c next post env,
          Pool.Moves (trying js mayFail) anyone (fun _ => True) ⟨w₀, []⟩
            ⟨w, pre ++ ⟨failed, .call c next⟩ :: post⟩ →
          (OnTime failed (views pre ++ views post) ⟨w, c, env⟩
            ↔ DeliveredKept w (webhookApi.serve c env w).2
              ∧ (Stamped w → Stamped (webhookApi.serve c env w).2)) := by
  refine ⟨fun P hP => ?_, fun w pre failed c next post env hP => ?_⟩
  · have hkeeps : ∀ {P₁ P₂}, Pool.Moves (trying js mayFail) OnTime (fun _ => True) ⟨w₀, []⟩ P₁ →
        Pool.Moves (trying js mayFail) OnTime (fun _ => True) P₁ P₂ →
        DeliveredKept P₁.world P₂.world ∧ (Stamped P₁.world → Stamped P₂.world) := by
      intro P₁ P₂ h₁ h₂
      refine Pool.Moves.frame (C := reporting js)
        (R := fun w w' => DeliveredKept w w' ∧ (Stamped w → Stamped w'))
        (fun _ _ => trivial) (fun _ _ _ _ => trivial) rfl (fun _ op => operation_reports op)
        (fun _ => ⟨fun _ h => h, fun h => h⟩) (fun _ _ _ h h' => ?_) (fun _ _ _ htime hreports =>
          (call_keeps_iff hreports).mp htime) (fun w w' hdrift => ?_) h₁ h₂
      · exact ⟨fun id hid => h'.1 id (h.1 id hid), fun hst => h'.2 (h.2 hst)⟩
      · cases hdrift with
        | phase id phase => exact kept_of_eq rfl
        | stalled job _ _ => exact kept_of_eq rfl
    exact ⟨(hkeeps .refl hP).2 hw₀, fun P' hP' => (hkeeps hP hP').1⟩
  · have hreports := Pool.Moves.honours (C := reporting js) (fun _ _ => trivial)
      (fun _ _ _ _ => trivial) rfl (fun _ op => operation_reports op) hP
      ⟨failed, .call c next⟩ (by simp)
    exact call_keeps_iff (hreports w w env trivial trivial).1

/-! ## §5. Scenarios. -/

section Scenarios

open Shop

instance (js : Builtins) (mayFail : World → Job String → Prop) (w : World)
    (op : WebhookOperation) : Decidable ((trying js mayFail).enabled w op) :=
  inferInstanceAs (Decidable (op.Enabled w))

/-- The job of the delivery. -/
def deliveryJob : Job String := ⟨"webhook:delivery", "deliver", "delivery", 0⟩

/-- The endpoint answers with success. -/
def accepted : WebhookEnv := { toEnv := on 1, response := some ⟨200, .string "ok"⟩ }

/-- The endpoint does not answer. -/
def unanswered : WebhookEnv := { toEnv := on 1 }

/-- The job runs twice; the second attempt has looked the delivery up before
the first one stores DELIVERED. -/
def deliversFirst : List (Choice WebhookOperation WebhookEnv) :=
  emission (on 0) ++ [.start (.deliver deliveryJob), .start (.deliver deliveryJob),
    .act 0 unanswered, .act 1 unanswered, .act 0 accepted, .act 0 unanswered, .act 0 unanswered,
    .act 0 unanswered]

/-- The second attempt is not answered, and stores FAILED. -/
def failsLate : List (Choice WebhookOperation WebhookEnv) := [.act 0 unanswered, .act 0 unanswered]

/-- The status and the time of the row `"delivery"`. -/
def World.deliveryOutcome (w : World) : Option (WebhookDeliveryStatus × Option Instant) :=
  (w.hooks.deliveries.find? (·.id == "delivery")).map (fun d => (d.status, d.deliveredAt))

theorem stamped_registered : Stamped registered :=
  fun d hd => absurd hd (Table.not_mem_of_nil rfl d)

/-- The row is the only one with its id. -/
theorem World.Delivered.outcome {w : World} (h : w.Delivered "delivery") :
    ∃ t, w.deliveryOutcome = some (.DELIVERED, t) := by
  obtain ⟨d, hd, hid, hst⟩ := h
  unfold World.deliveryOutcome
  cases hfind : w.hooks.deliveries.find? (·.id == "delivery") with
  | none => exact absurd hid (by
      simpa using Table.find?_eq_none_iff.mp hfind d hd)
  | some d' =>
      obtain ⟨hd', hid'⟩ := Table.find?_mem hfind
      obtain rfl : d' = d := Table.eq_of_clash hd' hd ((beq_iff_eq.mp hid').trans hid.symm)
      exact ⟨d'.deliveredAt, by rw [Option.map_some, hst]⟩

theorem delivered_of_outcome {w : World} {t : Option Instant}
    (h : w.deliveryOutcome = some (.DELIVERED, t)) : w.Delivered "delivery" := by
  obtain ⟨d, hd, hst⟩ := Option.map_eq_some_iff.mp h
  obtain ⟨hmem, hid⟩ := Table.find?_mem hd
  exact ⟨d, hmem, beq_iff_eq.mp hid, (Prod.mk.inj hst).1⟩

/-- **A delivery that is taken back.** -/
theorem delivery_taken_back :
    ¬ ∀ (js : Builtins) (mayFail : World → Job String → Prop) (w₀ : World)
      (P P' : Pool WebhookApi World Bool), Stamped w₀ →
      Pool.Moves (trying js mayFail) anyone (fun _ => True) ⟨w₀, []⟩ P →
      Pool.Moves (trying js mayFail) anyone (fun _ => True) P P' →
      DeliveredKept P.world P'.world := by
  intro hclaim
  have hrun : ((Pool.advance (trying onEvent (fun _ _ => True)) (fun _ _ _ => true) deliversFirst
      ⟨registered, []⟩).bind (fun P => (Pool.advance (trying onEvent (fun _ _ => True))
        (fun _ _ _ => true) failsLate P).map (fun P' =>
          (P.world.deliveryOutcome, P'.world.deliveryOutcome))))
      = some (some (.DELIVERED, some (day 1)), some (.FAILED, some (day 1))) := by
    decide +kernel
  obtain ⟨P, hP, hrest⟩ := Option.bind_eq_some_iff.mp hrun
  obtain ⟨P', hP', houtcomes⟩ := Option.map_eq_some_iff.mp hrest
  obtain ⟨hbefore, hafter⟩ := Prod.mk.inj houtcomes
  have hreach : Pool.Run (trying onEvent (fun _ _ => True)) anyone ⟨registered, []⟩ P :=
    Pool.advance_run (fun _ _ _ _ => trivial) hP
  have hlater : Pool.Run (trying onEvent (fun _ _ => True)) anyone P P' :=
    Pool.advance_run (fun _ _ _ _ => trivial) hP'
  obtain ⟨t, ht⟩ := (hclaim onEvent (fun _ _ => True) registered P P' stamped_registered
    hreach.moves hlater.moves "delivery" (delivered_of_outcome hbefore)).outcome
  rw [hafter] at ht
  cases ht

/-- `OnTime` as a test. -/
def onTime (failed : Bool) (_ : List Bool) (e : WebhookCallEvent) : Bool :=
  !failed ||
    match e.call with
    | .inr (.webhookDeliveryUpdate id _) => e.fails webhookApi
        || !e.before.hooks.deliveries.rows.any (fun d => d.id == id && d.status == .DELIVERED)
    | _ => true

theorem onTime_sound (failed : Bool) (vs : List Bool) (e : WebhookCallEvent)
    (h : onTime failed vs e = true) : OnTime failed vs e := by
  rintro id data rfl hcall hanswered ⟨d, hd, hid, hst⟩
  unfold onTime at h
  rw [hcall, hanswered, Bool.not_true, Bool.false_or] at h
  dsimp only at h
  rw [Bool.false_or, Bool.not_eq_true'] at h
  have hnone := List.any_eq_false.mp h d hd
  simp [hid, hst] at hnone

/-- The first attempt is not answered, the second one is. -/
def deliversAtLast : List (Choice WebhookOperation WebhookEnv) :=
  emission (on 0) ++ [.start (.deliver deliveryJob), .act 0 unanswered, .act 0 unanswered,
    .act 0 unanswered, .act 0 unanswered,
    .start (.deliver { deliveryJob with attemptsMade := 1 }), .act 0 unanswered, .act 0 accepted,
    .act 0 unanswered, .act 0 unanswered, .act 0 unanswered]

/-- It is DELIVERED, and its time is set. -/
theorem delivered_final_iff_atLast :
    ∃ P, Pool.Moves (trying onEvent settledOnly) OnTime (fun _ => True) ⟨registered, []⟩ P
      ∧ P.world.deliveryOutcome = some (.DELIVERED, some (day 1)) ∧ Stamped P.world := by
  have hrun : (Pool.advance (trying onEvent settledOnly) onTime deliversAtLast
      ⟨registered, []⟩).map (·.world.deliveryOutcome)
      = some (some (.DELIVERED, some (day 1))) := by
    decide +kernel
  obtain ⟨P, hP, houtcome⟩ := Option.map_eq_some_iff.mp hrun
  have h : Pool.Run (trying onEvent settledOnly) OnTime ⟨registered, []⟩ P :=
    Pool.advance_run onTime_sound hP
  exact ⟨P, h.moves, houtcome,
    ((delivered_final_iff onEvent settledOnly registered stamped_registered).1 P h.moves).1⟩

end Scenarios

end Sorobill
