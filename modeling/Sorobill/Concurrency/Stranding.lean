/-
  Sorobill.Concurrency.Stranding
  ──────────────────────────────
  **IS A DELIVERY EVER STRANDED?**

  The rows of an emission are committed first and their jobs are added
  afterwards; a job ends when its attempts are used up.  No code looks at
  PENDING rows again, so a row whose job was never added, or has ended without
  an answer being stored, stays PENDING for good.

    • `Attended` — every PENDING row has an unfinished job, or an emission in
      flight owes it one;
    • `no_delivery_stranded` — in every interleaving of emissions and attempts
      in which no job is lost on the way, no delivery is stranded.
-/
import Sorobill.Library.Interruption
import Sorobill.Model.Shop
import Sorobill.Rules.Deliveries

namespace Sorobill

open Effect
open Relational
open JobQueue (Job Queue)

/-! ## §1. What an execution owes. -/

/-- The id of the job of a delivery. -/
def deliveryJobId (deliveryId : String) : String := s!"webhook:{deliveryId}"

theorem deliveryJobId_injective : Function.Injective deliveryJobId := by
  intro a b h
  -- the interpolation appends the texts
  have h : toString a = toString b := by simpa [deliveryJobId] using h
  exact h

/-- What is remembered of an execution. -/
inductive Attendant where
  /-- An emission, with the deliveries it has yet to add a job for. -/
  | emitting (owed : List String)
  /-- An attempt on a job. -/
  | delivering (job : Job String)

def attendantOf : WebhookOperation → Attendant
  | .emitWebhookEvent _ _ _ => .emitting []
  | .deliver job => .delivering job

/-- The rows an emission creates are owed until their job is added. -/
def trackAttendant : Attendant → WebhookCallEvent → Attendant
  | .delivering job, _ => .delivering job
  | .emitting owed, ⟨w, .inl (.webhookDeliveryCreateAll eventId endpointIds), env⟩ =>
      match (webhookApi.serve (.inl (.webhookDeliveryCreateAll eventId endpointIds)) env w).1 with
      | .ok (rows : List WebhookDelivery) => .emitting (owed ++ rows.map (·.id))
      | .error _ => .emitting owed
  | .emitting owed, ⟨w, .inl (.webhookQueueAdd id), env⟩ =>
      if (⟨w, .inl (.webhookQueueAdd id), env⟩ : WebhookCallEvent).fails webhookApi then
        .emitting owed
      else .emitting (owed.filter (· != id))
  | .emitting owed, _ => .emitting owed

def Attendant.isEmitting : Attendant → Prop
  | .emitting _ => True
  | .delivering _ => False

/-- The execution owes no job. -/
def Attendant.owesNone : Attendant → Prop
  | .emitting owed => owed = []
  | .delivering _ => True

/-- An execution owes the delivery a job. -/
def OwedBy (vs : List Attendant) (id : String) : Prop :=
  ∃ owed, Attendant.emitting owed ∈ vs ∧ id ∈ owed

section Owing

variable {pre post : List Attendant} {id : String}

/-- One emission owes other deliveries, this one still among them if it was. -/
theorem OwedBy.replaced {owed owed' : List String}
    (h : OwedBy (pre ++ .emitting owed :: post) id) (howed : id ∈ owed → id ∈ owed') :
    OwedBy (pre ++ .emitting owed' :: post) id := by
  obtain ⟨x, hmem, hid⟩ := h
  rcases List.mem_append.mp hmem with hmem | hmem
  · exact ⟨x, List.mem_append_left _ hmem, hid⟩
  · rcases List.mem_cons.mp hmem with heq | hmem
    · cases heq
      exact ⟨_, List.mem_append_right _ List.mem_cons_self, howed hid⟩
    · exact ⟨x, List.mem_append_right _ (List.mem_cons_of_mem _ hmem), hid⟩

/-- An execution that owes nothing is not the one that owes the job. -/
theorem OwedBy.left {v : Attendant} (h : OwedBy (pre ++ v :: post) id) (hv : v.owesNone) :
    OwedBy (pre ++ post) id := by
  obtain ⟨owed, hmem, hid⟩ := h
  refine ⟨owed, ?_, hid⟩
  rcases List.mem_append.mp hmem with hmem | hmem
  · exact List.mem_append_left _ hmem
  · rcases List.mem_cons.mp hmem with rfl | hmem
    · rw [show owed = [] from hv] at hid
      cases hid
    · exact List.mem_append_right _ hmem

end Owing

/-- The running backend, each execution with what it owes. -/
def attending (js : Builtins) (mayFail : World → Job String → Prop) :
    System WebhookApi World WebhookEnv WebhookOperation Attendant :=
  deliveries js mayFail attendantOf trackAttendant

instance (js : Builtins) (mayFail : World → Job String → Prop) (w : World)
    (op : WebhookOperation) : Decidable ((attending js mayFail).enabled w op) :=
  inferInstanceAs (Decidable (op.Enabled w))

/-! ## §2. The invariant. -/

/-- Every PENDING delivery has a job that waits, is delayed or is active. -/
def World.Unstranded (w : World) : Prop :=
  ∀ d ∈ w.hooks.deliveries, d.status = .PENDING → w.hooks.queue.Awaits d.id

/-- Jobs are those of deliveries, and a job has ended only with its delivery
settled. -/
structure Orderly (w : World) : Prop where
  named : w.hooks.queue.Named deliveryJobId
  ended : ∀ id, w.hooks.queue.Ended id → w.Settled id
  unstranded : w.Unstranded

/-- **The invariant**: every PENDING delivery has an unfinished job, or is owed
one. -/
structure Attended (w : World) (vs : List Attendant) : Prop where
  named : w.hooks.queue.Named deliveryJobId
  taken : ∀ job, Attendant.delivering job ∈ vs → job.id = deliveryJobId job.data
  ended : ∀ id, w.hooks.queue.Ended id → w.Settled id
  pending : ∀ d ∈ w.hooks.deliveries, d.status = .PENDING →
    w.hooks.queue.Awaits d.id ∨ OwedBy vs d.id

theorem Orderly.attended {w : World} (h : Orderly w) : Attended w [] where
  named := h.named
  taken job hjob := by cases hjob
  ended := h.ended
  pending d hd hst := .inl (h.unstranded d hd hst)

/-- Without a delivery and without a job. -/
theorem orderly_of_empty {w : World} (hrows : w.hooks.deliveries.rows = [])
    (hqueue : w.hooks.queue = {}) : Orderly w where
  named := by
    rw [hqueue]
    exact ⟨fun x hx => (nomatch hx), fun job hjob => (nomatch hjob)⟩
  ended id h := by
    rw [hqueue] at h
    obtain ⟨job, hjob, -⟩ := h
    cases hjob
  unstranded d hd := absurd hd (Table.not_mem_of_nil hrows d)

section Steps

variable {w : World} {vs pre post : List Attendant}

/-- An execution more that owes nothing. -/
theorem Attended.joined (h : Attended w vs) {v : Attendant}
    (hv : ∀ job, v = .delivering job → job.id = deliveryJobId job.data) :
    Attended w (vs ++ [v]) where
  named := h.named
  taken job hjob := by
    rcases List.mem_append.mp hjob with hjob | hjob
    · exact h.taken job hjob
    · exact hv job (List.mem_singleton.mp hjob).symm
  ended := h.ended
  pending d hd hst := by
    rcases h.pending d hd hst with hq | ⟨owed, hmem, hid⟩
    · exact .inl hq
    · exact .inr ⟨owed, List.mem_append_left _ hmem, hid⟩

/-- An execution less that owes nothing. -/
theorem Attended.left {v : Attendant} (h : Attended w (pre ++ v :: post)) (hv : v.owesNone) :
    Attended w (pre ++ post) where
  named := h.named
  taken job hjob := h.taken job (mem_others hjob)
  ended := h.ended
  pending d hd hst := (h.pending d hd hst).imp_right (fun howed => howed.left hv)

/-- Rows and jobs are what they were. -/
theorem Attended.unchanged (h : Attended w vs) {w' : World}
    (hrows : w'.hooks.deliveries = w.hooks.deliveries)
    (hqueue : w'.hooks.queue = w.hooks.queue) : Attended w' vs := by
  refine ⟨?_, h.taken, ?_, ?_⟩
  · rw [hqueue]
    exact h.named
  · unfold World.Settled
    rw [hrows, hqueue]
    exact h.ended
  · rw [hrows, hqueue]
    exact h.pending

/-- A job changes its phase. -/
theorem Attended.rephased (h : Attended w vs) (id : String) (phase : JobQueue.Phase) :
    Attended (w.withQueue (w.hooks.queue.setPhase id phase)) vs where
  named := h.named.setPhase id phase
  taken := h.taken
  ended := h.ended
  pending d hd hst := (h.pending d hd hst).imp_left JobQueue.Queue.awaits_setPhase.mpr

/-- **The rows of an emission are created**: it owes them. -/
theorem Attended.created {owed : List String} (h : Attended w (pre ++ .emitting owed :: post))
    {rows : List WebhookDelivery} {t : Table WebhookDelivery WebhookDelivery.Clash}
    (ht : insertAll w.hooks.deliveries rows = some t) :
    Attended { w with hooks := { w.hooks with deliveries := t } }
      (pre ++ .emitting (owed ++ rows.map (·.id)) :: post) where
  named := h.named
  taken job hjob := h.taken job (by simpa using hjob)
  ended id hid := by
    obtain ⟨d, hd, hd'⟩ := h.ended id hid
    exact ⟨d, (mem_insertAll ht).mpr (.inl hd), hd'⟩
  pending d hd hst := by
    rcases (mem_insertAll ht).mp hd with hd | hd
    · exact (h.pending d hd hst).imp_right (fun howed =>
        howed.replaced (List.mem_append_left _))
    · exact .inr ⟨_, List.mem_append_right _ List.mem_cons_self,
        List.mem_append_right _ (List.mem_map_of_mem hd)⟩

/-- **A job is added**: the row is no longer owed it. -/
theorem Attended.added {owed : List String} (h : Attended w (pre ++ .emitting owed :: post))
    (id : String) :
    Attended (w.withQueue (w.hooks.queue.add "deliver" id (some (deliveryJobId id))))
      (pre ++ .emitting (owed.filter (· != id)) :: post) where
  named := h.named.add "deliver" id
  taken job hjob := h.taken job (by simpa using hjob)
  ended x hx := h.ended x (JobQueue.Queue.ended_add.mp hx)
  pending d hd hst := by
    by_cases hid : d.id = id
    · -- the queue may have kept a finished job with the id, but then the row is settled
      rcases h.named.awaits_or_ended deliveryJobId_injective with hq | hend
      · left
        rw [hid]
        exact hq
      · rw [← hid] at hend
        exact absurd hst ((h.ended d.id hend).not_pending hd)
    · refine (h.pending d hd hst).imp (fun hq => hq.add) (fun howed => howed.replaced ?_)
      exact fun hmem => List.mem_filter.mpr ⟨hmem, by simpa using hid⟩

/-- A delivery is settled. -/
theorem Attended.updated (h : Attended w vs) {id : String} {data : WebhookDeliveryData}
    {old : WebhookDelivery} {t : Table WebhookDelivery WebhookDelivery.Clash}
    (hold : w.hooks.deliveries.find? (·.id == id) = some old)
    (ht : w.hooks.deliveries.update? (·.id == id) data.apply = some t)
    (hdata : data.status ≠ .PENDING) :
    Attended { w with hooks := { w.hooks with deliveries := t } } vs where
  named := h.named
  taken := h.taken
  ended x hx := (settled_update hold ht hdata x).mpr (.inl (h.ended x hx))
  pending d hd hst := by
    rcases Table.update_origin ht hd with hd | ⟨r, -, -, rfl⟩
    · exact h.pending d hd hst
    · exact absurd hst hdata

/-- **A job ends**, its delivery being settled. -/
theorem Attended.finished (h : Attended w vs) {job : Job String} {q : Queue String}
    (hfin : w.hooks.queue.Finishes job q) (hjob : job.id = deliveryJobId job.data)
    (hset : w.Settled job.data) : Attended (w.withQueue q) vs where
  named := hfin.named h.named hjob
  taken := h.taken
  ended x hx := by
    rcases hfin.ended hx with hx | rfl
    · exact h.ended x hx
    · exact hset
  pending d hd hst := by
    refine (h.pending d hd hst).imp_left (fun hq => ?_)
    refine hfin.awaits h.named deliveryJobId_injective hjob (fun hid => ?_) hq
    rw [← hid] at hset
    exact hset.not_pending hd hst

/-- A job is delayed for another attempt. -/
theorem Attended.retried (h : Attended w vs) {job : Job String}
    (hjob : job.id = deliveryJobId job.data)
    (hretry : job.attemptsMade + 1 < webhookJobOptions.attempts) :
    Attended (w.withQueue (w.hooks.queue.failAttempt webhookJobOptions job)) vs where
  named := h.named.failAttempt hjob hretry
  taken := h.taken
  ended x hx := by
    rw [World.withQueue, JobQueue.Queue.failAttempt_retry hretry] at hx
    exact h.ended x hx
  pending d hd hst := (h.pending d hd hst).imp_left
    (fun hq => hq.failAttempt h.named deliveryJobId_injective hjob hretry)

end Steps

/-! ## §3. Every execution attends to its jobs. -/

/-- No attempt follows this one. -/
def isLastAttempt (job : Job String) : Prop :=
  webhookJobOptions.attempts ≤ job.attemptsMade + 1

/-- An attempt that is answered so settles nothing: the look-up or the write of
FAILED is rejected, or an answer without success has a body that `String` does
not convert. -/
def abandons (js : Builtins) : (c : WebhookApi.Call) → WebhookApi.Response c → Bool
  | .inr (.webhookDeliveryFindUniqueOrThrow _), .error _ => true
  | .inr (.webhookDeliveryUpdate _ data), .error _ => data.status == .FAILED
  | .inr (.post _ _ _), .ok (.error err) => !(err.text js).isOk
  | _, _ => false

/-- **The condition on calls**: every `webhookQueue.add` is answered, and on the
last attempt of a job the look-up and the write of FAILED are, and so that
`String` converts the body, unless the delivery is settled already. -/
def JobsKept (js : Builtins) : Condition WebhookApi World WebhookEnv Attendant := fun v _ e =>
  match v, e.call with
  | .emitting _, .inl (.webhookQueueAdd _) => e.fails webhookApi = false
  | .delivering job, c =>
      abandons js c (webhookApi.serve c e.env e.before).1 = true → isLastAttempt job →
        e.before.Settled job.data
  | _, _ => True

/-- What every step keeps: a settled delivery stays settled. -/
def SettledKept (w w' : World) : Prop := ∀ id, w.Settled id → w'.Settled id

/-- BullMQ fails a stalled job only when its delivery is settled. -/
def settledOnly (w : World) (job : Job String) : Prop := w.Settled job.data

abbrev attends (js : Builtins) : Contract webhookApi Attendant :=
  interference (attending js settledOnly) (JobsKept js) Attended SettledKept

section Walks

variable {js : Builtins} {w : World} {owed : List String} {job : Job String}

/-- A call that settles no delivery anew and keeps the invariant. -/
theorem guarantee_of {v v' : Attendant} {e : WebhookCallEvent} (htrack : trackAttendant v e = v')
    (hkept : SettledKept e.before (e.after webhookApi))
    (h : ∀ pre post, Attended e.before (pre ++ v :: post) →
      Attended (e.after webhookApi) (pre ++ v' :: post)) : (attends js).guarantee v e := by
  subst htrack
  exact ⟨hkept, fun pre post hinv _ => h pre post hinv⟩

/-- A call that leaves deliveries and jobs as they are. -/
theorem guarantee_unchanged {v : Attendant} {e : WebhookCallEvent}
    (hrows : (e.after webhookApi).hooks.deliveries = e.before.hooks.deliveries)
    (hqueue : (e.after webhookApi).hooks.queue = e.before.hooks.queue)
    (hv : trackAttendant v e = v) : (attends js).guarantee v e := by
  refine guarantee_of hv (fun id hid => ?_) (fun pre post hinv => hinv.unchanged hrows hqueue)
  unfold World.Settled
  rw [hrows]
  exact hid

/-- A call that changes nothing. -/
theorem guarantee_same {v : Attendant} {e : WebhookCallEvent}
    (hafter : e.after webhookApi = e.before) (hv : trackAttendant v e = v) :
    (attends js).guarantee v e :=
  guarantee_unchanged (by rw [hafter]) (by rw [hafter]) hv

/-- A call of the services that leaves deliveries and jobs as they are. -/
theorem services_attend {v : Attendant} {c : Call}
    (hrows : ∀ env w, (api.serve c env w).2.hooks.deliveries = w.hooks.deliveries)
    (hqueue : ∀ env w, (api.serve c env w).2.hooks.queue = w.hooks.queue)
    (hv : ∀ w env, trackAttendant v ⟨w, .inl c, env⟩ = v) :
    Safe (attends js) (Prog.embed (Prog.perform c)) (fun _ _ v' => v' = v) w v := by
  rw [safe_embed_perform]
  intro w' env _ _
  exact ⟨guarantee_unchanged (hrows env.toEnv w') (hqueue env.toEnv w') (hv w' env), hv w' env⟩

/-- **Adding a job** is answered, and the row is no longer owed it. -/
theorem add_attends (id : String) :
    Safe (attends js) (Prog.embed (webhookQueue.add id))
      (fun r _ v => r = .ok () ∧ v = .emitting (owed.filter (· != id))) w (.emitting owed) := by
  unfold webhookQueue.add await
  rw [safe_embed_perform]
  intro w' env _ ha
  obtain ⟨pre, post, -, hkept⟩ := ha
  rcases serve_webhookQueueAdd id env.toEnv w' with ⟨err, h⟩ | h
  · -- the condition excludes the rejection
    have hanswered : (⟨w', .inl (.webhookQueueAdd id), env⟩ : WebhookCallEvent).fails webhookApi
        = false := hkept
    have herror : (webhookApi.serve (.inl (.webhookQueueAdd id)) env w').1 = .error err :=
      congrArg Prod.fst h
    rw [Event.fails_of_error herror] at hanswered
    cases hanswered
  · have htrack : trackAttendant (.emitting owed) ⟨w', .inl (.webhookQueueAdd id), env⟩
        = .emitting (owed.filter (· != id)) := by
      simp [trackAttendant, Event.fails, Event.response, webhookApi, Backend.extend, h]
    have hafter : Event.after webhookApi ⟨w', .inl (.webhookQueueAdd id), env⟩
        = w'.withQueue (w'.hooks.queue.add "deliver" id (some (deliveryJobId id))) :=
      congrArg Prod.snd h
    refine ⟨guarantee_of htrack ?_ ?_, congrArg Prod.fst h, htrack⟩
    · rw [hafter]
      exact fun x hx => hx
    · rw [hafter]
      exact fun pre post hinv => hinv.added id

/-- **Creating the rows**: the emission owes them, or there are none. -/
theorem rows_attend (eventId : String) (endpointIds : List String) :
    Safe (attends js) (Prog.embed (prisma.webhookDelivery.createAll eventId endpointIds))
      (fun r _ v => match r with
        | .ok rows => v = .emitting (rows.map (·.id))
        | .error _ => v = .emitting []) w (.emitting []) := by
  unfold prisma.webhookDelivery.createAll await
  rw [safe_embed_perform]
  intro w' env _ _
  rcases serve_webhookDeliveryCreateAll eventId endpointIds env.toEnv w'
    with ⟨err, h⟩ | ⟨rows, t, -, ht, h⟩
  · have hserve : webhookApi.serve (.inl (.webhookDeliveryCreateAll eventId endpointIds)) env w'
        = (.error err, w') := h
    have htrack : trackAttendant (.emitting [])
        ⟨w', .inl (.webhookDeliveryCreateAll eventId endpointIds), env⟩ = .emitting [] := by
      simp only [trackAttendant, hserve]
    refine ⟨guarantee_same (congrArg Prod.snd hserve) htrack, ?_⟩
    rw [hserve]
    exact htrack
  · have hserve : webhookApi.serve (.inl (.webhookDeliveryCreateAll eventId endpointIds)) env w'
        = (.ok rows, { w' with hooks := { w'.hooks with deliveries := t } }) := h
    have htrack : trackAttendant (.emitting [])
        ⟨w', .inl (.webhookDeliveryCreateAll eventId endpointIds), env⟩
          = .emitting (rows.map (·.id)) := by
      simp only [trackAttendant, hserve, List.nil_append]
    -- the new rows are PENDING, and this emission owes the job of each
    refine ⟨guarantee_of htrack ?_ ?_, ?_⟩
    · intro x hx
      exact settled_services _ _ hx
    · rw [Event.after, hserve]
      intro pre post hinv
      exact hinv.created ht
    · rw [hserve]
      exact htrack

/-- The jobs of the rows are added one after the other. -/
theorem adds_attend {rows : List WebhookDelivery} :
    ∀ {owed : List String} {w : World}, (∀ x ∈ owed, x ∈ rows.map (·.id)) →
      Safe (attends js) (Prog.embed (promiseAll (rows.map (fun d => webhookQueue.add d.id))))
        (fun _ _ v => v.owesNone) w (.emitting owed) := by
  induction rows with
  | nil => exact fun h => List.eq_nil_iff_forall_not_mem.mpr (fun x hx => nomatch h x hx)
  | cons d rows ih =>
      intro owed w howed
      rw [List.map_cons, promiseAll, Prog.embed_bind, safe_bind, Prog.embed_tryCatch,
        safe_tryCatch, Prog.embed_bind, safe_bind]
      apply (add_attends d.id).mono
      rintro _ w' _ ⟨rfl, rfl⟩
      show Safe (attends js) (Prog.embed (promiseAll _ >>= fun _ => pure ())) _ w' _
      rw [Prog.embed_bind, safe_bind]
      have hleft : ∀ x ∈ owed.filter (· != d.id), x ∈ rows.map (·.id) := by
        intro x hx
        obtain ⟨hmem, hne⟩ := List.mem_filter.mp hx
        rcases List.mem_cons.mp (howed x hmem) with rfl | hx
        · simp at hne
        · exact hx
      apply (ih hleft).mono
      intro r _ v hv
      cases r <;> exact hv

/-- **An emission ends owing nothing.** -/
theorem emission_attends (type : WebhookEventType) (paymentId : Option String)
    (payload : JavaScript.JsValue) :
    Safe (attends js) (Prog.embed (emitWebhookEvent type paymentId payload))
      (fun _ _ v => v.owesNone) w (.emitting []) := by
  unfold emitWebhookEvent
  rw [Prog.embed_bind, safe_bind]
  -- neither the query nor the creation of the event owes a job
  have hfind : Safe (attends js) (Prog.embed (prisma.webhookEndpoint.findMany type))
      (fun _ _ v => v = .emitting []) w (.emitting []) := by
    refine services_attend (fun env w => ?_) (fun env w => ?_) (fun _ _ => rfl) <;>
      rw [serve_read rfl]
  apply hfind.mono
  rintro r w₁ _ rfl
  cases r with
  | error err => rfl
  | ok endpoints =>
      show Safe (attends js) (Prog.embed (if endpoints.isEmpty then _ else _)) _ w₁ _
      split
      · -- no endpoint: nothing is owed
        rfl
      · rw [Prog.embed_bind, safe_bind]
        have hevent : Safe (attends js)
            (Prog.embed (prisma.webhookEvent.create type paymentId payload))
            (fun _ _ v => v = .emitting []) w₁ (.emitting []) := by
          refine services_attend (fun env w => ?_) (fun env w => ?_) (fun _ _ => rfl) <;>
            rcases serve_webhookEventCreate type paymentId payload env w
              with ⟨_, h⟩ | ⟨_, _, -, h⟩ <;>
              rw [h]
        apply hevent.mono
        rintro r w₂ _ rfl
        cases r with
        | error err => rfl
        | ok event =>
            show Safe (attends js) (Prog.embed (prisma.webhookDelivery.createAll event.id
              (endpoints.map (·.id)) >>= fun rows => promiseAll (rows.map _))) _ w₂ _
            rw [Prog.embed_bind, safe_bind]
            apply (rows_attend event.id (endpoints.map (·.id))).mono
            intro r w₃ v hr
            cases r with
            -- the transaction of the rows was rejected as a whole
            | error err =>
                rw [show v = _ from hr]
                rfl
            | ok rows =>
                rw [show v = _ from hr]
                -- each row that is committed now waits for its `add`
                exact adds_attend (fun x hx => hx)

/-- A call of the worker that leaves the world as it is. -/
theorem worker_attends {c : DeliveryCall}
    (hafter : ∀ env w, (webhookApi.serve (.inr c) env w).2 = w) :
    Safe (attends js) (awaitDelivery c)
      (fun r w v => v = .delivering job ∧ (abandons js (.inr c) r = true →
        isLastAttempt job → w.Settled job.data)) w (.delivering job) := by
  unfold awaitDelivery
  rw [safe_perform]
  intro w' env _ ha
  obtain ⟨pre, post, -, hkept⟩ := ha
  refine ⟨guarantee_same (hafter env w') rfl, rfl, fun hr hlast => ?_⟩
  rw [hafter]
  exact hkept hr hlast

/-- **A write that settles the delivery**; rejected on the last attempt, it has
found it settled if it is the write of FAILED. -/
theorem update_attends {data : WebhookDeliveryData} (hdata : data.status ≠ .PENDING) :
    Safe (attends js) (prisma.webhookDelivery.update job.data data)
      (fun r w v => v = .delivering job ∧ (r = .ok () → w.Settled job.data)
        ∧ ((∃ err, r = .error err) → data.status = .FAILED →
          isLastAttempt job → w.Settled job.data)) w (.delivering job) := by
  unfold prisma.webhookDelivery.update awaitDelivery
  rw [safe_perform]
  intro w' env _ ha
  obtain ⟨pre, post, -, hkept⟩ := ha
  rcases serve_webhookDeliveryUpdate job.data data env w' with ⟨err, h⟩ | ⟨old, t, hold, ht, h⟩
  · refine ⟨guarantee_same (congrArg Prod.snd h) rfl, rfl, ?_, ?_⟩
    · intro hr
      rw [h] at hr
      cases hr
    · intro _ hfailed hlast
      rw [h]
      refine hkept ?_ hlast
      dsimp only
      rw [h]
      exact beq_iff_eq.mpr hfailed
  · refine ⟨guarantee_of rfl ?_ ?_, rfl, ?_, ?_⟩
    · rw [Event.after, h]
      exact fun x hx => (settled_update hold ht hdata x).mpr (.inl hx)
    · rw [Event.after, h]
      exact fun pre post hinv => hinv.updated hold ht hdata
    · rw [h]
      exact fun _ => (settled_update hold ht hdata job.data).mpr (.inr rfl)
    · rintro ⟨err, hr⟩
      rw [h] at hr
      cases hr

/-- The body of the `try` returns without an error only when it has stored
DELIVERED, and with an answer that `String` converts unless another attempt
follows. -/
theorem attempt_attends (delivery : DeliveryWithEvent) (body signature : String) :
    Safe (attends js) (deliverWebhook.attempt js job.data delivery body signature)
      (fun r w v => v = .delivering job ∧ match r with
        | .ok none => w.Settled job.data
        | .ok (some err) => (err.text js).isOk = false → isLastAttempt job → w.Settled job.data
        | .error _ => True) w (.delivering job) := by
  unfold deliverWebhook.attempt axios.post
  rw [safe_bind]
  apply (worker_attends (fun env w => serve_post _ _ _ env w)).mono
  rintro r w₁ _ ⟨rfl, hanswer⟩
  cases r with
  | error err => exact ⟨rfl, trivial⟩
  | ok answer =>
      cases answer with
      -- no success: on the last attempt the body must convert
      | error err => exact ⟨rfl, fun htext => hanswer (by simp [abandons, htext])⟩
      | ok res =>
          show Safe (attends js) (Prog.evaluate (js.string res.data) >>= _) _ w₁ _
          rw [safe_bind, safe_evaluate]
          cases js.string res.data with
          | error err => exact ⟨rfl, trivial⟩
          | ok text =>
              show Safe (attends js) (dateNow.embed >>= _) _ w₁ _
              rw [safe_bind]
              have hnow : Safe (attends js) dateNow.embed (fun _ _ v => v = .delivering job) w₁
                  (.delivering job) := by
                refine services_attend (fun env w => ?_) (fun env w => ?_) (fun _ _ => rfl) <;>
                  rw [serve_read rfl]
              apply hnow.mono
              rintro r w₂ _ rfl
              cases r with
              | error err => exact ⟨rfl, trivial⟩
              | ok now =>
                  show Safe (attends js) (prisma.webhookDelivery.update job.data _ >>= _) _ w₂ _
                  rw [safe_bind]
                  -- DELIVERED settles the row
                  apply (update_attends (by simp)).mono
                  rintro r w₃ _ ⟨rfl, hok, -⟩
                  cases r with
                  | error err => exact ⟨rfl, trivial⟩
                  | ok _ => exact ⟨rfl, hok rfl⟩

/-- What is known when an attempt is over: the delivery is settled, or the
attempt has thrown and is not the last one. -/
def Attempted (job : Job String) : Post WebhookApi World Attendant Unit := fun r w v =>
  v = .delivering job
    ∧ (w.Settled job.data ∨ (∃ err, r = .error err) ∧ ¬ isLastAttempt job)

theorem attempted_of_error {err : Thrown} (h : isLastAttempt job → w.Settled job.data) :
    Attempted job (.error err) w (.delivering job) := by
  refine ⟨rfl, ?_⟩
  by_cases hlast : isLastAttempt job
  · exact .inl (h hlast)
  · exact .inr ⟨⟨err, rfl⟩, hlast⟩

/-- The `catch` block: FAILED is stored, or the attempt is not the last one. -/
theorem recordFailure_attends {err : AxiosError}
    (h : (err.text js).isOk = false → isLastAttempt job → w.Settled job.data) :
    Safe (attends js) (deliverWebhook.recordFailure js job.data err) (Attempted job) w
      (.delivering job) := by
  unfold deliverWebhook.recordFailure
  rw [safe_bind, safe_evaluate]
  cases htext : err.text js with
  | error thrown => exact attempted_of_error (h (by rw [htext]; rfl))
  | ok text =>
      show Safe (attends js) (prisma.webhookDelivery.update job.data _ >>= _) _ w _
      rw [safe_bind]
      apply (update_attends (by simp)).mono
      rintro r w' _ ⟨rfl, hok, herr⟩
      cases r with
      | ok _ => exact ⟨rfl, .inl (hok rfl)⟩
      | error err => exact attempted_of_error (herr ⟨err, rfl⟩ rfl)

/-- **`deliverWebhook` settles its delivery**, unless it throws and is tried
again. -/
theorem deliverWebhook_attends :
    Safe (attends js) (deliverWebhook js job.data) (Attempted job) w (.delivering job) := by
  unfold deliverWebhook prisma.webhookDelivery.findUniqueOrThrow
  rw [safe_bind]
  apply (worker_attends (serve_webhookDeliveryFindUniqueOrThrow job.data)).mono
  rintro r w₁ _ ⟨rfl, hfound⟩
  cases r with
  | error err => exact attempted_of_error (hfound rfl)
  | ok delivery =>
      show Safe (attends js) (tryCatch (deliverWebhook.attempt js job.data delivery _ _) _ >>= _)
        _ w₁ _
      rw [safe_bind, safe_tryCatch]
      apply (attempt_attends delivery _ _).mono
      rintro r w₂ _ ⟨rfl, hdone⟩
      cases r with
      | error err =>
          refine recordFailure_attends (fun htext => ?_)
          rw [AxiosError.text_message] at htext
          cases htext
      | ok failure =>
          cases failure with
          | none => exact ⟨rfl, .inl hdone⟩
          | some err => exact recordFailure_attends hdone

/-- Completing the job of a settled delivery. -/
theorem moveToCompleted_attends (h : w.Settled job.data) :
    Safe (attends js) (webhookQueue.moveToCompleted job)
      (fun _ w v => v = .delivering job ∧ w.Settled job.data) w (.delivering job) := by
  unfold webhookQueue.moveToCompleted awaitDelivery
  rw [safe_perform]
  intro w' env hr _
  have hset : w'.Settled job.data := hr _ h
  rcases serve_moveToCompleted job env w' with ⟨err, hserve⟩ | hserve
  · refine ⟨guarantee_same (congrArg Prod.snd hserve) rfl, rfl, ?_⟩
    rw [hserve]
    exact hset
  · refine ⟨guarantee_of rfl ?_ ?_, rfl, ?_⟩
    · rw [Event.after, hserve]
      exact fun x hx => hx
    · rw [Event.after, hserve]
      intro pre post hinv
      exact hinv.finished JobQueue.Queue.finishes_complete (hinv.taken job (by simp)) hset
    · rw [hserve]
      exact hset

/-- Failing an attempt that is not the last one, or whose delivery is settled. -/
theorem moveToFailed_attends (h : w.Settled job.data ∨ ¬ isLastAttempt job) :
    Safe (attends js) (webhookQueue.moveToFailed job) (fun _ _ v => v.owesNone) w
      (.delivering job) := by
  unfold webhookQueue.moveToFailed awaitDelivery
  rw [safe_perform]
  intro w' env hr _
  rcases serve_moveToFailed job env w' with ⟨err, hserve⟩ | hserve
  · exact ⟨guarantee_same (congrArg Prod.snd hserve) rfl, trivial⟩
  · refine ⟨guarantee_of rfl ?_ ?_, trivial⟩
    · rw [Event.after, hserve]
      exact fun x hx => hx
    · rw [Event.after, hserve]
      intro pre post hinv
      have hjob := hinv.taken job (by simp)
      by_cases hlast : isLastAttempt job
      · -- the job fails for good
        have hset : w'.Settled job.data := hr _ (h.resolve_right (fun hn => hn hlast))
        rw [JobQueue.Queue.failAttempt_last hlast]
        exact hinv.finished JobQueue.Queue.finishes_fail hjob hset
      · exact hinv.retried hjob (Nat.lt_of_not_le hlast)

/-- **The job is completed, or fails, as its delivery admits.** -/
theorem delivery_attends :
    Safe (attends js) (webhookWorker.run js job) (fun _ _ v => v.owesNone) w
      (.delivering job) := by
  unfold webhookWorker.run webhookWorker
  rw [safe_tryCatch, safe_bind]
  apply deliverWebhook_attends.mono
  rintro r w₁ _ ⟨rfl, hdone⟩
  cases r with
  | error err => exact moveToFailed_attends (hdone.imp_right (fun h => h.2))
  | ok _ =>
      have hset : w₁.Settled job.data := hdone.resolve_right (fun h => by
        obtain ⟨⟨_, h⟩, -⟩ := h
        cases h)
      apply (moveToCompleted_attends hset).mono
      rintro r w₂ _ ⟨rfl, hset⟩
      cases r with
      | ok _ => trivial
      | error err => exact moveToFailed_attends (.inl hset)

end Walks

/-! ## §4. Every run. -/

def attendance (js : Builtins) : Discipline (attending js settledOnly) (JobsKept js) where
  inv := Attended
  rely := SettledKept
  ended v := v.owesNone
  rely_refl _ _ h := h
  rely_trans _ _ _ h h' x hx := h' x (h x hx)
  start w vs op hinv hen := by
    cases op with
    | emitWebhookEvent type paymentId payload =>
        exact ⟨hinv.joined (fun _ h => by cases h), emission_attends type paymentId payload⟩
    | deliver job =>
        obtain ⟨phase, hmem⟩ := hen
        refine ⟨hinv.joined (fun job' h => ?_), delivery_attends⟩
        cases h
        exact hinv.named.unfinished _ hmem
  leave w pre v post hv hinv := hinv.left hv
  drift w w' vs hd hinv := by
    cases hd with
    | phase id phase => exact ⟨hinv.rephased id phase, fun x hx => hx⟩
    | stalled job hmem hset =>
        exact ⟨hinv.finished JobQueue.Queue.finishes_fail (hinv.named.unfinished _ hmem) hset,
          fun x hx => hx⟩

/-- **No delivery is stranded** in any run of emissions and attempts,
interleaved call by call and stopped between two calls, in which every
`webhookQueue.add` is answered, no emission stops while it owes a job, and a
job ends unsuccessfully (its last attempt rejected at the look-up or at the
write of FAILED, or answered without success and with a body that `String` does
not convert, or its process stalled too often) only with its delivery settled:
with no emission in flight every PENDING delivery has a job that waits, is
delayed or is active. -/
theorem no_delivery_stranded (js : Builtins) (w₀ : World) (hw₀ : Orderly w₀)
    (P : Pool WebhookApi World Attendant)
    (h : Pool.Moves (attending js settledOnly) (JobsKept js) Attendant.owesNone ⟨w₀, []⟩ P)
    (hidle : ∀ t ∈ P.threads, ¬ t.view.isEmitting) : P.world.Unstranded := by
  have hsound : (attendance js).Sound P :=
    Discipline.run_stopping (D := attendance js) h (Discipline.sound_idle hw₀.attended)
  intro d hd hst
  rcases hsound.1.pending d hd hst with hq | ⟨owed, hmem, -⟩
  · exact hq
  · obtain ⟨t, ht, hview⟩ := List.mem_map.mp hmem
    exact absurd (by rw [hview]; trivial) (hidle t ht)

/-! ## §5. Scenarios. -/

section Scenarios

open Shop

/-- The row `"delivery"` is PENDING. -/
def hasPending (w : World) : Bool :=
  (w.hooks.deliveries.find? (·.id == "delivery")).any (·.status == .PENDING)

theorem hasPending_sound {w : World} (h : hasPending w = true) :
    ∃ d ∈ w.hooks.deliveries, d.status = .PENDING := by
  obtain ⟨d, hd, hst⟩ := (Option.any_eq_true _ _).mp h
  exact ⟨d, (Table.find?_mem hd).1, beq_iff_eq.mp hst⟩

/-- An emission whose calls are answered, up to the last one. -/
def emission (last : Env) : List (Choice WebhookOperation WebhookEnv) :=
  [.start (.emitWebhookEvent .PAYMENT_SUCCESS none (.object [])), .act 0 { toEnv := on 0 },
   .act 0 { toEnv := fresh 0 "event" }, .act 0 { toEnv := fresh 0 "delivery" },
   .act 0 { toEnv := last }]

/-- **The row is committed and its job is not added.** -/
theorem delivery_stranded :
    ¬ ∀ (js : Builtins) (w₀ : World) (P : Pool WebhookApi World Attendant), Orderly w₀ →
      Pool.Moves (attending js (fun _ _ => True)) anyone (fun _ => True) ⟨w₀, []⟩ P →
      (∀ t ∈ P.threads, ¬ t.view.isEmitting) → P.world.Unstranded := by
  intro hclaim
  have hrun : (Pool.advance (attending onEvent (fun _ _ => True)) (fun _ _ _ => true)
      (emission (rejected 0)) ⟨registered, []⟩).map (fun P =>
        (P.threads.isEmpty, hasPending P.world, P.world.hooks.queue.unfinished.isEmpty))
        = some (true, true, true) := by
    decide +kernel
  obtain ⟨P, hP, hres⟩ := Option.map_eq_some_iff.mp hrun
  simp only [Prod.mk.injEq] at hres
  obtain ⟨hthreads, hrow, hqueue⟩ := hres
  have h : Pool.Run (attending onEvent (fun _ _ => True)) anyone ⟨registered, []⟩ P :=
    Pool.advance_run (fun _ _ _ _ => trivial) hP
  have hstranded := hclaim onEvent registered P (orderly_of_empty rfl rfl) h.moves (by
    rw [List.isEmpty_iff.mp hthreads]
    exact fun t ht => nomatch ht)
  obtain ⟨d, hd, hst⟩ := hasPending_sound hrow
  obtain ⟨x, hx, -⟩ := hstranded d hd hst
  rw [List.isEmpty_iff.mp hqueue] at hx
  cases hx

/-- `JobsKept` as a test; no delivery is taken to be settled. -/
def jobsKept (v : Attendant) (_ : List Attendant) (e : WebhookCallEvent) : Bool :=
  match v, e.call with
  | .emitting _, .inl (.webhookQueueAdd _) => !e.fails webhookApi
  | .delivering job, c =>
      !abandons onEvent c (webhookApi.serve c e.env e.before).1
        || decide (job.attemptsMade + 1 < webhookJobOptions.attempts)
  | _, _ => true

theorem jobsKept_sound (v : Attendant) (vs : List Attendant) (e : WebhookCallEvent)
    (h : jobsKept v vs e = true) : JobsKept onEvent v vs e := by
  obtain ⟨w, c, env⟩ := e
  cases v with
  | emitting owed =>
      cases c with
      | inl c =>
          cases c with
          | webhookQueueAdd id => simpa [jobsKept, JobsKept] using h
          | _ => trivial
      | inr c => trivial
  | delivering job =>
      intro habandons hlast
      have hretry : job.attemptsMade + 1 < webhookJobOptions.attempts := by
        unfold jobsKept at h
        dsimp only at h habandons
        rw [habandons, Bool.not_true, Bool.false_or] at h
        exact of_decide_eq_true h
      exact absurd hlast (Nat.not_le_of_lt hretry)

/-- The endpoint answers 500, with a body that `String` does not convert. -/
def refusedWithout : WebhookEnv :=
  { toEnv := on 1, response := some ⟨500, .object [("toString", .null)]⟩ }

/-- The emission is answered; the first attempt cannot look its delivery up, and
the second one cannot record what it is answered. -/
def lookupRejected : List (Choice WebhookOperation WebhookEnv) :=
  emission (on 0) ++ [.start (.deliver ⟨"webhook:delivery", "deliver", "delivery", 0⟩),
    .act 0 { toEnv := rejected 1 }, .act 0 { toEnv := on 1 },
    .start (.deliver ⟨"webhook:delivery", "deliver", "delivery", 1⟩),
    .act 0 { toEnv := on 1 }, .act 0 refusedWithout, .act 0 { toEnv := on 1 }]

theorem no_delivery_stranded_lookupRejected :
    ∃ P, Pool.Moves (attending onEvent settledOnly) (JobsKept onEvent) Attendant.owesNone
        ⟨registered, []⟩ P
      ∧ (∃ d ∈ P.world.hooks.deliveries, d.status = .PENDING) ∧ P.world.Unstranded := by
  have hrun : (Pool.advance (attending onEvent settledOnly) jobsKept lookupRejected
      ⟨registered, []⟩).map (fun P => (P.threads.isEmpty, hasPending P.world))
        = some (true, true) := by
    decide +kernel
  obtain ⟨P, hP, hres⟩ := Option.map_eq_some_iff.mp hrun
  simp only [Prod.mk.injEq] at hres
  obtain ⟨hthreads, hrow⟩ := hres
  have h : Pool.Run (attending onEvent settledOnly) (JobsKept onEvent) ⟨registered, []⟩ P :=
    Pool.advance_run jobsKept_sound hP
  refine ⟨P, h.moves, hasPending_sound hrow,
    no_delivery_stranded onEvent registered (orderly_of_empty rfl rfl) P h.moves ?_⟩
  rw [List.isEmpty_iff.mp hthreads]
  exact fun t ht => nomatch ht

end Scenarios

end Sorobill
