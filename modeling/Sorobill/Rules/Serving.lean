/-
  Sorobill.Rules.Serving
  ──────────────────────
  **WHAT EACH CALL DOES TO THE WORLD.**

    • `Call.region` — the part of the world a call may write;
      `after_subscriptions` and its siblings: every other part is unchanged;
    • `after_of_error` — a call that rejects changes nothing;
    • `serve_subscriptionUpdate`, `serve_paymentUpdate`, … — the possible
      outcomes of one call, an error or the written row;
    • `sub?_update`, `payment?_update` — what lookups see after a write.
-/
import Sorobill.Model.Operations

namespace Sorobill

open Relational
open Effect (Event)

/-! ## §1. Lookups. -/

/-- The subscription with this id. -/
def World.sub? (w : World) (id : String) : Option Subscription :=
  w.subscriptions.find? (·.id == id)

/-- The payment with this id. -/
def World.payment? (w : World) (id : String) : Option Payment :=
  w.payments.find? (·.id == id)

/-- The payment with this idempotency key. -/
def World.paymentByKey? (w : World) (key : String) : Option Payment :=
  w.payments.find? (·.idempotencyKey == key)

/-- The transactions for this key that were applied as Paid. -/
def World.paidFor (w : World) (key : String) : Nat :=
  w.chain.countP (fun tx => tx.issuedFor == key && tx.applied == some .Paid)

theorem sub?_eq_some {w : World} {id : String} {s : Subscription} :
    w.sub? id = some s ↔ s ∈ w.subscriptions ∧ s.id = id := by
  unfold World.sub?
  rw [Table.find?_eq_some_iff, beq_iff_eq]
  intro a b ha hb
  exact (beq_iff_eq.mp ha).trans (beq_iff_eq.mp hb).symm

theorem payment?_eq_some {w : World} {id : String} {p : Payment} :
    w.payment? id = some p ↔ p ∈ w.payments ∧ p.id = id := by
  unfold World.payment?
  rw [Table.find?_eq_some_iff, beq_iff_eq]
  intro a b ha hb
  exact .inl ((beq_iff_eq.mp ha).trans (beq_iff_eq.mp hb).symm)

theorem paymentByKey?_eq_some {w : World} {key : String} {p : Payment} :
    w.paymentByKey? key = some p ↔ p ∈ w.payments ∧ p.idempotencyKey = key := by
  unfold World.paymentByKey?
  rw [Table.find?_eq_some_iff, beq_iff_eq]
  intro a b ha hb
  exact .inr (.inl ((beq_iff_eq.mp ha).trans (beq_iff_eq.mp hb).symm))

theorem paidFor_append (w : World) (tx : Tx) (key : String) :
    ({ w with chain := w.chain ++ [tx] } : World).paidFor key
      = w.paidFor key + if tx.issuedFor = key ∧ tx.applied = some .Paid then 1 else 0 := by
  unfold World.paidFor
  simp only [List.countP_append, List.countP_singleton, Bool.and_eq_true, beq_iff_eq]

theorem sub?_id {w : World} {id : String} {s : Subscription} (h : w.sub? id = some s) :
    s.id = id := (sub?_eq_some.mp h).2

/-- The rows that a query selects have distinct ids. -/
theorem selected_nodup {w : World} {p : Subscription → Bool} {rows : List Subscription}
    (hperm : rows.Perm (w.subscriptions.filter p)) : (rows.map (·.id)).Nodup := by
  have hdistinct : (w.subscriptions.rows.map (·.id)).Nodup :=
    List.pairwise_map.mpr w.subscriptions.distinct
  have hsub : (w.subscriptions.filter p).Sublist w.subscriptions.rows := List.filter_sublist
  exact ((hperm.map _).nodup_iff).mpr (hdistinct.sublist (hsub.map _))

/-! ## §2. The part of the world a call may write. -/

inductive Region where
  | nothing
  | wallets
  | subscriptions
  | payments
  | hooks
  | billingQueue
  | chain
  deriving DecidableEq

def Call.region : Call → Region
  | .dateNow => .nothing
  | .planFindUnique _ => .nothing
  | .walletUpsert _ => .wallets
  | .subscriptionFindUnique _ => .nothing
  | .subscriptionFindUniqueWithPlan _ => .nothing
  | .subscriptionFindMany _ => .nothing
  | .subscriptionCreate _ => .subscriptions
  | .subscriptionUpdate _ _ => .subscriptions
  | .paymentFindUnique _ => .nothing
  | .paymentCreate _ => .payments
  | .paymentUpdate _ _ => .payments
  | .paymentUpdateMany _ _ _ => .payments
  | .webhookEndpointFindMany _ => .nothing
  | .webhookEventCreate _ _ _ => .hooks
  | .webhookDeliveryCreateAll _ _ => .hooks
  | .webhookQueueAdd _ => .hooks
  | .billingQueueAdd _ _ _ => .billingQueue
  | .getAccount _ => .nothing
  | .simulateTransaction _ => .nothing
  | .sendTransaction _ _ => .chain
  | .awaitTransaction _ => .nothing
  | .loadAccount _ => .nothing
  | .submitTransaction _ _ _ _ _ => .nothing

/-- A world that differs from `w` in one region only. -/
inductive ChangedIn (w : World) : Region → World → Prop where
  | nothing : ChangedIn w .nothing w
  | wallets (t) : ChangedIn w .wallets { w with wallets := t }
  | subscriptions (t) : ChangedIn w .subscriptions { w with subscriptions := t }
  | payments (t s) : ChangedIn w .payments { w with payments := t, successes := s }
  | hooks (h) : ChangedIn w .hooks { w with hooks := h }
  | billingQueue (q) : ChangedIn w .billingQueue { w with billingQueue := q }
  | chain (c) : ChangedIn w .chain { w with chain := c }

theorem ChangedIn.same {w : World} (r : Region) : ChangedIn w r w := by
  cases r with
  | nothing => exact .nothing
  | wallets => exact .wallets w.wallets
  | subscriptions => exact .subscriptions w.subscriptions
  | payments => exact .payments w.payments w.successes
  | hooks => exact .hooks w.hooks
  | billingQueue => exact .billingQueue w.billingQueue
  | chain => exact .chain w.chain

theorem updateSubscription_changed (w : World) (now : Instant) (id : String)
    (data : SubscriptionData) :
    ChangedIn w .subscriptions (w.updateSubscription now id data).2 := by
  unfold World.updateSubscription
  split
  · split
    · exact .same _
    · split
      · exact .same _
      · exact .subscriptions _
  · exact .same _

theorem updatePayment_changed (w : World) (now : Instant) (id : String) (data : PaymentData) :
    ChangedIn w .payments (w.updatePayment now id data).2 := by
  unfold World.updatePayment
  split
  · split
    · exact .same _
    · split
      · exact .same _
      · exact .payments _ _
  · exact .same _

theorem updatePayments_changed (w : World) (id : String) (status : PaymentStatus)
    (data : PaymentData) : ChangedIn w .payments (w.updatePayments id status data).2 := by
  unfold World.updatePayments
  split
  · split
    · exact .same _
    · exact .payments _ w.successes
  · exact .same _

theorem createPayment_changed (w : World) (id : String) (data : PaymentCreate) :
    ChangedIn w .payments (w.createPayment id data).2 := by
  unfold World.createPayment
  dsimp only
  split
  · exact .same _
  · exact .payments _ w.successes

theorem createSubscription_changed (w : World) (now : Instant) (id : String)
    (data : SubscriptionCreate) :
    ChangedIn w .subscriptions (w.createSubscription now id data).2 := by
  unfold World.createSubscription
  split
  · dsimp only
    split
    · exact .same _
    · exact .subscriptions _
  · dsimp only
    split
    · exact .same _
    · exact .subscriptions _
  · exact .same _

theorem answer_changed (w : World) (env : Env) (c : Call) :
    ChangedIn w c.region (w.answer env c).2 := by
  cases c with
  | walletUpsert address =>
      unfold World.answer
      dsimp only
      split
      · exact .same _
      · split
        · exact .same _
        · exact .wallets _
  | subscriptionCreate data => exact createSubscription_changed w env.now _ data
  | subscriptionUpdate id data => exact updateSubscription_changed w env.now id data
  | paymentCreate data => exact createPayment_changed w _ data
  | paymentUpdate id data => exact updatePayment_changed w _ id data
  | paymentUpdateMany id status data => exact updatePayments_changed w id status data
  | webhookEventCreate type paymentId payload =>
      unfold World.answer
      dsimp only
      split
      · exact .same _
      · exact .hooks _
  | webhookDeliveryCreateAll eventId endpointIds =>
      unfold World.answer
      dsimp only
      split
      · exact .same _
      · split
        · exact .hooks _
        · exact .same _
  | webhookQueueAdd deliveryId => exact .hooks _
  | billingQueueAdd name subscriptionId jobId => exact .billingQueue _
  | sendTransaction issuedFor invocation =>
      unfold World.answer
      dsimp only
      split
      · exact .same _
      · exact .chain _
      · exact .same _
  | getAccount publicKey =>
      unfold World.answer
      dsimp only
      split <;> exact .nothing
  | simulateTransaction invocation =>
      unfold World.answer
      dsimp only
      split <;> exact .nothing
  | awaitTransaction hash =>
      unfold World.answer
      dsimp only
      split <;> exact .nothing
  | loadAccount publicKey =>
      unfold World.answer
      dsimp only
      split <;> exact .nothing
  | submitTransaction destination amount assetCode assetIssuer memo =>
      unfold World.answer
      dsimp only
      split <;> exact .nothing
  | dateNow => exact .nothing
  | planFindUnique id => exact .nothing
  | subscriptionFindUnique id => exact .nothing
  | subscriptionFindUniqueWithPlan id => exact .nothing
  | subscriptionFindMany condition => exact .nothing
  | paymentFindUnique key => exact .nothing
  | webhookEndpointFindMany type => exact .nothing

/-- **A call writes its own region only.** -/
theorem serve_changed (c : Call) (env : Env) (w : World) :
    ChangedIn w c.region (api.serve c env w).2 := by
  unfold api
  dsimp only
  split
  · exact .same _
  · exact answer_changed w env c

section Frames

variable {w w' : World} {r : Region}

theorem ChangedIn.plans_eq (h : ChangedIn w r w') : w'.plans = w.plans := by
  cases h <;> rfl

theorem ChangedIn.subscriptions_eq (h : ChangedIn w r w') (hr : r ≠ .subscriptions) :
    w'.subscriptions = w.subscriptions := by
  cases h <;> first | rfl | exact absurd rfl hr

theorem ChangedIn.payments_eq (h : ChangedIn w r w') (hr : r ≠ .payments) :
    w'.payments = w.payments ∧ w'.successes = w.successes := by
  cases h <;> first | exact ⟨rfl, rfl⟩ | exact absurd rfl hr

theorem ChangedIn.billingQueue_eq (h : ChangedIn w r w') (hr : r ≠ .billingQueue) :
    w'.billingQueue = w.billingQueue := by
  cases h <;> first | rfl | exact absurd rfl hr

theorem ChangedIn.chain_eq (h : ChangedIn w r w') (hr : r ≠ .chain) :
    w'.chain = w.chain := by
  cases h <;> first | rfl | exact absurd rfl hr

theorem ChangedIn.hooks_eq (h : ChangedIn w r w') (hr : r ≠ .hooks) :
    w'.hooks = w.hooks := by
  cases h <;> first | rfl | exact absurd rfl hr

theorem ChangedIn.wallets_eq (h : ChangedIn w r w') (hr : r ≠ .wallets) :
    w'.wallets = w.wallets := by
  cases h <;> first | rfl | exact absurd rfl hr

theorem ChangedIn.nothing_eq (h : ChangedIn w .nothing w') : w' = w := by
  cases h
  rfl

end Frames

/-! ## §3. Outcomes of single calls. -/

section Outcomes

variable {env : Env} {w : World}

/-- A call is rejected, with no effect, or it is answered. -/
theorem serve_cases (c : Call) (env : Env) (w : World) :
    (∃ message, env.rejects = some message
        ∧ api.serve c env w = (.error (.error message), w))
      ∨ (env.rejects = none ∧ api.serve c env w = w.answer env c) := by
  unfold api
  dsimp only
  cases env.rejects with
  | some message => exact .inl ⟨message, rfl, rfl⟩
  | none => exact .inr ⟨rfl, rfl⟩

/-- A call is answered, or it has no effect. -/
theorem answered_or_same (w : World) (env : Env) (c : Call) :
    (∃ a, (w.answer env c).1 = .ok a) ∨ (w.answer env c).2 = w := by
  cases c with
  | webhookQueueAdd deliveryId => exact .inl ⟨(), rfl⟩
  | billingQueueAdd name subscriptionId jobId => exact .inl ⟨(), rfl⟩
  | _ =>
      -- the others write only in the branch in which they answer
      simp only [World.answer, World.createSubscription, World.updateSubscription,
        World.createPayment, World.updatePayment, World.updatePayments]
      (repeat' split) <;> first | exact .inl ⟨_, rfl⟩ | exact .inr rfl

/-- **A call that rejects changes nothing.** -/
theorem after_of_error {c : Call} {env : Env} {w : World} {err : Thrown}
    (h : (api.serve c env w).1 = .error err) : (api.serve c env w).2 = w := by
  rcases serve_cases c env w with ⟨message, -, hs⟩ | ⟨-, hs⟩
  · rw [hs]
  · rw [hs] at h ⊢
    rcases answered_or_same w env c with ⟨a, ha⟩ | hsame
    · -- it was answered after all
      rw [ha] at h
      cases h
    · exact hsame

/-- The event was answered with an error. -/
def isRejected (e : CallEvent) : Bool :=
  match e.response api with
  | .ok _ => false
  | .error _ => true

/-- A call that is rejected leaves the world as it is. -/
theorem after_of_isRejected {e : CallEvent} (h : isRejected e = true) :
    e.after api = e.before := by
  unfold isRejected at h
  split at h
  next => cases h
  next err herr => exact after_of_error herr

theorem isRejected_of_error {c : Call} {env : Env} {w : World} {err : Thrown}
    (h : (api.serve c env w).1 = .error err) : isRejected ⟨w, c, env⟩ = true := by
  unfold isRejected Event.response
  rw [show (api.serve c env w).1 = .error err from h]

theorem isRejected_of_ok {c : Call} {env : Env} {w : World} {r : c.Reply}
    (h : (api.serve c env w).1 = .ok r) : isRejected ⟨w, c, env⟩ = false := by
  unfold isRejected Event.response
  rw [show (api.serve c env w).1 = .ok r from h]

/-- A call is rejected with no effect, or its answer is the one computed. -/
theorem serve_answered {c : Call} {env : Env} {w : World} {s : Except Thrown c.Reply × World}
    (h : w.answer env c = s) :
    (∃ err, api.serve c env w = (.error err, w)) ∨ api.serve c env w = s := by
  rcases serve_cases c env w with ⟨message, -, hs⟩ | ⟨-, hs⟩
  · exact .inl ⟨_, hs⟩
  · exact .inr (hs.trans h)

theorem serve_dateNow (env : Env) (w : World) :
    (∃ err, api.serve .dateNow env w = (.error err, w))
      ∨ api.serve .dateNow env w = (.ok env.now, w) :=
  serve_answered rfl

theorem serve_planFindUnique (id : String) (env : Env) (w : World) :
    (∃ err, api.serve (.planFindUnique id) env w = (.error err, w))
      ∨ api.serve (.planFindUnique id) env w = (.ok (w.plans.find? (·.id == id)), w) :=
  serve_answered rfl

theorem serve_subscriptionFindUnique (id : String) (env : Env) (w : World) :
    (∃ err, api.serve (.subscriptionFindUnique id) env w = (.error err, w))
      ∨ api.serve (.subscriptionFindUnique id) env w = (.ok (w.sub? id), w) :=
  serve_answered rfl

theorem serve_subscriptionFindUniqueWithPlan (id : String) (env : Env) (w : World) :
    (∃ err, api.serve (.subscriptionFindUniqueWithPlan id) env w = (.error err, w))
      ∨ api.serve (.subscriptionFindUniqueWithPlan id) env w
          = (.ok ((w.sub? id).bind w.withPlan), w) :=
  serve_answered rfl

theorem serve_paymentFindUnique (key : PaymentKey) (env : Env) (w : World) :
    (∃ err, api.serve (.paymentFindUnique key) env w = (.error err, w))
      ∨ api.serve (.paymentFindUnique key) env w
          = (.ok (w.payments.find? key.selects), w) :=
  serve_answered rfl

theorem serve_subscriptionFindMany (cond : SubscriptionWhere) (env : Env) (w : World) :
    (∃ err, api.serve (.subscriptionFindMany cond) env w = (.error err, w))
      ∨ ∃ rows, api.serve (.subscriptionFindMany cond) env w = (.ok rows, w)
          ∧ rows.Perm (w.subscriptions.filter cond.selects) := by
  rcases serve_cases (.subscriptionFindMany cond) env w with ⟨_, -, h⟩ | ⟨-, h⟩
  · exact .inl ⟨_, h⟩
  · refine .inr ⟨_, h, ?_⟩
    unfold arrange
    split
    · assumption
    · exact .refl _

theorem found_of_read {id : String} {found : Option SubscriptionWithPlan}
    (h : (api.serve (.subscriptionFindUniqueWithPlan id) env w).1 = .ok found) :
    found = (w.sub? id).bind w.withPlan := by
  rcases serve_subscriptionFindUniqueWithPlan id env w with ⟨err, hs⟩ | hs
  · rw [hs] at h
    cases h
  · rw [hs] at h
    exact (Except.ok.inj h).symm

theorem existing_of_read {key : PaymentKey} {existing : Option Payment}
    (h : (api.serve (.paymentFindUnique key) env w).1 = .ok existing) :
    existing = w.payments.find? key.selects := by
  rcases serve_paymentFindUnique key env w with ⟨err, hs⟩ | hs
  · rw [hs] at h
    cases h
  · rw [hs] at h
    exact (Except.ok.inj h).symm

/-- A `data` object changes no key. -/
@[simp] theorem SubscriptionData.apply_id (d : SubscriptionData) (now : Instant)
    (s : Subscription) : (d.apply now s).id = s.id := rfl

@[simp] theorem PaymentData.apply_id (d : PaymentData) (p : Payment) :
    (d.apply p).id = p.id := rfl

@[simp] theorem PaymentData.apply_key (d : PaymentData) (p : Payment) :
    (d.apply p).idempotencyKey = p.idempotencyKey := rfl

/-- **A subscription row is written**, or the call rejects. -/
theorem serve_subscriptionUpdate (id : String) (data : SubscriptionData) (env : Env)
    (w : World) :
    (∃ err, api.serve (.subscriptionUpdate id data) env w = (.error err, w))
      ∨ ∃ old t, w.sub? id = some old ∧ data.valid = true
          ∧ w.subscriptions.update? (·.id == id) (data.apply env.now) = some t
          ∧ api.serve (.subscriptionUpdate id data) env w
              = (.ok (data.apply env.now old), { w with subscriptions := t }) := by
  rcases serve_cases (.subscriptionUpdate id data) env w with ⟨_, -, h⟩ | ⟨-, h⟩
  · exact .inl ⟨_, h⟩
  · rw [h]
    show (∃ err, w.updateSubscription env.now id data = (.error err, w)) ∨ ∃ old t, _ ∧ _ ∧ _
      ∧ w.updateSubscription env.now id data = _
    unfold World.updateSubscription
    split
    next hvalid =>
      split
      next => exact .inl ⟨_, rfl⟩
      next old hold =>
        split
        next => exact .inl ⟨_, rfl⟩
        next t ht => exact .inr ⟨old, t, hold, hvalid, ht, rfl⟩
    next => exact .inl ⟨_, rfl⟩

/-- The row a `subscription.create` inserts at the time `now`. -/
def SubscriptionCreate.row (data : SubscriptionCreate) (now : Instant) (id : String)
    (start finish : Instant) : Subscription :=
  { id
    planId := data.planId
    walletId := data.walletId
    status := data.status
    currentPeriodStart := start
    currentPeriodEnd := finish
    trialEndsAt := data.trialEndsAt.getD none
    contractPlanId := data.contractPlanId
    updatedAt := now }

/-- **A subscription row is inserted**, or the call rejects. -/
theorem serve_subscriptionCreate (data : SubscriptionCreate) (env : Env) (w : World) :
    (∃ err, api.serve (.subscriptionCreate data) env w = (.error err, w))
      ∨ ∃ id start finish t, data.currentPeriodStart = some start
          ∧ data.currentPeriodEnd = some finish ∧ data.trialEndsAt ≠ some none
          ∧ w.subscriptions.insert? (data.row env.now id start finish) = some t
          ∧ api.serve (.subscriptionCreate data) env w
              = (.ok (data.row env.now id start finish), { w with subscriptions := t }) := by
  rcases serve_cases (.subscriptionCreate data) env w with ⟨_, -, h⟩ | ⟨-, h⟩
  · exact .inl ⟨_, h⟩
  · rw [h]
    show (∃ err, w.createSubscription env.now _ data = (.error err, w))
      ∨ ∃ id start finish t, _ ∧ _ ∧ _ ∧ _ ∧ w.createSubscription env.now _ data = _
    unfold World.createSubscription
    dsimp only
    split
    next start finish hstart hfinish htrial =>
      split
      next => exact .inl ⟨_, rfl⟩
      next t ht =>
        exact .inr ⟨_, start, finish, t, hstart, hfinish, by simp [htrial], ht, rfl⟩
    next start finish trial hstart hfinish htrial =>
      split
      next => exact .inl ⟨_, rfl⟩
      next t ht =>
        exact .inr ⟨_, start, finish, t, hstart, hfinish, by simp [htrial], ht, rfl⟩
    next => exact .inl ⟨_, rfl⟩

/-- **A payment row is written**, or the call rejects. -/
theorem serve_paymentUpdate (id : String) (data : PaymentData) (env : Env) (w : World) :
    (∃ err, api.serve (.paymentUpdate id data) env w = (.error err, w))
      ∨ ∃ old t, w.payment? id = some old
          ∧ w.payments.update? (·.id == id) data.apply = some t
          ∧ api.serve (.paymentUpdate id data) env w
              = (.ok (data.apply old),
                  { w with
                    payments := t
                    successes :=
                      if data.status = some .SUCCESS then
                        w.successes ++ [⟨data.apply old, env.now⟩]
                      else w.successes }) := by
  rcases serve_cases (.paymentUpdate id data) env w with ⟨_, -, h⟩ | ⟨-, h⟩
  · exact .inl ⟨_, h⟩
  · rw [h]
    show (∃ err, w.updatePayment env.now id data = (.error err, w)) ∨ ∃ old t, _ ∧ _
      ∧ w.updatePayment env.now id data = _
    unfold World.updatePayment
    split
    next =>
      split
      next => exact .inl ⟨_, rfl⟩
      next old hold =>
        split
        next => exact .inl ⟨_, rfl⟩
        next t ht => exact .inr ⟨old, t, hold, ht, rfl⟩
    next => exact .inl ⟨_, rfl⟩

theorem serve_paymentUpdateMany (subscriptionId : String) (status : PaymentStatus)
    (data : PaymentData) (env : Env) (w : World) :
    (∃ err, api.serve (.paymentUpdateMany subscriptionId status data) env w = (.error err, w))
      ∨ ∃ t, w.payments.update?
            (fun p => p.subscriptionId == subscriptionId && p.status == status)
            data.apply = some t
          ∧ api.serve (.paymentUpdateMany subscriptionId status data) env w
              = (.ok (), { w with payments := t }) := by
  rcases serve_cases (.paymentUpdateMany subscriptionId status data) env w
    with ⟨_, -, h⟩ | ⟨-, h⟩
  · exact .inl ⟨_, h⟩
  · rw [h]
    show (∃ err, w.updatePayments subscriptionId status data = (.error err, w)) ∨ ∃ t, _
      ∧ w.updatePayments subscriptionId status data = _
    unfold World.updatePayments
    split
    next =>
      split
      next => exact .inl ⟨_, rfl⟩
      next t ht => exact .inr ⟨t, ht, rfl⟩
    next => exact .inl ⟨_, rfl⟩

/-- An Invalid Date in `data` is refused. -/
theorem valid_of_updateMany {subscriptionId : String} {status : PaymentStatus}
    {data : PaymentData} {env : Env} {w : World} {a : Unit}
    (h : (api.serve (.paymentUpdateMany subscriptionId status data) env w).1 = .ok a) :
    data.valid = true := by
  rcases serve_cases (.paymentUpdateMany subscriptionId status data) env w
    with ⟨_, -, hs⟩ | ⟨-, hs⟩
  · rw [hs] at h
    cases h
  · rw [hs] at h
    have h : (w.updatePayments subscriptionId status data).1 = .ok a := h
    unfold World.updatePayments at h
    split at h
    next hvalid => exact hvalid
    next => cases h

/-- The row a `payment.create` inserts. -/
def PaymentCreate.row (id : String) (data : PaymentCreate) : Payment :=
  { id
    subscriptionId := data.subscriptionId
    amount := data.amount
    assetCode := data.assetCode
    assetIssuer := data.assetIssuer
    idempotencyKey := data.idempotencyKey
    testMode := data.testMode
    billingPeriodStart := data.billingPeriodStart
    billingPeriodEnd := data.billingPeriodEnd }

/-- **A payment row is inserted**, or the call rejects. -/
theorem serve_paymentCreate (data : PaymentCreate) (env : Env) (w : World) :
    (∃ err, api.serve (.paymentCreate data) env w = (.error err, w))
      ∨ ∃ id t, w.payments.insert? (data.row id) = some t
          ∧ api.serve (.paymentCreate data) env w
              = (.ok (data.row id), { w with payments := t }) := by
  rcases serve_cases (.paymentCreate data) env w with ⟨_, -, h⟩ | ⟨-, h⟩
  · exact .inl ⟨_, h⟩
  · rw [h]
    show (∃ err, w.createPayment _ data = (.error err, w)) ∨ ∃ id t, _
      ∧ w.createPayment _ data = _
    unfold World.createPayment
    dsimp only
    split
    next => exact .inl ⟨_, rfl⟩
    next t ht => exact .inr ⟨_, t, ht, rfl⟩

/-- **A wallet with the address is answered**, stored before or inserted. -/
theorem serve_walletUpsert (address : String) (env : Env) (w : World) :
    (∃ err, api.serve (.walletUpsert address) env w = (.error err, w))
      ∨ (∃ wallet ∈ w.wallets, wallet.address = address
          ∧ api.serve (.walletUpsert address) env w = (.ok wallet, w))
      ∨ ∃ id t, w.wallets.insert? { id, address } = some t
          ∧ api.serve (.walletUpsert address) env w
              = (.ok { id, address }, { w with wallets := t }) := by
  rcases serve_cases (.walletUpsert address) env w with ⟨_, -, h⟩ | ⟨-, h⟩
  · exact .inl ⟨_, h⟩
  · rw [h]
    unfold World.answer
    dsimp only
    split
    next wallet hwallet =>
      obtain ⟨hmem, haddress⟩ := Table.find?_mem hwallet
      exact .inr (.inl ⟨wallet, hmem, beq_iff_eq.mp haddress, rfl⟩)
    next =>
      split
      next => exact .inl ⟨_, rfl⟩
      next t ht => exact .inr (.inr ⟨_, t, ht, rfl⟩)

theorem serve_billingQueueAdd (name subscriptionId : String) (jobId : Option String)
    (env : Env) (w : World) :
    (∃ err, api.serve (.billingQueueAdd name subscriptionId jobId) env w = (.error err, w))
      ∨ api.serve (.billingQueueAdd name subscriptionId jobId) env w
          = (.ok (), { w with
              billingQueue := w.billingQueue.add name subscriptionId jobId }) :=
  serve_answered rfl

/-- **A transaction is accepted**, refused, or the call rejects. -/
theorem serve_sendTransaction (issuedFor : String) (invocation : Invocation) (env : Env)
    (w : World) :
    (∃ err, api.serve (.sendTransaction issuedFor invocation) env w = (.error err, w))
      ∨ (∃ detail, env.network = .refused detail
          ∧ api.serve (.sendTransaction issuedFor invocation) env w
              = (.ok (.ERROR detail), w))
      ∨ ∃ hash applied, env.network = .accepted hash applied
          ∧ api.serve (.sendTransaction issuedFor invocation) env w
              = (.ok (.accepted hash),
                  { w with chain := w.chain ++ [⟨hash, issuedFor, invocation, applied⟩] }) := by
  rcases serve_cases (.sendTransaction issuedFor invocation) env w
    with ⟨_, -, h⟩ | ⟨-, h⟩
  · exact .inl ⟨_, h⟩
  · rw [h]
    unfold World.answer
    dsimp only
    split
    next detail hn => exact .inr (.inl ⟨detail, hn, rfl⟩)
    next hash applied hn => exact .inr (.inr ⟨hash, applied, hn, rfl⟩)
    next => exact .inl ⟨_, rfl⟩

theorem serve_webhookEndpointFindMany (type : WebhookEventType) (env : Env) (w : World) :
    (∃ err, api.serve (.webhookEndpointFindMany type) env w = (.error err, w))
      ∨ api.serve (.webhookEndpointFindMany type) env w
          = (.ok (w.hooks.endpoints.filter (fun e => e.isActive && e.events.contains type)), w) :=
  serve_answered rfl

/-- **An event row is inserted**, or the call rejects. -/
theorem serve_webhookEventCreate (type : WebhookEventType) (paymentId : Option String)
    (payload : JavaScript.JsValue) (env : Env) (w : World) :
    (∃ err, api.serve (.webhookEventCreate type paymentId payload) env w = (.error err, w))
      ∨ ∃ id t, w.hooks.events.insert? ⟨id, type, paymentId, payload, env.now⟩ = some t
          ∧ api.serve (.webhookEventCreate type paymentId payload) env w
              = (.ok ⟨id, type, paymentId, payload, env.now⟩,
                  { w with hooks := { w.hooks with events := t } }) := by
  rcases serve_cases (.webhookEventCreate type paymentId payload) env w with ⟨_, -, h⟩ | ⟨-, h⟩
  · exact .inl ⟨_, h⟩
  · rw [h]
    unfold World.answer
    dsimp only
    split
    next => exact .inl ⟨_, rfl⟩
    next t ht => exact .inr ⟨_, t, ht, rfl⟩

/-- **Delivery rows are inserted**, all or none. -/
theorem serve_webhookDeliveryCreateAll (eventId : String) (endpointIds : List String) (env : Env)
    (w : World) :
    (∃ err, api.serve (.webhookDeliveryCreateAll eventId endpointIds) env w = (.error err, w))
      ∨ ∃ rows t, (∀ d ∈ rows, d.status = .PENDING ∧ d.deliveredAt = none)
          ∧ insertAll w.hooks.deliveries rows = some t
          ∧ api.serve (.webhookDeliveryCreateAll eventId endpointIds) env w
              = (.ok rows, { w with hooks := { w.hooks with deliveries := t } }) := by
  rcases serve_cases (.webhookDeliveryCreateAll eventId endpointIds) env w
    with ⟨_, -, h⟩ | ⟨-, h⟩
  · exact .inl ⟨_, h⟩
  · rw [h]
    unfold World.answer
    dsimp only
    split
    next => exact .inl ⟨_, rfl⟩
    next t ht =>
      split
      next =>
        refine .inr ⟨_, t, fun d hd => ?_, ht, rfl⟩
        rw [← List.map_uncurry_zip_eq_zipWith] at hd
        obtain ⟨_, -, rfl⟩ := List.mem_map.mp hd
        exact ⟨rfl, rfl⟩
      next => exact .inl ⟨_, rfl⟩

theorem mem_insertAll {rows : List WebhookDelivery} {d : WebhookDelivery} :
    ∀ {t t' : Table WebhookDelivery WebhookDelivery.Clash}, insertAll t rows = some t' →
      (d ∈ t' ↔ d ∈ t ∨ d ∈ rows) := by
  induction rows with
  | nil =>
      intro t t' h
      cases h
      simp
  | cons r rows ih =>
      intro t t' h
      obtain ⟨t₁, h₁, h₂⟩ := Option.bind_eq_some_iff.mp h
      rw [ih h₂, Table.mem_insert h₁, List.mem_cons, or_assoc]

theorem serve_webhookQueueAdd (deliveryId : String) (env : Env) (w : World) :
    (∃ err, api.serve (.webhookQueueAdd deliveryId) env w = (.error err, w))
      ∨ api.serve (.webhookQueueAdd deliveryId) env w
          = (.ok (), { w with hooks := { w.hooks with
              queue := w.hooks.queue.add "deliver" deliveryId
                (some s!"webhook:{deliveryId}") } }) :=
  serve_answered rfl

/-- What a call does to the webhook tables and queue. -/
inductive HooksStep (h : Hooks) : Hooks → Prop where
  | same : HooksStep h h
  | event {event : WebhookEvent} {t : Table WebhookEvent WebhookEvent.Clash} :
      h.events.insert? event = some t → HooksStep h { h with events := t }
  | deliveries {rows : List WebhookDelivery} {t : Table WebhookDelivery WebhookDelivery.Clash} :
      insertAll h.deliveries rows = some t → HooksStep h { h with deliveries := t }
  | job (queue : JobQueue.Queue String) : HooksStep h { h with queue }

/-- **Endpoints, events and deliveries** are inserted and never rewritten. -/
theorem serve_hooks (c : Call) (env : Env) (w : World) :
    HooksStep w.hooks (api.serve c env w).2.hooks := by
  by_cases hc : c.region = .hooks
  · cases c with
    | webhookEventCreate type paymentId payload =>
        rcases serve_webhookEventCreate type paymentId payload env w with ⟨_, h⟩ | ⟨_, _, ht, h⟩
        · rw [h]
          exact .same
        · rw [h]
          exact .event ht
    | webhookDeliveryCreateAll eventId endpointIds =>
        rcases serve_webhookDeliveryCreateAll eventId endpointIds env w
          with ⟨_, h⟩ | ⟨_, _, -, ht, h⟩
        · rw [h]
          exact .same
        · rw [h]
          exact .deliveries ht
    | webhookQueueAdd deliveryId =>
        rcases serve_webhookQueueAdd deliveryId env w with ⟨_, h⟩ | h
        · rw [h]
          exact .same
        · rw [h]
          exact .job _
    | _ => cases hc
  · rw [(serve_changed c env w).hooks_eq hc]
    exact .same

/-- A call outside the writing regions leaves the world as it is. -/
theorem serve_read {c : Call} (hc : c.region = .nothing) (env : Env) (w : World) :
    (api.serve c env w).2 = w := by
  have h := serve_changed c env w
  rw [hc] at h
  exact h.nothing_eq

end Outcomes

/-! ## §4. Lookups after a write. -/

section Writes

variable {w : World}

theorem sub?_update {id : String} {data : SubscriptionData} {now : Instant}
    {t : Table Subscription Subscription.Clash} {old : Subscription}
    (hold : w.sub? id = some old)
    (h : w.subscriptions.update? (·.id == id) (data.apply now) = some t) (x : String) :
    ({ w with subscriptions := t } : World).sub? x
      = if x = id then some (data.apply now old) else w.sub? x :=
  Table.find?_update_key hold h (fun _ => rfl) x

/-- An inserted subscription has a fresh id. -/
theorem sub?_of_insert {row : Subscription} {t : Table Subscription Subscription.Clash}
    (h : w.subscriptions.insert? row = some t) : w.sub? row.id = none := by
  refine Table.find?_eq_none_iff.mpr (fun r hr => ?_)
  have hclash : ¬ r.id = row.id := Table.not_clash_of_insert h r hr
  simpa using hclash

theorem sub?_insert {row : Subscription} {t : Table Subscription Subscription.Clash}
    (h : w.subscriptions.insert? row = some t) (x : String) :
    ({ w with subscriptions := t } : World).sub? x
      = if x = row.id then some row else w.sub? x := by
  have hnew := sub?_of_insert h
  unfold World.sub? at *
  rw [Table.find?_insert h]
  by_cases hx : x = row.id
  · subst hx
    rw [hnew]
    simp
  · have hx' : ¬ row.id = x := fun h => hx h.symm
    simp [hx, hx']

theorem payment?_update {id : String} {data : PaymentData}
    {t : Table Payment Payment.Clash} {old : Payment} {s : List Success}
    (hold : w.payment? id = some old)
    (h : w.payments.update? (·.id == id) data.apply = some t) (x : String) :
    ({ w with payments := t, successes := s } : World).payment? x
      = if x = id then some (data.apply old) else w.payment? x :=
  Table.find?_update_key hold h (fun _ => rfl) x

/-- A payment found by key after a write is the one found before, written if
it was selected. -/
theorem paymentByKey?_update {p : Payment → Bool} {data : PaymentData}
    {t : Table Payment Payment.Clash} {s : List Success}
    (h : w.payments.update? p data.apply = some t) (key : String) :
    ({ w with payments := t, successes := s } : World).paymentByKey? key
      = (w.paymentByKey? key).map (fun r => if p r then data.apply r else r) := by
  unfold World.paymentByKey?
  exact Table.find?_update h (fun r _ => rfl)

end Writes

/-! ## §5. What is kept. -/

/-- The call writes `data` in the row `p`. -/
def Call.writesPayment (c : Call) (p : Payment) (data : PaymentData) : Prop :=
  c = .paymentUpdate p.id data ∨ c = .paymentUpdateMany p.subscriptionId p.status data

/-- **What one call does to the payments** and to the record of successes. -/
inductive PaymentStep (e : CallEvent) : Prop where
  | kept : (e.after api).payments = e.before.payments →
      (e.after api).successes = e.before.successes → PaymentStep e
  | created {data : PaymentCreate} {id : String} : e.call = .paymentCreate data →
      e.before.payments.insert? (data.row id) = some (e.after api).payments →
      (e.after api).successes = e.before.successes → PaymentStep e
  | updated {id : String} {data : PaymentData} {old : Payment} :
      e.call = .paymentUpdate id data → e.before.payment? id = some old →
      e.before.payments.update? (·.id == id) data.apply = some (e.after api).payments →
      (e.after api).successes
        = (if data.status = some .SUCCESS then
            e.before.successes ++ [⟨data.apply old, e.env.now⟩]
          else e.before.successes) → PaymentStep e
  | updatedMany {id : String} {status : PaymentStatus} {data : PaymentData} :
      e.call = .paymentUpdateMany id status data →
      e.before.payments.update? (fun p => p.subscriptionId == id && p.status == status) data.apply
        = some (e.after api).payments →
      (e.after api).successes = e.before.successes → PaymentStep e

theorem paymentStep (e : CallEvent) : PaymentStep e := by
  obtain ⟨w, c, env⟩ := e
  by_cases hc : c.region = .payments
  · cases c with
    | paymentCreate data =>
        rcases serve_paymentCreate data env w with ⟨err, h⟩ | ⟨id, t, ht, h⟩
        · exact .kept (by rw [Event.after, h]) (by rw [Event.after, h])
        · exact .created rfl (by rw [Event.after, h]; exact ht) (by rw [Event.after, h])
    | paymentUpdate id data =>
        rcases serve_paymentUpdate id data env w with ⟨err, h⟩ | ⟨old, t, hold, ht, h⟩
        · exact .kept (by rw [Event.after, h]) (by rw [Event.after, h])
        · exact .updated rfl hold (by rw [Event.after, h]; exact ht) (by rw [Event.after, h])
    | paymentUpdateMany id status data =>
        rcases serve_paymentUpdateMany id status data env w with ⟨err, h⟩ | ⟨t, ht, h⟩
        · exact .kept (by rw [Event.after, h]) (by rw [Event.after, h])
        · exact .updatedMany rfl (by rw [Event.after, h]; exact ht) (by rw [Event.after, h])
    | _ => cases hc
  · obtain ⟨hpayments, hsuccesses⟩ := (serve_changed c env w).payments_eq hc
    exact .kept hpayments hsuccesses

/-- **What becomes of a payment row**: it stays as it is, or is written. -/
theorem payment_fate (e : CallEvent) {p : Payment} (hp : p ∈ e.before.payments) :
    p ∈ (e.after api).payments
      ∨ ∃ data, e.call.writesPayment p data ∧ data.apply p ∈ (e.after api).payments := by
  cases paymentStep e with
  | kept hpayments _ =>
      rw [hpayments]
      exact .inl hp
  | created _ ht _ => exact .inl ((Table.mem_insert ht).mpr (.inl hp))
  | @updated id data _ hcall _ ht _ =>
      refine (Table.update_fate ht hp).imp_right (fun ⟨hsel, hwritten⟩ => ⟨data, .inl ?_, hwritten⟩)
      rw [hcall, beq_iff_eq.mp hsel]
  | @updatedMany id status data hcall ht _ =>
      refine (Table.update_fate ht hp).imp_right (fun ⟨hsel, hwritten⟩ => ⟨data, .inr ?_, hwritten⟩)
      have hsel : p.subscriptionId = id ∧ p.status = status := by simpa using hsel
      rw [hcall, hsel.1, hsel.2]

/-- **Payment rows are never deleted**, and keep their keys. -/
theorem payment_kept (e : CallEvent) {p : Payment} (hp : p ∈ e.before.payments) :
    ∃ p' ∈ (e.after api).payments, p'.id = p.id ∧ p'.idempotencyKey = p.idempotencyKey := by
  rcases payment_fate e hp with hp | ⟨data, -, hp⟩
  · exact ⟨p, hp, rfl, rfl⟩
  · exact ⟨data.apply p, hp, rfl, rfl⟩

/-- A row with this id and this key. -/
def HasRow (pid key : String) (w : World) : Prop :=
  ∃ p ∈ w.payments, p.id = pid ∧ p.idempotencyKey = key

theorem hasRow_after (e : CallEvent) {pid key : String} (h : HasRow pid key e.before) :
    HasRow pid key (e.after api) := by
  obtain ⟨p, hp, rfl, rfl⟩ := h
  obtain ⟨p', hp', hid, hkey⟩ := payment_kept e hp
  exact ⟨p', hp', hid, hkey⟩

/-- **Where a payment row comes from**: it was stored before, it was written
by this call, or it was created by this call. -/
theorem payment_origin (e : CallEvent) {p : Payment} (hp : p ∈ (e.after api).payments) :
    p ∈ e.before.payments
      ∨ (∃ old ∈ e.before.payments, ∃ data, p = data.apply old ∧ e.call.writesPayment old data)
      ∨ ∃ data id, e.call = .paymentCreate data ∧ p = data.row id := by
  cases paymentStep e with
  | kept hpayments _ =>
      rw [hpayments] at hp
      exact .inl hp
  | @created data id hcall ht _ =>
      rcases (Table.mem_insert ht).mp hp with hp | rfl
      · exact .inl hp
      · exact .inr (.inr ⟨data, id, hcall, rfl⟩)
  | @updated id data _ hcall _ ht _ =>
      refine (Table.update_origin ht hp).imp_right
        (fun ⟨old, hold, hsel, hwritten⟩ => .inl ⟨old, hold, data, hwritten, .inl ?_⟩)
      rw [hcall, beq_iff_eq.mp hsel]
  | @updatedMany id status data hcall ht _ =>
      refine (Table.update_origin ht hp).imp_right
        (fun ⟨old, hold, hsel, hwritten⟩ => .inl ⟨old, hold, data, hwritten, .inr ?_⟩)
      have hsel : old.subscriptionId = id ∧ old.status = status := by simpa using hsel
      rw [hcall, hsel.1, hsel.2]

/-- **Where a recorded success comes from.** -/
theorem success_origin (e : CallEvent) {s : Success} (hs : s ∈ (e.after api).successes) :
    s ∈ e.before.successes
      ∨ ∃ pid data old, e.call = .paymentUpdate pid data ∧ e.before.payment? pid = some old
          ∧ s = ⟨data.apply old, e.env.now⟩ := by
  cases paymentStep e with
  | kept _ hsuccesses =>
      rw [hsuccesses] at hs
      exact .inl hs
  | created _ _ hsuccesses =>
      rw [hsuccesses] at hs
      exact .inl hs
  | @updated id data old hcall hold _ hsuccesses =>
      rw [hsuccesses] at hs
      split at hs
      · rcases List.mem_append.mp hs with hs | hs
        · exact .inl hs
        · exact .inr ⟨id, data, old, hcall, hold, List.mem_singleton.mp hs⟩
      · exact .inl hs
  | updatedMany _ _ hsuccesses =>
      rw [hsuccesses] at hs
      exact .inl hs

/-- **Accepted transactions stay on record.** -/
theorem chain_kept (e : CallEvent) {tx : Tx} (h : tx ∈ e.before.chain) :
    tx ∈ (e.after api).chain := by
  obtain ⟨w, c, env⟩ := e
  show tx ∈ (api.serve c env w).2.chain
  by_cases hc : c.region = .chain
  · cases c with
    | sendTransaction issuedFor invocation =>
        rcases serve_sendTransaction issuedFor invocation env w with
          ⟨err, hs⟩ | ⟨detail, -, hs⟩ | ⟨hash, applied, -, hs⟩
        · rw [hs]
          exact h
        · rw [hs]
          exact h
        · rw [hs]
          exact List.mem_append_left _ h
    | _ => cases hc
  · rw [(serve_changed c env w).chain_eq hc]
    exact h

/-- **What one call does to the subscriptions.** -/
inductive SubscriptionStep (e : CallEvent) : Prop where
  | kept : (e.after api).subscriptions = e.before.subscriptions → SubscriptionStep e
  | updated {id : String} {data : SubscriptionData} {old : Subscription} :
      e.call = .subscriptionUpdate id data → e.before.sub? id = some old → data.valid = true →
      e.before.subscriptions.update? (·.id == id) (data.apply e.env.now)
        = some (e.after api).subscriptions → SubscriptionStep e
  | created {data : SubscriptionCreate} {id : String} {start finish : Instant} :
      e.call = .subscriptionCreate data → data.trialEndsAt ≠ some none →
      e.before.subscriptions.insert? (data.row e.env.now id start finish)
        = some (e.after api).subscriptions → SubscriptionStep e

theorem subscriptionStep (e : CallEvent) : SubscriptionStep e := by
  obtain ⟨w, c, env⟩ := e
  by_cases hc : c.region = .subscriptions
  · cases c with
    | subscriptionUpdate id data =>
        rcases serve_subscriptionUpdate id data env w with ⟨err, h⟩ | ⟨old, t, hold, hvalid, ht, h⟩
        · exact .kept (by rw [Event.after, h])
        · exact .updated rfl hold hvalid (by rw [Event.after, h]; exact ht)
    | subscriptionCreate data =>
        rcases serve_subscriptionCreate data env w with
          ⟨err, h⟩ | ⟨id, start, finish, t, -, -, htrial, ht, h⟩
        · exact .kept (by rw [Event.after, h])
        · exact .created rfl htrial (by rw [Event.after, h]; exact ht)
    | _ => cases hc
  · exact .kept ((serve_changed c env w).subscriptions_eq hc)

/-- **Where a stored subscription comes from**: it was stored before, it was
written by this call, or it was created by this call. -/
theorem subscription_origin (e : CallEvent) {s : Subscription}
    (hs : s ∈ (e.after api).subscriptions) :
    s ∈ e.before.subscriptions
      ∨ (∃ id data r, e.call = .subscriptionUpdate id data ∧ r ∈ e.before.subscriptions
          ∧ r.id = id ∧ s = data.apply e.env.now r)
      ∨ ∃ data id start finish, e.call = .subscriptionCreate data
          ∧ data.trialEndsAt ≠ some none ∧ s = data.row e.env.now id start finish := by
  cases subscriptionStep e with
  | kept hsubs =>
      rw [hsubs] at hs
      exact .inl hs
  | @updated id data _ hcall _ _ ht =>
      refine (Table.update_origin ht hs).imp_right
        (fun ⟨r, hr, hsel, hwritten⟩ => .inl ⟨id, data, r, hcall, hr, ?_, hwritten⟩)
      exact beq_iff_eq.mp hsel
  | @created data id start finish hcall htrial ht =>
      rcases (Table.mem_insert ht).mp hs with hs | rfl
      · exact .inl hs
      · exact .inr (.inr ⟨data, id, start, finish, hcall, htrial, rfl⟩)

/-- **Subscriptions are never deleted**, and keep their id, plan and trial. -/
theorem subscription_kept (e : CallEvent) {s : Subscription}
    (hs : s ∈ e.before.subscriptions) :
    ∃ s' ∈ (e.after api).subscriptions,
      s'.id = s.id ∧ s'.planId = s.planId ∧ s'.trialEndsAt = s.trialEndsAt := by
  cases subscriptionStep e with
  | kept hsubs =>
      rw [hsubs]
      exact ⟨s, hs, rfl, rfl, rfl⟩
  | updated _ _ _ ht =>
      rcases Table.update_fate ht hs with hs | ⟨-, hwritten⟩
      · exact ⟨s, hs, rfl, rfl, rfl⟩
      · exact ⟨_, hwritten, rfl, rfl, rfl⟩
  | created _ _ ht => exact ⟨s, (Table.mem_insert ht).mpr (.inl hs), rfl, rfl, rfl⟩

/-- **What one call does to the row of a subscription**: it is as before, or
was written, or is new. -/
theorem lookup_after (e : CallEvent) (id : String) :
    (e.after api).sub? id = e.before.sub? id
      ∨ (∃ data old, e.call = .subscriptionUpdate id data ∧ data.valid = true
          ∧ e.before.sub? id = some old
          ∧ (e.after api).sub? id = some (data.apply e.env.now old))
      ∨ ∃ data start finish, e.call = .subscriptionCreate data
          ∧ e.before.sub? id = none
          ∧ (e.after api).sub? id = some (data.row e.env.now id start finish) := by
  cases subscriptionStep e with
  | kept hsubs =>
      unfold World.sub?
      rw [hsubs]
      exact .inl rfl
  | @updated x data old hcall hold hvalid ht =>
      have hafter : (e.after api).sub? id
          = if id = x then some (data.apply e.env.now old) else e.before.sub? id :=
        sub?_update hold ht id
      -- the row that is looked up is the one written, or it is not touched
      by_cases hx : id = x
      · subst hx
        rw [if_pos rfl] at hafter
        exact .inr (.inl ⟨data, old, hcall, hvalid, hold, hafter⟩)
      · rw [if_neg hx] at hafter
        exact .inl hafter
  | @created data x start finish hcall _ ht =>
      have hafter : (e.after api).sub? id
          = if id = x then some (data.row e.env.now x start finish) else e.before.sub? id :=
        sub?_insert ht id
      by_cases hx : id = x
      · subst hx
        rw [if_pos rfl] at hafter
        exact .inr (.inr ⟨data, start, finish, hcall, sub?_of_insert ht, hafter⟩)
      · rw [if_neg hx] at hafter
        exact .inl hafter

/-- **What one call does to a stored subscription**: it is as before, or its
row was written. -/
theorem sub?_after (e : CallEvent) {id : String} {s : Subscription}
    (hs : e.before.sub? id = some s) :
    (e.after api).sub? id = some s
      ∨ ∃ data, e.call = .subscriptionUpdate id data ∧ data.valid = true
          ∧ (e.after api).sub? id = some (data.apply e.env.now s) := by
  rcases lookup_after e id with hsame | ⟨data, old, hcall, hvalid, hold, hafter⟩
    | ⟨data, start, finish, -, hnew, -⟩
  · exact .inl (hsame.trans hs)
  · obtain rfl : old = s := Option.some.inj (hold.symm.trans hs)
    exact .inr ⟨data, hcall, hvalid, hafter⟩
  · -- the id is taken
    cases hnew.symm.trans hs

/-- **Where an unfinished billing job comes from.** -/
theorem billingJob_origin (e : CallEvent) {j : JobQueue.Phase × JobQueue.Job String}
    (hj : j ∈ (e.after api).billingQueue.unfinished) :
    j ∈ e.before.billingQueue.unfinished
      ∨ ∃ name jobId n, e.call = .billingQueueAdd name j.2.data jobId
          ∧ j.2.id = jobId.getD (toString (n + 1)) := by
  obtain ⟨w, c, env⟩ := e
  have hj : j ∈ (api.serve c env w).2.billingQueue.unfinished := hj
  by_cases hc : c.region = .billingQueue
  · cases c with
    | billingQueueAdd name subscriptionId jobId =>
        rcases serve_billingQueueAdd name subscriptionId jobId env w with ⟨err, h⟩ | h
        · rw [h] at hj
          exact .inl hj
        · rw [h] at hj
          rcases JobQueue.Queue.mem_add hj with hj | ⟨hdata, hid⟩
          · exact .inl hj
          · exact .inr ⟨name, jobId, w.billingQueue.counter, by rw [hdata], hid⟩
    | _ => cases hc
  · rw [(serve_changed c env w).billingQueue_eq hc] at hj
    exact .inl hj

/-- The bookkeeping of the worker adds no job. -/
theorem QueueStep.mem {q q' : JobQueue.Queue String} (h : QueueStep q q')
    {j : JobQueue.Phase × JobQueue.Job String} (hj : j ∈ q'.unfinished) :
    ∃ i ∈ q.unfinished, i.2.id = j.2.id ∧ i.2.data = j.2.data := by
  cases h with
  | phase id phase =>
      obtain ⟨i, hi, rfl⟩ := List.mem_map.mp hj
      refine ⟨i, hi, ?_⟩
      split <;> exact ⟨rfl, rfl⟩
  | complete job hmem => exact ⟨j, (List.mem_filter.mp hj).1, rfl, rfl⟩
  | @failAttempt phase job hmem =>
      unfold JobQueue.Queue.failAttempt at hj
      dsimp only at hj
      split at hj
      · rcases List.mem_append.mp hj with hj | hj
        · exact ⟨j, (List.mem_filter.mp hj).1, rfl, rfl⟩
        · -- the delayed job is the old one with one more attempt
          rw [List.mem_singleton.mp hj]
          exact ⟨(phase, job), hmem, rfl, rfl⟩
      · exact ⟨j, (List.mem_filter.mp hj).1, rfl, rfl⟩

end Sorobill
