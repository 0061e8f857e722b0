/-
  Sorobill.Concurrency.Cancellation
  ─────────────────────────────────
  **IS `CANCELLED` TERMINAL?**

  `advancePeriod`, `handlePaymentFailure` and the cancel request write a
  status that was decided on an earlier read of the row.  A snapshot read
  before a cancellation and written after it brings the subscription back.

    • `Snapshot`, `trackSnapshot` — whether an execution holds a snapshot of
      the row from which it may still write a status;
    • `operation_proper` — every operation writes a status other than
      CANCELLED only from such a snapshot;
    • `cancelled_terminal` — CANCELLED is terminal in every interleaving in
      which it is stored while no other execution holds a snapshot.
-/
import Sorobill.Model.Shop
import Sorobill.Rules.Footprints

namespace Sorobill

open Effect

/-- The stored status of a subscription. -/
def World.status? (w : World) (id : String) : Option SubscriptionStatus :=
  (w.sub? id).map (·.status)

/-! ## §1. Snapshots. -/

/-- What an execution holds of one subscription row. -/
inductive Snapshot where
  /-- It will write no status other than CANCELLED. -/
  | harmless
  /-- It has not read the row in a status other than CANCELLED. -/
  | unread (billing : Bool)
  /-- It has, and may still write a status back. -/
  | held (billing : Bool)
  deriving DecidableEq

def Snapshot.isHeld : Snapshot → Prop
  | .held _ => True
  | _ => False

/-- A billing cycle and a cancellation at period end write statuses back. -/
def snapshotOf : Operation → Snapshot
  | .cancel _ immediately => if immediately then .harmless else .unread false
  | .runInline _ => .unread true
  | .billingJob _ => .unread true
  | _ => .harmless

/-- The row `x` is read. -/
def Snapshot.read (id : String) (w : World) (x : String) : Snapshot → Snapshot
  | .unread billing =>
      if x = id ∧ w.status? id ≠ some .CANCELLED then .held billing else .unread billing
  | v => v

/-- How a call changes what the execution holds: a cancel request that has
written, and a billing cycle that has written PAST_DUE or scheduled a retry,
write no further status. -/
def trackSnapshot (id : String) (v : Snapshot) (e : CallEvent) : Snapshot :=
  match e.call with
  | .subscriptionFindUnique x => v.read id e.before x
  | .subscriptionFindUniqueWithPlan x => v.read id e.before x
  | .subscriptionUpdate _ data =>
      if v = .held false ∨ v = .held true ∧ data.status = some .PAST_DUE then .harmless else v
  | .paymentUpdateMany _ _ _ => if v = .held true then .harmless else v
  | _ => v

/-- **The condition on interleavings**: when CANCELLED is stored in the row,
no other execution holds a snapshot that it may write back. -/
def Uncontended (id : String) : Condition Api World Env Snapshot := fun _ others e =>
  isRejected e = false → ∀ data, e.call = .subscriptionUpdate id data →
    data.status = some .CANCELLED → ∀ u ∈ others, ¬ u.isHeld

/-! ## §2. Every operation writes a status from its snapshot only. -/

/-- A status other than CANCELLED is written from a held snapshot, and
CANCELLED by an execution that writes no status afterwards. -/
def Proper (id : String) (v : Snapshot) (e : CallEvent) : Prop :=
  (∀ data st, e.call = .subscriptionUpdate id data → data.status = some st →
    (st = .CANCELLED → ¬ (trackSnapshot id v e).isHeld) ∧ (st ≠ .CANCELLED → v.isHeld))
  ∧ ∀ data, e.call = .subscriptionCreate data → data.status ≠ .CANCELLED

def properContract (id : String) : Contract api Snapshot where
  rely _ _ := True
  assume _ _ := True
  guarantee := Proper id
  track := trackSnapshot id

/-- The calls that neither read nor write a subscription row. -/
def Call.isAside (c : Call) : Prop :=
  c.isWebhook ∨ (∃ pid, c.isCharge pid) ∨ c = .dateNow ∨ (∃ d, c = .paymentCreate d)
    ∨ (∃ key, c = .paymentFindUnique key)

theorem proper_aside {id : String} {v : Snapshot} {e : CallEvent} (h : e.call.isAside) :
    Proper id v e ∧ trackSnapshot id v e = v := by
  obtain ⟨w, c, env⟩ := e
  have key : trackSnapshot id v ⟨w, c, env⟩ = v ∧ c.region ≠ .subscriptions := by
    rcases h with h | ⟨pid, h⟩ | rfl | ⟨d, rfl⟩ | ⟨key, rfl⟩
    · cases c <;> first | exact h.elim | exact ⟨rfl, fun h => by cases h⟩
    · cases c <;> first | exact h.elim | exact ⟨rfl, fun h => by cases h⟩
    all_goals exact ⟨rfl, fun h => by cases h⟩
  -- a write of a subscription row would lie in the region that is excluded
  refine ⟨⟨?_, ?_⟩, key.1⟩
  · intro data st heq
    obtain rfl := heq
    exact absurd rfl key.2
  · intro data heq
    obtain rfl := heq
    exact absurd rfl key.2

section Walk

variable {cfg : Config} {id : String} {w : World} {v : Snapshot} {α : Type}

/-- Calls aside change nothing that matters here. -/
theorem safe_aside {p : Service α} {Q : Post Api World Snapshot α}
    (hp : Calls api Call.isAside p) (hQ : ∀ r w, Q r w v) :
    Safe (properContract id) p Q w v := by
  refine (safe_of_calls (C := properContract id) (fun _ => trivial) (fun _ _ _ _ _ => trivial)
    (fun e he _ => ?_) hp).mono ?_
  · exact ⟨(proper_aside he).1, trivial, (proper_aside he).2⟩
  · intro r w v' hpost
    obtain ⟨-, rfl⟩ := hpost
    exact hQ r w

theorem proper_read {x : String} {env : Env} :
    Proper id v ⟨w, .subscriptionFindUnique x, env⟩
      ∧ Proper id v ⟨w, .subscriptionFindUniqueWithPlan x, env⟩ := by
  refine ⟨⟨?_, ?_⟩, ?_, ?_⟩ <;> intros <;> contradiction

theorem aside_emit (type : WebhookEventType) (pid : Option String)
    (payload : JavaScript.JsValue) :
    Calls api Call.isAside (emitWebhookEvent type pid payload) :=
  (emitWebhookEvent_calls type pid payload).mono (fun _ h => .inl h)

theorem aside_charge (sub : SubscriptionWithPlan) (pid key : String) :
    Calls api Call.isAside (chargePayment cfg sub pid key) :=
  (chargePayment_calls sub pid key).mono (fun _ h => .inr (.inl ⟨pid, h⟩))

/-- What a billing cycle holds once it has read its subscription `x` in a
status other than CANCELLED. -/
def Billing (id x : String) (v : Snapshot) : Prop :=
  v = .held true ∨ (x ≠ id ∧ v = .unread true)

/-- Only the write of PAST_DUE gives the snapshot up. -/
theorem Billing.track_update {x : String} (h : Billing id x v) {data : SubscriptionData}
    (hd : data.status ≠ some .PAST_DUE) (env : Env) :
    trackSnapshot id v ⟨w, .subscriptionUpdate x data, env⟩ = v := by
  rcases h with rfl | ⟨-, rfl⟩ <;> simp [trackSnapshot, hd]

/-- A billing cycle may write any status but CANCELLED. -/
theorem Billing.proper_update {x : String} (h : Billing id x v) {data : SubscriptionData}
    (hd : data.status ≠ some .CANCELLED) (env : Env) :
    Proper id v ⟨w, .subscriptionUpdate x data, env⟩ := by
  constructor
  · intro data' st heq hst
    simp only [Call.subscriptionUpdate.injEq] at heq
    obtain ⟨rfl, rfl⟩ := heq
    refine ⟨fun hc => absurd (hc ▸ hst) hd, fun _ => ?_⟩
    rcases h with rfl | ⟨hne, -⟩
    · trivial
    · -- the cycle of another subscription does not write this row
      exact absurd rfl hne
  · intro data' heq
    cases heq

theorem Billing.safe_update {x : String} (h : Billing id x v) {data : SubscriptionData}
    (hd : data.status ≠ some .CANCELLED) {Q : Post Api World Snapshot Subscription}
    (hQ : ∀ r w v', (data.status ≠ some .PAST_DUE → v' = v) → Q r w v') :
    Safe (properContract id) (prisma.subscription.update x data) Q w v :=
  safe_perform.mpr (fun w' env _ _ =>
    ⟨h.proper_update hd env, hQ _ _ _ (fun hd => h.track_update (w := w') hd env)⟩)

theorem advancePeriod_proper {sub : SubscriptionWithPlan} (h : Billing id sub.id v) :
    Safe (properContract id) (advancePeriod cfg sub) (fun _ _ v' => v' = v) w v := by
  unfold advancePeriod
  dsimp only
  rw [safe_bind]
  apply h.safe_update (by simp)
  intro r w' v' hv
  obtain rfl := hv (by simp)
  cases r <;> rfl

theorem handlePaymentFailure_proper {sub : SubscriptionWithPlan} {pid : String}
    (h : Billing id sub.id v) :
    Safe (properContract id) (handlePaymentFailure cfg sub pid) (fun _ _ _ => True) w v := by
  unfold handlePaymentFailure
  dsimp only
  split
  · rw [safe_bind]
    apply safe_aside (calls_perform (.inr (.inr (.inl rfl))))
    intro r w₁
    cases r with
    | error e => trivial
    | ok now =>
        rw [andThen_ok, safe_bind]
        -- PAST_DUE is the last status this cycle writes
        apply h.safe_update (by simp)
        intro r w₂ v₂ _
        cases r with
        | error _ => trivial
        | ok _ => exact safe_aside (aside_emit _ _ _) (fun _ _ => trivial)
  · rw [safe_bind]
    apply safe_aside (calls_perform (.inr (.inr (.inl rfl))))
    intro r w₁
    cases r with
    | error e => trivial
    | ok now =>
        rw [andThen_ok, safe_bind]
        refine safe_perform.mpr (fun w₂ env _ _ => ⟨⟨?_, ?_⟩, ?_⟩)
        · intros; contradiction
        · intros; contradiction
        · cases (api.serve _ env w₂).1 with
          | error _ => trivial
          | ok _ =>
              rw [andThen_ok, safe_bind]
              refine safe_perform.mpr (fun w₃ env' _ _ => ⟨⟨?_, ?_⟩, ?_⟩)
              · -- the count of retries goes without a status
                intro data st heq hst
                simp only [Call.subscriptionUpdate.injEq] at heq
                obtain ⟨-, rfl⟩ := heq
                cases hst
              · intro data heq
                cases heq
              · cases (api.serve _ env' w₃).1 <;> trivial

theorem billing_of_read {x : String} {sub : SubscriptionWithPlan}
    (hrow : (w.sub? x).bind w.withPlan = some sub) (hopen : sub.status ≠ .CANCELLED) :
    Billing id sub.id (Snapshot.read id w x (.unread true)) := by
  obtain ⟨hsub, hid⟩ := withPlan_eq_some hrow
  unfold Snapshot.read
  by_cases hx : x = id
  · subst hx
    refine .inl (if_pos ⟨rfl, ?_⟩)
    rw [World.status?, hsub]
    simpa using hopen
  · exact .inr ⟨by rw [hid]; exact hx, if_neg (fun h => hx h.1)⟩

/-- The rest of a billing cycle that found its subscription open. -/
theorem billing_rest_proper {sub : SubscriptionWithPlan} (h : Billing id sub.id v) :
    Safe (properContract id) (processBillingCycle.rest cfg sub) (fun _ _ _ => True) w v := by
  unfold processBillingCycle.rest
  dsimp only
  rw [safe_bind]
  refine safe_aside (calls_perform (.inr (.inr (.inr (.inr ⟨_, rfl⟩))))) (fun r w₁ => ?_)
  cases r with
  | error e => trivial
  | ok existing =>
      rw [andThen_ok]
      split
      · exact (advancePeriod_proper h).mono (fun _ _ _ _ => trivial)
      · rw [safe_bind]
        refine safe_aside ?_ (fun r w₂ => ?_)
        · cases existing with
          | some payment => exact calls_pure
          | none => exact calls_perform (.inr (.inr (.inr (.inl ⟨_, rfl⟩))))
        · cases r with
          | error e => trivial
          | ok payment =>
              rw [andThen_ok, safe_tryCatch]
              unfold processBillingCycle.attempt
              rw [safe_bind]
              apply safe_aside (aside_charge _ _ _)
              intro r w₃
              -- whatever throws in the `try` block, the handler has the same snapshot
              cases r with
              | error e => exact handlePaymentFailure_proper h
              | ok _ =>
                  rw [andThen_ok, safe_bind]
                  apply (advancePeriod_proper h).mono
                  intro r w₄ v' heq
                  obtain rfl := heq
                  cases r with
                  | error e => exact handlePaymentFailure_proper h
                  | ok _ =>
                      apply safe_aside (aside_emit _ _ _)
                      intro r w₅
                      cases r with
                      | ok _ => trivial
                      | error e => exact handlePaymentFailure_proper h

/-- **A billing cycle writes statuses from its snapshot only.** -/
theorem processBillingCycle_proper (x : String) :
    Safe (properContract id) (processBillingCycle cfg x) (fun _ _ _ => True) w
      (.unread true) := by
  unfold processBillingCycle
  rw [safe_bind]
  unfold prisma.subscription.findUniqueOrThrow
  rw [safe_bind]
  refine safe_perform.mpr (fun w₁ env _ _ => ⟨proper_read.2, ?_⟩)
  show andThen _ _ _ _ _ (Snapshot.read id w₁ x (.unread true))
  rcases serve_subscriptionFindUniqueWithPlan x env w₁ with ⟨err, h⟩ | h
  · rw [h]
    trivial
  · rw [h]
    cases hrow : (w₁.sub? x).bind w₁.withPlan with
    | none => trivial
    | some sub =>
        show Safe _ (if sub.status = .CANCELLED ∨ sub.status = .EXPIRED then _ else _) _ _ _
        split
        · trivial
        next hopen =>
          -- the snapshot is held from the read on
          have hheld : Billing id sub.id (Snapshot.read id w₁ x (.unread true)) :=
            billing_of_read hrow (fun hc => hopen (.inl hc))
          generalize Snapshot.read id w₁ x (.unread true) = v at hheld
          exact billing_rest_proper hheld

/-- A cancellation at period end writes back the status it has read. -/
theorem cancelAtPeriodEnd_proper (x : String) :
    Safe (properContract id) (subscriptions.cancel x false) (fun _ _ _ => True) w
      (.unread false) := by
  unfold subscriptions.cancel
  rw [safe_bind]
  refine safe_perform.mpr (fun w₁ env _ _ => ⟨proper_read.1, ?_⟩)
  show andThen _ _ _ _ _ (Snapshot.read id w₁ x (.unread false))
  rcases serve_subscriptionFindUnique x env w₁ with ⟨err, h⟩ | h
  · rw [h]
    trivial
  · rw [h]
    cases hrow : w₁.sub? x with
    | none => trivial
    | some sub =>
        show Safe _ (subscriptions.cancelledAt false >>= _) _ _ _
        rw [safe_bind]
        show Safe _ (prisma.subscription.update x _ >>= _) _ _ _
        rw [safe_bind]
        refine safe_perform.mpr (fun w₂ env' _ _ => ⟨⟨?_, ?_⟩, ?_⟩)
        · intro data st heq hst
          simp only [Call.subscriptionUpdate.injEq] at heq
          obtain ⟨rfl, rfl⟩ := heq
          have hst : sub.status = st := by simpa using hst
          have hread : w₁.status? x = some st := by rw [World.status?, hrow, ← hst]; rfl
          constructor
          · -- a cancelled row was read: nothing is held after the write
            intro heq
            obtain rfl := heq
            simp [Snapshot.read, hread, trackSnapshot, Snapshot.isHeld]
          · -- any other status is written from the snapshot that was taken
            intro hne
            simp [Snapshot.read, hread, hne, Snapshot.isHeld]
        · intro data heq
          cases heq
        · cases (api.serve _ env' w₂).1 with
          | error _ => trivial
          | ok _ =>
              rw [andThen_ok, safe_bind]
              apply safe_aside (aside_emit _ _ _)
              intro r _
              cases r <;> trivial

theorem track_harmless (e : CallEvent) : trackSnapshot id .harmless e = .harmless := by
  unfold trackSnapshot
  split <;> simp [Snapshot.read]

theorem safe_harmless {p : Service α} {may : Permissions} (hmay : may.writesBack = false)
    (hp : Calls api (Call.isOrdinary may) p) :
    Safe (properContract id) p (fun _ _ _ => True) w .harmless := by
  refine (safe_of_calls (C := properContract id) (fun _ => trivial) (fun _ _ _ _ _ => trivial)
    (fun e he _ => ⟨⟨?_, ?_⟩, trivial, track_harmless e⟩) hp).mono (fun _ _ _ _ => trivial)
  · intro data st heq hst
    rw [heq] at he
    refine ⟨fun _ => by rw [track_harmless]; exact fun h => h, fun hne => ?_⟩
    -- no status, CANCELLED, or a status that may not be written back
    rcases he.status with he | he | he
    · rw [he] at hst
      cases hst
    · rw [he] at hst
      exact absurd (Option.some.inj hst).symm hne
    · rw [hmay] at he
      cases he
  · intro data heq hst
    rw [heq] at he
    rcases he.1 with h | h <;> rw [h] at hst <;> cases hst

/-- **Every operation writes a status other than CANCELLED from a snapshot
only.** -/
theorem operation_proper (op : Operation) :
    Safe (properContract id) ((fun _ => ()) <$> op.body cfg) (fun _ _ _ => True) w
      (snapshotOf op) := by
  apply Safe.map
  cases hop : op.bills with
  | some x =>
      have hsnapshot : snapshotOf op = .unread true := by
        cases op <;> first | rfl | cases hop
      rw [hsnapshot]
      exact safe_billing hop (processBillingCycle_proper x)
  | none =>
      -- of the other operations only a cancellation at period end writes back
      by_cases hback : op.permissions.writesBack = true
      · cases op with
        | cancel x immediately =>
            cases immediately with
            | true => cases hback
            | false => exact (cancelAtPeriodEnd_proper x).map
        | _ => cases hback
      · have hsnapshot : snapshotOf op = .harmless := by
          cases op with
          | cancel x immediately =>
              cases immediately with
              | true => rfl
              | false => exact absurd rfl hback
          | _ => first | rfl | cases hop
        rw [hsnapshot]
        exact safe_harmless (Bool.not_eq_true _ ▸ hback) (operation_calls cfg op hop)

end Walk

/-! ## §3. The pool. -/

/-- The stored status of one subscription after a call. -/
theorem status?_after (id : String) (e : CallEvent) :
    (e.after api).status? id = e.before.status? id
      ∨ (∃ data st, isRejected e = false ∧ e.call = .subscriptionUpdate id data
          ∧ data.status = some st ∧ (e.after api).status? id = some st)
      ∨ (∃ data, e.call = .subscriptionCreate data
          ∧ (e.after api).status? id = some data.status
          ∧ e.before.status? id = none) := by
  unfold World.status?
  cases hanswered : isRejected e with
  | true =>
      rw [after_of_isRejected hanswered]
      exact .inl rfl
  | false =>
      rcases lookup_after e id with hsame | ⟨data, old, hcall, -, hold, hafter⟩
        | ⟨data, start, finish, hcall, hnew, hafter⟩
      · rw [hsame]
        exact .inl rfl
      · rw [hold, hafter]
        cases hst : data.status with
        | none =>
            refine .inl ?_
            simp [SubscriptionData.apply, hst]
        | some st =>
            refine .inr (.inl ⟨data, st, rfl, hcall, hst, ?_⟩)
            simp [SubscriptionData.apply, hst]
      · rw [hnew, hafter]
        exact .inr (.inr ⟨data, hcall, rfl, rfl⟩)

/-- The backend, with what each execution holds of the row. -/
abbrev cancellations (cfg : Config) (id : String) : System Api World Env Operation Snapshot :=
  concurrent cfg snapshotOf (trackSnapshot id)

/-- No execution holds a snapshot of a cancelled row. -/
def NoneHeld (id : String) (w : World) (vs : List Snapshot) : Prop :=
  w.status? id = some .CANCELLED → ∀ v ∈ vs, ¬ v.isHeld

/-- A cancelled row stays cancelled. -/
def StaysCancelled (id : String) (w w' : World) : Prop :=
  w.status? id = some .CANCELLED → w'.status? id = some .CANCELLED

/-- A snapshot comes to be held by reading a row that is not cancelled. -/
theorem held_of_track {id : String} {v : Snapshot} {e : CallEvent}
    (h : (trackSnapshot id v e).isHeld) (hc : e.before.status? id = some .CANCELLED) :
    v.isHeld := by
  have hread : ∀ x, (v.read id e.before x).isHeld → v.isHeld := by
    intro x hx
    cases v with
    | unread billing => simp [Snapshot.read, hc, Snapshot.isHeld] at hx
    | harmless => exact hx
    | held billing => trivial
  unfold trackSnapshot at h
  split at h
  · exact hread _ h
  · exact hread _ h
  · split at h
    · exact h.elim
    · exact h
  · split at h
    · exact h.elim
    · exact h
  · exact h

/-- **What one call preserves.** -/
theorem proper_keeps {id : String} {v : Snapshot} {e : CallEvent} {pre post : List Snapshot}
    (hp : Proper id v e) (hinv : NoneHeld id e.before (pre ++ v :: post))
    (hallow : Uncontended id v (pre ++ post) e) :
    StaysCancelled id e.before (e.after api)
      ∧ NoneHeld id (e.after api) (pre ++ trackSnapshot id v e :: post) := by
  rcases status?_after id e with hsame | ⟨data, st, hanswered, hcall, hst, hafter⟩ |
    ⟨data, hcall, hafter, hnew⟩
  · -- the status stays: nobody comes to hold a snapshot of a cancelled row
    refine ⟨fun hc => hsame.trans hc, fun hc u hu => ?_⟩
    have hbefore : e.before.status? id = some .CANCELLED := hsame.symm.trans hc
    have hnone := hinv hbefore
    rcases List.mem_append.mp hu with hu | hu
    · exact hnone u (List.mem_append_left _ hu)
    · rcases List.mem_cons.mp hu with rfl | hu
      · exact fun hheld => hnone v (by simp) (held_of_track hheld hbefore)
      · exact hnone u (List.mem_append_right _ (List.mem_cons_of_mem _ hu))
  · obtain ⟨hcancel, hother⟩ := hp.1 data st hcall hst
    by_cases hst' : st = .CANCELLED
    · subst hst'
      -- CANCELLED is stored: the others hold nothing, and the writer no more
      refine ⟨fun _ => hafter, fun _ u hu => ?_⟩
      have hothers := hallow hanswered data hcall hst
      rcases List.mem_append.mp hu with hu | hu
      · exact hothers u (List.mem_append_left _ hu)
      · rcases List.mem_cons.mp hu with rfl | hu
        · exact hcancel rfl
        · exact hothers u (List.mem_append_right _ hu)
    · -- another status is stored from a snapshot, so the row was not cancelled
      refine ⟨fun hc => absurd (hother hst') (hinv hc v (by simp)), fun hc => ?_⟩
      rw [hafter] at hc
      exact absurd (Option.some.inj hc) hst'
  · refine ⟨fun hc => ?_, fun hc => ?_⟩
    · rw [hnew] at hc
      cases hc
    · rw [hafter] at hc
      exact absurd (Option.some.inj hc) (hp.2 data hcall)

/-- What an execution may assume and has to guarantee. -/
def cancellationContract (cfg : Config) (id : String) : Contract api Snapshot :=
  interference (cancellations cfg id) (Uncontended id) (NoneHeld id) (StaysCancelled id)

theorem operation_keeps {cfg : Config} {id : String} {w : World} (op : Operation) :
    Safe (cancellationContract cfg id) ((cancellations cfg id).body op) (fun _ _ _ => True) w
      (snapshotOf op) := by
  have hproper : Safe (properContract id) ((cancellations cfg id).body op)
      (fun _ _ _ => True) w (snapshotOf op) := operation_proper op
  refine hproper.weaken (fun _ _ _ => trivial) (fun _ _ _ => trivial) ?_ rfl
  intro v e h hp
  obtain ⟨pre, post, hinv, hallow⟩ := h
  exact ⟨(proper_keeps hp hinv hallow).1,
    fun pre' post' hinv' hallow' => (proper_keeps hp hinv' hallow').2⟩

def cancellationDiscipline (cfg : Config) (id : String) :
    Discipline (cancellations cfg id) (Uncontended id) where
  inv := NoneHeld id
  rely := StaysCancelled id
  ended _ := True
  rely_refl _ := fun hc => hc
  rely_trans _ _ _ hab hbc := fun hc => hbc (hab hc)
  start w vs op hinv _ := by
    constructor
    · intro hc u hu
      rcases List.mem_append.mp hu with hu | hu
      · exact hinv hc u hu
      · -- an operation starts without a snapshot
        have hu : u = snapshotOf op := List.mem_singleton.mp hu
        subst hu
        cases op with
        | cancel x immediately => cases immediately <;> exact fun h => h
        | _ => exact fun h => h
    · exact operation_keeps op
  leave w pre v post _ hinv := by
    intro hc u hu
    exact hinv hc u (mem_others hu)
  drift w w' vs hd hinv := by
    obtain ⟨q, -, rfl⟩ := hd
    exact ⟨hinv, fun hc => hc⟩

/-- **CANCELLED is terminal when it is stored uncontended**: in every
interleaving of any number of operations in which, whenever CANCELLED is
stored in the row, no other execution holds a snapshot that it may write
back, a cancelled subscription is cancelled in every later state. -/
theorem cancelled_terminal (cfg : Config) (id : String) (w₀ : World)
    (P P' : Pool Api World Snapshot)
    (h₀ : Pool.Run (cancellations cfg id) (Uncontended id) ⟨w₀, []⟩ P)
    (h : Pool.Run (cancellations cfg id) (Uncontended id) P P')
    (hc : P.world.status? id = some .CANCELLED) :
    P'.world.status? id = some .CANCELLED := by
  have hidle : (cancellationDiscipline cfg id).Sound ⟨w₀, []⟩ :=
    Discipline.sound_idle (fun _ u hu => by cases hu)
  have hsound := (Discipline.run h₀ hidle).1
  exact (Discipline.run h hsound).2 hc

/-! ## §4. Scenarios. -/

section Scenarios

open Shop

/-- A billing cycle reads the subscription, then a cancellation is stored. -/
def cancelDuringCharge : List (Choice Operation Env) :=
  [.start (.runInline "sub"), .act 0 (on 2),
   .start (.cancel "sub" true), .act 1 (on 2), .act 1 (on 2), .act 1 (on 2)]

/-- The cycle goes on to the write that advances the period. -/
def chargeGoesOn : List (Choice Operation Env) :=
  [.act 0 (on 2), .act 0 (fresh 2 "pay"), .act 0 (on 2), .act 0 (on 2), .act 0 (on 2)]

/-- **A contended cancellation is lost**: the billing cycle that read the row
before the cancellation writes ACTIVE after it. -/
theorem cancelled_not_terminal :
    ¬ ∀ (cfg : Config) (id : String) (w₀ : World) (P P' : Pool Api World Snapshot),
      Pool.Run (cancellations cfg id) (fun _ _ _ => True) ⟨w₀, []⟩ P →
      Pool.Run (cancellations cfg id) (fun _ _ _ => True) P P' →
      P.world.status? id = some .CANCELLED → P'.world.status? id = some .CANCELLED := by
  intro hclaim
  have hrun : (Pool.advance (cancellations (cfg true) "sub") (fun _ _ _ => true)
      cancelDuringCharge ⟨world plan sub, []⟩).bind (fun P =>
        (Pool.advance (cancellations (cfg true) "sub") (fun _ _ _ => true)
          chargeGoesOn P).map (fun P' => (P.world.status? "sub", P'.world.status? "sub")))
      = some (some .CANCELLED, some .ACTIVE) := by
    decide +kernel
  obtain ⟨P, hP, hrest⟩ := Option.bind_eq_some_iff.mp hrun
  obtain ⟨P', hP', hstatus⟩ := Option.map_eq_some_iff.mp hrest
  obtain ⟨h₁, h₂⟩ := Prod.mk.inj hstatus
  have h := hclaim (cfg true) "sub" (world plan sub) P P'
    (Pool.advance_run (fun _ _ _ _ => trivial) hP)
    (Pool.advance_run (fun _ _ _ _ => trivial) hP') h₁
  rw [h₂] at h
  cases h

/-- The condition as a test. -/
def uncontended (id : String) (_ : Snapshot) (others : List Snapshot) (e : CallEvent) : Bool :=
  match e.call with
  | .subscriptionUpdate x data =>
      !(x == id && data.status == some .CANCELLED)
        || others.all (fun u => u matches .harmless || u matches .unread _)
  | _ => true

theorem uncontended_sound {id : String} {v : Snapshot} {others : List Snapshot} {e : CallEvent}
    (h : uncontended id v others e = true) : Uncontended id v others e := by
  intro _ data hcall hst u hu
  unfold uncontended at h
  rw [hcall] at h
  simp only [beq_self_eq_true, hst, Bool.and_self, Bool.not_true, Bool.false_or,
    List.all_eq_true] at h
  have hu := h u hu
  cases u <;> simp [Snapshot.isHeld] at hu ⊢

/-- The cancellation is stored before the billing cycle reads. -/
theorem cancelled_terminal_shop :
    ∃ P P', Pool.Run (cancellations (cfg true) "sub") (Uncontended "sub")
        ⟨world plan sub, []⟩ P
      ∧ Pool.Run (cancellations (cfg true) "sub") (Uncontended "sub") P P'
      ∧ P.world.status? "sub" = some .CANCELLED
      ∧ P'.world.status? "sub" = some .CANCELLED := by
  have hrun : (Pool.advance (cancellations (cfg true) "sub") (uncontended "sub")
      [.start (.runInline "sub"), .start (.cancel "sub" true),
        .act 1 (on 2), .act 1 (on 2), .act 1 (on 2)] ⟨world plan sub, []⟩).bind (fun P =>
        (Pool.advance (cancellations (cfg true) "sub") (uncontended "sub")
          [.act 0 (on 2), .act 0 (on 2)] P).map (fun _ => P.world.status? "sub"))
      = some (some .CANCELLED) := by
    decide +kernel
  obtain ⟨P, hP, hrest⟩ := Option.bind_eq_some_iff.mp hrun
  obtain ⟨P', hP', hstatus⟩ := Option.map_eq_some_iff.mp hrest
  have h₁ := Pool.advance_run (fun _ _ _ => uncontended_sound) hP
  have h₂ := Pool.advance_run (fun _ _ _ => uncontended_sound) hP'
  exact ⟨P, P', h₁, h₂, hstatus,
    cancelled_terminal (cfg true) "sub" (world plan sub) P P' h₁ h₂ hstatus⟩

end Scenarios

end Sorobill
