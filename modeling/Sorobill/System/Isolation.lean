/-
  Sorobill.System.Isolation
  ─────────────────────────
  **SUBSCRIPTIONS DO NOT DISTURB EACH OTHER.**

  As long as no execution that names a subscription is served, its row stays
  as it is, or is cancelled when its grace period has expired; its payments
  stay as they are, and no transaction charges them.

    • `ServerCall.Spares` — the calls that leave a subscription alone;
    • `ServerOperation.May.spares` — an operation that does not name a
      subscription makes no others;
    • `LeavesAlone` — what such a call does;
    • `subscriptions_are_isolated` — **and what follows for every interleaving**.
-/
import Sorobill.System.Authority

namespace Sorobill

open Effect
open Relational

/-! ## §1. Calls that leave a subscription alone. -/

/-- The operation names the subscription: a request on it, or its billing job. -/
def ServerOperation.Names (x : String) : ServerOperation → Prop
  | .billing (.cancel id _) => id = x
  | .billing (.pause id) => id = x
  | .billing (.resume id) => id = x
  | .billing (.runInline id) => id = x
  | .billing (.billingJob job) => job.data = x
  | _ => False

instance (x : String) : (op : ServerOperation) → Decidable (op.Names x)
  | .billing (.cancel id _) => inferInstanceAs (Decidable (id = x))
  | .billing (.pause id) => inferInstanceAs (Decidable (id = x))
  | .billing (.resume id) => inferInstanceAs (Decidable (id = x))
  | .billing (.runInline id) => inferInstanceAs (Decidable (id = x))
  | .billing (.billingJob job) => inferInstanceAs (Decidable (job.data = x))
  | .billing (.createSubscription _) => .isFalse (fun h => h)
  | .billing (.retryPayment _) => .isFalse (fun h => h)
  | .billing (.runBilling _) => .isFalse (fun h => h)
  | .billing .tick => .isFalse (fun h => h)
  | .billing .expireGracePeriods => .isFalse (fun h => h)
  | .deliver _ => .isFalse (fun h => h)
  | .createPlan _ => .isFalse (fun h => h)
  | .createMerchantPlan _ _ => .isFalse (fun h => h)
  | .syncContract _ _ => .isFalse (fun h => h)
  | .deactivatePlan _ => .isFalse (fun h => h)
  | .createEndpoint _ => .isFalse (fun h => h)
  | .deactivateEndpoint _ => .isFalse (fun h => h)
  | .testEvent _ _ => .isFalse (fun h => h)
  | .verifyWallet _ => .isFalse (fun h => h)
  | .ingest _ _ => .isFalse (fun h => h)
  | .poll _ _ => .isFalse (fun h => h)

/-- The call leaves the subscription `x`, its payments and the transactions that
charge them alone, unless it cancels it. -/
def ServerCall.Spares (s : Server) (x : String) : ServerCall → Prop
  | .core (.subscriptionUpdate id data) => id ≠ x
      ∨ ∃ now, data = { status := some .CANCELLED, cancelledAt := some (some (some now)) }
  | .core (.paymentCreate data) => data.subscriptionId ≠ x
  | .core (.paymentUpdate id _) => ∀ p ∈ s.core.payments, p.id = id → p.subscriptionId ≠ x
  | .core (.paymentUpdateMany id _ _) => id ≠ x
  | .core (.sendTransaction key _) =>
      ∃ p ∈ s.core.payments, p.idempotencyKey = key ∧ p.subscriptionId ≠ x
  | _ => True

section Sparing

variable {s : Server} {x : String}

/-- What keeps to the rows of another subscription. -/
theorem Call.Within.spares {c : Call} {id : String} (h : c.Within s id) (hid : id ≠ x) :
    (ServerCall.core c).Spares s x := by
  cases c with
  | subscriptionUpdate y data => exact .inl (fun hy => hid (Eq.trans (Eq.symm h) hy))
  | paymentCreate data => exact fun hy => hid (Eq.trans (Eq.symm h) hy)
  | paymentUpdate pid data => exact fun p hp hpid hy => hid ((h p hp hpid).symm.trans hy)
  | paymentUpdateMany y status data => exact fun hy => hid (Eq.trans (Eq.symm h) hy)
  | sendTransaction key inv =>
      obtain ⟨p, hp, hkey, hsub⟩ := h
      exact ⟨p, hp, hkey, fun hy => hid (hsub.symm.trans hy)⟩
  | _ => trivial

/-- What moves no money, when it spares the row. -/
theorem Call.isOrdinary.spares {c : Call} {may : Permissions} (h : c.isOrdinary may)
    (hrow : ∀ id data, c = .subscriptionUpdate id data → id ≠ x
      ∨ ∃ now, data = { status := some .CANCELLED, cancelledAt := some (some (some now)) }) :
    (ServerCall.core c).Spares s x := by
  cases c with
  | subscriptionUpdate id data => exact hrow id data rfl
  | paymentCreate data => exact h.elim
  | paymentUpdate id data => exact h.elim
  | paymentUpdateMany id status data => exact h.elim
  | sendTransaction key inv => exact h.elim
  | _ => trivial

/-- A request on another subscription. -/
theorem Call.isRequest.spares {c : Call} {may : Permissions} {id : String}
    (h : c.isRequest may id) (hid : id ≠ x) : (ServerCall.core c).Spares s x := by
  refine h.1.spares (fun y data hc => .inl (fun hy => hid ?_))
  subst hc
  exact Eq.trans (Eq.symm h.2) hy

/-- A tick. -/
theorem Call.isSweep.spares {c : Call} {may : Permissions} (h : c.isSweep may ∧ c.onlyCancels) :
    (ServerCall.core c).Spares s x := by
  refine h.1.1.spares (fun y data hc => .inr ?_)
  obtain ⟨-, hexpires⟩ := h
  subst hc
  exact hexpires

/-- **An operation that does not name a subscription leaves it alone.** -/
theorem ServerOperation.May.spares {d : Deployment} {op : ServerOperation} {c : ServerCall}
    (h : op.May d s c) (hnames : ¬ op.Names x) : c.Spares s x := by
  cases c with
  | core c =>
      cases op with
      | billing op =>
          cases op with
          | createSubscription body =>
              exact Call.isOrdinary.spares h.1 (fun id data hc => absurd hc (h.2 id data))
          | cancel id immediately => exact Call.isRequest.spares h hnames
          | pause id => exact Call.isRequest.spares h hnames
          | resume id => exact Call.isRequest.spares h hnames
          | retryPayment id => cases c <;> first | exact False.elim h | trivial
          | runBilling id => cases c <;> first | exact False.elim h | trivial
          | runInline id => exact Call.Within.spares h.2 hnames
          | billingJob job => exact Call.Within.spares h.2 hnames
          | tick => exact Call.isSweep.spares h
          | expireGracePeriods => exact Call.isSweep.spares h
      | deliver job =>
          obtain rfl : c = .dateNow := h
          trivial
      | testEvent type payload =>
          have hordinary : c.isOrdinary {} := Call.isWebhook.isOrdinary h
          refine hordinary.spares (fun id data hc => ?_)
          subst hc
          exact False.elim h
      | _ => exact False.elim h
  | _ => trivial

end Sparing

/-! ## §2. What they do. -/

/-- **The subscription `x` is left alone**: it may have been cancelled, but its
payments and the transactions that charge them are what they were. -/
structure LeavesAlone (x : String) (s s' : Server) : Prop where
  row : ∀ r ∈ s.core.subscriptions, r.id = x → ∃ r' ∈ s'.core.subscriptions,
    r' = r ∨ ∃ cancelledAt updatedAt,
      r' = { r with status := .CANCELLED, cancelledAt, updatedAt }
  payments : ∀ p, p.subscriptionId = x → (p ∈ s'.core.payments ↔ p ∈ s.core.payments)
  chain : ∀ tx ∈ s'.core.chain, tx ∈ s.core.chain
    ∨ ∀ p ∈ s'.core.payments, p.idempotencyKey = tx.issuedFor → p.subscriptionId ≠ x

theorem LeavesAlone.of_billsNobody {x : String} {s s' : Server} (h : s.BillsNobody s') :
    LeavesAlone x s s' where
  row r hr _ := ⟨r, h.1 ▸ hr, .inl rfl⟩
  payments p _ := by rw [h.2.1]
  chain tx htx := .inl (h.2.2 ▸ htx)

theorem LeavesAlone.refl (x : String) (s : Server) : LeavesAlone x s s :=
  .of_billsNobody (.refl s)

theorem LeavesAlone.trans {x : String} {a b c : Server} (h : LeavesAlone x a b)
    (h' : LeavesAlone x b c) : LeavesAlone x a c where
  row r hr hid := by
    obtain ⟨r', hr', heq⟩ := h.row r hr hid
    have hid' : r'.id = x := by
      rcases heq with rfl | ⟨_, _, rfl⟩ <;> exact hid
    obtain ⟨r'', hr'', heq'⟩ := h'.row r' hr' hid'
    refine ⟨r'', hr'', ?_⟩
    rcases heq with rfl | ⟨_, _, rfl⟩
    · exact heq'
    · rcases heq' with rfl | ⟨cancelledAt, updatedAt, rfl⟩
      · exact .inr ⟨_, _, rfl⟩
      · exact .inr ⟨cancelledAt, updatedAt, rfl⟩
  payments p hp := (h'.payments p hp).trans (h.payments p hp)
  chain tx htx := by
    rcases h'.chain tx htx with htx | hother
    · refine (h.chain tx htx).imp_right (fun hother p hp hkey hsub => ?_)
      exact hother p ((h'.payments p hsub).mp hp) hkey hsub
    · exact .inr hother

section Sparing

variable {s : Server} {x : String}

theorem core_row {c : Call} (env : Env) (h : (ServerCall.core c).Spares s x) {r : Subscription}
    (hr : r ∈ s.core.subscriptions) (hid : r.id = x) :
    ∃ r' ∈ ((coreEvent s c env).after api).subscriptions,
      r' = r ∨ ∃ cancelledAt updatedAt,
        r' = { r with status := .CANCELLED, cancelledAt, updatedAt } := by
  cases subscriptionStep (coreEvent s c env) with
  | kept hsubs => exact ⟨r, hsubs ▸ hr, .inl rfl⟩
  | @updated id data old hcall _ _ ht =>
      obtain rfl : c = .subscriptionUpdate id data := hcall
      by_cases hsel : r.id = id
      · rcases h with hne | ⟨now, rfl⟩
        · exact absurd (hsel.symm.trans hid) hne
        · exact ⟨_, Table.mem_update_of_selected ht hr (beq_iff_eq.mpr hsel),
            .inr ⟨some now, env.now, rfl⟩⟩
      · exact ⟨r, Table.mem_update_of_not ht hr (beq_eq_false_iff_ne.mpr hsel), .inl rfl⟩
  | created hcall _ ht => exact ⟨r, (Table.mem_insert ht).mpr (.inl hr), .inl rfl⟩

/-- An update that writes no row of `x`. -/
theorem update_spares {t t' : Table Payment Payment.Clash} {sel : Payment → Bool}
    {data : PaymentData} (ht : t.update? sel data.apply = some t')
    (hsel : ∀ p ∈ t, sel p = true → p.subscriptionId ≠ x) {p : Payment}
    (hp : p.subscriptionId = x) : p ∈ t' ↔ p ∈ t := by
  constructor
  · intro hmem
    rcases Table.update_origin ht hmem with hmem | ⟨q, hq, hselected, rfl⟩
    · exact hmem
    · exact absurd hp (hsel q hq hselected)
  · intro hmem
    refine Table.mem_update_of_not ht hmem (Bool.eq_false_iff.mpr (fun hselected => ?_))
    exact hsel p hmem hselected hp

theorem core_spared {c : Call} (env : Env) (h : (ServerCall.core c).Spares s x) {p : Payment}
    (hp : p.subscriptionId = x) :
    p ∈ ((coreEvent s c env).after api).payments ↔ p ∈ s.core.payments := by
  cases paymentStep (coreEvent s c env) with
  | kept hpayments _ => rw [hpayments]
  | @created data id hcall ht _ =>
      obtain rfl : c = .paymentCreate data := hcall
      refine (Table.mem_insert ht).trans ⟨fun hmem => ?_, .inl⟩
      rcases hmem with hmem | rfl
      · exact hmem
      · exact absurd hp h
  | @updated id data old hcall _ ht _ =>
      obtain rfl : c = .paymentUpdate id data := hcall
      exact update_spares ht (fun q hq hselected => h q hq (beq_iff_eq.mp hselected)) hp
  | @updatedMany id status data hcall ht _ =>
      obtain rfl : c = .paymentUpdateMany id status data := hcall
      refine update_spares ht (fun q _ hselected hq => h ?_) hp
      rw [Bool.and_eq_true, beq_iff_eq] at hselected
      exact hselected.1.symm.trans hq

theorem core_uncharged {c : Call} (env : Env) (h : (ServerCall.core c).Spares s x) :
    ∀ tx ∈ ((coreEvent s c env).after api).chain, tx ∈ s.core.chain
      ∨ ∀ p ∈ ((coreEvent s c env).after api).payments,
        p.idempotencyKey = tx.issuedFor → p.subscriptionId ≠ x := by
  intro tx htx
  by_cases hc : c.region = .chain
  · cases c with
    | sendTransaction key inv =>
        have hpayments : ((coreEvent s (.sendTransaction key inv) env).after api).payments
            = s.core.payments :=
          ((serve_changed (.sendTransaction key inv) env s.core).payments_eq
            (fun hr => by cases hr)).1
        rw [hpayments]
        unfold Event.after at htx
        rcases serve_sendTransaction key inv env s.core with
          ⟨err, hs⟩ | ⟨detail, -, hs⟩ | ⟨hash, applied, -, hs⟩
        · rw [hs] at htx
          exact .inl htx
        · rw [hs] at htx
          exact .inl htx
        · rw [hs] at htx
          refine (List.mem_append.mp htx).imp_right (fun htx p hp hkey => ?_)
          obtain rfl := List.mem_singleton.mp htx
          obtain ⟨q, hq, hqkey, hqsub⟩ := h
          obtain rfl := payment_unique_key hp hq (hkey.trans hqkey.symm)
          exact hqsub
    | _ => cases hc
  · rw [show ((coreEvent s c env).after api).chain = s.core.chain from
      (serve_changed c env s.core).chain_eq hc] at htx
    exact .inl htx

/-- **A call that spares a subscription leaves it alone.** -/
theorem leavesAlone_call {e : ServerEvent} (h : e.call.Spares e.before x) :
    LeavesAlone x e.before (e.after serverApi) := by
  obtain ⟨s, c, env⟩ := e
  show LeavesAlone x s (serverApi.serve c env s).2
  rcases server_cases c env s with ⟨err, hs⟩ | hs
  · rw [hs]
    exact .refl x s
  rw [hs]
  cases c with
  | core c =>
      exact ⟨fun r hr hid => core_row env.toEnv h hr hid,
        fun p hp => core_spared env.toEnv h hp, core_uncharged env.toEnv h⟩
  | _ => exact .of_billsNobody (billsNobody_other s (fun _ hc => by cases hc) env)

end Sparing

/-! ## §3. Interleavings. -/

/-- **Subscriptions are isolated.**  While no execution that names `x` is
served, whatever else is going on leaves the subscription alone. -/
theorem subscriptions_are_isolated (d : Deployment) (x : String)
    (P P' : Pool ServerApi Server ServerOperation) (h : ReachedIn d P)
    (hmoves : Pool.Moves (namedServer d) (fun op _ _ => ¬ op.Names x) (fun _ => True) P P') :
    LeavesAlone x P.world P'.world :=
  have hlaw : ∀ (op : ServerOperation) (s : Server),
      Safe (keptTo (mayDo d) { d with }) (op.body d) (fun _ _ _ => True) s op :=
    fun op _ => body_within op
  Growth.relates (governs_attributed (d := { d with }) (fun op _ _ => ¬ op.Names x) hlaw)
    (LeavesAlone.refl x)
    (fun _ _ _ h h' => h.trans h')
    (fun _ _ _ hnames _ hlawful => leavesAlone_call (hlawful.2.spares hnames))
    (fun _ _ hdrift _ => .of_billsNobody (billsNobody_drift hdrift)) (h.sound hlaw) hmoves

namespace Shop

/-- A second subscription to the plan. -/
def subscribesAgain : List (Choice ServerOperation ServerEnv) :=
  .start (.billing (.createSubscription ⟨"plan", wallet.address⟩)) :: answersAll 1 3
    ++ [.act 0 (answers 1 ["sub2"])] ++ answersAll 1 1

/-- The pool after a list of choices, none of which serves an execution that
names `x`. -/
def performedBeside (x : String) (cs : List (Choice ServerOperation ServerEnv))
    (P : Pool ServerApi Server ServerOperation) : Option (Pool ServerApi Server ServerOperation) :=
  Pool.advance (namedServer (deployment false)) (fun op _ _ => !decide (op.Names x)) cs P

theorem moves_of_performedBeside {x : String} {cs : List (Choice ServerOperation ServerEnv)}
    {P P' : Pool ServerApi Server ServerOperation} (h : performedBeside x cs P = some P') :
    Pool.Moves (namedServer (deployment false)) (fun op _ _ => ¬ op.Names x) (fun _ => True) P P' :=
  (Pool.advance_run (fun op _ _ hok => by simpa using hok) h).moves

end Shop

open Shop

/-- The one subscription is charged; the other is left alone. -/
theorem subscriptions_are_isolated_shop :
    ∃ P P' : Pool ServerApi Server ServerOperation, ReachedIn (deployment false) P
      ∧ P.world.core.subscriptions.rows.map (·.id) = ["sub", "sub2"]
      ∧ P'.world.core.payments.rows.map (·.subscriptionId) = ["sub"]
      ∧ LeavesAlone "sub2" P.world P'.world := by
  have hrun : (performed (opensShop ++ subscribesAgain) ⟨Server.fresh, []⟩).bind (fun P =>
      (performedBeside "sub2" (chargesSub ++ booksPayment) P).map (fun P' =>
        (P.world.core.subscriptions.rows.map (·.id),
          P'.world.core.payments.rows.map (·.subscriptionId))))
      = some (["sub", "sub2"], ["sub"]) := by
    decide +kernel
  obtain ⟨P, hP, hrest⟩ := Option.bind_eq_some_iff.mp hrun
  obtain ⟨P', hP', hrows⟩ := Option.map_eq_some_iff.mp hrest
  obtain ⟨hsubs, hpayments⟩ := Prod.mk.inj hrows
  have hreached : ReachedIn (deployment false) P := moves_of_performed hP
  exact ⟨P, P', hreached, hsubs, hpayments,
    subscriptions_are_isolated (deployment false) "sub2" P P' hreached
      (moves_of_performedBeside hP')⟩

end Sorobill
