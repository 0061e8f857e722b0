/-
  Sorobill.System.Cycles
  ──────────────────────
  **THE BILLING CYCLE MAKES LAWFUL CALLS**, whatever the others do in between.

    • `executeSorobanBilling_backed`, `submitPayment_backed` — a charge writes
      only what has happened, and when it returns the payment is booked;
    • `safe_rest_amid`, `safe_cycle_amid` — the shape of a cycle, for any contract
      of the services;
    • `chargePayment_backed`, `handlePaymentFailure_backed` — both ways on;
    • `processBillingCycle_backed` — **the cycle**.
-/
import Sorobill.System.Emissions

namespace Sorobill

open Effect
open Relational
open JavaScript (JsValue)

/-! ## §1. What a cycle knows. -/

section Knowledge

variable {d : Epoch} {s s₁ : Server} {sub : SubscriptionWithPlan} {pid key : String}

/-- The key and the subscription of a row that is known. -/
theorem Server.HasPayment.row {sid : String} (h : s.HasPayment pid key sid) {p : Payment}
    (hp : p ∈ s.core.payments) (hid : p.id = pid) :
    p.idempotencyKey = key ∧ p.subscriptionId = sid := by
  obtain ⟨q, hq, hqid, hkey, hsid⟩ := h
  obtain rfl := payment_unique hp hq (hid.trans hqid.symm)
  exact ⟨hkey, hsid⟩

theorem Server.Begun.status {p : Payment} (h : s.Begun pid) (hp : p ∈ s.core.payments)
    (hid : p.id = pid) : p.status ≠ .PENDING := by
  obtain ⟨q, hq, hqid, hstatus⟩ := h
  obtain rfl := payment_unique hp hq (hid.trans hqid.symm)
  exact hstatus

/-- **What has been read with plan and wallet is known.** -/
theorem Server.Valid.knows {id : String} (h : s.Valid d)
    (hread : (s.core.sub? id).bind s.core.withPlan = some sub) : s.Knows sub := by
  obtain ⟨row, hrow, hplan⟩ := Option.bind_eq_some_iff.mp hread
  unfold World.withPlan at hplan
  obtain ⟨plan, hp, hplan⟩ := Option.bind_eq_some_iff.mp hplan
  obtain ⟨wallet, hw, hplan⟩ := Option.bind_eq_some_iff.mp hplan
  cases hplan
  obtain ⟨hpmem, hpid⟩ := Table.find?_mem hp
  obtain ⟨hwmem, hwid⟩ := Table.find?_mem hw
  exact
    { row := ⟨row, (Table.find?_mem hrow).1, .refl row⟩
      plan := ⟨plan, hpmem, .refl plan⟩
      planId := beq_iff_eq.mp hpid
      wallet := hwmem
      walletId := beq_iff_eq.mp hwid
      contract := h.contracts plan hpmem }

/-- **A payment of a known subscription bills the plan that was read.** -/
theorem Payment.Billed.known {p : Payment} (h : p.Billed d.cfg s) (hknows : s.Knows sub)
    (hid : p.subscriptionId = sub.id) :
    p.amount = sub.plan.amount ∧ p.assetCode = sub.plan.assetCode := by
  obtain ⟨x, hx, hxid, plan, hplan, hplanId, hamount, hcode, -⟩ := h.price
  obtain ⟨y, hy, hb⟩ := hknows.row
  obtain ⟨plan', hplan', ⟨_, _, rfl⟩, -⟩ := hknows.plan
  obtain rfl := subscription_unique hx hy ((hxid.trans hid).trans hb.id.symm)
  obtain rfl := plan_unique hplan hplan' ((hplanId.trans hb.planId).trans hknows.planId.symm)
  exact ⟨hamount, hcode⟩

/-- **A transaction for a payment that has begun is authorised**, under a
contract id of the plan that was read. -/
theorem Server.Knows.authorises {admin : String} {contractPlanId : Nat} (h : s.Knows sub)
    (hrow : s.HasPayment pid key sub.id) (hbegun : s.Begun pid)
    (hlive : d.cfg.billing.testMode = false) (hsoroban : useSoroban d.cfg sub.plan = true)
    (hadmin : d.cfg.publicKeyOfSecret d.cfg.stellar.treasurySecretKey = some admin)
    (hcontract : sub.plan.contractPlanId = some contractPlanId) :
    Tx.Authorised d.cfg s key ⟨"execute_billing", admin, sub.wallet.address, contractPlanId⟩ := by
  unfold useSoroban at hsoroban
  simp only [Bool.and_eq_true] at hsoroban
  obtain ⟨p, hp, hpid, hkey, hsid⟩ := hrow
  obtain ⟨x, hx, hb⟩ := h.row
  refine ⟨hlive, hsoroban.1, rfl, hadmin, p, hp, hkey, hbegun.status hp hpid, x, hx,
    hb.id.trans hsid.symm, ⟨sub.wallet, h.wallet, h.walletId.trans hb.walletId.symm, rfl⟩, ?_⟩
  rw [hb.planId, ← h.planId]
  exact h.contract _ hcontract

/-- The payment is collected as the cycle says. -/
theorem Server.Knows.collects (h : s.Knows sub) {p : Payment} (hsid : p.subscriptionId = sub.id)
    (hmode : useSoroban d.cfg sub.plan = true ∨ d.cfg.billing.testMode = true) :
    p.Collected d.cfg s (if useSoroban d.cfg sub.plan then "soroban" else "horizon") := by
  by_cases hsoroban : useSoroban d.cfg sub.plan = true
  · rw [if_pos hsoroban]
    unfold useSoroban at hsoroban
    simp only [Bool.and_eq_true] at hsoroban
    obtain ⟨n, hn⟩ := Option.isSome_iff_exists.mp hsoroban.2
    obtain ⟨x, hx, hb⟩ := h.row
    refine .soroban hsoroban.1.1 hsoroban.1.2 ⟨x, hx, hb.id.trans hsid.symm, n, ?_⟩
    rw [hb.planId, ← h.planId]
    exact h.contract n hn
  · rw [if_neg hsoroban]
    exact .horizon (hmode.resolve_left hsoroban)

/-- A row that counts as settled was booked. -/
theorem Server.Valid.settled {hash : String} (h : s.Valid d)
    (hread : settledHash (s.core.payments.find? (PaymentKey.byId pid).selects) = some hash) :
    s.Booked pid := by
  obtain ⟨p, hp, hsettled⟩ := Option.bind_eq_some_iff.mp hread
  obtain ⟨hmem, hid⟩ := Table.find?_mem hp
  obtain ⟨-, hstatus⟩ := Option.filter_eq_some_iff.mp hsettled
  have hsuccess : p.status = .SUCCESS := beq_iff_eq.mp (Bool.and_eq_true_iff.mp hstatus).2
  have hbooked := ((h.accounts p hmem).booked hsuccess).1
  rwa [show p.id = pid from beq_iff_eq.mp hid] at hbooked

end Knowledge

/-! ## §2. Charges. -/

section Charges

variable {d : Epoch} {s : Server} {sub : SubscriptionWithPlan} {pid key : String}

/-- **A payment is written**: what is written is backed by what is known of its
row, and once it is answered a SUCCESS is booked, and whatever is not PENDING
has begun. -/
theorem safe_record {data : PaymentData} {Q : Post Api Server Unit Payment}
    (hdata : ∀ s₁ : Server, s.Grows s₁ → s₁.Valid d → ∀ p ∈ s₁.core.payments, p.id = pid →
      PaymentRecord d.cfg s₁ p data)
    (herror : ∀ err s₁, s.Grows s₁ → Q (.error err) s₁ ())
    (hok : ∀ p (s₁ : Server), s.Grows s₁ → (data.status = some .SUCCESS → s₁.Booked pid) →
      (∀ status, data.status = some status → status ≠ .PENDING → s₁.Begun pid) →
      Q (.ok p) s₁ ()) :
    Safe (lawfully d) (prisma.payment.update pid data) Q s () := by
  refine safe_service (fun s₁ hgrows hvalid => ⟨hdata s₁ hgrows hvalid,
    fun env r w hserve _ hgrows' => ?_⟩)
  rcases serve_paymentUpdate pid data env s₁.core with ⟨err, hs⟩ | ⟨old, t, hold, ht, hs⟩
  · rw [hs] at hserve
    cases hserve
    exact herror err _ hgrows'
  rw [hs] at hserve
  cases hserve
  obtain ⟨hmem, hid⟩ := payment?_eq_some.mp hold
  refine hok _ _ hgrows' (fun hsuccess => ?_) (fun status hstatus hne => ?_)
  · refine ⟨⟨data.apply old, env.now⟩, ?_, hid⟩
    show _ ∈ if data.status = some .SUCCESS then _ else _
    rw [if_pos hsuccess]
    exact List.mem_append_right _ (List.mem_singleton_self _)
  · refine ⟨data.apply old, Table.mem_update_of_selected ht hmem (beq_iff_eq.mpr hid), hid, ?_⟩
    show data.status.getD old.status ≠ .PENDING
    rw [hstatus]
    exact hne

/-- What is known when `invokeAsAdmin` returns: the transaction was accepted. -/
def acceptedFor (key : String) : Post Api Server Unit (String × JsValue) := fun r s _ =>
  ∀ hash result, r = .ok (hash, result) → ∃ tx ∈ s.core.chain, tx.hash = hash ∧ tx.issuedFor = key

theorem acceptedFor_error {err : Thrown} {s : Server} : acceptedFor key (.error err) s () := nofun

theorem invokeAsAdmin_backed {inv : Invocation} (h : Tx.Authorised d.cfg s key inv) :
    Safe (lawfully d) (invokeAsAdmin d.cfg key inv) (acceptedFor key) s () := by
  unfold invokeAsAdmin keypairFromSecret getContract
  split
  · exact acceptedFor_error
  split
  swap
  · exact acceptedFor_error
  show Safe _ (server.getAccount _ >>= _) _ _ _
  rw [safe_bind]
  refine safe_unconditional (fun _ => trivial) (fun r s₁ hgrows₁ _ => ?_)
  cases r with
  | error err => exact acceptedFor_error
  | ok _ =>
    rw [andThen_ok]
    split
    · exact acceptedFor_error
    show Safe _ (server.simulateTransaction _ >>= _) _ _ _
    rw [safe_bind]
    refine safe_unconditional (fun _ => trivial) (fun r s₂ hgrows₂ _ => ?_)
    cases r with
    | error err => exact acceptedFor_error
    | ok simulated =>
      rw [andThen_ok]
      cases simulated with
      | some error => exact acceptedFor_error
      | none =>
        dsimp only
        rw [safe_bind]
        -- the transaction is sent: it asks for what was authorised
        refine safe_service (fun s₃ hgrows₃ _ => ⟨((h.grow hgrows₁).grow hgrows₂).grow hgrows₃,
          fun env r w hserve _ _ => ?_⟩)
        rcases serve_sendTransaction key inv env s₃.core with
          ⟨err, hs⟩ | ⟨detail, -, hs⟩ | ⟨hash, applied, -, hs⟩
        · rw [hs] at hserve
          cases hserve
          exact acceptedFor_error
        · rw [hs] at hserve
          cases hserve
          exact acceptedFor_error
        · rw [hs] at hserve
          cases hserve
          rw [andThen_ok]
          dsimp only
          rw [safe_bind]
          -- however the polling ends, the transaction stays on the chain
          refine safe_unconditional (fun _ => trivial) (fun r s₄ hgrows₄ _ => ?_)
          cases r with
          | error err => exact acceptedFor_error
          | ok result =>
            intro hash' result' heq
            cases heq
            exact ⟨_, hgrows₄.chain _ (List.mem_append_right _ (List.mem_singleton_self _)),
              rfl, rfl⟩

/-- What is known when a charge returns: the payment is booked. -/
def bookedFor {α : Type} (pid : String) : Post Api Server Unit α := fun r s _ =>
  ∀ a, r = .ok a → s.Booked pid

theorem bookedFor_error {α : Type} {err : Thrown} {s : Server} :
    bookedFor (α := α) pid (.error err) s () := nofun

/-- A write of the charge: its row is the one with the key. -/
theorem safe_charged {data : PaymentData} {Q : Post Api Server Unit Payment}
    (hrow : s.HasPayment pid key sub.id)
    (hdata : ∀ (s₁ : Server) p, s.Grows s₁ → p ∈ s₁.core.payments → p.id = pid →
      p.idempotencyKey = key → PaymentRecord d.cfg s₁ p data)
    (herror : ∀ err s₁, s.Grows s₁ → Q (.error err) s₁ ())
    (hok : ∀ p (s₁ : Server), s.Grows s₁ → (data.status = some .SUCCESS → s₁.Booked pid) →
      (∀ status, data.status = some status → status ≠ .PENDING → s₁.Begun pid) →
      Q (.ok p) s₁ ()) :
    Safe (lawfully d) (prisma.payment.update pid data) Q s () :=
  safe_record (fun s₁ hgrows _ p hp hid =>
    hdata s₁ p hgrows hp hid ((hrow.grow hgrows).row hp hid).1) herror hok

theorem sorobanAttempt_backed {admin : String} {contractPlanId : Nat} (hknows : s.Knows sub)
    (hrow : s.HasPayment pid key sub.id) (hbegun : s.Begun pid)
    (hlive : d.cfg.billing.testMode = false) (hsoroban : useSoroban d.cfg sub.plan = true)
    (hadmin : d.cfg.publicKeyOfSecret d.cfg.stellar.treasurySecretKey = some admin)
    (hcontract : sub.plan.contractPlanId = some contractPlanId) :
    Safe (lawfully d) (executeSorobanBilling.attempt d.cfg
        ⟨pid, sub.wallet.address, contractPlanId, key⟩ admin) (bookedFor pid) s () := by
  unfold executeSorobanBilling.attempt addressToScVal
  split
  swap
  · exact bookedFor_error
  show Safe _ ((if _ then pure _ else throw _ : Service String) >>= _) _ _ _
  split
  swap
  · exact bookedFor_error
  show Safe _ (invokeAsAdmin d.cfg key _ >>= _) _ _ _
  rw [safe_bind]
  -- what was read of the subscription authorises the transaction
  have hauth := hknows.authorises hrow hbegun hlive hsoroban hadmin hcontract
  apply (safe_remembered (invokeAsAdmin_backed hauth)).mono
  intro r s₁ _ hr
  obtain ⟨haccepted, hgrows⟩ := hr
  cases r with
  | error err => exact bookedFor_error
  | ok invoked =>
      obtain ⟨hash, result⟩ := invoked
      obtain ⟨tx, htx, rfl, hkey⟩ := haccepted hash result rfl
      rw [andThen_ok]
      dsimp only
      -- the outcome decides whether the accepted transaction is booked or refused
      split
      · rw [safe_bind]
        exact safe_charged (hrow.grow hgrows)
          (fun s₂ p hgrows₂ _ _ hp => .refused tx _ hlive (hgrows₂.chain tx htx)
            (hkey.trans hp.symm))
          (fun _ _ _ => bookedFor_error) (fun _ _ _ _ _ => bookedFor_error)
      · rw [safe_bind]
        exact safe_charged (hrow.grow hgrows)
          (fun s₂ p hgrows₂ _ _ hp => .paid tx hlive (hgrows₂.chain tx htx) (hkey.trans hp.symm))
          (fun _ _ _ => bookedFor_error) (fun _ _ _ hbooked _ _ _ => hbooked rfl)

/-- **A charge under the contract.** -/
theorem executeSorobanBilling_backed (hknows : s.Knows sub)
    (hrow : s.HasPayment pid key sub.id) (hsoroban : useSoroban d.cfg sub.plan = true)
    {contractPlanId : Nat} (hcontract : sub.plan.contractPlanId = some contractPlanId) :
    Safe (lawfully d) (executeSorobanBilling d.cfg
        ⟨pid, sub.wallet.address, contractPlanId, key⟩) (bookedFor pid) s () := by
  unfold executeSorobanBilling
  rw [safe_bind]
  refine safe_service (fun s₁ _ hvalid₁ => ⟨trivial, fun env r w hserve _ hgrows₁ => ?_⟩)
  rcases serve_paymentFindUnique (.byId pid) env s₁.core with ⟨err, hs⟩ | hs
  · rw [hs] at hserve
    cases hserve
    exact bookedFor_error
  rw [hs] at hserve
  cases hserve
  rw [andThen_ok]
  split
  next hash hsettled => exact fun _ _ => hvalid₁.settled hsettled
  next =>
    split
    · exact bookedFor_error
    split
    next htest =>
      -- no transaction is sent in test mode
      dsimp only
      rw [safe_bind]
      refine safe_charged (hrow.grow hgrows₁) (fun _ p _ _ _ hkey => .mock _ htest ?_)
        (fun _ _ _ => bookedFor_error) (fun _ _ _ hbooked _ _ _ => hbooked rfl)
      rw [hkey]
      exact List.mem_cons_self
    next htest =>
      have hlive : d.cfg.billing.testMode = false := by simpa using htest
      unfold keypairFromSecret
      split
      swap
      · exact bookedFor_error
      next admin hadmin =>
      show Safe _ (prisma.payment.update _ _ >>= _) _ _ _
      rw [safe_bind]
      refine safe_charged (hrow.grow hgrows₁) (fun _ _ _ _ _ _ => .begun hlive)
        (fun _ _ _ => bookedFor_error) (fun _ s₂ hgrows₂ _ hbegun => ?_)
      have hbegun₂ : s₂.Begun pid := hbegun .PROCESSING rfl (by decide)
      have hrow₂ := (hrow.grow hgrows₁).grow hgrows₂
      rw [andThen_ok, safe_tryCatch]
      apply (safe_remembered (sorobanAttempt_backed ((hknows.grow hgrows₁).grow hgrows₂) hrow₂
        hbegun₂ hlive hsoroban hadmin hcontract)).mono
      intro r s₃ _ hr
      obtain ⟨hbooked, hgrows₃⟩ := hr
      cases r with
      | ok hash => exact hbooked
      | error err =>
          rw [orElse_error]
          unfold executeSorobanBilling.recordFailure
          cases err with
          | sorobanBillingFailed hash => exact bookedFor_error
          | error message =>
              show Safe _ (prisma.payment.update _ _ >>= _) _ _ _
              rw [safe_bind]
              exact safe_charged (hrow₂.grow hgrows₃)
                (fun s₄ p hgrows₄ hp hid _ => .failed _ hlive
                  (((hbegun₂.grow hgrows₃).grow hgrows₄).status hp hid))
                (fun _ _ _ => bookedFor_error) (fun _ _ _ _ _ => bookedFor_error)

/-- **A simulated charge**: the cycle submits no payment outside of test mode. -/
theorem submitPayment_backed {params : PaymentParams} (hid : params.paymentId = pid)
    (hkey : params.idempotencyKey = key) (hrow : s.HasPayment pid key sub.id)
    (htest : d.cfg.billing.testMode = true) :
    Safe (lawfully d) (submitPayment d.cfg params) (bookedFor pid) s () := by
  subst hid hkey
  unfold submitPayment
  rw [safe_bind]
  refine safe_service (fun s₁ _ hvalid₁ => ⟨trivial, fun env r w hserve _ hgrows₁ => ?_⟩)
  rcases serve_paymentFindUnique (.byId params.paymentId) env s₁.core with ⟨err, hs⟩ | hs
  · rw [hs] at hserve
    cases hserve
    exact bookedFor_error
  rw [hs] at hserve
  cases hserve
  rw [andThen_ok]
  split
  next hash hsettled => exact fun _ _ => hvalid₁.settled hsettled
  next =>
    rw [if_pos htest]
    dsimp only
    rw [safe_bind]
    refine safe_charged (hrow.grow hgrows₁) (fun _ p _ _ _ hkey => .mock _ htest ?_)
      (fun _ _ _ => bookedFor_error) (fun _ _ _ hbooked _ _ _ => hbooked rfl)
    rw [hkey]
    exact List.mem_cons_of_mem _ List.mem_cons_self

/-- **A charge that returns has booked its payment.** -/
theorem chargePayment_backed (hknows : s.Knows sub) (hrow : s.HasPayment pid key sub.id) :
    Safe (lawfully d) (chargePayment d.cfg sub pid key) (bookedFor pid) s () := by
  unfold chargePayment
  split
  next hsoroban =>
    have hsome : sub.plan.contractPlanId.isSome = true := by
      unfold useSoroban at hsoroban
      exact (Bool.and_eq_true_iff.mp hsoroban).2
    obtain ⟨contractPlanId, hcontract⟩ := Option.isSome_iff_exists.mp hsome
    rw [safe_bind, hcontract]
    apply (executeSorobanBilling_backed hknows hrow hsoroban hcontract).mono
    intro r s₁ _ hr
    cases r with
    | error err => exact bookedFor_error
    | ok hash => exact fun _ _ => hr hash rfl
  next =>
    split
    next htest =>
      rw [safe_bind]
      apply (submitPayment_backed rfl rfl hrow htest).mono
      intro r s₁ _ hr
      cases r with
      | error err => exact bookedFor_error
      | ok hash => exact fun _ _ => hr hash rfl
    next => exact bookedFor_error

/-- A charge returns under the contract or in test mode only. -/
theorem chargePayment_mode (hknows : s.Knows sub) (hrow : s.HasPayment pid key sub.id) :
    Safe (lawfully d) (chargePayment d.cfg sub pid key) (fun r _ _ => ∀ a, r = .ok a →
      useSoroban d.cfg sub.plan = true ∨ d.cfg.billing.testMode = true) s () := by
  by_cases hmode : useSoroban d.cfg sub.plan = true ∨ d.cfg.billing.testMode = true
  · exact (chargePayment_backed hknows hrow).mono (fun _ _ _ _ _ _ => hmode)
  · obtain ⟨hsoroban, htest⟩ := not_or.mp hmode
    unfold chargePayment
    rw [if_neg hsoroban, if_neg htest]
    exact nofun

end Charges

/-! ## §3. The shape of a cycle. -/

section Shape

variable {σ : Type} {C : Contract coreApi σ} {d : Epoch} {I : σ → Prop} {id : String}
  {sub : SubscriptionWithPlan} {s : Server} {v : σ}

/-- The calls with which a cycle comes to the payment that it charges. -/
def Call.findsPayment (cfg : Config) (sub : SubscriptionWithPlan) : Call → Prop
  | .paymentFindUnique k => k = .byKey (billingIdempotencyKey sub.id sub.currentPeriodEnd)
  | .paymentCreate data => data = processBillingCycle.paymentData cfg sub
      (billingIdempotencyKey sub.id sub.currentPeriodEnd)
  | _ => False

/-- After `s`, an execution with a view in `I` may make the call `c`, and goes on
with such a view in a valid state. -/
def Serves (C : Contract coreApi σ) (d : Epoch) (I : σ → Prop) (s : Server) (c : Call) : Prop :=
  ∀ {R : Post Api Server σ c.Reply} {s₁ : Server} {v : σ}, s.Grows s₁ → I v →
    (∀ err s₂ v₂, R (.error err) s₂ v₂) →
    (∀ a (s₂ : Server) env w v₂, s₂.Valid d → api.serve c env s₂.core = (.ok a, w) →
      s.Grows (s₂.withCore w) → I v₂ → R (.ok a) (s₂.withCore w) v₂) →
    Safe C (await c) R s₁ v

/-- **The cycle of a subscription that was found open** advances a period whose
payment is booked, or charges a payment of this period. -/
theorem safe_rest_amid (hI : I v) (hserves : ∀ c, c.findsPayment d.cfg sub → Serves C d I s c)
    (hadvance : ∀ (s₁ : Server) v₁ pid, s.Grows s₁ → I v₁ →
      s₁.HasPayment pid (billingIdempotencyKey sub.id sub.currentPeriodEnd) sub.id →
      s₁.Booked pid → Safe C (advancePeriod d.cfg sub) (fun _ _ _ => True) s₁ v₁)
    (hcharge : ∀ (s₁ : Server) v₁ (payment : Payment), s.Grows s₁ → I v₁ →
      s₁.HasPayment payment.id (billingIdempotencyKey sub.id sub.currentPeriodEnd) sub.id →
      Safe C (tryCatch (processBillingCycle.attempt d.cfg sub payment
          (billingIdempotencyKey sub.id sub.currentPeriodEnd))
        (fun _ => handlePaymentFailure d.cfg sub payment.id)) (fun _ _ _ => True) s₁ v₁) :
    Safe C (processBillingCycle.rest d.cfg sub) (fun _ _ _ => True) s v := by
  unfold processBillingCycle.rest
  dsimp only
  rw [safe_bind]
  refine hserves (.paymentFindUnique (.byKey _)) rfl (.refl s) hI (fun _ _ _ => trivial) ?_
  intro found s₁ env w v₁ hvalid₁ hserve hgrows₁ hI₁
  rcases serve_paymentFindUnique (.byKey (billingIdempotencyKey sub.id sub.currentPeriodEnd)) env
    s₁.core with ⟨err, hs⟩ | hs
  · rw [hs] at hserve
    cases hserve
  rw [hs] at hserve
  cases hserve
  rw [andThen_ok]
  cases hfound : s₁.core.payments.find?
    (PaymentKey.byKey (billingIdempotencyKey sub.id sub.currentPeriodEnd)).selects with
  | some payment =>
      obtain ⟨hmem, hsel⟩ := Table.find?_mem hfound
      have hkey : payment.idempotencyKey = _ := beq_iff_eq.mp hsel
      -- the key determines the subscription
      obtain ⟨hsid, -⟩ := billingIdempotencyKey_inj.mp
        ((hvalid₁.payments payment hmem).key.symm.trans hkey)
      have hrow : (s₁.withCore s₁.core).HasPayment payment.id _ sub.id :=
        ⟨payment, hmem, rfl, hkey, hsid⟩
      split
      next hsuccess =>
        have hbooked := ((hvalid₁.accounts payment hmem).booked (beq_iff_eq.mp hsuccess)).1
        exact hadvance _ _ payment.id hgrows₁ hI₁ hrow hbooked
      next => exact hcharge _ _ payment hgrows₁ hI₁ hrow
  | none =>
      -- no payment of the period yet: one is created
      show Safe _ (prisma.payment.create _ >>= _) _ _ _
      rw [safe_bind]
      refine hserves (.paymentCreate _) rfl hgrows₁ hI₁ (fun _ _ _ => trivial) ?_
      intro payment s₂ env w v₂ _ hserve hgrows₂ hI₂
      rcases serve_paymentCreate (processBillingCycle.paymentData d.cfg sub
        (billingIdempotencyKey sub.id sub.currentPeriodEnd)) env s₂.core
        with ⟨err, hs⟩ | ⟨id, t, ht, hs⟩
      · rw [hs] at hserve
        cases hserve
      · rw [hs] at hserve
        cases hserve
        exact hcharge _ _ _ hgrows₂ hI₂ ⟨_, (Table.mem_insert ht).mpr (.inr rfl), rfl, rfl, rfl⟩

/-- **A cycle** ends when its subscription is not found open, or goes on with
what it has read. -/
theorem safe_cycle_amid {J : SubscriptionWithPlan → σ → Prop}
    (hread : ∀ {R : Post Api Server σ (Option SubscriptionWithPlan)},
      (∀ err s₁ v₁, R (.error err) s₁ v₁) →
      (∀ found (s₁ : Server) env w v₁, s₁.Valid d →
        api.serve (.subscriptionFindUniqueWithPlan id) env s₁.core = (.ok found, w) →
        (∀ sub, found = some sub → J sub v₁) → R (.ok found) (s₁.withCore w) v₁) →
      Safe C (await (.subscriptionFindUniqueWithPlan id)) R s v)
    (hrest : ∀ sub (s₁ : Server) v₁, sub.id = id → s₁.Knows sub → J sub v₁ →
      Safe C (processBillingCycle.rest d.cfg sub) (fun _ _ _ => True) s₁ v₁) :
    Safe C (processBillingCycle d.cfg id) (fun _ _ _ => True) s v := by
  unfold processBillingCycle prisma.subscription.findUniqueOrThrow
    prisma.subscription.findUniqueWithPlan
  rw [safe_bind, safe_bind]
  refine hread (fun _ _ _ => trivial) (fun found s₁ env w v₁ hvalid₁ hserve hJ => ?_)
  rcases serve_subscriptionFindUniqueWithPlan id env s₁.core with ⟨err, hs⟩ | hs
  · rw [hs] at hserve
    cases hserve
  rw [hs] at hserve
  cases hserve
  rw [andThen_ok]
  cases hfound : (s₁.core.sub? id).bind s₁.core.withPlan with
  | none => trivial
  | some sub =>
      show Safe _ (if _ then _ else _) _ _ _
      split
      · trivial
      · exact hrest sub _ _ (withPlan_eq_some hfound).2 (hvalid₁.knows hfound) (hJ sub hfound)

end Shape

/-! ## §4. Cycles. -/

section Cycles

variable {d : Epoch} {s : Server} {sub : SubscriptionWithPlan} {pid key : String}

theorem advancePeriod_backed :
    Safe (lawfully d) (advancePeriod d.cfg sub) (fun _ _ _ => True) s () := by
  unfold advancePeriod
  dsimp only
  rw [safe_bind]
  refine safe_unconditional (fun _ => ?_) (fun r _ _ _ => by cases r <;> trivial)
  exact fun h => by cases h

/-- **The failure of a charge**: the event that the last retry announces names
the payment. -/
theorem handlePaymentFailure_backed (hrow : s.HasPayment pid key sub.id) :
    Safe (lawfully d) (handlePaymentFailure d.cfg sub pid) (fun _ _ _ => True) s () := by
  unfold handlePaymentFailure
  dsimp only
  split
  next hmax =>
    rw [safe_bind]
    refine safe_unconditional (fun _ => trivial) (fun r s₁ hgrows₁ _ => ?_)
    cases r with
    | error err => trivial
    | ok now =>
      rw [andThen_ok, safe_bind]
      refine safe_service (fun s₂ _ _ => ⟨(by exact nofun), fun env r w hserve _ hgrows₂ => ?_⟩)
      rcases serve_subscriptionUpdate sub.id _ env s₂.core with
        ⟨err, hs⟩ | ⟨old, t, -, hvalid, -, hs⟩
      · rw [hs] at hserve
        cases hserve
        trivial
      · rw [hs] at hserve
        cases hserve
        -- an Invalid Date is refused
        cases hgrace : hoursFrom now d.cfg.billing.gracePeriodHours with
        | none =>
            rw [hgrace] at hvalid
            cases hvalid
        | some graceEnd =>
            rw [andThen_ok]
            refine emitWebhookEvent_backed (fun s₃ hgrows₃ _ => ?_)
            obtain ⟨p, hp, rfl, -, hsid⟩ := ((hrow.grow hgrows₁).grow hgrows₂).grow hgrows₃
            rw [← hsid]
            exact .failed p _ now graceEnd hp (by exact_mod_cast hmax) hgrace
  next =>
    rw [safe_bind]
    refine safe_unconditional (fun _ => trivial) (fun r s₁ _ _ => ?_)
    cases r with
    | error err => trivial
    | ok now =>
      rw [andThen_ok, safe_bind]
      refine safe_unconditional (fun _ => ⟨_, _, rfl, rfl⟩) (fun r s₂ _ _ => ?_)
      cases r with
      | error err => trivial
      | ok _ =>
        rw [andThen_ok, safe_bind]
        exact safe_unconditional (fun _ h => by cases h) (fun r _ _ _ => by cases r <;> trivial)

/-- **The `try` block of the cycle**: the event is announced only when the
payment is booked. -/
theorem cycleAttempt_backed {payment : Payment} (hknows : s.Knows sub)
    (hrow : s.HasPayment payment.id key sub.id) :
    Safe (lawfully d) (processBillingCycle.attempt d.cfg sub payment key)
      (fun _ _ _ => True) s () := by
  unfold processBillingCycle.attempt
  rw [safe_bind]
  apply ((safe_remembered (chargePayment_backed hknows hrow)).and
    (chargePayment_mode hknows hrow)).mono
  intro r s₁ _ hr
  obtain ⟨⟨hbooked, hgrows₁⟩, hmode⟩ := hr
  cases r with
  | error err => trivial
  | ok _ =>
    rw [andThen_ok, safe_bind]
    apply (safe_remembered advancePeriod_backed).mono
    intro r s₂ _ hr
    obtain ⟨-, hgrows₂⟩ := hr
    cases r with
    | error err => trivial
    | ok _ =>
      rw [andThen_ok]
      refine emitWebhookEvent_backed (fun s₃ hgrows₃ hvalid₃ => ?_)
      have hgrows := (hgrows₁.trans _ _ _ hgrows₂).trans _ _ _ hgrows₃
      obtain ⟨p, hp, hid, -, hsid⟩ := hrow.grow hgrows
      obtain ⟨hamount, hcode⟩ := (hvalid₃.payments p hp).known (hknows.grow hgrows) hsid
      rw [← hsid, ← hamount, ← hcode, ← hid]
      refine .paid p _ hp ?_ ((hknows.grow hgrows).collects hsid (hmode () rfl))
      rw [hid]
      exact ((hbooked () rfl).grow hgrows₂).grow hgrows₃

/-- **The cycle of a subscription that was found open.** -/
theorem rest_backed (hknows : s.Knows sub) :
    Safe (lawfully d) (processBillingCycle.rest d.cfg sub) (fun _ _ _ => True) s () := by
  refine safe_rest_amid (I := fun _ => True) trivial ?_ (fun _ _ _ _ _ _ _ => advancePeriod_backed)
    ?_
  · intro c hc R s₁ _ hgrows₁ _ herr hok
    refine safe_service (fun s₂ hgrows₂ hvalid₂ => ⟨?_, fun env r w hserve _ hgrows₂ => ?_⟩)
    · cases c with
      | paymentFindUnique k => trivial
      | paymentCreate data => exact ⟨sub, (hknows.grow hgrows₁).grow hgrows₂, hc⟩
      | _ => exact hc.elim
    · cases r with
      | error err => exact herr err _ _
      | ok a => exact hok a s₂ env w () hvalid₂ hserve (hgrows₁.trans _ _ _ hgrows₂) trivial
  · -- the charge and its failure, once the row is known
    intro s₁ _ payment hgrows₁ _ hrow
    rw [safe_tryCatch]
    apply (safe_remembered (cycleAttempt_backed (hknows.grow hgrows₁) hrow)).mono
    intro r s₂ _ hr
    cases r with
    | ok _ => trivial
    | error err => exact handlePaymentFailure_backed (hrow.grow hr.2)

/-- **A billing cycle makes lawful calls.** -/
theorem processBillingCycle_backed (id : String) :
    Safe (lawfully d) (processBillingCycle d.cfg id) (fun _ _ _ => True) s () := by
  refine safe_cycle_amid (J := fun _ _ => True) (fun herr hok => ?_)
    (fun _ _ _ _ hknows _ => rest_backed hknows)
  refine safe_service (fun s₁ _ hvalid₁ => ⟨trivial, fun env r w hserve _ _ => ?_⟩)
  cases r with
  | error err => exact herr err _ _
  | ok found => exact hok found s₁ env w () hvalid₁ hserve (fun _ _ => trivial)

end Cycles

end Sorobill
