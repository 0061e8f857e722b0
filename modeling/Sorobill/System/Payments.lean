/-
  Sorobill.System.Payments
  ────────────────────────
  **THE LEDGER OF PAYMENTS**, in every state the server reaches.

    • `payments_bill_their_plan` — what a payment is for, and that there is one
      for a period;
    • `success_has_transaction`, `transactions_are_backed` — payments and
      transactions account for each other;
    • `successes_within_transactions` — no wallet has more successful payments than
      transactions that ask to bill it;
    • `Receipt.Turn`, `payments_take_turns` — **the life of a payment**, which
      every interleaving follows.
-/
import Sorobill.System.Integrity

namespace Sorobill

open Effect
open Relational
open Relational.Table (Evolves)
open Shop

/-! ## §1. What payments are for. -/

/-- **Every payment bills its plan**, at the price of the plan, for one period
of its subscription; a period has one payment. -/
theorem payments_bill_their_plan (d : Deployment) (P : Pool ServerApi Server Unit)
    (h : ReachedBy d P) :
    (∀ p ∈ P.world.core.payments,
        (∃ x ∈ P.world.core.subscriptions, x.id = p.subscriptionId
          ∧ ∃ plan ∈ P.world.core.plans, plan.id = x.planId
            ∧ p.amount = plan.amount ∧ p.assetCode = plan.assetCode
            ∧ p.assetIssuer = plan.assetIssuer)
          ∧ Regex.test amountRegex p.amount = true
          ∧ p.idempotencyKey = billingIdempotencyKey p.subscriptionId p.billingPeriodEnd
          ∧ p.testMode = d.cfg.billing.testMode)
      ∧ ∀ p ∈ P.world.core.payments, ∀ q ∈ P.world.core.payments,
        p.subscriptionId = q.subscriptionId → p.billingPeriodEnd = q.billingPeriodEnd → p = q := by
  have hvalid := h.valid
  refine ⟨fun p hp => ?_, fun p hp q hq hsub hend => payment_unique_key hp hq ?_⟩
  · have hbilled := hvalid.payments p hp
    obtain ⟨x, hx, hid, plan, hplan, hplanId, hamount, hcode, hissuer⟩ := hbilled.price
    refine ⟨⟨x, hx, hid, plan, hplan, hplanId, hamount, hcode, hissuer⟩, ?_, hbilled.key,
      hbilled.mode⟩
    rw [hamount]
    exact (hvalid.plans plan hplan).amount
  · rw [(hvalid.payments p hp).key, (hvalid.payments q hq).key, hsub, hend]

/-- The payment of the first cycle. -/
theorem payments_bill_their_plan_shop :
    ∃ P, ReachedBy (deployment false) P
      ∧ (∃ p ∈ P.world.core.payments, p.id = "payment")
      ∧ ∀ p ∈ P.world.core.payments, Regex.test amountRegex p.amount = true := by
  have hrun : (played false (opensShop ++ chargesSub) ⟨Server.fresh, []⟩).map
      (fun P => P.world.core.payments.rows.map (·.id)) = some ["payment"] := by
    decide +kernel
  obtain ⟨P, hP, hids⟩ := Option.map_eq_some_iff.mp hrun
  have hreached : ReachedBy (deployment false) P := moves_of_played hP
  obtain ⟨p, hp, hid⟩ := List.mem_map.mp (hids ▸ List.mem_singleton_self "payment")
  exact ⟨P, hreached, ⟨p, hp, hid⟩,
    fun p hp => ((payments_bill_their_plan (deployment false) P hreached).1 p hp).2.1⟩

/-! ## §2. Payments and transactions. -/

/-- **The transaction is for the payment**: it asks the contract, in the name of
the treasury, to bill the wallet of the payment's subscription under a contract
id that its plan was stored with.  What the contract answers is another matter. -/
structure Tx.Bills (cfg : Config) (s : Server) (tx : Tx) (p : Payment) : Prop where
  issuedFor : tx.issuedFor = p.idempotencyKey
  method : tx.invocation.method = "execute_billing"
  admin : cfg.publicKeyOfSecret cfg.stellar.treasurySecretKey = some tx.invocation.admin
  subscription : ∃ x ∈ s.core.subscriptions, x.id = p.subscriptionId
    ∧ (∃ y ∈ s.core.wallets, y.id = x.walletId ∧ y.address = tx.invocation.subscriber)
    ∧ (x.planId, tx.invocation.contractPlanId) ∈ s.contracts

section Accounts

variable {d : Epoch} {s : Server}

/-- An accepted transaction is for the payment of its key, which has left
PENDING. -/
theorem Server.Valid.bills (h : s.Valid d) {tx : Tx} (htx : tx ∈ s.core.chain) :
    ∃ p ∈ s.core.payments, p.status ≠ .PENDING ∧ tx.Bills d.cfg s p := by
  have hauth := h.chain tx htx
  obtain ⟨p, hp, hkey, hstatus, hsub⟩ := hauth.row
  exact ⟨p, hp, hstatus, hkey.symm, hauth.method, hauth.admin, hsub⟩

/-- And no other payment. -/
theorem Server.Valid.bills_key (h : s.Valid d) {tx : Tx} (htx : tx ∈ s.core.chain)
    {p : Payment} (hp : p ∈ s.core.payments) (hkey : tx.issuedFor = p.idempotencyKey) :
    p.status ≠ .PENDING ∧ tx.Bills d.cfg s p := by
  obtain ⟨q, hq, hstatus, hbills⟩ := h.bills htx
  obtain rfl := payment_unique_key hp hq (hkey.symm.trans hbills.issuedFor)
  exact ⟨hstatus, hbills⟩

end Accounts

/-- **What is booked as paid has a transaction.**  In live mode the hash of a
SUCCESS is that of an accepted transaction for this payment; in test mode it is
a mock hash of its key. -/
theorem success_has_transaction (d : Deployment) (P : Pool ServerApi Server Unit)
    (h : ReachedBy d P) :
    ∀ p ∈ P.world.core.payments, p.status = .SUCCESS →
      ∃ hash, p.stellarTxHash = some hash
        ∧ (d.cfg.billing.testMode = false →
            ∃ tx ∈ P.world.core.chain, tx.hash = hash ∧ tx.Bills d.cfg P.world p)
        ∧ (d.cfg.billing.testMode = true → hash ∈ mockHashes p.idempotencyKey) := by
  intro p hp hsuccess
  have hacc := h.valid.accounts p hp
  obtain ⟨hash, hhash⟩ := Option.ne_none_iff_exists'.mp (hacc.booked hsuccess).2
  refine ⟨hash, hhash, fun hlive => ?_, fun htest => (hacc.test htest).2 hash hhash⟩
  obtain ⟨tx, htx, htxHash, hkey⟩ := hacc.live hlive hash hhash
  exact ⟨tx, htx, htxHash, (h.valid.bills_key htx hp hkey).2⟩

/-- A booked payment of the shop. -/
theorem success_has_transaction_shop :
    ∃ P, ReachedBy (deployment false) P
      ∧ ∃ p ∈ P.world.core.payments, p.status = .SUCCESS
        ∧ ∃ tx ∈ P.world.core.chain, tx.Bills (cfg false) P.world p := by
  have hrun : (played false (opensShop ++ chargesSub ++ booksPayment) ⟨Server.fresh, []⟩).map
      (fun P => P.world.core.payments.rows.map (·.status)) = some [.SUCCESS] := by
    decide +kernel
  obtain ⟨P, hP, hstatus⟩ := Option.map_eq_some_iff.mp hrun
  have hreached : ReachedBy (deployment false) P := moves_of_played hP
  obtain ⟨p, hp, hsuccess⟩ :=
    List.mem_map.mp (hstatus ▸ List.mem_singleton_self PaymentStatus.SUCCESS)
  obtain ⟨hash, -, hlive, -⟩ := success_has_transaction (deployment false) P hreached p hp hsuccess
  obtain ⟨tx, htx, -, hbills⟩ := hlive rfl
  exact ⟨P, hreached, p, hp, hsuccess, tx, htx, hbills⟩

/-- **No transaction without a record.**  Every accepted transaction is for a
stored payment that has left PENDING; in test mode, and without a contract,
nothing is sent. -/
theorem transactions_are_backed (d : Deployment) (P : Pool ServerApi Server Unit)
    (h : ReachedBy d P) :
    (∀ tx ∈ P.world.core.chain,
        ∃ p ∈ P.world.core.payments, p.status ≠ .PENDING ∧ tx.Bills d.cfg P.world p)
      ∧ (d.cfg.billing.testMode = true ∨ d.cfg.billing.useSorobanBilling = false
          ∨ d.cfg.stellar.subscriptionContractId = "" → P.world.core.chain = []) := by
  refine ⟨fun tx htx => h.valid.bills htx, fun hoff => ?_⟩
  refine List.eq_nil_iff_forall_not_mem.mpr (fun tx htx => ?_)
  have hauth := h.valid.chain tx htx
  rcases hoff with htest | huse | hcontract
  · exact absurd (htest.symm.trans hauth.live) nofun
  · exact absurd (huse.symm.trans hauth.soroban.1) nofun
  · have hhas := hauth.soroban.2
    unfold hasSorobanContract at hhas
    rw [show ({ d with : Epoch }).cfg.stellar.subscriptionContractId = "" from hcontract] at hhas
    cases hhas

/-- The network has accepted the charge, and not been asked for its answer. -/
theorem transactions_are_backed_shop :
    ∃ P, ReachedBy (deployment false) P ∧ P.world.core.chain.map (·.hash) = ["hash"]
      ∧ ∀ tx ∈ P.world.core.chain,
        ∃ p ∈ P.world.core.payments, p.status ≠ .PENDING ∧ tx.Bills (cfg false) P.world p := by
  have hrun : (played false (opensShop ++ chargesSub.dropLast) ⟨Server.fresh, []⟩).map
      (fun P => P.world.core.chain.map (·.hash)) = some ["hash"] := by
    decide +kernel
  obtain ⟨P, hP, hhash⟩ := Option.map_eq_some_iff.mp hrun
  have hreached : ReachedBy (deployment false) P := moves_of_played hP
  exact ⟨P, hreached, hhash, (transactions_are_backed (deployment false) P hreached).1⟩

/-! ## §3. Revenue. -/

/-- The payment is that of a subscription of this wallet. -/
def World.pays (w : World) (address : String) (p : Payment) : Bool :=
  w.subscriptions.rows.any (fun x => x.id == p.subscriptionId
    && w.wallets.rows.any (fun y => y.id == x.walletId && y.address == address))

theorem World.pays_iff {w : World} {address : String} {p : Payment} :
    w.pays address p = true ↔ ∃ x ∈ w.subscriptions, x.id = p.subscriptionId
      ∧ ∃ y ∈ w.wallets, y.id = x.walletId ∧ y.address = address := by
  simp [World.pays, Table.mem_def]

/-- The wallet of a payment is the one that its transaction bills. -/
theorem Tx.Bills.pays {cfg : Config} {s : Server} {tx : Tx} {p : Payment}
    (h : tx.Bills cfg s p) {address : String} (hpays : s.core.pays address p = true) :
    tx.invocation.subscriber = address := by
  obtain ⟨x, hx, hid, ⟨y, hy, hwallet, haddress⟩, -⟩ := h.subscription
  obtain ⟨x', hx', hid', y', hy', hwallet', haddress'⟩ := World.pays_iff.mp hpays
  obtain rfl := subscription_unique hx hx' (hid.trans hid'.symm)
  obtain rfl := wallet_unique hy hy' (hwallet.trans hwallet'.symm)
  exact haddress.symm.trans haddress'

/-- **Successful payments are no more than their transactions**, in live mode:
their keys are different, and each is that of an accepted transaction. -/
theorem Server.Valid.successes_le {d : Epoch} {s : Server} (h : s.Valid d)
    (hlive : d.cfg.billing.testMode = false) (selects : Payment → Bool) (bills : Tx → Bool)
    (hbills : ∀ tx ∈ s.core.chain, ∀ p ∈ s.core.payments, tx.issuedFor = p.idempotencyKey →
      selects p = true → bills tx = true) :
    (s.core.payments.filter (fun p => p.status == .SUCCESS && selects p)).length
      ≤ (s.core.chain.filter bills).length := by
  have hclash : ∀ a b : Payment, a.idempotencyKey = b.idempotencyKey → Payment.Clash a b :=
    fun _ _ hab => .inr (.inl hab)
  have hnodup := Table.nodup_keys hclash s.core.payments
    (fun p => p.status == .SUCCESS && selects p)
  have hsub : ∀ key ∈ (s.core.payments.filter
        (fun p => p.status == .SUCCESS && selects p)).map (·.idempotencyKey),
      key ∈ (s.core.chain.filter bills).map (·.issuedFor) := by
    intro key hkey
    obtain ⟨p, hp, rfl⟩ := List.mem_map.mp hkey
    obtain ⟨hp, hselected⟩ := Table.mem_filter.mp hp
    rw [Bool.and_eq_true, beq_iff_eq] at hselected
    have hacc := h.accounts p hp
    obtain ⟨hash, hhash⟩ := Option.ne_none_iff_exists'.mp (hacc.booked hselected.1).2
    obtain ⟨tx, htx, -, htxKey⟩ := hacc.live hlive hash hhash
    exact List.mem_map.mpr
      ⟨tx, List.mem_filter.mpr ⟨htx, hbills tx htx p hp htxKey hselected.2⟩, htxKey⟩
  have hle := (hnodup.subperm hsub).length_le
  rwa [List.length_map, List.length_map] at hle

/-- **No wallet has more successful payments than transactions**: in live mode it
has no more than there are accepted transactions that ask to bill it. -/
theorem successes_within_transactions (d : Deployment) (P : Pool ServerApi Server Unit)
    (address : String) (h : ReachedBy d P) (hlive : d.cfg.billing.testMode = false) :
    (P.world.core.payments.filter
        (fun p => p.status == .SUCCESS && P.world.core.pays address p)).length
      ≤ (P.world.core.chain.filter (fun tx => tx.invocation.subscriber == address)).length := by
  refine h.valid.successes_le hlive _ _ (fun tx htx p hp hkey hpays => ?_)
  exact beq_iff_eq.mpr ((h.valid.bills_key htx hp hkey).2.pays hpays)

/-- One payment, one transaction. -/
theorem successes_within_transactions_shop :
    ∃ P, ReachedBy (deployment false) P
      ∧ (P.world.core.payments.filter
          (fun p => p.status == .SUCCESS && P.world.core.pays wallet.address p)).length = 1
      ∧ 1 ≤ (P.world.core.chain.filter
          (fun tx => tx.invocation.subscriber == wallet.address)).length := by
  have hrun : (played false (opensShop ++ chargesSub ++ booksPayment) ⟨Server.fresh, []⟩).map
      (fun P => (P.world.core.payments.filter
        (fun p => p.status == .SUCCESS && P.world.core.pays wallet.address p)).length)
      = some 1 := by
    decide +kernel
  obtain ⟨P, hP, hone⟩ := Option.map_eq_some_iff.mp hrun
  have hreached : ReachedBy (deployment false) P := moves_of_played hP
  have hle := successes_within_transactions (deployment false) P wallet.address hreached rfl
  rw [hone] at hle
  exact ⟨P, hreached, hone, hle⟩

/-! ## §4. The life of a payment. -/

/-- What there is to see of a payment. -/
structure Receipt where
  status : PaymentStatus
  txHash : Option String
  deriving DecidableEq

/-- **The turns of the payment with this key**, of which `chain` holds the
transactions.  A SUCCESS may turn into anything but PENDING when another
execution is at work on it. -/
inductive Receipt.Turn (testMode : Bool) (key : String) (chain : List Tx) :
    Option Receipt → Option Receipt → Prop where
  | created : Receipt.Turn testMode key chain none (some ⟨.PENDING, none⟩)
  | begins (r : Receipt) : testMode = false →
      Receipt.Turn testMode key chain (some r) (some { r with status := .PROCESSING })
  | pays (r : Receipt) (tx : Tx) : testMode = false → r.status ≠ .PENDING → tx ∈ chain →
      tx.issuedFor = key → Receipt.Turn testMode key chain (some r) (some ⟨.SUCCESS, some tx.hash⟩)
  | refused (r : Receipt) (tx : Tx) : testMode = false → r.status ≠ .PENDING → tx ∈ chain →
      tx.issuedFor = key → Receipt.Turn testMode key chain (some r) (some ⟨.FAILED, some tx.hash⟩)
  | fails (r : Receipt) : testMode = false → r.status ≠ .PENDING →
      Receipt.Turn testMode key chain (some r) (some { r with status := .FAILED })
  | retries (r : Receipt) : testMode = false → r.status = .FAILED →
      Receipt.Turn testMode key chain (some r) (some { r with status := .RETRYING })
  | mocks (r : Receipt) (hash : String) : testMode = true → hash ∈ mockHashes key →
      Receipt.Turn testMode key chain (some r) (some ⟨.SUCCESS, some hash⟩)

def Payment.receipt (p : Payment) : Receipt := ⟨p.status, p.stellarTxHash⟩

/-- The receipt of the payment with this key, once there is one. -/
def Server.receipt (s : Server) (key : String) : Option Receipt :=
  (s.core.payments.find? (·.idempotencyKey == key)).map Payment.receipt

section Turning

variable {d : Epoch} {s s' : Server} {testMode : Bool} {key : String} {chain chain' : List Tx}
  {a b : Option Receipt}

theorem Receipt.Turn.mono (hchain : ∀ tx ∈ chain, tx ∈ chain')
    (h : Receipt.Turn testMode key chain a b) : Receipt.Turn testMode key chain' a b := by
  cases h with
  | created => exact .created
  | begins r hlive => exact .begins r hlive
  | pays r tx hlive hst htx hkey => exact .pays r tx hlive hst (hchain tx htx) hkey
  | refused r tx hlive hst htx hkey => exact .refused r tx hlive hst (hchain tx htx) hkey
  | fails r hlive hst => exact .fails r hlive hst
  | retries r hlive hst => exact .retries r hlive hst
  | mocks r hash htest hmock => exact .mocks r hash htest hmock

/-- **A record is a turn.** -/
theorem PaymentRecord.turn {p : Payment} {data : PaymentData} (h : s.Valid d)
    (hp : p ∈ s.core.payments) (hdata : PaymentRecord d.cfg s p data) :
    Receipt.Turn d.cfg.billing.testMode p.idempotencyKey s.core.chain
      (some p.receipt) (some (data.apply p).receipt) := by
  cases hdata with
  | begun hlive => exact .begins p.receipt hlive
  | paid tx hlive htx hkey =>
      exact .pays p.receipt tx hlive (h.bills_key htx hp hkey).1 htx hkey
  | refused tx reason hlive htx hkey =>
      exact .refused p.receipt tx hlive (h.bills_key htx hp hkey).1 htx hkey
  | failed reason hlive hst => exact .fails p.receipt hlive hst
  | mock hash htest hmock => exact .mocks p.receipt hash htest hmock
  | retrying nextRetryAt retryCount hfailed =>
      refine .retries p.receipt ?_ hfailed
      -- in test mode nothing fails
      refine Bool.eq_false_iff.mpr (fun htest => ?_)
      rcases ((h.accounts p hp).test htest).1 with hst | hst <;>
        exact absurd (hfailed.symm.trans hst) nofun

/-- **A step of the server is at most one turn** of a payment. -/
theorem Server.Step.turn (h : s.Valid d) (hs : s.Step d s') (key : String) :
    s'.receipt key = s.receipt key
      ∨ Receipt.Turn d.cfg.billing.testMode key s'.core.chain (s.receipt key) (s'.receipt key) := by
  have hlookup := hs.payments.lookup (p := (·.idempotencyKey == key))
    (fun a b ha hb => .inr (.inl ((beq_iff_eq.mp ha).trans (beq_iff_eq.mp hb).symm)))
    (fun a b hab => by rw [hab.becomes.idempotencyKey])
  unfold Server.receipt
  rcases hlookup with ⟨p, p', hp, hp', hwritten⟩ | ⟨hnone, hnew⟩
  · rw [hp, hp', Option.map_some, Option.map_some]
    cases hwritten with
    | kept => exact .inl rfl
    | recorded hdata =>
        obtain ⟨hmem, hkey⟩ := Table.find?_mem hp
        rw [← beq_iff_eq.mp hkey]
        exact .inr ((hdata.turn h hmem).mono hs.grows.chain)
  · rw [hnone, Option.map_none]
    cases hfound : s'.core.payments.find? (·.idempotencyKey == key) with
    | none => exact .inl rfl
    | some p' =>
        obtain ⟨sub, id, -, rfl⟩ := hnew p' hfound
        exact .inr .created

end Turning

/-- **Every interleaving leads every payment along its life.** -/
theorem payments_take_turns (d : Deployment) (P P' : Pool ServerApi Server Unit) (key : String)
    (h : ReachedBy d P) (hmoves : Pool.Moves (runningServer d) anyone (fun _ => True) P P') :
    Relation.ReflTransGen
      (Receipt.Turn d.cfg.billing.testMode key P'.world.core.chain)
      (P.world.receipt key) (P'.world.receipt key) := by
  induction hmoves with
  | refl => exact .refl
  | @tail Q Q' hpath hmove ih =>
      have hreached : ReachedBy d Q := h.trans hpath
      have hstep : Q.world.Step { d with } Q'.world := by
        refine Growth.steps (governs { d with }) (Server.Step.refl _) ?_ ?_ hreached.sound hmove
        · exact fun _ _ e _ _ hlawful => lawful_step hlawful
        · exact fun w w' hdrift _ => drift_step hdrift
      have hpast := Relation.ReflTransGen.mono
        (fun a b hturn => hturn.mono hstep.grows.chain) _ _ ih
      rcases hstep.turn hreached.valid key with heq | hturn
      · rwa [heq]
      · exact hpast.tail hturn

/-- From nothing to SUCCESS. -/
theorem payments_take_turns_shop :
    ∃ P P' : Pool ServerApi Server Unit, ReachedBy (deployment false) P
      ∧ P.world.receipt (billingIdempotencyKey "sub" (day 2)) = none
      ∧ P'.world.receipt (billingIdempotencyKey "sub" (day 2)) = some ⟨.SUCCESS, some "hash"⟩
      ∧ Relation.ReflTransGen
          (Receipt.Turn false (billingIdempotencyKey "sub" (day 2)) P'.world.core.chain)
          none (some ⟨.SUCCESS, some "hash"⟩) := by
  have hrun : (played false opensShop ⟨Server.fresh, []⟩).bind (fun P =>
      (played false (chargesSub ++ booksPayment) P).map (fun P' =>
        (P.world.receipt (billingIdempotencyKey "sub" (day 2)),
          P'.world.receipt (billingIdempotencyKey "sub" (day 2)))))
      = some (none, some ⟨.SUCCESS, some "hash"⟩) := by
    decide +kernel
  obtain ⟨P, hP, hrest⟩ := Option.bind_eq_some_iff.mp hrun
  obtain ⟨P', hP', hreceipts⟩ := Option.map_eq_some_iff.mp hrest
  obtain ⟨hnone, hsuccess⟩ := Prod.mk.inj hreceipts
  have hreached : ReachedBy (deployment false) P := moves_of_played hP
  have hlife := payments_take_turns (deployment false) P P'
    (billingIdempotencyKey "sub" (day 2)) hreached (moves_of_played hP')
  rw [hnone, hsuccess] at hlife
  exact ⟨P, P', hreached, hnone, hsuccess, hlife⟩

end Sorobill
