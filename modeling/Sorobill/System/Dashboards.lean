/-
  Sorobill.System.Dashboards
  ──────────────────────────
  **WHAT DASHBOARDS SHOW**, in every state the server reaches.

  `GET /merchants/:address/stats` reads the plans with their subscriptions, and
  then the payments, while other executions go on.

    • `World.planOf`, `World.earned` — the payments that count for a plan;
    • `counts_eq`, `sum_counted` — the query, plan by plan;
    • `statistics_within_transactions` — **the revenue that is shown is the price of
      each plan times its successful payments, which are no more than the
      transactions sent for them**.
-/
import Sorobill.Endpoints.Revenue
import Sorobill.System.Payments

namespace Sorobill

open Effect
open Relational
open Shop
open JavaScript (toFixed)

/-! ## §1. Payments by plan. -/

/-- The plan that the payment is for. -/
def World.planOf (w : World) (p : Payment) : Option String :=
  (w.sub? p.subscriptionId).map (·.planId)

/-- How many payments for the plan are SUCCESS. -/
def World.earned (w : World) (planId : String) : Nat :=
  (w.payments.rows.filter (fun p => p.status == .SUCCESS && w.planOf p == some planId)).length

/-- The payments that count for these plans. -/
def World.counted (w : World) (planIds : List String) (p : Payment) : Bool :=
  p.status == .SUCCESS && planIds.any (fun planId => w.planOf p == some planId)

section Counting

variable {w : World} {planIds : List String} {plans : List Plan}

/-- **The query of the route** selects them. -/
theorem counts_eq (p : StoredPayment) :
    merchants.counts w.subscriptions.rows planIds none p = w.counted planIds p.toPayment := by
  have hany : w.subscriptions.rows.any
      (fun s => s.id == p.subscriptionId && planIds.contains s.planId)
      = planIds.any (fun planId => w.planOf p.toPayment == some planId) := by
    rw [Bool.eq_iff_iff, List.any_eq_true, List.any_eq_true]
    unfold World.planOf
    constructor
    · rintro ⟨x, hx, hsel⟩
      obtain ⟨hid, hplan⟩ := Bool.and_eq_true_iff.mp hsel
      have hfound : w.sub? p.subscriptionId = some x :=
        (Table.find?_eq_some_iff (fun a b ha hb =>
          (beq_iff_eq.mp ha).trans (beq_iff_eq.mp hb).symm)).mpr ⟨hx, hid⟩
      rw [hfound]
      exact ⟨x.planId, List.contains_iff_mem.mp hplan, beq_self_eq_true _⟩
    · rintro ⟨planId, hplan, hfound⟩
      obtain ⟨x, hx, rfl⟩ := Option.map_eq_some_iff.mp (beq_iff_eq.mp hfound)
      obtain ⟨hmem, hid⟩ := Table.find?_mem hx
      exact ⟨x, hmem, Bool.and_eq_true_iff.mpr ⟨hid, List.contains_iff_mem.mpr hplan⟩⟩
  unfold merchants.counts World.counted
  rw [hany]
  exact Bool.and_true _

/-- What the query answers, without the times. -/
theorem answers_counted {rows payments : List StoredPayment}
    (hrows : rows.map (·.toPayment) = w.payments.rows)
    (hanswers :
      merchants.Answers (merchants.counts w.subscriptions.rows planIds none) rows payments) :
    (payments.map (·.toPayment)).Perm (w.payments.rows.filter (w.counted planIds)) := by
  have hfilter : w.payments.rows.filter (w.counted planIds)
      = (rows.filter (merchants.counts w.subscriptions.rows planIds none)).map (·.toPayment) := by
    rw [← hrows, List.filter_map]
    exact congrArg _ (List.filter_congr (fun p _ => (counts_eq p).symm))
  rw [hfilter]
  exact hanswers.map _

/-- **What counts, plan by plan**, where each payment for a plan is worth the
same. -/
theorem sum_counted {V : Type} [AddCommMonoid V] (hplans : (plans.map (·.id)).Nodup)
    (value : Payment → V) (worth : Plan → V)
    (h : ∀ plan ∈ plans, ∀ p ∈ w.payments, w.planOf p = some plan.id → value p = worth plan) :
    ((w.payments.rows.filter (w.counted (plans.map (·.id)))).map value).sum
      = (plans.map (fun plan => w.earned plan.id • worth plan)).sum := by
  have hsum := Grouping.sum_filter_keys hplans (fun planId p => w.planOf p == some planId)
    (fun p j k hj hk => Option.some.inj ((beq_iff_eq.mp hj).symm.trans (beq_iff_eq.mp hk)))
    value (w.payments.rows.filter (fun p => p.status == .SUCCESS))
  rw [List.filter_filter, List.map_map] at hsum
  have hcounted : w.payments.rows.filter (w.counted (plans.map (·.id)))
      = w.payments.rows.filter (fun p => (plans.map (·.id)).any (fun planId =>
        w.planOf p == some planId) && p.status == .SUCCESS) :=
    List.filter_congr (fun p _ => Bool.and_comm _ _)
  rw [hcounted, ← hsum]
  refine congrArg List.sum (List.map_congr_left (fun plan hplan => ?_))
  -- the payments for one plan are worth the same
  have hgroup : (w.payments.rows.filter (fun p => p.status == .SUCCESS)).filter
      (fun p => w.planOf p == some plan.id)
      = w.payments.rows.filter (fun p => p.status == .SUCCESS && w.planOf p == some plan.id) := by
    rw [List.filter_filter]
    exact List.filter_congr (fun p _ => Bool.and_comm _ _)
  show (((w.payments.rows.filter _).filter _).map value).sum = _
  rw [hgroup, World.earned]
  have hsame : ∀ v ∈ (w.payments.rows.filter (fun p =>
      p.status == .SUCCESS && w.planOf p == some plan.id)).map value, v = worth plan := by
    intro v hv
    obtain ⟨p, hp, rfl⟩ := List.mem_map.mp hv
    obtain ⟨hmem, hsel⟩ := List.mem_filter.mp hp
    exact h plan hplan p hmem (beq_iff_eq.mp (Bool.and_eq_true_iff.mp hsel).2)
  rw [List.sum_eq_card_nsmul _ _ hsame, List.length_map]

end Counting

/-! ## §2. Statistics. -/

/-- **A payment for a plan is at its price**, also when the plan was read before. -/
theorem price_of_plan {d : Epoch} {s s' : Server} (h : s'.Valid d) (hgrows : s.Grows s')
    {plan : Plan} (hplan : plan ∈ s.core.plans) {p : Payment} (hp : p ∈ s'.core.payments)
    (hof : s'.core.planOf p = some plan.id) : p.amount = plan.amount := by
  obtain ⟨_, hplan', ⟨_, _, rfl⟩, -⟩ := hgrows.plans plan hplan
  obtain ⟨x, hx, hid, billed, hbilled, hbilledId, hamount, -⟩ := (h.payments p hp).price
  obtain ⟨y, hy, hyplan⟩ := Option.map_eq_some_iff.mp hof
  obtain ⟨hy, hyid⟩ := Table.find?_mem hy
  obtain rfl := subscription_unique hx hy (hid.trans (beq_iff_eq.mp hyid).symm)
  obtain rfl := plan_unique hbilled hplan' (hbilledId.trans hyplan)
  exact hamount

/-- **Dashboards show what is booked.**  The statistics of a merchant are read in
two states of a run, plans first.  The revenue is exactly the price of each
plan times its successful payments; and in live mode these are no more than the
accepted transactions that were sent for them. -/
theorem statistics_within_transactions (d : Deployment) (address : String)
    (P P' : Pool ServerApi Server Unit) (h : ReachedBy d P)
    (hmoves : Pool.Moves (runningServer d) anyone (fun _ => True) P P')
    (rows payments : List StoredPayment)
    (hrows : rows.map (·.toPayment) = P'.world.core.payments.rows)
    (hanswers : merchants.Answers (merchants.counts P'.world.core.subscriptions.rows
      ((merchants.plansOf address P.world.core.plans.rows).map (·.id)) none) rows payments) :
    let plans := merchants.plansOf address P.world.core.plans.rows
    let reply := merchants.stats plans P.world.core.subscriptions.rows payments
    (∃ total : Decimal, reply.revenueTotal = toFixed 2 (.finite total)
        ∧ total.value
          = (plans.map
              (fun plan => (P'.world.core.earned plan.id : ℚ) * amountValue plan.amount)).sum)
      ∧ reply.successfulPayments = (plans.map (fun plan => P'.world.core.earned plan.id)).sum
      ∧ (d.cfg.billing.testMode = false → reply.successfulPayments
        ≤ (P'.world.core.chain.filter (fun tx => P'.world.core.payments.rows.any (fun p =>
          p.idempotencyKey == tx.issuedFor
            && plans.any (fun plan => P'.world.core.planOf p == some plan.id)))).length) := by
  have hreached : ReachedBy d P' := h.trans hmoves
  have hvalid := hreached.valid
  have hgrows := (Growth.moves (governs { d with }) hmoves h.sound).2
  dsimp only
  -- the plans are read in the first state, the payments in the second
  have hids : ((merchants.plansOf address P.world.core.plans.rows).map (·.id)).Nodup :=
    Table.nodup_keys (fun _ _ hab => hab) P.world.core.plans _
  have hperm := answers_counted hrows hanswers
  have hmem : ∀ plan ∈ merchants.plansOf address P.world.core.plans.rows,
      plan ∈ P.world.core.plans := fun plan hplan => List.mem_of_mem_filter hplan
  have hlength : payments.length = (P'.world.core.payments.rows.filter (P'.world.core.counted
      ((merchants.plansOf address P.world.core.plans.rows).map (·.id)))).length := by
    rw [← hperm.length_eq, List.length_map]
  refine ⟨?_, ?_, fun hlive => ?_⟩
  · -- the sum is finite: each amount is that of a plan, which was checked
    have haccepted : ∀ p ∈ payments, Regex.test amountRegex p.amount = true := by
      intro p hp
      have hstored := hperm.mem_iff.mp (List.mem_map_of_mem (f := (·.toPayment)) hp)
      obtain ⟨x, -, -, plan, hplan, -, hamount, -⟩ :=
        (hvalid.payments p.toPayment (List.mem_of_mem_filter hstored)).price
      rw [hamount]
      exact (hvalid.plans plan hplan).amount
    obtain ⟨total, htotal, hvalue⟩ := stats_total haccepted
    refine ⟨total, congrArg (toFixed 2) htotal, ?_⟩
    have hsum := (hperm.map (fun p => amountValue p.amount)).sum_eq
    rw [List.map_map] at hsum
    rw [hvalue]
    refine hsum.trans ((sum_counted hids _ (fun plan => amountValue plan.amount) ?_).trans ?_)
    · -- the price of a plan has not changed in between
      intro plan hplan p hp hof
      rw [price_of_plan hvalid hgrows (hmem plan hplan) hp hof]
    · exact congrArg List.sum (List.map_congr_left (fun _ _ => nsmul_eq_mul _ _))
  · have hsum := sum_counted (w := P'.world.core) hids (fun _ => 1) (fun _ => 1)
      (fun _ _ _ _ _ => rfl)
    show payments.length = _
    rw [hlength]
    simpa using hsum
  · show payments.length ≤ _
    rw [hlength]
    -- each successful payment has an accepted transaction of its own key
    refine hvalid.successes_le hlive (fun p =>
      ((merchants.plansOf address P.world.core.plans.rows).map (·.id)).any
        (fun planId => P'.world.core.planOf p == some planId)) _ (fun tx _ p hp hkey hsel => ?_)
    rw [List.any_map] at hsel
    exact List.any_eq_true.mpr ⟨p, hp, Bool.and_eq_true_iff.mpr ⟨beq_iff_eq.mpr hkey.symm, hsel⟩⟩

namespace Shop

/-- The shop of a merchant opens. -/
def opensMerchantShop : List (Choice ServerOperation ServerEnv) :=
  [.start (.createMerchantPlan "merchant"
      { name := "Basic", amount := "10", interval := .DAILY, contractPlanId := some (.finite 1) }),
   .act 0 (answers 1 ["plan"])] ++ opensShop.drop 2

end Shop

/-- One payment of the first cycle. -/
theorem statistics_within_transactions_shop :
    ∃ (P : Pool ServerApi Server Unit) (payments : List StoredPayment),
      ReachedBy (deployment false) P ∧ payments.length = 1
        ∧ payments.length ≤ (P.world.core.chain.filter (fun tx =>
          P.world.core.payments.rows.any (fun p => p.idempotencyKey == tx.issuedFor
            && (merchants.plansOf "merchant" P.world.core.plans.rows).any
              (fun plan => P.world.core.planOf p == some plan.id)))).length := by
  let stored : Pool ServerApi Server Unit → List StoredPayment := fun P =>
    P.world.core.payments.rows.map (fun p => { p with createdAt := day 2 })
  let counted : Pool ServerApi Server Unit → List StoredPayment := fun P =>
    (stored P).filter (merchants.counts P.world.core.subscriptions.rows
      ((merchants.plansOf "merchant" P.world.core.plans.rows).map (·.id)) none)
  have hrun : (played false (opensMerchantShop ++ chargesSub ++ booksPayment)
      ⟨Server.fresh, []⟩).map (fun P => (counted P).length) = some 1 := by
    decide +kernel
  obtain ⟨P, hP, hlength⟩ := Option.map_eq_some_iff.mp hrun
  have hreached : ReachedBy (deployment false) P := moves_of_played hP
  have hrows : (stored P).map (·.toPayment) = P.world.core.payments.rows := by
    rw [List.map_map]
    exact List.map_id _
  obtain ⟨-, -, hwithin⟩ := statistics_within_transactions (deployment false) "merchant" P P
    hreached .refl (stored P) (counted P) hrows (.refl _)
  exact ⟨P, counted P, hreached, hlength, hwithin rfl⟩

end Sorobill
