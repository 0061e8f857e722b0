/-
  Sorobill.Charging.LostCharges
  ─────────────────────────────
  **HOW OFTEN IS A PERIOD CHARGED WHEN SOMETHING FAILS AFTER SUBMISSION?**

  A transaction that was accepted can be applied although the polling loop
  times out or the write of SUCCESS is rejected.  The `catch` block forgets
  its hash and marks the payment FAILED, and the next cycle trusts the row.

    • `BeginsRecorded` — an execution begins with no charge of the current
      period that its row does not show;
    • `billing_paidFor` — what an execution does to the count of Paid
      transactions;
    • `charged_once_when_recorded` — one Paid transaction for each key in
      every history of such executions.
-/
import Sorobill.Model.Shop
import Sorobill.Rules.Ticks

namespace Sorobill

open Effect

/-! ## §1. One execution. -/

/-- **The condition**: when the execution bills `id`, and a transaction for
the current period was applied as Paid, the payment of the period is SUCCESS. -/
def BeginsRecorded (id : String) (x : Step) : Prop :=
  x.op.bills = some id → ∀ sub, Opened x.before id sub →
    0 < x.before.paidFor sub.currentKey → x.before.isPaid sub.currentKey

/-- At most one Paid transaction for each period of `id`. -/
def ChargedOnce (id : String) (w : World) : Prop :=
  ∀ periodEnd, w.paidFor (billingIdempotencyKey id periodEnd) ≤ 1

theorem paidFor_congr {w w' : World} (h : w'.chain = w.chain) (key : String) :
    w'.paidFor key = w.paidFor key := by
  unfold World.paidFor
  rw [h]

/-- What a submission adds to the count of a key. -/
theorem paidFor_submitted {key : String} (key' : String) {w w' : World} (h : Submitted key w w') :
    w'.paidFor key' ≤ w.paidFor key' + if key = key' then 1 else 0 := by
  rcases h with h | ⟨tx, htx, h⟩
  · rw [paidFor_congr h]
    exact Nat.le_add_right _ _
  · have happ := paidFor_append w tx key'
    rw [paidFor_congr (w := { w with chain := w.chain ++ [tx] }) h, happ]
    refine Nat.add_le_add_left ?_ _
    split
    next hkey => rw [if_pos (htx.symm.trans hkey.1)]
    next => exact Nat.zero_le _

/-- **A billing cycle charges a period once, or finds it charged.** -/
theorem billing_paidFor {cfg : Config} {id y : String} {x : Step} (hx : x.Of (serial cfg))
    (hb : x.op.bills = some y) (hrec : BeginsRecorded id x) (h : ChargedOnce id x.before) :
    ChargedOnce id x.after := by
  have hend := seq_runs hx.runs (fun _ _ => trivial)
    (billing_ends cfg (A := fun _ => True) hb)
  intro periodEnd
  generalize hw' : x.after = w' at *
  generalize logOf x.trace = v' at hend
  -- only a cycle that charges submits, and it submits at most once
  cases hend with
  | untouched => exact h periodEnd
  | advanced newEnd now hopen hpaid hch hrow =>
      rw [paidFor_congr (hch.chain_eq (by decide))]
      exact h periodEnd
  | @charged sub _ _ hopen hunpaid hsub htail =>
      have hle := paidFor_submitted (billingIdempotencyKey id periodEnd) hsub
      split at hle
      next hkey =>
        -- the current period of `id`: nothing was charged, for the row is not SUCCESS
        have hy : y = id := hopen.id_eq.symm.trans (billingIdempotencyKey_inj.mp hkey).1
        subst hy
        have hnone : ¬ 0 < x.before.paidFor sub.currentKey :=
          fun hpos => hunpaid (hrec hb sub hopen hpos)
        rw [← hkey] at hle ⊢
        omega
      next => exact hle.trans (h periodEnd)

/-! ## §2. Histories. -/

/-- **One charge for each period when every charge is on record**: in every
history of operations, with failures at any call, in which no billing cycle
of the subscription begins while a transaction for its current period was
applied as Paid and the payment is not SUCCESS, at most one transaction for
an idempotency key of the subscription is applied as Paid. -/
theorem charged_once_when_recorded (cfg : Config) (id : String) (w₀ w : World) (xs : List Step)
    (hchain : w₀.chain = [])
    (h : History (serial cfg) (fun _ x => BeginsRecorded id x) w₀ xs w) (periodEnd : Instant) :
    w.paidFor (billingIdempotencyKey id periodEnd) ≤ 1 := by
  refine h.invariant (J := fun _ w => ChargedOnce id w) ?_ ?_ ?_ periodEnd
  · intro periodEnd
    simp [World.paidFor, hchain]
  · intro past x hcharged hx hrec
    cases hb : x.op.bills with
    | none =>
        intro periodEnd
        rw [paidFor_congr (unbilled_same hx hb).chain]
        exact hcharged periodEnd
    | some y => exact billing_paidFor hx hb hrec hcharged
  · intro past w₁ _ hcharged h
    obtain ⟨q, -, rfl⟩ := h
    exact hcharged

/-! ## §3. Scenarios. -/

section Scenarios

open Shop

/-- A cycle on day 2 whose polling loop times out on day 3, although the
transaction is applied. -/
def timedOut : Operation × List Env :=
  (.runInline "sub",
    [on 2, on 2, fresh 2 "pay", on 2, on 2, answered 2 .account, answered 2 (.simulated none),
     answered 2 (.accepted "tx1" (some .Paid)),
     answered 3 (.polled .NOT_FOUND (day 2) [⟨day 3, .NOT_FOUND⟩]), on 3, on 3, on 3, on 3])

/-- The next cycle, on day 3. -/
def tryAgain : Operation × List Env :=
  (.runInline "sub",
    [on 3, on 3, on 3, on 3, answered 3 .account, answered 3 (.simulated none),
     answered 3 (.accepted "tx2" (some .Paid)),
     answered 3 (.polled (.SUCCESS (some (.string "Paid"))) (day 3) []), on 3, on 3, on 3])

/-- **A charge that is lost is made again.** -/
theorem lost_charge_repeated :
    ¬ ∀ (cfg : Config) (id : String) (w₀ w : World) (xs : List Step),
      cfg.billing.testMode = false → w₀.chain = [] →
      History (serial cfg) (fun _ x => x.op.bills = some id) w₀ xs w →
      ∀ periodEnd, w.paidFor (billingIdempotencyKey id periodEnd) ≤ 1 := by
  intro hclaim
  have hrun : ((serial (cfg false)).play (fun _ x => x.op.bills == some "sub")
      [timedOut, tryAgain] [] (world plan sub)).map
        (fun r => r.2.paidFor (billingIdempotencyKey "sub" (day 2))) = some 2 := by
    decide +kernel
  obtain ⟨⟨xs, w⟩, hplay, hpaid⟩ := Option.map_eq_some_iff.mp hrun
  have h := hclaim (cfg false) "sub" (world plan sub) w xs rfl rfl
    (Serial.play_history (fun _ _ h => beq_iff_eq.mp h) .start hplay) (day 2)
  have hpaid : w.paidFor (billingIdempotencyKey "sub" (day 2)) = 2 := hpaid
  rw [hpaid] at h
  exact absurd h (by decide)

/-- `BeginsRecorded` as a test. -/
def beginsRecorded (id : String) (x : Step) : Bool :=
  match (x.before.sub? id).bind x.before.withPlan with
  | none => true
  | some sub =>
      x.before.paidFor sub.currentKey == 0
        || (x.before.paymentByKey? sub.currentKey).any (fun p => p.status == .SUCCESS)

theorem beginsRecorded_sound {id : String} {x : Step} (h : beginsRecorded id x = true) :
    BeginsRecorded id x := by
  intro _ sub hopen hpos
  unfold beginsRecorded at h
  rw [hopen.found] at h
  rcases Bool.or_eq_true_iff.mp h with h | h
  · have h : x.before.paidFor sub.currentKey = 0 := beq_iff_eq.mp h
    omega
  · simpa [World.isPaid, Option.any_eq_true] using h

/-- A cycle on day 2 whose charge is recorded, and whose period is not advanced. -/
def unadvanced : Operation × List Env :=
  (.runInline "sub",
    [on 2, on 2, fresh 2 "pay", on 2, on 2, answered 2 .account, answered 2 (.simulated none),
     answered 2 (.accepted "tx1" (some .Paid)),
     answered 2 (.polled (.SUCCESS (some (.string "Paid"))) (day 2) []), on 2, rejected 2, on 2,
     on 2, on 2])

/-- The next cycle begins with the charge on record, and makes no other. -/
theorem charged_once_when_recorded_shop :
    ∃ xs x w, History (serial (cfg false)) (fun _ x => BeginsRecorded "sub" x) (world plan sub)
        (xs ++ [x]) w
      ∧ x.op.bills = some "sub"
      ∧ x.before.paidFor (billingIdempotencyKey "sub" (day 2)) = 1
      ∧ w.paidFor (billingIdempotencyKey "sub" (day 2)) ≤ 1
      ∧ (w.sub? "sub").map (·.currentPeriodEnd) = some (day 3) := by
  have hrun : ((serial (cfg false)).play (fun _ x => beginsRecorded "sub" x) [unadvanced] []
      (world plan sub)).bind (fun r =>
        ((serial (cfg false)).execute (.runInline "sub") [on 2, on 2, on 2] r.2).map (fun x =>
          (beginsRecorded "sub" x, x.op.bills,
            x.before.paidFor (billingIdempotencyKey "sub" (day 2)),
            (x.after.sub? "sub").map (·.currentPeriodEnd))))
      = some (true, some "sub", 1, some (day 3)) := by
    decide +kernel
  obtain ⟨⟨xs, w⟩, hplay, hrest⟩ := Option.bind_eq_some_iff.mp hrun
  obtain ⟨x, hexec, hres⟩ := Option.map_eq_some_iff.mp hrest
  simp only [Prod.mk.injEq] at hres
  obtain ⟨hbegins, hbills, hpaid, hend⟩ := hres
  have h : History (serial (cfg false)) (fun _ x => BeginsRecorded "sub" x) (world plan sub)
      (xs ++ [x]) x.after :=
    Serial.play_execute (fun _ _ => beginsRecorded_sound) hplay hexec hbegins
  exact ⟨xs, x, x.after, h, hbills, hpaid,
    charged_once_when_recorded (cfg false) "sub" (world plan sub) x.after (xs ++ [x]) rfl h (day 2),
    hend⟩

end Scenarios

end Sorobill
