/-
  Sorobill.Charging.FailedOutcomes
  ────────────────────────────────
  **IS A FAILED OUTCOME EVER BOOKED AS A PAYMENT?**

  A live charge takes every result as Paid that `parseBillingOutcome` does
  not read as Failed, `null` included.  The parser reads strings and objects;
  the SDK hands a unit variant over as a one-element array.

    • `NeverBooked` — no execution whose invocation has returned the value
      books it unless it encodes Paid;
    • `never_booked_iff` — the values of which this holds;
    • `Yields` — runs in which a given value is returned, for the converse.
-/
import Sorobill.Model.Shop
import Sorobill.Rules.Cycles
import Sorobill.Rules.Outcomes

namespace Sorobill

open Effect
open JavaScript (JsValue)

/-! ## §1. The values of which the claim holds. -/

/-- The current period of the subscription still ends when it ended. -/
def PeriodKept (w : World) (sub : SubscriptionWithPlan) : Prop :=
  ∃ s, w.sub? sub.id = some s ∧ s.currentPeriodEnd = sub.currentPeriodEnd

/-- **The value is booked only if it encodes Paid**: in every uninterrupted
billing cycle in which the contract invocation has returned `v`, if the
payment becomes SUCCESS and the period is advanced then `v` encodes Paid; and
if `v` encodes Failed the payment is not SUCCESS and the period is kept. -/
def NeverBooked (cfg : Config) (v : JsValue) : Prop :=
  ∀ (x : Step) (id : String) (sub : SubscriptionWithPlan), x.Of (serial cfg) →
    x.op.bills = some id → Opened x.before id sub → v ∈ x.trace.filterMap resultOf →
    (x.after.isPaid sub.currentKey → ¬ PeriodKept x.after sub → Encodes .Paid v)
      ∧ (Encodes .Failed v → ¬ x.after.isPaid sub.currentKey ∧ PeriodKept x.after sub)

theorem Penalised.periodEnd {cfg : Config} {A : CallEvent → Prop} {n : Nat}
    {s s' : Subscription} (h : Penalised cfg A n s s') :
    s'.currentPeriodEnd = s.currentPeriodEnd := by
  cases h <;> rfl

theorem never_booked_of {cfg : Config} {v : JsValue} (h : Encodes .Paid v ∨ ReadsFailed v) :
    NeverBooked cfg v := by
  intro x id sub hx hb hopen hv
  have hend := seq_runs hx.runs (fun _ _ => trivial)
    (billing_ends cfg (A := fun _ => True) hb)
  have hres : (logOf x.trace).results = x.trace.filterMap resultOf := by
    rw [logOf, log_of_trace]
    rfl
  rw [← hres] at hv
  -- a cycle that books has read another result than Failed
  have hpaid : ReadAsPaid {} (logOf x.trace) → Encodes .Paid v := by
    intro h
    rcases h with hnone | ⟨a, ha, hread⟩
    · rw [hnone] at hv
      cases hv
    · rw [ha] at hv
      have hva : v = a := by simpa using hv
      exact h.resolve_right (fun hf => hread (parse_eq_failed_iff.mpr (hva ▸ hf)))
  generalize hw' : x.after = w' at *
  generalize hv' : logOf x.trace = v' at *
  cases hend with
  -- without a charge no polling loop has returned
  | untouched => cases hv
  | advanced => cases hv
  | @charged sub' _ _ hopen' hunpaid hsub htail =>
      have hsame : sub' = sub := hopen.unique hopen'
      subst hsame
      cases htail with
      | settled newEnd now _ hread hend hrow =>
          exact ⟨fun _ _ => hpaid hread, fun hf => absurd hf (encodes_exclusive (hpaid hread))⟩
      | unannounced newEnd now s' _ hread =>
          exact ⟨fun _ _ => hpaid hread, fun hf => absurd hf (encodes_exclusive (hpaid hread))⟩
      | unadvanced s' _ hread =>
          exact ⟨fun _ _ => hpaid hread, fun hf => absurd hf (encodes_exclusive (hpaid hread))⟩
      | failed s' hnot hlog hpen hrow =>
          exact ⟨fun hp => absurd hp hnot, fun _ => ⟨hnot, s', hrow, hpen.periodEnd⟩⟩

/-! ## §2. Every other value is booked. -/

/-- The program can run from `w` to `w'` and return `a`, a polling loop
having returned `v`. -/
def Yields {α : Type} (v : JsValue) (p : Service α) (w : World) (a : α) (w' : World) : Prop :=
  ∃ t, Runs api p w t (.ok a) w' ∧ v ∈ t.filterMap resultOf

section Rules

variable {α β : Type} {v : JsValue} {p : Service α} {f : α → Service β} {w w₁ w' : World}
  {a : α} {b : β}

theorem yields_after {envs : List Env} (h₁ : exec api p envs w = some (.ok a, w₁))
    (h₂ : Yields v (f a) w₁ b w') : Yields v (p >>= f) w b w' := by
  obtain ⟨t, hruns, hv⟩ := h₂
  refine ⟨_, (exec_runs h₁).bind hruns, ?_⟩
  rw [List.filterMap_append]
  exact List.mem_append_right _ hv

theorem yields_then {envs : List Env} (h₁ : Yields v p w a w₁)
    (h₂ : exec api (f a) envs w₁ = some (.ok b, w')) : Yields v (p >>= f) w b w' := by
  obtain ⟨t, hruns, hv⟩ := h₁
  refine ⟨_, hruns.bind (exec_runs h₂), ?_⟩
  rw [List.filterMap_append]
  exact List.mem_append_left _ hv

theorem yields_try {h : Thrown → Service α} (hp : Yields v p w a w') :
    Yields v (tryCatch p h) w a w' := by
  obtain ⟨t, hruns, hv⟩ := hp
  exact ⟨t, hruns.tryCatch, hv⟩

end Rules

section Booking

open Shop

/-- A submission whose transaction is applied as Failed, and whose polling
loop returns `v`. -/
def failing (v : JsValue) : List Env :=
  [answered 2 .account, answered 2 (.simulated none),
   answered 2 (.accepted "tx" (some .Failed)),
   answered 2 (.polled (.SUCCESS (some v)) (day 2) [])]

theorem invoke_yields (v : JsValue) (key : String) (invocation : Invocation) (w : World) :
    Yields v (invokeAsAdmin (cfg false) key invocation) w ("tx", v)
      { w with chain := w.chain ++ [⟨"tx", key, invocation, some .Failed⟩] } := by
  have h : exec api (invokeAsAdmin (cfg false) key invocation) (failing v) w
      = some (.ok ("tx", v),
          { w with chain := w.chain ++ [⟨"tx", key, invocation, some .Failed⟩] }) := rfl
  refine ⟨_, exec_runs h, ?_⟩
  show v ∈ [v]
  exact List.mem_singleton_self v

/-- The payment row of the current period. -/
def bill (status : PaymentStatus) (hash : Option String) : Payment :=
  { id := "pay"
    subscriptionId := "sub"
    amount := "10"
    status
    stellarTxHash := hash
    idempotencyKey := sub.currentKey
    billingPeriodStart := day 1
    billingPeriodEnd := day 2 }

/-- The world with this payment row. -/
def billed (status : PaymentStatus) (hash : Option String) : World :=
  { world plan sub with payments := ⟨[bill status hash], List.pairwise_singleton _ _⟩ }

def params : SorobanBillingParams :=
  { paymentId := "pay"
    subscriberAddress := wallet.address
    contractPlanId := 1
    idempotencyKey := sub.currentKey }

/-- The world in which the charge has been recorded. -/
def afterCharge : World :=
  { billed .SUCCESS (some "tx") with
    chain := [⟨"tx", sub.currentKey, ⟨"execute_billing", "ADMIN", wallet.address, 1⟩,
      some .Failed⟩]
    successes := [⟨bill .SUCCESS (some "tx"), day 2⟩] }

variable {v : JsValue}

theorem attempt_yields (hv : parseBillingOutcome v ≠ some .Failed) :
    Yields v (executeSorobanBilling.attempt (cfg false) params "ADMIN")
      (billed .PROCESSING none) "tx" afterCharge := by
  unfold executeSorobanBilling.attempt
  refine yields_after (show exec api _ [] _ = some (.ok "ADMIN", billed .PROCESSING none)
    from rfl) ?_
  refine yields_after (show exec api _ [] _ = some (.ok wallet.address, billed .PROCESSING none)
    from rfl) ?_
  -- `v` is looked at only by `parseBillingOutcome`
  refine yields_then (invoke_yields v _ _ _) (show exec api _ [on 2] _ = _ from ?_)
  dsimp only
  rw [if_neg hv]
  rfl

theorem charge_yields (hv : parseBillingOutcome v ≠ some .Failed) :
    Yields v (executeSorobanBilling (cfg false) params) (billed .PENDING none) "tx"
      afterCharge := by
  unfold executeSorobanBilling
  refine yields_after (show exec api _ [on 2] _
    = some (.ok (some (bill .PENDING none)), billed .PENDING none) from rfl) ?_
  show Yields v (keypairFromSecret _ _ >>= _) _ _ _
  refine yields_after (show exec api _ [] _ = some (.ok "ADMIN", billed .PENDING none)
    from rfl) ?_
  refine yields_after (show exec api _ [on 2] _
    = some (.ok (bill .PROCESSING none), billed .PROCESSING none) from rfl) ?_
  exact yields_try (attempt_yields hv)

/-- The subscription as the cycle reads it. -/
def subWithPlan : SubscriptionWithPlan := { sub with plan := plan, wallet := wallet }

/-- The world after the cycle. -/
def afterCycle : World :=
  { afterCharge with
    subscriptions := ⟨[subWithPlan.advanced (day 3) (day 2)], List.pairwise_singleton _ _⟩ }

/-- **A value that is not read as Failed is booked.** -/
theorem cycle_yields (hv : parseBillingOutcome v ≠ some .Failed) :
    Yields v ((serial (cfg false)).body (.runInline "sub")) (world plan sub)
      (some ⟨200, .ok⟩) afterCycle := by
  have hcharge : Yields v (chargePayment (cfg false) subWithPlan "pay" sub.currentKey)
      (billed .PENDING none) () afterCharge :=
    yields_then (charge_yields hv) (show exec api _ [] _ = _ from rfl)
  have hattempt : Yields v
      (processBillingCycle.attempt (cfg false) subWithPlan (bill .PENDING none) sub.currentKey)
      (billed .PENDING none) () afterCycle :=
    yields_then hcharge (show exec api _ [on 2, on 2] _ = _ from rfl)
  have hcycle : Yields v (processBillingCycle (cfg false) "sub") (world plan sub) ()
      afterCycle := by
    unfold processBillingCycle
    refine yields_after (show exec api _ [on 2] _ = some (.ok subWithPlan, world plan sub)
      from rfl) ?_
    show Yields v (processBillingCycle.rest _ _) _ _ _
    unfold processBillingCycle.rest
    refine yields_after (show exec api _ [on 2] _ = some (.ok none, world plan sub)
      from rfl) ?_
    refine yields_after (show exec api _ [fresh 2 "pay"] _
      = some (.ok (bill .PENDING none), billed .PENDING none) from rfl) ?_
    exact yields_try hattempt
  have hinline : Yields v (billing.runInline (cfg false) "sub") (world plan sub) ⟨200, .ok⟩
      afterCycle :=
    yields_then hcycle (show exec api _ [] _ = _ from rfl)
  exact yields_then hinline (show exec api _ [] _ = _ from rfl)

/-- A value that is not read as Failed is booked only if it encodes Paid. -/
theorem encodes_of_never_booked (hclaim : NeverBooked (cfg false) v) (hv : ¬ ReadsFailed v) :
    Encodes .Paid v := by
  obtain ⟨t, hruns, hmem⟩ := cycle_yields (mt parse_eq_failed_iff.mp hv)
  have hpaid : afterCycle.isPaid subWithPlan.currentKey :=
    ⟨bill .SUCCESS (some "tx"), by decide +kernel, rfl⟩
  have hmoved : ¬ PeriodKept afterCycle subWithPlan := by
    intro h
    obtain ⟨s, hs, hend⟩ := h
    have hs : some (subWithPlan.advanced (day 3) (day 2)) = some s := hs
    cases hs
    exact absurd hend (by decide)
  exact (hclaim
    ⟨.runInline "sub", world plan sub, t, .ok (some ⟨200, .ok⟩), afterCycle⟩ "sub" subWithPlan
    ⟨trivial, hruns⟩ rfl ⟨rfl, by decide, by decide⟩ hmem).1 hpaid hmoved

end Booking

/-- **The values of which the claim holds**: a value is booked only if it
encodes Paid, in every live execution, exactly when it encodes Paid or has a
shape that is read as Failed. -/
theorem never_booked_iff (v : JsValue) :
    (∀ cfg : Config, cfg.billing.testMode = false → NeverBooked cfg v)
      ↔ Encodes .Paid v ∨ ReadsFailed v := by
  constructor
  · intro hclaim
    by_cases hv : ReadsFailed v
    · exact .inr hv
    · exact .inl (encodes_of_never_booked (hclaim (Shop.cfg false) rfl) hv)
  · exact fun h cfg _ => never_booked_of h

/-- **A Failed outcome is booked**: `["Failed"]` is an array, which is not
read. -/
theorem failed_booked :
    ¬ ∀ (v : JsValue) (cfg : Config), cfg.billing.testMode = false → NeverBooked cfg v := by
  intro hclaim
  have h : Encodes .Paid (.array [.string "Failed"]) :=
    encodes_of_never_booked (hclaim _ (Shop.cfg false) rfl) id
  have h : "Failed" = "Paid" := h
  exact absurd h (by decide)

end Sorobill
