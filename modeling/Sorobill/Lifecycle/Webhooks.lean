/-
  Sorobill.Lifecycle.Webhooks
  ───────────────────────────
  **IS A SUBSCRIPTION THAT PAYS EVER PENALISED?**

  The charge, the advance of the period and the emission of PAYMENT_SUCCESS
  share one `try` block.  When the emission throws, `handlePaymentFailure`
  counts a retry from the snapshot taken before the advance, so every
  emission that fails adds one, although every charge succeeds.

    • `refusalStreak` — how many emissions were refused one after the other;
    • `step_unpenalised` — what one execution does to the retry count;
    • `paid_never_penalised` — no penalty in every history in which fewer
      than `maxRetries` emissions are refused one after the other.
-/
import Mathlib.Data.List.Infix
import Sorobill.Model.Shop
import Sorobill.Rules.Ticks

namespace Sorobill

open Effect
open Relational

/-! ## §1. The runs. -/

/-- What happens to a subscription without requests on it: its creation,
billing cycles and ticks. -/
def Operation.isRoutine : Operation → Prop
  | .createSubscription _ => True
  | .runInline _ => True
  | .billingJob _ => True
  | .tick => True
  | .expireGracePeriods => True
  | .cancel _ _ => False
  | .pause _ => False
  | .resume _ => False
  | .retryPayment _ => False
  | .runBilling _ => False

instance : (op : Operation) → Decidable op.isRoutine
  | .createSubscription _ => .isTrue trivial
  | .runInline _ => .isTrue trivial
  | .billingJob _ => .isTrue trivial
  | .tick => .isTrue trivial
  | .expireGracePeriods => .isTrue trivial
  | .cancel _ _ => .isFalse id
  | .pause _ => .isFalse id
  | .resume _ => .isFalse id
  | .retryPayment _ => .isFalse id
  | .runBilling _ => .isFalse id

/-- A call outside emissions and network is answered. -/
def Answered (e : CallEvent) : Prop := e.call.isStore → isRejected e = false

theorem not_refusable_answered : ¬ Refusable Answered := by
  intro h
  obtain ⟨e, ha, hstore, hrej⟩ := h
  rw [ha hstore] at hrej
  cases hrej

/-- The execution is routine; when it bills `id`, its calls outside emissions
and network are answered, and the payment it processes becomes SUCCESS. -/
structure PaysFor (id : String) (x : Step) : Prop where
  routine : x.op.isRoutine
  answered : x.op.bills = some id → ∀ e ∈ x.trace, Answered e
  paid : x.op.bills = some id → ∀ sub, Opened x.before id sub → x.after.isPaid sub.currentKey

/-- A call of an emission was rejected. -/
def emissionRefused (x : Step) : Bool :=
  x.trace.any (fun e => decide e.call.isWebhook && isRejected e)

/-- The execution has made an emission. -/
def hasEmission (x : Step) : Bool := x.trace.any (fun e => decide e.call.isWebhook)

/-- One more refused emission of `id`, or a new start. -/
def countRefusal (id : String) (n : Nat) (x : Step) : Nat :=
  if x.op.bills = some id then
    if emissionRefused x then n + 1 else if hasEmission x then 0 else n
  else n

/-- How many emissions of the billing cycles of `id` were refused one after
the other, up to the end of the history. -/
def refusalStreak (id : String) (xs : List Step) : Nat := xs.foldl (countRefusal id) 0

/-- **The condition**: at no time were `maxRetries` emissions refused one
after the other. -/
def FewRefusals (cfg : Config) (id : String) (xs : List Step) : Prop :=
  ∀ past, past <+: xs →
    refusalStreak id past = 0 ∨ (refusalStreak id past : Int) < cfg.billing.maxRetries

theorem refusalStreak_append (id : String) (xs : List Step) (x : Step) :
    refusalStreak id (xs ++ [x]) = countRefusal id (refusalStreak id xs) x := by
  simp [refusalStreak]

theorem FewRefusals.before {cfg : Config} {id : String} {xs : List Step} {x : Step}
    (h : FewRefusals cfg id (xs ++ [x])) : FewRefusals cfg id xs :=
  fun past hpast => h past (hpast.trans (List.prefix_append _ _))

/-! ## §2. One execution. -/

/-- The subscription, if it exists, is not penalised, and its retry count is
at most `n`. -/
def Unpenalised (id : String) (n : Nat) (w : World) : Prop :=
  ∀ s, w.sub? id = some s → (s.status = .ACTIVE ∨ s.status = .TRIALING)
    ∧ s.gracePeriodEndsAt = none ∧ s.retryCount ≤ n

theorem Unpenalised.congr {id : String} {n : Nat} {w w' : World} (h : Unpenalised id n w)
    (hrow : w'.sub? id = w.sub? id) : Unpenalised id n w' := by
  intro s hs
  rw [hrow] at hs
  exact h s hs

/-- A created subscription is not penalised. -/
theorem unpenalised_after {id : String} {n : Nat} {e : CallEvent} (h : e.call.isCreation)
    (hgood : Unpenalised id n e.before) : Unpenalised id n (e.after api) := by
  intro s hs
  obtain ⟨hmem, hid⟩ := sub?_eq_some.mp hs
  rcases subscription_origin e hmem with hmem | ⟨x, data, r, hcall, -⟩ |
    ⟨data, x, start, finish, hcall, -, rfl⟩
  · exact hgood s (sub?_eq_some.mpr ⟨hmem, hid⟩)
  · exact absurd hcall (h.2 x data)
  · rw [hcall] at h
    exact ⟨h.1.1, rfl, Nat.zero_le n⟩

theorem not_selected_of_unpenalised {id : String} {n : Nat} {w : World}
    (h : Unpenalised id n w) (t : Instant) (s : Subscription) (hs : w.sub? id = some s) :
    (expireGracePeriods.condition t).selects s = false := by
  rcases (h s hs).1 with hst | hst <;>
    simp [SubscriptionWhere.selects, expireGracePeriods.condition, hst]

/-- The retry count after a failure of the emission is the streak's. -/
theorem unpenalised_of_penalty {cfg : Config} {id : String} {n : Nat} {s s' : Subscription}
    {retryCount : Nat} {w' : World} (hn : (n + 1 : Int) < cfg.billing.maxRetries)
    (hret : retryCount ≤ n) (hst : s.status = .ACTIVE) (hg : s.gracePeriodEndsAt = none)
    (hpen : Penalised cfg Answered retryCount s s') (hrow : w'.sub? id = some s') :
    Unpenalised id (n + 1) w' := by
  intro r hr
  rw [hrow] at hr
  cases hr
  cases hpen with
  | unwritten hrefuse => exact absurd hrefuse not_refusable_answered
  -- the streak is still too short for that
  | pastDue g now hmax => omega
  | counted now hlt => exact ⟨.inl hst, hg, Nat.succ_le_succ hret⟩

/-- The streak, from the log of the execution. -/
theorem countRefusal_of_log {id : String} {n : Nat} {x : Step} (hb : x.op.bills = some id) :
    countRefusal id n x
      = if (logOf x.trace).emissionRefused then n + 1
        else if (logOf x.trace).emitted then 0 else n := by
  rw [countRefusal, if_pos hb, logOf, log_of_trace]
  rfl

/-- **A billing cycle that pays.** -/
theorem billing_unpenalised {cfg : Config} {id : String} {n : Nat} {x : Step}
    (hx : x.Of (serial cfg)) (hpays : PaysFor id x) (hb : x.op.bills = some id)
    (hfew : countRefusal id n x = 0 ∨ (countRefusal id n x : Int) < cfg.billing.maxRetries)
    (hgood : Unpenalised id n x.before) : Unpenalised id (countRefusal id n x) x.after := by
  have hend := seq_runs hx.runs (hpays.answered hb)
    (billing_ends cfg (A := Answered) hb)
  have hreset : ∀ {sub : SubscriptionWithPlan} {newEnd now : Instant} {w' : World} {m : Nat},
      w'.sub? id = some (sub.advanced newEnd now) → Unpenalised id m w' := by
    intro sub newEnd now w' m hrow s hs
    rw [hrow] at hs
    cases hs
    exact ⟨.inl rfl, rfl, Nat.zero_le m⟩
  generalize hw' : x.after = w' at *
  generalize hv' : logOf x.trace = v' at *
  cases hend with
  | untouched h =>
      rcases h with h | hclosed
      · exact absurd h not_refusable_answered
      · -- nothing was found open, so there was no emission
        have hcount : countRefusal id n x = n := by
          rw [countRefusal_of_log hb, hv']
          rfl
        rw [hcount]
        exact hgood
  | advanced newEnd now hopen hpaid hch hrow => exact hreset hrow
  | @charged sub _ _ hopen hunpaid hsub htail =>
      have hid := hopen.id_eq
      have hret := (hgood _ hopen.row).2.2
      cases htail with
      | settled newEnd now hpaid hread hend hrow => exact hreset (hid ▸ hrow)
      -- paid, and counted as a failure all the same
      | unannounced newEnd now s' hpaid hread hend hrefused hpen hrow =>
          have hcount : countRefusal id n x = n + 1 := by
            rw [countRefusal_of_log hb, hv', hrefused]
            rfl
          rw [hcount] at hfew ⊢
          refine unpenalised_of_penalty ?_ hret rfl rfl hpen (hid ▸ hrow)
          rcases hfew with h | h
          · cases h
          · exact_mod_cast h
      | unadvanced s' hpaid hread hrefuse hpen hrow =>
          exact absurd hrefuse not_refusable_answered
      | failed s' hnot hlog hpen hrow => exact absurd (hw' ▸ hpays.paid hb sub hopen) hnot

/-- **What one execution preserves.** -/
theorem step_unpenalised {cfg : Config} {id : String} {n : Nat} {x : Step}
    (hx : x.Of (serial cfg)) (hpays : PaysFor id x)
    (hfew : countRefusal id n x = 0 ∨ (countRefusal id n x : Int) < cfg.billing.maxRetries)
    (hgood : Unpenalised id n x.before) : Unpenalised id (countRefusal id n x) x.after := by
  by_cases hb : x.op.bills = some id
  · exact billing_unpenalised hx hpays hb hfew hgood
  -- the other executions count nothing, and leave the row or create it
  have hcount : countRefusal id n x = n := if_neg hb
  rw [hcount]
  have hselect : ∀ e : CallEvent, True → e.call = .dateNow → ∀ s, x.before.sub? id = some s →
      (expireGracePeriods.condition e.env.now).selects s = false :=
    fun e _ _ s hs => not_selected_of_unpenalised hgood e.env.now s hs
  have hroutine := hpays.routine
  cases hop : x.op with
  | createSubscription body =>
      exact seq_ends hx hop (fun _ _ => trivial)
        (seq_frame (R := fun w w' => Unpenalised id n w → Unpenalised id n w') (fun _ h => h)
          (fun _ _ _ h h' hw => h' (h hw)) (fun _ => unpenalised_after)
          (calls_map (create_calls body))) hgood
  | runInline y =>
      have hne : id ≠ y := fun h => hb (by rw [hop, h]; rfl)
      exact hgood.congr (seq_ends hx hop (fun _ _ => trivial) (billing_keeps rfl hne))
  | billingJob job =>
      have hne : id ≠ job.data := fun h => hb (by rw [hop, h]; rfl)
      exact hgood.congr (seq_ends hx hop (fun _ _ => trivial) (billing_keeps rfl hne))
  | tick =>
      exact hgood.congr (seq_ends hx hop (fun _ _ => trivial)
        (Safe.map (scheduleBillingJobs_keeps rfl hselect)))
  | expireGracePeriods =>
      exact hgood.congr (seq_ends hx hop (fun _ _ => trivial)
        (Safe.map (expireGracePeriods_keeps rfl hselect)))
  | cancel y immediately =>
      rw [hop] at hroutine
      exact hroutine.elim
  | pause y =>
      rw [hop] at hroutine
      exact hroutine.elim
  | resume y =>
      rw [hop] at hroutine
      exact hroutine.elim
  | retryPayment y =>
      rw [hop] at hroutine
      exact hroutine.elim
  | runBilling y =>
      rw [hop] at hroutine
      exact hroutine.elim

/-! ## §3. Histories. -/

/-- **A subscription that pays is not penalised** in any history from before
its creation on in which every charge of it succeeds and, at no time,
`maxRetries` of its emissions were refused one after the other. -/
theorem paid_never_penalised (cfg : Config) (id : String) (w₀ w : World) (xs : List Step)
    (hnew : w₀.sub? id = none)
    (h : History (serial cfg) (fun _ x => PaysFor id x) w₀ xs w)
    (hfew : FewRefusals cfg id xs) (s : Subscription) (hs : w.sub? id = some s) :
    s.status ≠ .PAST_DUE ∧ s.gracePeriodEndsAt = none ∧ s.status ≠ .CANCELLED := by
  have hgood : FewRefusals cfg id xs → Unpenalised id (refusalStreak id xs) w := by
    refine h.invariant (J := fun xs w => FewRefusals cfg id xs →
      Unpenalised id (refusalStreak id xs) w) ?_ ?_ ?_
    · intro _ s hs
      rw [hnew] at hs
      cases hs
    · -- the condition speaks about every prefix, the new one included
      intro past x ih hx hpays hfew
      have hnow := hfew (past ++ [x]) (List.prefix_rfl)
      rw [refusalStreak_append] at hnow ⊢
      exact step_unpenalised hx hpays hnow (ih hfew.before)
    · intro past w₁ _ ih h hfew
      obtain ⟨q, -, rfl⟩ := h
      exact ih hfew
  obtain ⟨hst, hg, -⟩ := hgood hfew s hs
  refine ⟨?_, hg, ?_⟩ <;> rcases hst with hst | hst <;> rw [hst] <;> decide

/-! ## §4. Scenarios. -/

section Scenarios

open Shop

/-- `PaysFor` as a test. -/
def paysFor (id : String) (x : Step) : Bool :=
  decide x.op.isRoutine
    && x.trace.all (fun e => decide e.call.isWebhook || !isRejected e)
    && match (x.before.sub? id).bind x.before.withPlan with
      | none => true
      | some sub =>
          x.op.bills != some id
            || (x.after.paymentByKey? sub.currentKey).any (fun p => p.status == .SUCCESS)

theorem paysFor_sound {id : String} {x : Step} (h : paysFor id x = true) : PaysFor id x := by
  obtain ⟨h, hpaid⟩ := Bool.and_eq_true_iff.mp h
  obtain ⟨hroutine, hanswered⟩ := Bool.and_eq_true_iff.mp h
  refine ⟨of_decide_eq_true hroutine, fun _ e he hstore => ?_, fun hb sub hopen => ?_⟩
  · have := List.all_eq_true.mp hanswered e he
    simpa [hstore.1] using this
  · rw [hopen.found] at hpaid
    rw [hb] at hpaid
    simpa [World.isPaid, Option.any_eq_true] using hpaid

/-- A create request on day 1. -/
def subscribing : Operation × List Env :=
  (.createSubscription ⟨"plan", wallet.address⟩, [on 1, on 1, on 1, fresh 1 "sub", on 1])

/-- A cycle on day `n` whose emission finds the database down. -/
def unannounced (n : Nat) (pid : String) : Operation × List Env :=
  (.runInline "sub",
    [on n, on n, fresh n pid, on n, on n, on n, rejected n, on n, on n, on n])

/-- **Three emissions in a row that fail**: every charge has succeeded, and
the subscription is PAST_DUE. -/
theorem paid_and_penalised :
    ¬ ∀ (cfg : Config) (id : String) (w₀ w : World) (xs : List Step),
      w₀.sub? id = none → Clocked xs →
      History (serial cfg) (fun _ x => PaysFor id x) w₀ xs w →
      ∀ s, w.sub? id = some s →
        s.status ≠ .PAST_DUE ∧ s.gracePeriodEndsAt = none ∧ s.status ≠ .CANCELLED := by
  intro hclaim
  have hrun : ((serial (cfg true)).play (fun _ x => paysFor "sub" x)
      [subscribing, unannounced 2 "pay2", unannounced 3 "pay3", unannounced 4 "pay4"] []
      (opening plan)).map (fun r => (decide (Clocked r.1), (r.2.sub? "sub").map (·.status)))
      = some (true, some .PAST_DUE) := by
    decide +kernel
  obtain ⟨⟨xs, w⟩, hplay, hres⟩ := Option.map_eq_some_iff.mp hrun
  obtain ⟨hclock, hstatus⟩ := Prod.mk.inj hres
  obtain ⟨s, hs, hst⟩ := Option.map_eq_some_iff.mp hstatus
  have h := hclaim (cfg true) "sub" (opening plan) w xs (by decide) (of_decide_eq_true hclock)
    (Serial.play_history (fun _ _ => paysFor_sound) .start hplay) s hs
  exact h.1 hst

/-- `FewRefusals` as a test. -/
def fewRefusals (cfg : Config) (id : String) (xs : List Step) : Bool :=
  xs.inits.all (fun past => refusalStreak id past == 0
    || decide ((refusalStreak id past : Int) < cfg.billing.maxRetries))

theorem fewRefusals_sound {cfg : Config} {id : String} {xs : List Step}
    (h : fewRefusals cfg id xs = true) : FewRefusals cfg id xs := by
  intro past hpast
  have := List.all_eq_true.mp h past ((List.mem_inits past xs).mpr hpast)
  simpa using this

/-- One emission that fails is no penalty. -/
theorem paid_never_penalised_shop :
    ∃ xs w s, History (serial (cfg true)) (fun _ x => PaysFor "sub" x) (opening plan) xs w
      ∧ FewRefusals (cfg true) "sub" xs ∧ w.sub? "sub" = some s ∧ s.retryCount = 1
      ∧ s.status ≠ .PAST_DUE ∧ s.gracePeriodEndsAt = none ∧ s.status ≠ .CANCELLED := by
  have hrun : ((serial (cfg true)).play (fun _ x => paysFor "sub" x)
      [subscribing, unannounced 2 "pay2"] [] (opening plan)).map (fun r =>
        (fewRefusals (cfg true) "sub" r.1, (r.2.sub? "sub").map (·.retryCount)))
      = some (true, some 1) := by
    decide +kernel
  obtain ⟨⟨xs, w⟩, hplay, hres⟩ := Option.map_eq_some_iff.mp hrun
  obtain ⟨hfew, hretry⟩ := Prod.mk.inj hres
  obtain ⟨s, hs, hcount⟩ := Option.map_eq_some_iff.mp hretry
  have h : History (serial (cfg true)) (fun _ x => PaysFor "sub" x) (opening plan) xs w :=
    Serial.play_history (fun _ _ => paysFor_sound) .start hplay
  exact ⟨xs, w, s, h, fewRefusals_sound hfew, hs, hcount,
    paid_never_penalised (cfg true) "sub" (opening plan) w xs (by decide) h
      (fewRefusals_sound hfew) s hs⟩

end Scenarios

end Sorobill
