/-
  Sorobill.Rules.Requests
  ───────────────────────
  **WHAT AN UNINTERRUPTED EXECUTION WITHOUT A BILLING CYCLE DOES TO A
  SUBSCRIPTION.**

    • `SameTerms` — period, retries and grace period are kept, and the status
      is kept or becomes CANCELLED;
    • `Restarted` — a resume request begins a new period;
    • `CancelEnd`, `CreateEnd` — what a cancel and a create request write;
    • `Created` — the row that a create request inserts;
    • `unbilled_terms` — every such execution does to a row one of the first
      two;
    • `created_of_new` — every row that an execution inserts is of the third
      kind.
-/
import Sorobill.Rules.Periods

namespace Sorobill

open Effect
open Relational

/-! ## §1. Rows. -/

/-- Period, retries and grace period are the same; the status is, or it has
become CANCELLED. -/
structure SameTerms (s s' : Subscription) : Prop where
  id : s'.id = s.id
  planId : s'.planId = s.planId
  start : s'.currentPeriodStart = s.currentPeriodStart
  finish : s'.currentPeriodEnd = s.currentPeriodEnd
  retryCount : s'.retryCount = s.retryCount
  grace : s'.gracePeriodEndsAt = s.gracePeriodEndsAt
  status : s'.status = s.status ∨ s'.status = .CANCELLED

theorem SameTerms.refl (s : Subscription) : SameTerms s s :=
  ⟨rfl, rfl, rfl, rfl, rfl, rfl, .inl rfl⟩

theorem SameTerms.trans {a b c : Subscription} (hab : SameTerms a b) (hbc : SameTerms b c) :
    SameTerms a c := by
  refine ⟨hbc.id.trans hab.id, hbc.planId.trans hab.planId, hbc.start.trans hab.start,
    hbc.finish.trans hab.finish, hbc.retryCount.trans hab.retryCount,
    hbc.grace.trans hab.grace, ?_⟩
  rcases hbc.status with h | h
  · rw [h]
    exact hab.status
  · exact .inr h

/-- The stored subscriptions keep their terms. -/
def KeepsTerms (w w' : World) : Prop :=
  ∀ y s, w.sub? y = some s → ∃ s', w'.sub? y = some s' ∧ SameTerms s s'

theorem KeepsTerms.refl (w : World) : KeepsTerms w w := fun _ s hs => ⟨s, hs, .refl s⟩

theorem KeepsTerms.trans {a b c : World} (hab : KeepsTerms a b) (hbc : KeepsTerms b c) :
    KeepsTerms a c := by
  intro y s hs
  obtain ⟨s', hs', h⟩ := hab y s hs
  obtain ⟨s'', hs'', h'⟩ := hbc y s' hs'
  exact ⟨s'', hs'', h.trans h'⟩

/-- A status is written only as CANCELLED, and no period. -/
theorem Amended.sameTerms {may : Permissions} {data : SubscriptionData} (h : Amended may data)
    (hback : may.writesBack = false) (hre : may.restarts = false) (now : Instant)
    (s : Subscription) : SameTerms s (data.apply now s) := by
  cases h with
  | cancelled date => exact ⟨rfl, rfl, rfl, rfl, rfl, rfl, .inr rfl⟩
  | flagged status date hmay =>
      -- writes a status that was read earlier: excluded by `hback`
      rw [hback] at hmay
      cases hmay
  | paused => exact ⟨rfl, rfl, rfl, rfl, rfl, rfl, .inl rfl⟩
  | resumed now newEnd hmay =>
      rw [hre] at hmay
      cases hmay
  | expired now => exact ⟨rfl, rfl, rfl, rfl, rfl, rfl, .inr rfl⟩

theorem keepsTerms_after {may : Permissions} (hback : may.writesBack = false)
    (hre : may.restarts = false) {e : CallEvent} (he : e.call.isOrdinary may) :
    KeepsTerms e.before (e.after api) := by
  intro y s hs
  rcases sub?_after e hs with hafter | ⟨data, hcall, -, hafter⟩
  · exact ⟨s, hafter, .refl s⟩
  · rw [hcall] at he
    exact ⟨_, hafter, Amended.sameTerms he hback hre e.env.now s⟩

/-- A resume request has begun a new period of the row, at a time it has read
from the clock. -/
structure Restarted (cfg : Config) (A : CallEvent → Prop) (op : Operation) (w : World)
    (s s' : Subscription) : Prop where
  op_eq : op = .resume s.id
  paused : s.paused = true
  period : ∃ plan env finish now, PlanOf w s.id plan ∧ A ⟨w, .dateNow, env⟩
    ∧ plan.next cfg env.now = some finish
    ∧ s' = { s with
        paused := false
        currentPeriodStart := env.now
        currentPeriodEnd := finish
        updatedAt := now }

section Requests

variable {cfg : Config} {A : CallEvent → Prop} {w : World} {v : Log}

/-- A subscription row is written, or the write is rejected. -/
theorem seq_updateRow {x : String} {s : Subscription} {data : SubscriptionData}
    (hs : w.sub? x = some s) {Q : Post Api World Log Subscription}
    (herr : ∀ err, Q (.error err) w v)
    (hok : ∀ now a w', data.valid = true → (∀ y, w'.sub? y = if y = x then
      some (data.apply now s) else w.sub? y) → Q (.ok a) w' v) :
    Safe (sequential A) (prisma.subscription.update x data) Q w v := by
  refine seq_ask id (by simp) (fun err _ => herr err) (fun env a ha => ?_)
  rcases serve_subscriptionUpdate x data env w with ⟨err, h⟩ | ⟨old, t, hold, hvalid, ht, h⟩
  · rw [h] at ha
    cases ha
  · rw [h]
    apply hok env.now a _ hvalid
    intro y
    obtain rfl : old = s := Option.some.inj (hold.symm.trans hs)
    exact sub?_update hold ht y

/-- The row that a cancel request writes at the time `updated`, having read the
time `now`. -/
def Subscription.cancelledBy (s : Subscription) (immediately : Bool) (now updated : Instant) :
    Subscription :=
  { s with
    cancelAtPeriodEnd := !immediately
    status := if immediately then .CANCELLED else s.status
    cancelledAt := if immediately then some now else none
    updatedAt := updated }

/-- **What a cancel request ends with**: nothing written, or the row; after
that it throws only when its emission was refused. -/
inductive CancelEnd (A : CallEvent → Prop) (x : String) (immediately : Bool) (w : World)
    (v : Log) : Post Api World Log HttpReply where
  | unwritten {r : Except Thrown HttpReply} : (∀ reply, r = .ok reply → reply.status = 404) →
      CancelEnd A x immediately w v r w v
  | written {r : Except Thrown HttpReply} {w' : World} {v' : Log} (s : Subscription) (now : Instant)
      (data : SubscriptionData) (env : Env) : w.sub? x = some s →
      A ⟨w, .subscriptionUpdate x data, env⟩ →
      data.apply env.now s = s.cancelledBy immediately now env.now →
      w.subscriptions.update? (·.id == x) (data.apply env.now) = some w'.subscriptions →
      (∀ err, r = .error err → v'.emissionRefused = true) → CancelEnd A x immediately w v r w' v'

/-- The time is read for an immediate cancellation only. -/
theorem cancelledAt_reads (immediately : Bool) (other : Instant) :
    Safe (sequential A) (subscriptions.cancelledAt immediately)
      (fun r w' v' => w = w' ∧ v = v' ∧ ∀ d, r = .ok d →
        ∃ now, d = if immediately then some (some now) else none) w v := by
  unfold subscriptions.cancelledAt
  cases immediately with
  | true =>
      rw [if_pos rfl, safe_bind]
      refine seq_dateNow (fun _ _ => ⟨rfl, rfl, fun _ => (nomatch ·)⟩) (fun env _ => ?_)
      refine ⟨rfl, rfl, fun d hd => ⟨env.now, ?_⟩⟩
      cases hd
      rfl
  | false =>
      refine ⟨rfl, rfl, fun d hd => ⟨other, ?_⟩⟩
      cases hd
      rfl

theorem cancel_ends (x : String) (immediately : Bool) :
    Safe (sequential A) (subscriptions.cancel x immediately) (CancelEnd A x immediately w v)
      w v := by
  unfold subscriptions.cancel
  rw [safe_bind]
  refine seq_findUnique (fun err => .unwritten (fun _ => (nomatch ·))) ?_
  rw [andThen_ok]
  cases hs : w.sub? x with
  | none =>
      refine .unwritten (fun reply hreply => ?_)
      cases hreply
      rfl
  | some s =>
      dsimp only
      rw [safe_bind]
      -- the date of the cancellation: the clock, or none for the end of the period
      apply (cancelledAt_reads immediately s.currentPeriodEnd).mono
      intro r _ _ hpost
      obtain ⟨rfl, rfl, hdate⟩ := hpost
      cases r with
      | error err => exact .unwritten (fun _ => (nomatch ·))
      | ok d =>
          obtain ⟨now, hd⟩ := hdate d rfl
          rw [andThen_ok, safe_bind]
          refine seq_made id (by simp) (fun err _ => .unwritten (fun _ => (nomatch ·)))
            (fun env a hmade ha => ?_)
          generalize hdata : ({ cancelAtPeriodEnd := some (!immediately)
                                status := some (if immediately then .CANCELLED else s.status)
                                cancelledAt := some d } : SubscriptionData) = data
            at hmade ha ⊢
          -- the write is the one the request asks for
          have hrow : data.apply env.now s = s.cancelledBy immediately now env.now := by
            rw [← hdata, hd]
            cases immediately <;> rfl
          rcases serve_subscriptionUpdate x data env w with
            ⟨err, h⟩ | ⟨old, t, -, -, ht, h⟩
          · rw [h] at ha
            cases ha
          rw [h, andThen_ok, safe_bind]
          -- the row is written; what follows touches the webhooks only
          apply (emitWebhookEvent_ends _ _ _).mono
          intro r w₂ v₂ hpost
          obtain ⟨hhooks, -, -, herr⟩ := hpost
          have hwritten : w.subscriptions.update? (·.id == x) (data.apply env.now)
              = some w₂.subscriptions := by
            unfold SameButHooks at hhooks
            rw [hhooks]
            exact ht
          cases r with
          | error err =>
              exact .written s now data env hs hmade hrow hwritten (fun _ _ => herr err rfl)
          | ok _ => exact .written s now data env hs hmade hrow hwritten (fun _ => (nomatch ·))

/-- A cancellation at the period end writes back the status of the row. -/
theorem cancel_terms (x : String) :
    Safe (sequential A) (subscriptions.cancel x false) (fun _ w' _ => KeepsTerms w w') w v := by
  apply (cancel_ends x false).mono
  intro r w' v' hend y t ht
  cases hend with
  | unwritten => exact ⟨t, ht, .refl t⟩
  | written s now data env hs _ hrow hwritten _ =>
      have hrows : w'.sub? y = if y = x then some (data.apply env.now s) else w.sub? y :=
        sub?_update hs hwritten y
      rw [hrows]
      -- no call stands between the read and the write, so the status is the stored one
      by_cases hy : y = x
      · subst hy
        obtain rfl : s = t := Option.some.inj (hs.symm.trans ht)
        rw [if_pos rfl, hrow]
        exact ⟨_, rfl, ⟨rfl, rfl, rfl, rfl, rfl, rfl, .inl rfl⟩⟩
      · rw [if_neg hy]
        exact ⟨t, ht, .refl t⟩

/-- **A resume request keeps the terms of every row, or restarts the one it
is about.** -/
theorem resume_terms (x : String) :
    Safe (sequential A) (subscriptions.resume cfg x) (fun _ w' _ =>
      ∀ y s, w.sub? y = some s → ∃ s', w'.sub? y = some s'
        ∧ (SameTerms s s' ∨ Restarted cfg A (.resume x) w s s')) w v := by
  have hsame : ∀ y s, w.sub? y = some s → ∃ s', w.sub? y = some s'
      ∧ (SameTerms s s' ∨ Restarted cfg A (.resume x) w s s') :=
    fun y s hs => ⟨s, hs, .inl (.refl s)⟩
  unfold subscriptions.resume
  rw [safe_bind]
  refine seq_read id (by simp) rfl (fun err _ => hsame) (fun env found hread => ?_)
  have hfound : found = (w.sub? x).bind w.withPlan := found_of_read hread
  rw [andThen_ok]
  cases found with
  | none => exact hsame
  | some sub =>
      dsimp only
      split
      · exact hsame
      next hpaused =>
        rw [safe_bind]
        refine seq_dateNow (fun _ _ => hsame) (fun env ha => ?_)
        rw [andThen_ok, safe_bind]
        obtain ⟨hrow, hid⟩ := withPlan_eq_some hfound.symm
        refine seq_updateRow hrow (fun _ => hsame) (fun updated a w₁ hvalid hrows y s hs => ?_)
        rw [hrows]
        by_cases hy : y = x
        · subst hy
          obtain rfl : sub.toSubscription = s := Option.some.inj (hrow.symm.trans hs)
          rw [if_pos rfl]
          refine ⟨_, rfl, .inr ⟨by rw [hid], by simpa using hpaused, sub.plan, env, ?_⟩⟩
          cases hnext : nextPeriod cfg.tz env.now sub.plan.interval sub.plan.intervalCount with
          | none =>
              -- an Invalid Date is refused, and the write was answered
              rw [hnext] at hvalid
              cases hvalid
          | some finish =>
              refine ⟨finish, updated, ⟨sub.toSubscription, ?_, plan_of_withPlan hfound.symm⟩, ha,
                hnext, ?_⟩
              · rw [hid]
                exact hrow
              · simp [SubscriptionData.apply, setDate, setDate?]
        · rw [if_neg hy]
          exact ⟨s, hs, .inl (.refl s)⟩

/-- **What an execution without a billing cycle does to a row.** -/
theorem unbilled_terms {op : Operation} (hb : op.bills = none) :
    Safe (sequential A) (op.body cfg) (fun _ w' _ => ∀ y s, w.sub? y = some s →
      ∃ s', w'.sub? y = some s' ∧ (SameTerms s s' ∨ Restarted cfg A op w s s')) w v := by
  have hplain : op.permissions.writesBack = false → op.permissions.restarts = false →
      Safe (sequential A) (op.body cfg) (fun _ w' _ => ∀ y s, w.sub? y = some s →
        ∃ s', w'.sub? y = some s' ∧ (SameTerms s s' ∨ Restarted cfg A op w s s')) w v := by
    intro hback hre
    refine (seq_frame (R := KeepsTerms) KeepsTerms.refl (fun _ _ _ => KeepsTerms.trans)
      (fun _ => keepsTerms_after hback hre) (operation_calls cfg op hb)).mono ?_
    intro r w' v' h y s hs
    obtain ⟨s', hs', hterms⟩ := h y s hs
    exact ⟨s', hs', .inl hterms⟩
  cases op with
  | cancel x immediately =>
      cases immediately with
      | true => exact hplain rfl rfl
      | false =>
          apply Safe.map
          apply (cancel_terms x).mono
          intro r w' v' h y s hs
          obtain ⟨s', hs', hterms⟩ := h y s hs
          exact ⟨s', hs', .inl hterms⟩
  | resume x => exact (resume_terms x).map
  | runInline x => cases hb
  | billingJob job => cases hb
  | _ => exact hplain rfl rfl

end Requests

/-! ## §2. New rows. -/

/-- A create request has inserted the row. -/
structure Created (cfg : Config) (op : Operation) (w : World) (s : Subscription) : Prop where
  op_eq : ∃ body, op = .createSubscription body
  period : ∃ plan, w.plans.find? (·.id == s.planId) = some plan
    ∧ plan.next cfg s.currentPeriodStart = some s.currentPeriodEnd
  status : s.status = .ACTIVE ∨ s.status = .TRIALING
  retryCount : s.retryCount = 0
  grace : s.gracePeriodEndsAt = none

/-- No subscription is inserted. -/
def InsertsNone (w w' : World) : Prop := ∀ y, w.sub? y = none → w'.sub? y = none

theorem InsertsNone.refl (w : World) : InsertsNone w w := fun _ h => h

theorem InsertsNone.trans {a b c : World} (hab : InsertsNone a b) (hbc : InsertsNone b c) :
    InsertsNone a c :=
  fun y h => hbc y (hab y h)

theorem InsertsNone.of_eq {w w' : World} (h : w'.subscriptions = w.subscriptions) :
    InsertsNone w w' := by
  intro y hnone
  unfold World.sub?
  rw [h]
  exact hnone

/-- Only `subscription.create` inserts. -/
theorem insertsNone_after {e : CallEvent} (he : ∀ data, e.call ≠ .subscriptionCreate data) :
    InsertsNone e.before (e.after api) := by
  intro y hnone
  by_contra hsome
  obtain ⟨s, hs⟩ := Option.ne_none_iff_exists'.mp hsome
  obtain ⟨hmem, hid⟩ := sub?_eq_some.mp hs
  rcases subscription_origin e hmem with hmem | ⟨x, data, r, -, hr, hrid, rfl⟩ |
    ⟨data, _, _, _, hcall, -, -⟩
  · rw [sub?_eq_some.mpr ⟨hmem, hid⟩] at hnone
    cases hnone
  · rw [sub?_eq_some.mpr ⟨hr, hid⟩] at hnone
    cases hnone
  · exact he data hcall

section Creations

variable {cfg : Config} {A : CallEvent → Prop} {w : World} {v : Log}

/-- **What a create request ends with**: nothing written to the table, or one
row inserted; after that it throws only when its emission was refused. -/
inductive CreateEnd (cfg : Config) (body : CreateSubscription) (w : World) (v : Log) :
    Post Api World Log HttpReply where
  | unwritten {r : Except Thrown HttpReply} {w' : World} :
      w'.subscriptions = w.subscriptions → CreateEnd cfg body w v r w' v
  | inserted {r : Except Thrown HttpReply} {w' : World} {v' : Log} (plan : Plan) (wallet : Wallet)
      (now created : Instant) (x : String) (start finish : Instant) :
      w.plans.find? (·.id == body.planId) = some plan →
      (subscriptions.createData cfg plan wallet now).currentPeriodStart = some start →
      (subscriptions.createData cfg plan wallet now).currentPeriodEnd = some finish →
      (subscriptions.createData cfg plan wallet now).trialEndsAt ≠ some none →
      w.subscriptions.insert?
          ((subscriptions.createData cfg plan wallet now).row created x start finish)
        = some w'.subscriptions →
      (∀ err, r = .error err → v'.emissionRefused = true) → CreateEnd cfg body w v r w' v'

theorem create_ends (body : CreateSubscription) :
    Safe (sequential A) (subscriptions.create cfg body) (CreateEnd cfg body w v) w v := by
  unfold subscriptions.create
  split
  · exact .unwritten rfl
  rw [safe_bind]
  refine seq_perform.mpr (fun env _ => ?_)
  rw [add_plain (e := ⟨w, .planFindUnique body.planId, env⟩) id (by simp)]
  rcases serve_planFindUnique body.planId env w with ⟨err, h⟩ | h
  · rw [h]
    exact .unwritten rfl
  rw [h, andThen_ok]
  split
  · exact .unwritten rfl
  next plan hplan =>
    obtain ⟨hfound, -⟩ := Option.filter_eq_some_iff.mp hplan
    rw [safe_bind]
    refine seq_ask id (by simp) (fun err _ => .unwritten rfl) (fun env wallet _ => ?_)
    -- the wallet is written before the subscription is
    have hsubs := (serve_changed (.walletUpsert body.walletAddress) env w).subscriptions_eq
      (by simp [Call.region])
    generalize (api.serve (.walletUpsert body.walletAddress) env w).2 = w₁ at hsubs
    rw [andThen_ok, safe_bind]
    refine seq_dateNow (fun _ _ => .unwritten hsubs) (fun env _ => ?_)
    rw [andThen_ok, safe_bind]
    refine seq_perform.mpr (fun env' _ => ?_)
    rw [add_plain (e := ⟨w₁, .subscriptionCreate _, env'⟩) id (by simp)]
    rcases serve_subscriptionCreate (subscriptions.createData cfg plan wallet env.now) env' w₁ with
      ⟨err, h⟩ | ⟨x, start, finish, t, hstart, hfinish, htrial, ht, h⟩
    · rw [h]
      exact .unwritten hsubs
    rw [h, andThen_ok, safe_bind]
    apply (emitWebhookEvent_ends _ _ _).mono
    intro r w₂ v₂ hpost
    obtain ⟨hhooks, -, -, herr⟩ := hpost
    have hinserted : w.subscriptions.insert?
        ((subscriptions.createData cfg plan wallet env.now).row env'.now x start finish)
        = some w₂.subscriptions := by
      unfold SameButHooks at hhooks
      rw [hhooks, ← hsubs]
      exact ht
    cases r with
    | error err =>
        exact .inserted plan wallet env.now env'.now x start finish hfound hstart hfinish htrial
          hinserted (fun _ _ => herr err rfl)
    | ok _ =>
        exact .inserted plan wallet env.now env'.now x start finish hfound hstart hfinish htrial
          hinserted (fun _ => (nomatch ·))

/-- **What a create request inserts.** -/
theorem create_creates (body : CreateSubscription) :
    Safe (sequential A) (subscriptions.create cfg body) (fun _ w' _ => ∀ y s, w.sub? y = none →
      w'.sub? y = some s → Created cfg (.createSubscription body) w s) w v := by
  apply (create_ends body).mono
  intro r w' v' hend y s hy hs
  cases hend with
  | unwritten hsubs =>
      rw [InsertsNone.of_eq hsubs y hy] at hs
      cases hs
  | inserted plan wallet now created x start finish hfound hstart hfinish htrial ht herr =>
      have hrow : w'.sub? y = if y = x then
          some ((subscriptions.createData cfg plan wallet now).row created x start finish)
          else w.sub? y := sub?_insert ht y
      rw [hrow] at hs
      split at hs
      · -- the inserted row
        cases hs
        have hid : plan.id = body.planId := find_plan_id hfound
        refine ⟨⟨body, rfl⟩, ⟨plan, ?_, ?_⟩, ?_, rfl, rfl⟩
        · show w.plans.find? (·.id == plan.id) = some plan
          rw [hid]
          exact hfound
        · show plan.next cfg start = some finish
          have hperiod : (subscriptions.createData cfg plan wallet now).currentPeriodEnd
              = (subscriptions.createData cfg plan wallet now).currentPeriodStart.bind
                  (plan.next cfg) := rfl
          rw [hstart, hfinish] at hperiod
          exact hperiod.symm
        · show (if _ then _ else _) = _ ∨ (if _ then _ else _) = _
          split
          · exact .inr rfl
          · exact .inl rfl
      · -- any other row was there before
        rw [hy] at hs
        cases hs

end Creations

section Executions

variable {cfg : Config} {x : Step}

/-- **A row that was not there before was inserted by a create request.** -/
theorem created_of_new (hx : x.Of (serial cfg)) {y : String} {s : Subscription}
    (hnone : x.before.sub? y = none) (hs : x.after.sub? y = some s) :
    Created cfg x.op x.before s := by
  have hruns : Runs api (x.op.body cfg) x.before x.trace x.reply x.after := hx.runs
  have hinserts : ∀ {F : Call → Prop}, Calls api F (x.op.body cfg) →
      (∀ c, F c → ∀ data, c ≠ .subscriptionCreate data) → Created cfg x.op x.before s := by
    intro F hcalls hF
    have h := (hcalls.runs (R := InsertsNone) .refl (fun _ _ _ => .trans)
      (fun e he => insertsNone_after (hF _ he)) hruns).1
    rw [h y hnone] at hs
    cases hs
  cases hb : x.op.bills with
  | some id =>
      refine hinserts (billing_calls cfg hb) (fun c hc data heq => ?_)
      rw [heq] at hc
      exact hc
  | none =>
      -- of the other operations only one has the permission
      by_cases hmay : x.op.permissions.creates = true
      · cases hop : x.op with
        | createSubscription body =>
            rw [hop] at hruns
            exact seq_runs (A := fun _ => True) hruns (fun _ _ => trivial)
              (create_creates body).map y s hnone hs
        | _ =>
            rw [hop] at hmay
            cases hmay
      · refine hinserts (operation_calls cfg x.op hb) (fun c hc data heq => ?_)
        rw [heq] at hc
        exact hmay hc.2

/-- **What an execution without a billing cycle has done to a row.** -/
theorem row_after_unbilled (hx : x.Of (serial cfg)) (hb : x.op.bills = none) {y : String}
    {s : Subscription} (hs : x.before.sub? y = some s) :
    ∃ s', x.after.sub? y = some s'
      ∧ (SameTerms s s' ∨ Restarted cfg (· ∈ x.trace) x.op x.before s s') := by
  have hruns : Runs api (x.op.body cfg) x.before x.trace x.reply x.after := hx.runs
  exact seq_runs (A := (· ∈ x.trace)) hruns (fun _ he => he) (unbilled_terms hb) y s hs

/-- Plans are not written. -/
theorem plans_after (hx : x.Of (serial cfg)) : x.after.plans = x.before.plans := by
  have hruns : Runs api (x.op.body cfg) x.before x.trace x.reply x.after := hx.runs
  exact (hruns.always (P := fun w => w.plans = x.before.plans) rfl
    (fun e _ h => (serve_changed e.call e.env e.before).plans_eq.trans h)).2

end Executions

end Sorobill
