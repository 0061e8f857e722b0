/-
  Sorobill.Lifecycle.Cancelling
  ─────────────────────────────
  **DOES `cancelledAt` RECORD THE CANCELLATION?**

  The cancel request and `expireGracePeriods` write status and date together.
  The query of the latter asks for PAST_DUE rows; the request asks for
  nothing, and writes over a date that is there.

    • `Dated` — the date is set exactly in CANCELLED rows;
    • `Marks` — what an execution may do to status and date of a row;
    • `cancelledAt_records` — every row is dated, and a date stays, in every
      history in which no cancel request finds its subscription CANCELLED.
-/
import Sorobill.Model.Shop
import Sorobill.Rules.Bookings
import Sorobill.Rules.Requests
import Sorobill.Rules.Sweeps

namespace Sorobill

open Effect
open Relational

/-! ## §1. The claim. -/

/-- `cancelledAt` is set exactly when the status is CANCELLED. -/
def Subscription.Dated (s : Subscription) : Prop := s.status = .CANCELLED ↔ s.cancelledAt ≠ none

def AllDated (w : World) : Prop := ∀ id s, w.sub? id = some s → s.Dated

/-- No date of `w` is another one in `w'`. -/
def KeepsDates (w w' : World) : Prop := ∀ id s date, w.sub? id = some s →
  s.cancelledAt = some date → ∃ s', w'.sub? id = some s' ∧ s'.cancelledAt = some date

/-- **The condition**: a cancel request finds its subscription not CANCELLED. -/
def CancelsOpen (x : Step) : Prop :=
  ∀ id immediately, x.op = .cancel id immediately →
    ∀ s, x.before.sub? id = some s → s.status ≠ .CANCELLED

/-! ## §2. Status and date of a row. -/

/-- A cancelled row keeps its date; a row that becomes CANCELLED gets one; a
row that is not CANCELLED gets none. -/
structure Marks (s s' : Subscription) : Prop where
  kept : s.status = .CANCELLED → s'.status = .CANCELLED ∧ s'.cancelledAt = s.cancelledAt
  marked : s.status ≠ .CANCELLED → s'.status = .CANCELLED → s'.cancelledAt ≠ none
  unmarked : s'.status ≠ .CANCELLED → s'.cancelledAt = s.cancelledAt ∨ s'.cancelledAt = none

theorem Marks.refl (s : Subscription) : Marks s s :=
  ⟨fun h => ⟨h, rfl⟩, fun h h' => absurd h' h, fun _ => .inl rfl⟩

theorem Marks.trans {a b c : Subscription} (hab : Marks a b) (hbc : Marks b c) : Marks a c where
  kept h := by
    obtain ⟨hb, hdate⟩ := hab.kept h
    obtain ⟨hc, hdate'⟩ := hbc.kept hb
    exact ⟨hc, hdate'.trans hdate⟩
  marked h hc := by
    by_cases hb : b.status = .CANCELLED
    · rw [(hbc.kept hb).2]
      exact hab.marked h hb
    · exact hbc.marked hb hc
  unmarked hc := by
    -- a row that is not CANCELLED at the end was not in between
    have hb : b.status ≠ .CANCELLED := fun hb => hc (hbc.kept hb).1
    rcases hbc.unmarked hc with h | h
    · rw [h]
      exact hab.unmarked hb
    · exact .inr h

theorem Marks.dated {s s' : Subscription} (h : Marks s s') (hs : s.Dated) : s'.Dated := by
  by_cases hst : s.status = .CANCELLED
  · obtain ⟨hst', hdate⟩ := h.kept hst
    unfold Subscription.Dated at *
    rw [hst', hdate]
    exact ⟨fun _ => hs.mp hst, fun _ => rfl⟩
  · have hnone : s.cancelledAt = none := by
      by_contra hdate
      exact hst (hs.mpr hdate)
    constructor
    · exact h.marked hst
    · intro hdate
      by_contra hst'
      rcases h.unmarked hst' with heq | heq
      · exact hdate (heq.trans hnone)
      · exact hdate heq

/-- The stored rows are marked. -/
def KeepsMarks (w w' : World) : Prop :=
  ∀ y s, w.sub? y = some s → ∃ s', w'.sub? y = some s' ∧ Marks s s'

theorem KeepsMarks.refl (w : World) : KeepsMarks w w := fun _ s hs => ⟨s, hs, .refl s⟩

theorem KeepsMarks.trans {a b c : World} (hab : KeepsMarks a b) (hbc : KeepsMarks b c) :
    KeepsMarks a c := by
  intro y s hs
  obtain ⟨s', hs', h⟩ := hab y s hs
  obtain ⟨s'', hs'', h'⟩ := hbc y s' hs'
  exact ⟨s'', hs'', h.trans h'⟩

theorem KeepsMarks.of_eq {w w' : World} (h : w'.subscriptions = w.subscriptions) :
    KeepsMarks w w' := by
  intro y s hs
  refine ⟨s, ?_, .refl s⟩
  unfold World.sub?
  rw [h]
  exact hs

theorem SameButHooks.keepsMarks {w w' : World} (h : SameButHooks w w') : KeepsMarks w w' := by
  apply KeepsMarks.of_eq
  unfold SameButHooks at h
  rw [h]

/-- One row is written. -/
theorem KeepsMarks.written {w w' : World} {x : String} {s s' : Subscription}
    (hs : w.sub? x = some s) (hrows : ∀ y, w'.sub? y = if y = x then some s' else w.sub? y)
    (h : Marks s s') : KeepsMarks w w' := by
  intro y t ht
  rw [hrows]
  by_cases hy : y = x
  · subst hy
    obtain rfl : s = t := Option.some.inj (hs.symm.trans ht)
    rw [if_pos rfl]
    exact ⟨s', rfl, h⟩
  · rw [if_neg hy]
    exact ⟨t, ht, .refl t⟩

/-! ## §3. The operations. -/

theorem keepsMarks_after {e : CallEvent} (he : e.call.marksNothing) :
    KeepsMarks e.before (e.after api) := by
  intro y s hs
  rcases sub?_after e hs with hafter | ⟨data, hcall, -, hafter⟩
  · exact ⟨s, hafter, .refl s⟩
  · rw [hcall] at he
    obtain ⟨hst, hdate⟩ := he
    have hst' : (data.apply e.env.now s).status = s.status := by simp [SubscriptionData.apply, hst]
    have hdate' : (data.apply e.env.now s).cancelledAt = s.cancelledAt := by
      simp [SubscriptionData.apply, hdate, setDate?]
    refine ⟨_, hafter, fun h => ⟨hst'.trans h, hdate'⟩, fun h h' => ?_, fun _ => .inl hdate'⟩
    exact absurd (hst'.symm.trans h') h

section Operations

variable {cfg : Config} {A : CallEvent → Prop} {w : World} {v : Log}

/-- An emission follows a write. -/
theorem emit_keepsMarks {α : Type} {w₁ : World} {a : α} (hkeep : KeepsMarks w w₁)
    (type : WebhookEventType) (pid : Option String) (payload : JavaScript.JsValue) :
    Safe (sequential A) (emitWebhookEvent type pid payload >>= fun _ => (pure a : Service α))
      (fun _ w' _ => KeepsMarks w w') w₁ v := by
  rw [safe_bind]
  apply (emitWebhookEvent_ends _ _ _).mono
  intro r w₂ v₂ hpost
  have hkeep₂ : KeepsMarks w w₂ := hkeep.trans hpost.1.keepsMarks
  cases r <;> exact hkeep₂

/-- A cancel request marks a row that is not CANCELLED. -/
theorem cancel_marks (x : String) (immediately : Bool)
    (hopen : ∀ s, w.sub? x = some s → s.status ≠ .CANCELLED) :
    Safe (sequential A) (subscriptions.cancel x immediately)
      (fun _ w' _ => KeepsMarks w w') w v := by
  unfold subscriptions.cancel
  rw [safe_bind]
  refine seq_findUnique (fun err => .refl w) ?_
  rw [andThen_ok]
  cases hs : w.sub? x with
  | none => exact KeepsMarks.refl w
  | some s =>
      have hst := hopen s hs
      dsimp only
      cases immediately with
      | true =>
          -- CANCELLED, and the date of now
          rw [safe_bind]
          unfold subscriptions.cancelledAt
          rw [if_pos rfl, safe_bind]
          refine seq_dateNow (fun _ _ => .refl w) (fun env _ => ?_)
          show Safe _ (prisma.subscription.update x _ >>= _) _ _ _
          rw [safe_bind]
          refine seq_updateRow hs (fun _ => .refl w) (fun now a w₁ _ hrows => ?_)
          rw [andThen_ok]
          refine emit_keepsMarks (.written hs hrows ?_) _ _ _
          exact ⟨fun h => absurd h hst, fun _ _ => by simp [SubscriptionData.apply, setDate?],
            fun h => absurd rfl h⟩
      | false =>
          -- the status that was read, and no date
          show Safe _ (prisma.subscription.update x _ >>= _) _ _ _
          rw [safe_bind]
          refine seq_updateRow hs (fun _ => .refl w) (fun now a w₁ _ hrows => ?_)
          rw [andThen_ok]
          refine emit_keepsMarks (.written hs hrows ?_) _ _ _
          exact ⟨fun h => absurd h hst, fun h h' => absurd h' h, fun _ => .inr rfl⟩

/-- The rows that a sweep has left are still as it has found them. -/
def StillPastDue (left : List Subscription) (w : World) : Prop :=
  (left.map (·.id)).Nodup ∧ ∀ s ∈ left, w.sub? s.id = some s ∧ s.status = .PAST_DUE

theorem StillPastDue.found {t : Instant} {rows : List Subscription}
    (hperm : rows.Perm (w.subscriptions.filter (expireGracePeriods.condition t).selects)) :
    StillPastDue rows w := by
  refine ⟨selected_nodup hperm, fun s hs => ?_⟩
  obtain ⟨hmem, hsel⟩ := Table.mem_filter.mp (hperm.subset hs)
  exact ⟨sub?_eq_some.mpr ⟨hmem, rfl⟩, (expired_of_selects rfl rfl hsel).1⟩

/-- One round of the loop. -/
theorem expire_marks {w₀ : World} {s : Subscription} {left : List Subscription}
    (hkeep : KeepsMarks w₀ w) (hleft : StillPastDue (s :: left) w) :
    Safe (sequential A) (expireGracePeriods.cancel s) (fun r w' _ => KeepsMarks w₀ w'
      ∧ ∀ a, r = .ok a → StillPastDue left w') w v := by
  obtain ⟨hnodup, hrows⟩ := hleft
  obtain ⟨hnotin, hnodup⟩ := List.nodup_cons.mp hnodup
  obtain ⟨hs, hst⟩ := hrows s List.mem_cons_self
  unfold expireGracePeriods.cancel
  rw [safe_bind]
  refine seq_dateNow (fun _ _ => ⟨hkeep, fun _ => (nomatch ·)⟩) (fun env _ => ?_)
  rw [andThen_ok, safe_bind]
  refine seq_updateRow hs (fun _ => ⟨hkeep, fun _ => (nomatch ·)⟩) (fun now a w₁ _ hafter => ?_)
  have hmarks : KeepsMarks w w₁ := by
    refine .written hs hafter ⟨fun h => ?_, fun _ _ => by simp [SubscriptionData.apply, setDate?],
      fun h => absurd rfl h⟩
    rw [hst] at h
    cases h
  have hleft₁ : StillPastDue left w₁ := by
    refine ⟨hnodup, fun r hr => ⟨?_, (hrows r (List.mem_cons_of_mem _ hr)).2⟩⟩
    -- the ids of the rows are distinct
    have hne : r.id ≠ s.id := fun heq => hnotin (List.mem_map.mpr ⟨r, hr, heq⟩)
    rw [hafter, if_neg hne]
    exact (hrows r (List.mem_cons_of_mem _ hr)).1
  rw [andThen_ok]
  apply (emitWebhookEvent_ends _ _ _).mono
  intro r w₂ v₂ hpost
  refine ⟨(hkeep.trans hmarks).trans hpost.1.keepsMarks, fun _ _ => ?_⟩
  have hhooks := hpost.1
  unfold SameButHooks at hhooks
  rw [hhooks]
  exact hleft₁

/-- **A sweep marks rows that are PAST_DUE.** -/
theorem expireGracePeriods_marks (w₀ : World) (hkeep : KeepsMarks w₀ w) :
    Safe (sequential A) expireGracePeriods (fun _ w' _ => KeepsMarks w₀ w') w v := by
  unfold expireGracePeriods
  rw [safe_bind]
  refine seq_dateNow (fun _ _ => hkeep) (fun env _ => ?_)
  rw [andThen_ok, safe_bind]
  refine seq_findMany (fun _ => hkeep) (fun expired hperm => ?_)
  rw [andThen_ok]
  refine safe_forEach_left (fun left w' _ => KeepsMarks w₀ w' ∧ StillPastDue left w')
    (fun s left w₁ v₁ h => ?_) (fun _ _ h => h.1) ⟨hkeep, .found hperm⟩
  apply (expire_marks h.1 h.2).mono
  intro r w₂ v₂ h₂
  cases r with
  | ok a => exact ⟨h₂.1, h₂.2 a rfl⟩
  | error err => exact h₂.1

/-- A tick writes rows in its sweep only. -/
theorem scheduleBillingJobs_marks :
    Safe (sequential A) scheduleBillingJobs (fun _ w' _ => KeepsMarks w w') w v := by
  unfold scheduleBillingJobs
  rw [safe_bind]
  have hdue : Calls api Call.marksNothing findDueSubscriptions :=
    calls_bind (fun _ => calls_perform trivial) (calls_perform trivial)
  apply (seq_frame (R := KeepsMarks) .refl (fun _ _ _ => .trans) (fun _ => keepsMarks_after)
    hdue).mono
  intro r w₁ v₁ h₁
  cases r with
  | error err => exact h₁
  | ok due =>
      rw [andThen_ok, safe_bind]
      apply (seq_frame (R := KeepsMarks) .refl (fun _ _ _ => .trans) (fun _ => keepsMarks_after)
        (calls_forEach (fun s _ => calls_perform trivial))).mono
      intro r w₂ v₂ h₂
      cases r with
      | error err => exact h₁.trans h₂
      | ok _ => exact expireGracePeriods_marks w (h₁.trans h₂)

/-- **What an execution without a billing cycle does to status and date.** -/
theorem unbilled_marks {op : Operation} (hb : op.bills = none)
    (hopen : ∀ id immediately, op = .cancel id immediately →
      ∀ s, w.sub? id = some s → s.status ≠ .CANCELLED) :
    Safe (sequential A) (op.body cfg) (fun _ w' _ => KeepsMarks w w') w v := by
  have hplain : Calls api Call.marksNothing (op.body cfg) →
      Safe (sequential A) (op.body cfg) (fun _ w' _ => KeepsMarks w w') w v :=
    fun hcalls => seq_frame (R := KeepsMarks) .refl (fun _ _ _ => .trans)
      (fun _ => keepsMarks_after) hcalls
  cases op with
  | createSubscription body =>
      refine hplain (calls_map ((create_calls body).mono (fun c hc => ?_)))
      cases c <;> first | exact absurd rfl (hc.2 _ _) | trivial
  | cancel x immediately => exact (cancel_marks x immediately (hopen x immediately rfl)).map
  | pause x => exact hplain (calls_map (pause_marksNothing x))
  | resume x => exact hplain (calls_map (resume_marksNothing x))
  | retryPayment pid => exact hplain (calls_map (retry_marksNothing pid))
  | runBilling x =>
      exact hplain (calls_map (calls_bind (fun _ => calls_pure) (calls_perform trivial)))
  | tick => exact scheduleBillingJobs_marks.map
  | expireGracePeriods => exact (expireGracePeriods_marks w (.refl w)).map
  | runInline x => cases hb
  | billingJob job => cases hb

end Operations

/-! ## §4. Histories. -/

section Histories

variable {cfg : Config} {x : Step}

/-- The row is not CANCELLED and has the date of `s`. -/
def Undated (id : String) (s : Subscription) (w : World) : Prop :=
  ∃ s', w.sub? id = some s' ∧ s'.status ≠ .CANCELLED ∧ s'.cancelledAt = s.cancelledAt

/-- A billing execution leaves a cancelled row alone, and the date of any
other. -/
theorem marks_after_billing {y : String} (hx : x.Of (serial cfg)) (hb : x.op.bills = some y) :
    KeepsMarks x.before x.after := by
  intro z s hs
  by_cases hz : z = y
  · subst hz
    by_cases hst : s.status = .CANCELLED
    · exact ⟨s, cancelled_after_billing hx hb hs hst, .refl s⟩
    · -- no call of the cycle writes CANCELLED or a date
      have hstep : ∀ e ∈ x.trace, Undated z s e.before → Undated z s (e.after api) := by
        intro e he h
        obtain ⟨s', hs', hst', hdate⟩ := h
        rcases sub?_after e hs' with hafter | ⟨data, hcall, -, hafter⟩
        · exact ⟨s', hafter, hst', hdate⟩
        · rcases billing_opened hx hb e he with heq | ⟨sub, -, hbilling⟩
          · rw [heq] at hcall
            cases hcall
          · rw [hcall] at hbilling
            refine ⟨_, hafter, ?_, ?_⟩
            · cases hbilling.2 with
              | advance => exact (nomatch ·)
              | pastDue => exact (nomatch ·)
              | counted => exact hst'
            · cases hbilling.2 <;> exact hdate
      have hruns : Runs api (x.op.body cfg) x.before x.trace x.reply x.after := hx.runs
      obtain ⟨s', hs', hst', hdate⟩ := (hruns.always (P := Undated z s) ⟨s, hs, hst, rfl⟩ hstep).2
      exact ⟨s', hs', fun h => absurd h hst, fun _ h => absurd h hst', fun _ => .inl hdate⟩
  · exact ⟨s, (other_after_billing hx hb hz).trans hs, .refl s⟩

/-- **What one execution does to status and date.** -/
theorem step_marks (hx : x.Of (serial cfg)) (hopen : CancelsOpen x) :
    KeepsMarks x.before x.after := by
  have hruns : Runs api (x.op.body cfg) x.before x.trace x.reply x.after := hx.runs
  cases hb : x.op.bills with
  | some y => exact marks_after_billing hx hb
  | none =>
      have hsafe : Safe (sequential fun _ => True) (x.op.body cfg)
          (fun _ w' _ => KeepsMarks x.before w') x.before {} := unbilled_marks hb hopen
      exact seq_runs hruns (fun _ _ => trivial) hsafe

/-- The rows that are not among those of `w₀` are open and have no date. -/
def NewUndated (w₀ w : World) : Prop := ∀ y s, w₀.sub? y = none → w.sub? y = some s →
  s.status ≠ .CANCELLED ∧ s.cancelledAt = none

theorem newUndated_after {w₀ : World} {e : CallEvent} (he : e.call.isCreation)
    (h : NewUndated w₀ e.before) : NewUndated w₀ (e.after api) := by
  intro y s hy hs
  obtain ⟨hmem, hid⟩ := sub?_eq_some.mp hs
  rcases subscription_origin e hmem with hmem | ⟨x, data, r, hcall, -, -, -⟩ |
    ⟨data, id, start, finish, hcall, -, hrow⟩
  · exact h y s hy (sub?_eq_some.mpr ⟨hmem, hid⟩)
  · exact absurd hcall (he.2 x data)
  · -- the inserted row
    obtain ⟨hordinary, -⟩ := he
    rw [hcall] at hordinary
    subst hrow
    refine ⟨fun h => ?_, rfl⟩
    have hst : data.status = .CANCELLED := h
    rcases hordinary.1 with h | h <;> rw [hst] at h <;> cases h

/-- A created row is dated. -/
theorem dated_of_new (hx : x.Of (serial cfg)) {y : String} {s : Subscription}
    (hnone : x.before.sub? y = none) (hs : x.after.sub? y = some s) : s.Dated := by
  obtain ⟨body, hop⟩ := (created_of_new hx hnone hs).op_eq
  have hruns : Runs api (x.op.body cfg) x.before x.trace x.reply x.after := hx.runs
  rw [hop] at hruns
  have hcalls : Calls api Call.isCreation
      (some <$> subscriptions.create cfg body) := calls_map (create_calls body)
  have hkeep := (hcalls.runs (R := fun w w' => NewUndated x.before w → NewUndated x.before w')
    (fun _ h => h) (fun _ _ _ h h' hw => h' (h hw)) (fun e he => newUndated_after he) hruns).1
  have hstart : NewUndated x.before x.before := by
    intro z t hz ht
    rw [hz] at ht
    cases ht
  obtain ⟨hst, hdate⟩ := hkeep hstart y s hnone hs
  unfold Subscription.Dated
  rw [hdate]
  exact ⟨fun h => absurd h hst, fun h => absurd rfl h⟩

/-- **One execution keeps every row dated.** -/
theorem step_dated (hx : x.Of (serial cfg)) (hopen : CancelsOpen x) (h : AllDated x.before) :
    AllDated x.after := by
  intro y s hs
  cases hb : x.before.sub? y with
  | none => exact dated_of_new hx hb hs
  | some s₀ =>
      obtain ⟨s', hs', hmarks⟩ := step_marks hx hopen y s₀ hb
      obtain rfl : s' = s := Option.some.inj (hs'.symm.trans hs)
      exact hmarks.dated (h y s₀ hb)

/-- A date belongs to a cancelled row, which keeps it. -/
theorem keepsDates_of_marks {w w' : World} (hdated : AllDated w) (h : KeepsMarks w w') :
    KeepsDates w w' := by
  intro id s date hs hdate
  obtain ⟨s', hs', hmarks⟩ := h id s hs
  have hst : s.status = .CANCELLED := (hdated id s hs).mpr (by simp [hdate])
  exact ⟨s', hs', (hmarks.kept hst).2.trans hdate⟩

theorem KeepsDates.trans {a b c : World} (hab : KeepsDates a b) (hbc : KeepsDates b c) :
    KeepsDates a c := by
  intro id s date hs hdate
  obtain ⟨s', hs', hdate'⟩ := hab id s date hs hdate
  exact hbc id s' date hs' hdate'

theorem history_dated {w w' : World} {xs : List Step}
    (h : History (serial cfg) (fun _ x => CancelsOpen x) w xs w') (hw : AllDated w) :
    AllDated w' ∧ KeepsDates w w' := by
  refine h.invariant (J := fun _ w' => AllDated w' ∧ KeepsDates w w')
    ⟨hw, fun id s date hs hdate => ⟨s, hs, hdate⟩⟩ (fun _ x hJ hx hopen => ?_)
    (fun _ w₁ w₂ hJ hdrift => ?_)
  · obtain ⟨hdated, hkeep⟩ := hJ
    exact ⟨step_dated hx hopen hdated,
      hkeep.trans (keepsDates_of_marks hdated (step_marks hx hopen))⟩
  · obtain ⟨q, -, rfl⟩ := hdrift
    exact hJ

end Histories

/-- **`cancelledAt` records the cancellation** in every history in which no
cancel request finds its subscription CANCELLED: in every state, a row is
CANCELLED exactly when it has a date, and in no later state it has another. -/
theorem cancelledAt_records (cfg : Config) (w₀ w w' : World) (xs ys : List Step)
    (hstart : AllDated w₀) (h : History (serial cfg) (fun _ x => CancelsOpen x) w₀ xs w)
    (h' : History (serial cfg) (fun _ x => CancelsOpen x) w ys w') :
    AllDated w ∧ KeepsDates w w' := by
  have hdated := (history_dated h hstart).1
  exact ⟨hdated, (history_dated h' hdated).2⟩

/-! ## §5. Scenarios. -/

section Scenarios

open Shop

theorem world_dated : AllDated (world plan sub) := by
  intro id s hs
  obtain ⟨hmem, -⟩ := sub?_eq_some.mp hs
  obtain rfl : s = sub := List.mem_singleton.mp hmem
  unfold Subscription.Dated
  decide

/-- Cancelled on day 2, and once more, at the period end. -/
def cancelledAgain : List (Operation × List Env) :=
  [(.cancel "sub" true, [on 2, on 2, on 2, on 2]), (.cancel "sub" false, [on 3, on 3, on 3])]

/-- **A second cancel request takes the date away** and leaves the status. -/
theorem second_cancel_undates :
    ¬ ∀ (cfg : Config) (w₀ w w' : World) (xs ys : List Step), AllDated w₀ →
      History (serial cfg) (fun _ _ => True) w₀ xs w →
      History (serial cfg) (fun _ _ => True) w ys w' → AllDated w ∧ KeepsDates w w' := by
  intro hclaim
  have hrun : ((serial (cfg true)).play (fun _ _ => true) cancelledAgain [] (world plan sub)).bind
      (fun r => (r.2.sub? "sub").map (fun s => (s.status, s.cancelledAt)))
      = some (.CANCELLED, none) := by
    decide +kernel
  obtain ⟨⟨xs, w⟩, hplay, hrow⟩ := Option.bind_eq_some_iff.mp hrun
  obtain ⟨s, hs, hres⟩ := Option.map_eq_some_iff.mp hrow
  obtain ⟨hst, hdate⟩ := Prod.mk.inj hres
  have h : History (serial (cfg true)) (fun _ _ => True) (world plan sub) xs w :=
    Serial.play_history (fun _ _ _ => trivial) .start hplay
  obtain ⟨hdated, -⟩ := hclaim (cfg true) (world plan sub) w w xs [] world_dated h .start
  exact (hdated "sub" s hs).mp hst hdate

/-- `CancelsOpen` as a test. -/
def cancelsOpen (x : Step) : Bool :=
  match x.op with
  | .cancel id _ => (x.before.sub? id).all (fun s => s.status != .CANCELLED)
  | _ => true

theorem cancelsOpen_sound {x : Step} (h : cancelsOpen x = true) : CancelsOpen x := by
  intro id immediately hop s hs
  unfold cancelsOpen at h
  rw [hop] at h
  simpa [hs] using h

/-- Cancelled on day 2, then paused, and billed by a job that was enqueued
before. -/
theorem cancelledAt_records_shop :
    ∃ xs ys w w', History (serial (cfg true)) (fun _ x => CancelsOpen x) (world plan sub) xs w
      ∧ History (serial (cfg true)) (fun _ x => CancelsOpen x) w ys w'
      ∧ (w.sub? "sub").map (·.cancelledAt) = some (some (day 2)) ∧ ys.length = 2
      ∧ AllDated w ∧ KeepsDates w w' := by
  have hrun : ((serial (cfg true)).play (fun _ x => cancelsOpen x)
      [(.tick, [on 2, on 2, on 2, on 2, on 2]), (.cancel "sub" true, [on 2, on 2, on 2, on 2])]
      [] (world plan sub)).bind (fun r =>
        ((serial (cfg true)).play (fun _ x => cancelsOpen x)
          [(.pause "sub", [on 2, on 2]), (.billingJob enqueued, [on 2])] [] r.2).map (fun r' =>
            ((r.2.sub? "sub").map (·.cancelledAt), r'.1.length)))
      = some (some (some (day 2)), 2) := by
    decide +kernel
  obtain ⟨⟨xs, w⟩, hplay, hrest⟩ := Option.bind_eq_some_iff.mp hrun
  obtain ⟨⟨ys, w'⟩, hplay', hres⟩ := Option.map_eq_some_iff.mp hrest
  obtain ⟨hdate, hlength⟩ := Prod.mk.inj hres
  have h : History (serial (cfg true)) (fun _ x => CancelsOpen x) (world plan sub) xs w :=
    Serial.play_history (fun _ _ => cancelsOpen_sound) .start hplay
  have h' : History (serial (cfg true)) (fun _ x => CancelsOpen x) w ys w' :=
    Serial.play_history (fun _ _ => cancelsOpen_sound) .start hplay'
  exact ⟨xs, ys, w, w', h, h', hdate, hlength,
    cancelledAt_records (cfg true) (world plan sub) w w' xs ys world_dated h h'⟩

end Scenarios

end Sorobill
