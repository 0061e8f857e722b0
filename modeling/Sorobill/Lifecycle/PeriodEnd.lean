/-
  Sorobill.Lifecycle.PeriodEnd
  ────────────────────────────
  **DOES A CANCELLATION AT PERIOD END TAKE EFFECT?**

  The request sets `cancelAtPeriodEnd`, and `findDueSubscriptions` leaves the
  flagged subscriptions out.  The other query of the tick asks for PAST_DUE.

    • `FlaggedDue` — a flagged subscription that should have ended;
    • `tick_keeps_due` — a tick lets none of them end, also when others interrupt
      it;
    • `period_end_iff` — none is left after the tick exactly when there was
      none before.
-/
import Sorobill.Library.Interruption
import Sorobill.Model.Shop
import Sorobill.Rules.Footprints

namespace Sorobill

open Effect
open Relational

/-! ## §1. Flagged subscriptions. -/

/-- To be cancelled at the end of the period, and not yet ended. -/
def Flagged (s : Subscription) : Prop :=
  s.cancelAtPeriodEnd = true ∧ (s.status = .ACTIVE ∨ s.status = .TRIALING)

/-- Flagged, and the period has ended at `t`. -/
def FlaggedDue (t : Instant) (s : Subscription) : Prop :=
  Flagged s ∧ s.currentPeriodEnd ≤ t

instance (t : Instant) (s : Subscription) : Decidable (FlaggedDue t s) :=
  inferInstanceAs (Decidable ((_ ∧ _) ∧ _))

/-- **Every cancellation that is due at `t` has taken effect.** -/
def AllEnded (t : Instant) (w : World) : Prop := ∀ s ∈ w.subscriptions, ¬ FlaggedDue t s

/-- The cancellation of the subscription `id` is due at `t`, and has not taken
effect. -/
def EndDue (t : Instant) (id : String) (w : World) : Prop :=
  ∃ s ∈ w.subscriptions, s.id = id ∧ FlaggedDue t s

theorem allEnded_iff {t : Instant} {w : World} : AllEnded t w ↔ ∀ id, ¬ EndDue t id w := by
  constructor
  · rintro h id ⟨s, hs, -, hdue⟩
    exact h s hs hdue
  · exact fun h s hs hdue => h s.id ⟨s, hs, rfl, hdue⟩

/-- The same cancellations are due at `t`. -/
def KeepsDue (t : Instant) (w w' : World) : Prop := ∀ id, EndDue t id w' ↔ EndDue t id w

section Keeping

variable {t : Instant} {w w' : World}

theorem KeepsDue.refl (t : Instant) (w : World) : KeepsDue t w w := fun _ => Iff.rfl

theorem KeepsDue.trans {a b c : World} (h₁ : KeepsDue t a b) (h₂ : KeepsDue t b c) :
    KeepsDue t a c :=
  fun id => (h₂ id).trans (h₁ id)

theorem KeepsDue.allEnded (h : KeepsDue t w w') : AllEnded t w' ↔ AllEnded t w := by
  rw [allEnded_iff, allEnded_iff]
  exact forall_congr' (fun id => not_congr (h id))

theorem keepsDue_of_eq (h : w'.subscriptions = w.subscriptions) : KeepsDue t w w' := by
  intro id
  unfold EndDue
  rw [h]

/-- A cancellation of a row that is not due keeps those that are. -/
theorem keepsDue_cancel {id : String} {data : SubscriptionData} {env : Env}
    (hd : data.status = some .CANCELLED) (h : ¬ EndDue t id w) :
    KeepsDue t w (api.serve (.subscriptionUpdate id data) env w).2 := by
  rcases serve_subscriptionUpdate id data env w with ⟨err, hs⟩ | ⟨old, table, -, -, ht, hs⟩
  · rw [hs]
    exact .refl t w
  · rw [hs]
    intro x
    constructor
    · rintro ⟨s, hmem, hid, hdue⟩
      rcases Table.update_origin ht hmem with hmem | ⟨r, -, -, rfl⟩
      · exact ⟨s, hmem, hid, hdue⟩
      · -- the row written is CANCELLED
        rcases hdue.1.2 with hst | hst <;> simp [SubscriptionData.apply, hd] at hst
    · rintro ⟨s, hmem, hid, hdue⟩
      have hne : s.id ≠ id := fun heq => h ⟨s, hmem, heq, hdue⟩
      exact ⟨s, Table.mem_update_of_not ht hmem (beq_eq_false_iff_ne.mpr hne), hid, hdue⟩

end Keeping

/-! ## §2. One tick. -/

/-- Others may interrupt the tick, and neither make a cancellation due nor let
one take effect. -/
def dueContract (t : Instant) : Contract api Unit where
  rely := KeepsDue t
  assume _ _ := True
  guarantee _ _ := True
  track v _ := v

section Walk

variable {t : Instant} {w : World} {α : Type}

theorem safe_unwritten {p : Service α} (hp : Calls api (fun c => c.region ≠ .subscriptions) p)
    {Q : Post Api World Unit α} (hQ : ∀ r w', KeepsDue t w w' → Q r w' ()) :
    Safe (dueContract t) p Q w () := by
  refine (safe_of_calls (C := dueContract t) (KeepsDue.refl t)
    (fun _ _ _ => KeepsDue.trans) (fun e he _ => ⟨trivial, ?_, rfl⟩) hp).mono ?_
  · exact keepsDue_of_eq ((serve_changed e.call e.env e.before).subscriptions_eq he)
  · intro r w' v hpost
    obtain ⟨hk, rfl⟩ := hpost
    exact hQ r w' hk

theorem cancel_keeps_due {sub : Subscription} (h : ¬ EndDue t sub.id w) :
    Safe (dueContract t) (expireGracePeriods.cancel sub)
      (fun _ w' _ => KeepsDue t w w') w () := by
  unfold expireGracePeriods.cancel
  rw [safe_bind]
  apply safe_unwritten (calls_perform (by decide))
  intro r w₁ hk₁
  cases r with
  | error err => exact hk₁
  | ok now =>
      rw [andThen_ok, safe_bind]
      refine safe_perform.mpr (fun w₂ env hk₂ _ => ⟨trivial, ?_⟩)
      -- the row is still not due when the write is served
      have hk : KeepsDue t w w₂ := hk₁.trans hk₂
      have hafter : KeepsDue t w₂ (api.serve (.subscriptionUpdate sub.id
          { status := some .CANCELLED, cancelledAt := some (some (some now)) }) env w₂).2 :=
        keepsDue_cancel rfl ((hk _).not.mpr h)
      cases (api.serve (.subscriptionUpdate sub.id
          { status := some .CANCELLED, cancelledAt := some (some (some now)) }) env w₂).1 with
      | error err => exact hk.trans hafter
      | ok _ =>
          refine safe_unwritten ((emitWebhookEvent_calls _ _ _).mono (fun c hc => ?_))
            (fun r w₃ hk₃ => (hk.trans hafter).trans hk₃)
          rcases hc.region with h | h <;> rw [h] <;> decide

theorem expireGracePeriods_keeps_due :
    Safe (dueContract t) expireGracePeriods (fun _ w' _ => KeepsDue t w w') w () := by
  unfold expireGracePeriods
  rw [safe_bind]
  apply safe_unwritten (calls_perform (by decide))
  intro r w₁ hk₁
  cases r with
  | error err => exact hk₁
  | ok now =>
      rw [andThen_ok, safe_bind]
      refine safe_perform.mpr (fun w₂ env hk₂ _ => ⟨trivial, ?_⟩)
      have hk : KeepsDue t w w₂ := hk₁.trans hk₂
      rcases serve_subscriptionFindMany (expireGracePeriods.condition now) env w₂ with
        ⟨err, h⟩ | ⟨expired, h, hperm⟩
      · rw [h]
        exact hk
      · rw [h, andThen_ok]
        -- the rows found are PAST_DUE, so none of them is due, now or later
        have hnot : ∀ r ∈ expired, ¬ EndDue t r.id w₂ := by
          rintro r hr ⟨s, hs, hid, hdue⟩
          obtain ⟨hmem, hsel⟩ := Table.mem_filter.mp (hperm.subset hr)
          have hsame : s = r := Table.eq_of_clash hs hmem hid
          simp only [SubscriptionWhere.selects, expireGracePeriods.condition, Bool.and_eq_true]
            at hsel
          have hst : r.status = .PAST_DUE := by simpa using hsel.1.1.1.1
          rcases hdue.1.2 with h | h <;> rw [hsame, hst] at h <;> cases h
        -- the loop keeps what was due at its start and at the query
        refine safe_forEach (fun w' _ => KeepsDue t w w' ∧ KeepsDue t w₂ w') ?_
          (fun _ _ h => h.1) ⟨hk, .refl t w₂⟩
        intro r hr w₃ v hpost
        obtain ⟨hk₃, hk₃'⟩ := hpost
        apply (cancel_keeps_due ((hk₃' _).not.mpr (hnot r hr))).mono
        intro r' w₄ _ hk₄
        cases r' with
        | ok _ => exact ⟨hk₃.trans hk₄, hk₃'.trans hk₄⟩
        | error err => exact hk₃.trans hk₄

/-- **A tick lets no cancellation at period end take effect.** -/
theorem tick_keeps_due :
    Safe (dueContract t) scheduleBillingJobs (fun _ w' _ => KeepsDue t w w') w () := by
  unfold scheduleBillingJobs
  rw [safe_bind]
  have hquery : Calls api (fun c => c.region ≠ .subscriptions) findDueSubscriptions := by
    refine calls_bind (fun now => ?_) ?_ <;> exact calls_perform (nomatch ·)
  apply safe_unwritten hquery
  intro r w₁ hk₁
  cases r with
  | error err => exact hk₁
  | ok due =>
      rw [andThen_ok, safe_bind]
      refine safe_unwritten (calls_forEach (fun sub _ => calls_perform (nomatch ·)))
        (fun r w₂ hk₂ => ?_)
      have hk : KeepsDue t w w₂ := hk₁.trans hk₂
      cases r with
      | error err => exact hk
      | ok _ => exact expireGracePeriods_keeps_due.mono (fun _ _ _ h => hk.trans h)

end Walk

/-- **No tick makes a due cancellation take effect**: when a tick has
completed, every cancellation that is due at `t`, for one the time at which
the tick began, has taken effect exactly when it had before the tick.  Other
operations may interrupt the tick, as long as they neither make a cancellation
due at `t` nor let one take effect. -/
theorem period_end_iff (w w' : World) (trace : List CallEvent) (t : Instant)
    (h : Interrupted api (KeepsDue t) scheduleBillingJobs w trace (.ok ()) w') :
    AllEnded t w' ↔ AllEnded t w := by
  obtain ⟨-, w₁, hrest, hk⟩ := Safe.of_interrupted (C := dueContract t) h tick_keeps_due
    (assumed_of_forall (v := ()) (fun _ _ _ => trivial))
  exact (hk.trans hrest).allEnded

/-! ## §3. Scenarios. -/

section Scenarios

open Shop

/-- Created and cancelled at period end on day 1; a tick on day 3. -/
def cancelledThenTick : List (Operation × List Env) :=
  [(.createSubscription ⟨"plan", wallet.address⟩, [on 1, on 1, on 1, fresh 1 "sub", on 1]),
   (.cancel "sub" false, [on 1, on 1, on 1]),
   (.tick, [on 3, on 3, on 3, on 3])]

/-- A completed tick that leaves a flagged subscription due when it began. -/
def leavesDue (x : Step) : Bool :=
  (x.op matches .tick) && (x.reply matches .ok _)
    && x.trace.head?.any (fun e =>
        x.after.subscriptions.rows.any (fun s => decide (FlaggedDue e.env.now s)))

/-- **A cancellation at period end that never takes effect.** -/
theorem period_end_ignored :
    ¬ ∀ (cfg : Config) (w₀ w : World) (xs : List Step), w₀.subscriptions.rows = [] →
      History (serial cfg) (fun _ _ => True) w₀ xs w →
      ∀ x ∈ xs, x.op = .tick → (∃ reply, x.reply = .ok reply) →
        ∀ first, x.trace.head? = some first → AllEnded first.env.now x.after := by
  intro hclaim
  have hrun : ((serial (cfg true)).play (fun _ _ => true) cancelledThenTick []
      (opening plan)).map (fun r => r.1.any leavesDue) = some true := by
    decide +kernel
  obtain ⟨⟨xs, w⟩, hplay, hany⟩ := Option.map_eq_some_iff.mp hrun
  obtain ⟨x, hx, hleaves⟩ := List.any_eq_true.mp hany
  obtain ⟨hdone, hdue⟩ := Bool.and_eq_true_iff.mp hleaves
  obtain ⟨htick, hok⟩ := Bool.and_eq_true_iff.mp hdone
  obtain ⟨first, hfirst, hrow⟩ := (Option.any_eq_true _ _).mp hdue
  obtain ⟨s, hs, hflag⟩ := List.any_eq_true.mp hrow
  refine hclaim (cfg true) (opening plan) w xs rfl
    (Serial.play_history (fun _ _ _ => trivial) .start hplay) x hx ?_ ?_ first hfirst s hs
    (of_decide_eq_true hflag)
  · cases hop : x.op <;> rw [hop] at htick <;> first | rfl | cases htick
  · cases hreply : x.reply with
    | ok reply => exact ⟨reply, rfl⟩
    | error err =>
        rw [hreply] at hok
        cases hok

/-- The subscription has been paused. -/
def pausedShop : World := world plan { sub with paused := true }

/-- What a tick of day 3 does once it has read the clock. -/
def restOfTick : Service Unit :=
  prisma.subscription.findMany (findDueSubscriptions.condition (day 3)) >>= fun due => do
    Prog.forEach due scheduleBillingJobs.enqueue
    expireGracePeriods

/-- A subscription that is not flagged is not due. -/
theorem allEnded_of_unflagged {s : Subscription} (t : Instant)
    (h : s.cancelAtPeriodEnd = false) : AllEnded t (world plan s) := by
  intro r hr hdue
  obtain rfl : r = s := List.mem_singleton.mp hr
  rw [hdue.1.1] at h
  cases h

/-- A tick on day 3, on a subscription that is not flagged, and is paused once
the tick has read the clock. -/
theorem period_end_iff_shop :
    ∃ trace w', Interrupted api (KeepsDue (day 3)) scheduleBillingJobs (world plan sub) trace
        (.ok ()) w'
      ∧ trace.map (fun e => (e.before.sub? "sub").map (·.paused))
          = [some false, some true, some true, some true]
      ∧ AllEnded (day 3) w' := by
  have hrun : (exec api restOfTick [on 3, on 3, on 3] pausedShop).map (fun r => (r.1.isOk,
      (execTrace api restOfTick [on 3, on 3, on 3] pausedShop).map
        (fun e => (e.before.sub? "sub").map (·.paused))))
      = some (true, [some true, some true, some true]) := by
    decide +kernel
  obtain ⟨⟨reply, w'⟩, hexec, hres⟩ := Option.map_eq_some_iff.mp hrun
  obtain ⟨hok, hpaused⟩ := Prod.mk.inj hres
  obtain rfl := ok_of_isOk hok
  -- neither before nor after the pause is there a row that is due
  have hkeeps : KeepsDue (day 3) (world plan sub) pausedShop := fun id =>
    iff_of_false (allEnded_iff.mp (allEnded_of_unflagged _ rfl) id)
      (allEnded_iff.mp (allEnded_of_unflagged _ rfl) id)
  have hrest : Interrupted api (KeepsDue (day 3)) restOfTick (world plan sub) _ (.ok ()) w' :=
    Interrupted.sooner (R := KeepsDue (day 3)) (fun _ _ _ => KeepsDue.trans)
      ((exec_runs hexec).interrupted (KeepsDue.refl _)) hkeeps
  have h : Interrupted api (KeepsDue (day 3)) scheduleBillingJobs (world plan sub) _ (.ok ()) w' :=
    .call (on 3) (.refl _ _) hrest
  exact ⟨_, w', h, congrArg (some false :: ·) hpaused,
    (period_end_iff _ _ _ (day 3) h).mpr (allEnded_of_unflagged _ rfl)⟩

end Scenarios

end Sorobill
