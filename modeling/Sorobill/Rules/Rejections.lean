/-
  Sorobill.Rules.Rejections
  ─────────────────────────
  **WHERE THE LOOPS OF A TICK STOP.**

  A tick adds the jobs one after the other and then cancels the expired
  subscriptions one after the other.  Neither loop catches anything.

    • `emission_throws_iff` — an emission throws when one of its calls is
      rejected, and only then;
    • `answeredBy` — the calls of a tick that are rejected, by subscription;
    • `behind` — what comes after the first subscription of a kind;
    • `enqueue_runs`, `expire_runs` — each loop reaches the subscriptions that
      are not behind the first one that is rejected.
-/
import Sorobill.Rules.Charges
import Sorobill.Rules.Sweeps

namespace Sorobill

open Effect
open Relational

/-! ## §1. Emissions. -/

section Emissions

/-- A program that returns has had its calls answered. -/
def ThrowsRejections {α : Type} (p : Service α) : Prop :=
  ∀ w t a w', Runs api p w t (.ok a) w' → ∀ e ∈ t, isRejected e = false

theorem throws_perform (c : Call) : ThrowsRejections (Prog.perform (I := Api) c) := by
  intro w t a w' h e he
  obtain ⟨env, rfl, ha, -⟩ := runs_perform_iff.mp h
  rw [List.mem_singleton.mp he]
  exact isRejected_of_ok ha.symm

theorem throws_pure {α : Type} (a : α) : ThrowsRejections (pure a : Service α) := by
  intro w t a' w' h e he
  obtain ⟨rfl, -, -⟩ := runs_done_iff.mp h
  cases he

theorem throws_bind {α β : Type} {p : Service α} {f : α → Service β} (hp : ThrowsRejections p)
    (hf : ∀ a, ThrowsRejections (f a)) : ThrowsRejections (p >>= f) := by
  intro w t b w' h e he
  rcases runs_bind_iff.mp h with ⟨err, herr, -⟩ | ⟨a, w₁, t₁, t₂, rfl, h₁, h₂⟩
  · cases herr
  · rcases List.mem_append.mp he with he | he
    · exact hp _ _ _ _ h₁ e he
    · exact hf a _ _ _ _ h₂ e he

/-- `Promise.all` throws in the end what it has kept. -/
theorem throws_promiseAll {ps : List (Service Unit)} (hps : ∀ p ∈ ps, ThrowsRejections p) :
    ThrowsRejections (promiseAll ps) := by
  induction ps with
  | nil => exact throws_pure ()
  | cons p ps ih =>
      intro w t a w' h e he
      unfold promiseAll at h
      rcases runs_bind_iff.mp h with ⟨err, herr, -⟩ | ⟨rejection, w₁, t₁, t₂, rfl, h₁, h₂⟩
      · cases herr
      rcases runs_bind_iff.mp h₂ with ⟨err, herr, -⟩ | ⟨_, w₂, t₃, t₄, rfl, h₃, h₄⟩
      · cases herr
      cases rejection with
      | some err =>
          -- it is thrown, so nothing was returned
          cases h₄
      | none =>
          obtain ⟨rfl, -, -⟩ := runs_done_iff.mp h₄
          rcases List.mem_append.mp he with he | he
          · rcases runs_tryCatch_iff.mp h₁ with ⟨a, -, hp⟩ | ⟨err, w₃, t₅, t₆, -, -, hcaught⟩
            · have hbody := throws_bind (hps p List.mem_cons_self)
                (fun _ => throws_pure (none : Option Thrown))
              exact hbody _ _ _ _ hp e he
            · obtain ⟨-, hnone, -⟩ := runs_done_iff.mp hcaught
              cases hnone
          · rw [List.append_nil] at he
            exact ih (fun q hq => hps q (List.mem_cons_of_mem p hq)) _ _ _ _ h₃ e he

theorem throws_emission (type : WebhookEventType) (pid : Option String)
    (payload : JavaScript.JsValue) : ThrowsRejections (emitWebhookEvent type pid payload) := by
  unfold emitWebhookEvent
  refine throws_bind (throws_perform _) (fun endpoints => ?_)
  split
  · exact throws_pure ()
  · refine throws_bind (throws_perform _) (fun event => throws_bind (throws_perform _)
      (fun deliveries => throws_promiseAll (fun p hp => ?_)))
    obtain ⟨delivery, -, rfl⟩ := List.mem_map.mp hp
    exact throws_perform _

/-- **An emission throws exactly when one of its calls is rejected.** -/
theorem emission_throws_iff {type : WebhookEventType} {pid : Option String}
    {payload : JavaScript.JsValue} {w w' : World} {t : List CallEvent} {r : Except Thrown Unit}
    (h : Runs api (emitWebhookEvent type pid payload) w t r w') :
    t.any isRejected = true ↔ ∃ err, r = .error err := by
  constructor
  · intro hany
    obtain ⟨e, he, hrejected⟩ := List.any_eq_true.mp hany
    cases r with
    | error err => exact ⟨err, rfl⟩
    | ok a =>
        rw [throws_emission _ _ _ _ _ _ _ h e he] at hrejected
        cases hrejected
  · rintro ⟨err, rfl⟩
    have hends := seq_runs (A := fun _ => True) h (fun _ _ => trivial)
      (emitWebhookEvent_ends type pid payload)
    have hrefused := hends.2.2.2 err rfl
    unfold logOf at hrefused
    rw [log_of_trace, Bool.false_or] at hrefused
    obtain ⟨e, he, hrejected⟩ := List.any_eq_true.mp hrefused
    exact List.any_eq_true.mpr ⟨e, he, ((Bool.and_eq_true_iff).mp hrejected).2⟩

end Emissions

/-! ## §2. The answers of a tick. -/

/-- **The answers of a tick**: `queue.add` is rejected for the subscriptions in
`A`, the emission that follows a cancellation for those in `B`, and no other
call is rejected. -/
def answeredBy (A B : String → Bool) : List CallEvent → Bool
  | [] => true
  | e :: t =>
      (match e.call with
        | .billingQueueAdd _ id _ => isRejected e == A id
        | .subscriptionUpdate id _ =>
            !isRejected e && (t.takeWhile (fun e => decide e.call.isWebhook)).any isRejected == B id
        | _ => decide e.call.isWebhook || !isRejected e)
      && answeredBy A B t

/-- The subscriptions that come after the first one of a kind. -/
def behind (R : String → Bool) (l : List Subscription) : List Subscription :=
  (l.dropWhile (fun s => !R s.id)).tail

section Answers

variable {A B R : String → Bool} {t : List CallEvent}

@[simp] theorem behind_nil : behind R [] = [] := rfl

theorem behind_cons_of {s : Subscription} {l : List Subscription} (h : R s.id = true) :
    behind R (s :: l) = l := by
  simp [behind, h]

theorem behind_cons_of_not {s : Subscription} {l : List Subscription} (h : R s.id = false) :
    behind R (s :: l) = behind R l := by
  simp [behind, h]

theorem mem_of_mem_behind {s : Subscription} {l : List Subscription} (h : s ∈ behind R l) :
    s ∈ l :=
  (List.dropWhile_sublist _).subset (List.mem_of_mem_tail h)

theorem answeredBy_cons {e : CallEvent} (h : answeredBy A B (e :: t) = true) :
    answeredBy A B t = true := ((Bool.and_eq_true_iff).mp h).2

theorem answeredBy_right {t₁ t₂ : List CallEvent} (h : answeredBy A B (t₁ ++ t₂) = true) :
    answeredBy A B t₂ = true := by
  induction t₁ with
  | nil => exact h
  | cons e t₁ ih => exact ih (answeredBy_cons h)

/-- The answer of `queue.add`. -/
theorem answeredBy_add {w : World} {env : Env} {name id : String} {jobId : Option String}
    (h : answeredBy A B (⟨w, .billingQueueAdd name id jobId, env⟩ :: t) = true) :
    isRejected ⟨w, .billingQueueAdd name id jobId, env⟩ = A id :=
  beq_iff_eq.mp ((Bool.and_eq_true_iff).mp h).1

/-- The answers of an update and of the emission that follows it. -/
theorem answeredBy_update {w : World} {env : Env} {id : String} {data : SubscriptionData}
    (h : answeredBy A B (⟨w, .subscriptionUpdate id data, env⟩ :: t) = true) :
    isRejected ⟨w, .subscriptionUpdate id data, env⟩ = false
      ∧ (t.takeWhile (fun e => decide e.call.isWebhook)).any isRejected = B id := by
  obtain ⟨hupdate, hemission⟩ := (Bool.and_eq_true_iff).mp ((Bool.and_eq_true_iff).mp h).1
  exact ⟨by simpa using hupdate, beq_iff_eq.mp hemission⟩

/-- The clock is read. -/
theorem answeredBy_dateNow {w : World} {env : Env}
    (h : answeredBy A B (⟨w, .dateNow, env⟩ :: t) = true) :
    isRejected ⟨w, .dateNow, env⟩ = false := by
  have hanswered : (false || !isRejected ⟨w, .dateNow, env⟩) = true :=
    ((Bool.and_eq_true_iff).mp h).1
  simpa using hanswered

/-- A query is answered. -/
theorem answeredBy_findMany {w : World} {env : Env} {condition : SubscriptionWhere}
    (h : answeredBy A B (⟨w, .subscriptionFindMany condition, env⟩ :: t) = true) :
    isRejected ⟨w, .subscriptionFindMany condition, env⟩ = false := by
  have hanswered : (false || !isRejected ⟨w, .subscriptionFindMany condition, env⟩) = true :=
    ((Bool.and_eq_true_iff).mp h).1
  simpa using hanswered

end Answers

/-! ## §3. The loops. -/

/-- The tick offers the subscription to the queue. -/
def Offered (t : List CallEvent) (s : Subscription) : Prop :=
  ∃ e ∈ t, e.call = .billingQueueAdd "process-subscription" s.id (some (billingJobId s))

section Loops

variable {A B : String → Bool} {w w' : World} {t : List CallEvent} {r : Except Thrown Unit}

/-- What the first loop has done when it ends. -/
structure Enqueued (A : String → Bool) (due : List Subscription) (w : World)
    (t : List CallEvent) (r : Except Thrown Unit) (w' : World) : Prop where
  returns : r = .ok () ↔ ∀ s ∈ due, A s.id = false
  rows : w'.subscriptions = w.subscriptions
  offers : ∀ s ∈ due, Offered t s ↔ s ∉ behind A due
  calls : ∀ e ∈ t, ∃ s ∈ due,
    e.call = .billingQueueAdd "process-subscription" s.id (some (billingJobId s))

theorem addCall_inj {a b : Subscription} {name name' : String} {jobId jobId' : Option String}
    (h : Call.billingQueueAdd name a.id jobId = .billingQueueAdd name' b.id jobId') :
    a.id = b.id := by
  injection h

/-- The loop ends at its first subscription, which is rejected. -/
theorem Enqueued.stopped {s : Subscription} {due : List Subscription} {env : Env} {err : Thrown}
    (hne : ∀ x ∈ due, x.id ≠ s.id) (hA : A s.id = true) :
    Enqueued A (s :: due) w
      [⟨w, .billingQueueAdd "process-subscription" s.id (some (billingJobId s)), env⟩]
      (.error err) w := by
  refine ⟨iff_of_false (fun h => nomatch h) (fun h => ?_), rfl, fun x hx => ?_, fun e he => ?_⟩
  · rw [h s List.mem_cons_self] at hA
    cases hA
  · rw [behind_cons_of hA]
    rcases List.mem_cons.mp hx with rfl | hx
    · exact iff_of_true ⟨_, List.mem_singleton_self _, rfl⟩ (fun hmem => hne x hmem rfl)
    · refine iff_of_false (fun hoffered => ?_) (fun h => h hx)
      obtain ⟨e, he, hcall⟩ := hoffered
      rw [List.mem_singleton.mp he] at hcall
      exact hne x hx (addCall_inj hcall).symm
  · rw [List.mem_singleton.mp he]
    exact ⟨s, List.mem_cons_self, rfl⟩

/-- The loop goes on behind its first subscription, which is added. -/
theorem Enqueued.added {s : Subscription} {due : List Subscription} {env : Env} {w₁ : World}
    (hne : ∀ x ∈ due, x.id ≠ s.id) (hA : A s.id = false)
    (hrows : w₁.subscriptions = w.subscriptions) (h : Enqueued A due w₁ t r w') :
    Enqueued A (s :: due) w
      (⟨w, .billingQueueAdd "process-subscription" s.id (some (billingJobId s)), env⟩ :: t)
      r w' := by
  refine ⟨h.returns.trans (by simp [hA]), h.rows.trans hrows, fun x hx => ?_, fun e he => ?_⟩
  · rw [behind_cons_of_not hA]
    rcases List.mem_cons.mp hx with rfl | hx
    · exact iff_of_true ⟨_, List.mem_cons_self, rfl⟩
        (fun hmem => hne x (mem_of_mem_behind hmem) rfl)
    · rw [← h.offers x hx]
      refine ⟨fun hoffered => ?_, fun hoffered => ?_⟩
      · obtain ⟨e, he, hcall⟩ := hoffered
        rcases List.mem_cons.mp he with rfl | he
        · exact absurd (addCall_inj hcall).symm (hne x hx)
        · exact ⟨e, he, hcall⟩
      · obtain ⟨e, he, hcall⟩ := hoffered
        exact ⟨e, List.mem_cons_of_mem _ he, hcall⟩
  · rcases List.mem_cons.mp he with rfl | he
    · exact ⟨s, List.mem_cons_self, rfl⟩
    · obtain ⟨x, hx, hcall⟩ := h.calls e he
      exact ⟨x, List.mem_cons_of_mem _ hx, hcall⟩

/-- **The first loop** offers the subscriptions that are not behind the first
one that is rejected. -/
theorem enqueue_runs {due : List Subscription} (hnodup : (due.map (·.id)).Nodup)
    (h : Runs api (Prog.forEach due scheduleBillingJobs.enqueue) w t r w') {t' : List CallEvent}
    (hanswers : answeredBy A B (t ++ t') = true) : Enqueued A due w t r w' := by
  induction due generalizing w t with
  | nil =>
      obtain ⟨rfl, rfl, rfl⟩ := runs_done_iff.mp h
      exact ⟨iff_of_true rfl (fun s hs => (nomatch hs)), rfl, fun s hs => (nomatch hs),
        fun e he => (nomatch he)⟩
  | cons s due ih =>
      rw [List.map_cons, List.nodup_cons] at hnodup
      obtain ⟨hs, hnodup⟩ := hnodup
      have hne : ∀ x ∈ due, x.id ≠ s.id := fun x hx heq => hs (List.mem_map.mpr ⟨x, hx, heq⟩)
      rw [Prog.forEach_cons] at h
      obtain ⟨env, ⟨err, herr, rfl, rfl, hw⟩ | ⟨_, t₁, hok, rfl, hrest⟩⟩ := runs_perform_bind h
      · have hA : A s.id = true := by
          rw [← answeredBy_add hanswers]
          exact isRejected_of_error herr
        obtain rfl : w' = w := hw.trans (after_of_error herr)
        exact .stopped hne hA
      · have hA : A s.id = false := by
          rw [← answeredBy_add hanswers]
          exact isRejected_of_ok hok
        have hchanged := serve_changed
          (.billingQueueAdd "process-subscription" s.id (some (billingJobId s))) env w
        exact .added hne hA (hchanged.subscriptions_eq (by simp [Call.region]))
          (ih hnodup hrest (answeredBy_cons hanswers))

/-- An emission calls for webhooks only, and changes nothing else. -/
theorem emission_runs {type : WebhookEventType} {pid : Option String}
    {payload : JavaScript.JsValue} (h : Runs api (emitWebhookEvent type pid payload) w t r w') :
    SameButHooks w w' ∧ ∀ e ∈ t, e.call.isWebhook :=
  (emitWebhookEvent_calls type pid payload).runs (R := SameButHooks) .refl (fun _ _ _ => .trans)
    (fun _ => after_isWebhook) h

/-- What one round of the second loop does to the row `s`. -/
structure CancelsOne (B : String → Bool) (s : Subscription) (w : World) (t : List CallEvent)
    (r : Except Thrown Unit) (w' : World) : Prop where
  throws : B s.id = true ↔ ∃ err, r = .error err
  row : ∃ s', w'.sub? s.id = some s' ∧ s'.status = .CANCELLED
  others : ∀ y, y ≠ s.id → w'.sub? y = w.sub? y

/-- The trace begins with another call than those of emissions. -/
def Quiet (t : List CallEvent) : Prop := t.takeWhile (fun e => decide e.call.isWebhook) = []

/-- **One round of the second loop**: the row is CANCELLED, and then its
emission throws or not. -/
theorem cancel_runs {s : Subscription} (h : Runs api (expireGracePeriods.cancel s) w t r w')
    {t' : List CallEvent} (hanswers : answeredBy A B (t ++ t') = true) (hquiet : Quiet t') :
    CancelsOne B s w t r w' := by
  unfold expireGracePeriods.cancel at h
  obtain ⟨env, t₁, rfl, hgo⟩ := dateNow_runs h
  rw [List.cons_append] at hanswers
  have hupdate := hgo (answeredBy_dateNow hanswers)
  obtain ⟨env₁, t₂, rfl, hgo₁⟩ := answered_runs hupdate
  rw [List.cons_append] at hanswers
  obtain ⟨row, hrow, hemit⟩ := hgo₁ (answeredBy_update (answeredBy_cons hanswers)).1
  obtain ⟨hhooks, hwebhook⟩ := emission_runs hemit
  have hthrows : B s.id = true ↔ ∃ err, r = .error err := by
    rw [← emission_throws_iff hemit, ← (answeredBy_update (answeredBy_cons hanswers)).2]
    -- the emission ends where the next call is not one of an emission
    have hspan : (t₂ ++ t').takeWhile (fun e => decide e.call.isWebhook) = t₂ := by
      rw [List.takeWhile_append_of_pos (fun e he => decide_eq_true (hwebhook e he)), hquiet,
        List.append_nil]
    rw [hspan]
  rcases serve_subscriptionUpdate s.id _ env₁ w with ⟨err, hserve₁⟩ | ⟨old, u, hold, -, hu, hserve₁⟩
  · rw [hserve₁] at hrow
    cases hrow
  rw [hserve₁] at hhooks
  have hrows : ∀ y, w'.sub? y = ({ w with subscriptions := u } : World).sub? y := by
    intro y
    unfold SameButHooks at hhooks
    rw [hhooks]
    rfl
  have hafter := fun y => (hrows y).trans (sub?_update hold hu y)
  exact ⟨hthrows, ⟨_, (hafter s.id).trans (if_pos rfl), rfl⟩,
    fun y hy => (hafter y).trans (if_neg hy)⟩

/-- A round begins by reading the clock, and so does the loop. -/
theorem quiet_cancel {s : Subscription} (h : Runs api (expireGracePeriods.cancel s) w t r w')
    (t' : List CallEvent) : Quiet (t ++ t') := by
  unfold expireGracePeriods.cancel at h
  obtain ⟨env, t₁, rfl, -⟩ := dateNow_runs h
  rfl

theorem quiet_forEach {expired : List Subscription}
    (h : Runs api (Prog.forEach expired expireGracePeriods.cancel) w t r w') : Quiet t := by
  cases expired with
  | nil =>
      obtain ⟨rfl, -, -⟩ := runs_done_iff.mp h
      rfl
  | cons s expired =>
      rw [Prog.forEach_cons] at h
      rcases runs_bind_iff.mp h with ⟨err, -, hone⟩ | ⟨_, w₁, t₁, t₂, rfl, hone, -⟩
      · rw [← List.append_nil t]
        exact quiet_cancel hone []
      · exact quiet_cancel hone t₂

/-- What the second loop has done when it ends. -/
structure Expired (B : String → Bool) (expired : List Subscription) (w w' : World) : Prop where
  cancelled : ∀ s ∈ expired, s ∉ behind B expired →
    ∃ s', w'.sub? s.id = some s' ∧ s'.status = .CANCELLED
  unreached : ∀ s ∈ behind B expired, w'.sub? s.id = w.sub? s.id
  others : ∀ y, (∀ s ∈ expired, s.id ≠ y) → w'.sub? y = w.sub? y

/-- **The second loop** cancels the subscriptions that are not behind the first
one whose emission is rejected. -/
theorem expire_runs {expired : List Subscription} (hnodup : (expired.map (·.id)).Nodup)
    (h : Runs api (Prog.forEach expired expireGracePeriods.cancel) w t r w')
    (hanswers : answeredBy A B t = true) : Expired B expired w w' := by
  induction expired generalizing w t with
  | nil =>
      obtain ⟨rfl, rfl, rfl⟩ := runs_done_iff.mp h
      exact ⟨fun s hs => (nomatch hs), fun s hs => (nomatch hs), fun _ _ => rfl⟩
  | cons s expired ih =>
      rw [List.map_cons, List.nodup_cons] at hnodup
      obtain ⟨hs, hnodup⟩ := hnodup
      have hne : ∀ x ∈ expired, x.id ≠ s.id := fun x hx heq => hs (List.mem_map.mpr ⟨x, hx, heq⟩)
      rw [Prog.forEach_cons] at h
      rcases runs_bind_iff.mp h with ⟨err, rfl, hone⟩ | ⟨_, w₁, t₁, t₂, rfl, hone, hrest⟩
      · -- the loop ends here
        have hanswered : answeredBy A B (t ++ []) = true := by rwa [List.append_nil]
        have hone := cancel_runs hone hanswered rfl
        have hB : B s.id = true := hone.throws.mpr ⟨err, rfl⟩
        refine ⟨fun x hx hbehind => ?_, fun x hx => ?_, fun y hy => ?_⟩
        · rw [behind_cons_of hB] at hbehind
          obtain rfl := (List.mem_cons.mp hx).resolve_right hbehind
          exact hone.row
        · rw [behind_cons_of hB] at hx
          exact hone.others x.id (hne x hx)
        · exact hone.others y (hy s List.mem_cons_self).symm
      · have hone := cancel_runs hone hanswers (quiet_forEach hrest)
        have hB : B s.id = false := by
          by_contra hB
          obtain ⟨err, herr⟩ := hone.throws.mp (by simpa using hB)
          cases herr
        have hih := ih hnodup hrest (answeredBy_right hanswers)
        refine ⟨fun x hx hbehind => ?_, fun x hx => ?_, fun y hy => ?_⟩
        · rw [behind_cons_of_not hB] at hbehind
          rcases List.mem_cons.mp hx with rfl | hx
          · rw [hih.others x.id hne]
            exact hone.row
          · exact hih.cancelled x hx hbehind
        · rw [behind_cons_of_not hB] at hx
          rw [hih.unreached x hx]
          exact hone.others x.id (hne x (mem_of_mem_behind hx))
        · rw [hih.others y (fun x hx => hy x (List.mem_cons_of_mem _ hx))]
          exact hone.others y (hy s List.mem_cons_self).symm

end Loops

end Sorobill
