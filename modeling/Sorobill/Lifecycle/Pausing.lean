/-
  Sorobill.Lifecycle.Pausing
  ──────────────────────────
  **DO PAUSE AND CANCEL STOP BILLING?**

  `findDueSubscriptions` leaves paused and flagged subscriptions out, but the
  job runs later and looks at the status only; and `expireGracePeriods` does
  not ask whether a subscription is paused.

    • `inForce` — a pause or a cancellation was answered, and no resume since;
    • `Stopped` — what the claim asks of one execution;
    • `Recorded` — what an answered request leaves in the row, and every
      other operation keeps;
    • `stopped_when_kept` — the claim holds of every history in which no job
      of a paused or flagged subscription finds it open, and no tick reads
      a time at which its grace period has ended.
-/
import Sorobill.Model.Shop
import Sorobill.Rules.Requests
import Sorobill.Rules.Ticks

namespace Sorobill

open Effect
open Relational

/-! ## §1. The claim. -/

/-- Ticks, billing jobs, and pause, resume and cancel requests. -/
def Operation.isAttended : Operation → Prop
  | .tick => True
  | .expireGracePeriods => True
  | .billingJob _ => True
  | .pause _ => True
  | .resume _ => True
  | .cancel _ _ => True
  | .createSubscription _ => False
  | .retryPayment _ => False
  | .runBilling _ => False
  | .runInline _ => False

instance : (op : Operation) → Decidable op.isAttended
  | .tick => .isTrue trivial
  | .expireGracePeriods => .isTrue trivial
  | .billingJob _ => .isTrue trivial
  | .pause _ => .isTrue trivial
  | .resume _ => .isTrue trivial
  | .cancel _ _ => .isTrue trivial
  | .createSubscription _ => .isFalse id
  | .retryPayment _ => .isFalse id
  | .runBilling _ => .isFalse id
  | .runInline _ => .isFalse id

/-- The request was answered with this status code. -/
def replied {ε : Type} (status : Nat) : Except ε (Option HttpReply) → Bool
  | .ok (some reply) => reply.status == status
  | _ => false

/-- A pause or a cancel request on `id` has been answered (409 says that the
subscription was paused already), and since then no resume request. -/
def setInForce (id : String) (before : Bool) (x : Step) : Bool :=
  match x.op with
  | .pause y => if y = id ∧ (replied 200 x.reply || replied 409 x.reply) then true else before
  | .cancel y _ => if y = id ∧ replied 200 x.reply then true else before
  | .resume y => if y = id ∧ replied 200 x.reply then false else before
  | _ => before

def inForce (id : String) (xs : List Step) : Bool := xs.foldl (setInForce id) false

theorem inForce_append (id : String) (xs : List Step) (x : Step) :
    inForce id (xs ++ [x]) = setInForce id (inForce id xs) x := by
  simp [inForce]

/-- The execution bills nothing, and leaves status and period alone. -/
structure NoBilling (id : String) (x : Step) : Prop where
  calls : ∀ e ∈ x.trace, ¬ e.call.isCharging
  row : ∀ s, x.before.sub? id = some s → ∃ s', x.after.sub? id = some s' ∧ s'.status = s.status
    ∧ s'.currentPeriodStart = s.currentPeriodStart ∧ s'.currentPeriodEnd = s.currentPeriodEnd

/-- The execution runs `expireGracePeriods`. -/
def Operation.expires : Operation → Prop
  | .tick => True
  | .expireGracePeriods => True
  | _ => False

/-- **The claim for one execution** after the executions `past`. -/
structure Stopped (id : String) (past : List Step) (x : Step) : Prop where
  billing : x.op.bills = some id → inForce id past = true → NoBilling id x
  expiry : x.op.expires → ∀ s, x.before.sub? id = some s → s.paused = true →
    ∃ s', x.after.sub? id = some s' ∧ s'.status = s.status

/-- **The condition**: a job of a paused or flagged subscription finds it
ended, and a tick on a paused subscription reads no time at which its grace
period has ended. -/
structure Kept (id : String) (x : Step) : Prop where
  attended : x.op.isAttended
  ended : x.op.bills = some id → ∀ s, x.before.sub? id = some s →
    s.paused = true ∨ s.cancelAtPeriodEnd = true → s.status = .CANCELLED ∨ s.status = .EXPIRED
  grace : x.op.expires → ∀ s, x.before.sub? id = some s → s.paused = true →
    ∀ e ∈ x.trace, e.call = .dateNow →
      (expireGracePeriods.condition e.env.now).selects s = false

/-! ## §2. What the operations do to the row. -/

/-- A row that shows that the subscription is paused or cancelled. -/
def Shows (s : Subscription) : Prop :=
  s.paused = true ∨ s.cancelAtPeriodEnd = true ∨ s.status = .CANCELLED

def Recorded (id : String) (w : World) : Prop := ∃ s, w.sub? id = some s ∧ Shows s

theorem Recorded.congr {id : String} {w w' : World} (h : Recorded id w)
    (hrow : w'.sub? id = w.sub? id) : Recorded id w' := by
  unfold Recorded
  rw [hrow]
  exact h

section Requests

variable {A : CallEvent → Prop} {w : World} {v : Log}

/-- A pause request pauses the row, or leaves it alone and says so. -/
theorem pause_ends (x : String) :
    Safe (sequential A) (some <$> subscriptions.pause x) (fun r w' _ =>
      (w'.sub? x = w.sub? x
        ∧ (replied 200 r || replied 409 r) = false)
      ∨ Recorded x w') w v := by
  apply Safe.mapped
  unfold subscriptions.pause
  rw [safe_bind]
  refine seq_findUnique (fun err => .inl ⟨rfl, rfl⟩) ?_
  rw [andThen_ok]
  cases hs : w.sub? x with
  | none => exact .inl ⟨hs, rfl⟩
  | some s =>
      dsimp only
      split
      next hpaused => exact .inr ⟨s, hs, .inl hpaused⟩
      next hpaused =>
        rw [safe_bind]
        refine seq_subscriptionUpdate hs (fun err _ => .inl ⟨hs, rfl⟩)
          (fun now a w' _ _ hrow => .inr ⟨_, hrow, .inl rfl⟩)

/-- A resume request leaves the row alone unless it is answered with 200. -/
theorem resume_ends {cfg : Config} (x : String) :
    Safe (sequential A) (some <$> subscriptions.resume cfg x) (fun r w' _ =>
      w'.sub? x = w.sub? x ∨ replied 200 r = true) w v := by
  apply Safe.mapped
  unfold subscriptions.resume
  rw [safe_bind]
  refine seq_read id (by simp) rfl (fun err _ => .inl rfl) (fun env found hfound => ?_)
  have hfound : found = (w.sub? x).bind w.withPlan := found_of_read hfound
  rw [andThen_ok]
  cases found with
  | none => exact .inl rfl
  | some sub =>
      dsimp only
      split
      · exact .inl rfl
      · rw [safe_bind]
        refine seq_read id (by simp) rfl (fun err _ => .inl rfl) (fun env now _ => ?_)
        rw [andThen_ok, safe_bind]
        refine seq_subscriptionUpdate (withPlan_eq_some hfound.symm).1 (fun err _ => .inl rfl)
          (fun now a w' _ _ _ => .inr rfl)

/-- A cancel request marks the row, or leaves it alone and says so. -/
theorem cancel_records (x : String) (immediately : Bool) :
    Safe (sequential A) (some <$> subscriptions.cancel x immediately) (fun r w' _ =>
      (w'.sub? x = w.sub? x ∧ replied 200 r = false) ∨ Recorded x w') w v := by
  apply Safe.mapped
  apply (cancel_ends x immediately).mono
  intro r w' v' hend
  cases hend with
  | unwritten hreply =>
      refine .inl ⟨rfl, ?_⟩
      cases r with
      | error err => rfl
      | ok reply =>
          show (reply.status == 200) = false
          rw [hreply reply rfl]
          rfl
  | written s now data env hs _ hrow hwritten _ =>
      have hsub : w'.sub? x = if x = x then some (data.apply env.now s) else w.sub? x :=
        sub?_update hs hwritten x
      rw [if_pos rfl, hrow] at hsub
      refine .inr ⟨_, hsub, ?_⟩
      cases immediately with
      | true => exact .inr (.inr rfl)
      | false => exact .inr (.inl rfl)

/-- A tick leaves a recorded pause or cancellation recorded. -/
theorem recorded_after {id : String} {may : Permissions} (hmay : may.creates = false)
    {e : CallEvent} (h : e.call.isSweep may) (hrec : Recorded id e.before) :
    Recorded id (e.after api) := by
  rcases lookup_after e id with hsame | ⟨data, old, hcall, -, -, hafter⟩
    | ⟨data, start, finish, hcall, -⟩
  · exact hrec.congr hsame
  · -- the only write of a tick cancels, and a cancelled row shows it
    have hd : data.status = some .CANCELLED := h.2 id data hcall
    exact ⟨data.apply e.env.now old, hafter, .inr (.inr (by simp [SubscriptionData.apply, hd]))⟩
  · rw [hcall] at h
    have hcreates : may.creates = true := h.1.2
    rw [hmay] at hcreates
    cases hcreates

/-- **A billing cycle that finds the subscription ended** makes one lookup. -/
theorem ended_cycle {cfg : Config} {x : String} {t : List CallEvent} {r : Except Thrown Unit}
    {w' : World} (h : Runs api (processBillingCycle cfg x) w t r w')
    (hended : ∀ sub, ¬ Opened w x sub) : w' = w ∧ ∀ e ∈ t, ¬ e.call.isCharging := by
  let C : Contract api Unit :=
    { rely := Eq
      assume := fun _ _ => True
      guarantee := fun _ e => ¬ e.call.isCharging
      track := fun v _ => v }
  have hsafe : Safe C (processBillingCycle cfg x) (fun _ w' _ => w' = w) w () := by
    unfold processBillingCycle prisma.subscription.findUniqueOrThrow
    rw [safe_bind, safe_bind]
    apply safe_perform.mpr
    intro _ env heq _
    obtain rfl := heq
    refine ⟨id, ?_⟩
    rcases serve_subscriptionFindUniqueWithPlan x env w with ⟨err, hs⟩ | hs
    · rw [hs]
      exact rfl
    · rw [hs, andThen_ok]
      cases hfound : (w.sub? x).bind w.withPlan with
      | none => exact rfl
      | some sub =>
          -- the early return of the cycle
          show Safe C (if sub.status = .CANCELLED ∨ sub.status = .EXPIRED then _ else _) _ _ _
          split
          next => exact rfl
          next hopen =>
            rw [not_or] at hopen
            exact absurd ⟨hfound, hopen.1, hopen.2⟩ (hended sub)
  obtain ⟨hg, hw⟩ := Safe.of_runs (C := C) (fun _ => rfl) h hsafe
    (assumed_of_forall (fun _ _ _ => trivial))
  exact ⟨hw, hg.forall (fun _ _ hc => hc)⟩

end Requests

/-! ## §3. One execution. -/

section Step

variable {cfg : Config} {id : String} {x : Step}

/-- A recorded pause or cancellation, and the condition: nothing is open. -/
theorem Kept.not_opened (hkept : Kept id x) (hb : x.op.bills = some id)
    (hrec : Recorded id x.before) (sub : SubscriptionWithPlan) : ¬ Opened x.before id sub := by
  intro hopen
  obtain ⟨s, hs, hshows⟩ := hrec
  have hsame : s = sub.toSubscription := by
    rw [hopen.row] at hs
    exact (Option.some.inj hs).symm
  subst hsame
  have hended : sub.status = .CANCELLED ∨ sub.status = .EXPIRED := by
    rcases hshows with h | h | h
    · exact hkept.ended hb _ hopen.row (.inl h)
    · exact hkept.ended hb _ hopen.row (.inr h)
    · exact .inl h
  exact hended.elim hopen.notCancelled hopen.notExpired

/-- A job that finds nothing open. -/
theorem job_ended (hx : x.Of (serial cfg)) {job : JobQueue.Job String}
    (hop : x.op = .billingJob job) (hended : ∀ sub, ¬ Opened x.before job.data sub) :
    x.after = x.before ∧ ∀ e ∈ x.trace, ¬ e.call.isCharging := by
  have hruns : Runs api ((fun _ => none) <$> processBillingCycle cfg job.data)
      x.before x.trace x.reply x.after := by
    have := hx.runs
    rw [hop] at this
    exact this
  rcases runs_bind_iff.mp hruns with ⟨err, -, h⟩ | ⟨a, w₁, t₁, t₂, ht, h, hrest⟩
  · exact ended_cycle h hended
  · obtain ⟨rfl, -, hw⟩ := runs_done_iff.mp hrest
    rw [List.append_nil] at ht
    rw [hw, ht]
    exact ended_cycle h hended

/-- A sweep keeps it recorded. -/
theorem sweep_recorded (hx : x.Of (serial cfg)) {op : Operation} (hop : x.op = op)
    {may : Permissions} (hmay : may.creates = false)
    (hcalls : Calls api (Call.isSweep may) (op.body cfg)) (hrec : Recorded id x.before) :
    Recorded id x.after :=
  seq_ends hx hop (fun _ _ => trivial)
    (seq_frame (R := fun w w' => Recorded id w → Recorded id w') (fun _ h => h)
      (fun _ _ _ h h' hw => h' (h hw)) (fun _ => recorded_after hmay) hcalls) hrec

/-- A request on another subscription does. -/
theorem other_recorded (hx : x.Of (serial cfg)) {op : Operation} (hop : x.op = op) {y : String}
    (hcalls : Calls api (Call.writesOnly y) (op.body cfg)) (hid : y ≠ id)
    (hrec : Recorded id x.before) : Recorded id x.after :=
  hrec.congr (seq_ends hx hop (fun _ _ => trivial) (seq_keeps (fun h => hid h.symm) hcalls))

/-- While a pause or cancellation is in force a job returns early. -/
theorem job_recorded (hx : x.Of (serial cfg)) (hkept : Kept id x) {job : JobQueue.Job String}
    (hop : x.op = .billingJob job) (hrec : Recorded id x.before) : Recorded id x.after := by
  by_cases hid : id = job.data
  · have hb : x.op.bills = some id := by rw [hop, hid]; rfl
    have hended := hkept.not_opened hb hrec
    rw [hid] at hended
    rw [(job_ended hx hop hended).1]
    exact hrec
  · exact hrec.congr (seq_ends hx hop (fun _ _ => trivial) (billing_keeps rfl hid))

/-- A pause request that is answered is recorded. -/
theorem pause_recorded (hx : x.Of (serial cfg)) {y : String} (hop : x.op = .pause y)
    {before : Bool} (hrec : before = true → Recorded id x.before) :
    setInForce id before x = true → Recorded id x.after := by
  unfold setInForce
  rw [hop]
  dsimp only
  by_cases hid : y = id
  · subst hid
    have hend := seq_ends hx hop (fun _ _ => trivial) (pause_ends (A := fun _ => True) y)
    rcases hend with ⟨hrow, hnot⟩ | h
    · -- 409 says that the row was paused already
      rw [if_neg (fun h => by simp [hnot] at h)]
      exact fun hf => (hrec hf).congr hrow
    · exact fun _ => h
  · rw [if_neg (fun h => hid h.1)]
    exact fun hf => other_recorded hx hop
      ((calls_map (pause_calls {} y)).mono (fun _ h => h.2)) hid (hrec hf)

/-- A resume request that is not answered with 200 leaves the row. -/
theorem resume_recorded (hx : x.Of (serial cfg)) {y : String} (hop : x.op = .resume y)
    {before : Bool} (hrec : before = true → Recorded id x.before) :
    setInForce id before x = true → Recorded id x.after := by
  unfold setInForce
  rw [hop]
  dsimp only
  split
  next => exact (nomatch ·)
  next hy =>
    intro hf
    by_cases hid : y = id
    · subst hid
      have hend := seq_ends hx hop (fun _ _ => trivial) (resume_ends (A := fun _ => True) y)
      rcases hend with hrow | h
      · exact (hrec hf).congr hrow
      · exact absurd ⟨rfl, h⟩ hy
    · exact other_recorded hx hop ((calls_map (resume_calls y)).mono (fun _ h => h.2)) hid
        (hrec hf)

/-- A cancel request that is answered is recorded. -/
theorem cancel_recorded (hx : x.Of (serial cfg)) {y : String} {immediately : Bool}
    (hop : x.op = .cancel y immediately) {before : Bool}
    (hrec : before = true → Recorded id x.before) :
    setInForce id before x = true → Recorded id x.after := by
  unfold setInForce
  rw [hop]
  dsimp only
  by_cases hid : y = id
  · subst hid
    have hend := seq_ends hx hop (fun _ _ => trivial)
      (cancel_records (A := fun _ => True) y immediately)
    rcases hend with ⟨hrow, hnot⟩ | h
    · rw [if_neg (by rw [hnot]; simp)]
      exact fun hf => (hrec hf).congr hrow
    · exact fun _ => h
  · rw [if_neg (fun h => hid h.1)]
    exact fun hf => other_recorded hx hop
      ((calls_map (cancel_calls y immediately)).mono (fun _ h => h.2)) hid (hrec hf)

/-- **What one execution keeps recorded.** -/
theorem step_recorded (hx : x.Of (serial cfg)) (hkept : Kept id x) {before : Bool}
    (hrec : before = true → Recorded id x.before) :
    setInForce id before x = true → Recorded id x.after := by
  have hattended := hkept.attended
  cases hop : x.op with
  | tick =>
      unfold setInForce
      rw [hop]
      exact fun hf => sweep_recorded hx hop rfl (calls_map tick_calls) (hrec hf)
  | expireGracePeriods =>
      unfold setInForce
      rw [hop]
      exact fun hf => sweep_recorded hx hop rfl (calls_map (expireGracePeriods_calls {})) (hrec hf)
  | billingJob job =>
      unfold setInForce
      rw [hop]
      exact fun hf => job_recorded hx hkept hop (hrec hf)
  | pause y => exact pause_recorded hx hop hrec
  | resume y => exact resume_recorded hx hop hrec
  | cancel y immediately => exact cancel_recorded hx hop hrec
  -- the operations that remain do not attend to this row
  | createSubscription body =>
      rw [hop] at hattended
      exact hattended.elim
  | retryPayment y =>
      rw [hop] at hattended
      exact hattended.elim
  | runBilling y =>
      rw [hop] at hattended
      exact hattended.elim
  | runInline y =>
      rw [hop] at hattended
      exact hattended.elim

/-- **The claim for one execution that meets the condition.** -/
theorem step_stopped (hx : x.Of (serial cfg)) (hkept : Kept id x) {past : List Step}
    (hrec : inForce id past = true → Recorded id x.before) : Stopped id past x := by
  have hattended := hkept.attended
  refine ⟨fun hb hf => ?_, fun hexpires s hs hpaused => ?_⟩
  · cases hop : x.op with
    | billingJob job =>
        have hid : job.data = id := by
          rw [hop] at hb
          exact Option.some.inj hb
        -- the job finds its subscription not open and ends at once
        obtain ⟨hsame, hcalls⟩ := job_ended hx hop
          (hid ▸ hkept.not_opened hb (hrec hf))
        refine ⟨hcalls, fun s hs => ⟨s, ?_, rfl, rfl, rfl⟩⟩
        rw [hsame]
        exact hs
    | runInline y =>
        rw [hop] at hattended
        exact hattended.elim
    | _ =>
        rw [hop] at hb
        cases hb
  · -- the query of the tick selects the row at no time it reads
    have hgrace := hkept.grace hexpires s hs hpaused
    have hA : ∀ e, e ∈ x.trace → e.call = .dateNow → ∀ r, some s = some r →
        (expireGracePeriods.condition e.env.now).selects r = false := by
      intro e he hcall r hr
      cases hr
      exact hgrace e he hcall
    have hrow : x.after.sub? id = some s := by
      cases hop : x.op with
      | tick =>
          exact seq_ends hx hop (fun _ he => he) (Safe.map (scheduleBillingJobs_keeps hs hA))
      | expireGracePeriods =>
          exact seq_ends hx hop (fun _ he => he) (Safe.map (expireGracePeriods_keeps hs hA))
      | _ =>
          rw [hop] at hexpires
          exact hexpires.elim
    exact ⟨s, hrow, rfl⟩

end Step

/-! ## §4. Histories. -/

/-- **Pausing and cancelling stop billing** in every history of ticks, billing
jobs, and pause, resume and cancel requests in which every job that begins on
a paused or flagged subscription finds it CANCELLED or EXPIRED, and no tick
on a paused subscription that is PAST_DUE reads a time at which its grace
period has ended. -/
theorem stopped_when_kept (cfg : Config) (id : String) (w₀ w : World) (xs : List Step)
    (h : History (serial cfg) (fun _ x => Kept id x) w₀ xs w) (past : List Step) (x : Step)
    (hpast : past ++ [x] <+: xs) : Stopped id past x := by
  refine h.each (J := fun xs w => inForce id xs = true → Recorded id w) (nomatch ·) ?_ ?_
    past x hpast
  · intro past x hrec hx hkept
    refine ⟨step_stopped hx hkept hrec, ?_⟩
    rw [inForce_append]
    exact step_recorded hx hkept hrec
  · intro past w₁ _ hrec h
    obtain ⟨q, -, rfl⟩ := h
    exact hrec

/-! ## §5. Scenarios. -/

section Scenarios

open Shop

/-- A tick on day 2 enqueues the job; then the subscription is paused. -/
def pausedAfterTick : List (Operation × List Env) :=
  [(.tick, [on 2, on 2, on 2, on 2, on 2]), (.pause "sub", [on 2, on 2])]

/-- **A job enqueued before the pause bills after it.** -/
theorem billed_while_paused :
    ¬ ∀ (cfg : Config) (id : String) (w₀ w : World) (xs : List Step),
      w₀.billingQueue.unfinished = [] →
      History (serial cfg) (fun _ x => x.op.isAttended) w₀ xs w →
      ∀ past x, past ++ [x] <+: xs → Stopped id past x := by
  intro hclaim
  have hrun : ((serial (cfg true)).play (fun _ x => decide x.op.isAttended) pausedAfterTick []
      (world plan sub)).bind (fun r =>
        ((serial (cfg true)).execute (.billingJob enqueued)
          [on 2, on 2, fresh 2 "pay", on 2, on 2, on 2, on 2] r.2).map (fun x =>
            (inForce "sub" r.1, x.op.bills, (x.before.sub? "sub").map (·.currentPeriodEnd),
              (x.after.sub? "sub").map (·.currentPeriodEnd), decide x.op.isAttended)))
      = some (true, some "sub", some (day 2), some (day 3), true) := by
    decide +kernel
  obtain ⟨⟨past, w⟩, hplay, hrest⟩ := Option.bind_eq_some_iff.mp hrun
  obtain ⟨x, hexec, hres⟩ := Option.map_eq_some_iff.mp hrest
  simp only [Prod.mk.injEq] at hres
  obtain ⟨hforce, hbills, hbefore, hafter, hattended⟩ := hres
  have h : History (serial (cfg true)) (fun _ x => x.op.isAttended) (world plan sub)
      (past ++ [x]) x.after :=
    Serial.play_execute (fun _ _ h => of_decide_eq_true h) hplay hexec hattended
  have hstop := hclaim (cfg true) "sub" (world plan sub) x.after (past ++ [x]) rfl h past x
    List.prefix_rfl
  obtain ⟨s, hs, hend⟩ := Option.map_eq_some_iff.mp hbefore
  obtain ⟨s', hs', -, -, hend'⟩ := (hstop.billing hbills hforce).row s hs
  rw [hs', Option.map_some, hend', hend] at hafter
  exact absurd hafter (by decide)

/-- `Kept` as a test. -/
def kept (id : String) (x : Step) : Bool :=
  decide x.op.isAttended
    && match x.before.sub? id with
      | none => true
      | some s =>
          (!(s.paused || s.cancelAtPeriodEnd) || x.op.bills != some id
            || s.status == .CANCELLED || s.status == .EXPIRED)
          && (!s.paused || x.trace.all (fun e =>
            !(expireGracePeriods.condition e.env.now).selects s))

theorem kept_sound {id : String} {x : Step} (h : kept id x = true) : Kept id x := by
  obtain ⟨hattended, hrow⟩ := Bool.and_eq_true_iff.mp h
  refine ⟨of_decide_eq_true hattended, fun hb s hs hp => ?_, fun _ s hs hp e he _ => ?_⟩
  · rw [hs] at hrow
    obtain ⟨hended, -⟩ := Bool.and_eq_true_iff.mp hrow
    rw [hb] at hended
    rcases hp with hp | hp <;> simpa [hp] using hended
  · rw [hs] at hrow
    obtain ⟨-, hgrace⟩ := Bool.and_eq_true_iff.mp hrow
    simp only [hp, Bool.not_true, Bool.false_or, List.all_eq_true] at hgrace
    simpa using hgrace e he

/-- A job enqueued before an immediate cancellation finds the subscription
cancelled. -/
theorem stopped_when_kept_shop :
    ∃ xs past x w, History (serial (cfg true)) (fun _ x => Kept "sub" x) (world plan sub) xs w
      ∧ past ++ [x] <+: xs ∧ x.op.bills = some "sub" ∧ inForce "sub" past = true
      ∧ Stopped "sub" past x := by
  have hrun : ((serial (cfg true)).play (fun _ x => kept "sub" x)
      [(.tick, [on 2, on 2, on 2, on 2, on 2]), (.cancel "sub" true, [on 2, on 2, on 2, on 2])]
      [] (world plan sub)).bind (fun r =>
        ((serial (cfg true)).execute (.billingJob enqueued) [on 2] r.2).map (fun x =>
          (inForce "sub" r.1, x.op.bills, kept "sub" x)))
      = some (true, some "sub", true) := by
    decide +kernel
  obtain ⟨⟨past, w⟩, hplay, hrest⟩ := Option.bind_eq_some_iff.mp hrun
  obtain ⟨x, hexec, hres⟩ := Option.map_eq_some_iff.mp hrest
  simp only [Prod.mk.injEq] at hres
  obtain ⟨hforce, hbills, hkept⟩ := hres
  have hxs : History (serial (cfg true)) (fun _ x => Kept "sub" x) (world plan sub)
      (past ++ [x]) x.after := Serial.play_execute (fun _ _ => kept_sound) hplay hexec hkept
  exact ⟨past ++ [x], past, x, x.after, hxs, List.prefix_rfl, hbills, hforce,
    stopped_when_kept (cfg true) "sub" (world plan sub) x.after (past ++ [x]) hxs past x
      List.prefix_rfl⟩

end Scenarios

end Sorobill
