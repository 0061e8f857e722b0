/-
  Sorobill.Concurrency.Expiry
  ───────────────────────────
  **IS A SUBSCRIPTION CANCELLED ONLY WHILE ITS GRACE PERIOD IS OVER?**

  A tick cancels the rows its query has found, and does not look at them
  again.  A payment that comes in between makes the row ACTIVE, and the tick
  cancels it all the same.

    • `Undisturbed` — a row that a tick has found is left expired by the other
      executions until the tick reaches it;
    • `cancelled_when_expired` — in every such interleaving a tick writes
      CANCELLED only in a row that is expired at that moment.
-/
import Sorobill.Model.Shop
import Sorobill.Rules.Sweeps

namespace Sorobill

open Effect
open Relational

/-! ## §1. The pool. -/

/-- The running backend, each execution with the rows it has found. -/
def sweeps (cfg : Config) : System Api World Env Operation Sweep :=
  concurrent cfg sweepOf trackSweep

instance (cfg : Config) (w : World) (op : Operation) : Decidable ((sweeps cfg).enabled w op) :=
  inferInstanceAs (Decidable (op.Enabled w))

/-- **The condition on interleavings**: the clock of no execution goes back,
and a write to a row that another tick has found and not reached leaves it
expired. -/
def Undisturbed : Condition Api World Env Sweep := fun v others e =>
  v.Timely e ∧ (isRejected e = false → ∀ x data, e.call = .subscriptionUpdate x data →
    ∀ u ∈ others, x ∈ u.pending → ∀ t, u.asOf = some t → ∀ s, e.before.sub? x = some s →
      (data.apply e.env.now s).ExpiredBy t)

/-! ## §2. The invariant. -/

/-- **The invariant**: the rows that a tick has found and not reached are
expired. -/
def FoundExpired (w : World) (vs : List Sweep) : Prop :=
  ∀ v ∈ vs, ∀ x ∈ v.pending, ∃ t s, v.asOf = some t ∧ w.sub? x = some s ∧ s.ExpiredBy t

/-- **What one call preserves.** -/
theorem found_after {v : Sweep} {pre post : List Sweep} {e : CallEvent}
    (h : FoundExpired e.before (pre ++ v :: post)) (hallow : Undisturbed v (pre ++ post) e) :
    FoundExpired (e.after api) (pre ++ trackSweep v e :: post) := by
  have hothers : ∀ u ∈ pre ++ post, ∀ x ∈ u.pending, ∃ t s, u.asOf = some t
      ∧ (e.after api).sub? x = some s ∧ s.ExpiredBy t := by
    intro u hu x hx
    have hmem : u ∈ pre ++ v :: post := mem_others hu
    obtain ⟨t, s, ht, hs, hexp⟩ := h u hmem x hx
    cases hanswered : isRejected e with
    | true =>
        rw [after_of_isRejected hanswered]
        exact ⟨t, s, ht, hs, hexp⟩
    | false =>
        rcases sub?_after e hs with hafter | ⟨data, hcall, -, hafter⟩
        · exact ⟨t, s, ht, hafter, hexp⟩
        · exact ⟨t, _, ht, hafter, hallow.2 hanswered x data hcall u hu hx t ht s hs⟩
  intro u hu
  rcases List.mem_append.mp hu with hu | hu
  · exact hothers u (List.mem_append_left _ hu)
  · rcases List.mem_cons.mp hu with rfl | hu
    · exact found_own (h v (by simp))
    · exact hothers u (List.mem_append_right _ hu)

/-! ## §3. Every interleaving. -/

theorem operation_timely (cfg : Config) (w : World) (op : Operation) :
    Safe sweepContract ((sweeps cfg).body op) (fun _ _ _ => True) w (sweepOf op) :=
  (operation_swept cfg op w).map

def expiryDiscipline (cfg : Config) : Discipline (sweeps cfg) Undisturbed where
  inv := FoundExpired
  rely _ _ := True
  ended _ := True
  rely_refl _ := trivial
  rely_trans _ _ _ _ _ := trivial
  start w vs op hinv _ := by
    constructor
    · intro v hv
      rcases List.mem_append.mp hv with hv | hv
      · exact hinv v hv
      · -- a new execution has found nothing
        rw [List.mem_singleton.mp hv]
        exact fun x hx => by cases hx
    · refine (operation_timely cfg w op).weaken (fun _ _ _ => trivial) ?_ ?_ rfl
      · intro v e h
        obtain ⟨pre, post, -, hallow⟩ := h
        exact hallow.1
      · intro v e _ _
        exact ⟨trivial, fun pre post hinv hallow => found_after hinv hallow⟩
  leave w pre v post _ hinv := by
    intro u hu
    exact hinv u (mem_others hu)
  drift w w' vs hd hinv := by
    obtain ⟨q, -, rfl⟩ := hd
    exact ⟨hinv, trivial⟩

/-- **Undisturbed ticks cancel expired rows only**: in every interleaving of
any operations in which a row that a tick has found is left expired until the
tick reaches it, a tick that is about to write a row finds it PAST_DUE with a
grace period that has ended. -/
theorem cancelled_when_expired (cfg : Config) (w₀ : World) (P : Pool Api World Sweep)
    (h : Pool.Run (sweeps cfg) Undisturbed ⟨w₀, []⟩ P) (pre post : List (Thread Api Sweep))
    (v : Sweep) (x : String) (data : SubscriptionData)
    (next : Api.Response (.subscriptionUpdate x data) → Prog Api Unit) (env : Env)
    (hP : P.threads = pre ++ ⟨v, .call (.subscriptionUpdate x data) next⟩ :: post)
    (hv : v.sweeping = true)
    (hallow : Undisturbed v (views pre ++ views post)
      ⟨P.world, .subscriptionUpdate x data, env⟩) :
    ∃ s, P.world.sub? x = some s ∧ s.status = .PAST_DUE
      ∧ ∃ g, s.gracePeriodEndsAt = some g ∧ g ≤ env.now := by
  have hthread : (⟨v, .call (.subscriptionUpdate x data) next⟩ : Thread Api Sweep) ∈ P.threads := by
    rw [hP]
    simp
  -- the tick writes a row that it has found and not reached
  have hsafe := Pool.Run.honours (C := sweepContract) (fun _ _ => trivial)
    (fun _ _ _ h => h.1) rfl (operation_timely cfg) h _ hthread P.world
  obtain ⟨hx, t, ht, hnow⟩ := (hsafe P.world env trivial hallow.1).1 hv x data rfl
  -- and such a row is expired
  have hidle : (expiryDiscipline cfg).Sound ⟨w₀, []⟩ :=
    Discipline.sound_idle (fun _ hu => by cases hu)
  have hinv : FoundExpired P.world (views P.threads) := (Discipline.run h hidle).1.1
  obtain ⟨t', s, ht', hs, hst, g, hg, hle⟩ := hinv v (List.mem_map.mpr ⟨_, hthread, rfl⟩) x hx
  obtain rfl : t = t' := Option.some.inj (ht.symm.trans ht')
  exact ⟨s, hs, hst, g, hg, hle.trans hnow⟩

/-! ## §4. Scenarios. -/

section Scenarios

open Shop

/-- The subscriber is past due, in a grace period that ends on day 3. -/
def graceEnds : Subscription :=
  { sub with status := .PAST_DUE, retryCount := 3, gracePeriodEndsAt := some (day 3) }

/-- The row that an execution is about to write. -/
def rowAwaited : Prog Api Unit → Option String
  | .call (.subscriptionUpdate x _) _ => some x
  | _ => none

theorem rowAwaited_eq_some {p : Prog Api Unit} {x : String} (h : rowAwaited p = some x) :
    ∃ data next, p = .call (.subscriptionUpdate x data) next := by
  unfold rowAwaited at h
  split at h
  next y data next =>
    cases h
    exact ⟨data, next, rfl⟩
  next => cases h

/-- A tick finds the row expired. -/
def tickFinds : List (Choice Operation Env) :=
  [.start .expireGracePeriods, .act 0 (on 3), .act 0 (on 3)]

/-- The subscriber pays before the tick goes on. -/
def paysInBetween : List (Choice Operation Env) :=
  [.start (.runInline "sub"), .act 1 (on 3), .act 1 (on 3), .act 1 (fresh 3 "pay"),
   .act 1 (on 3), .act 1 (on 3), .act 1 (on 3), .act 1 (on 3), .act 0 (on 3)]

/-- The clock of the execution as a test. -/
def timely (v : Sweep) (_ : List Sweep) (e : CallEvent) : Bool :=
  v.clock.all (fun t => decide (t ≤ e.env.now))

theorem timely_sound {v : Sweep} {others : List Sweep} {e : CallEvent}
    (h : timely v others e = true) : v.Timely e := by
  intro t ht
  unfold timely at h
  rw [ht] at h
  simpa using h

/-- **A payment within the grace period does not save the subscription**: it
is ACTIVE when the tick that found it expired writes CANCELLED. -/
theorem cancelled_after_payment :
    ¬ ∀ (cfg : Config) (w₀ : World) (P : Pool Api World Sweep),
      Pool.Run (sweeps cfg) (fun v _ e => v.Timely e) ⟨w₀, []⟩ P →
      ∀ (pre post : List (Thread Api Sweep)) (v : Sweep) (x : String) (data : SubscriptionData)
        (next : Api.Response (.subscriptionUpdate x data) → Prog Api Unit) (env : Env),
        P.threads = pre ++ ⟨v, .call (.subscriptionUpdate x data) next⟩ :: post →
        v.sweeping = true → v.Timely ⟨P.world, .subscriptionUpdate x data, env⟩ →
        ∃ s, P.world.sub? x = some s ∧ s.status = .PAST_DUE
          ∧ ∃ g, s.gracePeriodEndsAt = some g ∧ g ≤ env.now := by
  intro hclaim
  have hrun : (Pool.advance (sweeps (cfg true)) timely (tickFinds ++ paysInBetween)
      ⟨world plan graceEnds, []⟩).map (fun P =>
        (P.threads.map (fun t => (t.view.sweeping, t.view.clock, rowAwaited t.code)),
          (P.world.sub? "sub").map (·.status)))
      = some ([(true, some (day 3), some "sub")], some .ACTIVE) := by
    decide +kernel
  obtain ⟨P, hP, hend⟩ := Option.map_eq_some_iff.mp hrun
  obtain ⟨hthreads, hstatus⟩ := Prod.mk.inj hend
  obtain ⟨⟨v, code⟩, hthread, ht⟩ := List.map_eq_singleton_iff.mp hthreads
  obtain ⟨hv, ht⟩ := Prod.mk.inj ht
  obtain ⟨hclock, hrow⟩ := Prod.mk.inj ht
  obtain ⟨data, next, rfl⟩ := rowAwaited_eq_some hrow
  obtain ⟨s, hs, hst, -⟩ := hclaim (cfg true) (world plan graceEnds) P
    (Pool.advance_run (fun _ _ _ => timely_sound) hP) [] [] v "sub" data next (on 3) hthread hv
    (fun t ht => (Option.some.inj (ht.symm.trans hclock)).le)
  rw [hs] at hstatus
  have hactive : s.status = .ACTIVE := Option.some.inj hstatus
  rw [hst] at hactive
  cases hactive

/-- The condition as a test. -/
def undisturbed (v : Sweep) (others : List Sweep) (e : CallEvent) : Bool :=
  timely v others e && match e.call with
    | .subscriptionUpdate x data => others.all (fun u => !(u.pending.contains x)
        || u.asOf.all (fun t => (e.before.sub? x).all (fun s =>
            decide ((data.apply e.env.now s).ExpiredBy t))))
    | _ => true

theorem undisturbed_sound {v : Sweep} {others : List Sweep} {e : CallEvent}
    (h : undisturbed v others e = true) : Undisturbed v others e := by
  unfold undisturbed at h
  obtain ⟨htime, h⟩ := Bool.and_eq_true_iff.mp h
  refine ⟨timely_sound htime, fun _ x data hcall u hu hx t ht s hs => ?_⟩
  rw [hcall] at h
  have h := List.all_eq_true.mp h u hu
  rw [ht, hs] at h
  simpa [hx] using h

/-- The subscriber pauses before the tick goes on. -/
def pausesInBetween : List (Choice Operation Env) :=
  [.start (.pause "sub"), .act 1 (on 3), .act 1 (on 3), .act 0 (on 4)]

/-- Nobody pays: the tick is about to write a row that has been written since it
was found, and is expired still. -/
theorem cancelled_when_expired_shop :
    ∃ P, Pool.Run (sweeps (cfg true)) Undisturbed ⟨world plan graceEnds, []⟩ P
      ∧ ∃ s, P.world.sub? "sub" = some s ∧ s.paused = true ∧ s.status = .PAST_DUE
        ∧ ∃ g, s.gracePeriodEndsAt = some g ∧ g ≤ day 4 := by
  have hrun : (Pool.advance (sweeps (cfg true)) undisturbed (tickFinds ++ pausesInBetween)
      ⟨world plan graceEnds, []⟩).map (fun P =>
        (P.threads.map (fun t => (t.view.sweeping, t.view.clock, rowAwaited t.code)),
          (P.world.sub? "sub").map (·.paused)))
      = some ([(true, some (day 4), some "sub")], some true) := by
    decide +kernel
  obtain ⟨P, hP, hend⟩ := Option.map_eq_some_iff.mp hrun
  obtain ⟨hthreads, hpaused⟩ := Prod.mk.inj hend
  obtain ⟨⟨v, code⟩, hthread, ht⟩ := List.map_eq_singleton_iff.mp hthreads
  obtain ⟨hv, ht⟩ := Prod.mk.inj ht
  obtain ⟨hclock, hrow⟩ := Prod.mk.inj ht
  obtain ⟨data, next, rfl⟩ := rowAwaited_eq_some hrow
  have h := Pool.advance_run (fun _ _ _ => undisturbed_sound) hP
  have htime : v.Timely ⟨P.world, .subscriptionUpdate "sub" data, on 4⟩ :=
    fun t ht => (Option.some.inj (ht.symm.trans hclock)).le
  obtain ⟨s, hs, hdue⟩ := cancelled_when_expired (cfg true) (world plan graceEnds) P h [] [] v
    "sub" data next (on 4) hthread hv ⟨htime, fun _ _ _ _ _ hu => by cases hu⟩
  rw [hs] at hpaused
  exact ⟨P, h, s, hs, Option.some.inj hpaused, hdue⟩

end Scenarios

end Sorobill
