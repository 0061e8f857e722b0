/-
  Sorobill.Scheduling.Retries
  ───────────────────────────
  **DOES EVERY DUE SUBSCRIPTION GET A JOB?**

  A tick adds a job for each due subscription under an id that names the
  period.  The queue ignores an id that it still holds, and it holds finished
  jobs for a while.  A cycle whose charge fails ends as a completed job and
  leaves the period as it is, so the next ticks add nothing for it.

    • `tick_enqueues` — a tick that completes has called `queue.add` for each
      subscription its query returned;
    • `JobsNamed` — an unfinished job under the id of a period is a job of its
      subscription, along every interleaving;
    • `enqueued_iff_not_finished` — a subscription without a job gets one
      exactly when the queue holds no finished job of the period.
-/
import Sorobill.Library.Interruption
import Sorobill.Model.Shop
import Sorobill.Rules.Footprints

namespace Sorobill

open Effect

/-! ## §1. Statements. -/

/-- A billing job of the subscription is waiting, delayed or active. -/
def World.hasJob (w : World) (id : String) : Bool :=
  w.billingQueue.unfinished.any (fun j => j.2.data == id)

/-- The trace `t` begins with the query of `findDueSubscriptions`, which
returned `due`, and goes on with `rest`. -/
def Queried (t : List CallEvent) (due : List Subscription) (rest : List CallEvent) : Prop :=
  ∃ e₁ e₂, t = e₁ :: e₂ :: rest
    ∧ e₂.call = .subscriptionFindMany (findDueSubscriptions.condition e₁.env.now)
    ∧ api.serve (.subscriptionFindMany (findDueSubscriptions.condition e₁.env.now)) e₂.env
        e₂.before = (.ok due, e₂.before)

/-- The tick calls `queue.add` for the subscription, and the call is answered. -/
def Enqueues (sub : Subscription) (e : CallEvent) : Prop :=
  e.call = .billingQueueAdd "process-subscription" sub.id (some (billingJobId sub))
    ∧ e.env.rejects = none

/-! ## §2. One tick. -/

/-- Others may change the world between the calls; the events are kept. -/
def recording : Contract api (List CallEvent) where
  rely _ _ := True
  assume _ _ := True
  guarantee _ _ := True
  track v e := v ++ [e]

theorem recording_foldl (t v : List CallEvent) : t.foldl recording.track v = v ++ t := by
  induction t generalizing v with
  | nil => simp
  | cons e t ih =>
      rw [List.foldl_cons, ih]
      show (v ++ [e]) ++ t = v ++ e :: t
      simp

section Walk

variable {w : World} {v : List CallEvent} {α : Type}

theorem recording_perform {c : Call} {Q : Post Api World (List CallEvent) c.Reply} :
    Safe recording (Prog.perform (I := Api) c) Q w v
      ↔ ∀ w' env, Q (api.serve c env w').1 (api.serve c env w').2 (v ++ [⟨w', c, env⟩]) := by
  rw [safe_perform]
  exact ⟨fun h w' env => (h w' env trivial trivial).2, fun h w' env _ _ => ⟨trivial, h w' env⟩⟩

/-- Every program only adds to the record. -/
theorem recording_extends {p : Service α} :
    ∀ {w v}, Safe recording p (fun _ _ v' => ∃ l, v' = v ++ l) w v := by
  induction p with
  | done a => exact ⟨[], (List.append_nil _).symm⟩
  | fail e => exact ⟨[], (List.append_nil _).symm⟩
  | call c next ih =>
      intro w v w' env _ _
      refine ⟨trivial, (ih _).mono ?_⟩
      intro r w'' v'' hpost
      obtain ⟨l, rfl⟩ := hpost
      exact ⟨⟨w', c, env⟩ :: l, List.append_assoc _ _ _⟩

/-- The loop calls `queue.add` for each subscription, unless it throws. -/
theorem enqueue_each (due : List Subscription) :
    ∀ {w v}, Safe recording (Prog.forEach due scheduleBillingJobs.enqueue)
      (fun r _ v' => ∃ l, v' = v ++ l ∧ (r = .ok () → ∀ sub ∈ due, ∃ e ∈ l, Enqueues sub e))
      w v := by
  induction due with
  | nil => exact ⟨[], (List.append_nil _).symm, fun _ sub hsub => (nomatch hsub)⟩
  | cons sub due ih =>
      intro w v
      rw [Prog.forEach_cons, safe_bind]
      apply recording_perform.mpr
      intro w' env
      rcases serve_cases (.billingQueueAdd "process-subscription" sub.id
          (some (billingJobId sub))) env w' with ⟨message, -, h⟩ | ⟨hanswered, h⟩
      · rw [h]
        exact ⟨_, rfl, fun h => by cases h⟩
      · rw [h]
        apply ih.mono
        intro r w'' v'' hpost
        obtain ⟨l, rfl, hl⟩ := hpost
        refine ⟨_ :: l, List.append_assoc _ _ _, fun hr x hx => ?_⟩
        rcases List.mem_cons.mp hx with rfl | hx
        · exact ⟨_, List.mem_cons_self, rfl, hanswered⟩
        · obtain ⟨e, he, hcall⟩ := hl hr x hx
          exact ⟨e, List.mem_cons_of_mem _ he, hcall⟩

/-- **A tick that completes has called `queue.add` for every subscription that
its query returned**, whatever others do meanwhile. -/
theorem tick_enqueues :
    Safe recording scheduleBillingJobs
      (fun r _ t => r = .ok () → ∃ due rest, Queried t due rest
        ∧ ∀ sub ∈ due, ∃ e ∈ rest, Enqueues sub e) w [] := by
  unfold scheduleBillingJobs findDueSubscriptions
  rw [safe_bind, safe_bind]
  apply recording_perform.mpr
  intro w₁ env₁
  rcases serve_dateNow env₁ w₁ with ⟨err, h⟩ | h
  · rw [h]
    exact (nomatch ·)
  · rw [h, andThen_ok]
    apply recording_perform.mpr
    intro w₂ env₂
    rcases serve_subscriptionFindMany (findDueSubscriptions.condition env₁.now) env₂ w₂ with
      ⟨err, h⟩ | ⟨due, h, -⟩
    · rw [h]
      exact (nomatch ·)
    · have hquery := h
      rw [h, andThen_ok, safe_bind]
      apply (enqueue_each due).mono
      intro r w₃ v₃ hpost
      obtain ⟨l, rfl, hl⟩ := hpost
      cases r with
      | error err => exact (nomatch ·)
      | ok _ =>
          rw [andThen_ok]
          apply recording_extends.mono
          intro r w₄ v₄ hpost _
          obtain ⟨l', rfl⟩ := hpost
          refine ⟨due, l ++ l', ⟨⟨w₁, .dateNow, env₁⟩, ⟨w₂, .subscriptionFindMany
            (findDueSubscriptions.condition env₁.now), env₂⟩, by simp, rfl, hquery⟩,
            fun sub hsub => ?_⟩
          obtain ⟨e, he, hcall⟩ := hl rfl sub hsub
          exact ⟨e, List.mem_append_left _ he, hcall⟩

end Walk

/-! ## §3. Jobs and their ids. -/

/-- An unfinished job under the id of a billing period is a job of its
subscription. -/
def JobsNamed (w : World) : Prop :=
  ∀ j ∈ w.billingQueue.unfinished, NamedFor j.2.data (some j.2.id)

/-- The calls that add no other jobs. -/
def Call.namesJobs : Call → Prop
  | .billingQueueAdd _ data jobId => NamedFor data jobId
  | _ => True

theorem Call.isOrdinary.namesJobs {may : Permissions} {c : Call} (h : c.isOrdinary may) :
    c.namesJobs := by
  cases c <;> first | exact h.1 | trivial

theorem Call.isCycle.namesJobs {id : String} {c : Call} (h : c.isCycle id) : c.namesJobs := by
  cases c <;> first | exact h.elim | trivial

theorem operation_namesJobs (cfg : Config) (op : Operation) :
    Calls api Call.namesJobs (op.body cfg) := by
  cases hb : op.bills with
  | none => exact (operation_calls cfg op hb).mono (fun _ h => h.namesJobs)
  | some x => exact (billing_calls cfg hb).mono (fun _ h => h.namesJobs)

/-- The ids that the queue makes up are numbers. -/
theorem namedFor_number (data : String) (n : Nat) : NamedFor data (some (toString n)) := by
  intro x t h
  -- the ids of billing periods begin with a letter
  have hb : 'b' ∈ (toString n).toList := by
    rw [Option.some.inj h]
    simp
  have hdigit := Nat.isDigit_of_mem_toDigits (b := 10) (n := n) (by decide) (by decide)
    (by simpa using hb)
  exact absurd hdigit (by decide)

/-- **What one call preserves.** -/
theorem jobsNamed_after {e : CallEvent} (he : e.call.namesJobs) (h : JobsNamed e.before) :
    JobsNamed (e.after api) := by
  intro j hj
  rcases billingJob_origin e hj with hj | ⟨name, jobId, n, hcall, hid⟩
  · exact h j hj
  · rw [hcall] at he
    rw [hid]
    cases jobId with
    | none => exact namedFor_number _ _
    | some id => exact he

def namedContract (cfg : Config) : Contract api Unit :=
  interference (running cfg) anyone (fun w _ => JobsNamed w) (fun _ _ => True)

theorem operation_named (cfg : Config) (op : Operation) (w : World) :
    Safe (namedContract cfg) ((running cfg).body op) (fun _ _ _ => True) w () :=
  safe_frame (C := namedContract cfg) (R := fun _ _ => True) (fun _ _ _ => trivial)
    (fun _ => trivial) (fun _ _ _ _ _ => trivial)
    (fun _ _ he _ => ⟨⟨trivial, fun _ _ hnamed _ => jobsNamed_after he hnamed⟩, trivial⟩)
    (calls_map (operation_namesJobs cfg op))

def namedDiscipline (cfg : Config) : Discipline (running cfg) anyone where
  inv w _ := JobsNamed w
  rely _ _ := True
  ended _ := True
  rely_refl _ := trivial
  rely_trans _ _ _ _ _ := trivial
  start w vs op hnamed _ := ⟨hnamed, operation_named cfg op w⟩
  leave w pre v post _ hnamed := hnamed
  drift w w' vs hd hnamed := by
    obtain ⟨q, hq, rfl⟩ := hd
    refine ⟨fun j hj => ?_, trivial⟩
    obtain ⟨i, hi, hid, hdata⟩ := hq.mem hj
    rw [← hid, ← hdata]
    exact hnamed i hi

/-- **A subscription without a job gets one exactly when the queue holds no
finished job of the period.** -/
theorem enqueue_adds {sub : Subscription} {e : CallEvent} (he : Enqueues sub e)
    (hnamed : JobsNamed e.before) (hno : e.before.hasJob sub.id = false) :
    (e.after api).hasJob sub.id = true
      ↔ e.before.billingQueue.finished (billingJobId sub) = false := by
  obtain ⟨w, c, env⟩ := e
  obtain ⟨rfl, hanswered⟩ := he
  have hafter : (Event.after api ⟨w, .billingQueueAdd "process-subscription" sub.id
      (some (billingJobId sub)), env⟩).billingQueue
      = w.billingQueue.add "process-subscription" sub.id (some (billingJobId sub)) := by
    rcases serve_cases (.billingQueueAdd "process-subscription" sub.id
        (some (billingJobId sub))) env w with ⟨message, hrej, -⟩ | ⟨-, h⟩
    · rw [hrej] at hanswered
      cases hanswered
    · unfold Event.after
      rw [h]
      rfl
  unfold World.hasJob at *
  rw [hafter]
  dsimp only at *
  have hpending : w.billingQueue.pending (billingJobId sub) = false := by
    -- such a job would be one of the subscription
    unfold JobQueue.Queue.pending
    rw [List.any_eq_false] at hno ⊢
    intro j hj hid
    have hdata := hnamed j hj sub.id sub.currentPeriodEnd (by rw [beq_iff_eq.mp hid]; rfl)
    exact hno j hj (beq_iff_eq.mpr hdata)
  cases hfin : w.billingQueue.finished (billingJobId sub) with
  | true =>
      -- the finished job is kept under its id, and `add` does nothing
      rw [JobQueue.Queue.add_held (by simp [JobQueue.Queue.holds, hfin]), hno]
      simp
  | false =>
      rw [JobQueue.Queue.add_fresh (by simp [JobQueue.Queue.holds, hfin, hpending])]
      simp

/-! ## §4. Ticks of the running backend. -/

/-- **Every due subscription gets a job unless the queue holds a finished one
of its period**: after any run of the backend, for every tick that completes
without error amid any other operations, and for every subscription that its
query returned, the tick calls `queue.add`; when no job of the subscription is
unfinished then, there is one afterwards exactly when no finished job has the
id of the period. -/
theorem enqueued_iff_not_finished (cfg : Config) (w₀ : World)
    (hjobs : w₀.billingQueue.unfinished = []) (P P' : Pool Api World Unit)
    (h : Pool.Run (running cfg) anyone ⟨w₀, []⟩ P) (t : List CallEvent)
    (htick : Pool.Amid (running cfg) ((running cfg).body .tick) P t (.ok ()) P') :
    ∃ due rest, Queried t due rest ∧ ∀ sub ∈ due, ∃ e ∈ rest, Enqueues sub e
      ∧ (e.before.hasJob sub.id = false → ((e.after api).hasJob sub.id = true
        ↔ e.before.billingQueue.finished (billingJobId sub) = false)) := by
  have hidle : (namedDiscipline cfg).Sound ⟨w₀, []⟩ := by
    apply Discipline.sound_idle
    intro j hj
    rw [hjobs] at hj
    cases hj
  have hnamed : ∀ e ∈ t, JobsNamed e.before := by
    intro e he
    have hstart : Pool.Step (running cfg) anyone P
        ⟨P.world, P.threads ++ inFlight () ((running cfg).body .tick)⟩ :=
      .start Operation.tick trivial
    obtain ⟨Q, hQ, hworld⟩ := htick.reached List.perm_append_comm e he
    rw [← hworld]
    exact (Discipline.run ((h.tail hstart).trans hQ) hidle).1.1
  have hsafe : Safe recording ((running cfg).body .tick)
      (fun r _ t => r = .ok () → ∃ due rest, Queried t due rest
        ∧ ∀ sub ∈ due, ∃ e ∈ rest, Enqueues sub e) P.world [] := by
    refine Safe.mapped (Safe.mapped (tick_enqueues.mono (fun r _ t ht hr => ht ?_)))
    cases r with
    | error err => cases hr
    | ok _ => rfl
  -- what the tick does is told by its own calls, whatever came between them
  obtain ⟨-, w', -, hpost⟩ := Safe.of_interrupted (C := recording) htick.interrupted hsafe
    (assumed_of_forall (fun _ _ _ => trivial))
  rw [recording_foldl, List.nil_append] at hpost
  obtain ⟨due, rest, hquery, hdue⟩ := hpost rfl
  refine ⟨due, rest, hquery, fun sub hsub => ?_⟩
  obtain ⟨e, he, henq⟩ := hdue sub hsub
  have hmem : e ∈ t := by
    obtain ⟨e₁, e₂, rfl, -⟩ := hquery
    exact List.mem_cons_of_mem _ (List.mem_cons_of_mem _ he)
  exact ⟨e, he, henq, enqueue_adds henq (hnamed e hmem)⟩

/-! ## §5. Scenarios. -/

section Scenarios

open Shop

/-- A tick on day 2, and the job that it enqueues, whose charge fails. -/
def failingJob : List (Choice Operation Env) :=
  [.start .tick, .act 0 (on 2), .act 0 (on 2), .act 0 (on 2), .act 0 (on 2), .act 0 (on 2),
   .start (.billingJob enqueued), .act 0 (on 2), .act 0 (on 2), .act 0 (fresh 2 "pay"),
   .act 0 (on 2), .act 0 (on 2), .act 0 (on 2), .act 0 (on 2), .act 0 (on 2), .act 0 (on 2),
   .act 0 (on 2)]

/-- The worker has completed the job. -/
def withCompleted (w : World) : World :=
  { w with billingQueue := w.billingQueue.complete billingJobOptions enqueued }

/-- A tick on day `n`. -/
def tickOn (n : Nat) (w : World) : Option (Except Thrown Unit × World) :=
  exec api ((running (cfg false)).body .tick) [on n, on n, on n, on n, on n] w

/-- Its trace. -/
def tickTrace (n : Nat) (w : World) : List CallEvent :=
  execTrace api ((running (cfg false)).body .tick) [on n, on n, on n, on n, on n] w

theorem tickOn_amid {n : Nat} {w w' : World} (h : tickOn n w = some (.ok (), w'))
    (ts : List (Thread Api Unit)) :
    Pool.Amid (running (cfg false)) ((running (cfg false)).body .tick) ⟨w, ts⟩
      (tickTrace n w) (.ok ()) ⟨w', ts⟩ :=
  (exec_runs h).amid ts

/-- The subscription after one failed attempt. -/
def retried : Subscription := { sub with retryCount := 1, updatedAt := day 2 }

/-- **A failed attempt is not enqueued again**: on day 3 the subscription is
due and has no job, and the tick adds none. -/
theorem retry_not_enqueued :
    ¬ ∀ (cfg : Config) (w₀ : World), w₀.billingQueue.unfinished = [] →
      ∀ (P P' : Pool Api World Unit), Pool.Run (running cfg) anyone ⟨w₀, []⟩ P →
      ∀ t : List CallEvent,
        Pool.Amid (running cfg) ((running cfg).body .tick) P t (.ok ()) P' →
        ∃ due rest, Queried t due rest ∧ ∀ sub ∈ due, ∃ e ∈ rest, Enqueues sub e
          ∧ (e.before.hasJob sub.id = false → (e.after api).hasJob sub.id = true) := by
  intro hclaim
  have hrun : (Pool.advance (running (cfg false)) (fun _ _ _ => true) failingJob
      ⟨world plan sub, []⟩).map (fun P =>
        ((tickOn 3 (withCompleted P.world)).map (fun r => r.1.isOk),
          (tickTrace 3 (withCompleted P.world)).head?.map (·.env.now),
          (tickTrace 3 (withCompleted P.world)).tail.head?.map (fun e =>
            e.before.subscriptions.filter (findDueSubscriptions.condition (day 3)).selects),
          decide ((JobQueue.Phase.waiting, enqueued) ∈ P.world.billingQueue.unfinished)
            && (tickTrace 3 (withCompleted P.world)).all (fun e =>
              !e.before.hasJob "sub" && !(e.after api).hasJob "sub")))
      = some (some true, some (day 3), some [retried], true) := by
    decide +kernel
  obtain ⟨P, hP, hres⟩ := Option.map_eq_some_iff.mp hrun
  simp only [Prod.mk.injEq] at hres
  obtain ⟨htick, hnow, hrows, hqueue⟩ := hres
  obtain ⟨hjob, hnone⟩ := Bool.and_eq_true_iff.mp hqueue
  obtain ⟨⟨r, w'⟩, hexec, hr⟩ := Option.map_eq_some_iff.mp htick
  obtain rfl := ok_of_isOk hr
  have hcomplete : Pool.Step (running (cfg false)) anyone P
      ⟨withCompleted P.world, P.threads⟩ :=
    .drift ⟨_, .complete enqueued (of_decide_eq_true hjob), rfl⟩
  obtain ⟨due, rest, ⟨e₁, e₂, ht, -, hquery⟩, hdue⟩ := hclaim (cfg false) (world plan sub) rfl
    _ _ ((Pool.advance_run (fun _ _ _ _ => trivial) hP).tail hcomplete) _
    (tickOn_amid hexec P.threads)
  rw [ht] at hnow hrows hnone
  have hnow : e₁.env.now = day 3 := Option.some.inj hnow
  have hrows : e₂.before.subscriptions.filter
      (findDueSubscriptions.condition (day 3)).selects = [retried] := Option.some.inj hrows
  rw [hnow] at hquery
  have hmem : retried ∈ due := by
    rcases serve_subscriptionFindMany (findDueSubscriptions.condition (day 3)) e₂.env e₂.before
      with ⟨err, h⟩ | ⟨rows, h, hperm⟩
    · rw [h] at hquery
      cases hquery
    · rw [h] at hquery
      cases hquery
      rw [hrows] at hperm
      exact hperm.mem_iff.mpr (List.mem_singleton_self _)
  obtain ⟨e, he, -, hadds⟩ := hdue retried hmem
  have hno := List.all_eq_true.mp hnone e
    (List.mem_cons_of_mem _ (List.mem_cons_of_mem _ he))
  simp only [Bool.and_eq_true, Bool.not_eq_true'] at hno
  have hjob : (e.after api).hasJob "sub" = true := hadds hno.1
  rw [hno.2] at hjob
  cases hjob

/-- The first tick after the period has ended enqueues the job. -/
theorem enqueued_iff_not_finished_shop :
    ∃ t P', Pool.Amid (running (cfg false)) ((running (cfg false)).body .tick)
        ⟨world plan sub, []⟩ t (.ok ()) P'
      ∧ P'.world.hasJob "sub" = true
      ∧ ∃ due rest, Queried t due rest ∧ ∀ sub ∈ due, ∃ e ∈ rest, Enqueues sub e
        ∧ (e.before.hasJob sub.id = false → ((e.after api).hasJob sub.id = true
          ↔ e.before.billingQueue.finished (billingJobId sub) = false)) := by
  have hrun : (tickOn 2 (world plan sub)).map (fun r => (r.1.isOk, r.2.hasJob "sub"))
      = some (true, true) := by
    decide +kernel
  obtain ⟨⟨r, w'⟩, hexec, hres⟩ := Option.map_eq_some_iff.mp hrun
  obtain ⟨hr, hhas⟩ := Prod.mk.inj hres
  obtain rfl := ok_of_isOk hr
  have htick := tickOn_amid hexec []
  exact ⟨_, _, htick, hhas, enqueued_iff_not_finished (cfg false) (world plan sub) rfl
    ⟨world plan sub, []⟩ _ .refl _ htick⟩

end Scenarios

end Sorobill
