/-
  Sorobill.Library.JobQueue
  ─────────────────────────
  **A JOB QUEUE WITH DEDUPLICATING IDS AND BOUNDED RETENTION.**

  Jobs wait, run, may be delayed for a retry, and end completed or failed.
  Finished jobs stay in the queue for a while: a completed one until more
  than `removeOnComplete` newer ones completed, a failed one until more than
  `removeOnFail` newer ones failed.  `add` with an id the queue still holds,
  in whatever state, adds nothing.

    • `add_held` — an id that is held makes `add` a no-op;
    • `add_fresh` — an id that is not held gets a waiting job;
    • `mem_add` — `add` brings no other job;
    • `Named` — a queue whose jobs have ids made from their data: what it
      awaits and what has ended, after each change;
    • `Stems` — where the names and data of unfinished jobs come from.
-/
import Mathlib.Data.List.Basic
import Mathlib.Logic.Function.Basic

namespace JobQueue

/-- The states of a job that has not finished. -/
inductive Phase where
  | waiting
  | delayed
  | active
  deriving DecidableEq

structure Job (δ : Type) where
  id : String
  name : String
  data : δ
  attemptsMade : Nat := 0
  deriving DecidableEq

/-- `defaultJobOptions`. -/
structure Options where
  attempts : Nat
  removeOnComplete : Nat
  removeOnFail : Nat

/-- The queue: unfinished jobs with their phase, and the finished jobs still
held, newest first. -/
structure Queue (δ : Type) where
  unfinished : List (Phase × Job δ) := []
  completed : List (Job δ) := []
  failed : List (Job δ) := []
  counter : Nat := 0

namespace Queue

variable {δ : Type}

/-- The queue holds an unfinished job with this id. -/
def pending (q : Queue δ) (id : String) : Bool :=
  q.unfinished.any (fun j => j.2.id == id)

/-- The queue holds a finished job with this id. -/
def finished (q : Queue δ) (id : String) : Bool :=
  q.completed.any (fun j => j.id == id) || q.failed.any (fun j => j.id == id)

/-- The queue holds a job with this id. -/
def holds (q : Queue δ) (id : String) : Bool := q.pending id || q.finished id

/-- Add a job; without a `jobId` the queue numbers it. -/
def add (q : Queue δ) (name : String) (data : δ) (jobId : Option String) : Queue δ :=
  let id := jobId.getD (toString (q.counter + 1))
  if q.holds id then q
  else
    { q with
      unfinished := q.unfinished ++ [(.waiting, ⟨id, name, data, 0⟩)]
      counter := q.counter + 1 }

/-- Change the phase of the unfinished job with this id. -/
def setPhase (q : Queue δ) (id : String) (phase : Phase) : Queue δ :=
  { q with
    unfinished := q.unfinished.map (fun j => if j.2.id = id then (phase, j.2) else j) }

/-- The unfinished jobs without the one with this id. -/
def without (q : Queue δ) (id : String) : List (Phase × Job δ) :=
  q.unfinished.filter (fun j => j.2.id != id)

/-- The job has returned. -/
def complete (opts : Options) (q : Queue δ) (job : Job δ) : Queue δ :=
  { q with
    unfinished := q.without job.id
    completed := (job :: q.completed).take (opts.removeOnComplete + 1) }

/-- The job failed: there is no further attempt. -/
def fail (opts : Options) (q : Queue δ) (job : Job δ) : Queue δ :=
  { q with
    unfinished := q.without job.id
    failed := (job :: q.failed).take (opts.removeOnFail + 1) }

/-- The job has thrown: it is delayed for another attempt, or it failed. -/
def failAttempt (opts : Options) (q : Queue δ) (job : Job δ) : Queue δ :=
  let job := { job with attemptsMade := job.attemptsMade + 1 }
  if job.attemptsMade < opts.attempts then
    { q with unfinished := q.without job.id ++ [(.delayed, job)] }
  else
    { q with
      unfinished := q.without job.id
      failed := (job :: q.failed).take (opts.removeOnFail + 1) }

theorem add_held {q : Queue δ} {name id : String} {data : δ}
    (h : q.holds id = true) : q.add name data (some id) = q := by
  simp [add, h]

theorem add_fresh {q : Queue δ} {name id : String} {data : δ}
    (h : q.holds id = false) :
    (q.add name data (some id)).unfinished
      = q.unfinished ++ [(.waiting, ⟨id, name, data, 0⟩)] := by
  simp [add, h]

/-- An unfinished job after `add` was there before or is the added one. -/
theorem mem_add {q : Queue δ} {name : String} {data : δ}
    {jobId : Option String} {j : Phase × Job δ}
    (h : j ∈ (q.add name data jobId).unfinished) :
    j ∈ q.unfinished
      ∨ (j.2.data = data ∧ j.2.id = jobId.getD (toString (q.counter + 1))) := by
  unfold add at h
  dsimp only at h
  split at h
  · -- the id is held: nothing was added
    exact .inl h
  · rcases List.mem_append.mp h with h | h
    · exact .inl h
    · rw [List.mem_singleton.mp h]
      exact .inr ⟨rfl, rfl⟩

@[simp] theorem add_completed (q : Queue δ) (name : String) (data : δ)
    (jobId : Option String) : (q.add name data jobId).completed = q.completed := by
  unfold add
  dsimp only
  split <;> rfl

@[simp] theorem add_failed (q : Queue δ) (name : String) (data : δ)
    (jobId : Option String) : (q.add name data jobId).failed = q.failed := by
  unfold add
  dsimp only
  split <;> rfl

@[simp] theorem add_finished (q : Queue δ) (name : String) (data : δ)
    (jobId : Option String) (id : String) :
    (q.add name data jobId).finished id = q.finished id := by
  simp [finished]

/-! ## Jobs named after their data. -/

/-- An unfinished job has the data `d`. -/
def Awaits (q : Queue δ) (d : δ) : Prop := ∃ x ∈ q.unfinished, x.2.data = d

/-- A finished job has the data `d`. -/
def Ended (q : Queue δ) (d : δ) : Prop := ∃ job ∈ q.completed ++ q.failed, job.data = d

/-- Every job has the id that `idOf` makes from its data. -/
structure Named (idOf : δ → String) (q : Queue δ) : Prop where
  unfinished : ∀ x ∈ q.unfinished, x.2.id = idOf x.2.data
  finished : ∀ job ∈ q.completed ++ q.failed, job.id = idOf job.data

/-- The job has left `q` for the finished ones. -/
structure Finishes (q : Queue δ) (job : Job δ) (q' : Queue δ) : Prop where
  unfinished : q'.unfinished = q.without job.id
  finished : ∀ j ∈ q'.completed ++ q'.failed,
    j ∈ q.completed ++ q.failed ∨ (j.id = job.id ∧ j.data = job.data)

variable {opts : Options} {idOf : δ → String} {q q' : Queue δ} {job : Job δ} {d d' : δ}
  {name : String}

theorem finishes_complete : q.Finishes job (q.complete opts job) where
  unfinished := rfl
  finished j hj := by
    rcases List.mem_append.mp hj with hj | hj
    · rcases List.mem_cons.mp (List.mem_of_mem_take hj) with rfl | hj
      · exact .inr ⟨rfl, rfl⟩
      · exact .inl (List.mem_append_left _ hj)
    · exact .inl (List.mem_append_right _ hj)

theorem finishes_fail : q.Finishes job (q.fail opts job) where
  unfinished := rfl
  finished j hj := by
    rcases List.mem_append.mp hj with hj | hj
    · exact .inl (List.mem_append_left _ hj)
    · rcases List.mem_cons.mp (List.mem_of_mem_take hj) with rfl | hj
      · exact .inr ⟨rfl, rfl⟩
      · exact .inl (List.mem_append_right _ hj)

/-- The last attempt fails the job. -/
theorem failAttempt_last (h : opts.attempts ≤ job.attemptsMade + 1) :
    q.failAttempt opts job = q.fail opts { job with attemptsMade := job.attemptsMade + 1 } := by
  unfold failAttempt
  dsimp only
  rw [if_neg (Nat.not_lt.mpr h)]
  rfl

/-- An earlier one delays it. -/
theorem failAttempt_retry (h : job.attemptsMade + 1 < opts.attempts) :
    q.failAttempt opts job = { q with
      unfinished := q.without job.id
        ++ [(.delayed, { job with attemptsMade := job.attemptsMade + 1 })] } := by
  unfold failAttempt
  dsimp only
  rw [if_pos h]

@[simp] theorem awaits_setPhase {id : String} {phase : Phase} :
    (q.setPhase id phase).Awaits d ↔ q.Awaits d := by
  unfold Awaits setPhase
  constructor
  · rintro ⟨x, hx, hd⟩
    obtain ⟨y, hy, rfl⟩ := List.mem_map.mp hx
    refine ⟨y, hy, ?_⟩
    split at hd <;> exact hd
  · rintro ⟨x, hx, hd⟩
    refine ⟨_, List.mem_map_of_mem hx, ?_⟩
    split <;> exact hd

theorem Named.setPhase (h : q.Named idOf) (id : String) (phase : Phase) :
    (q.setPhase id phase).Named idOf where
  unfinished x hx := by
    obtain ⟨y, hy, rfl⟩ := List.mem_map.mp hx
    split <;> exact h.unfinished y hy
  finished := h.finished

theorem Awaits.add (h : q.Awaits d) {jobId : Option String} :
    (q.add name d' jobId).Awaits d := by
  obtain ⟨x, hx, hd⟩ := h
  refine ⟨x, ?_, hd⟩
  unfold Queue.add
  dsimp only
  split
  · exact hx
  · exact List.mem_append_left _ hx

@[simp] theorem ended_add {jobId : Option String} :
    (q.add name d' jobId).Ended d ↔ q.Ended d := by
  simp [Ended]

theorem Named.add (h : q.Named idOf) (name : String) (d : δ) :
    (q.add name d (some (idOf d))).Named idOf where
  unfinished x hx := by
    rcases mem_add hx with hx | ⟨hdata, hid⟩
    · exact h.unfinished x hx
    · rw [hdata, hid]
      rfl
  finished := by
    rw [add_completed, add_failed]
    exact h.finished

/-- **What is added is awaited, unless it has ended.** -/
theorem Named.awaits_or_ended (h : q.Named idOf) (hinj : Function.Injective idOf) :
    (q.add name d (some (idOf d))).Awaits d ∨ q.Ended d := by
  cases hheld : q.holds (idOf d) with
  | false =>
      refine .inl ⟨(.waiting, ⟨idOf d, name, d, 0⟩), ?_, rfl⟩
      rw [add_fresh hheld]
      exact List.mem_append_right _ (List.mem_singleton_self _)
  | true =>
      rw [add_held hheld]
      -- the job that has the id has the data
      unfold holds pending Queue.finished at hheld
      rw [← List.any_append] at hheld
      rcases Bool.or_eq_true_iff.mp hheld with hheld | hheld
      · obtain ⟨x, hx, hid⟩ := List.any_eq_true.mp hheld
        exact .inl ⟨x, hx, hinj ((h.unfinished x hx).symm.trans (beq_iff_eq.mp hid))⟩
      · obtain ⟨j, hj, hid⟩ := List.any_eq_true.mp hheld
        exact .inr ⟨j, hj, hinj ((h.finished j hj).symm.trans (beq_iff_eq.mp hid))⟩

theorem mem_without {id : String} {x : Phase × Job δ} :
    x ∈ q.without id ↔ x ∈ q.unfinished ∧ x.2.id ≠ id := by
  simp [without]

theorem Finishes.named (hfin : q.Finishes job q') (h : q.Named idOf)
    (hjob : job.id = idOf job.data) : q'.Named idOf where
  unfinished x hx := by
    rw [hfin.unfinished] at hx
    exact h.unfinished x (mem_without.mp hx).1
  finished j hj := by
    rcases hfin.finished j hj with hj | ⟨hid, hdata⟩
    · exact h.finished j hj
    · rw [hid, hdata, hjob]

/-- What else the queue awaited it still does. -/
theorem Awaits.without (hd : q.Awaits d) (h : q.Named idOf) (hinj : Function.Injective idOf)
    (hjob : job.id = idOf job.data) (hne : d ≠ job.data) :
    ∃ x ∈ q.without job.id, x.2.data = d := by
  obtain ⟨x, hx, rfl⟩ := hd
  refine ⟨x, mem_without.mpr ⟨hx, fun hid => hne (hinj ?_)⟩, rfl⟩
  rw [← h.unfinished x hx, hid, hjob]

theorem Finishes.awaits (hfin : q.Finishes job q') (h : q.Named idOf)
    (hinj : Function.Injective idOf) (hjob : job.id = idOf job.data) (hne : d ≠ job.data)
    (hd : q.Awaits d) : q'.Awaits d := by
  unfold Awaits
  rw [hfin.unfinished]
  exact hd.without h hinj hjob hne

theorem Finishes.ended (hfin : q.Finishes job q') (h : q'.Ended d) :
    q.Ended d ∨ d = job.data := by
  obtain ⟨j, hj, rfl⟩ := h
  rcases hfin.finished j hj with hj | ⟨-, hdata⟩
  · exact .inl ⟨j, hj, rfl⟩
  · exact .inr hdata

/-- **A job that is retried keeps what the queue awaits.** -/
theorem Awaits.failAttempt (hd : q.Awaits d) (h : q.Named idOf)
    (hinj : Function.Injective idOf) (hjob : job.id = idOf job.data)
    (hretry : job.attemptsMade + 1 < opts.attempts) : (q.failAttempt opts job).Awaits d := by
  rw [failAttempt_retry hretry]
  by_cases hne : d = job.data
  · exact ⟨_, List.mem_append_right _ (List.mem_singleton_self _), hne.symm⟩
  · obtain ⟨x, hx, hdata⟩ := hd.without h hinj hjob hne
    exact ⟨x, List.mem_append_left _ hx, hdata⟩

theorem Named.failAttempt (h : q.Named idOf) (hjob : job.id = idOf job.data)
    (hretry : job.attemptsMade + 1 < opts.attempts) : (q.failAttempt opts job).Named idOf := by
  rw [failAttempt_retry hretry]
  refine ⟨fun x hx => ?_, h.finished⟩
  rcases List.mem_append.mp hx with hx | hx
  · exact h.unfinished x (mem_without.mp hx).1
  · rw [List.mem_singleton.mp hx]
    exact hjob

/-! ## What the jobs are about. -/

/-- Every unfinished job of `q'` has the name and data of one of `q`, or those
that `New` admits. -/
def Stems (New : String → δ → Prop) (q q' : Queue δ) : Prop :=
  ∀ x ∈ q'.unfinished,
    (∃ y ∈ q.unfinished, y.2.name = x.2.name ∧ y.2.data = x.2.data) ∨ New x.2.name x.2.data

variable {New : String → δ → Prop}

theorem Stems.refl (q : Queue δ) : Stems New q q := fun x hx => .inl ⟨x, hx, rfl, rfl⟩

/-- What holds of all jobs still does. -/
theorem Stems.every {P : String → δ → Prop} (h : Stems New q q')
    (hP : ∀ x ∈ q.unfinished, P x.2.name x.2.data) (hnew : ∀ name d, New name d → P name d) :
    ∀ x ∈ q'.unfinished, P x.2.name x.2.data := by
  intro x hx
  rcases h x hx with ⟨y, hy, hname, hdata⟩ | hx
  · rw [← hname, ← hdata]
    exact hP y hy
  · exact hnew _ _ hx

theorem Stems.add (q : Queue δ) {jobId : Option String} (hnew : New name d) :
    Stems New q (q.add name d jobId) := by
  intro x hx
  unfold Queue.add at hx
  dsimp only at hx
  split at hx
  · exact .inl ⟨x, hx, rfl, rfl⟩
  · rcases List.mem_append.mp hx with hx | hx
    · exact .inl ⟨x, hx, rfl, rfl⟩
    · rw [List.mem_singleton.mp hx]
      exact .inr hnew

theorem Stems.setPhase (q : Queue δ) (id : String) (phase : Phase) :
    Stems New q (q.setPhase id phase) := by
  intro x hx
  obtain ⟨y, hy, rfl⟩ := List.mem_map.mp hx
  refine .inl ⟨y, hy, ?_⟩
  split <;> exact ⟨rfl, rfl⟩

theorem Finishes.stems (h : q.Finishes job q') : Stems New q q' := by
  intro x hx
  rw [h.unfinished] at hx
  exact .inl ⟨x, (mem_without.mp hx).1, rfl, rfl⟩

theorem Stems.failAttempt (hjob : (∃ phase, (phase, job) ∈ q.unfinished) ∨ New job.name job.data) :
    Stems New q (q.failAttempt opts job) := by
  rcases Nat.lt_or_ge (job.attemptsMade + 1) opts.attempts with hretry | hlast
  · rw [failAttempt_retry hretry]
    intro x hx
    rcases List.mem_append.mp hx with hx | hx
    · exact .inl ⟨x, (mem_without.mp hx).1, rfl, rfl⟩
    · -- the delayed job is the old one with one more attempt
      rw [List.mem_singleton.mp hx]
      exact hjob.imp_left (fun ⟨phase, hmem⟩ => ⟨_, hmem, rfl, rfl⟩)
  · rw [failAttempt_last hlast]
    intro x hx
    exact .inl ⟨x, (mem_without.mp hx).1, rfl, rfl⟩

end Queue

end JobQueue
