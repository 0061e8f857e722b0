/-
  Sorobill.Charging.Confirmation
  ──────────────────────────────
  **WAITING FOR A TRANSACTION** (`invokeAsAdmin` in `src/lib/soroban.ts`).

  The loop asks for the transaction until the answer is another one than
  NOT_FOUND, with a sleep between two answers, and gives up when the clock
  says that more than 60 s have passed.  The answers and the clock are taken
  as infinite sequences here; the call `awaitTransaction` of the services
  serves their beginning.

    • `invokeAsAdmin.poll` — one turn of the loop;
    • `confirmation_honest` — at most 42 answers are asked for, and what the
      last one says is what `invokeAsAdmin` returns or throws.
-/
import Sorobill.Library.Loop
import Sorobill.Model.Shop
import Sorobill.Rules.Charges

namespace Sorobill

open Effect
open JavaScript (JsValue)

/-! ## §1. The loop. -/

/-- The answers of `getTransaction`, and `Date.now()` in ms: as `started` is
read, and as the loop reads it after each answer. -/
structure Confirmation where
  status : Nat → TxStatus
  started : Int
  now : Nat → Int

/-- One turn of the loop after the answer `n`: it sleeps and asks again, or it
exits. -/
def invokeAsAdmin.poll (hash : String) (c : Confirmation) (n : Nat) :
    Nat ⊕ Except Thrown JsValue :=
  match c.status n with
  | .NOT_FOUND =>
      if c.now n - c.started > 60000 then
        .inr (.error (.error s!"Timed out waiting for tx {hash}"))
      else .inl (n + 1)
  | .FAILED => .inr (.error (.error s!"Soroban tx failed: {hash}"))
  | .SUCCESS returnValue => .inr (.ok (returnValue.getD .null))

/-- **The clock advances** by the time of the sleep, and does not go back
before the first one. -/
structure Confirmation.Advances (c : Confirmation) : Prop where
  begins : c.started ≤ c.now 0
  sleeps : ∀ n, c.now n + 1500 ≤ c.now (n + 1)

/-- The environment serves `awaitTransaction` from the sequences: no answer
rejects, and the list is long enough for the loop. -/
structure Env.Confirms (env : Env) (c : Confirmation) : Prop where
  answers : env.rejects = none
  serves : ∃ first started polls, env.network = .polled first started polls
    ∧ first = c.status 0 ∧ started.ms = c.started ∧ 42 ≤ polls.length
    ∧ ∀ n (h : n < polls.length), polls[n].now.ms = c.now n ∧ polls[n].status = c.status (n + 1)

/-! ## §2. Termination. -/

section Loop

variable {c : Confirmation} {hash : String}

/-- It goes on exactly after NOT_FOUND within the limit. -/
theorem poll_inl {n m : Nat} (h : invokeAsAdmin.poll hash c n = .inl m) :
    m = n + 1 ∧ c.status n = .NOT_FOUND ∧ c.now n - c.started ≤ 60000 := by
  unfold invokeAsAdmin.poll at h
  split at h
  next hstatus =>
    split at h
    · cases h
    · cases h
      exact ⟨rfl, hstatus, by omega⟩
  next => cases h
  next => cases h

/-- The sleeps that fit into what is left of the limit. -/
def Confirmation.left (c : Confirmation) (n : Nat) : Nat :=
  ((60000 - (c.now n - c.started)) / 1500 + 1).toNat

/-- **Every turn that goes on uses one sleep up.** -/
theorem left_lt (hadvances : c.Advances) {n m : Nat} (h : invokeAsAdmin.poll hash c n = .inl m) :
    c.left m < c.left n := by
  obtain ⟨rfl, -, hlimit⟩ := poll_inl h
  have hsleep := hadvances.sleeps n
  unfold Confirmation.left
  omega

theorem left_le (hadvances : c.Advances) : c.left 0 ≤ 41 := by
  have hbegins := hadvances.begins
  unfold Confirmation.left
  omega

/-- The turns before `n` have gone on, and are paid for by the limit. -/
structure Confirmation.Reached (c : Confirmation) (n : Nat) : Prop where
  pending : ∀ m < n, c.status m = .NOT_FOUND ∧ c.now m - c.started ≤ 60000
  paid : n + c.left n ≤ c.left 0

theorem reached_zero : c.Reached 0 := ⟨fun m hm => absurd hm (Nat.not_lt_zero m), by omega⟩

theorem reached_step (hadvances : c.Advances) (n m : Nat) (h : c.Reached n)
    (hnext : invokeAsAdmin.poll hash c n = .inl m) : c.Reached m := by
  have hlt := left_lt hadvances hnext
  obtain ⟨rfl, hstatus, hlimit⟩ := poll_inl hnext
  have hpaid := h.paid
  refine ⟨fun k hk => ?_, by omega⟩
  rcases Nat.lt_succ_iff_lt_or_eq.mp hk with hlt | rfl
  · exact h.pending k hlt
  · exact ⟨hstatus, hlimit⟩

/-- The answer `n` is one to exit after. -/
def Confirmation.Exits (c : Confirmation) (n : Nat) : Prop :=
  c.status n = .NOT_FOUND → 60000 < c.now n - c.started

/-- **How it exits**, by the answer. -/
theorem poll_inr {n : Nat} {r : Except Thrown JsValue}
    (h : invokeAsAdmin.poll hash c n = .inr r) :
    (c.status n = .NOT_FOUND ∧ 60000 < c.now n - c.started
        ∧ r = .error (.error s!"Timed out waiting for tx {hash}"))
      ∨ (c.status n = .FAILED ∧ r = .error (.error s!"Soroban tx failed: {hash}"))
      ∨ ∃ returnValue, c.status n = .SUCCESS returnValue ∧ r = .ok (returnValue.getD .null) := by
  unfold invokeAsAdmin.poll at h
  split at h
  next hstatus =>
    split at h
    next hlate =>
      cases h
      exact .inl ⟨hstatus, hlate, rfl⟩
    next => cases h
  next hstatus =>
    cases h
    exact .inr (.inl ⟨hstatus, rfl⟩)
  next returnValue hstatus =>
    cases h
    exact .inr (.inr ⟨returnValue, hstatus, rfl⟩)

theorem poll_exits {n : Nat} {r : Except Thrown JsValue}
    (h : invokeAsAdmin.poll hash c n = .inr r) : c.Exits n := by
  intro hstatus
  rcases poll_inr h with ⟨-, hlate, -⟩ | ⟨hfailed, -⟩ | ⟨returnValue, hsuccess, -⟩
  · exact hlate
  · rw [hstatus] at hfailed
    cases hfailed
  · rw [hstatus] at hsuccess
    cases hsuccess

/-- There is one answer to exit after, whatever the hash. -/
theorem exits_unique {n m : Nat} (hn : c.Reached n) (hexit : c.Exits n) (hm : c.Reached m)
    (hexit' : c.Exits m) : n = m := by
  rcases Nat.lt_trichotomy n m with hlt | rfl | hlt
  · obtain ⟨hstatus, hlimit⟩ := hm.pending n hlt
    have hlate := hexit hstatus
    omega
  · rfl
  · obtain ⟨hstatus, hlimit⟩ := hn.pending m hlt
    have hlate := hexit' hstatus
    omega

/-- **The loop ends**, after at most 42 answers. -/
theorem poll_ends (hadvances : c.Advances) :
    ∃ n, n + 1 ≤ 42 ∧ c.Reached n ∧ c.Exits n
      ∧ ∀ hash, ∃ r, invokeAsAdmin.poll hash c n = .inr r
        ∧ ∀ fuel, 42 ≤ fuel → Loop.run (invokeAsAdmin.poll hash c) fuel 0 = some (n, r) := by
  have hfuel : c.left 0 < 42 := Nat.lt_succ_of_le (left_le hadvances)
  have hrun : ∀ hash, ∃ n r, c.Reached n ∧ invokeAsAdmin.poll hash c n = .inr r
      ∧ Loop.run (invokeAsAdmin.poll hash c) 42 0 = some (n, r) := by
    intro hash
    obtain ⟨n, r, hrun⟩ := Loop.run_exits (fun n m => left_lt hadvances) hfuel
    obtain ⟨hreached, hexit⟩ := Loop.run_invariant (reached_step hadvances) reached_zero hrun
    exact ⟨n, r, hreached, hexit, hrun⟩
  obtain ⟨n, r, hreached, hexit, -⟩ := hrun ""
  have hpaid := hreached.paid
  refine ⟨n, by omega, hreached, poll_exits hexit, fun hash => ?_⟩
  obtain ⟨m, r', hreached', hexit', hrun'⟩ := hrun hash
  obtain rfl := exits_unique hreached (poll_exits hexit) hreached' (poll_exits hexit')
  exact ⟨r', hexit', fun fuel hle => Loop.run_mono hle hrun'⟩

end Loop

/-! ## §3. The call of the services. -/

section Calls

variable {cfg : Config} {c : Confirmation} {key hash : String} {invocation : Invocation}
  {w w' : World} {t : List CallEvent}

/-- **`awaitTransaction` is the loop**: a list that begins the sequences leads
to the same exit. -/
theorem pollTransaction_eq {n : Nat} {r : Except Thrown JsValue} {started : Instant}
    (hpending : ∀ m < n, c.status m = .NOT_FOUND ∧ c.now m - c.started ≤ 60000)
    (hexit : invokeAsAdmin.poll hash c n = .inr r) (hstarted : started.ms = c.started)
    {polls : List Poll} : ∀ {k : Nat}, k ≤ n → n < k + polls.length →
      (∀ i (h : i < polls.length),
        polls[i].now.ms = c.now (k + i) ∧ polls[i].status = c.status (k + i + 1)) →
      pollTransaction hash started (c.status k) polls = r := by
  induction polls with
  | nil =>
      intro k hk hn _
      exact absurd hn (by simpa using hk)
  | cons p polls ih =>
      intro k hk hn hserves
      obtain ⟨hnow, hstatus⟩ := hserves 0 (Nat.zero_lt_succ _)
      have hnow : p.now.ms = c.now k := hnow
      have hstatus : p.status = c.status (k + 1) := hstatus
      rcases Nat.lt_or_eq_of_le hk with hlt | rfl
      · obtain ⟨hnotFound, hlimit⟩ := hpending k hlt
        rw [hnotFound, pollTransaction, if_neg (by omega), hstatus]
        refine ih hlt (by simp only [List.length_cons] at hn; omega) (fun i hi => ?_)
        have hnext := hserves (i + 1) (Nat.succ_lt_succ hi)
        rwa [show k + (i + 1) = k + 1 + i by omega] at hnext
      · rcases poll_inr hexit with
          ⟨hnotFound, hlate, rfl⟩ | ⟨hfailed, rfl⟩ | ⟨returnValue, hsuccess, rfl⟩
        · rw [hnotFound, pollTransaction, hnow, hstarted, if_pos hlate]
        · rw [hfailed, pollTransaction]
        · rw [hsuccess, pollTransaction]

/-- The answer of `awaitTransaction`. -/
theorem serve_awaitTransaction {env : Env} {n : Nat} {r : Except Thrown JsValue}
    (hn : n + 1 ≤ 42) (hreached : c.Reached n) (hexit : invokeAsAdmin.poll hash c n = .inr r)
    (henv : env.Confirms c) : (api.serve (.awaitTransaction hash) env w).1 = r := by
  obtain ⟨first, started, polls, hnetwork, rfl, hstarted, hlength, hserves⟩ := henv.serves
  have hanswer : w.answer env (.awaitTransaction hash)
      = (pollTransaction hash started (c.status 0) polls, w) := by
    unfold World.answer
    rw [hnetwork]
  have hserve : (api.serve (.awaitTransaction hash) env w).1
      = pollTransaction hash started (c.status 0) polls := by
    rcases serve_cases (.awaitTransaction hash) env w with ⟨message, hrejects, -⟩ | ⟨-, hserve⟩
    · rw [henv.answers] at hrejects
      cases hrejects
    · rw [hserve, hanswer]
  rw [hserve]
  refine pollTransaction_eq hreached.pending hexit hstarted (Nat.zero_le n) (by omega)
    (fun i hi => ?_)
  rw [Nat.zero_add]
  exact hserves i hi

/-- What an error before the submission leaves: nothing was awaited. -/
def NothingAwaited (t : List CallEvent) : Prop := ∀ e ∈ t, ∀ hash, e.call ≠ .awaitTransaction hash

theorem nothingAwaited_nil : NothingAwaited [] := fun _ he => absurd he List.not_mem_nil

theorem NothingAwaited.cons {e : CallEvent} (h : NothingAwaited t)
    (he : ∀ hash, e.call ≠ .awaitTransaction hash) : NothingAwaited (e :: t) := by
  intro e' hmem
  rcases List.mem_cons.mp hmem with rfl | hmem
  · exact he
  · exact h e' hmem

/-- It throws before it waits, or ends as the wait ends. -/
def WaitsLast (t : List CallEvent) (r : Except Thrown (String × JsValue)) : Prop :=
  (NothingAwaited t ∧ ∃ err, r = .error err)
    ∨ ∃ t₁ w₁ hash env, NothingAwaited t₁ ∧ t = t₁ ++ [⟨w₁, .awaitTransaction hash, env⟩]
      ∧ r = (api.serve (.awaitTransaction hash) env w₁).1.map (fun result => (hash, result))

theorem waitsLast_thrown (err : Thrown) : WaitsLast [] (.error err) :=
  .inl ⟨nothingAwaited_nil, err, rfl⟩

theorem waitsLast_waited {r : Except Thrown (String × JsValue)} {w : World} {env : Env}
    (hr : r = (api.serve (.awaitTransaction hash) env w).1.map (fun result => (hash, result))) :
    WaitsLast [⟨w, .awaitTransaction hash, env⟩] r :=
  .inr ⟨[], w, hash, env, nothingAwaited_nil, rfl, hr⟩

/-- Another call before it. -/
theorem WaitsLast.called {e : CallEvent} {r : Except Thrown (String × JsValue)}
    (h : WaitsLast t r) (he : ∀ hash, e.call ≠ .awaitTransaction hash) : WaitsLast (e :: t) r := by
  rcases h with ⟨hnothing, hr⟩ | ⟨t₁, w₁, hash, env, hnothing, rfl, hr⟩
  · exact .inl ⟨hnothing.cons he, hr⟩
  · exact .inr ⟨e :: t₁, w₁, hash, env, hnothing.cons he, rfl, hr⟩

/-- **`invokeAsAdmin` waits last**, if it has not thrown before. -/
theorem invokeAsAdmin_runs {r : Except Thrown (String × JsValue)}
    (h : Runs api (invokeAsAdmin cfg key invocation) w t r w') : WaitsLast t r := by
  unfold invokeAsAdmin keypairFromSecret getContract at h
  split at h
  · -- no secret
    obtain ⟨rfl, rfl, -⟩ := runs_fail_iff.mp h
    exact waitsLast_thrown _
  split at h
  swap
  · -- a secret that cannot be read
    obtain ⟨rfl, rfl, -⟩ := runs_fail_iff.mp h
    exact waitsLast_thrown _
  obtain ⟨env₁, ⟨err, -, rfl, rfl, -⟩ | ⟨_, t₁, -, rfl, hsource⟩⟩ := runs_perform_bind h
  · exact (waitsLast_thrown err).called (by simp)
  refine WaitsLast.called ?_ (by simp)
  split at hsource
  · -- no contract
    obtain ⟨rfl, rfl, -⟩ := runs_fail_iff.mp hsource
    exact waitsLast_thrown _
  obtain ⟨env₂, ⟨err, -, rfl, rfl, -⟩ | ⟨simulated, t₂, -, rfl, hsimulated⟩⟩ :=
    runs_perform_bind hsource
  · exact (waitsLast_thrown err).called (by simp)
  refine WaitsLast.called ?_ (by simp)
  cases simulated with
  | some error =>
      obtain ⟨rfl, rfl, -⟩ := runs_fail_iff.mp hsimulated
      exact waitsLast_thrown _
  | none =>
      obtain ⟨env₃, ⟨err, -, rfl, rfl, -⟩ | ⟨send, t₃, -, rfl, hsend⟩⟩ :=
        runs_perform_bind hsimulated
      · exact (waitsLast_thrown err).called (by simp)
      refine WaitsLast.called ?_ (by simp)
      cases send with
      | ERROR detail =>
          obtain ⟨rfl, rfl, -⟩ := runs_fail_iff.mp hsend
          exact waitsLast_thrown _
      | accepted hash =>
          obtain ⟨env₄, ⟨err, herr, rfl, rfl, -⟩ | ⟨result, t₄, hresult, rfl, hdone⟩⟩ :=
            runs_perform_bind hsend
          · refine waitsLast_waited ?_
            rw [herr]
            rfl
          · obtain ⟨rfl, rfl, -⟩ := runs_done_iff.mp hdone
            refine waitsLast_waited ?_
            rw [hresult]
            rfl

end Calls

/-! ## §4. Honesty. -/

/-- What `invokeAsAdmin` ends with says what the last answer says. -/
theorem outcome_honest {c : Confirmation} {hash : String} {n : Nat}
    {outcome : Except Thrown JsValue} {r : Except Thrown (String × JsValue)}
    (hreached : c.Reached n) (hexit : invokeAsAdmin.poll hash c n = .inr outcome)
    (hr : r = outcome.map (fun result => (hash, result))) :
    (∀ returnValue, c.status n = .SUCCESS returnValue → r = .ok (hash, returnValue.getD .null))
      ∧ (c.status n = .FAILED → r = .error (.error s!"Soroban tx failed: {hash}"))
      ∧ ∀ m, (∀ k ≤ m, c.status k = .NOT_FOUND) → 60000 < c.now m - c.started →
          r = .error (.error s!"Timed out waiting for tx {hash}") := by
  have hlast : ∀ m, (∀ k ≤ m, c.status k = .NOT_FOUND) → 60000 < c.now m - c.started → n ≤ m := by
    intro m _ hlate
    by_contra hlt
    have hlimit := (hreached.pending m (by omega)).2
    omega
  rcases poll_inr hexit with ⟨hstatus, -, rfl⟩ | ⟨hstatus, rfl⟩ | ⟨returnValue, hstatus, rfl⟩
  · simp [hstatus, hr, Except.map]
  · refine ⟨by simp [hstatus], fun _ => hr, fun m hnotFound hlate => ?_⟩
    have hpending := hnotFound n (hlast m hnotFound hlate)
    simp [hstatus] at hpending
  · refine ⟨fun rv hsuccess => ?_, by simp [hstatus], fun m hnotFound hlate => ?_⟩
    · rw [hstatus] at hsuccess
      cases hsuccess
      exact hr
    · have hpending := hnotFound n (hlast m hnotFound hlate)
      simp [hstatus] at hpending

/-- **The confirmation is honest**: the loop ends after at most 42 answers, all
but the last NOT_FOUND; with SUCCESS as the last, and only then,
`invokeAsAdmin` returns, and it throws after FAILED or past the limit. -/
theorem confirmation_honest (c : Confirmation) (hadvances : c.Advances) :
    ∃ n, n + 1 ≤ 42
      ∧ (∀ hash fuel, 42 ≤ fuel →
          ∃ r, Loop.run (invokeAsAdmin.poll hash c) fuel 0 = some (n, r))
      ∧ (∀ m < n, c.status m = .NOT_FOUND)
      ∧ ∀ (cfg : Config) (key : String) (invocation : Invocation) (w w' : World)
          (t : List CallEvent) (r : Except Thrown (String × JsValue)),
          Runs api (invokeAsAdmin cfg key invocation) w t r w' →
          (∀ e ∈ t, ∀ hash, e.call = .awaitTransaction hash → e.env.Confirms c) →
          (∀ hash result, r = .ok (hash, result) →
              (∃ e ∈ t, e.call = .awaitTransaction hash)
                ∧ ∃ returnValue, c.status n = .SUCCESS returnValue
                  ∧ result = returnValue.getD .null)
          ∧ ∀ e ∈ t, ∀ hash, e.call = .awaitTransaction hash →
              (∀ returnValue, c.status n = .SUCCESS returnValue →
                  r = .ok (hash, returnValue.getD .null))
              ∧ (c.status n = .FAILED → r = .error (.error s!"Soroban tx failed: {hash}"))
              ∧ ∀ m, (∀ k ≤ m, c.status k = .NOT_FOUND) → 60000 < c.now m - c.started →
                  r = .error (.error s!"Timed out waiting for tx {hash}") := by
  obtain ⟨n, hn, hreached, -, hends⟩ := poll_ends hadvances
  refine ⟨n, hn, fun hash fuel hle => ?_, fun m hm => (hreached.pending m hm).1, ?_⟩
  · obtain ⟨r, -, hrun⟩ := hends hash
    exact ⟨r, hrun fuel hle⟩
  intro cfg key invocation w w' t r hruns hserves
  rcases invokeAsAdmin_runs hruns with
    ⟨hnothing, err, rfl⟩ | ⟨t₁, w₁, hash, env, hnothing, rfl, hr⟩
  · -- it has thrown before the loop
    refine ⟨fun hash result h => ?_, fun e he hash hcall => ?_⟩
    · cases h
    · exact absurd hcall (hnothing e he hash)
  · obtain ⟨outcome, hexit, -⟩ := hends hash
    have henv : env.Confirms c :=
      hserves ⟨w₁, .awaitTransaction hash, env⟩ (by simp) hash rfl
    -- the loop leaves after `n` polls, and its answer is that of the invocation
    rw [serve_awaitTransaction hn hreached hexit henv] at hr
    refine ⟨fun hash' result hok => ?_, fun e he hash' hcall => ?_⟩
    · -- only the SUCCESS exit gives a result
      rcases poll_inr hexit with ⟨-, -, rfl⟩ | ⟨-, rfl⟩ | ⟨returnValue, hstatus, rfl⟩
      · rw [hok] at hr
        cases hr
      · rw [hok] at hr
        cases hr
      · rw [hok] at hr
        cases hr
        exact ⟨⟨⟨w₁, .awaitTransaction hash, env⟩, by simp, rfl⟩, returnValue, hstatus, rfl⟩
    · rcases List.mem_append.mp he with he | he
      · exact absurd hcall (hnothing e he hash')
      · obtain rfl := List.mem_singleton.mp he
        cases hcall
        exact outcome_honest hreached hexit hr

/-- No answer but NOT_FOUND, with sleeps of 1500 ms. -/
def neverFound : Confirmation where
  status _ := .NOT_FOUND
  started := 0
  now n := 1500 * n

theorem neverFound_advances : neverFound.Advances where
  begins := by decide
  sleeps n := by simp only [neverFound]; omega

/-- The loop as the network serves it. -/
def neverFound.env : Env :=
  Shop.answered 0 (.polled .NOT_FOUND (Shop.day 0) (List.ofFn (fun i : Fin 42 =>
    ⟨⟨1500 * i, by have := i.isLt; unfold maxTimeMs; omega⟩, .NOT_FOUND⟩)))

theorem neverFound_confirms : neverFound.env.Confirms neverFound where
  answers := rfl
  serves := by
    refine ⟨_, _, _, rfl, rfl, rfl, by rw [List.length_ofFn], fun n hn => ?_⟩
    rw [List.getElem_ofFn]
    exact ⟨rfl, rfl⟩

theorem confirmation_honest_neverFound :
    ∃ n, n + 1 ≤ 42 ∧ (∃ r, Loop.run (invokeAsAdmin.poll "tx" neverFound) 42 0 = some (n, r))
      ∧ ∃ t r w', Runs api
          (invokeAsAdmin (Shop.cfg false) "key" ⟨"execute_billing", "ADMIN", "GSUBSCRIBER", 1⟩)
          (Shop.opening Shop.plan) t r w'
        ∧ r = .error (.error "Timed out waiting for tx tx") := by
  obtain ⟨n, hn, hends, -, hhonest⟩ := confirmation_honest neverFound neverFound_advances
  obtain ⟨⟨r, w'⟩, hexec⟩ : ∃ x, exec api
      (invokeAsAdmin (Shop.cfg false) "key" ⟨"execute_billing", "ADMIN", "GSUBSCRIBER", 1⟩)
      [Shop.answered 0 .account, Shop.answered 0 (.simulated none),
        Shop.answered 0 (.accepted "tx" none), neverFound.env] (Shop.opening Shop.plan)
      = some x := ⟨_, rfl⟩
  have hruns := exec_runs hexec
  rw [show execTrace api _ _ _ = [⟨_, .getAccount "ADMIN", Shop.answered 0 .account⟩,
    ⟨_, .simulateTransaction _, Shop.answered 0 (.simulated none)⟩,
    ⟨_, .sendTransaction "key" _, Shop.answered 0 (.accepted "tx" none)⟩,
    ⟨_, .awaitTransaction "tx", neverFound.env⟩] from rfl] at hruns
  obtain ⟨-, hrest⟩ := hhonest _ _ _ _ _ _ _ hruns (fun e he hash hcall => by
    rcases he with _ | ⟨_, _ | ⟨_, _ | ⟨_, _ | ⟨_, ⟨⟩⟩⟩⟩⟩
    · cases hcall
    · cases hcall
    · cases hcall
    · exact neverFound_confirms)
  obtain ⟨-, -, hlate⟩ := hrest ⟨_, .awaitTransaction "tx", neverFound.env⟩
    (.tail _ (.tail _ (.tail _ (.head _)))) "tx" rfl
  exact ⟨n, hn, hends "tx" 42 le_rfl, _, r, w', hruns, hlate 41 (fun _ _ => rfl) (by decide)⟩

end Sorobill
