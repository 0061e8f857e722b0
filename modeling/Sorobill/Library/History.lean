/-
  Sorobill.Library.History
  ────────────────────────
  **SEQUENTIAL HISTORIES: OPERATIONS EXECUTED ONE AFTER THE OTHER.**

  An `Execution` is a program run to its end, with its trace and its reply.
  A history is a list of executions, each of which begins where the one
  before it ended; in between the world may drift.  `allow` restricts which
  execution may follow which past.

    • `History.invariant` — what the start has and every execution and every
      drift preserve holds at the end, for the whole list of executions;
    • `History.each` — what then holds of every execution, after its past;
    • `play`, `play_history` — histories by evaluation.
-/
import Sorobill.Library.Contract

namespace Effect

/-! ## §1. Histories. -/

/-- Operations, and what happens between them. -/
structure Serial (I : Interface) (W Env Op α : Type) where
  backend : Backend I W Env
  body : Op → Prog I α
  enabled : W → Op → Prop
  drift : W → W → Prop

/-- An operation executed to its end. -/
structure Execution (I : Interface) (W Env Op α : Type) where
  op : Op
  before : W
  trace : List (Event I W Env)
  reply : Except I.Error α
  after : W

variable {I : Interface} {W Env Op α : Type}

/-- The execution is one of the system. -/
structure Execution.Of (x : Execution I W Env Op α) (S : Serial I W Env Op α) : Prop where
  enabled : S.enabled x.before x.op
  runs : Runs S.backend (S.body x.op) x.before x.trace x.reply x.after

/-- **Histories**: `History S allow w xs w'`, the executions `xs` lead from
`w` to `w'`. -/
inductive History (S : Serial I W Env Op α)
    (allow : List (Execution I W Env Op α) → Execution I W Env Op α → Prop) :
    W → List (Execution I W Env Op α) → W → Prop where
  | start {w} : History S allow w [] w
  | execute {w xs} (x : Execution I W Env Op α) :
      History S allow w xs x.before → x.Of S → allow xs x →
      History S allow w (xs ++ [x]) x.after
  | drift {w xs w₁ w₂} : History S allow w xs w₁ → S.drift w₁ w₂ → History S allow w xs w₂

variable {S : Serial I W Env Op α}
  {allow : List (Execution I W Env Op α) → Execution I W Env Op α → Prop}

/-- **The invariant rule.** -/
theorem History.invariant {J : List (Execution I W Env Op α) → W → Prop} {w w' : W}
    {xs : List (Execution I W Env Op α)} (h : History S allow w xs w') (hstart : J [] w)
    (hexecute : ∀ xs x, J xs x.before → x.Of S → allow xs x → J (xs ++ [x]) x.after)
    (hdrift : ∀ xs w₁ w₂, J xs w₁ → S.drift w₁ w₂ → J xs w₂) : J xs w' := by
  induction h with
  | start => exact hstart
  | execute x _ hof hallow ih => exact hexecute _ x ih hof hallow
  | drift _ hd ih => exact hdrift _ _ _ ih hd

/-- **What holds of every execution**, given an invariant. -/
theorem History.each {J : List (Execution I W Env Op α) → W → Prop}
    {P : List (Execution I W Env Op α) → Execution I W Env Op α → Prop} {w w' : W}
    {xs : List (Execution I W Env Op α)} (h : History S allow w xs w') (hstart : J [] w)
    (hexecute : ∀ xs x, J xs x.before → x.Of S → allow xs x → P xs x ∧ J (xs ++ [x]) x.after)
    (hdrift : ∀ xs w₁ w₂, J xs w₁ → S.drift w₁ w₂ → J xs w₂) :
    ∀ past x, past ++ [x] <+: xs → P past x := by
  have hboth : (∀ past x, past ++ [x] <+: xs → P past x) ∧ J xs w' := by
    -- the invariant carries what has been shown of the executions so far
    refine h.invariant (J := fun xs w => (∀ past x, past ++ [x] <+: xs → P past x) ∧ J xs w)
      ?_ ?_ ?_
    · exact ⟨fun past x hp => by simp at hp, hstart⟩
    · intro xs y h hof hallow
      obtain ⟨hP, hJ⟩ := h
      obtain ⟨hy, hJ'⟩ := hexecute xs y hJ hof hallow
      refine ⟨fun past x hp => ?_, hJ'⟩
      rcases List.prefix_concat_iff.mp hp with heq | hp
      · -- the prefix ends with the new execution
        obtain ⟨rfl, hx⟩ := List.append_inj' heq rfl
        rw [List.singleton_inj.mp hx]
        exact hy
      · exact hP past x hp
    · intro xs w₁ w₂ h hd
      obtain ⟨hP, hJ⟩ := h
      exact ⟨hP, hdrift xs w₁ w₂ hJ hd⟩
  exact hboth.1

/-- Every execution of a history is one of the system. -/
theorem History.of_mem {w w' : W} {xs : List (Execution I W Env Op α)}
    (h : History S allow w xs w') {x : Execution I W Env Op α} (hx : x ∈ xs) : x.Of S := by
  induction h with
  | start => cases hx
  | execute y _ hof _ ih =>
      rcases List.mem_append.mp hx with hx | hx
      · exact ih hx
      · rw [List.mem_singleton.mp hx]
        exact hof
  | drift _ _ ih => exact ih hx

/-- A history whose executions all meet `P`. -/
theorem History.restrict {P : Execution I W Env Op α → Prop} {w w' : W}
    {xs : List (Execution I W Env Op α)} (h : History S allow w xs w') (hP : ∀ x ∈ xs, P x) :
    History S (fun _ x => P x) w xs w' := by
  induction h with
  | start => exact .start
  | execute x _ hof _ ih =>
      refine .execute x (ih fun y hy => hP y (List.mem_append_left _ hy)) hof (hP x ?_)
      exact List.mem_append_right _ (List.mem_singleton_self x)
  | drift _ hd ih => exact .drift (ih hP) hd

/-! ## §2. Histories by evaluation. -/

/-- Execute an operation on a list of environment values. -/
def Serial.execute (S : Serial I W Env Op α) [∀ w op, Decidable (S.enabled w op)]
    (op : Op) (envs : List Env) (w : W) : Option (Execution I W Env Op α) :=
  if S.enabled w op then
    (exec S.backend (S.body op) envs w).map
      (fun s => ⟨op, w, execTrace S.backend (S.body op) envs w, s.1, s.2⟩)
  else none

/-- Execute operations in turn, after the executions `past`. -/
def Serial.play (S : Serial I W Env Op α) [∀ w op, Decidable (S.enabled w op)]
    (ok : List (Execution I W Env Op α) → Execution I W Env Op α → Bool) :
    List (Op × List Env) → List (Execution I W Env Op α) → W →
      Option (List (Execution I W Env Op α) × W)
  | [], past, w => some (past, w)
  | (op, envs) :: script, past, w =>
      (S.execute op envs w).bind (fun x =>
        if ok past x then S.play ok script (past ++ [x]) x.after else none)

section Soundness

variable [∀ w op, Decidable (S.enabled w op)]
  {ok : List (Execution I W Env Op α) → Execution I W Env Op α → Bool}

theorem Serial.execute_of {op : Op} {envs : List Env} {w : W}
    {x : Execution I W Env Op α} (h : S.execute op envs w = some x) :
    x.before = w ∧ x.Of S := by
  unfold Serial.execute at h
  split at h
  next hen =>
    obtain ⟨⟨r, w'⟩, hrun, rfl⟩ := Option.map_eq_some_iff.mp h
    exact ⟨rfl, hen, exec_runs hrun⟩
  next => cases h

theorem Serial.execute_op {op : Op} {envs : List Env} {w : W}
    {x : Execution I W Env Op α} (h : S.execute op envs w = some x) : x.op = op := by
  unfold Serial.execute at h
  split at h
  · obtain ⟨_, -, rfl⟩ := Option.map_eq_some_iff.mp h
    rfl
  · cases h

/-- What is played is a history. -/
theorem Serial.play_history (hok : ∀ past x, ok past x = true → allow past x) {w₀ : W} :
    ∀ {script : List (Op × List Env)} {past xs : List (Execution I W Env Op α)} {w w' : W},
      History S allow w₀ past w → S.play ok script past w = some (xs, w') →
      History S allow w₀ xs w' := by
  intro script
  induction script with
  | nil =>
      intro past xs w w' hpast h
      cases h
      exact hpast
  | cons s script ih =>
      obtain ⟨op, envs⟩ := s
      intro past xs w w' hpast h
      obtain ⟨x, hx, hrest⟩ := Option.bind_eq_some_iff.mp h
      obtain ⟨rfl, hof⟩ := Serial.execute_of hx
      split at hrest
      next hallow => exact ih (.execute x hpast hof (hok _ _ hallow)) hrest
      next => cases hrest

/-- What is played, and one more execution. -/
theorem Serial.play_execute (hok : ∀ past x, ok past x = true → allow past x) {w₀ w : W}
    {script : List (Op × List Env)} {past : List (Execution I W Env Op α)} {op : Op}
    {envs : List Env} {x : Execution I W Env Op α} (hplay : S.play ok script [] w₀ = some (past, w))
    (hexec : S.execute op envs w = some x) (hx : ok past x = true) :
    History S allow w₀ (past ++ [x]) x.after := by
  obtain ⟨rfl, hof⟩ := Serial.execute_of hexec
  exact .execute x (Serial.play_history hok .start hplay) hof (hok past x hx)

/-- The operations are those of the script. -/
theorem Serial.play_ops :
    ∀ {script : List (Op × List Env)} {past xs : List (Execution I W Env Op α)} {w w' : W},
      S.play ok script past w = some (xs, w') →
      xs.map (·.op) = past.map (·.op) ++ script.map (·.1) := by
  intro script
  induction script with
  | nil =>
      intro past xs w w' h
      cases h
      exact (List.append_nil _).symm
  | cons s script ih =>
      obtain ⟨op, envs⟩ := s
      intro past xs w w' h
      obtain ⟨x, hx, hrest⟩ := Option.bind_eq_some_iff.mp h
      split at hrest
      · rw [ih hrest, List.map_append, List.map_singleton, Serial.execute_op hx,
          List.append_assoc, List.map_cons]
        rfl
      · cases hrest

end Soundness

end Effect
