/-
  Sorobill.Library.Program
  ────────────────────────
  **EFFECTFUL PROGRAMS AS CALL TREES, AND THEIR SEQUENTIAL RUNS.**

  An asynchronous program is a tree: it ends with a value, ends with an
  error, or awaits ONE call and continues with the reply (an answer or a
  rejection).  What a call does to the outside world is not part of the
  program; a `Backend` serves calls against a world state, with everything
  the outside decides (the clock, a rejection, a remote outcome) taken from
  an environment value.

    • `Prog` — call trees, with `bind`, `throw` and `tryCatch` (so that
      `do` blocks with early `throw` and `try … catch` read as source text);
    • `Runs` — uninterrupted execution, with the trace of served calls;
    • `runs_bind_iff`, `runs_tryCatch_iff` — the inversion rules;
    • `Runs.always`, `Runs.origin` — what each event keeps or brings about,
      for the whole run;
    • `exec` — the executable counterpart and its soundness;
    • `Prog.embed` — a program as one of an interface with further calls.
-/
import Mathlib.Logic.Basic

namespace Effect

/-! ## §1. Interfaces and call trees. -/

/-- The calls a program may await, what each is answered with, and the
errors it may throw. -/
structure Interface where
  Call : Type
  Reply : Call → Type
  Error : Type

/-- The reply to a call: an answer, or the error it rejects with. -/
abbrev Interface.Response (I : Interface) (c : I.Call) : Type :=
  Except I.Error (I.Reply c)

/-- A program over the interface `I` that yields an `α`. -/
inductive Prog (I : Interface) (α : Type) : Type where
  /-- The program has returned `a`. -/
  | done (a : α)
  /-- The program has thrown `e`. -/
  | fail (e : I.Error)
  /-- The program awaits the call `c` and continues with the response. -/
  | call (c : I.Call) (next : I.Response c → Prog I α)

namespace Prog

variable {I : Interface} {α β γ : Type}

/-- Sequential composition; an error of the first part skips the second. -/
protected def bind : Prog I α → (α → Prog I β) → Prog I β
  | .done a, f => f a
  | .fail e, _ => .fail e
  | .call c next, f => .call c (fun r => (next r).bind f)

/-- `try p catch e => h e`. -/
protected def tryCatch : Prog I α → (I.Error → Prog I α) → Prog I α
  | .done a, _ => .done a
  | .fail e, h => h e
  | .call c next, h => .call c (fun r => (next r).tryCatch h)

instance : Monad (Prog I) where
  pure := .done
  bind := Prog.bind

instance : MonadExceptOf I.Error (Prog I) where
  throw := .fail
  tryCatch := Prog.tryCatch

/-- Await a single call: its answer is the value, its rejection is thrown. -/
def perform (c : I.Call) : Prog I (I.Reply c) :=
  .call c (fun
    | .ok a => .done a
    | .error e => .fail e)

/-- An expression that may throw, and awaits nothing. -/
def evaluate : Except I.Error α → Prog I α
  | .ok a => .done a
  | .error e => .fail e

/-- `for (const a of as) await f(a)`. -/
def forEach : List α → (α → Prog I Unit) → Prog I Unit
  | [], _ => .done ()
  | a :: as, f => (f a).bind (fun _ => forEach as f)

@[simp] theorem pure_eq (a : α) : (pure a : Prog I α) = .done a := rfl

@[simp] theorem throw_eq (e : I.Error) : (throw e : Prog I α) = .fail e := rfl

@[simp] theorem throwThe_eq (e : I.Error) :
    (throwThe I.Error e : Prog I α) = .fail e := rfl

@[simp] theorem done_bind (a : α) (f : α → Prog I β) :
    (Prog.done a >>= f) = f a := rfl

@[simp] theorem fail_bind (e : I.Error) (f : α → Prog I β) :
    ((Prog.fail e : Prog I α) >>= f) = .fail e := rfl

@[simp] theorem call_bind (c : I.Call) (next : I.Response c → Prog I α)
    (f : α → Prog I β) :
    (Prog.call c next >>= f) = .call c (fun r => next r >>= f) := rfl

theorem bind_bind {γ : Type} (p : Prog I α) (f : α → Prog I β) (g : β → Prog I γ) :
    (p >>= f >>= g) = (p >>= fun a => f a >>= g) := by
  induction p with
  | done a => rfl
  | fail e => rfl
  | call c next ih =>
      rw [call_bind, call_bind, call_bind]
      congr 1
      funext r
      exact ih r

@[simp] theorem forEach_nil (f : α → Prog I Unit) : forEach [] f = .done () := rfl

@[simp] theorem forEach_cons (a : α) (as : List α) (f : α → Prog I Unit) :
    forEach (a :: as) f = (f a >>= fun _ => forEach as f) := rfl

@[simp] theorem tryCatch_done (a : α) (h : I.Error → Prog I α) :
    tryCatch (Prog.done a) h = .done a := rfl

@[simp] theorem tryCatch_fail (e : I.Error) (h : I.Error → Prog I α) :
    tryCatch (Prog.fail e : Prog I α) h = h e := rfl

@[simp] theorem tryCatch_call (c : I.Call) (next : I.Response c → Prog I α)
    (h : I.Error → Prog I α) :
    tryCatch (Prog.call c next) h
      = .call c (fun r => tryCatch (next r) h) := rfl

end Prog

/-! ## §2. Backends and sequential runs. -/

/-- Serving calls: a response and the world after it, given what the
environment decides. -/
structure Backend (I : Interface) (W Env : Type) where
  serve : (c : I.Call) → Env → W → I.Response c × W

/-- One served call, with the world it was served in. -/
structure Event (I : Interface) (W Env : Type) where
  before : W
  call : I.Call
  env : Env

variable {I : Interface} {W Env : Type} {α β : Type}

/-- The response an event was answered with. -/
def Event.response (B : Backend I W Env) (e : Event I W Env) :
    I.Response e.call :=
  (B.serve e.call e.env e.before).1

/-- The call was answered with an error. -/
def Event.fails (B : Backend I W Env) (e : Event I W Env) : Bool :=
  match e.response B with
  | .ok _ => false
  | .error _ => true

theorem Event.fails_of_error {B : Backend I W Env} {c : I.Call} {env : Env} {w : W} {err : I.Error}
    (h : (B.serve c env w).1 = .error err) : (⟨w, c, env⟩ : Event I W Env).fails B = true := by
  unfold Event.fails Event.response
  rw [h]

theorem Event.fails_of_ok {B : Backend I W Env} {c : I.Call} {env : Env} {w : W} {a : I.Reply c}
    (h : (B.serve c env w).1 = .ok a) : (⟨w, c, env⟩ : Event I W Env).fails B = false := by
  unfold Event.fails Event.response
  rw [h]

/-- The world after an event. -/
def Event.after (B : Backend I W Env) (e : Event I W Env) : W :=
  (B.serve e.call e.env e.before).2

/-- **Uninterrupted execution.**  `Runs B p w t r w'`: started in `w`, the
program `p` makes the calls of the trace `t`, ends with `r` and leaves `w'`. -/
inductive Runs (B : Backend I W Env) :
    Prog I α → W → List (Event I W Env) → Except I.Error α → W → Prop where
  | done {a w} : Runs B (.done a) w [] (.ok a) w
  | fail {e w} : Runs B (.fail e) w [] (.error e) w
  | call {c next w t r w'} (env : Env) :
      Runs B (next (B.serve c env w).1) (B.serve c env w).2 t r w' →
      Runs B (.call c next) w (⟨w, c, env⟩ :: t) r w'

variable {B : Backend I W Env}

/-! ## §3. Inversion rules. -/

@[simp] theorem runs_done_iff {a : α} {w w' : W} {t : List (Event I W Env)}
    {r : Except I.Error α} :
    Runs B (.done a) w t r w' ↔ t = [] ∧ r = .ok a ∧ w' = w := by
  constructor
  · intro h
    cases h
    exact ⟨rfl, rfl, rfl⟩
  · intro h
    obtain ⟨rfl, rfl, rfl⟩ := h
    exact .done

@[simp] theorem runs_fail_iff {e : I.Error} {w w' : W}
    {t : List (Event I W Env)} {r : Except I.Error α} :
    Runs B (.fail e) w t r w' ↔ t = [] ∧ r = .error e ∧ w' = w := by
  constructor
  · intro h
    cases h
    exact ⟨rfl, rfl, rfl⟩
  · intro h
    obtain ⟨rfl, rfl, rfl⟩ := h
    exact .fail

theorem runs_call_iff {c : I.Call} {next : I.Response c → Prog I α}
    {w w' : W} {t : List (Event I W Env)} {r : Except I.Error α} :
    Runs B (.call c next) w t r w'
      ↔ ∃ env t', t = ⟨w, c, env⟩ :: t'
          ∧ Runs B (next (B.serve c env w).1) (B.serve c env w).2 t' r w' := by
  constructor
  · intro h
    cases h with
    | call env h => exact ⟨env, _, rfl, h⟩
  · intro h
    obtain ⟨env, t', rfl, h⟩ := h
    exact .call env h

/-- A single call: its response is the result. -/
theorem runs_perform_iff {c : I.Call} {w w' : W} {t : List (Event I W Env)}
    {r : I.Response c} :
    Runs B (Prog.perform c) w t r w'
      ↔ ∃ env, t = [⟨w, c, env⟩] ∧ r = (B.serve c env w).1 ∧ w' = (B.serve c env w).2 := by
  constructor
  · intro h
    obtain ⟨env, t', rfl, h'⟩ := runs_call_iff.mp h
    cases hr : (B.serve c env w).1 with
    | ok a =>
        rw [hr] at h'
        obtain ⟨rfl, rfl, rfl⟩ := runs_done_iff.mp h'
        exact ⟨env, rfl, hr.symm, rfl⟩
    | error e =>
        rw [hr] at h'
        obtain ⟨rfl, rfl, rfl⟩ := runs_fail_iff.mp h'
        exact ⟨env, rfl, hr.symm, rfl⟩
  · intro h
    obtain ⟨env, rfl, rfl, rfl⟩ := h
    refine .call env ?_
    cases (B.serve c env w).1 with
    | ok a => exact .done
    | error e => exact .fail

/-- **Sequencing splits a run**: the first part throws, or it returns and
the second part runs on from there. -/
theorem runs_bind_iff {p : Prog I α} {f : α → Prog I β} :
    ∀ {w w' : W} {t : List (Event I W Env)} {r : Except I.Error β},
      Runs B (p >>= f) w t r w'
        ↔ (∃ e, r = .error e ∧ Runs B p w t (.error e) w')
          ∨ ∃ a w₁ t₁ t₂, t = t₁ ++ t₂ ∧ Runs B p w t₁ (.ok a) w₁
              ∧ Runs B (f a) w₁ t₂ r w' := by
  induction p with
  | done a =>
      intro w w' t r
      constructor
      · intro h
        exact .inr ⟨a, w, [], t, rfl, .done, h⟩
      · intro h
        rcases h with ⟨e, -, h⟩ | ⟨a', w₁, t₁, t₂, rfl, h₁, h₂⟩
        · -- a program that has returned does not throw
          simp at h
        · obtain ⟨rfl, ha, rfl⟩ := runs_done_iff.mp h₁
          cases ha
          exact h₂
  | fail e =>
      intro w w' t r
      constructor
      · intro h
        obtain ⟨rfl, rfl, rfl⟩ := runs_fail_iff.mp h
        exact .inl ⟨e, rfl, .fail⟩
      · intro h
        rcases h with ⟨e', rfl, h⟩ | ⟨a', w₁, t₁, t₂, rfl, h₁, h₂⟩
        · obtain ⟨rfl, he, rfl⟩ := runs_fail_iff.mp h
          cases he
          exact .fail
        · -- a program that has thrown does not return
          simp at h₁
  | call c next ih =>
      intro w w' t r
      constructor
      · intro h
        obtain ⟨env, t', rfl, h'⟩ := runs_call_iff.mp h
        -- the first call belongs to the first part, whatever that part ends with
        rcases (ih _).mp h' with ⟨e, rfl, he⟩ | ⟨a, w₁, t₁, t₂, rfl, h₁, h₂⟩
        · exact .inl ⟨e, rfl, .call env he⟩
        · exact .inr ⟨a, w₁, ⟨w, c, env⟩ :: t₁, t₂, rfl, .call env h₁, h₂⟩
      · intro h
        rcases h with ⟨e, rfl, h⟩ | ⟨a, w₁, t₁, t₂, rfl, h₁, h₂⟩
        · obtain ⟨env, t', rfl, h'⟩ := runs_call_iff.mp h
          exact .call env ((ih _).mpr (.inl ⟨e, rfl, h'⟩))
        · obtain ⟨env, t', rfl, h'⟩ := runs_call_iff.mp h₁
          exact .call env ((ih _).mpr (.inr ⟨a, w₁, t', t₂, rfl, h', h₂⟩))

/-- **A call and what follows**: it throws and nothing follows, or the rest
goes on with its answer. -/
theorem runs_perform_bind {c : I.Call} {f : I.Reply c → Prog I α} {w w' : W}
    {t : List (Event I W Env)} {r : Except I.Error α}
    (h : Runs B (Prog.perform c >>= f) w t r w') :
    ∃ env, (∃ err, (B.serve c env w).1 = .error err ∧ t = [⟨w, c, env⟩] ∧ r = .error err
        ∧ w' = (B.serve c env w).2)
      ∨ ∃ a t', (B.serve c env w).1 = .ok a ∧ t = ⟨w, c, env⟩ :: t'
          ∧ Runs B (f a) (B.serve c env w).2 t' r w' := by
  rcases runs_bind_iff.mp h with ⟨err, hr, hcall⟩ | ⟨a, w₁, t₁, t₂, rfl, hcall, hrest⟩
  · obtain ⟨env, rfl, herr, hw⟩ := runs_perform_iff.mp hcall
    exact ⟨env, .inl ⟨err, herr.symm, rfl, hr, hw⟩⟩
  · obtain ⟨env, rfl, ha, rfl⟩ := runs_perform_iff.mp hcall
    exact ⟨env, .inr ⟨a, t₂, ha.symm, rfl, hrest⟩⟩

/-- What is mapped has run. -/
theorem Runs.of_map {f : α → β} {p : Prog I α} {w w' : W} {t : List (Event I W Env)}
    {r : Except I.Error β} (h : Runs B (f <$> p) w t r w') : ∃ r', Runs B p w t r' w' := by
  rcases runs_bind_iff.mp h with ⟨err, -, h⟩ | ⟨a, w₁, t₁, t₂, rfl, h₁, h₂⟩
  · exact ⟨_, h⟩
  · obtain ⟨rfl, -, rfl⟩ := runs_done_iff.mp h₂
    rw [List.append_nil]
    exact ⟨_, h₁⟩

/-- **`try … catch` splits a run**: the body returns, or it throws and the
handler runs on from there. -/
theorem runs_tryCatch_iff {p : Prog I α} {h : I.Error → Prog I α} :
    ∀ {w w' : W} {t : List (Event I W Env)} {r : Except I.Error α},
      Runs B (tryCatch p h) w t r w'
        ↔ (∃ a, r = .ok a ∧ Runs B p w t (.ok a) w')
          ∨ ∃ e w₁ t₁ t₂, t = t₁ ++ t₂ ∧ Runs B p w t₁ (.error e) w₁
              ∧ Runs B (h e) w₁ t₂ r w' := by
  induction p with
  | done a =>
      intro w w' t r
      constructor
      · intro hr
        obtain ⟨rfl, rfl, rfl⟩ := runs_done_iff.mp hr
        exact .inl ⟨a, rfl, .done⟩
      · intro h
        rcases h with ⟨a', rfl, hr⟩ | ⟨e, w₁, t₁, t₂, rfl, h₁, h₂⟩
        · obtain ⟨rfl, ha, rfl⟩ := runs_done_iff.mp hr
          cases ha
          exact .done
        · simp at h₁
  -- the handler takes over where the program fails
  | fail e =>
      intro w w' t r
      constructor
      · intro hr
        exact .inr ⟨e, w, [], t, rfl, .fail, hr⟩
      · intro h
        rcases h with ⟨a, -, hr⟩ | ⟨e', w₁, t₁, t₂, rfl, h₁, h₂⟩
        · simp at hr
        · obtain ⟨rfl, he, rfl⟩ := runs_fail_iff.mp h₁
          cases he
          exact h₂
  -- a call comes before either
  | call c next ih =>
      intro w w' t r
      constructor
      · intro hr
        obtain ⟨env, t', rfl, h'⟩ := runs_call_iff.mp hr
        rcases (ih _).mp h' with ⟨a, rfl, ha⟩ | ⟨e, w₁, t₁, t₂, rfl, h₁, h₂⟩
        · exact .inl ⟨a, rfl, .call env ha⟩
        · exact .inr ⟨e, w₁, ⟨w, c, env⟩ :: t₁, t₂, rfl, .call env h₁, h₂⟩
      · intro h
        rcases h with ⟨a, rfl, hr⟩ | ⟨e, w₁, t₁, t₂, rfl, h₁, h₂⟩
        · obtain ⟨env, t', rfl, h'⟩ := runs_call_iff.mp hr
          exact .call env ((ih _).mpr (.inl ⟨a, rfl, h'⟩))
        · obtain ⟨env, t', rfl, h'⟩ := runs_call_iff.mp h₁
          exact .call env ((ih _).mpr (.inr ⟨e, w₁, t', t₂, rfl, h', h₂⟩))

theorem Runs.bind {p : Prog I α} {f : α → Prog I β} {w w₁ w' : W} {t₁ t₂ : List (Event I W Env)}
    {a : α} {r : Except I.Error β} (h₁ : Runs B p w t₁ (.ok a) w₁)
    (h₂ : Runs B (f a) w₁ t₂ r w') : Runs B (p >>= f) w (t₁ ++ t₂) r w' :=
  runs_bind_iff.mpr (.inr ⟨a, w₁, t₁, t₂, rfl, h₁, h₂⟩)

theorem Runs.tryCatch {p : Prog I α} {h : I.Error → Prog I α} {w w' : W}
    {t : List (Event I W Env)} {a : α} (hp : Runs B p w t (.ok a) w') :
    Runs B (tryCatch p h) w t (.ok a) w' :=
  runs_tryCatch_iff.mpr (.inl ⟨a, rfl, hp⟩)

/-- A program all of whose errors are caught returns. -/
theorem runs_caught {p : Prog I α} {a : α} {w w' : W} {t : List (Event I W Env)}
    {r : Except I.Error α} (h : Runs B (tryCatch p (fun _ => pure a)) w t r w') :
    ∃ b, r = .ok b := by
  rcases runs_tryCatch_iff.mp h with ⟨b, rfl, -⟩ | ⟨e, w₁, t₁, t₂, -, -, hpure⟩
  · exact ⟨b, rfl⟩
  · obtain ⟨-, rfl, -⟩ := runs_done_iff.mp hpure
    exact ⟨a, rfl⟩

/-- What each event keeps holds before every event and at the end. -/
theorem Runs.always {P : W → Prop} {p : Prog I α} {w w' : W} {t : List (Event I W Env)}
    {r : Except I.Error α} (h : Runs B p w t r w') (hw : P w)
    (hstep : ∀ e ∈ t, P e.before → P (e.after B)) : (∀ e ∈ t, P e.before) ∧ P w' := by
  induction h with
  | done => exact ⟨fun e he => (nomatch he), hw⟩
  | fail => exact ⟨fun e he => (nomatch he), hw⟩
  | call env _ ih =>
      obtain ⟨ht, hw'⟩ := ih (hstep _ List.mem_cons_self hw)
        (fun e he => hstep e (List.mem_cons_of_mem _ he))
      refine ⟨fun e he => ?_, hw'⟩
      rcases List.mem_cons.mp he with rfl | he
      · exact hw
      · exact ht e he

/-- What holds at the end held at the start, or an event has brought it about. -/
theorem Runs.origin {X : W → Prop} {N : Event I W Env → Prop} {p : Prog I α} {w w' : W}
    {t : List (Event I W Env)} {r : Except I.Error α} (h : Runs B p w t r w')
    (hstep : ∀ e ∈ t, X (e.after B) → X e.before ∨ N e) (hX : X w') :
    X w ∨ ∃ e ∈ t, N e := by
  induction h with
  | done => exact .inl hX
  | fail => exact .inl hX
  | @call c next w t r w' env _ ih =>
      rcases ih (fun e he => hstep e (List.mem_cons_of_mem _ he)) hX with h | ⟨e, he, hN⟩
      · -- it held after the first event already
        rcases hstep ⟨w, c, env⟩ List.mem_cons_self h with h | hN
        · exact .inl h
        · exact .inr ⟨_, List.mem_cons_self, hN⟩
      · exact .inr ⟨e, List.mem_cons_of_mem _ he, hN⟩

/-! ## §4. Executable runs. -/

/-- Run `p` on a list of environment values, one for each call; `none` when
the list is too short or too long. -/
def exec (B : Backend I W Env) :
    Prog I α → List Env → W → Option (Except I.Error α × W)
  | .done a, [], w => some (.ok a, w)
  | .fail e, [], w => some (.error e, w)
  | .call c next, env :: envs, w =>
      let s := B.serve c env w
      exec B (next s.1) envs s.2
  | _, _, _ => none

/-- The trace of `exec`. -/
def execTrace (B : Backend I W Env) :
    Prog I α → List Env → W → List (Event I W Env)
  | .call c next, env :: envs, w =>
      let s := B.serve c env w
      ⟨w, c, env⟩ :: execTrace B (next s.1) envs s.2
  | _, _, _ => []

theorem exec_runs {p : Prog I α} :
    ∀ {envs : List Env} {w w' : W} {r : Except I.Error α},
      exec B p envs w = some (r, w') →
      Runs B p w (execTrace B p envs w) r w' := by
  induction p with
  | done a =>
      intro envs w w' r h
      cases envs with
      | nil =>
          simp only [exec, Option.some.injEq, Prod.mk.injEq] at h
          obtain ⟨rfl, rfl⟩ := h
          exact .done
      | cons env envs => simp [exec] at h
  | fail e =>
      intro envs w w' r h
      cases envs with
      | nil =>
          simp only [exec, Option.some.injEq, Prod.mk.injEq] at h
          obtain ⟨rfl, rfl⟩ := h
          exact .fail
      | cons env envs => simp [exec] at h
  | call c next ih =>
      intro envs w w' r h
      cases envs with
      | nil => simp [exec] at h
      | cons env envs => exact .call env (ih _ h)

/-! ## §5. Interfaces with further calls. -/

section Extend

variable {C : Type} {R : C → Type} {Env' : Type}

/-- The replies of `I` and those of further calls. -/
@[reducible] def Interface.extendReply (I : Interface) (R : C → Type) : I.Call ⊕ C → Type
  | .inl c => I.Reply c
  | .inr c => R c

/-- `I` with the calls `C`, which throw the same errors. -/
@[reducible] def Interface.extend (I : Interface) (C : Type) (R : C → Type) : Interface where
  Call := I.Call ⊕ C
  Reply := I.extendReply R
  Error := I.Error

/-- A backend that serves the further calls by `serve`, and the others as `B`
does with its part of the environment. -/
def Backend.extend (B : Backend I W Env) (part : Env' → Env)
    (serve : (c : C) → Env' → W → Except I.Error (R c) × W) :
    Backend (I.extend C R) W Env' where
  serve
    | .inl c, env, w => B.serve c (part env) w
    | .inr c, env, w => serve c env w

/-- A program of `I` makes none of the further calls. -/
def Prog.embed : Prog I α → Prog (I.extend C R) α
  | .done a => .done a
  | .fail e => .fail e
  | .call c next => .call (.inl c) (fun r => (next r).embed)

theorem Prog.embed_perform (c : I.Call) :
    (Prog.perform c).embed (C := C) (R := R) = Prog.perform (I := I.extend C R) (.inl c) := by
  unfold Prog.perform
  rw [Prog.embed]
  congr 1
  funext r
  cases r <;> rfl

theorem Prog.embed_bind (p : Prog I α) (f : α → Prog I β) :
    (p >>= f).embed (C := C) (R := R) = p.embed >>= fun a => (f a).embed := by
  induction p with
  | done a => rfl
  | fail e => rfl
  | call c next ih =>
      rw [Prog.call_bind, Prog.embed, Prog.embed, Prog.call_bind]
      congr 1
      funext r
      exact ih r

theorem Prog.embed_tryCatch (p : Prog I α) (h : I.Error → Prog I α) :
    (tryCatch p h).embed (C := C) (R := R) = tryCatch p.embed (fun e => (h e).embed) := by
  induction p with
  | done a => rfl
  | fail e => rfl
  | call c next ih =>
      rw [Prog.tryCatch_call, Prog.embed, Prog.embed, Prog.tryCatch_call]
      congr 1
      funext r
      exact ih r

end Extend

end Effect
