/-
  Sorobill.Library.Pool
  ─────────────────────
  **INTERLEAVED EXECUTIONS.**

  Any number of executions share one world.  A step starts an execution,
  serves the pending call of one of them, or lets the world drift on its own.
  Each execution carries a view, folded over its own calls, so that a
  condition on interleavings can say where the other executions are.

    • `Pool.Step`, `Pool.Run` — steps and runs under a condition on the
      served calls;
    • `Discipline` — an invariant over the world and the views of all
      executions in flight, with what every step may do to the world;
    • `Discipline.run` — **the rely–guarantee rule**: executions that are
      `Safe` one by one keep the invariant along every interleaving;
    • `Pool.Run.keeps`, `Pool.Run.frame` — what every call keeps, or relates,
      in every interleaving;
    • `Discipline.run_stopping` — the rely–guarantee rule when executions may
      be stopped between two calls;
    • `Pool.Moves.honours`, `Pool.Moves.frame` — what each execution honours by
      itself it honours in every interleaving, and what follows for the world;
    • `Pool.Moves.viewed` — what is remembered of executions decides nothing;
    • `Pool.advance` — executable interleavings and their soundness.
-/
import Sorobill.Library.Contract
import Mathlib.Logic.Relation

namespace Effect

/-! ## §1. Systems and pools. -/

/-- The operations that may be executed, the programs they execute, and the
changes of the world that no execution makes. -/
structure System (I : Interface) (W Env Op σ : Type) where
  backend : Backend I W Env
  body : Op → Prog I Unit
  view : Op → σ
  track : σ → Event I W Env → σ
  enabled : W → Op → Prop
  drift : W → W → Prop

/-- An execution in flight. -/
structure Thread (I : Interface) (σ : Type) where
  view : σ
  code : Prog I Unit

structure Pool (I : Interface) (W σ : Type) where
  world : W
  threads : List (Thread I σ)

variable {I : Interface} {W Env Op σ : Type}

/-- An execution is in flight while it awaits a call. -/
def inFlight (v : σ) : Prog I Unit → List (Thread I σ)
  | .call c next => [⟨v, .call c next⟩]
  | _ => []

def views (ts : List (Thread I σ)) : List σ := ts.map (·.view)

@[simp] theorem views_nil : views ([] : List (Thread I σ)) = [] := rfl

@[simp] theorem views_cons (t : Thread I σ) (ts : List (Thread I σ)) :
    views (t :: ts) = t.view :: views ts := rfl

@[simp] theorem views_append (ts us : List (Thread I σ)) :
    views (ts ++ us) = views ts ++ views us := List.map_append

/-- The others are in the pool. -/
theorem mem_others {pre post : List σ} {u v : σ} (h : u ∈ pre ++ post) : u ∈ pre ++ v :: post :=
  ((List.sublist_cons_self v post).append_left pre).subset h

/-- A condition on a served call: the view of the execution that makes it,
the views of the others, and the call. -/
abbrev Condition (I : Interface) (W Env σ : Type) : Type :=
  σ → List σ → Event I W Env → Prop

/-- Every served call is allowed. -/
def anyone : Condition I W Env σ := fun _ _ _ => True

/-- One step of the pool, the served calls meeting `allow`. -/
inductive Pool.Step (S : System I W Env Op σ) (allow : Condition I W Env σ) :
    Pool I W σ → Pool I W σ → Prop where
  | start {w ts} (op : Op) : S.enabled w op →
      Pool.Step S allow ⟨w, ts⟩ ⟨w, ts ++ inFlight (S.view op) (S.body op)⟩
  | act {w pre post v c next} (env : Env) :
      allow v (views pre ++ views post) ⟨w, c, env⟩ →
      Pool.Step S allow ⟨w, pre ++ ⟨v, .call c next⟩ :: post⟩
        ⟨(S.backend.serve c env w).2,
          pre ++ inFlight (S.track v ⟨w, c, env⟩) (next (S.backend.serve c env w).1)
            ++ post⟩
  | drift {w w' ts} : S.drift w w' → Pool.Step S allow ⟨w, ts⟩ ⟨w', ts⟩

/-- Runs of the pool. -/
abbrev Pool.Run (S : System I W Env Op σ) (allow : Condition I W Env σ) :
    Pool I W σ → Pool I W σ → Prop :=
  Relation.ReflTransGen (Pool.Step S allow)

/-! ## §2. The rely–guarantee rule. -/

variable {S : System I W Env Op σ} {allow : Condition I W Env σ}

/-- What one execution may assume and has to guarantee. -/
def interference (S : System I W Env Op σ) (allow : Condition I W Env σ)
    (inv : W → List σ → Prop) (rely : W → W → Prop) : Contract S.backend σ where
  rely := rely
  assume v e := ∃ pre post, inv e.before (pre ++ v :: post) ∧ allow v (pre ++ post) e
  guarantee v e := rely e.before (e.after S.backend)
    ∧ ∀ pre post, inv e.before (pre ++ v :: post) → allow v (pre ++ post) e →
        inv (e.after S.backend) (pre ++ S.track v e :: post)
  track := S.track

/-- An invariant of the pool, with its side conditions. -/
structure Discipline (S : System I W Env Op σ) (allow : Condition I W Env σ) where
  inv : W → List σ → Prop
  rely : W → W → Prop
  /-- The views an execution may end with. -/
  ended : σ → Prop
  rely_refl : ∀ w, rely w w
  rely_trans : ∀ a b c, rely a b → rely b c → rely a c
  start : ∀ w vs op, inv w vs → S.enabled w op →
    inv w (vs ++ [S.view op])
      ∧ Safe (interference S allow inv rely) (S.body op) (fun _ _ v => ended v) w (S.view op)
  leave : ∀ w pre v post, ended v → inv w (pre ++ v :: post) → inv w (pre ++ post)
  drift : ∀ w w' vs, S.drift w w' → inv w vs → inv w' vs ∧ rely w w'

namespace Discipline

variable (D : Discipline S allow)

/-- The contract of the discipline. -/
abbrev contract : Contract S.backend σ := interference S allow D.inv D.rely

/-- The invariant holds and every execution in flight is safe. -/
def Sound (P : Pool I W σ) : Prop :=
  D.inv P.world (views P.threads)
    ∧ ∀ t ∈ P.threads, Safe D.contract t.code (fun _ _ v => D.ended v) P.world t.view

variable {D}

/-- Safety is stable under what the other executions may do. -/
theorem safe_stable {p : Prog I Unit} {w w' : W} {v : σ} (hr : D.rely w w')
    (h : Safe D.contract p (fun _ _ v => D.ended v) w v) :
    Safe D.contract p (fun _ _ v => D.ended v) w' v := by
  cases p with
  | done a => exact h
  | fail e => exact h
  | call c next =>
      -- `rely` is transitive: the pending call cannot tell one change from two
      intro w'' env hr' ha
      exact h w'' env (D.rely_trans _ _ _ hr hr') ha

/-- An execution that has ended leaves the pool. -/
theorem inFlight_sound {p : Prog I Unit} {w : W} {v : σ} {pre post : List (Thread I σ)}
    (hinv : D.inv w (views pre ++ v :: views post))
    (hp : Safe D.contract p (fun _ _ v => D.ended v) w v)
    (hts : ∀ t ∈ pre ++ post, Safe D.contract t.code (fun _ _ v => D.ended v) w t.view) :
    D.Sound ⟨w, pre ++ inFlight v p ++ post⟩ := by
  cases p with
  | done a =>
      refine ⟨?_, by simpa [inFlight] using hts⟩
      simpa [inFlight] using D.leave w _ v _ hp hinv
  | fail e =>
      refine ⟨?_, by simpa [inFlight] using hts⟩
      simpa [inFlight] using D.leave w _ v _ hp hinv
  | call c next =>
      refine ⟨by simpa [inFlight] using hinv, ?_⟩
      intro t ht
      simp only [inFlight, List.append_assoc, List.cons_append, List.nil_append,
        List.mem_append, List.mem_cons] at ht
      rcases ht with ht | rfl | ht
      · exact hts t (List.mem_append_left _ ht)
      · exact hp
      · exact hts t (List.mem_append_right _ ht)

/-- One step keeps the pool sound and moves the world as `rely` admits. -/
theorem step {P P' : Pool I W σ} (h : Pool.Step S allow P P') (hs : D.Sound P) :
    D.Sound P' ∧ D.rely P.world P'.world := by
  obtain ⟨hinv, hts⟩ := hs
  cases h with
  | start op hen =>
      obtain ⟨hinv', hsafe⟩ := D.start _ _ op hinv hen
      refine ⟨?_, D.rely_refl _⟩
      -- an operation without any call starts and leaves at once
      have hsound : D.Sound ⟨_, _ ++ inFlight _ _ ++ []⟩ :=
        inFlight_sound hinv' hsafe (by simpa using hts)
      simpa using hsound
  | @act w pre post v c next env hallow =>
      have hinv₀ : D.inv w (views pre ++ v :: views post) := by simpa using hinv
      -- the execution that is served keeps the invariant by its own contract
      have hme := hts ⟨v, .call c next⟩ (by simp)
      obtain ⟨⟨hrely, hkeep⟩, hnext⟩ :=
        hme w env (D.rely_refl w) ⟨_, _, hinv₀, hallow⟩
      refine ⟨inFlight_sound (hkeep _ _ hinv₀ hallow) hnext ?_, hrely⟩
      -- the others have seen a change that `rely` admits
      intro t ht
      refine safe_stable hrely (hts t ?_)
      rcases List.mem_append.mp ht with ht | ht
      · exact List.mem_append_left _ ht
      · exact List.mem_append_right _ (List.mem_cons_of_mem _ ht)
  | drift hd =>
      obtain ⟨hinv', hrely⟩ := D.drift _ _ _ hd hinv
      exact ⟨⟨hinv', fun t ht => safe_stable hrely (hts t ht)⟩, hrely⟩

/-- **The invariant holds along every interleaving.** -/
theorem run {P P' : Pool I W σ} (h : Pool.Run S allow P P') (hs : D.Sound P) :
    D.Sound P' ∧ D.rely P.world P'.world := by
  induction h with
  | refl => exact ⟨hs, D.rely_refl _⟩
  | tail _ hstep ih =>
      obtain ⟨hs', hr⟩ := ih
      obtain ⟨hs'', hr'⟩ := step hstep hs'
      exact ⟨hs'', D.rely_trans _ _ _ hr hr'⟩

/-- A pool without executions is sound as soon as the invariant holds. -/
theorem sound_idle {w : W} (h : D.inv w []) : D.Sound ⟨w, []⟩ :=
  ⟨h, fun t ht => by cases ht⟩

end Discipline

/-- The discipline of a condition on the world that every call of a footprint
keeps. -/
def Discipline.keeping {J : W → Prop} {F : I.Call → Prop}
    (hcalls : ∀ op, Calls S.backend F (S.body op))
    (hcall : ∀ e : Event I W Env, F e.call → J e.before → J (e.after S.backend))
    (hdrift : ∀ w w', S.drift w w' → J w → J w') : Discipline S allow where
  inv w _ := J w
  rely _ _ := True
  ended _ := True
  rely_refl _ := trivial
  rely_trans _ _ _ _ _ := trivial
  start w vs op hinv _ := by
    refine ⟨hinv, ?_⟩
    exact safe_frame (C := interference S allow (fun w _ => J w) (fun _ _ => True))
      (R := fun _ _ => True) (fun _ _ _ => trivial) (fun _ => trivial) (fun _ _ _ _ _ => trivial)
      (fun _ e he _ => ⟨⟨trivial, fun _ _ h _ => hcall e he h⟩, trivial⟩) (hcalls op)
  leave _ _ _ _ _ h := h
  drift w w' _ hd h := ⟨hdrift w w' hd h, trivial⟩

/-- **What every call keeps holds in every interleaving.** -/
theorem Pool.Run.keeps {J : W → Prop} {F : I.Call → Prop}
    (hcalls : ∀ op, Calls S.backend F (S.body op))
    (hcall : ∀ e : Event I W Env, F e.call → J e.before → J (e.after S.backend))
    (hdrift : ∀ w w', S.drift w w' → J w → J w') {w₀ : W} {P : Pool I W σ}
    (h : Pool.Run S allow ⟨w₀, []⟩ P) (hJ : J w₀) : J P.world :=
  (Discipline.run (D := .keeping hcalls hcall hdrift) h (Discipline.sound_idle hJ)).1.1

/-- What every served call and every drift relates is related along a run. -/
theorem Pool.Run.frame {R : W → W → Prop} (hrefl : ∀ w, R w w)
    (htrans : ∀ a b c, R a b → R b c → R a c)
    (hcall : ∀ e : Event I W Env, R e.before (e.after S.backend))
    (hdrift : ∀ w w', S.drift w w' → R w w') {P P' : Pool I W σ}
    (h : Pool.Run S allow P P') : R P.world P'.world := by
  induction h with
  | refl => exact hrefl _
  | tail _ hstep ih =>
      refine htrans _ _ _ ih ?_
      cases hstep with
      | start op _ => exact hrefl _
      | @act w pre post v c next env _ => exact hcall ⟨w, c, env⟩
      | drift hd => exact hdrift _ _ hd

/-! ## §3. Executions that are stopped. -/

/-- A step of the pool, or the end of an execution that stops at its pending
call, its view meeting `mayStop`. -/
inductive Pool.Move (S : System I W Env Op σ) (allow : Condition I W Env σ)
    (mayStop : σ → Prop) : Pool I W σ → Pool I W σ → Prop where
  | step {P P'} : Pool.Step S allow P P' → Pool.Move S allow mayStop P P'
  | stop {w pre t post} : mayStop t.view →
      Pool.Move S allow mayStop ⟨w, pre ++ t :: post⟩ ⟨w, pre ++ post⟩

/-- Runs in which executions may be stopped. -/
abbrev Pool.Moves (S : System I W Env Op σ) (allow : Condition I W Env σ)
    (mayStop : σ → Prop) : Pool I W σ → Pool I W σ → Prop :=
  Relation.ReflTransGen (Pool.Move S allow mayStop)

theorem Pool.Run.moves {mayStop : σ → Prop} {P P' : Pool I W σ} (h : Pool.Run S allow P P') :
    Pool.Moves S allow mayStop P P' :=
  Relation.ReflTransGen.mono (fun _ _ hstep => Pool.Move.step hstep) _ _ h

/-- **The invariant holds along every run whose executions stop only with a
view they may end with.** -/
theorem Discipline.run_stopping {D : Discipline S allow} {P P' : Pool I W σ}
    (h : Pool.Moves S allow D.ended P P') (hs : D.Sound P) : D.Sound P' := by
  induction h with
  | refl => exact hs
  | tail _ hmove ih =>
      cases hmove with
      | step hstep => exact (step hstep ih).1
      | @stop w pre t post hended =>
          obtain ⟨hinv, hts⟩ := ih
          refine ⟨?_, fun u hu => hts u ?_⟩
          · rw [views_append, views_cons] at hinv
            rw [views_append]
            exact D.leave w _ t.view _ hended hinv
          · rcases List.mem_append.mp hu with hu | hu
            · exact List.mem_append_left _ hu
            · exact List.mem_append_right _ (List.mem_cons_of_mem _ hu)

/-! ## §4. Contracts of single executions. -/

section Honouring

variable {C : Contract S.backend σ} {mayStop : σ → Prop}

/-- **Executions honour, in every interleaving, what they honour whatever the
world does**: a contract that relies on nothing and assumes no more than the
condition on the run. -/
theorem Pool.Moves.honours (hrely : ∀ a b, C.rely a b)
    (hassume : ∀ v vs e, allow v vs e → C.assume v e) (htrack : C.track = S.track)
    (hstart : ∀ w op, Safe C (S.body op) (fun _ _ _ => True) w (S.view op)) {w₀ : W}
    {P : Pool I W σ} (h : Pool.Moves S allow mayStop ⟨w₀, []⟩ P) :
    ∀ t ∈ P.threads, ∀ w, Safe C t.code (fun _ _ _ => True) w t.view := by
  have hflight : ∀ {v : σ} {p : Prog I Unit} {w : W}, Safe C p (fun _ _ _ => True) w v →
      ∀ t ∈ inFlight v p, ∀ w, Safe C t.code (fun _ _ _ => True) w t.view := by
    intro v p w hp t ht w'
    cases p with
    | done a => cases ht
    | fail e => cases ht
    | call c next =>
        rw [List.mem_singleton.mp ht]
        exact hp.anywhere hrely
  induction h with
  | refl => exact fun t ht => by cases ht
  | tail _ hmove ih =>
      cases hmove with
      | stop _ =>
          intro t ht
          rcases List.mem_append.mp ht with ht | ht
          · exact ih t (List.mem_append_left _ ht)
          · exact ih t (List.mem_append_right _ (List.mem_cons_of_mem _ ht))
      | step hstep =>
          cases hstep with
          | @start w ts op hen =>
              intro t ht
              rcases List.mem_append.mp ht with ht | ht
              · exact ih t ht
              · exact hflight (hstart w op) t ht
          | @act w pre post v c next env hallow =>
              intro t ht
              have hme := ih ⟨v, .call c next⟩ (by simp)
              rcases List.mem_append.mp ht with ht | ht
              · rcases List.mem_append.mp ht with ht | ht
                · exact ih t (List.mem_append_left _ ht)
                · -- the execution that was served goes on
                  have hnext := (hme w w env (hrely _ _) (hassume _ _ _ hallow)).2
                  rw [htrack] at hnext
                  exact hflight hnext t ht
              · exact ih t (List.mem_append_right _ (List.mem_cons_of_mem _ ht))
          | drift hd => exact ih

theorem Pool.Run.honours (hrely : ∀ a b, C.rely a b)
    (hassume : ∀ v vs e, allow v vs e → C.assume v e) (htrack : C.track = S.track)
    (hstart : ∀ w op, Safe C (S.body op) (fun _ _ _ => True) w (S.view op)) {w₀ : W}
    {P : Pool I W σ} (h : Pool.Run S allow ⟨w₀, []⟩ P) :
    ∀ t ∈ P.threads, ∀ w, Safe C t.code (fun _ _ _ => True) w t.view := by
  have hmoves : Pool.Moves S allow (fun _ => True) ⟨w₀, []⟩ P := h.moves
  exact hmoves.honours hrely hassume htrack hstart

/-- **What every honoured call and every drift relates** is related along a
run. -/
theorem Pool.Moves.frame {R : W → W → Prop} (hrely : ∀ a b, C.rely a b)
    (hassume : ∀ v vs e, allow v vs e → C.assume v e) (htrack : C.track = S.track)
    (hstart : ∀ w op, Safe C (S.body op) (fun _ _ _ => True) w (S.view op))
    (hrefl : ∀ w, R w w) (htrans : ∀ a b c, R a b → R b c → R a c)
    (hcall : ∀ v vs e, allow v vs e → C.guarantee v e → R e.before (e.after S.backend))
    (hdrift : ∀ w w', S.drift w w' → R w w') {w₀ : W} {P P' : Pool I W σ}
    (h : Pool.Moves S allow mayStop ⟨w₀, []⟩ P) (h' : Pool.Moves S allow mayStop P P') :
    R P.world P'.world := by
  induction h' with
  | refl => exact hrefl _
  | tail hpath hmove ih =>
      refine htrans _ _ _ ih ?_
      cases hmove with
      | stop _ => exact hrefl _
      | step hstep =>
          cases hstep with
          | start op _ => exact hrefl _
          | @act w pre post v c next env hallow =>
              have hme := Pool.Moves.honours hrely hassume htrack hstart (h.trans hpath)
                ⟨v, .call c next⟩ (by simp)
              exact hcall v _ ⟨w, c, env⟩ hallow
                (hme w w env (hrely _ _) (hassume _ _ _ hallow)).1
          | drift hd => exact hdrift _ _ hd

end Honouring

/-! ## §5. Other views. -/

/-- The same system, with something else remembered of each execution. -/
def System.viewed {τ : Type} (S : System I W Env Op σ) (view : Op → τ)
    (track : τ → Event I W Env → τ) : System I W Env Op τ :=
  { S with view, track }

/-- The programs in flight. -/
def codes {τ : Type} (ts : List (Thread I τ)) : List (Prog I Unit) := ts.map (·.code)

theorem codes_append {τ : Type} (ts us : List (Thread I τ)) :
    codes (ts ++ us) = codes ts ++ codes us := List.map_append

/-- What is in flight does not depend on the view. -/
theorem codes_inFlight {τ : Type} (v : σ) (u : τ) (p : Prog I Unit) :
    codes (inFlight v p) = codes (inFlight u p) := by
  cases p <;> rfl

/-- A list of executions is split where its programs are. -/
theorem codes_eq_append_cons {τ : Type} {ts : List (Thread I τ)} {pre post : List (Prog I Unit)}
    {p : Prog I Unit} (h : codes ts = pre ++ p :: post) :
    ∃ us u vs, ts = us ++ ⟨u, p⟩ :: vs ∧ codes us = pre ∧ codes vs = post := by
  obtain ⟨us, rest, rfl, rfl, hrest⟩ := List.map_eq_append_iff.mp h
  obtain ⟨⟨u, _⟩, vs, rfl, rfl, rfl⟩ := List.map_eq_cons_iff.mp hrest
  exact ⟨us, u, vs, rfl, rfl, rfl⟩

section Views

variable {τ : Type} {view : Op → τ} {track : τ → Event I W Env → τ} {P P' : Pool I W σ}

theorem Pool.Step.viewed (h : Pool.Step S anyone P P') {ts : List (Thread I τ)}
    (hts : codes ts = codes P.threads) :
    ∃ ts', Pool.Step (S.viewed view track) anyone ⟨P.world, ts⟩ ⟨P'.world, ts'⟩
      ∧ codes ts' = codes P'.threads := by
  cases h with
  | @start w us op henabled =>
      refine ⟨_, .start op henabled, ?_⟩
      rw [codes_append, codes_append, hts]
      exact congrArg _ (codes_inFlight _ _ _)
  | @act w pre post v c next env _ =>
      have hcodes : codes (pre ++ ⟨v, .call c next⟩ :: post)
          = codes pre ++ .call c next :: codes post := codes_append _ _
      obtain ⟨us, u, vs, rfl, hpre, hpost⟩ := codes_eq_append_cons (hts.trans hcodes)
      refine ⟨_, .act env trivial, ?_⟩
      rw [codes_append, codes_append, codes_append, codes_append, hpre, hpost]
      exact congrArg (codes pre ++ · ++ codes post) (codes_inFlight _ _ _)
  | drift hdrift => exact ⟨ts, .drift hdrift, hts⟩

/-- **What is remembered of executions decides nothing**: a run under one view is
a run under every other. -/
theorem Pool.Moves.viewed (view : Op → τ) (track : τ → Event I W Env → τ)
    (h : Pool.Moves S anyone (fun _ => True) P P') {ts : List (Thread I τ)}
    (hts : codes ts = codes P.threads) :
    ∃ ts', Pool.Moves (S.viewed view track) anyone (fun _ => True) ⟨P.world, ts⟩ ⟨P'.world, ts'⟩
      ∧ codes ts' = codes P'.threads := by
  induction h with
  | refl => exact ⟨ts, .refl, hts⟩
  | tail _ hmove ih =>
      obtain ⟨us, hpath, hus⟩ := ih
      cases hmove with
      | step hstep =>
          obtain ⟨vs, hstep', hvs⟩ := hstep.viewed hus
          exact ⟨vs, hpath.tail (.step hstep'), hvs⟩
      | @stop w pre t post _ =>
          have hcodes : codes (pre ++ t :: post) = codes pre ++ t.code :: codes post :=
            codes_append _ _
          obtain ⟨as, a, bs, rfl, hpre, hpost⟩ := codes_eq_append_cons (hus.trans hcodes)
          refine ⟨as ++ bs, hpath.tail (.stop trivial), ?_⟩
          rw [codes_append, codes_append, hpre, hpost]

end Views

/-! ## §6. Executable interleavings. -/

/-- What a scheduler chooses: start an operation, or serve the pending call
of the `i`-th execution in flight. -/
inductive Choice (Op Env : Type) where
  | start (op : Op)
  | act (i : Nat) (env : Env)

/-- Follow one choice; `none` when it is not possible or not allowed. -/
def Pool.choose (S : System I W Env Op σ) [∀ w op, Decidable (S.enabled w op)]
    (ok : σ → List σ → Event I W Env → Bool) :
    Choice Op Env → Pool I W σ → Option (Pool I W σ)
  | .start op, P =>
      if S.enabled P.world op then
        some ⟨P.world, P.threads ++ inFlight (S.view op) (S.body op)⟩
      else none
  | .act i env, P =>
      match P.threads.drop i with
      | ⟨v, .call c next⟩ :: post =>
          let pre := P.threads.take i
          if ok v (views pre ++ views post) ⟨P.world, c, env⟩ then
            let s := S.backend.serve c env P.world
            some ⟨s.2, pre ++ inFlight (S.track v ⟨P.world, c, env⟩) (next s.1) ++ post⟩
          else none
      | _ => none

/-- Follow a list of choices. -/
def Pool.advance (S : System I W Env Op σ) [∀ w op, Decidable (S.enabled w op)]
    (ok : σ → List σ → Event I W Env → Bool) :
    List (Choice Op Env) → Pool I W σ → Option (Pool I W σ)
  | [], P => some P
  | c :: cs, P => (Pool.choose S ok c P).bind (Pool.advance S ok cs)

section Soundness

variable [∀ w op, Decidable (S.enabled w op)] {ok : σ → List σ → Event I W Env → Bool}

theorem Pool.choose_step (hok : ∀ v vs e, ok v vs e = true → allow v vs e)
    {c : Choice Op Env} {P P' : Pool I W σ} (h : Pool.choose S ok c P = some P') :
    Pool.Step S allow P P' := by
  obtain ⟨w, ts⟩ := P
  cases c with
  | start op =>
      simp only [Pool.choose] at h
      split at h
      next hen =>
        cases h
        exact .start op hen
      next => cases h
  | act i env =>
      simp only [Pool.choose] at h
      split at h
      next v c next post hdrop =>
        split at h
        next hallow =>
          cases h
          -- the `i`-th execution splits the list as the step wants it
          have hts : ts = ts.take i ++ ⟨v, .call c next⟩ :: post := by
            rw [← hdrop, List.take_append_drop]
          have hstep : Pool.Step S allow ⟨w, ts.take i ++ ⟨v, .call c next⟩ :: post⟩ _ :=
            .act env (hok _ _ _ hallow)
          rwa [← hts] at hstep
        next => cases h
      next => cases h

/-- What the executable interleaving reaches is reached by a run. -/
theorem Pool.advance_run (hok : ∀ v vs e, ok v vs e = true → allow v vs e)
    {cs : List (Choice Op Env)} :
    ∀ {P P' : Pool I W σ}, Pool.advance S ok cs P = some P' → Pool.Run S allow P P' := by
  induction cs with
  | nil =>
      intro P P' h
      cases h
      exact .refl
  | cons c cs ih =>
      intro P P' h
      obtain ⟨P₁, h₁, h₂⟩ := Option.bind_eq_some_iff.mp h
      exact .head (Pool.choose_step hok h₁) (ih h₂)

end Soundness

end Effect
