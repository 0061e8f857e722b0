/-
  Sorobill.Library.Interruption
  ─────────────────────────────
  **ONE EXECUTION THAT OTHERS INTERRUPT.**

  Between the calls of a program the world changes: as a relation admits
  (`Interrupted`), or as the other executions of a pool change it (`Amid`).

    • `Safe.of_interrupted` — what a contract gives for an interrupted
      execution, its trace and its result;
    • `Safe.traced` — a view that keeps every event is the trace of one;
    • `Pool.Run.beside` — the steps of a pool are steps of a larger one;
    • `Pool.Amid.reached` — every world in which a program amid a pool makes
      a call is reached by the pool with that program in it;
    • `History.interleaved` — a sequential history is an interleaving of its
      operations, each alone in the pool.
-/
import Sorobill.Library.History
import Sorobill.Library.Pool
import Mathlib.Data.List.Perm.Basic

namespace Effect

/-! ## §1. Interrupted executions. -/

variable {I : Interface} {W Env Op σ : Type} {B : Backend I W Env} {β : Type}

/-- Execution of a program that others interrupt between its calls; they
change the world as `R` admits. -/
inductive Interrupted (B : Backend I W Env) (R : W → W → Prop) :
    Prog I β → W → List (Event I W Env) → Except I.Error β → W → Prop where
  | done {a w w'} : R w w' → Interrupted B R (.done a) w [] (.ok a) w'
  | fail {e w w'} : R w w' → Interrupted B R (.fail e) w [] (.error e) w'
  | call {c next w w₁ t r w'} (env : Env) : R w w₁ →
      Interrupted B R (next (B.serve c env w₁).1) (B.serve c env w₁).2 t r w' →
      Interrupted B R (.call c next) w (⟨w₁, c, env⟩ :: t) r w'

/-- An uninterrupted execution is one. -/
theorem Runs.interrupted {R : W → W → Prop} (hrefl : ∀ w, R w w) {p : Prog I β} {w w' : W}
    {t : List (Event I W Env)} {r : Except I.Error β} (h : Runs B p w t r w') :
    Interrupted B R p w t r w' := by
  induction h with
  | done => exact .done (hrefl _)
  | fail => exact .fail (hrefl _)
  | call env _ ih => exact .call env (hrefl _) ih

/-- The others may do more before the first call. -/
theorem Interrupted.sooner {R : W → W → Prop} (htrans : ∀ a b c, R a b → R b c → R a c)
    {p : Prog I β} {w w₁ w' : W} {t : List (Event I W Env)} {r : Except I.Error β}
    (h : Interrupted B R p w₁ t r w') (hw : R w w₁) : Interrupted B R p w t r w' := by
  cases h with
  | done hr => exact .done (htrans _ _ _ hw hr)
  | fail hr => exact .fail (htrans _ _ _ hw hr)
  | call env hr hrest => exact .call env (htrans _ _ _ hw hr) hrest

/-- **A contract holds of interrupted executions.** -/
theorem Safe.of_interrupted {C : Contract B σ} {p : Prog I β} {Q : Post I W σ β} {w w' : W}
    {t : List (Event I W Env)} {r : Except I.Error β} (h : Interrupted B C.rely p w t r w') :
    ∀ {v}, Safe C p Q w v → Assumed C v t →
      Guaranteed C v t ∧ ∃ w₁, C.rely w₁ w' ∧ Q r w₁ (t.foldl C.track v) := by
  induction h with
  | done hr => exact fun hs _ => ⟨trivial, _, hr, hs⟩
  | fail hr => exact fun hs _ => ⟨trivial, _, hr, hs⟩
  | call env hr _ ih =>
      intro v hs ha
      obtain ⟨hg, hn⟩ := hs _ env hr ha.1
      obtain ⟨hgs, hQ⟩ := ih hn ha.2
      exact ⟨⟨hg, hgs⟩, hQ⟩

/-- **A view that keeps every event** ends with the trace of the execution. -/
theorem Safe.traced {τ : Type} {C : Contract B (τ × List (Event I W Env))}
    (htrack : ∀ v e, C.track v e = (v.1, v.2 ++ [e])) (hrefl : ∀ w, C.rely w w) {p : Prog I β}
    {Q : Post I W (τ × List (Event I W Env)) β} : ∀ {w : W} {v}, Safe C p Q w v →
      Safe C p (fun r w' v' => Q r w' v'
        ∧ ∃ t, v' = (v.1, v.2 ++ t) ∧ Interrupted B C.rely p w t r w') w v := by
  induction p with
  | done a => exact fun h => ⟨h, [], by simp, .done (hrefl _)⟩
  | fail e => exact fun h => ⟨h, [], by simp, .fail (hrefl _)⟩
  | call c next ih =>
      intro w v h w' env hr ha
      obtain ⟨hg, hn⟩ := h w' env hr ha
      refine ⟨hg, (ih _ hn).mono (fun r w'' v'' hpost => ?_)⟩
      obtain ⟨hQ, t, hv, hrun⟩ := hpost
      refine ⟨hQ, ⟨w', c, env⟩ :: t, ?_, .call env hr hrun⟩
      rw [hv, htrack, List.append_assoc]
      rfl

/-! ## §2. An execution amid a pool. -/

/-- Execution of a program while the other executions of a pool take any
number of steps between its calls. -/
inductive Pool.Amid (S : System I W Env Op σ) :
    Prog I Unit → Pool I W σ → List (Event I W Env) → Except I.Error Unit → Pool I W σ → Prop where
  | done {a P} : Pool.Amid S (.done a) P [] (.ok a) P
  | fail {e P} : Pool.Amid S (.fail e) P [] (.error e) P
  | call {c next P P₁ t r P'} (env : Env) : Pool.Run S anyone P P₁ →
      Pool.Amid S (next (S.backend.serve c env P₁.world).1)
        ⟨(S.backend.serve c env P₁.world).2, P₁.threads⟩ t r P' →
      Pool.Amid S (.call c next) P (⟨P₁.world, c, env⟩ :: t) r P'

variable {S : System I W Env Op σ}

/-- An uninterrupted execution is one. -/
theorem Runs.amid {p : Prog I Unit} {w w' : W} {t : List (Event I W Env)}
    {r : Except I.Error Unit} (h : Runs S.backend p w t r w') (ts : List (Thread I σ)) :
    Pool.Amid S p ⟨w, ts⟩ t r ⟨w', ts⟩ := by
  induction h with
  | done => exact .done
  | fail => exact .fail
  | call env _ ih => exact .call env .refl ih

theorem Pool.Amid.interrupted {p : Prog I Unit} {P P' : Pool I W σ} {t : List (Event I W Env)}
    {r : Except I.Error Unit} (h : Pool.Amid S p P t r P') :
    Interrupted S.backend (fun _ _ => True) p P.world t r P'.world := by
  induction h with
  | done => exact .done trivial
  | fail => exact .fail trivial
  | call env _ _ ih => exact .call env trivial ih

/-- A step of a pool is a step of any pool that has more executions. -/
theorem Pool.Step.beside {P P' : Pool I W σ} (h : Pool.Step S anyone P P')
    {xs ts : List (Thread I σ)} (hts : ts.Perm (xs ++ P.threads)) :
    ∃ ts', ts'.Perm (xs ++ P'.threads)
      ∧ Pool.Step S anyone ⟨P.world, ts⟩ ⟨P'.world, ts'⟩ := by
  cases h with
  | @start w us op hen =>
      -- both pools take the new execution at their end
      refine ⟨_, ?_, .start op hen⟩
      rw [← List.append_assoc]
      exact hts.append_right _
  | @act w pre post v c next env _ =>
      have hmem : (⟨v, .call c next⟩ : Thread I σ) ∈ ts := hts.mem_iff.mpr (by simp)
      obtain ⟨pre', post', rfl⟩ := List.append_of_mem hmem
      -- without that execution the two pools still agree up to their order
      have hrest : (pre' ++ post').Perm (xs ++ (pre ++ post)) := by
        refine (List.perm_cons ⟨v, .call c next⟩).mp (List.perm_middle.symm.trans (hts.trans ?_))
        rw [← List.append_assoc, ← List.append_assoc]
        exact List.perm_middle
      refine ⟨_, ?_, .act env trivial⟩
      generalize inFlight (S.track v ⟨w, c, env⟩) (next (S.backend.serve c env w).1) = new
      calc (pre' ++ new ++ post').Perm (new ++ (pre' ++ post')) := by
            rw [← List.append_assoc]
            exact List.perm_append_comm.append_right post'
        _ |>.Perm (new ++ (xs ++ (pre ++ post))) := hrest.append_left new
        _ |>.Perm (xs ++ (pre ++ new ++ post)) := by
            simp only [← List.append_assoc]
            apply List.Perm.append_right post
            rw [List.append_assoc new xs pre]
            exact List.perm_append_comm
  | @drift w w' us hd => exact ⟨ts, hts, .drift hd⟩

theorem Pool.Run.beside {P P' : Pool I W σ} (h : Pool.Run S anyone P P')
    {xs ts : List (Thread I σ)} (hts : ts.Perm (xs ++ P.threads)) :
    ∃ ts', ts'.Perm (xs ++ P'.threads)
      ∧ Pool.Run S anyone ⟨P.world, ts⟩ ⟨P'.world, ts'⟩ := by
  induction h with
  | refl => exact ⟨ts, hts, .refl⟩
  | tail _ hstep ih =>
      obtain ⟨ts₁, hts₁, hrun⟩ := ih
      obtain ⟨ts₂, hts₂, hstep'⟩ := hstep.beside hts₁
      exact ⟨ts₂, hts₂, hrun.tail hstep'⟩

/-- **A program amid a pool is an execution of the pool**: the worlds in which
it makes its calls are reached by the pool that has it in flight. -/
theorem Pool.Amid.reached {p : Prog I Unit} {P P' : Pool I W σ} {t : List (Event I W Env)}
    {r : Except I.Error Unit} (h : Pool.Amid S p P t r P') :
    ∀ {v : σ} {ts : List (Thread I σ)}, ts.Perm (inFlight v p ++ P.threads) →
      ∀ e ∈ t, ∃ Q, Pool.Run S anyone ⟨P.world, ts⟩ Q ∧ Q.world = e.before := by
  induction h with
  | done => exact fun _ e he => (nomatch he)
  | fail => exact fun _ e he => (nomatch he)
  | @call c next P P₁ t r P' env hrun _ ih =>
      intro v ts hts e he
      -- first the others run, with the program waiting among them
      obtain ⟨ts₁, hts₁, hrun₁⟩ := hrun.beside hts
      rcases List.mem_cons.mp he with rfl | he
      · exact ⟨_, hrun₁, rfl⟩
      · -- then its call is served, a step of the pool
        have hmem : (⟨v, .call c next⟩ : Thread I σ) ∈ ts₁ :=
          hts₁.mem_iff.mpr List.mem_cons_self
        obtain ⟨pre, post, rfl⟩ := List.append_of_mem hmem
        have hrest : (pre ++ post).Perm P₁.threads :=
          (List.perm_cons _).mp (List.perm_middle.symm.trans hts₁)
        have hstep : Pool.Step S anyone ⟨P₁.world, pre ++ ⟨v, .call c next⟩ :: post⟩
            ⟨(S.backend.serve c env P₁.world).2,
              pre ++ inFlight (S.track v ⟨P₁.world, c, env⟩)
                (next (S.backend.serve c env P₁.world).1) ++ post⟩ :=
          .act env trivial
        have hts₂ : (pre ++ inFlight (S.track v ⟨P₁.world, c, env⟩)
              (next (S.backend.serve c env P₁.world).1) ++ post).Perm
            (inFlight (S.track v ⟨P₁.world, c, env⟩)
              (next (S.backend.serve c env P₁.world).1) ++ P₁.threads) := by
          rw [List.append_assoc]
          exact (List.perm_append_comm_assoc pre _ post).trans (hrest.append_left _)
        obtain ⟨Q, hQ, hworld⟩ := ih hts₂ e he
        exact ⟨Q, (hrun₁.tail hstep).trans hQ, hworld⟩

/-! ## §3. Histories as interleavings. -/

variable {α : Type}

/-- The operations of a sequential system, to be interleaved. -/
def Serial.system (S : Serial I W Env Op α) (view : Op → σ) (track : σ → Event I W Env → σ) :
    System I W Env Op σ where
  backend := S.backend
  body op := (fun _ => ()) <$> S.body op
  view
  track
  enabled := S.enabled
  drift := S.drift

/-- The condition holds of every call of an execution that is alone. -/
def Alone (allow : Condition I W Env σ) (track : σ → Event I W Env → σ) :
    σ → List (Event I W Env) → Prop
  | _, [] => True
  | v, e :: t => allow v [] e ∧ Alone allow track (track v e) t

/-- An execution alone in the pool. -/
theorem Runs.alone {allow : Condition I W Env σ} {p : Prog I Unit} {w w' : W}
    {t : List (Event I W Env)} {r : Except I.Error Unit} (h : Runs S.backend p w t r w') :
    ∀ {v : σ}, Alone allow S.track v t → Pool.Run S allow ⟨w, inFlight v p⟩ ⟨w', []⟩ := by
  induction h with
  | done => exact fun _ => .refl
  | fail => exact fun _ => .refl
  | @call c next w t r w' env _ ih =>
      intro v halone
      have hstep : Pool.Step S allow ⟨w, [] ++ ⟨v, .call c next⟩ :: []⟩
          ⟨(S.backend.serve c env w).2, [] ++ inFlight (S.track v ⟨w, c, env⟩)
            (next (S.backend.serve c env w).1) ++ []⟩ :=
        .act env halone.1
      rw [List.append_nil] at hstep
      exact .head hstep (ih halone.2)

/-- **A history is an interleaving.** -/
theorem History.interleaved {S : Serial I W Env Op α} {view : Op → σ}
    {track : σ → Event I W Env → σ} {allow : Condition I W Env σ}
    {may : List (Execution I W Env Op α) → Execution I W Env Op α → Prop} {w w' : W}
    {xs : List (Execution I W Env Op α)} (h : History S may w xs w')
    (halone : ∀ past x, may past x → Alone allow track (view x.op) x.trace) :
    Pool.Run (S.system view track) allow ⟨w, []⟩ ⟨w', []⟩ := by
  induction h with
  | start => exact .refl
  | @execute xs x _ hof hmay ih =>
      obtain ⟨henabled, hruns⟩ := hof
      have hstart : Pool.Step (S.system view track) allow ⟨x.before, []⟩
          ⟨x.before, [] ++ inFlight (view x.op) ((fun _ => ()) <$> S.body x.op)⟩ :=
        .start x.op henabled
      -- the reply is dropped
      have hbody : ∃ r, Runs S.backend ((fun _ => ()) <$> S.body x.op) x.before x.trace r
          x.after := by
        cases hr : x.reply with
        | error e =>
            rw [hr] at hruns
            exact ⟨_, runs_bind_iff.mpr (.inl ⟨e, rfl, hruns⟩)⟩
        | ok a =>
            rw [hr] at hruns
            exact ⟨_, runs_bind_iff.mpr
              (.inr ⟨a, _, _, [], (List.append_nil _).symm, hruns, .done⟩)⟩
      obtain ⟨r, hbody⟩ := hbody
      exact (ih.tail hstart).trans
        (Runs.alone (S := S.system view track) hbody (halone _ _ hmay))
  | drift _ hd ih => exact ih.tail (.drift hd)

end Effect
