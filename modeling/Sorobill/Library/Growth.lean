/-
  Sorobill.Library.Growth
  ───────────────────────
  **SYSTEMS WHOSE FACTS ARE NEVER LOST.**

  In a system that never deletes a row and never rewrites a key, what an
  execution has once read stays true whatever the others do.  A `Growth` names
  such facts by a preorder `grows` on worlds, an invariant `valid`, and a
  condition `lawful` on single calls that is enough for one call to respect
  both.  What has to be shown of a program is then only that each call it makes
  is lawful, given what it has learnt before.

    • `Growth`, `Growth.contract` — the condition on calls as a contract;
    • `Growth.safe_call`, `Growth.safe_calls` — the rules for one call and for a
      footprint; sequencing, `try` and loops are those of
      `Sorobill.Library.Contract`;
    • `Growth.safe_translate` — the rule for programs of a smaller interface;
    • `Growth.Sound`, `Growth.moves` — **along every interleaving, with
      executions stopped anywhere, the invariant holds and no fact is lost**;
    • `Growth.move_cases` — a move is nothing to the world, or a drift, or a
      lawful call of an execution in flight;
    • `Growth.steps`, `Growth.relates` — what every lawful call relates, every
      step and every run relates.
-/
import Sorobill.Library.Composition
import Sorobill.Library.Pool

namespace Effect

variable {I : Interface} {W Env Op σ : Type} {α : Type}

/-! ## §1. Lawful calls. -/

/-- An invariant, the changes that lose no fact, and the calls that respect
both; what is lawful may depend on who calls. -/
structure Growth (B : Backend I W Env) (σ : Type) where
  valid : W → Prop
  grows : W → W → Prop
  /-- What is assumed of the outside. -/
  admits : Event I W Env → Prop
  lawful : σ → Event I W Env → Prop
  refl : ∀ w, grows w w
  trans : ∀ a b c, grows a b → grows b c → grows a c
  step : ∀ v e, valid e.before → admits e → lawful v e →
    valid (e.after B) ∧ grows e.before (e.after B)

/-- The execution awaits this call. -/
def Thread.Awaits (t : Thread I σ) (c : I.Call) : Prop := ∃ next, t.code = .call c next

namespace Growth

variable {B : Backend I W Env} (G : Growth B σ)

/-- Each call is lawful, whatever has grown in between. -/
def contract (track : σ → Event I W Env → σ) : Contract B σ where
  rely := G.grows
  assume _ e := G.valid e.before ∧ G.admits e
  guarantee v e := G.lawful v e
  track

variable {G} {track : σ → Event I W Env → σ} {w : W} {v : σ}

/-- A fact that is never lost. -/
def Stable (G : Growth B σ) (K : W → Prop) : Prop := ∀ a b, G.grows a b → K a → K b

/-- **One call**: it is lawful, and the program goes on in a valid world in
which everything known before still holds. -/
theorem safe_call {c : I.Call} {Q : Post I W σ (I.Reply c)}
    (h : ∀ w' env, G.grows w w' → G.valid w' → G.admits ⟨w', c, env⟩ →
      G.lawful v ⟨w', c, env⟩
        ∧ (G.valid (B.serve c env w').2 → G.grows w (B.serve c env w').2 →
            Q (B.serve c env w').1 (B.serve c env w').2 (track v ⟨w', c, env⟩))) :
    Safe (G.contract track) (Prog.perform c) Q w v := by
  refine safe_perform.mpr (fun w' env hr ha => ?_)
  obtain ⟨hlawful, hQ⟩ := h w' env hr ha.1 ha.2
  obtain ⟨hvalid, hgrows⟩ := G.step v ⟨w', c, env⟩ ha.1 ha.2 hlawful
  exact ⟨hlawful, hQ hvalid (G.trans _ _ _ hr hgrows)⟩

/-- **A footprint of calls that are lawful in every valid world** that has
grown from one in which `K` holds, for a view that does not change. -/
theorem safe_calls {F : I.Call → Prop} {K : W → Prop} (hv : ∀ e, track v e = v)
    (hK : G.Stable K)
    (hF : ∀ e : Event I W Env, F e.call → K e.before → G.valid e.before → G.admits e →
      G.lawful v e) {p : Prog I α} :
    ∀ {w : W}, K w → Calls B F p →
      Safe (G.contract track) p (fun _ w' _ => G.grows w w') w v := by
  induction p with
  | done a => exact fun _ _ => G.refl _
  | fail err => exact fun _ _ => G.refl _
  | call c next ih =>
      intro w hw hp w' env hr ha
      have hK' : K w' := hK _ _ hr hw
      have hlawful := hF ⟨w', c, env⟩ hp.1 hK' ha.1 ha.2
      obtain ⟨-, hgrows⟩ := G.step v ⟨w', c, env⟩ ha.1 ha.2 hlawful
      refine ⟨hlawful, ?_⟩
      rw [show (G.contract track).track v ⟨w', c, env⟩ = v from hv _]
      refine (ih _ (hK _ _ hgrows hK') (hp.2 env w')).mono (fun r w'' v'' h => ?_)
      exact G.trans _ _ _ hr (G.trans _ _ _ hgrows h)

/-- The footprint rule for calls that are lawful whatever is known. -/
theorem safe_lawful {F : I.Call → Prop} (hv : ∀ e, track v e = v)
    (hF : ∀ e : Event I W Env, F e.call → G.valid e.before → G.admits e → G.lawful v e)
    {p : Prog I α} (hp : Calls B F p) :
    Safe (G.contract track) p (fun _ w' _ => G.grows w w') w v :=
  safe_calls (K := fun _ => True) hv (fun _ _ _ h => h) (fun e he _ => hF e he) trivial hp

/-- The world at the end has grown from the one at the start. -/
theorem safe_grows {p : Prog I α} {Q : Post I W σ α} :
    ∀ {w : W} {v : σ}, Safe (G.contract track) p Q w v →
      Safe (G.contract track) p (fun r w' v' => Q r w' v' ∧ G.grows w w') w v := by
  induction p with
  | done a => exact fun h => ⟨h, G.refl _⟩
  | fail err => exact fun h => ⟨h, G.refl _⟩
  | call c next ih =>
      intro w v h w' env hr ha
      obtain ⟨hlawful, hn⟩ := h w' env hr ha
      obtain ⟨-, hgrows⟩ := G.step v ⟨w', c, env⟩ ha.1 ha.2 hlawful
      refine ⟨hlawful, (ih _ hn).mono (fun r w'' v'' hQ => ⟨hQ.1, ?_⟩)⟩
      exact G.trans _ _ _ hr (G.trans _ _ _ hgrows hQ.2)

/-- **Lawful in the small, lawful in the large**: a program whose calls are
lawful for the backend of a part makes lawful calls on the whole. -/
theorem safe_translate {J : Interface} {W' Env' : Type} {h : Translation I J}
    {B' : Backend J W' Env'} {G' : Growth B' σ} (m : Implements h B B')
    {track' : σ → Event J W' Env' → σ}
    (hgrows : ∀ a b, G'.grows a b → G.grows (m.world a) (m.world b))
    (hvalid : ∀ w, G'.valid w → G.valid (m.world w))
    (hadmits : ∀ c e w, G'.admits (m.event c e w) → G.admits (m.source c e w))
    (hlawful : ∀ v c e w, G.lawful v (m.source c e w) → G'.lawful v (m.event c e w))
    (htrack : ∀ v c e w, track' v (m.event c e w) = track v (m.source c e w))
    {p : Prog I α} {Q : W → σ → Prop} {w : W'}
    (hp : Safe (G.contract track) p (fun _ w v => Q w v) (m.world w) v) :
    Safe (G'.contract track') (p.translate h) (fun _ w v => Q (m.world w) v) w v := by
  have hassume : ∀ v c e w, (G'.contract track').assume v (m.event c e w) →
      (G.contract track).assume v (m.source c e w) :=
    fun _ c e w ha => ⟨hvalid w ha.1, hadmits c e w ha.2⟩
  have hguarantee : ∀ v c e w, (G'.contract track').assume v (m.event c e w) →
      (G.contract track).guarantee v (m.source c e w) →
      (G'.contract track').guarantee v (m.event c e w) :=
    fun v c e w _ hg => hlawful v c e w hg
  have hrely : ∀ a b, (G'.contract track').rely a b →
      (G.contract track).rely (m.world a) (m.world b) := hgrows
  exact (Safe.translate m hrely hassume hguarantee htrack hp).mono
    (fun _ _ _ ⟨_, _, hQ⟩ => hQ)

/-! ## §2. Interleavings. -/

variable {S : System I W Env Op σ} {G : Growth S.backend σ} {allow : Condition I W Env σ}
  {mayStop : σ → Prop}

/-- The world is valid, and every execution in flight makes lawful calls. -/
def Sound (G : Growth S.backend σ) (P : Pool I W σ) : Prop :=
  G.valid P.world
    ∧ ∀ t ∈ P.threads, Safe (G.contract S.track) t.code (fun _ _ _ => True) P.world t.view

/-- What a system has to do with the growth: its operations make lawful calls,
and what no execution does respects it too. -/
structure Governs (G : Growth S.backend σ) (allow : Condition I W Env σ) : Prop where
  start : ∀ w op, G.valid w → S.enabled w op →
    Safe (G.contract S.track) (S.body op) (fun _ _ _ => True) w (S.view op)
  admits : ∀ v vs e, allow v vs e → G.admits e
  drift : ∀ w w', S.drift w w' → G.valid w → G.valid w' ∧ G.grows w w'

/-- Lawful calls stay lawful when the world grows. -/
theorem safe_grown {p : Prog I Unit} {w w' : W} {v : σ} (hr : G.grows w w')
    (h : Safe (G.contract S.track) p (fun _ _ _ => True) w v) :
    Safe (G.contract S.track) p (fun _ _ _ => True) w' v := by
  cases p with
  | done a => exact trivial
  | fail err => exact trivial
  | call c next =>
      intro w'' env hr' ha
      exact h w'' env (G.trans _ _ _ hr hr') ha

/-- **A served call of a sound pool is lawful.** -/
theorem Sound.served {w : W} {pre post : List (Thread I σ)} {v : σ} {c : I.Call}
    {next : I.Response c → Prog I Unit} {env : Env}
    (hs : G.Sound ⟨w, pre ++ ⟨v, .call c next⟩ :: post⟩) (ha : G.admits ⟨w, c, env⟩) :
    G.lawful v ⟨w, c, env⟩
      ∧ Safe (G.contract S.track) (next (S.backend.serve c env w).1) (fun _ _ _ => True)
          (S.backend.serve c env w).2 (S.track v ⟨w, c, env⟩) :=
  hs.2 ⟨v, .call c next⟩ (by simp) w env (G.refl w) ⟨hs.1, ha⟩

/-- **What an execution is about to call is lawful.** -/
theorem Sound.pending {P : Pool I W σ} {t : Thread I σ} {c : I.Call} (env : Env)
    (hs : G.Sound P) (ht : t ∈ P.threads) (hc : t.Awaits c) (ha : G.admits ⟨P.world, c, env⟩) :
    G.lawful t.view ⟨P.world, c, env⟩ := by
  obtain ⟨v, code⟩ := t
  obtain ⟨next, rfl⟩ := hc
  exact (hs.2 _ ht P.world env (G.refl _) ⟨hs.1, ha⟩).1

theorem sound_inFlight {w : W} {v : σ} {p : Prog I Unit} {ts : List (Thread I σ)}
    (hp : Safe (G.contract S.track) p (fun _ _ _ => True) w v)
    (hts : ∀ t ∈ ts, t ∈ inFlight v p
      ∨ Safe (G.contract S.track) t.code (fun _ _ _ => True) w t.view) :
    ∀ t ∈ ts, Safe (G.contract S.track) t.code (fun _ _ _ => True) w t.view := by
  intro t ht
  rcases hts t ht with ht | ht
  · cases p with
    | done a => cases ht
    | fail err => cases ht
    | call c next =>
        rw [List.mem_singleton.mp ht]
        exact hp
  · exact ht

/-- **One move** keeps the pool sound and loses no fact. -/
theorem move (hG : G.Governs allow) {P P' : Pool I W σ} (h : Pool.Move S allow mayStop P P')
    (hs : G.Sound P) : G.Sound P' ∧ G.grows P.world P'.world := by
  cases h with
  | @stop w pre t post _ =>
      refine ⟨⟨hs.1, fun u hu => hs.2 u ?_⟩, G.refl _⟩
      rcases List.mem_append.mp hu with hu | hu
      · exact List.mem_append_left _ hu
      · exact List.mem_append_right _ (List.mem_cons_of_mem _ hu)
  | step hstep =>
      cases hstep with
      | @start w ts op hen =>
          refine ⟨⟨hs.1, sound_inFlight (hG.start w op hs.1 hen) (fun t ht => ?_)⟩, G.refl _⟩
          rcases List.mem_append.mp ht with ht | ht
          · exact .inr (hs.2 t ht)
          · exact .inl ht
      | @act w pre post v c next env hallow =>
          have hadmits := hG.admits v _ _ hallow
          obtain ⟨hlawful, hnext⟩ : G.lawful v ⟨w, c, env⟩ ∧ _ := hs.served hadmits
          obtain ⟨hvalid, hgrows⟩ := G.step v ⟨w, c, env⟩ hs.1 hadmits hlawful
          refine ⟨⟨hvalid, sound_inFlight hnext (fun t ht => ?_)⟩, hgrows⟩
          -- the others have seen the world grow
          rcases List.mem_append.mp ht with ht | ht
          · rcases List.mem_append.mp ht with ht | ht
            · exact .inr (safe_grown hgrows (hs.2 t (List.mem_append_left _ ht)))
            · exact .inl ht
          · exact .inr (safe_grown hgrows
              (hs.2 t (List.mem_append_right _ (List.mem_cons_of_mem _ ht))))
      | drift hd =>
          obtain ⟨hvalid, hgrows⟩ := hG.drift _ _ hd hs.1
          exact ⟨⟨hvalid, fun t ht => safe_grown hgrows (hs.2 t ht)⟩, hgrows⟩

/-- **The invariant holds in every state that is reached, and no fact is lost on
the way.** -/
theorem moves (hG : G.Governs allow) {P P' : Pool I W σ}
    (h : Pool.Moves S allow mayStop P P') (hs : G.Sound P) :
    G.Sound P' ∧ G.grows P.world P'.world := by
  induction h with
  | refl => exact ⟨hs, G.refl _⟩
  | tail _ hmove ih =>
      obtain ⟨hs', hgrows⟩ := ih
      obtain ⟨hs'', hgrows'⟩ := move hG hmove hs'
      exact ⟨hs'', G.trans _ _ _ hgrows hgrows'⟩

theorem sound_idle {w : W} (h : G.valid w) : G.Sound ⟨w, []⟩ :=
  ⟨h, fun t ht => by cases ht⟩

/-- **What a move is to the world**: nothing, a lawful call of an execution in
flight, or a drift. -/
theorem move_cases (hG : G.Governs allow) {P P' : Pool I W σ} (hs : G.Sound P)
    (h : Pool.Move S allow mayStop P P') :
    P'.world = P.world
      ∨ (∃ t ∈ P.threads, ∃ c env vs, allow t.view vs ⟨P.world, c, env⟩
          ∧ G.lawful t.view ⟨P.world, c, env⟩
          ∧ P'.world = (S.backend.serve c env P.world).2)
      ∨ S.drift P.world P'.world := by
  cases h with
  | stop _ => exact .inl rfl
  | step hstep =>
      cases hstep with
      | start op hen => exact .inl rfl
      | @act w pre post v c next env hallow =>
          have hlawful := (hs.served (hG.admits v _ _ hallow)).1
          exact .inr (.inl ⟨⟨v, .call c next⟩, by simp, c, env, _, hallow, hlawful, rfl⟩)
      | drift hd => exact .inr (.inr hd)

/-- **What every lawful call and every drift relates, every move relates.** -/
theorem steps {R : W → W → Prop} (hG : G.Governs allow) (hrefl : ∀ w, R w w)
    (hcall : ∀ v vs e, allow v vs e → G.valid e.before → G.lawful v e →
      R e.before (e.after S.backend))
    (hdrift : ∀ w w', S.drift w w' → G.valid w → R w w') {P P' : Pool I W σ} (hs : G.Sound P)
    (h : Pool.Move S allow mayStop P P') : R P.world P'.world := by
  rcases move_cases hG hs h with hsame | ⟨t, -, c, env, vs, hallow, hlawful, hafter⟩ | hd
  · rw [hsame]
    exact hrefl _
  · rw [hafter]
    exact hcall t.view vs ⟨P.world, c, env⟩ hallow hs.1 hlawful
  · exact hdrift _ _ hd hs.1

/-- And every run. -/
theorem relates {R : W → W → Prop} (hG : G.Governs allow) (hrefl : ∀ w, R w w)
    (htrans : ∀ a b c, R a b → R b c → R a c)
    (hcall : ∀ v vs e, allow v vs e → G.valid e.before → G.lawful v e →
      R e.before (e.after S.backend))
    (hdrift : ∀ w w', S.drift w w' → G.valid w → R w w') {P P' : Pool I W σ} (hs : G.Sound P)
    (h : Pool.Moves S allow mayStop P P') : R P.world P'.world := by
  induction h with
  | refl => exact hrefl _
  | tail hpath hmove ih =>
      exact htrans _ _ _ ih (steps hG hrefl hcall hdrift (moves hG hpath hs).1 hmove)

end Growth

end Effect
