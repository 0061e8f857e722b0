/-
  Sorobill.Library.Contract
  ─────────────────────────
  **CONTRACTS FOR EFFECTFUL PROGRAMS.**

  A contract says how the world may change between two calls of a program
  (`rely`), what may be assumed of a served call (`assume`), what has to be
  shown of it (`guarantee`), and which view of its own calls the program's
  reader keeps (`track`).  `Safe C p Q w v`: from world `w` and view `v`,
  every call of `p` meets the guarantee, and `p` ends with `Q`.

  The same rules serve uninterrupted runs (`rely` is equality), footprints
  (`rely` is everything) and interleaved runs (`Sorobill.Library.Pool`).

    • `safe_bind`, `safe_tryCatch`, `safe_perform` — one rule for each way of
      building a program;
    • `safe_forEach`, `safe_forEach_left` — the loop rules;
    • `Always`, `always_bind`, … — programs that honour a contract from every
      world and view;
    • `Calls`, `safe_of_calls` — programs known by the calls they make;
    • `Safe.of_runs`, `Safe.of_runs_keeping`, `Safe.of_runs_assuming` — what
      `Safe` says about an uninterrupted run, the last two under an invariant.
-/
import Sorobill.Library.Program

namespace Effect

variable {I : Interface} {W Env σ : Type} {α β : Type}

/-! ## §1. Contracts. -/

structure Contract (B : Backend I W Env) (σ : Type) where
  rely : W → W → Prop
  assume : σ → Event I W Env → Prop
  guarantee : σ → Event I W Env → Prop
  track : σ → Event I W Env → σ

variable {B : Backend I W Env}

/-- What a program may end with. -/
abbrev Post (I : Interface) (W σ α : Type) : Type :=
  Except I.Error α → W → σ → Prop

/-- **The program honours the contract.** -/
def Safe (C : Contract B σ) : Prog I α → Post I W σ α → W → σ → Prop
  | .done a, Q, w, v => Q (.ok a) w v
  | .fail e, Q, w, v => Q (.error e) w v
  | .call c next, Q, w, v =>
      ∀ w' env, C.rely w w' → C.assume v ⟨w', c, env⟩ →
        C.guarantee v ⟨w', c, env⟩
          ∧ Safe C (next (B.serve c env w').1) Q (B.serve c env w').2
              (C.track v ⟨w', c, env⟩)

variable {C : Contract B σ} {w : W} {v : σ}

/-! ## §2. Rules. -/

@[simp] theorem safe_done {a : α} {Q : Post I W σ α} :
    Safe C (.done a) Q w v ↔ Q (.ok a) w v := Iff.rfl

@[simp] theorem safe_pure {a : α} {Q : Post I W σ α} :
    Safe C (pure a) Q w v ↔ Q (.ok a) w v := Iff.rfl

@[simp] theorem safe_fail {e : I.Error} {Q : Post I W σ α} :
    Safe C (.fail e) Q w v ↔ Q (.error e) w v := Iff.rfl

@[simp] theorem safe_throw {e : I.Error} {Q : Post I W σ α} :
    Safe C (throw e) Q w v ↔ Q (.error e) w v := Iff.rfl

@[simp] theorem safe_evaluate {x : Except I.Error α} {Q : Post I W σ α} :
    Safe C (Prog.evaluate x) Q w v ↔ Q x w v := by
  cases x <;> rfl

theorem safe_call {c : I.Call} {next : I.Response c → Prog I α} {Q : Post I W σ α} :
    Safe C (.call c next) Q w v
      ↔ ∀ w' env, C.rely w w' → C.assume v ⟨w', c, env⟩ →
          C.guarantee v ⟨w', c, env⟩
            ∧ Safe C (next (B.serve c env w').1) Q (B.serve c env w').2
                (C.track v ⟨w', c, env⟩) := Iff.rfl

/-- Weakening the postcondition. -/
theorem Safe.mono {p : Prog I α} {Q R : Post I W σ α}
    (h : ∀ r w v, Q r w v → R r w v) :
    ∀ {w v}, Safe C p Q w v → Safe C p R w v := by
  induction p with
  | done a => exact fun hp => h _ _ _ hp
  | fail e => exact fun hp => h _ _ _ hp
  | call c next ih =>
      intro w v hp w' env hr ha
      obtain ⟨hg, hn⟩ := hp w' env hr ha
      exact ⟨hg, ih _ hn⟩

/-- Two postconditions at once. -/
theorem Safe.and {p : Prog I α} {Q R : Post I W σ α} :
    ∀ {w v}, Safe C p Q w v → Safe C p R w v →
      Safe C p (fun r w v => Q r w v ∧ R r w v) w v := by
  induction p with
  | done a => exact fun hQ hR => ⟨hQ, hR⟩
  | fail e => exact fun hQ hR => ⟨hQ, hR⟩
  | call c next ih =>
      intro w v hQ hR w' env hr ha
      exact ⟨(hQ w' env hr ha).1, ih _ (hQ w' env hr ha).2 (hR w' env hr ha).2⟩

/-- A program that honours a contract honours every contract that assumes at
least as much and asks for no more. -/
theorem Safe.weaken {D : Contract B σ} {p : Prog I α} {Q : Post I W σ α} :
    ∀ {w v}, Safe D p Q w v → (∀ a b, C.rely a b → D.rely a b) →
      (∀ v e, C.assume v e → D.assume v e) →
      (∀ v e, C.assume v e → D.guarantee v e → C.guarantee v e) →
      C.track = D.track → Safe C p Q w v := by
  induction p with
  | done a => exact fun hp _ _ _ _ => hp
  | fail e => exact fun hp _ _ _ _ => hp
  | call c next ih =>
      intro w v hp hrely hassume hguar htrack w' env hr ha
      -- `D` allows what `C` does, so the call is one that `D` speaks about
      obtain ⟨hg, hn⟩ := hp w' env (hrely _ _ hr) (hassume _ _ ha)
      refine ⟨hguar _ _ ha hg, ?_⟩
      rw [htrack]
      exact ih _ hn hrely hassume hguar htrack

/-- **Two contracts at once**, each with a view of its own; the second may assume
what the first guarantees. -/
theorem Safe.both {σ' σ'' : Type} {D : Contract B σ'} {E : Contract B σ''} {f : σ → σ'}
    {g : σ → σ''} (hrely : ∀ a b, C.rely a b → D.rely a b ∧ E.rely a b)
    (hassume₁ : ∀ v e, C.assume v e → D.assume (f v) e)
    (hassume₂ : ∀ v e, C.assume v e → D.guarantee (f v) e → E.assume (g v) e)
    (hguar : ∀ v e, D.guarantee (f v) e → E.guarantee (g v) e → C.guarantee v e)
    (htrack : ∀ v e, D.track (f v) e = f (C.track v e) ∧ E.track (g v) e = g (C.track v e))
    {p : Prog I α} {Q₁ : Post I W σ' α} {Q₂ : Post I W σ'' α} :
    ∀ {w v}, Safe D p Q₁ w (f v) → Safe E p Q₂ w (g v) →
      Safe C p (fun r w v => Q₁ r w (f v) ∧ Q₂ r w (g v)) w v := by
  induction p with
  | done a => exact fun h₁ h₂ => ⟨h₁, h₂⟩
  | fail e => exact fun h₁ h₂ => ⟨h₁, h₂⟩
  | call c next ih =>
      intro w v h₁ h₂ w' env hr ha
      obtain ⟨hg₁, hn₁⟩ := h₁ w' env (hrely _ _ hr).1 (hassume₁ _ _ ha)
      obtain ⟨hg₂, hn₂⟩ := h₂ w' env (hrely _ _ hr).2 (hassume₂ _ _ ha hg₁)
      refine ⟨hguar _ _ hg₁ hg₂, ih _ ?_ ?_⟩
      · rw [← (htrack _ _).1]
        exact hn₁
      · rw [← (htrack _ _).2]
        exact hn₂

/-- The postcondition of the first part of a sequence. -/
def andThen (f : α → Prog I β) (C : Contract B σ) (Q : Post I W σ β) : Post I W σ α
  | .ok a, w, v => Safe C (f a) Q w v
  | .error e, w, v => Q (.error e) w v

/-- The postcondition of the body of a `try`. -/
def orElse (h : I.Error → Prog I α) (C : Contract B σ) (Q : Post I W σ α) : Post I W σ α
  | .ok a, w, v => Q (.ok a) w v
  | .error e, w, v => Safe C (h e) Q w v

@[simp] theorem andThen_ok {f : α → Prog I β} {Q : Post I W σ β} {a : α} :
    andThen f C Q (.ok a) w v ↔ Safe C (f a) Q w v := Iff.rfl

@[simp] theorem andThen_error {f : α → Prog I β} {Q : Post I W σ β} {e : I.Error} :
    andThen f C Q (.error e) w v ↔ Q (.error e) w v := Iff.rfl

@[simp] theorem orElse_ok {h : I.Error → Prog I α} {Q : Post I W σ α} {a : α} :
    orElse h C Q (.ok a) w v ↔ Q (.ok a) w v := Iff.rfl

@[simp] theorem orElse_error {h : I.Error → Prog I α} {Q : Post I W σ α} {e : I.Error} :
    orElse h C Q (.error e) w v ↔ Safe C (h e) Q w v := Iff.rfl

/-- **Sequencing.** -/
theorem safe_bind {p : Prog I α} {f : α → Prog I β} {Q : Post I W σ β} :
    ∀ {w v}, Safe C (p >>= f) Q w v ↔ Safe C p (andThen f C Q) w v := by
  induction p with
  | done a => exact Iff.rfl
  | fail e => exact Iff.rfl
  | call c next ih =>
      intro w v
      rw [Prog.call_bind, safe_call, safe_call]
      refine forall₂_congr fun w' env => forall₂_congr fun _ _ => and_congr_right fun _ => ?_
      exact ih _

/-- **`try … catch`.** -/
theorem safe_tryCatch {p : Prog I α} {h : I.Error → Prog I α} {Q : Post I W σ α} :
    ∀ {w v}, Safe C (tryCatch p h) Q w v ↔ Safe C p (orElse h C Q) w v := by
  induction p with
  | done a => exact Iff.rfl
  | fail e => exact Iff.rfl
  | call c next ih =>
      intro w v
      refine forall₂_congr fun w' env => forall₂_congr fun _ _ => and_congr_right fun _ => ?_
      exact ih _

/-- **One awaited call.** -/
theorem safe_perform {c : I.Call} {Q : Post I W σ (I.Reply c)} :
    Safe C (Prog.perform c) Q w v
      ↔ ∀ w' env, C.rely w w' → C.assume v ⟨w', c, env⟩ →
          C.guarantee v ⟨w', c, env⟩
            ∧ Q (B.serve c env w').1 (B.serve c env w').2 (C.track v ⟨w', c, env⟩) := by
  refine forall₂_congr fun w' env => forall₂_congr fun _ _ => and_congr_right fun _ => ?_
  cases (B.serve c env w').1 <;> exact Iff.rfl

/-- One awaited call of a smaller interface. -/
theorem safe_embed_perform {K : Type} {R : K → Type} {B : Backend (I.extend K R) W Env}
    {C : Contract B σ} {c : I.Call} {Q : Post (I.extend K R) W σ (I.Reply c)} :
    Safe C (Prog.perform c).embed Q w v
      ↔ ∀ w' env, C.rely w w' → C.assume v ⟨w', .inl c, env⟩ →
          C.guarantee v ⟨w', .inl c, env⟩
            ∧ Q (B.serve (.inl c) env w').1 (B.serve (.inl c) env w').2
                (C.track v ⟨w', .inl c, env⟩) := by
  rw [Prog.embed_perform]
  exact safe_perform

/-- A program of a smaller interface, whose calls are all guaranteed. -/
theorem safe_embed {K : Type} {R : K → Type} {B : Backend (I.extend K R) W Env}
    {C : Contract B σ} (h : ∀ v (e : Event (I.extend K R) W Env) c, e.call = .inl c →
      C.guarantee v e) {p : Prog I α} :
    ∀ {w : W} {v : σ}, Safe C (p.embed (C := K) (R := R)) (fun _ _ _ => True) w v := by
  induction p with
  | done a => exact trivial
  | fail e => exact trivial
  | call c next ih => exact fun w' env _ _ => ⟨h _ _ c rfl, ih _⟩

theorem safe_map {p : Prog I α} {f : α → β} {Q : Post I W σ β} :
    Safe C (f <$> p) Q w v ↔ Safe C p (andThen (fun a => pure (f a)) C Q) w v :=
  safe_bind

/-- The result of a map. -/
theorem Safe.mapped {p : Prog I α} {f : α → β} {Q : Post I W σ β}
    (h : Safe C p (fun r w v => Q (f <$> r) w v) w v) : Safe C (f <$> p) Q w v := by
  rw [safe_map]
  apply h.mono
  intro r _ _ hQ
  cases r <;> exact hQ

/-- A postcondition that ignores the result survives a map. -/
theorem Safe.map {p : Prog I α} {f : α → β} {Q : W → σ → Prop}
    (h : Safe C p (fun _ w v => Q w v) w v) :
    Safe C (f <$> p) (fun _ w v => Q w v) w v :=
  h.mapped

/-- **Loops**: `J` holds of the rounds that are left, before each round. -/
theorem safe_forEach_left {f : α → Prog I Unit} {Q : Post I W σ Unit}
    (J : List α → W → σ → Prop)
    (hstep : ∀ a as w v, J (a :: as) w v → Safe C (f a)
      (fun r w v => match r with
        | .ok _ => J as w v
        | .error e => Q (.error e) w v) w v)
    (hend : ∀ w v, J [] w v → Q (.ok ()) w v) :
    ∀ {as : List α} {w v}, J as w v → Safe C (Prog.forEach as f) Q w v := by
  intro as
  induction as with
  | nil => exact fun hJ => hend _ _ hJ
  | cons a as ih =>
      intro w v hJ
      rw [Prog.forEach_cons, safe_bind]
      apply (hstep a as w v hJ).mono
      intro r w v hr
      -- a round that throws ends the loop
      cases r with
      | ok _ => exact ih hr
      | error e => exact hr

/-- Loops: `J` holds before each round. -/
theorem safe_forEach {f : α → Prog I Unit} {Q : Post I W σ Unit} (J : W → σ → Prop)
    {as : List α}
    (hstep : ∀ a ∈ as, ∀ w v, J w v → Safe C (f a)
      (fun r w v => match r with
        | .ok _ => J w v
        | .error e => Q (.error e) w v) w v)
    (hend : ∀ w v, J w v → Q (.ok ()) w v) (hJ : J w v) :
    Safe C (Prog.forEach as f) Q w v := by
  refine safe_forEach_left (fun left w v => (∀ a ∈ left, a ∈ as) ∧ J w v) ?_
    (fun w v h => hend w v h.2) ⟨fun _ h => h, hJ⟩
  intro a left w v h
  obtain ⟨hmem, hJ⟩ := h
  apply (hstep a (hmem a List.mem_cons_self) w v hJ).mono
  intro r w v hr
  cases r with
  | ok _ => exact ⟨fun b hb => hmem b (List.mem_cons_of_mem a hb), hr⟩
  | error e => exact hr

/-- A contract that relies on nothing is honoured from any world. -/
theorem Safe.anywhere (hrely : ∀ a b, C.rely a b) {p : Prog I α} {w w' : W} {v : σ}
    (h : Safe C p (fun _ _ _ => True) w v) : Safe C p (fun _ _ _ => True) w' v := by
  cases p with
  | done a => trivial
  | fail e => trivial
  | call c next => exact fun w'' env _ ha => h w'' env (hrely _ _) ha

/-! ## §3. Contracts that are honoured from everywhere. -/

/-- The contract is honoured from every world and view. -/
def Always (C : Contract B σ) (p : Prog I α) : Prop :=
  ∀ w v, Safe C p (fun _ _ _ => True) w v

theorem always_pure {a : α} : Always C (pure a) := fun _ _ => trivial

theorem always_throw {e : I.Error} : Always C (throw e : Prog I α) := fun _ _ => trivial

theorem always_bind {p : Prog I α} {f : α → Prog I β} (hf : ∀ a, Always C (f a))
    (hp : Always C p) : Always C (p >>= f) := by
  intro w v
  rw [safe_bind]
  apply (hp w v).mono
  intro r w' v' _
  cases r with
  | ok a => exact hf a w' v'
  | error e => trivial

theorem always_tryCatch {p : Prog I α} {h : I.Error → Prog I α} (hh : ∀ e, Always C (h e))
    (hp : Always C p) : Always C (tryCatch p h) := by
  intro w v
  rw [safe_tryCatch]
  apply (hp w v).mono
  intro r w' v' _
  cases r with
  | ok a => trivial
  | error e => exact hh e w' v'

theorem always_map {p : Prog I α} {f : α → β} (hp : Always C p) : Always C (f <$> p) :=
  always_bind (fun _ => always_pure) hp

theorem always_forEach {f : α → Prog I Unit} {as : List α} (hf : ∀ a ∈ as, Always C (f a)) :
    Always C (Prog.forEach as f) := by
  induction as with
  | nil => exact always_pure
  | cons a as ih =>
      rw [Prog.forEach_cons]
      exact always_bind (fun _ => ih (fun b hb => hf b (List.mem_cons_of_mem a hb)))
        (hf a List.mem_cons_self)

/-! ## §4. Programs known by the calls they make. -/

/-- Every call of the program satisfies `F`. -/
def Calls (B : Backend I W Env) (F : I.Call → Prop) : Prog I α → Prop
  | .done _ => True
  | .fail _ => True
  | .call c next => F c ∧ ∀ env w, Calls B F (next (B.serve c env w).1)

variable {F G : I.Call → Prop}

@[simp] theorem calls_pure {a : α} : Calls B F (pure a : Prog I α) := trivial

@[simp] theorem calls_throw {e : I.Error} : Calls B F (throw e : Prog I α) := trivial

@[simp] theorem calls_evaluate {x : Except I.Error α} : Calls B F (Prog.evaluate x) := by
  cases x <;> trivial

theorem calls_perform {c : I.Call} (h : F c) : Calls B F (Prog.perform c) := by
  refine ⟨h, fun env w => ?_⟩
  cases (B.serve c env w).1 <;> trivial

/-- A footprint that leaves nothing out. -/
theorem calls_any {p : Prog I α} : Calls B (fun _ => True) p := by
  induction p with
  | done a => trivial
  | fail e => trivial
  | call c next ih => exact ⟨trivial, fun env w => ih _⟩

/-- Calls that may be made with every view. -/
theorem always_of_calls (hF : ∀ v (e : Event I W Env), F e.call → C.guarantee v e)
    {p : Prog I α} (hp : Calls B F p) : Always C p := by
  induction p with
  | done a => exact always_pure
  | fail e => exact always_throw
  | call c next ih => exact fun w v w' env _ _ => ⟨hF v ⟨w', c, env⟩ hp.1, ih _ (hp.2 env w') _ _⟩

theorem calls_bind {p : Prog I α} {f : α → Prog I β} (hf : ∀ a, Calls B F (f a)) :
    Calls B F p → Calls B F (p >>= f) := by
  induction p with
  | done a => exact fun _ => hf a
  | fail e => exact fun _ => trivial
  | call c next ih => exact fun hp => ⟨hp.1, fun env w => ih _ (hp.2 env w)⟩

theorem calls_tryCatch {p : Prog I α} {h : I.Error → Prog I α}
    (hh : ∀ e, Calls B F (h e)) : Calls B F p → Calls B F (tryCatch p h) := by
  induction p with
  | done a => exact fun _ => trivial
  | fail e => exact fun _ => hh e
  | call c next ih => exact fun hp => ⟨hp.1, fun env w => ih _ (hp.2 env w)⟩

/-- A program of a smaller interface, whose calls are all in the footprint. -/
theorem calls_embed {K : Type} {R : K → Type} {B : Backend (I.extend K R) W Env}
    {F : (I.extend K R).Call → Prop} (h : ∀ c, F (.inl c)) {p : Prog I α} :
    Calls B F (p.embed (C := K) (R := R)) := by
  induction p with
  | done a => trivial
  | fail e => trivial
  | call c next ih => exact ⟨h c, fun env w => ih _⟩

theorem calls_map {p : Prog I α} {f : α → β} (hp : Calls B F p) : Calls B F (f <$> p) :=
  calls_bind (fun _ => calls_pure) hp

theorem calls_forEach {f : α → Prog I Unit} :
    ∀ {as : List α}, (∀ a ∈ as, Calls B F (f a)) → Calls B F (Prog.forEach as f) := by
  intro as
  induction as with
  | nil => exact fun _ => trivial
  | cons a as ih =>
      intro h
      exact calls_bind (fun _ => ih (fun b hb => h b (List.mem_cons_of_mem a hb)))
        (h a List.mem_cons_self)

theorem Calls.mono (h : ∀ c, F c → G c) {p : Prog I α} : Calls B F p → Calls B G p := by
  induction p with
  | done a => exact fun _ => trivial
  | fail e => exact fun _ => trivial
  | call c next ih => exact fun hp => ⟨h c hp.1, fun env w => ih _ (hp.2 env w)⟩

/-- Two footprints at once. -/
theorem Calls.and {p : Prog I α} :
    Calls B F p → Calls B G p → Calls B (fun c => F c ∧ G c) p := by
  induction p with
  | done a => exact fun _ _ => trivial
  | fail e => exact fun _ _ => trivial
  | call c next ih =>
      exact fun hF hG => ⟨⟨hF.1, hG.1⟩, fun env w => ih _ (hF.2 env w) (hG.2 env w)⟩

/-- **The footprint rule**: when every call of the footprint is harmless in
the worlds where `J` holds, the program is, and all that happened to the world
is what `R` admits. -/
theorem safe_of_footprint {R : W → W → Prop} (hrely : ∀ a b, C.rely a b → R a b)
    (hrefl : ∀ w, R w w) (htrans : ∀ a b c, R a b → R b c → R a c) {J : W → Prop}
    (hJ : ∀ a b, R a b → J a → J b)
    (hF : ∀ e : Event I W Env, F e.call → J e.before → C.assume v e →
      C.guarantee v e ∧ R e.before (e.after B) ∧ C.track v e = v)
    {p : Prog I α} :
    ∀ {w}, J w → Calls B F p → Safe C p (fun _ w' v' => R w w' ∧ v' = v) w v := by
  induction p with
  | done a => exact fun _ _ => ⟨hrefl _, rfl⟩
  | fail e => exact fun _ _ => ⟨hrefl _, rfl⟩
  | call c next ih =>
      intro w hw hp w' env hr ha
      -- `J` survives what happened before the call, and then the call itself
      have hr' := hrely _ _ hr
      obtain ⟨hg, hafter, hv⟩ := hF ⟨w', c, env⟩ hp.1 (hJ _ _ hr' hw) ha
      refine ⟨hg, ?_⟩
      rw [hv]
      apply (ih _ (hJ _ _ hafter (hJ _ _ hr' hw)) (hp.2 env w')).mono
      intro r w'' v'' hpost
      obtain ⟨hw'', rfl⟩ := hpost
      exact ⟨htrans _ _ _ hr' (htrans _ _ _ hafter hw''), rfl⟩

/-- The footprint rule for the world alone. -/
theorem safe_frame {R : W → W → Prop} (hrely : ∀ a b, C.rely a b → R a b)
    (hrefl : ∀ w, R w w) (htrans : ∀ a b c, R a b → R b c → R a c)
    (hF : ∀ v (e : Event I W Env), F e.call → C.assume v e →
      C.guarantee v e ∧ R e.before (e.after B))
    {p : Prog I α} :
    ∀ {w v}, Calls B F p → Safe C p (fun _ w' _ => R w w') w v := by
  induction p with
  | done a => exact fun _ => hrefl _
  | fail e => exact fun _ => hrefl _
  | call c next ih =>
      intro w v hp w' env hr ha
      obtain ⟨hg, hafter⟩ := hF v ⟨w', c, env⟩ hp.1 ha
      refine ⟨hg, (ih _ (hp.2 env w')).mono (fun r w'' v'' hw'' => ?_)⟩
      exact htrans _ _ _ (hrely _ _ hr) (htrans _ _ _ hafter hw'')

/-- The footprint rule for the view alone. -/
theorem safe_views {K : σ → Prop}
    (hF : ∀ v (e : Event I W Env), F e.call → K v → C.assume v e →
      C.guarantee v e ∧ K (C.track v e))
    {p : Prog I α} :
    ∀ {w v}, K v → Calls B F p → Safe C p (fun _ _ v' => K v') w v := by
  induction p with
  | done a => exact fun hv _ => hv
  | fail e => exact fun hv _ => hv
  | call c next ih =>
      intro w v hv hp w' env _ ha
      obtain ⟨hg, hv'⟩ := hF v ⟨w', c, env⟩ hp.1 hv ha
      exact ⟨hg, ih _ hv' (hp.2 env w')⟩

/-- The footprint rule with `rely` itself. -/
theorem safe_of_calls_while (hrefl : ∀ w, C.rely w w)
    (htrans : ∀ a b c, C.rely a b → C.rely b c → C.rely a c) {J : W → Prop}
    (hJ : ∀ a b, C.rely a b → J a → J b)
    (hF : ∀ e : Event I W Env, F e.call → J e.before → C.assume v e →
      C.guarantee v e ∧ C.rely e.before (e.after B) ∧ C.track v e = v)
    {p : Prog I α} (hw : J w) (hp : Calls B F p) :
    Safe C p (fun _ w' v' => C.rely w w' ∧ v' = v) w v :=
  safe_of_footprint (fun _ _ h => h) hrefl htrans hJ hF hw hp

theorem safe_of_calls (hrefl : ∀ w, C.rely w w)
    (htrans : ∀ a b c, C.rely a b → C.rely b c → C.rely a c)
    (hF : ∀ e : Event I W Env, F e.call → C.assume v e →
      C.guarantee v e ∧ C.rely e.before (e.after B) ∧ C.track v e = v)
    {p : Prog I α} (hp : Calls B F p) :
    Safe C p (fun _ w' v' => C.rely w w' ∧ v' = v) w v :=
  safe_of_calls_while hrefl htrans (J := fun _ => True) (fun _ _ _ h => h)
    (fun e he _ => hF e he) trivial hp

/-- What a footprint says about an uninterrupted run: `R` relates the world
before to the world after. -/
theorem Calls.runs {R : W → W → Prop} (hrefl : ∀ w, R w w)
    (htrans : ∀ a b c, R a b → R b c → R a c)
    (hF : ∀ e : Event I W Env, F e.call → R e.before (e.after B)) {p : Prog I α}
    (hp : Calls B F p) {w w' : W} {t : List (Event I W Env)} {r : Except I.Error α}
    (h : Runs B p w t r w') : R w w' ∧ ∀ e ∈ t, F e.call := by
  induction h with
  | done => exact ⟨hrefl _, by simp⟩
  | fail => exact ⟨hrefl _, by simp⟩
  | call env _ ih =>
      obtain ⟨hR, ht⟩ := ih (hp.2 _ _)
      refine ⟨htrans _ _ _ (hF ⟨_, _, env⟩ hp.1) hR, ?_⟩
      intro e he
      rcases List.mem_cons.mp he with rfl | he
      · exact hp.1
      · exact ht e he

/-- Every event of a run is in the footprint. -/
theorem Calls.events {p : Prog I α} (hp : Calls B F p) {w w' : W} {t : List (Event I W Env)}
    {r : Except I.Error α} (h : Runs B p w t r w') : ∀ e ∈ t, F e.call :=
  (hp.runs (R := fun _ _ => True) (fun _ => trivial) (fun _ _ _ _ _ => trivial)
    (fun _ _ => trivial) h).2

/-! ## §5. Uninterrupted runs. -/

/-- Every event of the trace may be assumed, the view being kept along. -/
def Assumed (C : Contract B σ) : σ → List (Event I W Env) → Prop
  | _, [] => True
  | v, e :: t => C.assume v e ∧ Assumed C (C.track v e) t

/-- Every event of the trace meets the guarantee. -/
def Guaranteed (C : Contract B σ) : σ → List (Event I W Env) → Prop
  | _, [] => True
  | v, e :: t => C.guarantee v e ∧ Guaranteed C (C.track v e) t

/-- An assumption that does not look at the view. -/
theorem assumed_of_forall {t : List (Event I W Env)} (h : ∀ e ∈ t, ∀ v, C.assume v e) :
    ∀ {v}, Assumed C v t := by
  induction t with
  | nil => exact trivial
  | cons e t ih =>
      exact ⟨h e List.mem_cons_self _, ih (fun e' he' => h e' (List.mem_cons_of_mem e he'))⟩

/-- A guarantee that does not look at the view. -/
theorem Guaranteed.forall {G : Event I W Env → Prop} (hG : ∀ v e, C.guarantee v e → G e)
    {t : List (Event I W Env)} : ∀ {v}, Guaranteed C v t → ∀ e ∈ t, G e := by
  induction t with
  | nil => exact fun _ e he => by cases he
  | cons e t ih =>
      intro v hg e' he'
      rcases List.mem_cons.mp he' with rfl | he'
      · exact hG _ _ hg.1
      · exact ih hg.2 e' he'

/-- **What a contract says of an uninterrupted run.** -/
theorem Safe.of_runs (hrefl : ∀ w, C.rely w w) {p : Prog I α} {Q : Post I W σ α}
    {w w' : W} {t : List (Event I W Env)} {r : Except I.Error α}
    (h : Runs B p w t r w') :
    ∀ {v}, Safe C p Q w v → Assumed C v t →
      Guaranteed C v t ∧ Q r w' (t.foldl C.track v) := by
  induction h with
  | done => exact fun hs _ => ⟨trivial, hs⟩
  | fail => exact fun hs _ => ⟨trivial, hs⟩
  | call env _ ih =>
      intro v hs ha
      obtain ⟨hg, hn⟩ := hs _ env (hrefl _) ha.1
      obtain ⟨hgs, hQ⟩ := ih hn ha.2
      exact ⟨⟨hg, hgs⟩, hQ⟩

/-- What every uninterrupted run ends with, under a contract that nobody else
relies on. -/
theorem safe_of_runs (hrely : ∀ a b, C.rely a b → a = b) (hguar : ∀ v e, C.guarantee v e)
    {p : Prog I α} {Q : Post I W σ α} :
    ∀ {w v}, (∀ t r w', Runs B p w t r w' → Q r w' (t.foldl C.track v)) → Safe C p Q w v := by
  induction p with
  | done a => exact fun h => h [] _ _ .done
  | fail e => exact fun h => h [] _ _ .fail
  | call c next ih =>
      intro w v h w' env hr _
      obtain rfl := hrely _ _ hr
      exact ⟨hguar _ _, ih _ (fun t r w' hrun => h (⟨w, c, env⟩ :: t) r w' (.call env hrun))⟩

/-- **Uninterrupted runs under an invariant** that warrants the assumption of
the contract and that the guarantee preserves. -/
theorem Safe.of_runs_keeping (hrefl : ∀ w, C.rely w w) {J : σ → W → Prop}
    (hassume : ∀ v (e : Event I W Env), J v e.before → C.assume v e)
    (hkeep : ∀ v (e : Event I W Env), J v e.before → C.guarantee v e →
      J (C.track v e) (e.after B)) {p : Prog I α} {Q : Post I W σ α} {w w' : W}
    {t : List (Event I W Env)} {r : Except I.Error α} (h : Runs B p w t r w') :
    ∀ {v}, J v w → Safe C p Q w v →
      (∀ e ∈ t, ∃ u, J u e.before ∧ C.guarantee u e) ∧ J (t.foldl C.track v) w'
        ∧ Q r w' (t.foldl C.track v) := by
  induction h with
  | done =>
      intro v hJ hs
      exact ⟨by simp, hJ, hs⟩
  | fail =>
      intro v hJ hs
      exact ⟨by simp, hJ, hs⟩
  | @call c next w t r w' env _ ih =>
      intro v hJ hs
      obtain ⟨hg, hn⟩ := hs _ env (hrefl _) (hassume v ⟨w, c, env⟩ hJ)
      obtain ⟨hgs, hJ', hQ⟩ := ih (hkeep v ⟨w, c, env⟩ hJ hg) hn
      refine ⟨fun e he => ?_, hJ', hQ⟩
      rcases List.mem_cons.mp he with rfl | he
      · exact ⟨v, hJ, hg⟩
      · exact hgs e he

/-- An invariant that is preserved by events as the contract assumes them. -/
theorem Safe.of_runs_assuming (hrefl : ∀ w, C.rely w w) {J : σ → W → Prop}
    (hkeep : ∀ v (e : Event I W Env), J v e.before → C.assume v e → C.guarantee v e →
      J (C.track v e) (e.after B)) {p : Prog I α} {Q : Post I W σ α} {w w' : W}
    {t : List (Event I W Env)} {r : Except I.Error α} (h : Runs B p w t r w') :
    ∀ {v}, J v w → Safe C p Q w v → Assumed C v t →
      ∀ e ∈ t, ∃ u, J u e.before ∧ C.guarantee u e := by
  induction h with
  | done => exact fun _ _ _ e he => by cases he
  | fail => exact fun _ _ _ e he => by cases he
  | @call c next w t r w' env _ ih =>
      intro v hJ hs ha e he
      obtain ⟨hg, hn⟩ := hs _ env (hrefl _) ha.1
      rcases List.mem_cons.mp he with rfl | he
      · exact ⟨v, hJ, hg⟩
      · exact ih (hkeep v ⟨w, c, env⟩ hJ ha.1 hg) hn ha.2 e he

end Effect
