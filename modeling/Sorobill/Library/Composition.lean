/-
  Sorobill.Library.Composition
  ────────────────────────────
  **PROGRAMS OF ONE INTERFACE ON THE BACKEND OF ANOTHER.**

  A server is put together from services that were written against smaller
  interfaces.  A translation says which call of the large interface stands for
  a call of the small one; a backend of the large interface implements one of
  the small interface when it serves the translated calls in the same way, on a
  part of its world.

    • `Translation`, `Prog.translate` — programs of the small interface as
      programs of the large one;
    • `Implements` — what the two backends have to do with each other;
    • `Safe.translate` — **a contract honoured in the small is honoured in the
      large**;
    • `calls_translate` — the same for footprints.
-/
import Sorobill.Library.Contract

namespace Effect

variable {I J : Interface} {V W E E' σ : Type} {α : Type}

/-! ## §1. Translations. -/

/-- The calls of `I`, made with those of `J`. -/
structure Translation (I J : Interface) where
  call : I.Call → J.Call
  /-- What a response of `J` means to a program of `I`. -/
  response : (c : I.Call) → J.Response (call c) → I.Response c
  error : I.Error → J.Error

/-- A program of `I` as a program of `J`. -/
def Prog.translate (h : Translation I J) : Prog I α → Prog J α
  | .done a => .done a
  | .fail e => .fail (h.error e)
  | .call c next => .call (h.call c) (fun r => (next (h.response c r)).translate h)

/-! ## §2. Backends. -/

/-- `B'` serves the translated calls as `B` does, on a part of its world. -/
structure Implements (h : Translation I J) (B : Backend I V E) (B' : Backend J W E') where
  world : W → V
  env : E' → E
  response : ∀ c e w,
    h.response c (B'.serve (h.call c) e w).1 = (B.serve c (env e) (world w)).1
  after : ∀ c e w,
    world (B'.serve (h.call c) e w).2 = (B.serve c (env e) (world w)).2

variable {h : Translation I J} {B : Backend I V E} {B' : Backend J W E'}

/-- The translated event. -/
def Implements.event (_ : Implements h B B') (c : I.Call) (e : E') (w : W) : Event J W E' :=
  ⟨w, h.call c, e⟩

/-- The event as the small backend sees it. -/
def Implements.source (m : Implements h B B') (c : I.Call) (e : E') (w : W) : Event I V E :=
  ⟨m.world w, c, m.env e⟩

/-- **A contract honoured in the small is honoured in the large.** -/
theorem Safe.translate (m : Implements h B B') {C : Contract B σ} {C' : Contract B' σ}
    (hrely : ∀ a b, C'.rely a b → C.rely (m.world a) (m.world b))
    (hassume : ∀ v c e w, C'.assume v (m.event c e w) → C.assume v (m.source c e w))
    (hguarantee : ∀ v c e w, C'.assume v (m.event c e w) → C.guarantee v (m.source c e w) →
      C'.guarantee v (m.event c e w))
    (htrack : ∀ v c e w, C'.track v (m.event c e w) = C.track v (m.source c e w))
    {p : Prog I α} {Q : Post I V σ α} :
    ∀ {w : W} {v : σ}, Safe C p Q (m.world w) v →
      Safe C' (p.translate h)
        (fun r w v => ∃ r₀ : Except I.Error α, r = r₀.mapError h.error ∧ Q r₀ (m.world w) v)
        w v := by
  induction p with
  | done a => exact fun hp => ⟨.ok a, rfl, hp⟩
  | fail err => exact fun hp => ⟨.error err, rfl, hp⟩
  | call c next ih =>
      intro w v hp w' e hr ha
      obtain ⟨hg, hn⟩ := hp (m.world w') (m.env e) (hrely _ _ hr) (hassume v c e w' ha)
      refine ⟨hguarantee v c e w' ha hg, ?_⟩
      -- both backends go on with the same response, from the same part of the world
      have htrack' : C'.track v ⟨w', h.call c, e⟩ = C.track v ⟨m.world w', c, m.env e⟩ :=
        htrack v c e w'
      rw [htrack']
      dsimp only
      rw [m.response]
      apply ih
      rw [m.after]
      exact hn

/-- A footprint in the small is one in the large. -/
theorem calls_translate (m : Implements h B B') {F : I.Call → Prop} {G : J.Call → Prop}
    (hF : ∀ c, F c → G (h.call c)) {p : Prog I α} :
    Calls B F p → Calls B' G (p.translate h) := by
  induction p with
  | done a => exact fun _ => trivial
  | fail err => exact fun _ => trivial
  | call c next ih =>
      intro hp
      refine ⟨hF c hp.1, fun e w => ?_⟩
      dsimp only
      rw [m.response]
      exact ih _ (hp.2 (m.env e) (m.world w))

end Effect
