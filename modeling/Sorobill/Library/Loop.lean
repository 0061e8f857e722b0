/-
  Sorobill.Library.Loop
  ─────────────────────
  **LOOPS THAT END ON THEIR OWN.**

  A loop is a step on a state that goes on with a new state or exits with a
  result; `run` gives it a number of steps.

    • `run_invariant` — what every step keeps holds where the loop exits;
    • `run_exits` — a measure that every step lowers is enough fuel.
-/
import Mathlib.Data.Nat.Init

namespace Loop

variable {σ α : Type} (step : σ → σ ⊕ α)

/-- At most `fuel` steps: the state in which the loop exits, and its result. -/
def run : Nat → σ → Option (σ × α)
  | 0, _ => none
  | fuel + 1, s =>
      match step s with
      | .inl t => run fuel t
      | .inr a => some (s, a)

variable {step}

theorem run_inl {fuel : Nat} {s t : σ} (h : step s = .inl t) :
    run step (fuel + 1) s = run step fuel t := by
  rw [run, h]

theorem run_inr {fuel : Nat} {s : σ} {a : α} (h : step s = .inr a) :
    run step (fuel + 1) s = some (s, a) := by
  rw [run, h]

/-- **The invariant rule**: what every step keeps holds in the last state. -/
theorem run_invariant {J : σ → Prop} (hstep : ∀ s t, J s → step s = .inl t → J t) {fuel : Nat} :
    ∀ {s t : σ} {a : α}, J s → run step fuel s = some (t, a) → J t ∧ step t = .inr a := by
  induction fuel with
  | zero =>
      intro s t a _ h
      cases h
  | succ fuel ih =>
      intro s t a hs h
      cases hnext : step s with
      | inl u =>
          rw [run_inl hnext] at h
          exact ih (hstep s u hs hnext) h
      | inr b =>
          rw [run_inr hnext] at h
          cases h
          exact ⟨hs, hnext⟩

/-- **The termination rule**: a measure that every step lowers is enough fuel. -/
theorem run_exits {measure : σ → Nat} (hstep : ∀ s t, step s = .inl t → measure t < measure s)
    {fuel : Nat} : ∀ {s : σ}, measure s < fuel → ∃ t a, run step fuel s = some (t, a) := by
  induction fuel with
  | zero =>
      intro s h
      exact absurd h (Nat.not_lt_zero _)
  | succ fuel ih =>
      intro s h
      cases hnext : step s with
      | inl u =>
          rw [run_inl hnext]
          have hlt := hstep s u hnext
          exact ih (by omega)
      | inr a => exact ⟨s, a, run_inr hnext⟩

/-- More fuel changes nothing. -/
theorem run_mono {fuel more : Nat} (hle : fuel ≤ more) :
    ∀ {s t : σ} {a : α}, run step fuel s = some (t, a) → run step more s = some (t, a) := by
  induction fuel generalizing more with
  | zero =>
      intro s t a h
      cases h
  | succ fuel ih =>
      intro s t a h
      obtain ⟨more, rfl⟩ : ∃ k, more = k + 1 := ⟨more - 1, by omega⟩
      cases hnext : step s with
      | inl u =>
          rw [run_inl hnext] at h ⊢
          exact ih (by omega) h
      | inr b =>
          rw [run_inr hnext] at h ⊢
          exact h

end Loop
