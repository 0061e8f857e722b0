/-
  Sorobill.Library.Evolution
  ──────────────────────────
  **TABLES IN WHICH ROWS ARE WRITTEN BUT NEVER DELETED.**

  `Evolves R New t t'`: every row of `t` has a later version in `t'`, and every
  row of `t'` is a later version of a row of `t`, or new.  The first half says
  what is never lost, the second where everything comes from.

    • `Evolves.insert`, `Evolves.update` — what the operations of a table do;
    • `Evolves.kept`, `Evolves.every` — the two ways to use it: a row is still
      there, and a property of all rows is preserved;
    • `Evolves.lookup` — the same for the row with a key;
    • `Carries` — the first half alone, a preorder when `R` is one.
-/
import Sorobill.Library.Table

namespace Relational

namespace Table

variable {ρ : Type} {Clash : ρ → ρ → Prop} {R S : ρ → ρ → Prop} {New : ρ → Prop}
  {t t' t'' : Table ρ Clash}

/-! ## §1. Nothing is lost. -/

/-- Every row has a later version. -/
def Carries (R : ρ → ρ → Prop) (t t' : Table ρ Clash) : Prop := ∀ r ∈ t, ∃ r' ∈ t', R r r'

theorem Carries.refl (hR : ∀ r, R r r) (t : Table ρ Clash) : Carries R t t :=
  fun r hr => ⟨r, hr, hR r⟩

theorem Carries.trans (hR : ∀ a b c, R a b → R b c → R a c) (h : Carries R t t')
    (h' : Carries R t' t'') : Carries R t t'' := by
  intro r hr
  obtain ⟨r', hr', hrr'⟩ := h r hr
  obtain ⟨r'', hr'', hr'r''⟩ := h' r' hr'
  exact ⟨r'', hr'', hR _ _ _ hrr' hr'r''⟩

theorem Carries.mono (hRS : ∀ a b, R a b → S a b) (h : Carries R t t') : Carries S t t' := by
  intro r hr
  obtain ⟨r', hr', hrr'⟩ := h r hr
  exact ⟨r', hr', hRS _ _ hrr'⟩

/-! ## §2. And everything comes from somewhere. -/

/-- Rows are written as `R` admits, and added as `New` admits. -/
structure Evolves (R : ρ → ρ → Prop) (New : ρ → Prop) (t t' : Table ρ Clash) : Prop where
  carried : Carries R t t'
  origin : ∀ r' ∈ t', (∃ r ∈ t, R r r') ∨ New r'

theorem Evolves.refl (hR : ∀ r, R r r) (t : Table ρ Clash) : Evolves R New t t :=
  ⟨.refl hR t, fun r hr => .inl ⟨r, hr, hR r⟩⟩

theorem Evolves.insert [DecidableRel Clash] (hR : ∀ r, R r r) {r : ρ}
    (h : t.insert? r = some t') (hnew : New r) : Evolves R New t t' := by
  refine ⟨fun a ha => ⟨a, (mem_insert h).mpr (.inl ha), hR a⟩, fun a ha => ?_⟩
  rcases (mem_insert h).mp ha with ha | rfl
  · exact .inl ⟨a, ha, hR a⟩
  · exact .inr hnew

theorem Evolves.update [DecidableRel Clash] (hR : ∀ r, R r r) {p : ρ → Bool} {f : ρ → ρ}
    (h : t.update? p f = some t') (hf : ∀ r ∈ t, p r = true → R r (f r)) :
    Evolves R New t t' := by
  refine ⟨fun a ha => ?_, fun a ha => .inl ?_⟩
  · cases hp : p a with
    | true => exact ⟨f a, mem_update_of_selected h ha hp, hf a ha hp⟩
    | false => exact ⟨a, mem_update_of_not h ha hp, hR a⟩
  · rcases update_origin h ha with ha | ⟨r, hr, hp, rfl⟩
    · exact ⟨a, ha, hR a⟩
    · exact ⟨r, hr, hf r hr hp⟩

/-- **A property of all rows is preserved**, if versions inherit it and new rows
have it. -/
theorem Evolves.every {P P' : ρ → Prop} (h : Evolves R New t t') (hP : ∀ r ∈ t, P r)
    (hR : ∀ r r', r ∈ t → R r r' → P r → P' r') (hnew : ∀ r', New r' → P' r') :
    ∀ r' ∈ t', P' r' := by
  intro r' hr'
  rcases h.origin r' hr' with ⟨r, hr, hrr'⟩ | hnew'
  · exact hR r r' hr hrr' (hP r hr)
  · exact hnew r' hnew'

/-- A table whose rows are not written at all. -/
theorem Evolves.mem {r : ρ} (h : Evolves Eq New t t') (hr : r ∈ t) : r ∈ t' := by
  obtain ⟨r', hr', rfl⟩ := h.carried r hr
  exact hr'

/-- **What becomes of the row with a key**: it is written, or it is new, or
there is still none. -/
theorem Evolves.lookup [Std.Symm Clash] {p : ρ → Bool} (h : Evolves R New t t')
    (hkey : ∀ a b, p a = true → p b = true → Clash a b) (hR : ∀ a b, R a b → p b = p a) :
    (∃ r r', t.find? p = some r ∧ t'.find? p = some r' ∧ R r r')
      ∨ t.find? p = none ∧ ∀ r', t'.find? p = some r' → New r' := by
  cases hfound : t.find? p with
  | some r =>
      obtain ⟨hr, hp⟩ := find?_mem hfound
      obtain ⟨r', hr', hrr'⟩ := h.carried r hr
      have hp' : p r' = true := (hR r r' hrr').trans hp
      exact .inl ⟨r, r', rfl, (find?_eq_some_iff hkey).mpr ⟨hr', hp'⟩, hrr'⟩
  | none =>
      refine .inr ⟨rfl, fun r' hr' => ?_⟩
      obtain ⟨hmem, hp'⟩ := find?_mem hr'
      -- an old row with this key would have been found
      rcases h.origin r' hmem with ⟨r, hr, hrr'⟩ | hnew
      · have hp := find?_eq_none_iff.mp hfound r hr
        rw [← hR r r' hrr', hp'] at hp
        cases hp
      · exact hnew

end Table

end Relational
