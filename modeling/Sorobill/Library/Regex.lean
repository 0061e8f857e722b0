/-
  Sorobill.Library.Regex
  ──────────────────────
  **PATTERNS OF DIGITS**, over the regular expressions of Mathlib.

    • `digit`, `repeated`, `opt` — `\d`, `r+` and `r?`;
    • `test` — whether the pattern matches the whole text;
    • `cut` — the text without the match that ends it.
-/
import Mathlib.Computability.RegularExpressions

namespace Regex

open RegularExpression

/-! ## §1. Patterns. -/

/-- `[cs]`. -/
def oneOf : List Char → RegularExpression Char
  | [] => 0
  | c :: cs => char c + oneOf cs

/-- `\d`. -/
def digit : RegularExpression Char := oneOf ['0', '1', '2', '3', '4', '5', '6', '7', '8', '9']

/-- `r+`. -/
def repeated (r : RegularExpression Char) : RegularExpression Char := r * r.star

/-- `r?`. -/
def opt (r : RegularExpression Char) : RegularExpression Char := r + 1

/-- `/^r$/.test(s)`. -/
def test (r : RegularExpression Char) (s : String) : Bool := r.rmatch s.toList

/-- `s.replace(/r$/, "")`: the search begins at the left, and what follows the
first place where the rest of the text matches is left out. -/
def cut (r : RegularExpression Char) : List Char → List Char
  | [] => []
  | c :: cs => if r.rmatch (c :: cs) then [] else c :: cut r cs

/-! ## §2. What they match. -/

/-- The pattern matches the single characters with `p`. -/
def Single (r : RegularExpression Char) (p : Char → Prop) : Prop :=
  ∀ w, r.rmatch w ↔ ∃ c, p c ∧ w = [c]

theorem single_char (a : Char) : Single (char a) (· = a) := by
  intro w
  rw [char_rmatch_iff]
  constructor
  · intro h
    exact ⟨a, rfl, h⟩
  · rintro ⟨c, rfl, h⟩
    exact h

theorem single_oneOf (cs : List Char) : Single (oneOf cs) (· ∈ cs) := by
  induction cs with
  | nil =>
      intro w
      rw [oneOf, zero_rmatch]
      simp
  | cons a cs ih =>
      intro w
      rw [oneOf, add_rmatch_iff, char_rmatch_iff, ih w]
      constructor
      · rintro (h | ⟨c, hc, h⟩)
        · exact ⟨a, List.mem_cons_self, h⟩
        · exact ⟨c, List.mem_cons_of_mem a hc, h⟩
      · rintro ⟨c, hc, h⟩
        rcases List.mem_cons.mp hc with rfl | hc
        · exact .inl h
        · exact .inr ⟨c, hc, h⟩

theorem mem_digits {c : Char} :
    c ∈ ['0', '1', '2', '3', '4', '5', '6', '7', '8', '9'] ↔ c.isDigit := by
  constructor
  · intro h
    have hall : ['0', '1', '2', '3', '4', '5', '6', '7', '8', '9'].all Char.isDigit := rfl
    exact List.all_eq_true.mp hall c h
  · intro h
    obtain ⟨hlo, hhi⟩ := Char.isDigit_iff_toNat.mp h
    have hnat : ∀ n ≤ 57, 48 ≤ n →
        Char.ofNat n ∈ ['0', '1', '2', '3', '4', '5', '6', '7', '8', '9'] := by decide
    have hmem := hnat c.toNat hhi hlo
    rwa [Char.ofNat_toNat] at hmem

theorem single_digit : Single digit (·.isDigit) := by
  intro w
  rw [digit, single_oneOf]
  simp only [mem_digits]

/-- Repeated single characters. -/
theorem star_matches {r : RegularExpression Char} {p : Char → Prop} (h : Single r p)
    {w : List Char} : r.star.rmatch w ↔ ∀ c ∈ w, p c := by
  rw [star_rmatch_iff]
  constructor
  · rintro ⟨S, rfl, hS⟩ c hc
    obtain ⟨t, ht, hct⟩ := List.mem_flatten.mp hc
    obtain ⟨d, hd, rfl⟩ := (h t).mp (hS t ht).2
    rw [List.mem_singleton.mp hct]
    exact hd
  · intro hw
    refine ⟨w.map (fun c => [c]), ?_, fun t ht => ?_⟩
    · induction w with
      | nil => rfl
      | cons c w ih =>
          have hrest := ih (fun d hd => hw d (List.mem_cons_of_mem c hd))
          rw [List.map_cons, List.flatten_cons, ← hrest]
          rfl
    · obtain ⟨c, hc, rfl⟩ := List.mem_map.mp ht
      exact ⟨List.cons_ne_nil c [], (h [c]).mpr ⟨c, hw c hc, rfl⟩⟩

/-- At least one of them. -/
theorem repeated_matches {r : RegularExpression Char} {p : Char → Prop} (h : Single r p)
    {w : List Char} : (repeated r).rmatch w ↔ w ≠ [] ∧ ∀ c ∈ w, p c := by
  rw [repeated, mul_rmatch_iff]
  constructor
  · rintro ⟨t, u, rfl, ht, hu⟩
    obtain ⟨c, hc, rfl⟩ := (h t).mp ht
    refine ⟨List.cons_ne_nil c u, fun d hd => ?_⟩
    rcases List.mem_cons.mp hd with rfl | hd
    · exact hc
    · exact (star_matches h).mp hu d hd
  · rintro ⟨hne, hw⟩
    obtain ⟨c, cs, rfl⟩ := List.exists_cons_of_ne_nil hne
    exact ⟨[c], cs, rfl, (h [c]).mpr ⟨c, hw c List.mem_cons_self, rfl⟩,
      (star_matches h).mpr (fun d hd => hw d (List.mem_cons_of_mem c hd))⟩

theorem opt_matches {r : RegularExpression Char} {w : List Char} :
    (opt r).rmatch w ↔ r.rmatch w ∨ w = [] := by
  rw [opt, add_rmatch_iff, one_rmatch_iff]

/-! ## §3. Cutting. -/

theorem cut_pos {r : RegularExpression Char} {w : List Char} (h : r.rmatch w) : cut r w = [] := by
  cases w with
  | nil => rfl
  | cons c cs => rw [cut, if_pos h]

theorem cut_neg {r : RegularExpression Char} {c : Char} {cs : List Char}
    (h : ¬ r.rmatch (c :: cs)) : cut r (c :: cs) = c :: cut r cs := by
  rw [cut, if_neg h]

/-- **The cut is where the match begins**: no place before it has one. -/
theorem cut_append {r : RegularExpression Char} : ∀ {u v : List Char},
    (∀ t, t <:+ u → t ≠ [] → ¬ r.rmatch (t ++ v)) → cut r (u ++ v) = u ++ cut r v
  | [], v, _ => rfl
  | c :: u, v, h => by
      have hhere : ¬ r.rmatch (c :: (u ++ v)) :=
        h (c :: u) List.suffix_rfl (List.cons_ne_nil c u)
      have hrest := cut_append (fun t ht hne => h t (ht.trans (List.suffix_cons c u)) hne)
      rw [List.cons_append, cut_neg hhere, hrest, List.cons_append]

end Regex
