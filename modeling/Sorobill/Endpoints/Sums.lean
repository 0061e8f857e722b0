/-
  Sorobill.Endpoints.Sums
  ───────────────────────
  **DOES `sumAmounts` RETURN THE SUM?**

  `toFixed(7)` writes a total of 10^21 or more with an exponent, and the
  pattern that strips zeros from the end strips them from the exponent too:
  10^30 becomes "1e+3".

    • `accepted_iff` — the amounts that the plan schema accepts;
    • `strip_fixed`, `strip_scientific` — what is stripped from either notation;
    • `sumAmounts_iff` — the sums of which the returned text is the numeral.
-/
import Sorobill.Model.Amounts
import Mathlib.Algebra.Order.BigOperators.Group.List
import Mathlib.Tactic.Linarith

namespace Sorobill

open Decimal (Digits)
open JavaScript (Number toFixed)
open Regex

/-! ## §1. Accepted amounts. -/

/-- An accepted amount is digits, with or without a point and digits. -/
theorem accepted_iff {cs : List Char} : amountRegex.rmatch cs
    ↔ ∃ ints frac, cs = Decimal.write ints frac ∧ ints ≠ [] ∧ Digits ints ∧ Digits frac := by
  unfold amountRegex
  rw [RegularExpression.mul_rmatch_iff]
  constructor
  · rintro ⟨ints, rest, rfl, hints, hrest⟩
    obtain ⟨hne, hints⟩ := (repeated_matches single_digit).mp hints
    rcases opt_matches.mp hrest with hpoint | rfl
    · obtain ⟨point, frac, rfl, hpoint, hfrac⟩ :=
        (RegularExpression.mul_rmatch_iff _ _ _).mp hpoint
      obtain ⟨hfracne, hfrac⟩ := (repeated_matches single_digit).mp hfrac
      rw [(RegularExpression.char_rmatch_iff _ _).mp hpoint]
      exact ⟨ints, frac, by rw [Decimal.write, if_neg hfracne]; rfl, hne, hints, hfrac⟩
    · exact ⟨ints, [], by rw [Decimal.write, if_pos rfl, List.append_nil], hne, hints,
        fun _ hc => absurd hc List.not_mem_nil⟩
  · rintro ⟨ints, frac, rfl, hne, hints, hfrac⟩
    have hfirst := (repeated_matches single_digit).mpr ⟨hne, hints⟩
    unfold Decimal.write
    split
    next => exact ⟨ints, [], (List.append_nil ints).symm, hfirst, opt_matches.mpr (.inr rfl)⟩
    next hfracne =>
      refine ⟨ints, '.' :: frac, rfl, hfirst, opt_matches.mpr (.inl ?_)⟩
      exact (RegularExpression.mul_rmatch_iff _ _ _).mpr ⟨['.'], frac, rfl,
        (RegularExpression.char_rmatch_iff _ _).mpr rfl,
        (repeated_matches single_digit).mpr ⟨hfracne, hfrac⟩⟩

/-- The fraction that an amount writes: the digits before the point, and those
behind it. -/
def amountValue (amount : String) : ℚ :=
  (Decimal.read (amount.toList.takeWhile (· != '.'))
    ((amount.toList.dropWhile (· != '.')).drop 1)).value

theorem digits_no_point {cs : List Char} (h : Digits cs) : ∀ c ∈ cs, (c != '.') = true := by
  intro c hc
  rw [bne_iff_ne]
  rintro rfl
  exact absurd (h '.' hc) (by decide)

theorem amountValue_write {amount : String} {ints frac : List Char}
    (h : amount.toList = Decimal.write ints frac) (hints : Digits ints) :
    amountValue amount = (Decimal.read ints frac).value := by
  have hpoint := digits_no_point hints
  unfold amountValue
  rw [h, Decimal.write]
  split
  next hnil =>
    subst hnil
    rw [List.takeWhile_eq_self_iff.mpr hpoint, List.dropWhile_eq_nil_iff.mpr hpoint]
    rfl
  next =>
    rw [List.takeWhile_append_of_pos hpoint, List.dropWhile_append_of_pos hpoint]
    simp

/-- **An accepted amount is read as the fraction it writes.** -/
theorem accepted_read {amount : String} (h : test amountRegex amount) :
    ∃ n, Number amount = .finite n ∧ JavaScript.parseFloat amount = .finite n
      ∧ n.value = amountValue amount ∧ 0 ≤ n.coeff := by
  obtain ⟨ints, frac, hwrite, hne, hints, hfrac⟩ := accepted_iff.mp h
  have hread := JavaScript.Number_write hne hints hfrac
  rw [← hwrite, String.ofList_toList] at hread
  exact ⟨Decimal.read ints frac, hread.1, hread.2, (amountValue_write hwrite hints).symm,
    Decimal.value_nonneg.mp (Decimal.value_read_nonneg ints frac)⟩

theorem parseAmount_accepted {amount : String} (h : test amountRegex amount) :
    ∃ n, parseAmount amount = .ok n ∧ n.value = amountValue amount := by
  obtain ⟨n, hread, -, hvalue, hnonneg⟩ := accepted_read h
  refine ⟨n, ?_, hvalue⟩
  unfold parseAmount
  rw [hread]
  exact if_neg (not_lt.mpr hnonneg)

theorem amountValue_nonneg (amount : String) : 0 ≤ amountValue amount :=
  Decimal.value_read_nonneg _ _

/-- **The total**, by induction on the amounts. -/
theorem total_accepted {amounts : List String} (h : ∀ a ∈ amounts, test amountRegex a) :
    ∀ acc : Decimal, ∃ total, sumAmounts.total acc amounts = .ok total
      ∧ total.value = acc.value + (amounts.map amountValue).sum := by
  induction amounts with
  | nil =>
      intro acc
      exact ⟨acc, rfl, by simp⟩
  | cons a amounts ih =>
      intro acc
      obtain ⟨n, hparse, hn⟩ := parseAmount_accepted (h a List.mem_cons_self)
      obtain ⟨total, htotal, hvalue⟩ := ih (fun b hb => h b (List.mem_cons_of_mem a hb)) (acc + n)
      refine ⟨total, ?_, ?_⟩
      · rw [sumAmounts.total, hparse]
        exact htotal
      · rw [hvalue, Decimal.value_add, hn, List.map_cons, List.sum_cons, add_assoc]

/-! ## §2. Stripping. -/

/-- A match ends with zeros, and only its first character may be a point. -/
theorem trailingZeros_matches {w : List Char} (h : trailingZeros.rmatch w) :
    ∃ k, w = List.replicate (k + 1) '0' ∨ w = '.' :: List.replicate (k + 1) '0' := by
  unfold trailingZeros at h
  obtain ⟨point, zeros, rfl, hpoint, hzeros⟩ := (RegularExpression.mul_rmatch_iff _ _ _).mp h
  obtain ⟨hne, hzeros⟩ := (repeated_matches (single_char '0')).mp hzeros
  have hreplicate := List.eq_replicate_of_mem hzeros
  obtain ⟨k, hk⟩ := Nat.exists_eq_succ_of_ne_zero (List.length_pos_iff.mpr hne).ne'
  rw [hk] at hreplicate
  rcases opt_matches.mp hpoint with hpoint | rfl
  · rw [(RegularExpression.char_rmatch_iff _ _).mp hpoint]
    exact ⟨k, .inr (by rw [hreplicate]; rfl)⟩
  · exact ⟨k, .inl hreplicate⟩

theorem matches_zeros (k : Nat) : trailingZeros.rmatch (List.replicate (k + 1) '0')
    ∧ trailingZeros.rmatch ('.' :: List.replicate (k + 1) '0') := by
  have hzeros : (repeated (.char '0')).rmatch (List.replicate (k + 1) '0') :=
    (repeated_matches (single_char '0')).mpr ⟨by simp, fun c hc => List.eq_of_mem_replicate hc⟩
  unfold trailingZeros
  constructor
  · exact (RegularExpression.mul_rmatch_iff _ _ _).mpr
      ⟨[], _, rfl, opt_matches.mpr (.inr rfl), hzeros⟩
  · exact (RegularExpression.mul_rmatch_iff _ _ _).mpr
      ⟨['.'], _, rfl, opt_matches.mpr (.inl ((RegularExpression.char_rmatch_iff _ _).mpr rfl)),
        hzeros⟩

/-- **Zeros are stripped up to a character that stays.** -/
theorem cut_zeros (init : List Char) {c : Char} (hzero : c ≠ '0') (hpoint : c ≠ '.') (k : Nat) :
    cut trailingZeros (init ++ [c] ++ List.replicate k '0') = init ++ [c] := by
  have hstays : ∀ t, t <:+ init ++ [c] → t ≠ [] →
      ¬ trailingZeros.rmatch (t ++ List.replicate k '0') := by
    intro t ht hne hmatch
    have hc : c ∈ t ++ List.replicate k '0' := by
      obtain ⟨t', d, rfl⟩ := List.eq_nil_or_concat t |>.resolve_left hne
      obtain ⟨u, hu⟩ := ht
      rw [List.concat_eq_append, ← List.append_assoc] at hu
      rw [List.concat_eq_append, (List.append_inj' hu rfl).2]
      simp
    obtain ⟨j, hw | hw⟩ := trailingZeros_matches hmatch
    · rw [hw] at hc
      exact hzero (List.eq_of_mem_replicate hc)
    · rw [hw] at hc
      rcases List.mem_cons.mp hc with rfl | hc
      · exact hpoint rfl
      · exact hzero (List.eq_of_mem_replicate hc)
  rw [cut_append hstays]
  cases k with
  | zero => simp [cut]
  | succ k => rw [cut_pos (matches_zeros k).1, List.append_nil]

/-- **The point goes with the zeros** when nothing is left behind it. -/
theorem cut_point {ints : List Char} (h : Digits ints) (k : Nat) :
    cut trailingZeros (ints ++ '.' :: List.replicate (k + 1) '0') = ints := by
  have hstays : ∀ t, t <:+ ints → t ≠ [] →
      ¬ trailingZeros.rmatch (t ++ '.' :: List.replicate (k + 1) '0') := by
    intro t ht hne hmatch
    obtain ⟨c, t, rfl⟩ := List.exists_cons_of_ne_nil hne
    have hc := h c (ht.subset List.mem_cons_self)
    rw [List.cons_append] at hmatch
    obtain ⟨j, hw | hw⟩ := trailingZeros_matches hmatch
    · have hmem : '.' ∈ List.replicate (j + 1) '0' := by
        rw [← hw]
        simp
      exact absurd (List.eq_of_mem_replicate hmem) (by decide)
    · rw [(List.cons.inj hw).1] at hc
      cases hc
  rw [cut_append hstays, cut_pos (matches_zeros k).2, List.append_nil]

/-- Digits that do not end with a zero are kept, and the zeros after them go. -/
theorem cut_trim (init : List Char) {cs : List Char} (h : Digits cs) (hne : Decimal.trim cs ≠ []) :
    cut trailingZeros (init ++ cs) = init ++ Decimal.trim cs := by
  obtain ⟨k, hk⟩ := Decimal.trim_split cs
  have hlast := Decimal.trim_last hne
  have hdigit := Decimal.trim_digits h _ (List.getLast_mem hne)
  have hpoint : (Decimal.trim cs).getLast hne ≠ '.' := by
    intro heq
    rw [heq] at hdigit
    cases hdigit
  have hcut := cut_zeros (init ++ (Decimal.trim cs).dropLast) hlast hpoint k
  rw [List.append_assoc init, List.dropLast_append_getLast hne] at hcut
  rw [← hcut, List.append_assoc init, ← hk]

/-! ## §3. The two notations. -/

/-- **Fixed notation loses its superfluous zeros.** -/
theorem strip_fixed {ints frac : List Char} (hints : Digits ints) (hfrac : Digits frac)
    (hne : frac ≠ []) :
    cut trailingZeros (ints ++ '.' :: frac) = Decimal.write ints (Decimal.trim frac) := by
  unfold Decimal.write
  split
  next hnil =>
    obtain ⟨k, hk⟩ := Decimal.trim_split frac
    rw [hnil, List.nil_append] at hk
    cases k with
    | zero => exact absurd hk hne
    | succ k =>
        rw [hk]
        exact cut_point hints k
  next htrim =>
    have hcut := cut_trim (ints ++ ['.']) hfrac htrim
    rw [List.append_assoc, List.append_assoc] at hcut
    exact hcut

/-- The value that a text says. -/
def valueOf (s : String) : Option ℚ :=
  match Number s with
  | .finite n => some n.value
  | _ => none

/-- **A decimal numeral without superfluous zeros.** -/
structure Canonical (s : String) : Prop where
  numeral : test amountRegex s
  trimmed : '.' ∈ s.toList → s.toList.getLast? ≠ some '0'

theorem valueOf_write {ints frac : List Char} (hne : ints ≠ []) (hints : Digits ints)
    (hfrac : Digits frac) :
    valueOf (String.ofList (Decimal.write ints frac)) = some (Decimal.read ints frac).value := by
  unfold valueOf
  rw [(JavaScript.Number_write hne hints hfrac).1]

theorem valueOf_scientific {ints frac exp : List Char} (hne : ints ≠ []) (hints : Digits ints)
    (hfrac : Digits frac) (hexp : exp ≠ []) (hdigits : Digits exp) :
    valueOf (String.ofList (Decimal.write ints frac ++ 'e' :: '+' :: exp))
      = some ((Decimal.read ints frac).value * 10 ^ Nat.ofDigitChars 10 exp 0) := by
  unfold valueOf
  rw [JavaScript.Number_scientific hne hints hfrac hexp hdigits]
  exact congrArg some (Decimal.value_shift _ _)

theorem canonical_write {ints frac : List Char} (hne : ints ≠ []) (hints : Digits ints)
    (hfrac : Digits frac) : Canonical (String.ofList (Decimal.write ints (Decimal.trim frac))) where
  numeral := by
    unfold test
    rw [String.toList_ofList]
    exact accepted_iff.mpr ⟨ints, _, rfl, hne, hints, Decimal.trim_digits hfrac⟩
  trimmed := by
    rw [String.toList_ofList, Decimal.write]
    split
    next =>
      intro hpoint
      exact absurd (hints '.' hpoint) (by decide)
    next htrim =>
      intro _ hlast
      rw [← List.dropLast_append_getLast htrim, ← List.cons_append, ← List.append_assoc,
        List.getLast?_concat] at hlast
      exact Decimal.trim_last htrim (Option.some.inj hlast)

/-- `q` rounded to seven decimals, ties upwards. -/
def toSeven (q : ℚ) : ℚ := (round (q * 10 ^ 7) : Int) / 10 ^ 7

theorem toFixed_nonneg {total : Decimal} (h : 0 ≤ total.value) :
    toFixed 7 (.finite total) = String.ofList (JavaScript.fixedDigits 7 total) := by
  have hcoeff := Decimal.value_nonneg.mp h
  unfold toFixed
  dsimp only
  rw [if_neg (not_lt.mpr hcoeff)]

theorem large_iff {total : Decimal} :
    10 ^ 21 * 10 ^ total.scale ≤ total.coeff ↔ 10 ^ 21 ≤ total.value := by
  unfold Decimal.value
  rw [le_div_iff₀ (by positivity)]
  exact_mod_cast Iff.rfl

/-- **Below 10^21**: the numeral of the rounded total. -/
theorem stripped_fixed {total : Decimal} (h0 : 0 ≤ total.value) (h : total.value < 10 ^ 21) :
    Canonical (stripZeros (toFixed 7 (.finite total)))
      ∧ valueOf (stripZeros (toFixed 7 (.finite total))) = some (toSeven total.value)
      ∧ valueOf (toFixed 7 (.finite total)) = valueOf (stripZeros (toFixed 7 (.finite total))) := by
  have hround : 0 ≤ round (total.value * 10 ^ 7) := by
    rw [round_eq]
    positivity
  obtain ⟨ints, frac, hfixed, hne, hints, hfrac, hlength, hvalue⟩ :=
    Decimal.fixed_split (f := 7) (n := (total.roundTo 7).toNat) (by decide)
  have hfracne : frac ≠ [] := by
    rintro rfl
    cases hlength
  have hseven : (Decimal.read ints frac).value = toSeven total.value := by
    rw [hvalue, Decimal.roundTo_eq, toSeven]
    congr 1
    exact_mod_cast Int.toNat_of_nonneg hround
  have hbefore : toFixed 7 (.finite total) = String.ofList (Decimal.write ints frac) := by
    rw [toFixed_nonneg h0, JavaScript.fixedDigits, if_neg (large_iff.not.mpr (not_le.mpr h)),
      hfixed, Decimal.write, if_neg hfracne]
  have hafter : stripZeros (toFixed 7 (.finite total))
      = String.ofList (Decimal.write ints (Decimal.trim frac)) := by
    rw [hbefore, stripZeros, String.toList_ofList, Decimal.write, if_neg hfracne,
      strip_fixed hints hfrac hfracne]
  obtain ⟨k, hk⟩ := Decimal.trim_split frac
  have hzeros := Decimal.value_read_zeros ints (Decimal.trim frac) k
  rw [← hk] at hzeros
  rw [hafter, hbefore, valueOf_write hne hints hfrac,
    valueOf_write hne hints (Decimal.trim_digits hfrac), ← hzeros, hseven]
  exact ⟨canonical_write hne hints hfrac, rfl, rfl⟩

/-- A text with an exponent is no decimal numeral. -/
theorem not_canonical {s : String} (h : 'e' ∈ s.toList) : ¬ Canonical s := by
  intro hcanonical
  obtain ⟨ints, frac, hwrite, -, hints, hfrac⟩ := accepted_iff.mp hcanonical.numeral
  rw [hwrite, Decimal.write] at h
  have hints : 'e' ∉ ints := fun hmem => absurd (hints 'e' hmem) (by decide)
  have hfrac : 'e' ∉ frac := fun hmem => absurd (hfrac 'e' hmem) (by decide)
  split at h
  next => exact hints h
  next =>
    rcases List.mem_append.mp h with h | h
    · exact hints h
    · rcases List.mem_cons.mp h with heq | h
      · exact absurd heq (by decide)
      · exact hfrac h

/-- **The zeros that an exponent ends with**: there are some exactly when it is
a multiple of ten. -/
theorem exponent_split {e : Nat} (he : 10 ≤ e) : ∃ k, Decimal.trim (Nat.toDigits 10 e) ≠ []
    ∧ e = 10 ^ k * Nat.ofDigitChars 10 (Decimal.trim (Nat.toDigits 10 e)) 0
    ∧ (10 ∣ e ↔ 0 < k) := by
  obtain ⟨k, hk⟩ := Decimal.trim_split (Nat.toDigits 10 e)
  have hread : Nat.ofDigitChars 10 (Nat.toDigits 10 e) 0 = e := Nat.ofDigitChars_ten_toDigits
  have hvalue : e = 10 ^ k * Nat.ofDigitChars 10 (Decimal.trim (Nat.toDigits 10 e)) 0 := by
    rw [hk, Nat.ofDigitChars_append, Nat.ofDigitChars_replicate_zero] at hread
    exact hread.symm
  have hne : Decimal.trim (Nat.toDigits 10 e) ≠ [] := by
    intro hnil
    rw [hnil, Nat.ofDigitChars_nil, Nat.mul_zero] at hvalue
    omega
  refine ⟨k, hne, hvalue, fun hdvd => ?_, fun hpos => ?_⟩
  · -- the last digit is a zero
    by_contra hzero
    obtain rfl : k = 0 := by omega
    rw [List.replicate_zero, List.append_nil] at hk
    have hend : (Nat.toDigits 10 e).getLast? = some '0' := by
      rw [Nat.toDigits_of_base_le (by decide) he, Nat.mod_eq_zero_of_dvd hdvd,
        List.getLast?_concat]
      rfl
    rw [hk, List.getLast?_eq_some_getLast hne] at hend
    exact Decimal.trim_last hne (Option.some.inj hend)
  · rw [hvalue]
    exact Dvd.dvd.mul_right (dvd_pow_self 10 hpos.ne') _

/-- **From 10^21 on**: the total is written with an exponent, and the zeros at
the end of the exponent are stripped. -/
theorem stripped_scientific {total : Decimal} (h : 10 ^ 21 ≤ total.value) :
    ¬ Canonical (stripZeros (toFixed 7 (.finite total)))
      ∧ valueOf (toFixed 7 (.finite total)) = some total.value
      ∧ ∃ e, 10 ^ e ≤ total.value ∧ total.value < 10 ^ (e + 1)
        ∧ ∃ v, valueOf (stripZeros (toFixed 7 (.finite total))) = some v
          ∧ (¬ 10 ∣ e → v = total.value) ∧ (10 ∣ e → v ≤ total.value / 10) := by
  obtain ⟨c, frac, e, hscientific, hdigits, hvalue, hlo, hhi⟩ :=
    Decimal.scientific_split (le_trans (by norm_num) h)
  -- the number is written with an exponent of at least two digits
  have he : 21 ≤ e := by
    have hlt : (10 : ℚ) ^ 21 < 10 ^ (e + 1) := lt_of_le_of_lt h hhi
    have hexp := (pow_lt_pow_iff_right₀ (by norm_num)).mp hlt
    omega
  obtain ⟨k, hne, hexp, hdvd⟩ := exponent_split (show 10 ≤ e by omega)
  have hint : Digits [c] := fun c' hc => by
    rw [List.mem_singleton.mp hc]
    exact hdigits c List.mem_cons_self
  have hfrac : Digits frac := fun c' hc => hdigits c' (List.mem_cons_of_mem c hc)
  have hexponent := Decimal.digits_toDigits e
  have hbefore : toFixed 7 (.finite total) = String.ofList
      (Decimal.write [c] frac ++ 'e' :: '+' :: Nat.toDigits 10 e) := by
    rw [toFixed_nonneg (le_trans (by norm_num) h), JavaScript.fixedDigits,
      if_pos (large_iff.mpr h), hscientific]
  have hafter : stripZeros (toFixed 7 (.finite total)) = String.ofList
      (Decimal.write [c] frac ++ 'e' :: '+' :: Decimal.trim (Nat.toDigits 10 e)) := by
    have hcut := cut_trim (Decimal.write [c] frac ++ ['e', '+']) hexponent hne
    rw [List.append_assoc, List.append_assoc] at hcut
    rw [hbefore, stripZeros, String.toList_ofList]
    exact congrArg String.ofList hcut
  have hread := valueOf_scientific (List.cons_ne_nil c []) hint hfrac Nat.toDigits_ne_nil hexponent
  rw [Nat.ofDigitChars_ten_toDigits, hvalue] at hread
  have hstripped := valueOf_scientific (List.cons_ne_nil c []) hint hfrac hne
    (Decimal.trim_digits hexponent)
  refine ⟨not_canonical ?_, by rw [hbefore, hread], e, hlo, hhi, _, by rw [hafter, hstripped],
    fun hten => ?_, fun hten => ?_⟩
  · rw [hafter, String.toList_ofList]
    simp
  · -- no zero at the end of the exponent: nothing is stripped
    obtain rfl : k = 0 := by
      by_contra hk
      exact hten (hdvd.mpr (Nat.pos_of_ne_zero hk))
    rw [pow_zero, one_mul] at hexp
    rw [← hexp, hvalue]
  · obtain ⟨j, rfl⟩ := Nat.exists_eq_succ_of_ne_zero (hdvd.mp hten).ne'
    generalize Nat.ofDigitChars 10 (Decimal.trim (Nat.toDigits 10 e)) 0 = e' at hexp ⊢
    -- each zero that goes divides the exponent by ten
    have hless : e' + 1 ≤ e := by
      have hpow : 1 ≤ 10 ^ j := Nat.one_le_pow _ _ (by decide)
      have hten : 10 * e' ≤ e := by
        rw [hexp, pow_succ, Nat.mul_comm (10 ^ j), Nat.mul_assoc]
        exact Nat.mul_le_mul_left 10 (Nat.le_mul_of_pos_left e' hpow)
      omega
    rw [le_div_iff₀ (by norm_num), ← hvalue, mul_assoc, ← pow_succ]
    exact mul_le_mul_of_nonneg_left (pow_le_pow_right₀ (by norm_num) hless)
      (Decimal.value_read_nonneg _ _)

/-! ## §4. The sums. -/

/-- The sum of the amounts. -/
def totalOf (amounts : List String) : ℚ := (amounts.map amountValue).sum

theorem totalOf_nonneg (amounts : List String) : 0 ≤ totalOf amounts :=
  List.sum_nonneg (fun q hq => by
    obtain ⟨a, -, rfl⟩ := List.mem_map.mp hq
    exact amountValue_nonneg a)

/-- The exponent of `q` does not end with a zero. -/
def KeepsExponent (q : ℚ) : Prop := ∃ e, 10 ^ e ≤ q ∧ q < 10 ^ (e + 1) ∧ ¬ 10 ∣ e

theorem keepsExponent_iff {q : ℚ} {e : Nat} (hlo : 10 ^ e ≤ q) (hhi : q < 10 ^ (e + 1)) :
    KeepsExponent q ↔ ¬ 10 ∣ e := by
  constructor
  · rintro ⟨e', hlo', hhi', hdvd⟩
    have h₁ := (pow_lt_pow_iff_right₀ (by norm_num)).mp (lt_of_le_of_lt hlo hhi')
    have h₂ := (pow_lt_pow_iff_right₀ (by norm_num)).mp (lt_of_le_of_lt hlo' hhi)
    rwa [show e = e' by omega]
  · intro hdvd
    exact ⟨e, hlo, hhi, hdvd⟩

/-- A tenth of a large total is not the total, rounded or not. -/
theorem tenth_lt {q : ℚ} (h : 1 ≤ q) : q / 10 < q ∧ q / 10 < toSeven q := by
  have hfloor := Int.lt_floor_add_one (q * 10 ^ 7 + 1 / 2)
  refine ⟨by linarith, ?_⟩
  unfold toSeven
  rw [round_eq, lt_div_iff₀ (by norm_num)]
  linarith

/-- **`sumAmounts` returns the numeral of the sum** exactly when the sum is
below 10^21.  From there on it returns an exponent, and the value is kept
exactly when stripping finds no zero at its end. -/
theorem sumAmounts_iff {amounts : List String} (h : ∀ a ∈ amounts, test amountRegex a) :
    ∃ before out,
      (sumAmounts.total 0 amounts).map (fun total => toFixed 7 (.finite total)) = .ok before
      ∧ sumAmounts amounts = .ok out
      ∧ ((Canonical out ∧ valueOf out = some (toSeven (totalOf amounts))
            ∧ valueOf out = valueOf before) ↔ totalOf amounts < 10 ^ 21)
      ∧ (valueOf out = valueOf before
          ↔ totalOf amounts < 10 ^ 21 ∨ KeepsExponent (totalOf amounts))
      ∧ (valueOf out = some (toSeven (totalOf amounts))
          ↔ totalOf amounts < 10 ^ 21
            ∨ KeepsExponent (totalOf amounts) ∧ toSeven (totalOf amounts) = totalOf amounts) := by
  obtain ⟨total, htotal, hsum⟩ := total_accepted h 0
  rw [Decimal.value_zero, zero_add] at hsum
  have hvalue : totalOf amounts = total.value := hsum.symm
  have hnonneg := totalOf_nonneg amounts
  refine ⟨toFixed 7 (.finite total), stripZeros (toFixed 7 (.finite total)), by rw [htotal]; rfl,
    by rw [sumAmounts, htotal]; rfl, ?_⟩
  rw [hvalue] at hnonneg ⊢
  -- below 10²¹ toFixed prints digits; from there on an exponent, and a zero may go
  rcases lt_or_ge total.value (10 ^ 21) with hsmall | hlarge
  · obtain ⟨hcanonical, hout, hbefore⟩ := stripped_fixed hnonneg hsmall
    exact ⟨iff_of_true ⟨hcanonical, hout, hbefore.symm⟩ hsmall,
      iff_of_true hbefore.symm (.inl hsmall), iff_of_true hout (.inl hsmall)⟩
  · obtain ⟨hnot, hbefore, e, hlo, hhi, v, hout, hkept, hlost⟩ := stripped_scientific hlarge
    obtain ⟨hless, hless'⟩ := tenth_lt (le_trans (by norm_num) hlarge)
    rw [keepsExponent_iff hlo hhi, hbefore, hout, Option.some.injEq, Option.some.injEq]
    refine ⟨iff_of_false (fun h => hnot h.1) (not_lt.mpr hlarge), ?_, ?_⟩
    · by_cases hten : 10 ∣ e
      · have hv := hlost hten
        refine iff_of_false (fun heq => ?_) (fun hor => ?_)
        · rw [heq] at hv
          linarith
        · exact hor.elim (fun hlt => absurd hlt (not_lt.mpr hlarge)) (fun hndvd => hndvd hten)
      · exact iff_of_true (hkept hten) (.inr hten)
    · by_cases hten : 10 ∣ e
      · have hv := hlost hten
        refine iff_of_false (fun heq => ?_) (fun hor => ?_)
        · rw [heq] at hv
          linarith
        · exact hor.elim (fun hlt => absurd hlt (not_lt.mpr hlarge)) (fun hand => hand.1 hten)
      · rw [hkept hten]
        constructor
        · intro heq
          exact .inr ⟨hten, heq.symm⟩
        · rintro (hlt | ⟨-, heq⟩)
          · exact absurd hlt (not_lt.mpr hlarge)
          · exact heq.symm

theorem sumAmounts_iff_small : ∃ before out,
    (sumAmounts.total 0 ["10", "2.50"]).map (fun total => toFixed 7 (.finite total)) = .ok before
      ∧ sumAmounts ["10", "2.50"] = .ok out
      ∧ Canonical out ∧ valueOf out = some (toSeven (totalOf ["10", "2.50"]))
      ∧ valueOf out = valueOf before := by
  obtain ⟨before, out, hbefore, hout, hiff, -⟩ := sumAmounts_iff
    (show ∀ a ∈ ["10", "2.50"], test amountRegex a by decide)
  exact ⟨before, out, hbefore, hout, hiff.mpr (by decide +kernel)⟩

/-- 10^30, which the plan schema accepts as an amount. -/
def nonillion : String := "1000000000000000000000000000000"

theorem sum_of_nonillion : test amountRegex nonillion ∧ totalOf [nonillion] = 10 ^ 30
    ∧ sumAmounts [nonillion] = .ok "1e+3" ∧ valueOf "1e+3" = some 1000 := by
  decide +kernel

end Sorobill
