/-
  Sorobill.Library.Decimal
  ────────────────────────
  **DECIMAL FRACTIONS**, their sums, roundings and numerals.

  A decimal fraction is kept as an integer over a power of ten, so that sums
  and powers of ten are exact and its digits are those of the integer.

    • `value_add`, `value_shift` — what the operations do to the value;
    • `roundTo_eq` — rounding to a number of fraction digits, ties upwards;
    • `fixed` — the numeral with a given number of fraction digits;
    • `scientific` — the shortest numeral with an exponent.
-/
import Mathlib.Algebra.Order.Round
import Mathlib.Data.List.DropRight
import Mathlib.Data.Rat.Floor
import Mathlib.Tactic.FieldSimp
import Mathlib.Tactic.Ring

/-- The fraction `coeff / 10 ^ scale`. -/
structure Decimal where
  coeff : Int
  scale : Nat
  deriving DecidableEq

namespace Decimal

/-! ## §1. Values. -/

def value (d : Decimal) : ℚ := d.coeff / 10 ^ d.scale

instance : Zero Decimal := ⟨⟨0, 0⟩⟩

instance : Add Decimal where
  add a b := ⟨a.coeff * 10 ^ b.scale + b.coeff * 10 ^ a.scale, a.scale + b.scale⟩

instance : Neg Decimal := ⟨fun a => ⟨-a.coeff, a.scale⟩⟩

/-- `d * 10 ^ e`. -/
def shift (d : Decimal) : Int → Decimal
  | .ofNat e => ⟨d.coeff * 10 ^ e, d.scale⟩
  | .negSucc e => ⟨d.coeff, d.scale + (e + 1)⟩

@[simp] theorem value_zero : (0 : Decimal).value = 0 := by
  show ((0 : Int) : ℚ) / 10 ^ 0 = 0
  norm_num

@[simp] theorem value_add (a b : Decimal) : (a + b).value = a.value + b.value := by
  show ((a.coeff * 10 ^ b.scale + b.coeff * 10 ^ a.scale : Int) : ℚ) / 10 ^ (a.scale + b.scale)
    = a.coeff / 10 ^ a.scale + b.coeff / 10 ^ b.scale
  push_cast
  rw [pow_add]
  field_simp

theorem value_shift (d : Decimal) (e : Nat) : (d.shift e).value = d.value * 10 ^ e := by
  show ((d.coeff * 10 ^ e : Int) : ℚ) / 10 ^ d.scale = d.coeff / 10 ^ d.scale * 10 ^ e
  push_cast
  ring

/-- A fraction has no smaller value than its negative has exactly when its
integer is not negative. -/
theorem value_nonneg {d : Decimal} : 0 ≤ d.value ↔ 0 ≤ d.coeff := by
  unfold value
  rw [le_div_iff₀ (by positivity), zero_mul]
  exact Int.cast_nonneg_iff

/-- The multiple of `10 ^ -f` that is nearest, times `10 ^ f`; the larger of
two. -/
def roundTo (f : Nat) (d : Decimal) : Int :=
  (2 * d.coeff * 10 ^ f + 10 ^ d.scale) / (2 * 10 ^ d.scale)

theorem roundTo_eq (f : Nat) (d : Decimal) : d.roundTo f = round (d.value * 10 ^ f) := by
  have hfraction : d.value * 10 ^ f + 1 / 2
      = ((2 * d.coeff * 10 ^ f + 10 ^ d.scale : Int) : ℚ) / ((2 * 10 ^ d.scale : Nat) : ℚ) := by
    unfold value
    push_cast
    field_simp
  rw [round_eq, hfraction, Rat.floor_intCast_div_natCast]
  push_cast
  rfl

/-! ## §2. Numerals. -/

def Digits (cs : List Char) : Prop := ∀ c ∈ cs, c.isDigit

/-- The fraction that is written `ints.frac`. -/
def read (ints frac : List Char) : Decimal :=
  ⟨(Nat.ofDigitChars 10 (ints ++ frac) 0 : Nat), frac.length⟩

theorem value_read (ints frac : List Char) : (read ints frac).value
    = (Nat.ofDigitChars 10 (ints ++ frac) 0 : ℚ) / 10 ^ frac.length := by
  unfold value read
  push_cast
  rfl

/-- **Zeros at the end** do not change the value. -/
theorem value_read_zeros (ints frac : List Char) (k : Nat) :
    (read ints (frac ++ List.replicate k '0')).value = (read ints frac).value := by
  rw [value_read, value_read, ← List.append_assoc, Nat.ofDigitChars_append,
    Nat.ofDigitChars_replicate_zero, List.length_append, List.length_replicate, pow_add]
  push_cast
  field_simp

theorem value_read_nonneg (ints frac : List Char) : 0 ≤ (read ints frac).value := by
  rw [value_read]
  positivity

/-- `ints.frac`, or `ints` alone. -/
def write (ints frac : List Char) : List Char := if frac = [] then ints else ints ++ '.' :: frac

theorem digits_toDigits (n : Nat) : Digits (Nat.toDigits 10 n) :=
  fun _ hc => Nat.isDigit_of_mem_toDigits (by decide) (by decide) hc

/-- Zeros cut off at the end. -/
def trim (cs : List Char) : List Char := cs.rdropWhile (· == '0')

/-- **The zeros at the end**, and what is before them. -/
theorem trim_split (cs : List Char) : ∃ k, cs = trim cs ++ List.replicate k '0' := by
  refine ⟨(cs.rtakeWhile (· == '0')).length, ?_⟩
  have hzeros : cs.rtakeWhile (· == '0')
      = List.replicate (cs.rtakeWhile (· == '0')).length '0' :=
    List.eq_replicate_of_mem
      (fun c hc => beq_iff_eq.mp (List.mem_rtakeWhile_imp (p := (· == '0')) hc))
  rw [← hzeros]
  exact List.rdropWhile_append_rtakeWhile.symm

theorem trim_digits {cs : List Char} (h : Digits cs) : Digits (trim cs) :=
  fun c hc => h c ((List.rdropWhile_prefix (· == '0') cs).subset hc)

theorem trim_last {cs : List Char} (h : trim cs ≠ []) : (trim cs).getLast h ≠ '0' := by
  have hlast := List.rdropWhile_last_not (· == '0') cs h
  intro heq
  exact hlast (beq_iff_eq.mpr heq)

/-! ## §3. Fixed notation. -/

/-- The numeral of `n / 10 ^ f` with `f` fraction digits. -/
def fixed (f n : Nat) : List Char :=
  let m := List.replicate (f + 1 - (Nat.toDigits 10 n).length) '0' ++ Nat.toDigits 10 n
  if f = 0 then m else m.take (m.length - f) ++ '.' :: m.drop (m.length - f)

theorem fixed_split {f n : Nat} (hf : 0 < f) : ∃ ints frac, fixed f n = ints ++ '.' :: frac
    ∧ ints ≠ [] ∧ Digits ints ∧ Digits frac ∧ frac.length = f
    ∧ (read ints frac).value = n / 10 ^ f := by
  unfold fixed
  generalize hm : List.replicate (f + 1 - (Nat.toDigits 10 n).length) '0' ++ Nat.toDigits 10 n = m
  -- padded, there is at least one digit before the point
  have hlength : f < m.length := by
    rw [← hm, List.length_append, List.length_replicate]
    omega
  have hdigits : Digits m := by
    intro c hc
    rw [← hm] at hc
    rcases List.mem_append.mp hc with hzero | hc
    · rw [List.eq_of_mem_replicate hzero]
      decide
    · exact digits_toDigits n c hc
  have hvalue : Nat.ofDigitChars 10 m 0 = n := by
    rw [← hm, Nat.ofDigitChars_append, Nat.ofDigitChars_replicate_zero, Nat.mul_zero,
      Nat.ofDigitChars_ten_toDigits]
  refine ⟨m.take (m.length - f), m.drop (m.length - f), ?_, ?_, ?_, ?_, ?_, ?_⟩
  · dsimp only
    rw [if_neg (by omega)]
  · intro hnil
    have hzero := congrArg List.length hnil
    rw [List.length_take, List.length_nil] at hzero
    omega
  · exact fun c hc => hdigits c (List.mem_of_mem_take hc)
  · exact fun c hc => hdigits c (List.mem_of_mem_drop hc)
  · rw [List.length_drop]
    omega
  · rw [value_read, List.take_append_drop, hvalue, List.length_drop]
    congr 2
    omega

/-! ## §4. Scientific notation. -/

/-- The shortest numeral with an exponent, of a value of at least 1. -/
def scientific (d : Decimal) : List Char :=
  let digits := Nat.toDigits 10 d.coeff.toNat
  let m := trim digits
  write (m.take 1) (m.drop 1) ++ 'e' :: '+' :: Nat.toDigits 10 (digits.length - 1 - d.scale)

/-- The number of digits bounds a number. -/
theorem toDigits_bounds {n : Nat} (hn : 0 < n) :
    10 ^ ((Nat.toDigits 10 n).length - 1) ≤ n ∧ n < 10 ^ (Nat.toDigits 10 n).length := by
  have hpos := Nat.length_toDigits_pos (b := 10) (n := n)
  refine ⟨?_, (Nat.length_toDigits_le_iff (by decide) hpos).mp le_rfl⟩
  rcases Nat.eq_zero_or_pos ((Nat.toDigits 10 n).length - 1) with hzero | hone
  · rw [hzero]
    omega
  · have hmore := (Nat.length_toDigits_le_iff (b := 10) (n := n) (by decide) hone).not.mp (by omega)
    omega

/-- **The scientific numeral** has the value, and its exponent is that of the
first digit. -/
theorem scientific_split {d : Decimal} (h : 1 ≤ d.value) : ∃ c frac e,
    scientific d = write [c] frac ++ 'e' :: '+' :: Nat.toDigits 10 e
      ∧ Digits (c :: frac) ∧ (read [c] frac).value * 10 ^ e = d.value
      ∧ 10 ^ e ≤ d.value ∧ d.value < 10 ^ (e + 1) := by
  obtain ⟨n, hn⟩ := Int.eq_ofNat_of_zero_le (value_nonneg.mp (zero_le_one.trans h))
  have hvalue : d.value = (n : ℚ) / 10 ^ d.scale := by
    rw [value, hn]
    rfl
  have hscale : 10 ^ d.scale ≤ n := by
    rw [hvalue, le_div_iff₀ (by positivity), one_mul] at h
    exact_mod_cast h
  have hpos : 0 < n := lt_of_lt_of_le (by positivity) hscale
  obtain ⟨hlo, hhi⟩ := toDigits_bounds hpos
  have hlength : d.scale < (Nat.toDigits 10 n).length :=
    (Nat.pow_lt_pow_iff_right (by decide)).mp (lt_of_le_of_lt hscale hhi)
  have hread : Nat.ofDigitChars 10 (Nat.toDigits 10 n) 0 = n := Nat.ofDigitChars_ten_toDigits
  -- the significant digits are those of `n` without the zeros at its end
  have hdigits := trim_digits (digits_toDigits n)
  obtain ⟨k, hk⟩ := trim_split (Nat.toDigits 10 n)
  unfold scientific
  rw [show d.coeff.toNat = n by omega]
  dsimp only
  generalize trim (Nat.toDigits 10 n) = sig at *
  generalize Nat.toDigits 10 n = cs at *
  subst hk
  rw [Nat.ofDigitChars_append, Nat.ofDigitChars_replicate_zero] at hread
  rw [List.length_append, List.length_replicate] at *
  cases sig with
  -- a positive number has a digit
  | nil =>
      rw [Nat.ofDigitChars_nil] at hread
      omega
  | cons c frac =>
      rw [List.length_cons] at *
      refine ⟨c, frac, frac.length + 1 + k - 1 - d.scale, rfl, hdigits, ?_⟩
      generalize hexp : frac.length + 1 + k - 1 - d.scale = e
      -- the exponent counts the digits before the point, less one
      have hpow : (10 : ℚ) ^ e * 10 ^ d.scale = 10 ^ frac.length * 10 ^ k := by
        rw [← pow_add, ← pow_add]
        congr 1
        omega
      refine ⟨?_, ?_, ?_⟩
      · rw [value_read, hvalue, ← hread, List.singleton_append, div_mul_eq_mul_div,
          div_eq_div_iff (by positivity) (by positivity), mul_assoc, hpow]
        push_cast
        ring
      · rw [hvalue, le_div_iff₀ (by positivity), ← pow_add]
        exact_mod_cast (show e + d.scale = frac.length + 1 + k - 1 by omega) ▸ hlo
      · rw [hvalue, div_lt_iff₀ (by positivity), ← pow_add]
        exact_mod_cast (show e + 1 + d.scale = frac.length + 1 + k by omega) ▸ hhi

end Decimal
