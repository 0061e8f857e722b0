/-
  Sorobill.Library.Numeral
  ────────────────────────
  **NUMBERS AS TEXT IN JAVASCRIPT**: `Number(s)`, `parseFloat(s)` and
  `n.toFixed(f)`, with numbers that are read exactly.

    • `scanLiteral` — the longest decimal literal that begins a text;
    • `Number_write`, `Number_scientific` — numerals are read as what they say.
-/
import Sorobill.Library.Decimal
import Sorobill.Library.JsValue

namespace JavaScript

open Decimal (Digits)

/-- A number, without rounding. -/
inductive Numeric where
  | finite (d : Decimal)
  | nan
  | infinity (negative : Bool)
  deriving DecidableEq

/-! ## §1. Literals. -/

/-- An optional sign: whether it is a minus, and what follows. -/
def scanSign : List Char → Bool × List Char
  | '-' :: cs => (true, cs)
  | '+' :: cs => (false, cs)
  | cs => (false, cs)

/-- The digits after an optional point. -/
def scanFraction : List Char → List Char × List Char
  | '.' :: cs => (cs.takeWhile Char.isDigit, cs.dropWhile Char.isDigit)
  | cs => ([], cs)

/-- An optional `ExponentPart`; without digits it is none. -/
def scanExponent : List Char → Int × List Char
  | [] => (0, [])
  | c :: cs =>
      let rest := (scanSign cs).2
      let n : Int := Nat.ofDigitChars 10 (rest.takeWhile Char.isDigit) 0
      if (c = 'e' ∨ c = 'E') ∧ rest.takeWhile Char.isDigit ≠ [] then
        (if (scanSign cs).1 then -n else n, rest.dropWhile Char.isDigit)
      else (0, c :: cs)

/-- `StrUnsignedDecimalLiteral`, and what follows it. -/
def scanUnsigned (cs : List Char) : Option (Decimal × List Char) :=
  let ints := cs.takeWhile Char.isDigit
  let fraction := scanFraction (cs.dropWhile Char.isDigit)
  let exponent := scanExponent fraction.2
  if ints = [] ∧ fraction.1 = [] then none
  else some ((Decimal.read ints fraction.1).shift exponent.1, exponent.2)

def infinityName : List Char := ['I', 'n', 'f', 'i', 'n', 'i', 't', 'y']

/-- `StrDecimalLiteral`, and what follows it. -/
def scanLiteral (cs : List Char) : Option (Numeric × List Char) :=
  let rest := (scanSign cs).2
  if infinityName.isPrefixOf rest then some (.infinity (scanSign cs).1, rest.drop 8)
  else (scanUnsigned rest).map (fun x =>
    (.finite (if (scanSign cs).1 then -x.1 else x.1), x.2))

/-- The radix of `0x`, `0o` and `0b`. -/
def radixOf (c : Char) : Option Nat :=
  if c = 'x' ∨ c = 'X' then some 16
  else if c = 'o' ∨ c = 'O' then some 8
  else if c = 'b' ∨ c = 'B' then some 2
  else none

def digitValue (c : Char) : Nat :=
  if c.isDigit then c.toNat - '0'.toNat
  else if c.isLower then c.toNat - 'a'.toNat + 10
  else if c.isUpper then c.toNat - 'A'.toNat + 10
  else 36

/-- `NonDecimalIntegerLiteral`. -/
def radixLiteral : List Char → Option Decimal
  | '0' :: c :: ds =>
      (radixOf c).bind (fun b =>
        if ds ≠ [] ∧ ds.all (fun d => decide (digitValue d < b)) then
          some ⟨(ds.foldl (fun n d => n * b + digitValue d) 0 : Nat), 0⟩
        else none)
  | _ => none

/-! ## §2. Conversions. -/

/-- `Number(s)`. -/
def Number (s : String) : Numeric :=
  let cs := (trim s).toList
  if cs = [] then .finite 0
  else
    match radixLiteral cs, scanLiteral cs with
    | some d, _ => .finite d
    | none, some (n, []) => n
    | none, _ => .nan

/-- `parseFloat(s)`. -/
def parseFloat (s : String) : Numeric :=
  match scanLiteral (s.toList.dropWhile isWhiteSpace) with
  | some (n, _) => n
  | none => .nan

/-- `x.toFixed(f)` of a number that is not negative. -/
def fixedDigits (f : Nat) (d : Decimal) : List Char :=
  if 10 ^ 21 * 10 ^ d.scale ≤ d.coeff then d.scientific
  else Decimal.fixed f (d.roundTo f).toNat

/-- `x.toFixed(f)`. -/
def toFixed (f : Nat) : Numeric → String
  | .nan => "NaN"
  | .infinity negative => if negative then "-Infinity" else "Infinity"
  | .finite d =>
      String.ofList (if d.coeff < 0 then '-' :: fixedDigits f (-d) else fixedDigits f d)

/-- `a + b`. -/
def Numeric.plus : Numeric → Numeric → Numeric
  | .finite a, .finite b => .finite (a + b)
  | .nan, _ => .nan
  | _, .nan => .nan
  | .infinity a, .infinity b => if a = b then .infinity a else .nan
  | .infinity a, .finite _ => .infinity a
  | .finite _, .infinity b => .infinity b

instance : Zero Numeric := ⟨.finite 0⟩

instance : Add Numeric := ⟨.plus⟩

example : Number " 12.50 " = .finite ⟨1250, 2⟩ ∧ Number "1e3" = .finite ⟨1000, 0⟩
    ∧ Number "0x1F" = .finite ⟨31, 0⟩ ∧ Number "1." = .finite ⟨1, 0⟩ ∧ Number "." = .nan
    ∧ Number "-Infinity" = .infinity true ∧ parseFloat "1.5e" = .finite ⟨15, 1⟩ := by
  decide +kernel

example : toFixed 1 (.finite ⟨125, 2⟩) = "1.3" ∧ toFixed 7 (.finite ⟨0, 0⟩) = "0.0000000"
    ∧ toFixed 7 (.finite ⟨10 ^ 30, 0⟩) = "1e+30" := by decide +kernel

/-! ## §3. What numerals are read as. -/

section Scan

variable {ints frac : List Char}

/-- Digits are scanned to their end. -/
theorem takeWhile_digits (h : Digits ints) (tail : List Char)
    (htail : ∀ c ∈ tail.head?, ¬ c.isDigit) :
    (ints ++ tail).takeWhile Char.isDigit = ints
      ∧ (ints ++ tail).dropWhile Char.isDigit = tail := by
  have hstop : tail.takeWhile Char.isDigit = [] ∧ tail.dropWhile Char.isDigit = tail := by
    cases tail with
    | nil => exact ⟨rfl, rfl⟩
    | cons c cs =>
        have hc := htail c rfl
        simp [hc]
  rw [List.takeWhile_append_of_pos h, List.dropWhile_append_of_pos h, hstop.1, hstop.2,
    List.append_nil]
  exact ⟨rfl, rfl⟩

theorem takeWhile_all (h : Digits ints) :
    ints.takeWhile Char.isDigit = ints ∧ ints.dropWhile Char.isDigit = [] := by
  have hend := takeWhile_digits h [] (fun c hc => by cases hc)
  rwa [List.append_nil] at hend

/-- **A numeral is scanned to its end**, and then the exponent. -/
theorem scanUnsigned_write (hne : ints ≠ []) (hints : Digits ints) (hfrac : Digits frac)
    (tail : List Char) (htail : ∀ c ∈ tail.head?, ¬ c.isDigit ∧ c ≠ '.') :
    scanUnsigned (Decimal.write ints frac ++ tail)
      = some ((Decimal.read ints frac).shift (scanExponent tail).1, (scanExponent tail).2) := by
  unfold scanUnsigned Decimal.write
  split
  next hnil =>
    subst hnil
    have hscan := takeWhile_digits hints tail (fun c hc => (htail c hc).1)
    have hpoint : scanFraction tail = ([], tail) := by
      unfold scanFraction
      split
      next cs => exact absurd rfl (htail '.' rfl).2
      next => rfl
    rw [hscan.1, hscan.2, hpoint]
    dsimp only
    rw [if_neg (fun h => hne h.1)]
  next =>
    rw [List.append_assoc, List.cons_append]
    have hscan := takeWhile_digits hints ('.' :: (frac ++ tail)) (fun c hc => by
      cases hc
      decide)
    have hrest := takeWhile_digits hfrac tail (fun c hc => (htail c hc).1)
    have hpoint : scanFraction ('.' :: (frac ++ tail)) = (frac, tail) :=
      Prod.ext hrest.1 hrest.2
    rw [hscan.1, hscan.2, hpoint]
    dsimp only
    rw [if_neg (fun h => hne h.1)]

theorem scanExponent_plus (hne : ints ≠ []) (h : Digits ints) :
    scanExponent ('e' :: '+' :: ints) = (((Nat.ofDigitChars 10 ints 0 : Nat) : Int), []) := by
  have hall := takeWhile_all h
  have hsign : scanSign ('+' :: ints) = (false, ints) := rfl
  unfold scanExponent
  dsimp only
  rw [hsign]
  dsimp only
  rw [hall.1, hall.2, if_pos ⟨.inl rfl, hne⟩]
  rfl

theorem isDigit_bounds {c : Char} (h : c.isDigit) : 48 ≤ c.toNat ∧ c.toNat ≤ 57 :=
  Char.isDigit_iff_toNat.mp h

/-- A literal that begins with a digit has no sign and is no infinity. -/
theorem scanLiteral_digit {c : Char} {cs : List Char} (h : c.isDigit) :
    scanLiteral (c :: cs) = (scanUnsigned (c :: cs)).map (fun x => (.finite x.1, x.2)) := by
  have hsign : scanSign (c :: cs) = (false, c :: cs) := by
    unfold scanSign
    split
    next heq =>
      cases heq
      cases h
    next heq =>
      cases heq
      cases h
    next => rfl
  have hinfinity : infinityName.isPrefixOf (c :: cs) = false := by
    have hne : ('I' == c) = false := beq_eq_false_iff_ne.mpr (fun heq => by
      rw [← heq] at h
      cases h)
    rw [infinityName, List.isPrefixOf_cons_cons, hne, Bool.false_and]
  unfold scanLiteral
  rw [hsign]
  dsimp only
  rw [hinfinity]
  rfl

/-- The characters of the numerals. -/
def NumeralChar (c : Char) : Prop := c.isDigit ∨ c = '.' ∨ c = 'e' ∨ c = '+'

theorem NumeralChar.not_white {c : Char} (h : NumeralChar c) : ¬ isWhiteSpace c := by
  rcases h with h | rfl | rfl | rfl
  · obtain ⟨hlo, hhi⟩ := isDigit_bounds h
    unfold isWhiteSpace
    simp
    omega
  · decide
  · decide
  · decide

theorem NumeralChar.no_radix {c : Char} (h : NumeralChar c) : radixOf c = none := by
  unfold radixOf
  rcases h with h | rfl | rfl | rfl
  · rw [if_neg, if_neg, if_neg]
    all_goals rintro (rfl | rfl) <;> cases h
  · decide
  · decide
  · decide

theorem radixLiteral_none {cs : List Char} (h : ∀ c ∈ cs, NumeralChar c) :
    radixLiteral cs = none := by
  unfold radixLiteral
  split
  next c ds =>
    rw [(h c (by simp)).no_radix]
    rfl
  next => rfl

theorem dropWhile_white {cs : List Char} (h : ∀ c ∈ cs, NumeralChar c) :
    cs.dropWhile isWhiteSpace = cs := by
  cases cs with
  | nil => rfl
  | cons c cs => simp [(h c List.mem_cons_self).not_white]

theorem trim_numeral {cs : List Char} (h : ∀ c ∈ cs, NumeralChar c) :
    (trim (String.ofList cs)).toList = cs := by
  unfold trim
  rw [String.toList_ofList, String.toList_ofList, dropWhile_white h,
    dropWhile_white (fun c hc => h c (List.mem_reverse.mp hc)), List.reverse_reverse]

/-- **A text that is scanned to its end is the number it says.** -/
theorem Number_of_scan {c : Char} {cs : List Char} {d : Decimal} (hc : c.isDigit)
    (hcs : ∀ c' ∈ c :: cs, NumeralChar c') (h : scanUnsigned (c :: cs) = some (d, [])) :
    Number (String.ofList (c :: cs)) = .finite d
      ∧ parseFloat (String.ofList (c :: cs)) = .finite d := by
  constructor
  · unfold Number
    dsimp only
    rw [trim_numeral hcs, if_neg (List.cons_ne_nil c cs), radixLiteral_none hcs,
      scanLiteral_digit hc, h]
    rfl
  · unfold parseFloat
    rw [String.toList_ofList, dropWhile_white hcs, scanLiteral_digit hc, h]
    rfl

theorem shift_zero (d : Decimal) : d.shift 0 = d := by
  show (⟨d.coeff * 10 ^ 0, d.scale⟩ : Decimal) = d
  rw [pow_zero, mul_one]

theorem write_cons {c : Char} (hints : Digits (c :: ints)) (hfrac : Digits frac) :
    ∃ cs, Decimal.write (c :: ints) frac = c :: cs ∧ ∀ c' ∈ c :: cs, NumeralChar c' := by
  unfold Decimal.write
  split
  · exact ⟨ints, rfl, fun c' hc => .inl (hints c' hc)⟩
  · refine ⟨ints ++ '.' :: frac, rfl, fun c' hc => ?_⟩
    rw [← List.cons_append] at hc
    rcases List.mem_append.mp hc with hc | hc
    · exact .inl (hints c' hc)
    · rcases List.mem_cons.mp hc with rfl | hc
      · exact .inr (.inl rfl)
      · exact .inl (hfrac c' hc)

/-- **A numeral is read as the fraction it writes.** -/
theorem Number_write (hne : ints ≠ []) (hints : Digits ints) (hfrac : Digits frac) :
    Number (String.ofList (Decimal.write ints frac)) = .finite (Decimal.read ints frac)
      ∧ parseFloat (String.ofList (Decimal.write ints frac))
        = .finite (Decimal.read ints frac) := by
  have hscan := scanUnsigned_write hne hints hfrac [] (fun c hc => by cases hc)
  obtain ⟨c, ints, rfl⟩ := List.exists_cons_of_ne_nil hne
  obtain ⟨cs, hcs, hchars⟩ := write_cons hints hfrac
  rw [List.append_nil] at hscan
  rw [hcs] at hscan ⊢
  have hread := Number_of_scan (hints c List.mem_cons_self) hchars hscan
  rwa [show (scanExponent []).1 = 0 from rfl, shift_zero] at hread

/-- A numeral with an exponent. -/
theorem Number_scientific {exp : List Char} (hne : ints ≠ []) (hints : Digits ints)
    (hfrac : Digits frac) (hexp : exp ≠ []) (hdigits : Digits exp) :
    Number (String.ofList (Decimal.write ints frac ++ 'e' :: '+' :: exp))
      = .finite ((Decimal.read ints frac).shift (Nat.ofDigitChars 10 exp 0 : Nat)) := by
  have hscan := scanUnsigned_write hne hints hfrac ('e' :: '+' :: exp) (fun c hc => by
    cases hc
    decide)
  rw [scanExponent_plus hexp hdigits] at hscan
  obtain ⟨c, ints, rfl⟩ := List.exists_cons_of_ne_nil hne
  obtain ⟨cs, hcs, hchars⟩ := write_cons hints hfrac
  rw [hcs, List.cons_append] at hscan ⊢
  refine (Number_of_scan (hints c List.mem_cons_self) (fun c' hc => ?_) hscan).1
  rw [← List.cons_append] at hc
  rcases List.mem_append.mp hc with hc | hc
  · exact hchars c' hc
  · rcases List.mem_cons.mp hc with rfl | hc
    · exact .inr (.inr (.inl rfl))
    · rcases List.mem_cons.mp hc with rfl | hc
      · exact .inr (.inr (.inr rfl))
      · exact .inl (hdigits c' hc)

end Scan

end JavaScript
