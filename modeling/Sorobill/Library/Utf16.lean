/-
  Sorobill.Library.Utf16
  ──────────────────────
  **STRINGS OF UTF-16 CODE UNITS**, and their bytes in UTF-8.

  Every sequence of units is a string.  A surrogate without its partner is no
  code point, and encodes as U+FFFD, so that different strings can have the
  same bytes.

    • `encode` — the bytes of a string;
    • `encode_inj_ascii` — a string with the bytes of an ASCII string is that
      string.
-/
import Mathlib.Data.List.Basic

namespace Utf16

/-! ## §1. Code points. -/

def isHigh (u : UInt16) : Bool := decide (0xD800 ≤ u.toNat) && decide (u.toNat ≤ 0xDBFF)

def isLow (u : UInt16) : Bool := decide (0xDC00 ≤ u.toNat) && decide (u.toNat ≤ 0xDFFF)

/-- The code point of a pair of surrogates. -/
def combine (u v : UInt16) : Nat :=
  0x10000 + (u.toNat - 0xD800) * 0x400 + (v.toNat - 0xDC00)

/-- The code point of a unit outside a pair. -/
def single (u : UInt16) : Nat := if isHigh u || isLow u then 0xFFFD else u.toNat

def codePoints : List UInt16 → List Nat
  | [] => []
  | [u] => [single u]
  | u :: v :: us =>
      if isHigh u && isLow v then combine u v :: codePoints us
      else single u :: codePoints (v :: us)

/-! ## §2. Bytes. -/

/-- A continuation byte. -/
def continuation (n : Nat) : UInt8 := .ofNat (0x80 + n % 0x40)

def utf8 (c : Nat) : List UInt8 :=
  if c < 0x80 then [.ofNat c]
  else if c < 0x800 then [.ofNat (0xC0 + c / 0x40), continuation c]
  else if c < 0x10000 then
    [.ofNat (0xE0 + c / 0x1000), continuation (c / 0x40), continuation c]
  else
    [.ofNat (0xF0 + c / 0x40000), continuation (c / 0x1000), continuation (c / 0x40),
      continuation c]

/-- The bytes of a string. -/
def encode (us : List UInt16) : List UInt8 := (codePoints us).flatMap utf8

/-- The units of a text that consists of code points. -/
def units (s : String) : List UInt16 :=
  s.toList.flatMap (fun c =>
    let n := c.toNat
    if n < 0x10000 then [.ofNat n]
    else [.ofNat (0xD800 + (n - 0x10000) / 0x400), .ofNat (0xDC00 + (n - 0x10000) % 0x400)])

/-- The high half of U+1F600 alone, and the replacement character. -/
example : encode [0xD83D] = [0xEF, 0xBF, 0xBD] ∧ encode [0xFFFD] = [0xEF, 0xBF, 0xBD] := by decide

/-! ## §3. ASCII. -/

def Ascii (us : List UInt16) : Prop := ∀ u ∈ us, u.toNat < 0x80

theorem single_ascii {u : UInt16} : single u < 0x80 ↔ u.toNat < 0x80 := by
  unfold single
  split
  next h =>
    simp only [isHigh, isLow, Bool.or_eq_true, Bool.and_eq_true, decide_eq_true_eq] at h
    omega
  next => exact Iff.rfl

theorem not_ascii_combine (u v : UInt16) : ¬ combine u v < 0x80 := by
  unfold combine
  omega

/-- A code point beyond ASCII ends with a continuation byte. -/
theorem utf8_ascii {c : Nat} (h : ∀ b ∈ utf8 c, b.toNat < 0x80) : c < 0x80 := by
  have hlast : continuation c ∉ utf8 c := by
    intro hmem
    have hbyte := h _ hmem
    unfold continuation at hbyte
    rw [UInt8.toNat_ofNat_of_lt' (by simp [UInt8.size]; omega)] at hbyte
    omega
  unfold utf8 at hlast
  split_ifs at hlast with h₁ h₂ h₃
  · exact h₁
  · simp at hlast
  · simp at hlast
  · simp at hlast

/-- **Bytes of ASCII come from units of ASCII only.** -/
theorem ascii_of_encode {us : List UInt16} (h : ∀ b ∈ encode us, b.toNat < 0x80) : Ascii us := by
  unfold encode at h
  fun_induction codePoints us with
  | case1 => exact fun u hu => absurd hu List.not_mem_nil
  | case2 u =>
      rw [List.flatMap_singleton] at h
      intro u' hu
      rw [List.mem_singleton.mp hu]
      exact single_ascii.mp (utf8_ascii h)
  | case3 u v us hpair ih =>
      rw [List.flatMap_cons] at h
      have hfirst := utf8_ascii (fun b hb => h b (List.mem_append_left _ hb))
      exact absurd hfirst (not_ascii_combine u v)
  | case4 u v us hpair ih =>
      rw [List.flatMap_cons] at h
      have hfirst := utf8_ascii (fun b hb => h b (List.mem_append_left _ hb))
      have hrest := ih (fun b hb => h b (List.mem_append_right _ hb))
      exact List.forall_mem_cons.mpr ⟨single_ascii.mp hfirst, hrest⟩

theorem not_high {u : UInt16} (h : u.toNat < 0x80) : isHigh u = false := by
  simp only [isHigh, Bool.and_eq_false_iff, decide_eq_false_iff_not]
  omega

theorem not_low {u : UInt16} (h : u.toNat < 0x80) : isLow u = false := by
  simp only [isLow, Bool.and_eq_false_iff, decide_eq_false_iff_not]
  omega

/-- A unit of ASCII is its own byte. -/
theorem utf8_single {u : UInt16} (h : u.toNat < 0x80) : utf8 (single u) = [u.toUInt8] := by
  rw [single, not_high h, not_low h, utf8]
  simp only [Bool.or_self, Bool.false_eq_true, if_false, if_pos h]
  rfl

theorem encode_ascii {us : List UInt16} (h : Ascii us) : encode us = us.map UInt16.toUInt8 := by
  unfold encode
  fun_induction codePoints us with
  | case1 => rfl
  | case2 u =>
      rw [List.flatMap_singleton, utf8_single (h u List.mem_cons_self)]
      rfl
  | case3 u v us hpair ih =>
      rw [not_high (h u List.mem_cons_self)] at hpair
      cases hpair
  | case4 u v us hpair ih =>
      have hrest := ih (fun u' hu => h u' (List.mem_cons_of_mem u hu))
      rw [List.flatMap_cons, utf8_single (h u List.mem_cons_self), hrest]
      rfl

theorem toUInt16_toUInt8 {u : UInt16} (h : u.toNat < 0x80) : u.toUInt8.toUInt16 = u := by
  apply UInt16.toNat_inj.mp
  rw [UInt8.toNat_toUInt16, UInt16.toNat_toUInt8]
  omega

/-- The units of an ASCII string are its bytes. -/
theorem Ascii.units_eq {us : List UInt16} (h : Ascii us) :
    (encode us).map UInt8.toUInt16 = us := by
  rw [encode_ascii h, List.map_map]
  exact (List.map_congr_left (fun u hu => toUInt16_toUInt8 (h u hu))).trans (List.map_id us)

/-- **Nothing else has the bytes of an ASCII string.** -/
theorem encode_inj_ascii {us vs : List UInt16} (hv : Ascii vs) (h : encode us = encode vs) :
    us = vs := by
  have hbytes : ∀ b ∈ encode us, b.toNat < 0x80 := by
    intro b hb
    rw [h, encode_ascii hv] at hb
    obtain ⟨v, hmem, rfl⟩ := List.mem_map.mp hb
    have hlt := hv v hmem
    rw [UInt16.toNat_toUInt8]
    omega
  rw [← (ascii_of_encode hbytes).units_eq, h, hv.units_eq]

theorem encode_eq_iff {us vs : List UInt16} (hv : Ascii vs) : encode us = encode vs ↔ us = vs :=
  ⟨encode_inj_ascii hv, fun h => by rw [h]⟩

/-- A text of ASCII has one unit for each character. -/
theorem ascii_units {s : String} (h : ∀ c ∈ s.toList, c.toNat < 0x80) : Ascii (units s) := by
  intro u hu
  obtain ⟨c, hc, hmem⟩ := List.mem_flatMap.mp hu
  have hlt := h c hc
  dsimp only at hmem
  rw [if_pos (by omega), List.mem_singleton] at hmem
  rw [hmem, UInt16.toNat_ofNat_of_lt' (by simp only [UInt16.size]; omega)]
  exact hlt

end Utf16
