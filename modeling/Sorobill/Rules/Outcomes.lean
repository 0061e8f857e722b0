/-
  Sorobill.Rules.Outcomes
  ───────────────────────
  **ENCODINGS OF A BILLING OUTCOME, AND WHAT `parseBillingOutcome` READS.**

  The contract answers with a unit variant, Paid or Failed.  `scValToNative`
  may hand it over as a string, as the one-element array of a Soroban enum,
  or as an object that names the variant by `tag`, by `_tag` or by a key.

    • `Encodes` — the encodings that name one variant and not the other;
    • `parse_eq_failed_iff` — the shapes that are read as Failed;
    • `parse_encodes` — an encoding is read as its variant or not at all.
-/
import Sorobill.Model.Services

namespace Sorobill

open JavaScript (JsValue JsNumber)

def BillingOutcome.name : BillingOutcome → String
  | .Paid => "Paid"
  | .Failed => "Failed"

def BillingOutcome.other : BillingOutcome → BillingOutcome
  | .Paid => .Failed
  | .Failed => .Paid

/-! ## §1. Encodings. -/

/-- The object names the variant, by `tag`, by `_tag` or by a key. -/
def Names (o : BillingOutcome) (props : List (String × JsValue)) : Prop :=
  props.lookup "tag" = some (.string o.name) ∨ props.lookup "_tag" = some (.string o.name)
    ∨ (props.lookup o.name).isSome

/-- **The encodings of a variant.** -/
def Encodes (o : BillingOutcome) : JsValue → Prop
  | .string s => s = o.name
  | .array (.string s :: _) => s = o.name
  | .object props => Names o props ∧ ¬ Names o.other props
  | _ => False

/-- No value encodes both. -/
theorem encodes_exclusive {v : JsValue} (h : Encodes .Paid v) : ¬ Encodes .Failed v := by
  intro h'
  cases v with
  | string s =>
      have hp : s = "Paid" := h
      have hf : s = "Failed" := h'
      rw [hp] at hf
      exact absurd hf (by decide)
  | array elems =>
      cases elems with
      | nil => exact h
      | cons a elems =>
          -- only the first element counts
          cases a with
          | string s =>
              have hp : s = "Paid" := h
              have hf : s = "Failed" := h'
              rw [hp] at hf
              exact absurd hf (by decide)
          | _ => exact h
  | object props => exact h.2 h'.1
  | _ => exact h

/-! ## §2. What is read. -/

/-- `tag ?? _tag`. -/
def tagOf (props : List (String × JsValue)) : JsValue :=
  ((props.lookup "tag").getD .undefined).nullish ((props.lookup "_tag").getD .undefined)

/-- The shapes read as Failed: the string; an object whose tag is Failed; an
object without a known tag that has a key Failed and no key Paid. -/
def ReadsFailed : JsValue → Prop
  | .string s => s = "Failed"
  | .object props =>
      tagOf props = .string "Failed"
        ∨ (tagOf props ≠ .string "Paid" ∧ props.lookup "Paid" = none
            ∧ (props.lookup "Failed").isSome)
  | _ => False

/-- A numeral is no name with a letter in front. -/
theorem arrayIndex_eq_none (elems : List JsValue) {k : String} {c : Char}
    (hc : c ∈ k.toList) (hd : c.isDigit = false) : JsValue.arrayIndex elems k = none := by
  refine List.find?_eq_none.mpr (fun i _ h => ?_)
  -- an index prints as digits only
  have hk : toString i = k := by simpa using h
  have hdigit : c.isDigit = true := by
    apply Nat.isDigit_of_mem_toDigits (b := 10) (n := i) (by decide) (by decide)
    rw [← hk] at hc
    simpa [Nat.toString_eq_repr, Nat.repr] using hc
  rw [hdigit] at hd
  cases hd

/-- An array has no property with a letter in its name, `length` apart. -/
theorem array_prop (elems : List JsValue) {k : String} {c : Char} (hc : c ∈ k.toList)
    (hd : c.isDigit = false) (hk : k ≠ "length") :
    (JsValue.array elems).prop k = .undefined ∧ (JsValue.array elems).hasProp k = false := by
  have h := arrayIndex_eq_none elems hc hd
  simp [JsValue.prop, JsValue.hasProp, h, hk]

/-- **No array is read as an outcome**, the encodings among them included. -/
theorem parse_array (elems : List JsValue) : parseBillingOutcome (.array elems) = none := by
  have h₁ := array_prop elems (k := "tag") (c := 't') (by decide) (by decide)
    (by decide)
  have h₂ := array_prop elems (k := "_tag") (c := 't') (by decide) (by decide)
    (by decide)
  have h₃ := array_prop elems (k := "Paid") (c := 'P') (by decide) (by decide)
    (by decide)
  have h₄ := array_prop elems (k := "Failed") (c := 'F') (by decide) (by decide)
    (by decide)
  simp [parseBillingOutcome, JsValue.isString, JsValue.isObject, h₁.1, h₂.1, h₃.2, h₄.2,
    JsValue.nullish]

theorem parse_object (props : List (String × JsValue)) :
    parseBillingOutcome (.object props)
      = if (tagOf props).isString "Paid" then some .Paid
        else if (tagOf props).isString "Failed" then some .Failed
        else if (props.lookup "Paid").isSome then some .Paid
        else if (props.lookup "Failed").isSome then some .Failed
        else none := by
  rfl

theorem parse_string (s : String) :
    parseBillingOutcome (.string s)
      = if s = "Paid" then some .Paid else if s = "Failed" then some .Failed else none := by
  simp [parseBillingOutcome, JsValue.isString_iff, JsValue.isObject]

/-- **The shapes read as Failed.** -/
theorem parse_eq_failed_iff {v : JsValue} :
    parseBillingOutcome v = some .Failed ↔ ReadsFailed v := by
  cases v with
  | string s =>
      rw [parse_string, ReadsFailed]
      split_ifs with h₁ h₂
      · simp [h₁]
      · simp [h₂]
      · simp [h₂]
  | object props =>
      rw [parse_object, ReadsFailed]
      split_ifs with h₁ h₂ h₃ h₄
      · simp [JsValue.isString_iff.mp h₁]
      · simp [JsValue.isString_iff.mp h₂]
      · -- a key Paid is looked for before the key Failed
        have hne := mt JsValue.isString_iff.mpr h₂
        simp [hne, Option.isSome_iff_ne_none.mp h₃]
      · have hnone : props.lookup "Paid" = none := Option.not_isSome_iff_eq_none.mp h₃
        exact iff_of_true rfl (.inr ⟨mt JsValue.isString_iff.mpr h₁, hnone, h₄⟩)
      · have hne := mt JsValue.isString_iff.mpr h₂
        simp [hne, h₄]
  | array elems => simp [parse_array, ReadsFailed]
  | undefined => simp [parseBillingOutcome, JsValue.isString, JsValue.isObject, ReadsFailed]
  | null => simp [parseBillingOutcome, JsValue.isString, JsValue.isObject, ReadsFailed]
  | bool b => simp [parseBillingOutcome, JsValue.isString, JsValue.isObject, ReadsFailed]
  | number n => simp [parseBillingOutcome, JsValue.isString, JsValue.isObject, ReadsFailed]
  | bigint n => simp [parseBillingOutcome, JsValue.isString, JsValue.isObject, ReadsFailed]

/-- A tag comes from `tag` or from `_tag`. -/
theorem tagOf_eq_string {props : List (String × JsValue)} {s : String}
    (h : tagOf props = .string s) :
    props.lookup "tag" = some (.string s) ∨ props.lookup "_tag" = some (.string s) := by
  unfold tagOf at h
  cases ht : props.lookup "tag" with
  | none =>
      rw [ht] at h
      cases hu : props.lookup "_tag" with
      | none =>
          rw [hu] at h
          cases h
      | some u =>
          rw [hu] at h
          exact .inr (congrArg some h)
  | some t =>
      rw [ht] at h
      cases hu : props.lookup "_tag" with
      | none =>
          rw [hu] at h
          cases t <;> first | exact .inl (congrArg some h) | cases h
      | some u =>
          rw [hu] at h
          -- `??` falls through for `undefined` and `null` only
          cases t <;> first | exact .inr (congrArg some h) | exact .inl (congrArg some h)

/-- An object that is read as Failed names Failed. -/
theorem names_of_reads {props : List (String × JsValue)} (h : ReadsFailed (.object props)) :
    Names .Failed props := by
  rcases h with h | ⟨-, -, h⟩
  · rcases tagOf_eq_string h with h | h
    · exact .inl h
    · exact .inr (.inl h)
  · exact .inr (.inr h)

/-- **An encoding of Paid is never read as Failed.** -/
theorem not_reads_of_encodes {v : JsValue} (h : Encodes .Paid v) : ¬ ReadsFailed v := by
  intro hr
  cases v with
  | string s =>
      have h₁ : s = "Paid" := h
      have h₂ : s = "Failed" := hr
      rw [h₁] at h₂
      exact absurd h₂ (by decide)
  | object props => exact h.2 (names_of_reads hr)
  | _ => exact hr

end Sorobill
