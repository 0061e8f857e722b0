/-
  Sorobill.Model.Dates
  ────────────────────
  **DATES, BILLING PERIODS AND IDEMPOTENCY KEYS**
  (`src/lib/date-utils.ts`, `src/lib/billing-period.ts`,
  `src/lib/idempotency.ts`).

  A valid JavaScript `Date` is an `Instant`: a millisecond count inside
  ±8.64e15, the range being a field of the structure.  Arithmetic on dates
  may leave the range and then gives an Invalid Date, the `none` of `JsDate`.
  `setMonth` and `setFullYear` work in the local time of the host, which is
  modelled as a fixed offset `tz` (in ms) from UTC.

    • `nextPeriod` — one billing interval further;
    • `lt_nextPeriod` — and therefore later;
    • `toISOString` — the printed form, with sign and six digits outside
      the years 0 … 9999;
    • `billingIdempotencyKey_inj` — the key determines subscription and
      period end.
-/
import Sorobill.Library.Calendar
import Mathlib.Data.List.Basic
import Mathlib.Order.Basic

namespace Sorobill

open Calendar

/-! ## §1. Instants. -/

/-- 8.64e15, the largest absolute time value of a `Date`. -/
def maxTimeMs : Int := 8640000000000000

/-- `86_400_000`. -/
def msPerDay : Int := 86400000

/-- A valid `Date`. -/
structure Instant where
  ms : Int
  inRange : -maxTimeMs ≤ ms ∧ ms ≤ maxTimeMs
  deriving DecidableEq

/-- A `Date` object; `none` is the Invalid Date. -/
abbrev JsDate := Option Instant

namespace Instant

instance : LE Instant := ⟨fun a b => a.ms ≤ b.ms⟩

instance : LT Instant := ⟨fun a b => a.ms < b.ms⟩

instance (a b : Instant) : Decidable (a ≤ b) :=
  inferInstanceAs (Decidable (a.ms ≤ b.ms))

instance (a b : Instant) : Decidable (a < b) :=
  inferInstanceAs (Decidable (a.ms < b.ms))

theorem le_def {a b : Instant} : a ≤ b ↔ a.ms ≤ b.ms := Iff.rfl

theorem lt_def {a b : Instant} : a < b ↔ a.ms < b.ms := Iff.rfl

theorem ext_ms {a b : Instant} (h : a.ms = b.ms) : a = b := by
  cases a
  cases b
  cases h
  rfl

instance : PartialOrder Instant where
  le_refl a := Int.le_refl a.ms
  le_trans _ _ _ := Int.le_trans
  lt_iff_le_not_ge a b := by
    rw [lt_def, le_def, le_def]
    omega
  le_antisymm _ _ h₁ h₂ := ext_ms (Int.le_antisymm h₁ h₂)

end Instant

/-- `new Date(ms)` for an integral `ms`. -/
def timeClip (ms : Int) : JsDate :=
  if h : -maxTimeMs ≤ ms ∧ ms ≤ maxTimeMs then some ⟨ms, h⟩ else none

theorem timeClip_eq_some {ms : Int} {t : Instant} (h : timeClip ms = some t) :
    t.ms = ms := by
  unfold timeClip at h
  split at h
  · cases h
    rfl
  · cases h

theorem timeClip_ms (d : Instant) : timeClip d.ms = some d := dif_pos d.inRange

/-! ## §2. `date-utils`. -/

/-- `new Date(d.getTime() + n * 86_400_000)`. -/
def addDays (d : Instant) (n : Int) : JsDate := timeClip (d.ms + n * msPerDay)

def addWeeks (d : Instant) (n : Int) : JsDate := addDays d (n * 7)

/-- The day and time of day that a host with offset `tz` reads off `d`. -/
def localDay (tz : Int) (d : Instant) : Int := (d.ms + tz) / msPerDay

def localTimeOfDay (tz : Int) (d : Instant) : Int := (d.ms + tz) % msPerDay

/-- `setMonth(getMonth() + n)`: the date of the month is kept, so a date the
target month does not have spills into the following one. -/
def addMonths (tz : Int) (d : Instant) (n : Int) : JsDate :=
  -- year, month and date are those of the host, the time of day is kept
  let day := localDay tz d
  let newDay := makeDay (yearOfDay day) (monthOfDay day + n) (dateOfDay day)
  timeClip (newDay * msPerDay + localTimeOfDay tz d - tz)

/-- `setFullYear(getFullYear() + n)`. -/
def addYears (tz : Int) (d : Instant) (n : Int) : JsDate :=
  let day := localDay tz d
  let newDay := makeDay (yearOfDay day + n) (monthOfDay day) (dateOfDay day)
  timeClip (newDay * msPerDay + localTimeOfDay tz d - tz)

/-! ## §3. `nextPeriod`. -/

inductive BillingInterval where
  | DAILY
  | WEEKLY
  | MONTHLY
  | YEARLY
  deriving DecidableEq, Repr

/-- Advance a subscription's billing period by one interval. -/
def nextPeriod (tz : Int) (start : Instant) (interval : BillingInterval)
    (count : Int) : JsDate :=
  match interval with
  | .DAILY => addDays start count
  | .WEEKLY => addWeeks start count
  | .MONTHLY => addMonths tz start count
  | .YEARLY => addYears tz start count

/-- **A period of at least one interval ends after it begins.** -/
theorem lt_nextPeriod {tz : Int} {start finish : Instant} {interval : BillingInterval}
    {count : Int} (hcount : 1 ≤ count)
    (h : nextPeriod tz start interval count = some finish) : start < finish := by
  rw [Instant.lt_def]
  have hlocal : start.ms = localDay tz start * msPerDay + localTimeOfDay tz start - tz := by
    unfold localDay localTimeOfDay msPerDay
    omega
  -- months and years keep the time of day, so the days decide
  have hcivil := makeDay_civil (localDay tz start)
  cases interval with
  | DAILY =>
      rw [timeClip_eq_some h]
      unfold msPerDay
      omega
  | WEEKLY =>
      rw [timeClip_eq_some h]
      unfold msPerDay
      omega
  | MONTHLY =>
      have hlt := makeDay_strictMono (yearOfDay (localDay tz start))
        (dateOfDay (localDay tz start))
        (show (monthOfDay (localDay tz start) : Int) < monthOfDay (localDay tz start) + count
          by omega)
      rw [timeClip_eq_some h, hlocal]
      unfold msPerDay
      omega
  | YEARLY =>
      have hlt := makeDay_strictMono (yearOfDay (localDay tz start))
        (dateOfDay (localDay tz start))
        (show (monthOfDay (localDay tz start) : Int)
          < monthOfDay (localDay tz start) + 12 * count by omega)
      rw [← makeDay_carry] at hlt
      rw [timeClip_eq_some h, hlocal]
      unfold msPerDay
      omega

/-! ## §4. `toISOString`. -/

/-- The last `width` decimal digits of `n`. -/
def digits : Nat → Nat → List Char
  | 0, _ => []
  | width + 1, n => digits width (n / 10) ++ [Nat.digitChar (n % 10)]

/-- The year field: four digits, or a sign and six digits. -/
def isoYear (y : Int) : List Char :=
  if 0 ≤ y ∧ y ≤ 9999 then digits 4 y.toNat
  else if y < 0 then '-' :: digits 6 (-y).toNat
  else '+' :: digits 6 y.toNat

/-- `-MM-DDTHH:mm:ss.sssZ`. -/
def isoTail (day timeOfDay : Int) : List Char :=
  '-' :: digits 2 (monthOfDay day + 1) ++
  '-' :: digits 2 (dateOfDay day).toNat ++
  'T' :: digits 2 (timeOfDay / 3600000).toNat ++
  ':' :: digits 2 (timeOfDay / 60000 % 60).toNat ++
  ':' :: digits 2 (timeOfDay / 1000 % 60).toNat ++
  '.' :: digits 3 (timeOfDay % 1000).toNat ++ ['Z']

/-- The characters of `toISOString()`. -/
def isoChars (t : Instant) : List Char :=
  isoYear (yearOfDay (t.ms / msPerDay))
    ++ isoTail (t.ms / msPerDay) (t.ms % msPerDay)

def Instant.toISOString (t : Instant) : String := String.ofList (isoChars t)

/-- `${subscriptionId}:${periodEnd.toISOString()}`. -/
def billingIdempotencyKey (subscriptionId : String) (periodEnd : Instant) : String :=
  subscriptionId ++ ":" ++ periodEnd.toISOString

example : (Instant.mk 1767225600000 (by decide)).toISOString
    = "2026-01-01T00:00:00.000Z" := by decide

/-! ## §5. The printed form determines the instant. -/

@[simp] theorem digits_length (w n : Nat) : (digits w n).length = w := by
  induction w generalizing n with
  | zero => rfl
  | succ w ih => simp [digits, ih]

theorem digitChar_inj {a b : Nat} (ha : a < 10) (hb : b < 10)
    (h : Nat.digitChar a = Nat.digitChar b) : a = b := by
  have key : ∀ a < 10, ∀ b < 10, Nat.digitChar a = Nat.digitChar b → a = b := by
    decide
  exact key a ha b hb h

/-- Fixed-width numerals of numbers that fit are injective. -/
theorem digits_inj {w : Nat} : ∀ {n m : Nat}, n < 10 ^ w → m < 10 ^ w →
    digits w n = digits w m → n = m := by
  induction w with
  | zero =>
      intro n m hn hm _
      omega
  | succ w ih =>
      intro n m hn hm h
      rw [Nat.pow_succ] at hn hm
      obtain ⟨hinit, hlast⟩ := List.append_inj' h rfl
      have hq := ih (by omega) (by omega) hinit
      have hr := digitChar_inj (Nat.mod_lt n (by decide)) (Nat.mod_lt m (by decide))
        (List.head_eq_of_cons_eq hlast)
      omega

/-- The year of an instant has at most six digits. -/
theorem yearOfDay_bound (t : Instant) :
    -1000000 < yearOfDay (t.ms / msPerDay) ∧ yearOfDay (t.ms / msPerDay) < 1000000 := by
  obtain ⟨h₁, h₂⟩ := t.inRange
  obtain ⟨g₁, g₂⟩ := yearOfDay_spec (t.ms / msPerDay)
  unfold maxTimeMs at h₁ h₂
  unfold msPerDay at *
  unfold dayFromYear at g₁ g₂
  omega

theorem isoYear_inj {y z : Int} (hy : -1000000 < y ∧ y < 1000000)
    (hz : -1000000 < z ∧ z < 1000000) (h : isoYear y = isoYear z) : y = z := by
  have hlen := congrArg List.length h
  unfold isoYear at h hlen
  -- four digits, a minus and a plus differ in length or in the first character
  split_ifs at h hlen with c₁ c₂ c₃ c₄ c₅ c₆ <;>
    simp only [digits_length, List.length_cons, List.cons.injEq, true_and,
      Char.reduceEq, false_and] at h hlen
  · have := digits_inj (by omega) (by omega) h
    omega
  · omega
  · omega
  · omega
  · have := digits_inj (by omega) (by omega) h
    omega
  · omega
  · have := digits_inj (by omega) (by omega) h
    omega

@[simp] theorem isoTail_length (d s : Int) : (isoTail d s).length = 20 := by
  simp [isoTail]

/-- Hours, minutes, seconds and milliseconds determine the time of day. -/
theorem timeOfDay_ext {s u : Int} (hs : 0 ≤ s) (hu : 0 ≤ u)
    (hh : (s / 3600000).toNat = (u / 3600000).toNat)
    (hm : (s / 60000 % 60).toNat = (u / 60000 % 60).toNat)
    (hsec : (s / 1000 % 60).toNat = (u / 1000 % 60).toNat)
    (hms : (s % 1000).toNat = (u % 1000).toNat) : s = u := by
  have h₁ : s / 3600000 = u / 3600000 := by omega
  have h₂ : s / 60000 % 60 = u / 60000 % 60 := by omega
  have h₃ : s / 1000 % 60 = u / 1000 % 60 := by omega
  have h₄ : s % 1000 = u % 1000 := by omega
  omega

theorem isoTail_inj {d e s u : Int} (hs : 0 ≤ s ∧ s < msPerDay)
    (hu : 0 ≤ u ∧ u < msPerDay) (h : isoTail d s = isoTail e u) :
    monthOfDay d = monthOfDay e ∧ dateOfDay d = dateOfDay e ∧ s = u := by
  have hd := monthOfDay_spec d
  have he := monthOfDay_spec e
  have hd' := dateOfDay_spec d
  have he' := dateOfDay_spec e
  unfold msPerDay at hs hu
  unfold isoTail at h
  simp only [List.append_assoc, List.cons_append] at h
  -- every field has a fixed width: cut them off one after the other
  obtain ⟨hm, h⟩ := List.append_inj (List.tail_eq_of_cons_eq h) (by simp)
  obtain ⟨hdt, h⟩ := List.append_inj (List.tail_eq_of_cons_eq h) (by simp)
  obtain ⟨hh, h⟩ := List.append_inj (List.tail_eq_of_cons_eq h) (by simp)
  obtain ⟨hmin, h⟩ := List.append_inj (List.tail_eq_of_cons_eq h) (by simp)
  obtain ⟨hsec, h⟩ := List.append_inj (List.tail_eq_of_cons_eq h) (by simp)
  obtain ⟨hms, -⟩ := List.append_inj (List.tail_eq_of_cons_eq h) (by simp)
  have hm := digits_inj (by omega) (by omega) hm
  have hdt := digits_inj (by omega) (by omega) hdt
  have hh := digits_inj (by omega) (by omega) hh
  have hmin := digits_inj (by omega) (by omega) hmin
  have hsec := digits_inj (by omega) (by omega) hsec
  have hms := digits_inj (by omega) (by omega) hms
  exact ⟨by omega, by omega, timeOfDay_ext hs.1 hu.1 hh hmin hsec hms⟩

theorem timeOfDay_bound (t : Instant) :
    0 ≤ t.ms % msPerDay ∧ t.ms % msPerDay < msPerDay := by
  unfold msPerDay
  omega

/-- **`toISOString` is injective** on the whole range of `Date`. -/
theorem isoChars_inj {s t : Instant} (h : isoChars s = isoChars t) : s = t := by
  obtain ⟨hy, htail⟩ := List.append_inj' h (by simp)
  have hy := isoYear_inj (yearOfDay_bound s) (yearOfDay_bound t) hy
  obtain ⟨hm, hd, hs⟩ := isoTail_inj (timeOfDay_bound s) (timeOfDay_bound t) htail
  have hday := day_ext hy hm hd
  -- day and time of day are quotient and remainder of the time value
  apply Instant.ext_ms
  unfold msPerDay at *
  omega

theorem digits_isDigit {w n : Nat} : ∀ c ∈ digits w n, c.isDigit := by
  induction w generalizing n with
  | zero => exact fun c hc => absurd hc List.not_mem_nil
  | succ w ih =>
      intro c hc
      rcases List.mem_append.mp hc with hc | hc
      · exact ih c hc
      · rw [List.mem_singleton.mp hc, Nat.isDigit_digitChar]
        exact decide_eq_true (Nat.mod_lt n (by decide))

/-- A printed year has no colon. -/
theorem isoYear_head (y : Int) : ∀ c ∈ isoYear y, c ≠ ':' := by
  have hdigit : ∀ w n, ∀ c ∈ digits w n, c ≠ ':' := by
    rintro w n c hc rfl
    exact absurd (digits_isDigit ':' hc) (by decide)
  intro c hc
  unfold isoYear at hc
  split_ifs at hc
  · exact hdigit _ _ c hc
  · rcases List.mem_cons.mp hc with rfl | hc
    · decide
    · exact hdigit _ _ c hc
  · rcases List.mem_cons.mp hc with rfl | hc
    · decide
    · exact hdigit _ _ c hc

/-- Cutting a list at its first `c` is unambiguous. -/
theorem cut_at_first_inj {c : Char} :
    ∀ {u v a b : List Char}, c ∉ u → c ∉ v → u ++ c :: a = v ++ c :: b →
      u = v ∧ a = b
  | [], [], _, _, _, _, h => ⟨rfl, List.tail_eq_of_cons_eq h⟩
  | [], y :: v, _, _, _, hv, h => by
      exact absurd (List.head_eq_of_cons_eq h) (fun e => hv (by simp [e]))
  | x :: u, [], _, _, hu, _, h => by
      exact absurd (List.head_eq_of_cons_eq h) (fun e => hu (by simp [e]))
  | x :: u, y :: v, a, b, hu, hv, h => by
      have hxy : x = y := List.head_eq_of_cons_eq h
      obtain ⟨h₁, h₂⟩ := cut_at_first_inj
        (fun hc => hu (List.mem_cons_of_mem x hc))
        (fun hc => hv (List.mem_cons_of_mem y hc)) (List.tail_eq_of_cons_eq h)
      exact ⟨by rw [hxy, h₁], h₂⟩

/-- A text, a colon and a printed year: the last colon separates the two, so
both parts are determined even when the text contains colons itself. -/
theorem colon_isoYear_inj {a b : List Char} {y z : Int}
    (h : a ++ ':' :: isoYear y = b ++ ':' :: isoYear z) :
    a = b ∧ isoYear y = isoYear z := by
  -- read from the back, the first colon is the separator
  have hrev := congrArg List.reverse h
  simp only [List.reverse_append, List.reverse_cons, List.append_assoc,
    List.singleton_append] at hrev
  obtain ⟨h₁, h₂⟩ := cut_at_first_inj
    (fun hc => isoYear_head y ':' (List.mem_reverse.mp hc) rfl)
    (fun hc => isoYear_head z ':' (List.mem_reverse.mp hc) rfl) hrev
  exact ⟨List.reverse_injective h₂, List.reverse_injective h₁⟩

/-- **The idempotency key determines subscription and period end**, for ids
with arbitrary characters and dates in the whole range. -/
theorem billingIdempotencyKey_inj {a b : String} {s t : Instant} :
    billingIdempotencyKey a s = billingIdempotencyKey b t ↔ a = b ∧ s = t := by
  constructor
  · intro h
    have h := congrArg String.toList h
    simp only [billingIdempotencyKey, Instant.toISOString, String.toList_append,
      String.toList_ofList, isoChars] at h
    -- the tail has a fixed length, so it comes off first
    have h' : (a.toList ++ ':' :: isoYear (yearOfDay (s.ms / msPerDay)))
          ++ isoTail (s.ms / msPerDay) (s.ms % msPerDay)
        = (b.toList ++ ':' :: isoYear (yearOfDay (t.ms / msPerDay)))
          ++ isoTail (t.ms / msPerDay) (t.ms % msPerDay) := by
      simpa using h
    obtain ⟨hyear, htail⟩ := List.append_inj' h' (by simp)
    obtain ⟨hid, hy⟩ := colon_isoYear_inj hyear
    refine ⟨String.toList_injective hid, isoChars_inj ?_⟩
    rw [isoChars, isoChars, hy, htail]
  · intro h
    obtain ⟨rfl, rfl⟩ := h
    rfl

end Sorobill
