/-
  Sorobill.Library.Calendar
  ─────────────────────────
  **THE PROLEPTIC GREGORIAN CALENDAR ON DAY NUMBERS.**

  Day numbers count from 1970-01-01 (day 0) and extend to both sides.  The
  definitions follow the ECMAScript abstract operations (`DayFromYear`,
  `YearFromTime`, `MonthFromTime`, `DateFromTime`, `MakeDay`): months are
  numbered 0 … 11 and `makeDay` accepts months and dates out of range.

    • `yearOfDay_spec` — the year of a day is the one whose days enclose it;
    • `monthOfDay_spec` — likewise the month within the year;
    • `makeDay_civil` — decomposing a day and reassembling it is the
      identity, so year, month and date determine the day;
    • `makeDay_strictMono` — the same date of a later month is a later day;
    • `monthIndex_eq_iff` — months counted without years: a day is in the
      month whose days enclose it;
    • `monthIndex_same_date` — the same date of another month is in that
      month exactly when the month has that date.
-/
import Mathlib.Order.Monotone.Basic
import Mathlib.Tactic.SplitIfs
import Mathlib.Algebra.Order.Ring.Int

namespace Calendar

/-! ## §1. Years. -/

/-- The number of the first day of the year `y`. -/
def dayFromYear (y : Int) : Int :=
  365 * (y - 1970) + (y - 1969) / 4 - (y - 1901) / 100 + (y - 1601) / 400

/-- Leap years of the proleptic Gregorian calendar. -/
def isLeap (y : Int) : Bool :=
  y % 4 == 0 && (y % 100 != 0 || y % 400 == 0)

/-- The year that contains day `d`.  400 years have 146097 days, which gives
the year up to one; the comparison settles it. -/
def yearOfDay (d : Int) : Int :=
  let y := 1970 + d * 400 / 146097
  if d < dayFromYear y then y - 1
  else if dayFromYear (y + 1) ≤ d then y + 1
  else y

/-- The estimate is never more than one year too late … -/
theorem dayFromYear_estimate_pred_le (d : Int) :
    dayFromYear (1970 + d * 400 / 146097 - 1) ≤ d := by
  generalize hy : 1970 + d * 400 / 146097 = y
  unfold dayFromYear
  omega

/-- … and never more than one year too early. -/
theorem lt_dayFromYear_estimate_add_two (d : Int) :
    d < dayFromYear (1970 + d * 400 / 146097 + 2) := by
  generalize hy : 1970 + d * 400 / 146097 = y
  unfold dayFromYear
  omega

/-- **The year of a day encloses it.** -/
theorem yearOfDay_spec (d : Int) :
    dayFromYear (yearOfDay d) ≤ d ∧ d < dayFromYear (yearOfDay d + 1) := by
  have hlo := dayFromYear_estimate_pred_le d
  have hhi := lt_dayFromYear_estimate_add_two d
  -- the estimate is off by one at most, and each branch is one of the three cases
  unfold yearOfDay
  generalize 1970 + d * 400 / 146097 = y at hlo hhi ⊢
  dsimp only
  split_ifs with h₁ h₂
  · exact ⟨hlo, by rwa [Int.sub_add_cancel]⟩
  · exact ⟨h₂, by rwa [Int.add_assoc]⟩
  · exact ⟨by omega, by omega⟩

/-- A year has 365 days, a leap year 366. -/
theorem dayFromYear_succ (y : Int) :
    dayFromYear (y + 1) = dayFromYear y + (if isLeap y then 366 else 365) := by
  have hleap : isLeap y = true ↔ y % 4 = 0 ∧ (y % 100 ≠ 0 ∨ y % 400 = 0) := by
    simp [isLeap]
  unfold dayFromYear
  split_ifs with h
  · rw [hleap] at h
    omega
  · rw [hleap] at h
    omega

/-! ## §2. Months. -/

/-- Days of the year before the month `m` (0 … 11; 12 closes the year). -/
def daysBeforeMonth (leap : Bool) (m : Nat) : Int :=
  let l := if leap then 1 else 0
  match m with
  | 0 => 0
  | 1 => 31
  | 2 => 59 + l
  | 3 => 90 + l
  | 4 => 120 + l
  | 5 => 151 + l
  | 6 => 181 + l
  | 7 => 212 + l
  | 8 => 243 + l
  | 9 => 273 + l
  | 10 => 304 + l
  | 11 => 334 + l
  | _ => 365 + l

/-- The last of the months `0 … m` that begins at or before day `k`. -/
def lastMonthUpTo (leap : Bool) (k : Int) : Nat → Nat
  | 0 => 0
  | m + 1 =>
      if daysBeforeMonth leap (m + 1) ≤ k then m + 1
      else lastMonthUpTo leap k m

/-- The month that contains day `k` of a year (`k = 0` is 1 January). -/
def monthOfYearDay (leap : Bool) (k : Int) : Nat := lastMonthUpTo leap k 11

theorem lastMonthUpTo_spec (leap : Bool) {k : Int} (h₀ : 0 ≤ k) :
    ∀ {m : Nat}, k < daysBeforeMonth leap (m + 1) →
      lastMonthUpTo leap k m ≤ m
        ∧ daysBeforeMonth leap (lastMonthUpTo leap k m) ≤ k
        ∧ k < daysBeforeMonth leap (lastMonthUpTo leap k m + 1)
  | 0, h => ⟨Nat.le_refl 0, h₀, h⟩
  | m + 1, h => by
      unfold lastMonthUpTo
      split
      next hle => exact ⟨Nat.le_refl _, hle, h⟩
      next hlt =>
        obtain ⟨g₁, g₂, g₃⟩ := lastMonthUpTo_spec leap h₀ (Int.not_le.mp hlt)
        exact ⟨Nat.le_succ_of_le g₁, g₂, g₃⟩

/-- **The month of a day of the year encloses it.** -/
theorem monthOfYearDay_spec (leap : Bool) {k : Int} (h₀ : 0 ≤ k)
    (h₁ : k < if leap then 366 else 365) :
    monthOfYearDay leap k ≤ 11
      ∧ daysBeforeMonth leap (monthOfYearDay leap k) ≤ k
      ∧ k < daysBeforeMonth leap (monthOfYearDay leap k + 1) :=
  lastMonthUpTo_spec leap h₀ (by cases leap <;> exact h₁)

/-- The days of the month `m` of a year. -/
def daysOfMonth (leap : Bool) : Nat → Int
  | 1 => if leap then 29 else 28
  | 3 | 5 | 8 | 10 => 30
  | _ => 31

/-- A month has 28 to 31 days. -/
theorem daysOfMonth_bounds (leap : Bool) (m : Nat) :
    28 ≤ daysOfMonth leap m ∧ daysOfMonth leap m ≤ 31 := by
  unfold daysOfMonth
  split
  · split <;> decide
  all_goals decide

/-- A month ends where the next one begins. -/
theorem daysBeforeMonth_succ (leap : Bool) {m : Nat} (hm : m ≤ 11) :
    daysBeforeMonth leap (m + 1) = daysBeforeMonth leap m + daysOfMonth leap m := by
  have : m = 0 ∨ m = 1 ∨ m = 2 ∨ m = 3 ∨ m = 4 ∨ m = 5 ∨ m = 6 ∨ m = 7 ∨ m = 8
      ∨ m = 9 ∨ m = 10 ∨ m = 11 := by omega
  rcases this with rfl | rfl | rfl | rfl | rfl | rfl | rfl | rfl | rfl | rfl | rfl | rfl <;>
    cases leap <;> decide

/-! ## §3. Dates. -/

/-- The month of day `d`. -/
def monthOfDay (d : Int) : Nat :=
  monthOfYearDay (isLeap (yearOfDay d)) (d - dayFromYear (yearOfDay d))

/-- The day of the month of day `d` (1 … 31). -/
def dateOfDay (d : Int) : Int :=
  d - dayFromYear (yearOfDay d)
    - daysBeforeMonth (isLeap (yearOfDay d)) (monthOfDay d) + 1

/-- `MakeDay`: the day with the given year, month and date, where months
outside 0 … 11 carry into the year and dates outside the month carry on. -/
def makeDay (year month date : Int) : Int :=
  let y := year + month / 12
  dayFromYear y + daysBeforeMonth (isLeap y) (month % 12).toNat + date - 1

theorem monthOfDay_spec (d : Int) :
    monthOfDay d ≤ 11
      ∧ daysBeforeMonth (isLeap (yearOfDay d)) (monthOfDay d)
          ≤ d - dayFromYear (yearOfDay d)
      ∧ d - dayFromYear (yearOfDay d)
          < daysBeforeMonth (isLeap (yearOfDay d)) (monthOfDay d + 1) := by
  obtain ⟨h₁, h₂⟩ := yearOfDay_spec d
  rw [dayFromYear_succ] at h₂
  exact monthOfYearDay_spec _ (by omega) (by omega)

theorem dateOfDay_spec (d : Int) : 1 ≤ dateOfDay d ∧ dateOfDay d ≤ 31 := by
  obtain ⟨h₀, h₁, h₂⟩ := monthOfDay_spec d
  have h₃ := daysBeforeMonth_succ (isLeap (yearOfDay d)) h₀
  have h₄ := (daysOfMonth_bounds (isLeap (yearOfDay d)) (monthOfDay d)).2
  unfold dateOfDay
  omega

/-- **Reassembling the decomposition of a day gives the day back.** -/
theorem makeDay_civil (d : Int) :
    makeDay (yearOfDay d) (monthOfDay d) (dateOfDay d) = d := by
  obtain ⟨h₀, -, -⟩ := monthOfDay_spec d
  -- the month is in range, so nothing carries into the year
  have hdiv : (monthOfDay d : Int) / 12 = 0 := by omega
  have hmod : ((monthOfDay d : Int) % 12).toNat = monthOfDay d := by omega
  unfold makeDay
  simp only [hdiv, hmod, Int.add_zero]
  unfold dateOfDay
  omega

/-- Twelve months make a year. -/
theorem makeDay_carry (year month date k : Int) :
    makeDay (year + k) month date = makeDay year (month + 12 * k) date := by
  have hdiv : (month + 12 * k) / 12 = month / 12 + k := by omega
  have hmod : (month + 12 * k) % 12 = month % 12 := by omega
  unfold makeDay
  rw [hdiv, hmod, Int.add_assoc, Int.add_comm k]

/-- The same date, one month later. -/
theorem makeDay_lt_succ (year month date : Int) :
    makeDay year month date < makeDay year (month + 1) date := by
  have hmonth := daysBeforeMonth_succ (isLeap (year + month / 12))
    (m := (month % 12).toNat) (by omega)
  have hlength := (daysOfMonth_bounds (isLeap (year + month / 12)) (month % 12).toNat).1
  unfold makeDay
  dsimp only
  rcases (show month % 12 < 11 ∨ month % 12 = 11 by omega) with h | h
  · -- the next month of the same year
    have hdiv : (month + 1) / 12 = month / 12 := by omega
    have hmod : ((month + 1) % 12).toNat = (month % 12).toNat + 1 := by omega
    rw [hdiv, hmod]
    omega
  · -- from December to January
    have hdiv : (month + 1) / 12 = month / 12 + 1 := by omega
    have hmod : ((month + 1) % 12).toNat = 0 := by omega
    have hsucc := dayFromYear_succ (year + month / 12)
    have hdec : (month % 12).toNat = 11 := by omega
    rw [hdiv, hmod, ← Int.add_assoc, hsucc]
    rw [hdec] at hmonth hlength ⊢
    have hyear : daysBeforeMonth (isLeap (year + month / 12)) (11 + 1)
        = if isLeap (year + month / 12) then 366 else 365 := by
      cases isLeap (year + month / 12) <;> rfl
    have hzero : daysBeforeMonth (isLeap (year + month / 12 + 1)) 0 = 0 := rfl
    rw [hyear] at hmonth
    omega

/-- **The same date of a later month is a later day.** -/
theorem makeDay_strictMono (year date : Int) {m n : Int} (h : m < n) :
    makeDay year m date < makeDay year n date :=
  strictMono_int_of_lt_succ (fun month => makeDay_lt_succ year month date) h

/-- Year, month and date determine the day. -/
theorem day_ext {d e : Int} (hy : yearOfDay d = yearOfDay e)
    (hm : monthOfDay d = monthOfDay e) (hd : dateOfDay d = dateOfDay e) :
    d = e := by
  rw [← makeDay_civil d, ← makeDay_civil e, hy, hm, hd]

/-! ## §4. Months counted without years. -/

/-- The month of day `d`, counted from January of the year 0. -/
def monthIndex (d : Int) : Int := yearOfDay d * 12 + monthOfDay d

/-- The first day of a month. -/
def firstOfMonth (k : Int) : Int := makeDay 0 k 1

/-- The number of days of a month. -/
def monthLength (k : Int) : Int := firstOfMonth (k + 1) - firstOfMonth k

theorem makeDay_eq (year month date : Int) :
    makeDay year month date = firstOfMonth (year * 12 + month) + (date - 1) := by
  have hcarry := makeDay_carry 0 month date year
  rw [Int.zero_add, Int.add_comm month, Int.mul_comm 12] at hcarry
  rw [hcarry]
  unfold firstOfMonth makeDay
  dsimp only
  omega

theorem firstOfMonth_lt {j k : Int} (h : j < k) : firstOfMonth j < firstOfMonth k :=
  makeDay_strictMono 0 1 h

theorem firstOfMonth_le {j k : Int} (h : j ≤ k) : firstOfMonth j ≤ firstOfMonth k := by
  rcases Int.lt_or_eq_of_le h with hlt | rfl
  · exact (firstOfMonth_lt hlt).le
  · exact le_rfl

theorem firstOfMonth_eq (k : Int) : firstOfMonth k
    = dayFromYear (k / 12) + daysBeforeMonth (isLeap (k / 12)) (k % 12).toNat := by
  unfold firstOfMonth makeDay
  dsimp only
  rw [Int.zero_add]
  omega

theorem monthLength_eq (k : Int) :
    monthLength k = daysOfMonth (isLeap (k / 12)) (k % 12).toNat := by
  have hdays := daysBeforeMonth_succ (isLeap (k / 12)) (m := (k % 12).toNat) (by omega)
  unfold monthLength
  rw [firstOfMonth_eq, firstOfMonth_eq]
  rcases (show k % 12 < 11 ∨ k % 12 = 11 by omega) with h | h
  · -- the next month is in the same year
    have hdiv : (k + 1) / 12 = k / 12 := by omega
    have hmod : ((k + 1) % 12).toNat = (k % 12).toNat + 1 := by omega
    rw [hdiv, hmod]
    omega
  · -- December, the last month
    have hdiv : (k + 1) / 12 = k / 12 + 1 := by omega
    have hmod : ((k + 1) % 12).toNat = 0 := by omega
    have hdec : (k % 12).toNat = 11 := by omega
    have hyear : dayFromYear (k / 12 + 1) = dayFromYear (k / 12)
        + daysBeforeMonth (isLeap (k / 12)) (11 + 1) := by
      rw [dayFromYear_succ]
      cases isLeap (k / 12) <;> rfl
    have hzero : daysBeforeMonth (isLeap (k / 12 + 1)) 0 = 0 := rfl
    rw [hdec] at hdays ⊢
    rw [hdiv, hmod, hyear]
    omega

/-- A month has 28 to 31 days. -/
theorem monthLength_bounds (k : Int) : 28 ≤ monthLength k ∧ monthLength k ≤ 31 := by
  rw [monthLength_eq]
  exact daysOfMonth_bounds _ _

/-- **Only February changes its length** from year to year. -/
theorem monthLength_add_years {k : Int} (hk : k % 12 ≠ 1) (n : Int) :
    monthLength (k + 12 * n) = monthLength k := by
  have hmod : (k + 12 * n) % 12 = k % 12 := by omega
  have hmonth : (k % 12).toNat ≠ 1 := by omega
  rw [monthLength_eq, monthLength_eq, hmod]
  unfold daysOfMonth
  split
  next h => exact absurd h hmonth
  all_goals rfl

theorem firstOfMonth_monthIndex (d : Int) :
    firstOfMonth (monthIndex d) = d - (dateOfDay d - 1) := by
  have hcivil := makeDay_civil d
  rw [makeDay_eq] at hcivil
  unfold monthIndex
  omega

/-- **A day is in the month whose days enclose it.** -/
theorem monthIndex_spec (d : Int) :
    firstOfMonth (monthIndex d) ≤ d ∧ d < firstOfMonth (monthIndex d + 1) := by
  obtain ⟨hm, hle, hlt⟩ := monthOfDay_spec d
  have hfirst := firstOfMonth_monthIndex d
  have hdate := dateOfDay_spec d
  have hlength := monthLength_eq (monthIndex d)
  have hdays := daysBeforeMonth_succ (isLeap (yearOfDay d)) hm
  have hyear : monthIndex d / 12 = yearOfDay d := by
    unfold monthIndex
    omega
  have hmonth : (monthIndex d % 12).toNat = monthOfDay d := by
    unfold monthIndex
    omega
  rw [hyear, hmonth] at hlength
  unfold monthLength at hlength
  unfold dateOfDay at hfirst hdate
  omega

theorem monthIndex_eq_iff {d k : Int} :
    monthIndex d = k ↔ firstOfMonth k ≤ d ∧ d < firstOfMonth (k + 1) := by
  constructor
  · rintro rfl
    exact monthIndex_spec d
  · intro h
    obtain ⟨hlo, hhi⟩ := monthIndex_spec d
    -- an earlier month has ended before `d`, a later one has not begun
    rcases lt_trichotomy (monthIndex d) k with hlt | heq | hgt
    · have hend := firstOfMonth_le (Int.add_one_le_iff.mpr hlt)
      omega
    · exact heq
    · have hend := firstOfMonth_le (Int.add_one_le_iff.mpr hgt)
      omega

theorem monthIndex_mono {d e : Int} (h : d ≤ e) : monthIndex d ≤ monthIndex e := by
  by_contra hlt
  have hd := (monthIndex_spec d).1
  have he := (monthIndex_spec e).2
  have hfirst := firstOfMonth_le (show monthIndex e + 1 ≤ monthIndex d by omega)
  omega

/-- **A later day** has a later year, or month, or date. -/
theorem civil_lt {d e : Int} (h : d < e) : yearOfDay d < yearOfDay e
    ∨ yearOfDay d = yearOfDay e ∧ (monthOfDay d < monthOfDay e
      ∨ monthOfDay d = monthOfDay e ∧ dateOfDay d < dateOfDay e) := by
  have hmono := monthIndex_mono h.le
  have hd := (monthOfDay_spec d).1
  have he := (monthOfDay_spec e).1
  have hfirst₁ := firstOfMonth_monthIndex d
  have hfirst₂ := firstOfMonth_monthIndex e
  rcases Int.lt_or_eq_of_le hmono with hlt | heq
  · unfold monthIndex at hlt
    omega
  · rw [heq] at hfirst₁
    unfold monthIndex at heq
    omega

/-- The date of a day is its number in its month. -/
theorem dateOfDay_eq (d : Int) : dateOfDay d = d - firstOfMonth (monthIndex d) + 1 := by
  rw [firstOfMonth_monthIndex]
  omega

theorem dateOfDay_le (d : Int) : dateOfDay d ≤ monthLength (monthIndex d) := by
  have hspec := monthIndex_spec d
  rw [dateOfDay_eq]
  unfold monthLength
  omega

/-- **The same date, `n` months later**, is in that month exactly when the
month has the date. -/
theorem monthIndex_same_date {d n : Int} :
    monthIndex (d + (firstOfMonth (monthIndex d + n) - firstOfMonth (monthIndex d)))
        = monthIndex d + n ↔ dateOfDay d ≤ monthLength (monthIndex d + n) := by
  have hdate := dateOfDay_spec d
  rw [monthIndex_eq_iff, dateOfDay_eq] at *
  unfold monthLength
  omega

end Calendar
