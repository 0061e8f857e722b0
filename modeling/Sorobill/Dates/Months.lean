/-
  Sorobill.Dates.Months
  ─────────────────────
  **WHERE A BILLING PERIOD ENDS**, in days and months.

  `nextPeriod` adds a number of days that depends on the start only through
  the local month it falls in (`nextPeriod_eq`).  Days and weeks are added as
  they are.  Months and years move the start to the same date of a later
  month, and `setMonth` and `setFullYear` let a date which that month does not
  have run on into the month after it.

    • `nextPeriod_progress` — more intervals lead further;
    • `nextPeriod_landsIn` — the end is in the month counted from the start
      exactly when that month has the date of the start.
-/
import Sorobill.Model.Dates

namespace Sorobill

open Calendar

/-! ## §1. The days of a period. -/

/-- The months that `count` intervals are. -/
def monthsAhead (interval : BillingInterval) (count : Int) : Int :=
  match interval with
  | .DAILY => 0
  | .WEEKLY => 0
  | .MONTHLY => count
  | .YEARLY => 12 * count

/-- The days that `count` intervals are, from a date in the month `k`. -/
def daysAhead (interval : BillingInterval) (count k : Int) : Int :=
  match interval with
  | .DAILY => count
  | .WEEKLY => 7 * count
  | .MONTHLY => firstOfMonth (k + count) - firstOfMonth k
  | .YEARLY => firstOfMonth (k + 12 * count) - firstOfMonth k

/-- The month in which a host with offset `tz` finds `d`. -/
def localMonth (tz : Int) (d : Instant) : Int := monthIndex (localDay tz d)

theorem local_split (tz : Int) (d : Instant) :
    d.ms + tz = localDay tz d * msPerDay + localTimeOfDay tz d := by
  unfold localDay localTimeOfDay msPerDay
  omega

/-- The day with the date of `d`, any number of months away. -/
theorem makeDay_local (tz : Int) (d : Instant) (n : Int) :
    makeDay (yearOfDay (localDay tz d)) (monthOfDay (localDay tz d) + n)
        (dateOfDay (localDay tz d))
      = localDay tz d + (firstOfMonth (localMonth tz d + n) - firstOfMonth (localMonth tz d)) := by
  have hfirst := firstOfMonth_monthIndex (localDay tz d)
  have hmonth : yearOfDay (localDay tz d) * 12 + (monthOfDay (localDay tz d) + n)
      = localMonth tz d + n := by
    unfold localMonth monthIndex
    omega
  rw [makeDay_eq, hmonth]
  unfold localMonth at *
  omega

theorem addMonths_eq (tz : Int) (d : Instant) (n : Int) :
    addMonths tz d n = timeClip (d.ms
      + (firstOfMonth (localMonth tz d + n) - firstOfMonth (localMonth tz d)) * msPerDay) := by
  have hsplit := local_split tz d
  unfold addMonths
  dsimp only
  rw [makeDay_local]
  congr 1
  rw [Int.add_mul]
  omega

/-- Years are added as twelve months each. -/
theorem addYears_eq (tz : Int) (d : Instant) (n : Int) :
    addYears tz d n = addMonths tz d (12 * n) := by
  unfold addYears addMonths
  dsimp only
  rw [makeDay_carry]

/-- **The end of a period depends on the local month only**, besides the
start itself. -/
theorem nextPeriod_eq (tz : Int) (start : Instant) (interval : BillingInterval) (count : Int) :
    nextPeriod tz start interval count
      = timeClip (start.ms + daysAhead interval count (localMonth tz start) * msPerDay) := by
  cases interval with
  | DAILY => rfl
  | WEEKLY =>
      show timeClip (start.ms + count * 7 * msPerDay) = _
      unfold daysAhead
      dsimp only
      rw [Int.mul_comm count]
  | MONTHLY => exact addMonths_eq tz start count
  | YEARLY =>
      show addYears tz start count = _
      rw [addYears_eq, addMonths_eq]
      rfl

@[simp] theorem daysAhead_zero (interval : BillingInterval) (k : Int) :
    daysAhead interval 0 k = 0 := by
  cases interval with
  | DAILY => rfl
  | WEEKLY => rfl
  | MONTHLY =>
      show firstOfMonth (k + 0) - firstOfMonth k = 0
      rw [Int.add_zero]
      omega
  | YEARLY =>
      show firstOfMonth (k + 12 * 0) - firstOfMonth k = 0
      rw [Int.mul_zero, Int.add_zero]
      omega

theorem daysAhead_lt (interval : BillingInterval) (k : Int) {a b : Int} (h : a < b) :
    daysAhead interval a k < daysAhead interval b k := by
  cases interval with
  | DAILY => exact h
  | WEEKLY =>
      show 7 * a < 7 * b
      omega
  | MONTHLY =>
      have hlt := firstOfMonth_lt (show k + a < k + b by omega)
      show firstOfMonth (k + a) - firstOfMonth k < firstOfMonth (k + b) - firstOfMonth k
      omega
  | YEARLY =>
      have hlt := firstOfMonth_lt (show k + 12 * a < k + 12 * b by omega)
      show firstOfMonth (k + 12 * a) - firstOfMonth k < firstOfMonth (k + 12 * b) - firstOfMonth k
      omega

theorem daysAhead_mono (interval : BillingInterval) (k : Int) {a b : Int} (h : a ≤ b) :
    daysAhead interval a k ≤ daysAhead interval b k := by
  rcases Int.lt_or_eq_of_le h with hlt | heq
  · exact (daysAhead_lt interval k hlt).le
  · rw [heq]

theorem daysAhead_nonneg (interval : BillingInterval) (k : Int) {count : Int} (h : 0 ≤ count) :
    0 ≤ daysAhead interval count k := by
  have hle := daysAhead_mono interval k h
  rwa [daysAhead_zero] at hle

/-- `days` after `start` there is no `Date`. -/
def TooFar (start : Instant) (days : Int) : Prop := maxTimeMs < start.ms + days * msPerDay

/-- A later time value is a `Date` unless it is too far. -/
theorem timeClip_days {start : Instant} {days : Int} (hdays : 0 ≤ days) :
    timeClip (start.ms + days * msPerDay) = none ↔ TooFar start days := by
  obtain ⟨hlo, -⟩ := start.inRange
  have hlater : 0 ≤ days * msPerDay := Int.mul_nonneg hdays (by decide)
  unfold timeClip TooFar
  split_ifs with h
  · simp only [false_iff]
    omega
  · simp only [true_iff]
    omega

/-- The end of a period, as an instant. -/
theorem ms_nextPeriod {tz : Int} {start finish : Instant} {interval : BillingInterval} {count : Int}
    (h : nextPeriod tz start interval count = some finish) :
    finish.ms = start.ms + daysAhead interval count (localMonth tz start) * msPerDay := by
  rw [nextPeriod_eq] at h
  exact timeClip_eq_some h

/-! ## §2. Progress. -/

/-- **More intervals lead further**, whatever the date of the start. -/
theorem nextPeriod_progress {tz : Int} {start s t : Instant} {interval : BillingInterval}
    {a b : Int} (ha : 1 ≤ a) (hab : a < b) (hs : nextPeriod tz start interval a = some s)
    (ht : nextPeriod tz start interval b = some t) : start < s ∧ s < t := by
  have hpos := daysAhead_lt interval (localMonth tz start) (show 0 < a by omega)
  have hlt := daysAhead_lt interval (localMonth tz start) hab
  have hms := ms_nextPeriod hs
  have hmt := ms_nextPeriod ht
  rw [daysAhead_zero] at hpos
  rw [Instant.lt_def, Instant.lt_def]
  unfold msPerDay at *
  omega

/-- The start of 31 January 2024, and one and two months on. -/
def january31 : Instant := ⟨1706659200000, by decide⟩

def march2 : Instant := ⟨1709337600000, by decide⟩

def march31 : Instant := ⟨1711843200000, by decide⟩

theorem nextPeriod_progress_january : january31 < march2 ∧ march2 < march31 :=
  nextPeriod_progress (show (1 : Int) ≤ 1 by decide) (show (1 : Int) < 2 by decide)
    (show nextPeriod 0 january31 .MONTHLY 1 = some march2 by decide)
    (show nextPeriod 0 january31 .MONTHLY 2 = some march31 by decide)

/-! ## §3. The month of the end. -/

/-- The end of a period on the local calendar. -/
theorem localDay_nextPeriod {tz : Int} {start finish : Instant} {interval : BillingInterval}
    {count : Int} (h : nextPeriod tz start interval count = some finish) :
    localDay tz finish = localDay tz start + daysAhead interval count (localMonth tz start)
      ∧ localTimeOfDay tz finish = localTimeOfDay tz start := by
  have hms := ms_nextPeriod h
  unfold localDay localTimeOfDay msPerDay at *
  omega

/-- The month that `count` intervals lead to. -/
def LandsIn (tz : Int) (interval : BillingInterval) (count : Int) (start finish : Instant) : Prop :=
  match interval with
  | .DAILY => True
  | .WEEKLY => True
  | .MONTHLY => localMonth tz finish = localMonth tz start + count
  | .YEARLY =>
      monthOfDay (localDay tz finish) = monthOfDay (localDay tz start)
        ∧ yearOfDay (localDay tz finish) = yearOfDay (localDay tz start) + count

/-- Months and years keep the date, so the end is in the month counted from
the start if that month has the date. -/
theorem localMonth_nextPeriod {tz : Int} {start finish : Instant} {interval : BillingInterval}
    {count : Int} (hinterval : interval = .MONTHLY ∨ interval = .YEARLY)
    (h : nextPeriod tz start interval count = some finish) :
    localMonth tz finish = localMonth tz start + monthsAhead interval count
      ↔ dateOfDay (localDay tz start)
          ≤ monthLength (localMonth tz start + monthsAhead interval count) := by
  have hday := (localDay_nextPeriod h).1
  have hdays : daysAhead interval count (localMonth tz start)
      = firstOfMonth (localMonth tz start + monthsAhead interval count)
        - firstOfMonth (localMonth tz start) := by
    rcases hinterval with rfl | rfl <;> rfl
  rw [hdays] at hday
  rw [show localMonth tz finish = monthIndex (localDay tz finish) from rfl, hday]
  exact monthIndex_same_date

/-- **A period ends in the month counted from its start exactly when that
month has the date of the start.** -/
theorem nextPeriod_landsIn {tz : Int} {start finish : Instant} {interval : BillingInterval}
    {count : Int} (h : nextPeriod tz start interval count = some finish) :
    LandsIn tz interval count start finish
      ↔ dateOfDay (localDay tz start)
          ≤ monthLength (localMonth tz start + monthsAhead interval count) := by
  have hsame : dateOfDay (localDay tz start) ≤ monthLength (localMonth tz start + 0) := by
    rw [Int.add_zero]
    exact dateOfDay_le _
  cases interval with
  | DAILY => exact ⟨fun _ => hsame, fun _ => trivial⟩
  | WEEKLY => exact ⟨fun _ => hsame, fun _ => trivial⟩
  | MONTHLY => exact localMonth_nextPeriod (.inl rfl) h
  | YEARLY =>
      rw [← localMonth_nextPeriod (.inr rfl) h]
      -- years and months are quotient and remainder of the month index
      have hs := (monthOfDay_spec (localDay tz start)).1
      have hf := (monthOfDay_spec (localDay tz finish)).1
      unfold LandsIn monthsAhead localMonth monthIndex
      dsimp only
      omega

/-- 2024 has a 29 February, 2025 has not. -/
theorem nextPeriod_landsIn_leap_day :
    LandsIn 0 .YEARLY 1 ⟨1709164800000, by decide⟩ ⟨1740787200000, by decide⟩
      ↔ dateOfDay (localDay 0 ⟨1709164800000, by decide⟩)
          ≤ monthLength (localMonth 0 ⟨1709164800000, by decide⟩ + monthsAhead .YEARLY 1) :=
  nextPeriod_landsIn (by decide)

/-- A month after 31 January is March. -/
theorem january31_skips_february :
    nextPeriod 0 january31 .MONTHLY 1 = some march2
      ∧ ¬ LandsIn 0 .MONTHLY 1 january31 march2 := by
  refine ⟨by decide, ?_⟩
  show ¬ localMonth 0 march2 = localMonth 0 january31 + 1
  decide

end Sorobill
