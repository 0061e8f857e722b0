/-
  Sorobill.Dates.Anchors
  ──────────────────────
  **PERIOD AFTER PERIOD FROM ONE ANCHOR.**

  Every successful cycle advances the period from its own end, never from the
  first one.  When the date of the start exists in every month that is
  reached, nothing is lost on the way: `k` periods of `c` intervals end where
  one period of `k * c` intervals does.

    • `nextPeriod_add` — two periods in a row are one;
    • `nextPeriod_no_drift` — so are any number of them, with date and time of
      day kept;
    • `billingIdempotencyKey_injective` — a key belongs to one subscription
      and one period end;
    • `billingIdempotencyKey_points` — so no two periods of a subscription
      share one.
-/
import Sorobill.Dates.Months
import Sorobill.Rules.Periods

namespace Sorobill

open Calendar Timeline

/-! ## §1. Anchored dates. -/

/-- The date of the start exists in every month that the interval leads to. -/
def Anchored (tz : Int) (interval : BillingInterval) (start : Instant) : Prop :=
  match interval with
  | .DAILY => True
  | .WEEKLY => True
  | .MONTHLY => dateOfDay (localDay tz start) ≤ 28
  | .YEARLY => ¬ (monthOfDay (localDay tz start) = 1 ∧ dateOfDay (localDay tz start) = 29)

/-- Date and time of day on the local calendar are the same. -/
def SameDateAndTime (tz : Int) (start finish : Instant) : Prop :=
  dateOfDay (localDay tz finish) = dateOfDay (localDay tz start)
    ∧ localTimeOfDay tz finish = localTimeOfDay tz start

theorem date_le_of_anchored {tz : Int} {interval : BillingInterval} {start : Instant}
    (hanchor : Anchored tz interval start) (hinterval : interval = .MONTHLY ∨ interval = .YEARLY)
    (count : Int) : dateOfDay (localDay tz start)
      ≤ monthLength (localMonth tz start + monthsAhead interval count) := by
  have hlength := (monthLength_bounds (localMonth tz start + monthsAhead interval count)).1
  rcases hinterval with rfl | rfl
  · exact le_trans hanchor hlength
  · have hdate := dateOfDay_le (localDay tz start)
    by_cases hfebruary : localMonth tz start % 12 = 1
    · -- a February has 28 days at least, and the date is not the 29th
      have hmonth : monthOfDay (localDay tz start) = 1 := by
        have hm := (monthOfDay_spec (localDay tz start)).1
        unfold localMonth monthIndex at hfebruary
        omega
      have hne : dateOfDay (localDay tz start) ≠ 29 := fun h => hanchor ⟨hmonth, h⟩
      have hlast : monthLength (localMonth tz start) ≤ 29 := by
        rw [monthLength_eq, hfebruary]
        cases isLeap (localMonth tz start / 12) <;> decide
      unfold localMonth at hlast hlength ⊢
      omega
    · rw [show monthsAhead .YEARLY count = 12 * count from rfl, monthLength_add_years hfebruary]
      exact hdate

section Anchor

variable {tz : Int} {interval : BillingInterval} {start mid finish : Instant} {m n : Int}

theorem localMonth_of_anchored (hanchor : Anchored tz interval start)
    (hinterval : interval = .MONTHLY ∨ interval = .YEARLY)
    (h : nextPeriod tz start interval m = some finish) :
    localMonth tz finish = localMonth tz start + monthsAhead interval m :=
  (localMonth_nextPeriod hinterval h).mpr (date_le_of_anchored hanchor hinterval m)

/-- **An anchored date is kept.** -/
theorem sameDateAndTime_nextPeriod (hanchor : Anchored tz interval start)
    (hinterval : interval = .MONTHLY ∨ interval = .YEARLY)
    (h : nextPeriod tz start interval m = some finish) : SameDateAndTime tz start finish := by
  obtain ⟨hday, htime⟩ := localDay_nextPeriod h
  have hmonth := localMonth_of_anchored hanchor hinterval h
  have hdays : daysAhead interval m (localMonth tz start)
      = firstOfMonth (localMonth tz start + monthsAhead interval m)
        - firstOfMonth (localMonth tz start) := by
    rcases hinterval with rfl | rfl <;> rfl
  refine ⟨?_, htime⟩
  rw [← hmonth] at hdays
  rw [dateOfDay_eq, dateOfDay_eq]
  unfold localMonth at hdays hday
  omega

/-- The end of a period is anchored again. -/
theorem anchored_nextPeriod (hanchor : Anchored tz interval start)
    (h : nextPeriod tz start interval m = some finish) : Anchored tz interval finish := by
  cases interval with
  | DAILY => trivial
  | WEEKLY => trivial
  | MONTHLY =>
      have hdate := (sameDateAndTime_nextPeriod hanchor (.inl rfl) h).1
      show dateOfDay (localDay tz finish) ≤ 28
      rw [hdate]
      exact hanchor
  | YEARLY =>
      have hdate := (sameDateAndTime_nextPeriod hanchor (.inr rfl) h).1
      have hmonth := localMonth_of_anchored hanchor (.inr rfl) h
      rintro ⟨hm, hd⟩
      refine hanchor ⟨?_, hdate ▸ hd⟩
      -- twelve months on the month is the same
      have hs := (monthOfDay_spec (localDay tz start)).1
      unfold localMonth monthIndex monthsAhead at hmonth
      dsimp only at hmonth
      omega

/-- The days of two periods in a row. -/
theorem daysAhead_add (hmonth : interval = .MONTHLY ∨ interval = .YEARLY →
      localMonth tz mid = localMonth tz start + monthsAhead interval m) :
    daysAhead interval (m + n) (localMonth tz start)
      = daysAhead interval m (localMonth tz start) + daysAhead interval n (localMonth tz mid) := by
  cases interval with
  | DAILY => rfl
  | WEEKLY =>
      show 7 * (m + n) = 7 * m + 7 * n
      omega
  | MONTHLY =>
      rw [hmonth (.inl rfl)]
      unfold daysAhead monthsAhead
      dsimp only
      rw [Int.add_assoc]
      omega
  | YEARLY =>
      rw [hmonth (.inr rfl)]
      unfold daysAhead monthsAhead
      dsimp only
      rw [Int.mul_add, Int.add_assoc]
      omega

/-- **Two periods in a row are one.** -/
theorem nextPeriod_add (hanchor : Anchored tz interval start) (hm : 0 ≤ m) (hn : 0 ≤ n) :
    (nextPeriod tz start interval m).bind (fun mid => nextPeriod tz mid interval n)
      = nextPeriod tz start interval (m + n) := by
  rcases hmid : nextPeriod tz start interval m with _ | mid
  · -- out of range once, and further on all the more
    rw [nextPeriod_eq, timeClip_days (daysAhead_nonneg interval _ hm)] at hmid
    have hle := daysAhead_mono interval (localMonth tz start) (show m ≤ m + n by omega)
    rw [nextPeriod_eq]
    refine ((timeClip_days (daysAhead_nonneg interval _ (by omega))).mpr ?_).symm
    unfold TooFar msPerDay at *
    omega
  · have hms := ms_nextPeriod hmid
    have hdays := daysAhead_add (n := n) (fun hinterval =>
      localMonth_of_anchored hanchor hinterval hmid)
    show nextPeriod tz mid interval n = _
    rw [nextPeriod_eq, nextPeriod_eq, hms, hdays, Int.add_mul, Int.add_assoc]

end Anchor

/-! ## §2. Any number of periods. -/

section Points

variable {tz : Int} {interval : BillingInterval} {start : Instant} {c : Int}

theorem point_eq_nextPeriod (hc : 1 ≤ c) (hanchor : Anchored tz interval start) (k : Nat) :
    point (fun t => nextPeriod tz t interval c) start k
      = nextPeriod tz start interval (k * c) := by
  induction k with
  | zero =>
      show some start = _
      rw [nextPeriod_eq, Nat.cast_zero, Int.zero_mul, daysAhead_zero, Int.zero_mul, Int.add_zero,
        timeClip_ms]
  | succ k ih =>
      have hk : 0 ≤ (k : Int) * c := Int.mul_nonneg (Int.natCast_nonneg k) (by omega)
      show (point _ start k).bind _ = _
      rw [ih, nextPeriod_add hanchor hk (by omega), Nat.cast_succ, Int.add_mul, Int.one_mul]

/-- **No drift.** `k` periods of `c` intervals end where one period of `k * c`
intervals does, and months and years keep the date and the time of day. -/
theorem nextPeriod_no_drift (hc : 1 ≤ c) (hanchor : Anchored tz interval start) (k : Nat) :
    point (fun t => nextPeriod tz t interval c) start k = nextPeriod tz start interval (k * c)
      ∧ (interval = .MONTHLY ∨ interval = .YEARLY →
          ∀ t, point (fun t => nextPeriod tz t interval c) start k = some t →
            SameDateAndTime tz start t) := by
  have hpoint := point_eq_nextPeriod hc hanchor k
  refine ⟨hpoint, fun hinterval t ht => ?_⟩
  rw [hpoint] at ht
  exact sameDateAndTime_nextPeriod hanchor hinterval ht

/-- The start of 28 January 2024. -/
def january28 : Instant := ⟨1706400000000, by decide⟩

theorem january28_anchored : Anchored 0 .MONTHLY january28 := by
  show dateOfDay (localDay 0 january28) ≤ 28
  decide

/-- A year of months. -/
theorem nextPeriod_no_drift_twelve_months :
    point (fun t => nextPeriod 0 t .MONTHLY 1) january28 12
        = nextPeriod 0 january28 .MONTHLY ((12 : Nat) * 1)
      ∧ (BillingInterval.MONTHLY = .MONTHLY ∨ BillingInterval.MONTHLY = .YEARLY →
          ∀ t, point (fun t => nextPeriod 0 t .MONTHLY 1) january28 12 = some t →
            SameDateAndTime 0 january28 t) :=
  nextPeriod_no_drift (by decide) january28_anchored 12

/-- The periods of a plan that is paid in every cycle. -/
theorem Plan.point_next {cfg : Config} {plan : Plan} (hcount : 1 ≤ plan.intervalCount)
    (hanchor : Anchored cfg.tz plan.interval start) (k : Nat) :
    point (plan.next cfg) start k
      = nextPeriod cfg.tz start plan.interval (k * plan.intervalCount) :=
  point_eq_nextPeriod hcount hanchor k

end Points

/-! ## §3. Idempotency keys. -/

/-- **A key belongs to one subscription and one period end.** -/
theorem billingIdempotencyKey_injective : Function.Injective2 billingIdempotencyKey :=
  fun _ _ _ _ h => billingIdempotencyKey_inj.mp h

/-- The periods of a subscription have different keys. -/
theorem billingIdempotencyKey_points {tz : Int} {interval : BillingInterval} {c : Int}
    {start s t : Instant} {id : String} {m n : Nat} (hc : 1 ≤ c)
    (hs : point (fun t => nextPeriod tz t interval c) start m = some s)
    (ht : point (fun t => nextPeriod tz t interval c) start n = some t)
    (hkey : billingIdempotencyKey id s = billingIdempotencyKey id t) : m = n := by
  obtain ⟨-, rfl⟩ := billingIdempotencyKey_inj.mp hkey
  exact point_inj (fun _ _ hnext => lt_nextPeriod hc hnext) hs ht

end Sorobill
