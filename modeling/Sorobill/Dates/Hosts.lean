/-
  Sorobill.Dates.Hosts
  ────────────────────
  **ONE PERIOD ON HOSTS IN DIFFERENT TIME ZONES.**

  `setMonth` and `setFullYear` count in the time of the host, so two hosts
  that find the start in different months may move it by different numbers of
  days.  They agree when the months from one local month to the other are as
  long as the months they lead to.

    • `nextPeriod_hosts` — exactly when two hosts agree;
    • `sameSpan_hosts` — for offsets less than four weeks apart, that is when
      the earlier month and the one it leads to have the same length.
-/
import Sorobill.Dates.Months

namespace Sorobill

open Calendar

/-- The months from `j` to `k` have as many days as those `n` months on. -/
def SameSpan (j k n : Int) : Prop :=
  firstOfMonth (k + n) - firstOfMonth (j + n) = firstOfMonth k - firstOfMonth j

theorem sameSpan_refl (k n : Int) : SameSpan k k n := by
  unfold SameSpan
  omega

theorem sameSpan_succ {k n : Int} : SameSpan k (k + 1) n ↔ monthLength (k + n) = monthLength k := by
  unfold SameSpan monthLength
  rw [show k + 1 + n = k + n + 1 by omega]

/-- The days added in two months are the same when the spans are. -/
theorem daysAhead_eq_iff {interval : BillingInterval} {count j k : Int} :
    daysAhead interval count j = daysAhead interval count k
      ↔ SameSpan j k (monthsAhead interval count) := by
  unfold SameSpan
  cases interval with
  | DAILY =>
      show count = count ↔ firstOfMonth (k + 0) - firstOfMonth (j + 0) = _
      rw [Int.add_zero, Int.add_zero]
      exact ⟨fun _ => rfl, fun _ => rfl⟩
  | WEEKLY =>
      show 7 * count = 7 * count ↔ firstOfMonth (k + 0) - firstOfMonth (j + 0) = _
      rw [Int.add_zero, Int.add_zero]
      exact ⟨fun _ => rfl, fun _ => rfl⟩
  | MONTHLY =>
      unfold daysAhead monthsAhead
      dsimp only
      omega
  | YEARLY =>
      unfold daysAhead monthsAhead
      dsimp only
      omega

/-- Two time values are one `Date` when they are equal or both out of range. -/
theorem timeClip_eq_iff {a b : Int} :
    timeClip a = timeClip b ↔ a = b ∨ (timeClip a = none ∧ timeClip b = none) := by
  constructor
  · intro h
    rcases hb : timeClip b with _ | t
    · exact .inr ⟨h.trans hb, rfl⟩
    · have hta := timeClip_eq_some (h.trans hb)
      have htb := timeClip_eq_some hb
      exact .inl (hta.symm.trans htb)
  · rintro (rfl | ⟨ha, hb⟩)
    · rfl
    · rw [ha, hb]

/-- **Two hosts agree on the end of a period** exactly when the months
between their local months are as long as the months these lead to, or the
end is out of range for both. -/
theorem nextPeriod_hosts {tz₁ tz₂ : Int} {start : Instant} {interval : BillingInterval}
    {count : Int} (hcount : 1 ≤ count) :
    nextPeriod tz₁ start interval count = nextPeriod tz₂ start interval count
      ↔ SameSpan (localMonth tz₁ start) (localMonth tz₂ start) (monthsAhead interval count)
        ∨ (TooFar start (daysAhead interval count (localMonth tz₁ start))
            ∧ TooFar start (daysAhead interval count (localMonth tz₂ start))) := by
  have hnonneg : ∀ k, 0 ≤ daysAhead interval count k :=
    fun k => daysAhead_nonneg interval k (by omega)
  have hdays : ∀ d e : Int, start.ms + d * msPerDay = start.ms + e * msPerDay ↔ d = e := by
    intro d e
    unfold msPerDay
    omega
  rw [nextPeriod_eq, nextPeriod_eq, timeClip_eq_iff, hdays, daysAhead_eq_iff,
    timeClip_days (hnonneg _), timeClip_days (hnonneg _)]

/-- The start of 1 March 2026. -/
def march1 : Instant := ⟨1772323200000, by decide⟩

/-- The start of 1 August 2026. -/
def august1 : Instant := ⟨1785542400000, by decide⟩

/-- July and August are as long as each other, so a month from 1 August is the
same five hours west of UTC. -/
theorem nextPeriod_hosts_monthly :
    localMonth (-18000000) august1 + 1 = localMonth 0 august1
      ∧ SameSpan (localMonth 0 august1) (localMonth (-18000000) august1) (monthsAhead .MONTHLY 1)
      ∧ nextPeriod 0 august1 .MONTHLY 1 = nextPeriod (-18000000) august1 .MONTHLY 1 := by
  have hspan : SameSpan (localMonth 0 august1) (localMonth (-18000000) august1)
      (monthsAhead .MONTHLY 1) := by
    unfold SameSpan
    decide
  exact ⟨by decide, hspan, (nextPeriod_hosts (by decide)).mpr (.inl hspan)⟩

/-- Five hours west of UTC, 1 March 2026 begins on 28 February, and a month
later is 28 March there. -/
theorem march1_five_hours_west :
    nextPeriod 0 march1 .MONTHLY 1 ≠ nextPeriod (-18000000) march1 .MONTHLY 1 := by
  decide

/-! ## Offsets of real time zones. -/

/-- The months of two hosts are the same or neighbours. -/
theorem localMonth_hosts {tz₁ tz₂ : Int} (start : Instant) (hle : tz₁ ≤ tz₂)
    (hnear : tz₂ - tz₁ < 27 * msPerDay) :
    localMonth tz₂ start = localMonth tz₁ start
      ∨ localMonth tz₂ start = localMonth tz₁ start + 1 := by
  have hday : localDay tz₁ start ≤ localDay tz₂ start
      ∧ localDay tz₂ start ≤ localDay tz₁ start + 27 := by
    unfold localDay msPerDay at *
    omega
  obtain ⟨hlo, hhi⟩ := monthIndex_spec (localDay tz₁ start)
  -- 27 days on is at most in the next month, which has 28 days
  have hlength := (monthLength_bounds (monthIndex (localDay tz₁ start) + 1)).1
  unfold monthLength at hlength
  unfold localMonth
  by_cases hsame : localDay tz₂ start < firstOfMonth (monthIndex (localDay tz₁ start) + 1)
  · left
    exact monthIndex_eq_iff.mpr ⟨by omega, hsame⟩
  · right
    exact monthIndex_eq_iff.mpr ⟨by omega, by omega⟩

/-- **For real offsets**, hosts in two months agree on the span when the
earlier month and the one it leads to have the same length. -/
theorem sameSpan_hosts {tz₁ tz₂ n : Int} {start : Instant} (hle : tz₁ ≤ tz₂)
    (hnear : tz₂ - tz₁ < 27 * msPerDay) :
    SameSpan (localMonth tz₁ start) (localMonth tz₂ start) n
      ↔ localMonth tz₂ start = localMonth tz₁ start
        ∨ monthLength (localMonth tz₁ start + n) = monthLength (localMonth tz₁ start) := by
  constructor
  · intro h
    rcases localMonth_hosts start hle hnear with heq | hnext
    · exact .inl heq
    · rw [hnext] at h
      exact .inr (sameSpan_succ.mp h)
  · intro h
    rcases localMonth_hosts start hle hnear with heq | hnext
    · rw [heq]
      exact sameSpan_refl _ n
    · rcases h with heq | hlength
      · rw [heq]
        exact sameSpan_refl _ n
      · rw [hnext]
        exact sameSpan_succ.mpr hlength

end Sorobill
