/-
  Sorobill.Library.Timeline
  ─────────────────────────
  **CONSECUTIVE INTERVALS ALONG A PARTIAL STEP.**

  A step leads from a point to the next one, or fails; `point step a n` is
  reached from `a` in `n` steps.  When every step leads forward, the points
  increase, and the half-open intervals between neighbours are told apart by
  either end and do not overlap.

    • `point_lt` — the points increase;
    • `IsInterval.index_eq` — the end of an interval determines its place;
    • `IsInterval.disjoint` — intervals at different places do not overlap;
    • `tiles_of_sorted` — intervals at the first `n` places, in the order of
      their ends, are those places one by one.
-/
import Mathlib.Data.List.Sort

namespace Timeline

variable {α : Type}

/-- The point `n` steps after `a`. -/
def point (step : α → Option α) (a : α) : Nat → Option α
  | 0 => some a
  | n + 1 => (point step a n).bind step

/-- `[x, y)` is the interval from the point `n` to the next one. -/
structure IsInterval (step : α → Option α) (a : α) (n : Nat) (x y : α) : Prop where
  start : point step a n = some x
  finish : step x = some y

/-- Every step leads forward. -/
def Progressive [LT α] (step : α → Option α) : Prop := ∀ x y, step x = some y → x < y

section Points

variable {step : α → Option α} {a x y z x' y' : α} {m n : Nat}

theorem IsInterval.point_succ (h : IsInterval step a n x y) : point step a (n + 1) = some y := by
  show (point step a n).bind step = some y
  rw [h.start]
  exact h.finish

theorem IsInterval.next (h : IsInterval step a n x y) (hz : step y = some z) :
    IsInterval step a (n + 1) y z :=
  ⟨h.point_succ, hz⟩

theorem IsInterval.start_eq (h : IsInterval step a n x y) (h' : IsInterval step a n x' y') :
    x = x' :=
  Option.some.inj (h.start.symm.trans h'.start)

variable [Preorder α]

/-- **The points increase.** -/
theorem point_lt (hstep : Progressive step) (hmn : m < n) (hx : point step a m = some x) :
    ∀ {y}, point step a n = some y → x < y := by
  induction n with
  | zero => omega
  | succ n ih =>
      intro y hy
      -- the last point but one is reached first
      obtain ⟨z, hz, hzy⟩ := Option.bind_eq_some_iff.mp (show (point step a n).bind step = some y
        from hy)
      have hlt : z < y := hstep z y hzy
      rcases Nat.lt_succ_iff_lt_or_eq.mp hmn with h | h
      · exact (ih h hz).trans hlt
      · subst h
        rw [hx] at hz
        cases hz
        exact hlt

/-- A point is passed once. -/
theorem point_inj (hstep : Progressive step) (hm : point step a m = some x)
    (hn : point step a n = some x) : m = n := by
  rcases Nat.lt_trichotomy m n with h | h | h
  · exact absurd (point_lt hstep h hm hn) (lt_irrefl x)
  · exact h
  · exact absurd (point_lt hstep h hn hm) (lt_irrefl x)

/-- The end of an interval determines its place. -/
theorem IsInterval.index_eq (hstep : Progressive step) (h : IsInterval step a m x y)
    (h' : IsInterval step a n x' y) : m = n :=
  Nat.succ.inj (point_inj hstep h.point_succ h'.point_succ)

/-- An interval ends before a later one begins. -/
theorem IsInterval.le_of_lt (hstep : Progressive step) (hmn : m < n)
    (h : IsInterval step a m x y) (h' : IsInterval step a n x' y') : y ≤ x' := by
  rcases Nat.lt_or_eq_of_le (Nat.succ_le_of_lt hmn) with hlt | heq
  · exact (point_lt hstep hlt h.point_succ h'.start).le
  · -- the next interval begins where this one ends
    subst heq
    exact (Option.some.inj (h.point_succ.symm.trans h'.start)).le

/-- **Intervals at different places do not overlap.** -/
theorem IsInterval.disjoint (hstep : Progressive step) (hmn : m ≠ n)
    (h : IsInterval step a m x y) (h' : IsInterval step a n x' y') : y ≤ x' ∨ y' ≤ x := by
  rcases Nat.lt_or_gt_of_ne hmn with hlt | hgt
  · exact .inl (h.le_of_lt hstep hlt h')
  · exact .inr (h'.le_of_lt hstep hgt h)

end Points

/-! ## Lists of intervals. -/

section Tiles

variable {ι : Type} {step : α → Option α} {a : α} {start finish : ι → α} [Preorder α]

/-- Of two intervals, the one that ends first has the smaller place. -/
theorem IsInterval.index_lt (hstep : Progressive step) {m n : Nat} {x y : ι}
    (hx : IsInterval step a m (start x) (finish x)) (hy : IsInterval step a n (start y) (finish y))
    (hle : finish x ≤ finish y) (hne : finish x ≠ finish y) : m < n := by
  rcases Nat.lt_trichotomy m n with hlt | heq | hgt
  · exact hlt
  · subst heq
    have hstart := hx.start_eq hy
    exact absurd (Option.some.inj (hx.finish.symm.trans (hstart ▸ hy.finish))) hne
  · -- then `y` ends before `x` begins
    have hend : finish y ≤ start x := hy.le_of_lt hstep hgt hx
    have hlt : finish y < finish x := hend.trans_lt (hstep _ _ hx.finish)
    exact absurd (hlt.trans_le hle) (lt_irrefl _)

/-- **Sorted intervals at the first `n` places tile the timeline.** -/
theorem tiles_of_sorted (hstep : Progressive step) {l : List ι} {n : Nat}
    (hsorted : l.Pairwise (fun x y => finish x ≤ finish y))
    (hdistinct : l.Pairwise (fun x y => finish x ≠ finish y))
    (hmem : ∀ x ∈ l, ∃ i, i < n ∧ IsInterval step a i (start x) (finish x))
    (hall : ∀ i < n, ∃ x ∈ l, IsInterval step a i (start x) (finish x)) :
    l.length = n ∧ ∀ i x, l[i]? = some x → IsInterval step a i (start x) (finish x) := by
  choose! place hlt hplace using hmem
  have hincreasing : (l.map place).Pairwise (· < ·) := by
    rw [List.pairwise_map]
    refine List.Pairwise.imp_of_mem (fun {x y} hx hy h => ?_) (hsorted.and hdistinct)
    exact (hplace x hx).index_lt hstep (hplace y hy) h.1 h.2
  -- strictly increasing, and every place below `n` occurs
  have hplaces : l.map place = List.range n := by
    refine hincreasing.eq_of_mem_iff List.pairwise_lt_range (fun i => ?_)
    rw [List.mem_range, List.mem_map]
    constructor
    · rintro ⟨x, hx, rfl⟩
      exact hlt x hx
    · intro hi
      obtain ⟨x, hx, hi⟩ := hall i hi
      exact ⟨x, hx, (hplace x hx).index_eq hstep hi⟩
  refine ⟨by simpa using congrArg List.length hplaces, fun i x hx => ?_⟩
  have hi : (l.map place)[i]? = some (place x) := by
    rw [List.getElem?_map, hx]
    rfl
  have hplacei : place x = i := by
    rw [hplaces, List.getElem?_eq_some_iff] at hi
    obtain ⟨hlen, hi⟩ := hi
    rw [← hi, List.getElem_range]
  have hinterval := hplace x (List.mem_of_getElem? hx)
  rwa [hplacei] at hinterval

end Tiles

end Timeline
