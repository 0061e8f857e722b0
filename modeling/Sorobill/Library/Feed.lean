/-
  Sorobill.Library.Feed
  ─────────────────────
  **READING A GROWING LOG BY PAGES.**

  A log is a list of items with keys that do not decrease.  A reader asks for
  a page, the first items from a key on, and goes on from the greatest key
  that it has seen.  The cut of a page may fall between items of one key,
  which is why the reader goes on FROM that key and not after it.

    • `page`, `cursor` — one page, and the key to go on from;
    • `mem_page` — everything below the new cursor is on the page;
    • `Reading` — what holds of the reader at any time;
    • `Reading.page`, `Reading.grow` — kept by a page, and by a growing log;
    • `lt_cursor_iff` — a page goes forward when its first key does not fill it;
    • `reaches_end_iff` — page after page, the reader comes to the end of a log
      that does not grow, unless a key fills a page.
-/
import Mathlib.Data.List.Count
import Mathlib.Data.List.Pairwise
import Mathlib.Logic.Function.Iterate
import Mathlib.Order.MinMax

namespace Feed

variable {α κ : Type} [LinearOrder κ] {key : α → κ}

/-! ## §1. Pages. -/

/-- The keys of the log do not decrease. -/
def InOrder (key : α → κ) (log : List α) : Prop := log.Pairwise (fun a b => key a ≤ key b)

/-- The first `limit` items from the key `start` on. -/
def page (key : α → κ) (limit : Nat) (start : κ) (log : List α) : List α :=
  (log.filter (fun a => decide (start ≤ key a))).take limit

/-- The greatest key of a page, or the start of an empty one. -/
def cursor (key : α → κ) (start : κ) : List α → κ
  | [] => start
  | a :: as => as.foldl (fun c a => max c (key a)) (key a)

theorem InOrder.append {log new : List α} :
    InOrder key (log ++ new) ↔ InOrder key log ∧ InOrder key new
      ∧ ∀ a ∈ log, ∀ b ∈ new, key a ≤ key b :=
  List.pairwise_append

/-- The fold of a page's cursor is where it began, or the key of an item. -/
theorem foldl_max_attained (key : α → κ) (as : List α) (c : κ) :
    as.foldl (fun c a => max c (key a)) c = c
      ∨ ∃ a ∈ as, key a = as.foldl (fun c a => max c (key a)) c := by
  induction as generalizing c with
  | nil => exact .inl rfl
  | cons b as ih =>
      rw [List.foldl_cons]
      rcases ih (max c (key b)) with heq | ⟨a, ha, heq⟩
      · rcases max_choice c (key b) with h | h
        · exact .inl (heq.trans h)
        · exact .inr ⟨b, List.mem_cons_self, (heq.trans h).symm⟩
      · exact .inr ⟨a, List.mem_cons_of_mem _ ha, heq⟩

/-- The cursor is the start, or the key of an item of the page. -/
theorem cursor_attained (key : α → κ) (start : κ) (as : List α) :
    cursor key start as = start ∨ ∃ a ∈ as, key a = cursor key start as := by
  cases as with
  | nil => exact .inl rfl
  | cons b as =>
      rcases foldl_max_attained key as (key b) with heq | ⟨a, ha, heq⟩
      · exact .inr ⟨b, List.mem_cons_self, heq.symm⟩
      · exact .inr ⟨a, List.mem_cons_of_mem _ ha, heq⟩

theorem page_subset {limit : Nat} {start : κ} {log : List α} {a : α}
    (h : a ∈ page key limit start log) : a ∈ log ∧ start ≤ key a := by
  obtain ⟨ha, hle⟩ := List.mem_filter.mp (List.mem_of_mem_take h)
  exact ⟨ha, of_decide_eq_true hle⟩

/-- **Everything between the start and the new cursor is on the page.** -/
theorem mem_page {limit : Nat} {start : κ} {log : List α} (hlog : InOrder key log) {a : α}
    (ha : a ∈ log) (hstart : start ≤ key a)
    (hcursor : key a < cursor key start (page key limit start log)) :
    a ∈ page key limit start log := by
  rcases cursor_attained key start (page key limit start log) with heq | ⟨b, hb, heq⟩
  · -- an empty page goes on from its start
    rw [heq] at hcursor
    exact absurd hstart (not_le.mpr hcursor)
  have hmem : a ∈ log.filter (fun a => decide (start ≤ key a)) :=
    List.mem_filter.mpr ⟨ha, decide_eq_true hstart⟩
  rw [← List.take_append_drop limit (log.filter _)] at hmem
  rcases List.mem_append.mp hmem with hmem | hrest
  · exact hmem
  · -- what is cut off has no smaller key than an item of the page
    have hsorted : InOrder key (log.filter (fun a => decide (start ≤ key a))) := hlog.filter _
    rw [← List.take_append_drop limit (log.filter _), InOrder.append] at hsorted
    have hle := hsorted.2.2 b hb a hrest
    rw [heq] at hle
    exact absurd hle (not_le.mpr hcursor)

/-! ## §2. Progress. -/

/-- How many items of the log have the key. -/
def count (key : α → κ) (k : κ) (log : List α) : Nat := log.countP (fun a => key a = k)

/-- The log has an item after the key. -/
def Beyond (key : α → κ) (k : κ) (log : List α) : Prop := ∃ a ∈ log, k < key a

theorem le_foldl_max (key : α → κ) (as : List α) (c : κ) :
    c ≤ as.foldl (fun c a => max c (key a)) c
      ∧ ∀ a ∈ as, key a ≤ as.foldl (fun c a => max c (key a)) c := by
  induction as generalizing c with
  | nil => exact ⟨le_refl c, fun a ha => by cases ha⟩
  | cons b as ih =>
      obtain ⟨hle, hall⟩ := ih (max c (key b))
      refine ⟨(le_max_left _ _).trans hle, fun a ha => ?_⟩
      rcases List.mem_cons.mp ha with rfl | ha
      · exact (le_max_right _ _).trans hle
      · exact hall a ha

/-- No item of a page has a greater key than the cursor. -/
theorem le_cursor (start : κ) {as : List α} {a : α} (ha : a ∈ as) :
    key a ≤ cursor key start as := by
  cases as with
  | nil => cases ha
  | cons b as =>
      rcases List.mem_cons.mp ha with rfl | ha
      · exact (le_foldl_max key as (key a)).1
      · exact (le_foldl_max key as (key b)).2 a ha

theorem length_page_le {limit : Nat} {start : κ} {log : List α} :
    (page key limit start log).length ≤ limit := by
  unfold page
  rw [List.length_take]
  exact min_le_left _ _

/-- The items of a key from the start on are all candidates for the page. -/
theorem count_filter {start k : κ} (hle : start ≤ k) (log : List α) :
    count key k (log.filter (fun a => decide (start ≤ key a))) = count key k log := by
  unfold count
  rw [List.countP_filter]
  refine List.countP_congr (fun a _ => ?_)
  simp only [decide_eq_true_eq, Bool.and_eq_true, and_iff_left_iff_imp]
  intro heq
  rw [heq]
  exact hle

/-- **A key that fills a page is not passed.** -/
theorem cursor_le_of_full {limit : Nat} {start k : κ} {log : List α} (hlog : InOrder key log)
    (hle : start ≤ k) (hfull : limit ≤ count key k log) :
    cursor key start (page key limit start log) ≤ k := by
  rcases cursor_attained key start (page key limit start log) with heq | ⟨a, ha, heq⟩
  · rw [heq]
    exact hle
  rw [← heq]
  by_contra hlt
  rw [not_le] at hlt
  have hsorted : InOrder key (log.filter (fun a => decide (start ≤ key a))) := hlog.filter _
  rw [← List.take_append_drop limit (log.filter _), InOrder.append] at hsorted
  -- an item of this key that was cut off would come before `a`
  have hrest : count key k ((log.filter (fun a => decide (start ≤ key a))).drop limit) = 0 := by
    refine List.countP_eq_zero.mpr (fun b hb hkey => ?_)
    have hab := hsorted.2.2 a ha b hb
    rw [of_decide_eq_true hkey] at hab
    exact absurd hab (not_le.mpr hlt)
  have hcount : count key k (log.filter (fun a => decide (start ≤ key a))) = count key k log :=
    count_filter hle log
  rw [← List.take_append_drop limit (log.filter _)] at hcount
  unfold count at hcount hrest
  rw [List.countP_append, hrest, Nat.add_zero] at hcount
  -- so the page holds all of them, and `a`
  have hless : (page key limit start log).countP (fun a => key a = k)
      < (page key limit start log).length := by
    rw [List.countP_lt_length_iff]
    exact ⟨a, ha, by simpa using ne_of_gt hlt⟩
  have hlength : (page key limit start log).length ≤ limit := length_page_le
  unfold count at hfull
  unfold page at hless hlength
  omega

/-- **A page goes forward** when the log has an item beyond its start and the
items at its start do not fill it, and then only. -/
theorem lt_cursor_iff {limit : Nat} {start : κ} {log : List α} (hlog : InOrder key log)
    (hbeyond : Beyond key start log) :
    start < cursor key start (page key limit start log) ↔ count key start log < limit := by
  constructor
  · intro hlt
    by_contra hfull
    exact absurd (cursor_le_of_full hlog (le_refl start) (not_lt.mp hfull)) (not_le.mpr hlt)
  · intro hcount
    obtain ⟨a, ha, hstart⟩ := hbeyond
    have hmem : a ∈ log.filter (fun a => decide (start ≤ key a)) :=
      List.mem_filter.mpr ⟨ha, decide_eq_true hstart.le⟩
    suffices h : ∃ b ∈ page key limit start log, start < key b by
      obtain ⟨b, hb, hlt⟩ := h
      exact lt_of_lt_of_le hlt (le_cursor start hb)
    by_contra hnone
    push Not at hnone
    -- every item of the page would be at the start, so that the page is not full
    have hall : (page key limit start log).countP (fun a => key a = start)
        = (page key limit start log).length :=
      List.countP_eq_length.mpr (fun b hb =>
        decide_eq_true (le_antisymm (hnone b hb) (page_subset hb).2))
    have hsub : (page key limit start log).countP (fun a => key a = start)
        ≤ count key start log := by
      rw [← count_filter (le_refl start) log]
      exact List.Sublist.countP_le (List.take_sublist _ _)
    have hshort : (page key limit start log).length < limit := by omega
    have hwhole : page key limit start log = log.filter (fun a => decide (start ≤ key a)) := by
      unfold page at hshort ⊢
      rw [List.length_take] at hshort
      exact List.take_of_length_le (by omega)
    rw [← hwhole] at hmem
    exact absurd (hnone a hmem) (not_le.mpr hstart)

/-- Where the reader goes on after a page. -/
def next (key : α → κ) (limit : Nat) (log : List α) (c : κ) : κ :=
  cursor key c (page key limit c log)

theorem le_next (limit : Nat) (log : List α) (c : κ) : c ≤ next key limit log c := by
  rcases cursor_attained key c (page key limit c log) with heq | ⟨a, ha, heq⟩
  · exact heq.ge
  · unfold next
    rw [← heq]
    exact (page_subset ha).2

/-- A step forward leaves fewer items beyond the cursor. -/
theorem countP_next_lt {limit : Nat} {log : List α} {c : κ} (hlt : c < next key limit log c) :
    log.countP (fun a => next key limit log c < key a) < log.countP (fun a => c < key a) := by
  rcases cursor_attained key c (page key limit c log) with heq | ⟨a, ha, heq⟩
  · unfold next at hlt
    rw [heq] at hlt
    exact absurd hlt (lt_irrefl c)
  have hcur : key a = next key limit log c := heq
  -- the item at the new cursor was beyond the old one
  have hmem : a ∈ log.filter (fun a => decide (c < key a)) :=
    List.mem_filter.mpr ⟨(page_subset ha).1, decide_eq_true (hcur ▸ hlt)⟩
  have hsame : log.countP (fun a => next key limit log c < key a)
      = (log.filter (fun a => decide (c < key a))).countP
          (fun a => next key limit log c < key a) := by
    rw [List.countP_filter]
    refine List.countP_congr (fun b _ => ?_)
    simp only [decide_eq_true_eq, Bool.and_eq_true, iff_self_and]
    exact hlt.trans
  rw [hsame, List.countP_eq_length_filter (p := fun a => decide (c < key a)),
    List.countP_lt_length_iff]
  exact ⟨a, hmem, by simp [hcur]⟩

theorem iterate_next_le {limit : Nat} {log : List α} {start k : κ} (hlog : InOrder key log)
    (hle : start ≤ k) (hfull : limit ≤ count key k log) (n : Nat) :
    (next key limit log)^[n] start ≤ k := by
  induction n with
  | zero => exact hle
  | succ n ih =>
      rw [Function.iterate_succ_apply']
      exact cursor_le_of_full hlog ih hfull

theorem le_iterate_next (limit : Nat) (log : List α) (start : κ) (n : Nat) :
    start ≤ (next key limit log)^[n] start := by
  induction n with
  | zero => exact le_refl start
  | succ n ih =>
      rw [Function.iterate_succ_apply']
      exact ih.trans (le_next limit log _)

/-- **The reader comes to the end of the log** if and only if no key from the
start on, with an item beyond it, fills a page.  As many pages as the log has
items are enough. -/
theorem reaches_end_iff {limit : Nat} {log : List α} {start : κ} (hlog : InOrder key log) {n : Nat}
    (hn : log.length ≤ n) :
    (∀ a ∈ log, key a ≤ (next key limit log)^[n] start)
      ↔ ∀ k, start ≤ k → Beyond key k log → count key k log < limit := by
  constructor
  · intro hend k hle hbeyond
    by_contra hfull
    obtain ⟨a, ha, hlt⟩ := hbeyond
    exact absurd ((hend a ha).trans (iterate_next_le hlog hle (not_lt.mp hfull) n))
      (not_le.mpr hlt)
  · intro hfits
    -- at the end already, or a further item was passed by each page
    have hpassed : ∀ m, (∀ a ∈ log, key a ≤ (next key limit log)^[m] start)
        ∨ log.countP (fun a => (next key limit log)^[m] start < key a) + m ≤ log.length := by
      intro m
      induction m with
      | zero => exact .inr List.countP_le_length
      | succ m ih =>
          rw [Function.iterate_succ_apply']
          by_cases hbeyond : Beyond key ((next key limit log)^[m] start) log
          · have hlt := (lt_cursor_iff hlog hbeyond).mpr
              (hfits _ (le_iterate_next limit log start m) hbeyond)
            have hless := countP_next_lt hlt
            rcases ih with hend | hcount
            · obtain ⟨a, ha, hkey⟩ := hbeyond
              exact absurd (hend a ha) (not_le.mpr hkey)
            · exact .inr (by omega)
          · refine .inl (fun a ha => ?_)
            refine le_trans (not_lt.mp (fun hkey => hbeyond ⟨a, ha, hkey⟩)) (le_next limit log _)
    rcases hpassed n with hend | hcount
    · exact hend
    · have hzero : log.countP (fun a => (next key limit log)^[n] start < key a) = 0 := by omega
      intro a ha
      have hnot := List.countP_eq_zero.mp hzero a ha
      simpa using hnot

/-! ## §3. Readers. -/

/-- **What holds of a reader** that began at `first` and goes on from
`cursor`: it has seen everything in between, and nothing will be added there. -/
structure Reading (key : α → κ) (first cursor : κ) (seen : α → Prop) (log : List α) : Prop where
  inOrder : InOrder key log
  seen : ∀ a ∈ log, first ≤ key a → key a < cursor → seen a
  reached : cursor = first ∨ ∃ a ∈ log, key a = cursor

variable {first c : κ} {seen : α → Prop} {log : List α}

theorem Reading.begin (h : InOrder key log) : Reading key first first seen log :=
  ⟨h, fun _ _ hle hlt => absurd hle (not_le.mpr hlt), .inl rfl⟩

/-- More has been seen. -/
theorem Reading.mono {seen' : α → Prop} (h : Reading key first c seen log)
    (hseen : ∀ a, seen a → seen' a) : Reading key first c seen' log :=
  ⟨h.inOrder, fun a ha hle hlt => hseen a (h.seen a ha hle hlt), h.reached⟩

/-- **One more page.** -/
theorem Reading.page {limit : Nat} (h : Reading key first c seen log)
    (hpage : ∀ a ∈ Feed.page key limit c log, seen a) :
    Reading key first (cursor key c (Feed.page key limit c log)) seen log := by
  refine ⟨h.inOrder, fun a ha hle hlt => ?_, ?_⟩
  · by_cases hold : key a < c
    · exact h.seen a ha hle hold
    · exact hpage a (mem_page h.inOrder ha (not_lt.mp hold) hlt)
  · rcases cursor_attained key c (Feed.page key limit c log) with heq | ⟨a, ha, heq⟩
    · rw [heq]
      exact h.reached
    · exact .inr ⟨a, (page_subset ha).1, heq⟩

/-- **The log grows at its end.** -/
theorem Reading.grow {new : List α} (h : Reading key first c seen log)
    (hlog : InOrder key (log ++ new)) : Reading key first c seen (log ++ new) := by
  refine ⟨hlog, fun a ha hle hlt => ?_, ?_⟩
  · rcases List.mem_append.mp ha with ha | ha
    · exact h.seen a ha hle hlt
    rcases h.reached with rfl | ⟨b, hb, rfl⟩
    · exact absurd hle (not_le.mpr hlt)
    · -- the cursor is the key of an older item
      exact absurd ((InOrder.append.mp hlog).2.2 b hb a ha) (not_le.mpr hlt)
  · rcases h.reached with heq | ⟨a, ha, heq⟩
    · exact .inl heq
    · exact .inr ⟨a, List.mem_append_left _ ha, heq⟩

end Feed
