/-
  Sorobill.Library.Grouping
  ─────────────────────────
  **SUMS BY KEY, IN A MAP THAT KEEPS THE ORDER OF INSERTION.**

  `group key value xs` adds the value of each element to the entry of its key;
  an entry is made when the first element with the key comes.

    • `mem_keys_group`, `keys_group_pairwise` — the keys, and their order;
    • `mem_group` — the entry of a key is the sum over its elements;
    • `sum_group` — the entries add up to the sum over all elements;
    • `sum_filter_keys` — the elements of the keys of a list, key by key;
    • `map_group`, `group_map_keys` — another reading of the values or keys.
-/
import Mathlib.Algebra.BigOperators.Group.List.Basic
import Mathlib.Data.List.Induction

namespace Grouping

variable {α K K' V V' : Type} [DecidableEq K] [DecidableEq K']

/-! ## §1. Maps. -/

/-- The value of a key. -/
def get? (k : K) : List (K × V) → Option V
  | [] => none
  | (k', v) :: m => if k' = k then some v else get? k m

/-- The entry of the key is replaced, or added at the end. -/
def set (k : K) (v : V) : List (K × V) → List (K × V)
  | [] => [(k, v)]
  | (k', v') :: m => if k' = k then (k', v) :: m else (k', v') :: set k v m

/-- The value is added to that of the key. -/
def add [Add V] [Zero V] (k : K) (v : V) (m : List (K × V)) : List (K × V) :=
  set k ((get? k m).getD 0 + v) m

def group [Add V] [Zero V] (key : α → K) (value : α → V) (xs : List α) : List (K × V) :=
  xs.foldl (fun m x => add (key x) (value x) m) []

theorem get?_of_mem {k : K} {v : V} {m : List (K × V)} (hkeys : (m.map Prod.fst).Nodup)
    (h : (k, v) ∈ m) : get? k m = some v := by
  induction m with
  | nil => cases h
  | cons e m ih =>
      obtain ⟨k', v'⟩ := e
      obtain ⟨hnew, hkeys⟩ := List.nodup_cons.mp hkeys
      unfold get?
      rcases List.mem_cons.mp h with heq | h
      · cases heq
        rw [if_pos rfl]
      · have hne : k' ≠ k := by
          rintro rfl
          exact hnew (List.mem_map.mpr ⟨_, h, rfl⟩)
        rw [if_neg hne, ih hkeys h]

theorem get?_set (k k' : K) (v : V) (m : List (K × V)) :
    get? k' (set k v m) = if k' = k then some v else get? k' m := by
  induction m with
  | nil =>
      unfold set get?
      by_cases hk : k' = k
      · rw [if_pos hk.symm, if_pos hk]
      · rw [if_neg (Ne.symm hk), if_neg hk]
        rfl
  | cons e m ih =>
      obtain ⟨j, u⟩ := e
      unfold set
      split
      next hj =>
        subst hj
        by_cases hk : k' = j
        · rw [get?, if_pos hk.symm, if_pos hk]
        · rw [get?, get?, if_neg (Ne.symm hk), if_neg (Ne.symm hk), if_neg hk]
      next hj =>
        rw [get?, get?, ih]
        by_cases hk : j = k'
        · rw [if_pos hk, if_pos hk, if_neg (fun h => hj (hk.trans h))]
        · rw [if_neg hk, if_neg hk]

theorem keys_set (k : K) (v : V) (m : List (K × V)) : (set k v m).map Prod.fst
    = if k ∈ m.map Prod.fst then m.map Prod.fst else m.map Prod.fst ++ [k] := by
  induction m with
  | nil => simp [set]
  | cons e m ih =>
      obtain ⟨j, u⟩ := e
      unfold set
      split
      next hj =>
        rw [List.map_cons, List.map_cons, if_pos (List.mem_cons.mpr (.inl hj.symm))]
      next hj =>
        rw [List.map_cons, List.map_cons, ih]
        by_cases hk : k ∈ m.map Prod.fst
        · rw [if_pos hk, if_pos (List.mem_cons_of_mem j hk)]
        · have hnew : k ∉ j :: m.map Prod.fst := fun h => hk ((List.mem_cons.mp h).resolve_left
            (Ne.symm hj))
          rw [if_neg hk, if_neg hnew, List.cons_append]

/-! ## §2. Keys. -/

section Keys

variable [Add V] [Zero V] {key : α → K} {value : α → V}

theorem group_concat (xs : List α) (x : α) :
    group key value (xs ++ [x]) = add (key x) (value x) (group key value xs) := by
  unfold group
  rw [List.foldl_append]
  rfl

theorem group_congr {key' : α → K} {value' : α → V} {xs : List α}
    (h : ∀ x ∈ xs, key x = key' x ∧ value x = value' x) :
    group key value xs = group key' value' xs := by
  unfold group
  refine List.foldl_ext _ _ _ (fun m x hx => ?_)
  rw [(h x hx).1, (h x hx).2]

theorem mem_keys_add {k k' : K} {v : V} {m : List (K × V)} :
    k' ∈ (add k v m).map Prod.fst ↔ k' ∈ m.map Prod.fst ∨ k' = k := by
  rw [add, keys_set]
  split
  next hmem =>
    refine ⟨.inl, fun h => ?_⟩
    rcases h with h | rfl
    · exact h
    · exact hmem
  next => rw [List.mem_append, List.mem_singleton]

/-- **There is an entry for exactly each key of an element.** -/
theorem mem_keys_group {k : K} {xs : List α} :
    k ∈ (group key value xs).map Prod.fst ↔ ∃ x ∈ xs, key x = k := by
  induction xs using List.reverseRecOn with
  | nil => simp [group]
  | append_singleton xs x ih =>
      rw [group_concat, mem_keys_add, ih]
      constructor
      · rintro (⟨y, hy, rfl⟩ | rfl)
        · exact ⟨y, List.mem_append_left _ hy, rfl⟩
        · exact ⟨x, List.mem_append_right _ (List.mem_singleton_self x), rfl⟩
      · rintro ⟨y, hy, rfl⟩
        rcases List.mem_append.mp hy with hy | hy
        · exact .inl ⟨y, hy, rfl⟩
        · rw [List.mem_singleton.mp hy]
          exact .inr rfl

/-- **The keys stand in the order of the elements.** -/
theorem keys_group_pairwise {R : K → K → Prop} {xs : List α}
    (h : xs.Pairwise (fun x y => key x = key y ∨ R (key x) (key y))) :
    ((group key value xs).map Prod.fst).Pairwise R := by
  induction xs using List.reverseRecOn with
  | nil => exact .nil
  | append_singleton xs x ih =>
      obtain ⟨hxs, -, hlast⟩ := List.pairwise_append.mp h
      rw [group_concat, add, keys_set]
      split
      next => exact ih hxs
      next hnew =>
        refine List.pairwise_append.mpr ⟨ih hxs, List.pairwise_singleton R _, fun k hk k' hk' => ?_⟩
        rw [List.mem_singleton.mp hk']
        obtain ⟨y, hy, rfl⟩ := mem_keys_group.mp hk
        rcases hlast y hy x (List.mem_singleton_self x) with heq | hR
        · rw [heq] at hk
          exact absurd hk hnew
        · exact hR

/-- **Another reading of the values**, which respects their sum. -/
theorem map_group [Add V'] [Zero V'] {f : V → V'} (hzero : f 0 = 0)
    (hadd : ∀ a b, f (a + b) = f a + f b) (xs : List α) :
    group key (fun x => f (value x)) xs
      = (group key value xs).map (fun e => (e.1, f e.2)) := by
  have hget : ∀ (k : K) (m : List (K × V)),
      get? k (m.map (fun e => (e.1, f e.2))) = (get? k m).map f := by
    intro k m
    induction m with
    | nil => rfl
    | cons e m ih =>
        rw [List.map_cons, get?, get?, ih]
        split <;> rfl
  have hset : ∀ (k : K) (v : V) (m : List (K × V)),
      set k (f v) (m.map (fun e => (e.1, f e.2))) = (set k v m).map (fun e => (e.1, f e.2)) := by
    intro k v m
    induction m with
    | nil => rfl
    | cons e m ih =>
        rw [List.map_cons, set, set, ih]
        split <;> rfl
  induction xs using List.reverseRecOn with
  | nil => rfl
  | append_singleton xs x ih =>
      rw [group_concat, group_concat, ih, add, add, hget, ← hset]
      congr 1
      cases get? (key x) (group key value xs) with
      | none => exact (hadd 0 (value x)).symm ▸ by rw [hzero]; rfl
      | some v => exact (hadd v (value x)).symm

/-- **Other names for the keys**, which do not merge any. -/
theorem group_map_keys {f : K → K'} {xs : List α}
    (hinj : ∀ x ∈ xs, ∀ y ∈ xs, f (key x) = f (key y) → key x = key y) :
    group (fun x => f (key x)) value xs = (group key value xs).map (fun e => (f e.1, e.2)) := by
  have hget : ∀ (k : K) (m : List (K × V)), (∀ k' ∈ m.map Prod.fst, f k' = f k → k' = k) →
      get? (f k) (m.map (fun e => (f e.1, e.2))) = get? k m := by
    intro k m hm
    induction m with
    | nil => rfl
    | cons e m ih =>
        obtain ⟨hfirst, hrest⟩ := List.forall_mem_cons.mp hm
        rw [List.map_cons, get?, get?, ih hrest]
        by_cases hk : e.1 = k
        · rw [if_pos hk, if_pos (congrArg f hk)]
        · rw [if_neg hk, if_neg (fun h => hk (hfirst h))]
  have hset : ∀ (k : K) (v : V) (m : List (K × V)),
      (∀ k' ∈ m.map Prod.fst, f k' = f k → k' = k) →
      set (f k) v (m.map (fun e => (f e.1, e.2))) = (set k v m).map (fun e => (f e.1, e.2)) := by
    intro k v m hm
    induction m with
    | nil => rfl
    | cons e m ih =>
        obtain ⟨hfirst, hrest⟩ := List.forall_mem_cons.mp hm
        rw [List.map_cons, set, set, ih hrest]
        by_cases hk : e.1 = k
        · rw [if_pos hk, if_pos (congrArg f hk)]
          rfl
        · rw [if_neg hk, if_neg (fun h => hk (hfirst h))]
          rfl
  induction xs using List.reverseRecOn with
  | nil => rfl
  | append_singleton xs x ih =>
      have hx : x ∈ xs ++ [x] := List.mem_append_right xs (List.mem_singleton_self x)
      -- on the keys seen so far `f` is injective, so each key meets its own image only
      have hkeys : ∀ k' ∈ (group key value xs).map Prod.fst, f k' = f (key x) → k' = key x := by
        intro k' hk'
        obtain ⟨y, hy, rfl⟩ := mem_keys_group.mp hk'
        exact hinj y (List.mem_append_left _ hy) x hx
      have hrest := ih (fun y hy z hz => hinj y (List.mem_append_left _ hy) z
        (List.mem_append_left _ hz))
      rw [group_concat, group_concat, hrest, add, add, hget _ _ hkeys, hset _ _ _ hkeys]

end Keys

/-! ## §3. Sums. -/

section Sums

variable [AddCommMonoid V] {key : α → K} {value : α → V}

/-- The value of a key is the sum over the elements with the key. -/
theorem get?_group (k : K) (xs : List α) :
    (get? k (group key value xs)).getD 0 = ((xs.filter (fun x => key x = k)).map value).sum := by
  induction xs using List.reverseRecOn with
  | nil => rfl
  | append_singleton xs x ih =>
      rw [group_concat, add, get?_set, List.filter_append, List.map_append, List.sum_append, ← ih]
      by_cases hk : k = key x
      · subst hk
        simp
      · simp [hk, Ne.symm hk]

/-- **The entries**: one for each key of an element, with the sum over the
elements that have it. -/
theorem mem_group {k : K} {v : V} {xs : List α} : (k, v) ∈ group key value xs
    ↔ (∃ x ∈ xs, key x = k) ∧ v = ((xs.filter (fun x => key x = k)).map value).sum := by
  have hkeys : ((group key value xs).map Prod.fst).Nodup :=
    keys_group_pairwise (List.pairwise_of_forall (fun x y => em (key x = key y)))
  have hsum : (get? k (group key value xs)).getD 0
      = ((xs.filter (fun x => key x = k)).map value).sum := get?_group k xs
  constructor
  · intro h
    rw [get?_of_mem hkeys h] at hsum
    exact ⟨mem_keys_group.mp (List.mem_map.mpr ⟨_, h, rfl⟩), hsum⟩
  · rintro ⟨hx, rfl⟩
    have hkey : k ∈ (group key value xs).map Prod.fst := mem_keys_group.mpr hx
    obtain ⟨⟨k', v⟩, hmem, rfl⟩ := List.mem_map.mp hkey
    rw [get?_of_mem hkeys hmem] at hsum
    rw [← hsum]
    exact hmem

/-- **No element is left out, and none is counted twice.** -/
theorem sum_group (xs : List α) :
    ((group key value xs).map Prod.snd).sum = (xs.map value).sum := by
  have hadd : ∀ (k : K) (v : V) (m : List (K × V)),
      ((add k v m).map Prod.snd).sum = (m.map Prod.snd).sum + v := by
    intro k v m
    unfold add
    induction m with
    | nil => simp [set, get?]
    | cons e m ih =>
        obtain ⟨k', v'⟩ := e
        unfold set get?
        split
        next =>
          simp only [List.map_cons, List.sum_cons, Option.getD_some]
          exact add_right_comm _ _ _
        next => rw [List.map_cons, List.sum_cons, ih, List.map_cons, List.sum_cons, add_assoc]
  induction xs using List.reverseRecOn with
  | nil => rfl
  | append_singleton xs x ih =>
      rw [group_concat, hadd, ih, List.map_append, List.sum_append]
      simp

omit [DecidableEq K] in
/-- An element counts once, or not at all. -/
theorem sum_indicator {keys : List K} (hnodup : keys.Nodup) {selects : K → α → Bool}
    (hone : ∀ x j k, selects j x = true → selects k x = true → j = k) (x : α) (v : V) :
    (keys.map (fun k => if selects k x = true then v else 0)).sum
      = if keys.any (selects · x) = true then v else 0 := by
  induction keys with
  | nil => rfl
  | cons k keys ih =>
      obtain ⟨hk, hrest⟩ := List.nodup_cons.mp hnodup
      rw [List.map_cons, List.sum_cons, ih hrest, List.any_cons]
      by_cases hx : selects k x = true
      · have hothers : keys.any (selects · x) = false := by
          rw [List.any_eq_false]
          exact fun j hj hjx => hk (hone x j k hjx hx ▸ hj)
        simp [hx, hothers]
      · simp [hx]

omit [DecidableEq K] in
/-- **The elements that are selected by a key of the list**, key by key. -/
theorem sum_filter_keys {keys : List K} (hnodup : keys.Nodup) (selects : K → α → Bool)
    (hone : ∀ x j k, selects j x = true → selects k x = true → j = k) (value : α → V)
    (xs : List α) :
    (keys.map (fun k => ((xs.filter (selects k)).map value).sum)).sum
      = ((xs.filter (fun x => keys.any (selects · x))).map value).sum := by
  induction xs with
  | nil => simp
  | cons x xs ih =>
      have hsplit : ∀ k, (((x :: xs).filter (selects k)).map value).sum
          = (if selects k x = true then value x else 0)
            + ((xs.filter (selects k)).map value).sum := by
        intro k
        by_cases hk : selects k x = true <;> simp [hk]
      rw [List.map_congr_left (fun k _ => hsplit k), List.sum_map_add, ih,
        sum_indicator hnodup hone]
      by_cases hx : keys.any (selects · x) = true <;> simp [hx]

end Sums

end Grouping
