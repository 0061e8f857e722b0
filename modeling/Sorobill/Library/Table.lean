/-
  Sorobill.Library.Table
  ──────────────────────
  **RELATIONAL TABLES WITH UNIQUENESS CONSTRAINTS.**

  A `Table ρ Clash` is a list of rows no two of which clash (share a primary
  key, or a value under a unique index).  The constraint is a FIELD of the
  table: an insert or an update that would break it is refused, so a table
  with a duplicate key cannot be built.

    • `insert?` — append a row, refused when it clashes with a stored one;
    • `update?` — rewrite the rows a predicate selects, refused when the
      rewritten rows clash;
    • `upsert?` — rewrite the row with a key, or append one;
    • `find?_insert`, `find?_update`, `find?_update_key`, `find?_upsert_key` —
      what a lookup sees afterwards;
    • `find?_eq_some_iff`, `nodup_keys` — a lookup by a key is membership, and
      rows have different keys.
-/
import Mathlib.Data.List.Pairwise

namespace Relational

/-- Rows of which no two clash. -/
structure Table (ρ : Type) (Clash : ρ → ρ → Prop) where
  rows : List ρ
  distinct : rows.Pairwise (fun a b => ¬ Clash a b)

namespace Table

variable {ρ : Type} {Clash : ρ → ρ → Prop}

instance : Membership ρ (Table ρ Clash) where
  mem t r := r ∈ t.rows

theorem mem_def {t : Table ρ Clash} {r : ρ} : r ∈ t ↔ r ∈ t.rows := Iff.rfl

/-- The table without rows. -/
def empty : Table ρ Clash := ⟨[], List.Pairwise.nil⟩

theorem not_mem_of_nil {t : Table ρ Clash} (h : t.rows = []) (r : ρ) : r ∉ t := by
  rw [mem_def, h]
  exact List.not_mem_nil

/-- The first row that satisfies `p`. -/
def find? (t : Table ρ Clash) (p : ρ → Bool) : Option ρ := t.rows.find? p

/-- All rows that satisfy `p`, in table order. -/
def filter (t : Table ρ Clash) (p : ρ → Bool) : List ρ := t.rows.filter p

/-- The rows with those selected by `p` rewritten by `f`. -/
def rewriteRows (p : ρ → Bool) (f : ρ → ρ) (rows : List ρ) : List ρ :=
  rows.map (fun r => if p r then f r else r)

/-! ## §1. Lookups. -/

theorem find?_mem {t : Table ρ Clash} {p : ρ → Bool} {r : ρ}
    (h : t.find? p = some r) : r ∈ t ∧ p r = true :=
  ⟨List.mem_of_find?_eq_some h, List.find?_some h⟩

theorem find?_eq_none_iff {t : Table ρ Clash} {p : ρ → Bool} :
    t.find? p = none ↔ ∀ r ∈ t, p r = false := by
  simp [find?, mem_def]

theorem mem_filter {t : Table ρ Clash} {p : ρ → Bool} {r : ρ} :
    r ∈ t.filter p ↔ r ∈ t ∧ p r = true := by
  simp [filter, mem_def]

/-- Two rows of one table that clash are the same row. -/
theorem eq_of_clash [hs : Std.Symm Clash] {t : Table ρ Clash} {a b : ρ}
    (ha : a ∈ t) (hb : b ∈ t) (h : Clash a b) : a = b := by
  by_contra hne
  have : Std.Symm (fun a b => ¬ Clash a b) :=
    ⟨fun x y hxy hyx => hxy (hs.symm y x hyx)⟩
  exact t.distinct.forall ha hb hne h

/-- **A lookup by a unique key is membership**: when rows that `p` selects
clash with each other, the row found is the only one. -/
theorem find?_eq_some_iff [Std.Symm Clash] {t : Table ρ Clash} {p : ρ → Bool}
    (hkey : ∀ a b, p a = true → p b = true → Clash a b) {r : ρ} :
    t.find? p = some r ↔ r ∈ t ∧ p r = true := by
  constructor
  · exact find?_mem
  · intro h
    obtain ⟨hr, hp⟩ := h
    -- the row itself is a match, so some row is found, and it clashes with this one
    cases hf : t.find? p with
    | none => simp [find?_eq_none_iff.mp hf r hr] at hp
    | some r' =>
        obtain ⟨hr', hp'⟩ := find?_mem hf
        rw [eq_of_clash hr' hr (hkey r' r hp' hp)]

/-- **Rows have different keys**, when rows that share one clash. -/
theorem nodup_keys {κ : Type} {key : ρ → κ} (hkey : ∀ a b, key a = key b → Clash a b)
    (t : Table ρ Clash) (p : ρ → Bool) : ((t.filter p).map key).Nodup := by
  refine List.pairwise_map.mpr ((t.distinct.filter p).imp (fun hab heq => ?_))
  exact hab (hkey _ _ heq)

/-! ## §2. Inserts. -/

section Insert

variable [DecidableRel Clash]

/-- Append a row, unless a stored row clashes with it. -/
def insert? (t : Table ρ Clash) (r : ρ) : Option (Table ρ Clash) :=
  if h : ∀ a ∈ t.rows, ¬ Clash a r then
    some ⟨t.rows ++ [r], by
      rw [List.pairwise_append]
      refine ⟨t.distinct, List.pairwise_singleton _ _, fun a ha b hb => ?_⟩
      rw [List.mem_singleton.mp hb]
      exact h a ha⟩
  else none

theorem rows_insert {t t' : Table ρ Clash} {r : ρ} (h : t.insert? r = some t') :
    t'.rows = t.rows ++ [r] := by
  unfold insert? at h
  split at h
  · cases h
    rfl
  · cases h

theorem mem_insert {t t' : Table ρ Clash} {r x : ρ}
    (h : t.insert? r = some t') : x ∈ t' ↔ x ∈ t ∨ x = r := by
  simp [mem_def, rows_insert h]

theorem ne_of_insert {t t' : Table ρ Clash} {r : ρ} (h : t.insert? r = some t') : t' ≠ t := by
  intro heq
  have hlength := congrArg List.length (rows_insert h)
  rw [heq, List.length_append, List.length_singleton] at hlength
  omega

theorem not_clash_of_insert {t t' : Table ρ Clash} {r : ρ}
    (h : t.insert? r = some t') : ∀ a ∈ t, ¬ Clash a r := by
  unfold insert? at h
  split at h
  · assumption
  · cases h

theorem find?_insert {t t' : Table ρ Clash} {r : ρ}
    (h : t.insert? r = some t') (p : ρ → Bool) :
    t'.find? p = (t.find? p).or (if p r then some r else none) := by
  -- the new row is the last one, found only when no other is
  simp only [find?, rows_insert h, List.find?_append, List.find?_cons]
  cases p r <;> rfl

end Insert

/-! ## §3. Updates. -/

section Update

variable [DecidableRel Clash]

/-- Rewrite the rows selected by `p`, unless two rows would clash. -/
def update? (t : Table ρ Clash) (p : ρ → Bool) (f : ρ → ρ) :
    Option (Table ρ Clash) :=
  if h : (rewriteRows p f t.rows).Pairwise (fun a b => ¬ Clash a b) then
    some ⟨rewriteRows p f t.rows, h⟩
  else none

theorem rows_update {t t' : Table ρ Clash} {p : ρ → Bool} {f : ρ → ρ}
    (h : t.update? p f = some t') : t'.rows = rewriteRows p f t.rows := by
  unfold update? at h
  split at h
  · cases h
    rfl
  · cases h

theorem mem_update {t t' : Table ρ Clash} {p : ρ → Bool} {f : ρ → ρ} {x : ρ}
    (h : t.update? p f = some t') :
    x ∈ t' ↔ ∃ r ∈ t, x = if p r then f r else r := by
  rw [mem_def, rows_update h, rewriteRows, List.mem_map]
  exact ⟨fun ⟨r, hr, e⟩ => ⟨r, hr, e.symm⟩, fun ⟨r, hr, e⟩ => ⟨r, hr, e.symm⟩⟩

/-- **What a lookup sees after an update** that keeps the looked-up key. -/
theorem find?_update {t t' : Table ρ Clash} {p q : ρ → Bool} {f : ρ → ρ}
    (h : t.update? p f = some t') (hkey : ∀ r, p r = true → q (f r) = q r) :
    t'.find? q = (t.find? q).map (fun r => if p r then f r else r) := by
  simp only [find?, rows_update h, rewriteRows, List.find?_map]
  congr 2
  funext r
  show q (if p r then f r else r) = q r
  cases hp : p r with
  | true => exact hkey r hp
  | false => rfl

/-- Rewriting the row with the key `k`: a lookup by key sees the new row at
`k`, and elsewhere what it saw before. -/
theorem find?_update_key {κ : Type} [DecidableEq κ] {key : ρ → κ} {f : ρ → ρ} {k : κ}
    {t t' : Table ρ Clash} {old : ρ} (hold : t.find? (fun r => key r == k) = some old)
    (h : t.update? (fun r => key r == k) f = some t') (hkey : ∀ r, key (f r) = key r) (x : κ) :
    t'.find? (fun r => key r == x)
      = if x = k then some (f old) else t.find? (fun r => key r == x) := by
  rw [find?_update h (fun r _ => by rw [hkey])]
  by_cases hx : x = k
  · subst hx
    rw [hold, Option.map_some, if_pos (find?_mem hold).2, if_pos rfl]
  · rw [if_neg hx]
    cases hf : t.find? (fun r => key r == x) with
    | none => rfl
    | some r =>
        -- the row found has another key, so it was not rewritten
        have hr : key r = x := beq_iff_eq.mp (find?_mem hf).2
        simp [hr, hx]

/-- An update that changes no row it selects changes nothing. -/
theorem update_eq_self_iff {t t' : Table ρ Clash} {p : ρ → Bool} {f : ρ → ρ}
    (h : t.update? p f = some t') : t' = t ↔ ∀ r ∈ t, p r = true → f r = r := by
  have hrows : t' = t ↔ t'.rows = t.rows := by
    constructor
    · exact congrArg rows
    · intro heq
      cases t
      cases t'
      cases heq
      rfl
  have hid : t'.rows = t.rows ↔ t'.rows = t.rows.map id := by rw [List.map_id]
  rw [hrows, hid, rows_update h, rewriteRows, List.map_inj_left]
  refine forall₂_congr (fun r _ => ?_)
  cases p r <;> simp

/-- Rows outside the selection keep their place and value. -/
theorem mem_update_of_not {t t' : Table ρ Clash} {p : ρ → Bool} {f : ρ → ρ}
    {r : ρ} (h : t.update? p f = some t') (hr : r ∈ t) (hp : p r = false) :
    r ∈ t' :=
  (mem_update h).mpr ⟨r, hr, by simp [hp]⟩

theorem mem_update_of_selected {t t' : Table ρ Clash} {p : ρ → Bool}
    {f : ρ → ρ} {r : ρ} (h : t.update? p f = some t') (hr : r ∈ t)
    (hp : p r = true) : f r ∈ t' :=
  (mem_update h).mpr ⟨r, hr, by simp [hp]⟩

/-- What becomes of a row. -/
theorem update_fate {t t' : Table ρ Clash} {p : ρ → Bool} {f : ρ → ρ} {r : ρ}
    (h : t.update? p f = some t') (hr : r ∈ t) : r ∈ t' ∨ p r = true ∧ f r ∈ t' := by
  cases hp : p r with
  | true => exact .inr ⟨rfl, mem_update_of_selected h hr hp⟩
  | false => exact .inl (mem_update_of_not h hr hp)

/-- Where a row comes from. -/
theorem update_origin {t t' : Table ρ Clash} {p : ρ → Bool} {f : ρ → ρ} {x : ρ}
    (h : t.update? p f = some t') (hx : x ∈ t') : x ∈ t ∨ ∃ r ∈ t, p r = true ∧ x = f r := by
  obtain ⟨r, hr, rfl⟩ := (mem_update h).mp hx
  cases hp : p r with
  | true => exact .inr ⟨r, hr, hp, if_pos rfl⟩
  | false => exact .inl (by rwa [if_neg Bool.false_ne_true])

end Update

/-! ## §4. Upserts. -/

section Upsert

variable [DecidableRel Clash]

/-- Rewrite the rows selected by `p`; when there is none, append `r`. -/
def upsert? (t : Table ρ Clash) (p : ρ → Bool) (r : ρ) (f : ρ → ρ) : Option (Table ρ Clash) :=
  match t.find? p with
  | some _ => t.update? p f
  | none => t.insert? r

/-- **An upsert is taken** when its row clashes with no stored one, unless the
key is there, and no update makes rows clash. -/
theorem upsert_taken {t : Table ρ Clash} {p : ρ → Bool} {r : ρ} {f : ρ → ρ}
    (hr : ∀ a ∈ t, p a = false → ¬ Clash a r)
    (hf : ∀ a b, Clash (if p a then f a else a) (if p b then f b else b) → Clash a b) :
    ∃ t', t.upsert? p r f = some t' := by
  unfold upsert?
  split
  · unfold update?
    refine ⟨_, dif_pos ?_⟩
    rw [rewriteRows, List.pairwise_map]
    exact t.distinct.imp (fun hnot hclash => hnot (hf _ _ hclash))
  next hnone =>
    unfold insert?
    exact ⟨_, dif_pos (fun a ha => hr a ha (find?_eq_none_iff.mp hnone a ha))⟩

/-- **What a lookup by key sees after an upsert** at the key `k`. -/
theorem find?_upsert_key {κ : Type} [DecidableEq κ] {key : ρ → κ} {f : ρ → ρ} {k : κ}
    {t t' : Table ρ Clash} {r : ρ} (h : t.upsert? (fun r => key r == k) r f = some t')
    (hr : key r = k) (hkey : ∀ r, key (f r) = key r) (x : κ) :
    t'.find? (fun r => key r == x)
      = if x = k then some (((t.find? (fun r => key r == k)).map f).getD r)
        else t.find? (fun r => key r == x) := by
  unfold upsert? at h
  split at h
  next old hold =>
    rw [find?_update_key hold h hkey x, hold, Option.map_some, Option.getD_some]
  next hnone =>
    rw [find?_insert h, hnone, Option.map_none, Option.getD_none, hr]
    by_cases hx : x = k
    · subst hx
      rw [hnone, if_pos rfl, beq_self_eq_true, if_pos rfl]
      rfl
    · rw [if_neg hx, if_neg (by simpa using fun heq => hx heq.symm), Option.or_none]

end Upsert

end Table

end Relational
