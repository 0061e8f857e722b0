/-
  Sorobill.Library.Upserts
  ────────────────────────
  **BATCHES OF UPSERTS INTO A KEYED STORE.**

  A store maps keys to values.  An upsert creates the value of its key, or
  updates the one that is there.  When an update leaves no trace of an earlier
  update by the same input, a batch that is applied again changes nothing,
  however often its keys repeat.

    • `Upserts`, `put`, `batch` — the operations;
    • `Overwriting` — what is asked of the updates;
    • `batch_apply` — a key sees the inputs with this key, and no other;
    • `batch_batch` — twice is once.
-/
import Mathlib.Data.List.Basic
import Mathlib.Logic.Function.Basic

/-- Inputs with keys: the value that an input creates, and its update of a
value that is there. -/
structure Upserts (ι κ V : Type) where
  key : ι → κ
  create : ι → V
  update : ι → V → V

namespace Upserts

variable {ι κ V : Type} (U : Upserts ι κ V)

/-! ## §1. Operations. -/

/-- What an input makes of the value of its key. -/
def write (o : Option V) (i : ι) : Option V := some ((o.map (U.update i)).getD (U.create i))

/-- One upsert. -/
def put [DecidableEq κ] (s : κ → Option V) (i : ι) : κ → Option V :=
  Function.update s (U.key i) (U.write (s (U.key i)) i)

/-- The inputs in turn. -/
def batch [DecidableEq κ] (s : κ → Option V) (is : List ι) : κ → Option V := is.foldl U.put s

/-- The updates of a value in turn. -/
def revise (v : V) (is : List ι) : V := is.foldl (fun v i => U.update i v) v

/-- **An update leaves no trace of an earlier one by the same input**, whether
that created the value or updated it, and whatever came between. -/
structure Overwriting : Prop where
  created : ∀ i, U.update i (U.create i) = U.create i
  repeated : ∀ i v, U.update i (U.update i v) = U.update i v
  again : ∀ i j v, U.update i (U.update j (U.update i v)) = U.update i (U.update j v)

variable {U}

/-! ## §2. One key. -/

/-- A key that has a value is revised. -/
theorem foldl_write_some (v : V) (is : List ι) :
    is.foldl U.write (some v) = some (U.revise v is) := by
  induction is generalizing v with
  | nil => rfl
  | cons i is ih => exact ih (U.update i v)

/-- An input that comes again later leaves no trace. -/
theorem Overwriting.update_revise (h : U.Overwriting) (i : ι) (v : V) (is : List ι) :
    U.update i (U.revise (U.update i v) is) = U.update i (U.revise v is) := by
  induction is generalizing v with
  | nil => exact h.repeated i v
  | cons j is ih =>
      calc U.update i (U.revise (U.update j (U.update i v)) is)
          = U.update i (U.revise (U.update i (U.update j (U.update i v))) is) := (ih _).symm
        _ = U.update i (U.revise (U.update i (U.update j v)) is) := by rw [h.again]
        _ = U.update i (U.revise (U.update j v) is) := ih _

/-- Inputs all of which come again later leave no trace. -/
theorem Overwriting.revise_revise (h : U.Overwriting) {is js : List ι} (hsub : ∀ i ∈ is, i ∈ js)
    (v : V) : U.revise (U.revise v is) js = U.revise v js := by
  induction is generalizing v with
  | nil => rfl
  | cons i is ih =>
      refine (ih (fun i hi => hsub i (List.mem_cons_of_mem _ hi)) (U.update i v)).trans ?_
      obtain ⟨before, after, rfl⟩ := List.append_of_mem (hsub i List.mem_cons_self)
      unfold revise
      rw [List.foldl_append, List.foldl_append, List.foldl_cons, List.foldl_cons]
      congr 1
      exact h.update_revise i v before

/-- The first input of an absent key may as well have found its value. -/
theorem Overwriting.foldl_write_none (h : U.Overwriting) (i : ι) (is : List ι) :
    (i :: is).foldl U.write none = (i :: is).foldl U.write (some (U.create i)) := by
  rw [List.foldl_cons, List.foldl_cons]
  congr 1
  exact congrArg some (h.created i).symm

theorem Overwriting.foldl_write_twice (h : U.Overwriting) (o : Option V) (is : List ι) :
    is.foldl U.write (is.foldl U.write o) = is.foldl U.write o := by
  have hsome : ∀ v, is.foldl U.write (is.foldl U.write (some v)) = is.foldl U.write (some v) := by
    intro v
    rw [foldl_write_some, foldl_write_some, h.revise_revise (fun _ hi => hi)]
  cases o with
  | some v => exact hsome v
  | none =>
      cases is with
      | nil => rfl
      | cons i is =>
          rw [h.foldl_write_none]
          exact hsome (U.create i)

/-- A key has a value when it had one, or when there is an input. -/
theorem isSome_foldl_write (o : Option V) (is : List ι) :
    (is.foldl U.write o).isSome = true ↔ o.isSome = true ∨ is ≠ [] := by
  cases is with
  | nil => simp
  | cons i is =>
      rw [List.foldl_cons, write, foldl_write_some]
      simp

/-! ## §3. Stores. -/

section Stores

variable [DecidableEq κ]

/-- **A key sees the inputs with this key**, and no other. -/
theorem batch_apply (s : κ → Option V) (is : List ι) (k : κ) :
    U.batch s is k = (is.filter (fun i => U.key i = k)).foldl U.write (s k) := by
  induction is generalizing s with
  | nil => rfl
  | cons i is ih =>
      refine (ih (U.put s i)).trans ?_
      by_cases hk : U.key i = k
      · rw [List.filter_cons_of_pos (by simpa using hk), List.foldl_cons, put, ← hk,
          Function.update_self]
      · rw [List.filter_cons_of_neg (by simpa using hk), put,
          Function.update_of_ne (fun heq => hk heq.symm)]

/-- **Twice is once.** -/
theorem Overwriting.batch_batch (h : U.Overwriting) (s : κ → Option V) (is : List ι) :
    U.batch (U.batch s is) is = U.batch s is := by
  funext k
  rw [batch_apply (U.batch s is), batch_apply s]
  exact h.foldl_write_twice (s k) _

/-- The keys after a batch are the old ones and those of the inputs. -/
theorem isSome_batch (s : κ → Option V) (is : List ι) (k : κ) :
    (U.batch s is k).isSome = true ↔ (s k).isSome = true ∨ ∃ i ∈ is, U.key i = k := by
  rw [batch_apply, isSome_foldl_write, Ne, List.filter_eq_nil_iff]
  simp

end Stores

end Upserts
