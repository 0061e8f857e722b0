/-
  Sorobill.Library.Tickets
  ────────────────────────
  **KEYS THAT ARE ISSUED ONCE AND SPENT ONCE.**

  An execution that is issued a fresh key holds it until it spends it.  Keys are
  not handed on, and a key that is lost with its execution is never spent: so
  whatever else is in flight, a key that is about to be spent is unspent.

    • `Tickets`, `Tickets.Fair` — issued and spent keys, and who holds them;
    • `Tickets.Handles` — what one call may do;
    • `Tickets.Fair.handled` — **no call makes two executions hold one key, or
      one hold a spent key**;
    • `Tickets.moves` — what follows along every interleaving, with executions
      stopped anywhere.
-/
import Sorobill.Library.Pool

namespace Effect

variable {I : Interface} {W Env Op κ : Type}

/-- The keys that have been issued, and those that are spent. -/
structure Tickets (W κ : Type) where
  issued : W → κ → Prop
  spent : W → κ → Prop

namespace Tickets

variable (T : Tickets W κ)

/-! ## §1. Keys in flight. -/

/-- **Nobody holds a spent key, and no two hold the same.** -/
structure Fair (w : W) (vs : List (Option κ)) : Prop where
  issued : ∀ k, T.spent w k → T.issued w k
  held : ∀ k, some k ∈ vs → T.issued w k ∧ ¬ T.spent w k
  distinct : (vs.filterMap id).Nodup

/-- **What one call does** to the keys, and to the one that its execution holds. -/
inductive Handles (w w' : W) : Option κ → Option κ → Prop where
  | issues (v : Option κ) (k : κ) : ¬ T.issued w k → T.issued w' k →
      (∀ j, T.issued w j → T.issued w' j) → (∀ j, T.spent w' j → T.spent w j) →
      Handles w w' v (some k)
  | spends (k : κ) : (∀ j, T.issued w j → T.issued w' j) →
      (∀ j, T.spent w' j → T.spent w j ∨ j = k) → Handles w w' (some k) none
  | keeps (v : Option κ) : (∀ j, T.issued w j → T.issued w' j) →
      (∀ j, T.spent w' j → T.spent w j) → Handles w w' v v

variable {T} {w w' : W} {v v' : Option κ} {pre post : List (Option κ)}

theorem Fair.idle (h : ∀ k, T.spent w k → T.issued w k) : T.Fair w [] :=
  ⟨h, fun _ hk => absurd hk List.not_mem_nil, List.nodup_nil⟩

/-- An execution that holds no key joins. -/
theorem Fair.join {vs : List (Option κ)} (h : T.Fair w vs) : T.Fair w (vs ++ [none]) where
  issued := h.issued
  held k hk := by
    rcases List.mem_append.mp hk with hk | hk
    · exact h.held k hk
    · cases List.mem_singleton.mp hk
  distinct := by
    rw [List.filterMap_append]
    simpa using h.distinct

/-- An execution leaves, and its key is lost. -/
theorem Fair.leave (h : T.Fair w (pre ++ v :: post)) : T.Fair w (pre ++ post) where
  issued := h.issued
  held k hk := h.held k (mem_others hk)
  distinct := by
    refine h.distinct.sublist ?_
    exact ((List.sublist_cons_self v post).append_left pre).filterMap id

theorem filterMap_hole (v : Option κ) :
    ((pre ++ v :: post).filterMap id).Perm (v.toList ++ (pre ++ post).filterMap id) := by
  rw [List.filterMap_append, List.filterMap_append]
  cases v with
  | none => exact .refl _
  | some k => exact List.perm_middle

/-- **The key that is held is held by nobody else.** -/
theorem Fair.mine {k : κ} (h : T.Fair w (pre ++ some k :: post)) : some k ∉ pre ++ post := by
  have hnodup := (filterMap_hole (some k)).nodup_iff.mp h.distinct
  rw [Option.toList_some, List.singleton_append] at hnodup
  exact fun hmem => (List.nodup_cons.mp hnodup).1 (List.mem_filterMap.mpr ⟨some k, hmem, rfl⟩)

/-- **Every call keeps the keys in order.** -/
theorem Fair.handled (h : T.Fair w (pre ++ v :: post)) (hv : T.Handles w w' v v') :
    T.Fair w' (pre ++ v' :: post) := by
  have hothers := h.leave
  cases hv with
  | issues _ k hnew hissued hmono hspent =>
      refine ⟨fun j hj => hmono j (h.issued j (hspent j hj)), fun j hj => ?_, ?_⟩
      · rcases List.mem_append.mp hj with hj | hj
        · obtain ⟨hi, hs⟩ := hothers.held j (List.mem_append_left _ hj)
          exact ⟨hmono j hi, fun hs' => hs (hspent j hs')⟩
        · rcases List.mem_cons.mp hj with hj | hj
          · cases hj
            exact ⟨hissued, fun hs => hnew (h.issued _ (hspent _ hs))⟩
          · obtain ⟨hi, hs⟩ := hothers.held j (List.mem_append_right _ hj)
            exact ⟨hmono j hi, fun hs' => hs (hspent j hs')⟩
      · -- nobody holds a key that was not issued
        rw [(filterMap_hole (some k)).nodup_iff, Option.toList_some, List.singleton_append]
        refine List.nodup_cons.mpr ⟨fun hmem => ?_, hothers.distinct⟩
        obtain ⟨_, hmem, rfl⟩ := List.mem_filterMap.mp hmem
        exact hnew (hothers.held k hmem).1
  -- whoever spends a key held it alone
  | spends k hmono hspent =>
      refine ⟨fun j hj => ?_, fun j hj => ?_, ?_⟩
      · rcases hspent j hj with hj | rfl
        · exact hmono j (h.issued j hj)
        · exact hmono j (h.held j (by simp)).1
      · have hj : some j ∈ pre ++ post := by simpa using hj
        obtain ⟨hi, hs⟩ := hothers.held j hj
        refine ⟨hmono j hi, fun hs' => (hspent j hs').elim hs (fun hjk => ?_)⟩
        exact h.mine (hjk ▸ hj)
      · exact (filterMap_hole none).nodup_iff.mpr hothers.distinct
  | keeps _ hmono hspent =>
      refine ⟨fun j hj => hmono j (h.issued j (hspent j hj)), fun j hj => ?_, h.distinct⟩
      obtain ⟨hi, hs⟩ := h.held j hj
      exact ⟨hmono j hi, fun hs' => hs (hspent j hs')⟩

/-! ## §2. Interleavings. -/

variable {S : System I W Env Op (Option κ)} {J : W → Prop}

/-- What an execution shows of its calls, whatever the others do. -/
def contract (S : System I W Env Op (Option κ)) (G : Option κ → I.Call → Prop) :
    Contract S.backend (Option κ) where
  rely _ _ := True
  assume _ _ := True
  guarantee v e := G v e.call
  track := S.track

/-- Calls of which `G` holds handle keys, and keep `J` when the key that they
may spend is unspent. -/
structure Governs (T : Tickets W κ) (S : System I W Env Op (Option κ))
    (G : Option κ → I.Call → Prop) (J : W → Prop) : Prop where
  view : ∀ op, S.view op = none
  body : ∀ op, Always (contract S G) (S.body op)
  handles : ∀ v (e : Event I W Env), G v e.call →
    T.Handles e.before (e.after S.backend) v (S.track v e)
  keeps : ∀ v (e : Event I W Env), G v e.call → (∀ k, v = some k → ¬ T.spent e.before k) →
    J e.before → J (e.after S.backend)
  drift : ∀ a b, S.drift a b → T.Handles a b none none ∧ (J a → J b)

/-- The discipline of the keys. -/
def discipline {G : Option κ → I.Call → Prop} (hT : T.Governs S G J) :
    Discipline S anyone where
  inv w vs := T.Fair w vs ∧ J w
  rely _ _ := True
  ended _ := True
  rely_refl _ := trivial
  rely_trans _ _ _ _ _ := trivial
  start w vs op hinv _ := by
    refine ⟨⟨?_, hinv.2⟩, ?_⟩
    · rw [hT.view op]
      exact hinv.1.join
    · refine Safe.weaken (D := contract S G) (hT.body op w _) (fun _ _ _ => trivial)
        (fun _ _ _ => trivial) (fun v e _ hG => ⟨trivial, fun pre post hinv _ => ?_⟩) rfl
      refine ⟨hinv.1.handled (hT.handles v e hG), hT.keeps v e hG (fun k hk => ?_) hinv.2⟩
      subst hk
      exact (hinv.1.held k (by simp)).2
  leave _ _ _ _ _ hinv := ⟨hinv.1.leave, hinv.2⟩
  drift w w' vs hdrift hinv := by
    obtain ⟨hhandles, hJ⟩ := hT.drift w w' hdrift
    refine ⟨⟨?_, hJ hinv.2⟩, trivial⟩
    -- a drift is a call of nobody
    have hfair : T.Fair w ([] ++ none :: vs) := ⟨hinv.1.issued, by simpa using hinv.1.held,
      by simpa using hinv.1.distinct⟩
    exact (hfair.handled hhandles).leave

/-- **What keys guard holds in every state that is reached.** -/
theorem moves {G : Option κ → I.Call → Prop} (hT : T.Governs S G J) {w₀ : W}
    {P : Pool I W (Option κ)} (h : Pool.Moves S anyone (fun _ => True) ⟨w₀, []⟩ P)
    (hw : ∀ k, T.spent w₀ k → T.issued w₀ k) (hJ : J w₀) : J P.world :=
  (Discipline.run_stopping (D := discipline hT) h (Discipline.sound_idle ⟨.idle hw, hJ⟩)).1.2

end Tickets

end Effect
