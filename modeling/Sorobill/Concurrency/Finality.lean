/-
  Sorobill.Concurrency.Finality
  ─────────────────────────────
  **IS SUCCESS FINAL?**

  The SUCCESS check of a charge is made once.  A live charge that has passed
  it writes PROCESSING, FAILED or a hash of its own, even if another worker
  has set the row to SUCCESS in between.

    • `Uncontested` — a row of a live backend is set to SUCCESS only while no
      other execution is charging it;
    • `success_final` — in every such interleaving a SUCCESS row keeps its
      status and its hash.
-/
import Sorobill.Model.Shop
import Sorobill.Rules.Custody

namespace Sorobill

open Effect
open Relational

/-! ## §1. The pool. -/

/-- The running backend, each execution with the row it is charging. -/
def custodies (cfg : Config) : System Api World Env Operation Custody :=
  concurrent cfg custodyOf trackCustody

instance (cfg : Config) (w : World) (op : Operation) :
    Decidable ((custodies cfg).enabled w op) :=
  inferInstanceAs (Decidable (op.Enabled w))

/-- **The condition on interleavings**: transactions have hashes, and a row of
a live backend is set to SUCCESS only while no other execution is charging
it. -/
def Uncontested (cfg : Config) : Condition Api World Env Custody := fun _ others e =>
  Hashed e ∧ (cfg.billing.testMode = false → isRejected e = false →
    ∀ pid data, e.call = .paymentUpdate pid data → data.status = some .SUCCESS →
      ∀ u ∈ others, u ≠ .holds pid)

/-! ## §2. The invariant. -/

/-- A SUCCESS row keeps its status and its hash. -/
def SuccessKept (w w' : World) : Prop :=
  ∀ p ∈ w.payments, p.status = .SUCCESS → ∃ p' ∈ w'.payments, p'.id = p.id
    ∧ p'.status = .SUCCESS ∧ p'.stellarTxHash = p.stellarTxHash

theorem SuccessKept.refl (w : World) : SuccessKept w w :=
  fun p hp hst => ⟨p, hp, rfl, hst, rfl⟩

theorem SuccessKept.trans {a b c : World} (hab : SuccessKept a b) (hbc : SuccessKept b c) :
    SuccessKept a c := by
  intro p hp hst
  obtain ⟨q, hq, hqid, hqst, hqhash⟩ := hab p hp hst
  obtain ⟨r, hr, hrid, hrst, hrhash⟩ := hbc q hq hqst
  exact ⟨r, hr, hrid.trans hqid, hrst, hrhash.trans hqhash⟩

/-- **The invariant**: SUCCESS rows are settled; and if a row that is being
charged is SUCCESS, the backend is in test mode and the row has the hash that
the charge is to record. -/
structure Settling (cfg : Config) (w : World) (vs : List Custody) : Prop where
  settled : ∀ p ∈ w.payments, p.status = .SUCCESS → p.settled
  charged : ∀ v ∈ vs, ∀ p ∈ w.payments, v = .holds p.id → p.status = .SUCCESS →
    cfg.billing.testMode = true
      ∧ ∃ hash, p.stellarTxHash = some hash ∧ MockHash cfg w p.idempotencyKey hash

section Steps

variable {cfg : Config} {v : Custody} {e : CallEvent} {pre post : List Custody}

/-- **A SUCCESS row after a call**: it was SUCCESS before, or it was set to
SUCCESS by the execution that had it in custody. -/
theorem success_origin_custody (hg : Custodial cfg v e)
    (hinv : Settling cfg e.before (pre ++ v :: post)) {p' : Payment}
    (hp' : p' ∈ (e.after api).payments) (hst : p'.status = .SUCCESS) :
    p' ∈ e.before.payments
      ∨ ∃ data, e.call = .paymentUpdate p'.id data ∧ data.status = some .SUCCESS
          ∧ isRejected e = false ∧ v = .holds p'.id ∧ p'.settled
          ∧ (cfg.billing.testMode = true → ∃ hash, p'.stellarTxHash = some hash
            ∧ MockHash cfg e.before p'.idempotencyKey hash) := by
  by_cases hrej : isRejected e = true
  · rw [after_of_isRejected hrej] at hp'
    exact .inl hp'
  have hrej : isRejected e = false := by simpa using hrej
  rcases payment_origin e hp' with hp | ⟨old, hold, data, rfl, hw⟩ | ⟨data, id, -, rfl⟩
  · exact .inl hp
  · -- RETRYING is written over FAILED only; the rest by whoever charges the row
    rcases hg.written hold hw with ⟨-, hd⟩ | ⟨hv, hcall, ⟨hlive, hhash⟩ | ⟨htest, hd, hash, hh, hm⟩⟩
    · rw [show (data.apply old).status = .RETRYING by simp [PaymentData.apply, hd]] at hst
      cases hst
    · -- a live charge has found its row not SUCCESS
      have hold : old.status ≠ .SUCCESS := by
        intro hold'
        obtain ⟨htest, -⟩ := hinv.charged v (by simp) old hold hv hold'
        rw [hlive] at htest
        cases htest
      have hd : data.status = some .SUCCESS := by
        unfold PaymentData.apply at hst
        cases hd : data.status with
        | none =>
            rw [hd] at hst
            exact absurd hst hold
        | some st =>
            rw [hd] at hst
            exact congrArg some hst
      obtain ⟨hash, hh, hne⟩ := hhash hd
      refine .inr ⟨data, hcall, hd, hrej, hv, settled_iff.mpr ⟨hst, hash, ?_, hne⟩,
        fun htest => ?_⟩
      · simp [PaymentData.apply, hh]
      · rw [hlive] at htest
        cases htest
    · -- test mode: the mock hash is written with SUCCESS
      have hhash : (data.apply old).stellarTxHash = some hash := by simp [PaymentData.apply, hh]
      exact .inr ⟨data, hcall, hd, hrej, hv, settled_iff.mpr ⟨hst, hash, hhash, hm.ne_empty⟩,
        fun _ => ⟨hash, hhash, hm⟩⟩
  · cases hst

/-- **SUCCESS rows are kept.** -/
theorem success_kept (hg : Custodial cfg v e)
    (hinv : Settling cfg e.before (pre ++ v :: post)) : SuccessKept e.before (e.after api) := by
  intro p hp hst
  rcases payment_fate e hp with hkept | ⟨data, hw, hp'⟩
  · exact ⟨p, hkept, rfl, hst, rfl⟩
  · rcases hg.written hp hw with ⟨hfailed, -⟩ | ⟨hv, -, ⟨hlive, -⟩ | ⟨-, hd, hash, hh, hm⟩⟩
    · rw [hst] at hfailed
      cases hfailed
    · -- no live execution is charging a SUCCESS row
      obtain ⟨htest, -⟩ := hinv.charged v (by simp) p hp hv hst
      rw [hlive] at htest
      cases htest
    · -- in test mode the same hash is recorded again
      obtain ⟨-, old, hold, hm'⟩ := hinv.charged v (by simp) p hp hv hst
      obtain rfl := hm.unique hm'
      exact ⟨data.apply p, hp', rfl, by simp [PaymentData.apply, hd],
        by simp [PaymentData.apply, hh, hold]⟩

/-- **What one call preserves.** -/
theorem settling_after (hg : Custodial cfg v e)
    (hinv : Settling cfg e.before (pre ++ v :: post)) (hallow : Uncontested cfg v (pre ++ post) e) :
    Settling cfg (e.after api) (pre ++ trackCustody v e :: post) := by
  refine ⟨fun p hp hst => ?_, fun u hu p hp hup hst => ?_⟩
  · rcases success_origin_custody hg hinv hp hst with hp | ⟨-, -, -, -, -, hsettled, -⟩
    · exact hinv.settled p hp hst
    · exact hsettled
  · have hstand := standing_after e
    have hmock : (∃ hash, p.stellarTxHash = some hash
          ∧ MockHash cfg e.before p.idempotencyKey hash) →
        ∃ hash, p.stellarTxHash = some hash
          ∧ MockHash cfg (e.after api) p.idempotencyKey hash := by
      intro h
      obtain ⟨hash, hh, hm⟩ := h
      exact ⟨hash, hh, hstand.mock hm⟩
    have hmem : ∀ u, u ∈ pre ++ post → u ∈ pre ++ v :: post := fun _ => mem_others
    -- the execution that was served, or another one
    have hu : u = trackCustody v e ∨ u ∈ pre ++ post := by
      simp only [List.mem_append, List.mem_cons] at hu ⊢
      tauto
    rcases success_origin_custody hg hinv hp hst with
      hp₀ | ⟨data, hcall, hd, hrej, hv, hsettled, htest⟩
    · have hbefore : ∀ u ∈ pre ++ v :: post, u = .holds p.id → cfg.billing.testMode = true
          ∧ ∃ hash, p.stellarTxHash = some hash
            ∧ MockHash cfg (e.after api) p.idempotencyKey hash := by
        intro u hu hup
        obtain ⟨htest, hm⟩ := hinv.charged u hu p hp₀ hup hst
        exact ⟨htest, hmock hm⟩
      rcases hu with rfl | hu
      · rcases holds_of_track hup with hv | ⟨-, hnone⟩
        · exact hbefore v (by simp) hv
        · -- the check does not let a settled row pass
          have hsettled := hinv.settled p hp₀ hst
          rw [payment?_eq_some.mpr ⟨hp₀, rfl⟩] at hnone
          unfold Payment.settled at hsettled
          rw [hnone] at hsettled
          cases hsettled
      · exact hbefore u (hmem u hu) hup
    · cases hmode : cfg.billing.testMode with
      | true => exact ⟨rfl, hmock (htest hmode)⟩
      | false =>
          rcases hu with rfl | hu
          · -- the write has ended the charge
            have htrack : trackCustody v e = .free := by
              obtain ⟨w, c, env⟩ := e
              have hcall : c = .paymentUpdate p.id data := hcall
              subst hcall
              rw [hv]
              unfold trackCustody
              rw [if_neg (by simp)]
              exact if_pos ⟨.inl hd, hrej⟩
            rw [htrack] at hup
            cases hup
          · exact absurd hup (hallow.2 hmode hrej p.id data hcall hd u hu)

end Steps

/-! ## §3. Every interleaving. -/

def finality (cfg : Config) : Discipline (custodies cfg) (Uncontested cfg) where
  inv := Settling cfg
  rely w w' := Standing w w' ∧ SuccessKept w w'
  ended _ := True
  rely_refl w := ⟨.refl w, .refl w⟩
  rely_trans _ _ _ hab hbc := ⟨hab.1.trans hbc.1, hab.2.trans hbc.2⟩
  start w vs op hinv _ := by
    refine ⟨⟨hinv.settled, fun u hu p hp hup hst => ?_⟩, ?_⟩
    · rcases List.mem_append.mp hu with hu | hu
      · exact hinv.charged u hu p hp hup hst
      · -- a new execution charges no row
        rw [List.mem_singleton.mp hu] at hup
        have hup : (if op.bills.isSome then Custody.free else .outsider) = .holds p.id := hup
        split at hup <;> cases hup
    · have hsafe : Safe (custodyContract cfg) ((fun _ => ()) <$> op.body cfg) (fun _ _ _ => True)
          w (custodyOf op) := (operation_custodial cfg op w).map
      refine hsafe.weaken (fun _ _ h => h.1) ?_ ?_ rfl
      · intro v e h
        obtain ⟨-, -, -, hhashed, -⟩ := h
        exact hhashed
      · intro v e h hg
        obtain ⟨pre, post, hinv, -⟩ := h
        exact ⟨⟨standing_after e, success_kept hg hinv⟩,
          fun _ _ hinv hallow => settling_after hg hinv hallow⟩
  leave w pre v post _ hinv := by
    exact ⟨hinv.settled, fun u hu => hinv.charged u (mem_others hu)⟩
  drift w w' vs hd hinv := by
    obtain ⟨q, -, rfl⟩ := hd
    have hstand : Standing w { w with billingQueue := q } := ⟨fun _ _ h => h, fun _ _ h => h⟩
    refine ⟨⟨hinv.settled, fun u hu p hp hup hst => ?_⟩, hstand, .refl w⟩
    obtain ⟨htest, hash, hh, hm⟩ := hinv.charged u hu p hp hup hst
    exact ⟨htest, hash, hh, hstand.mock hm⟩

/-- **SUCCESS is final while it is uncontested**: in every interleaving of any
operations in which a payment row of a live backend is set to SUCCESS only
while no other execution is charging it, a SUCCESS row has the status SUCCESS
and the same hash in every later state. -/
theorem success_final (cfg : Config) (w₀ : World)
    (hsettled : ∀ p ∈ w₀.payments, p.status = .SUCCESS → p.settled)
    (P P' : Pool Api World Custody)
    (h₀ : Pool.Run (custodies cfg) (Uncontested cfg) ⟨w₀, []⟩ P)
    (h : Pool.Run (custodies cfg) (Uncontested cfg) P P') (p : Payment)
    (hp : p ∈ P.world.payments) (hst : p.status = .SUCCESS) :
    ∃ p' ∈ P'.world.payments, p'.id = p.id ∧ p'.status = .SUCCESS
      ∧ p'.stellarTxHash = p.stellarTxHash := by
  have hidle : (finality cfg).Sound ⟨w₀, []⟩ :=
    Discipline.sound_idle ⟨hsettled, fun _ hu => by cases hu⟩
  have hsound := (Discipline.run h₀ hidle).1
  exact (Discipline.run h hsound).2.2 p hp hst

/-! ## §4. Scenarios. -/

section Scenarios

open Shop

/-- Two workers make the check of one row; the first is paid. -/
def firstSucceeds : List (Choice Operation Env) :=
  [.start (.runInline "sub"), .start (.runInline "sub"),
   .act 0 (on 2), .act 1 (on 2), .act 0 (on 2), .act 0 (fresh 2 "pay"), .act 1 (on 2),
   .act 0 (on 2), .act 1 (on 2),
   .act 0 (on 2), .act 0 (answered 2 .account), .act 0 (answered 2 (.simulated none)),
   .act 0 (answered 2 (.accepted "tx" (some .Paid))),
   .act 0 (answered 2 (.polled (.SUCCESS (some (.string "Paid"))) (day 2) [])), .act 0 (on 2)]

/-- Transactions have hashes, as a test. -/
def hashed (e : CallEvent) : Bool :=
  match e.call, e.env.network with
  | .sendTransaction _ _, .accepted hash _ => hash != ""
  | _, _ => true

theorem hashed_sound {e : CallEvent} (h : hashed e = true) : Hashed e := by
  intro key invocation hcall hash applied hn
  unfold hashed at h
  rw [hcall, hn] at h
  simpa using h

/-- The stored statuses of the payments. -/
def statuses (P : Pool Api World Custody) : List PaymentStatus :=
  P.world.payments.rows.map (·.status)

/-- **A second worker takes SUCCESS back**: it writes PROCESSING in the row
that the first one has set to SUCCESS. -/
theorem success_overwritten :
    ¬ ∀ (cfg : Config) (w₀ : World), w₀.payments.rows = [] →
      ∀ P P' : Pool Api World Custody,
        Pool.Run (custodies cfg) (fun _ _ e => Hashed e) ⟨w₀, []⟩ P →
        Pool.Run (custodies cfg) (fun _ _ e => Hashed e) P P' →
        ∀ p ∈ P.world.payments, p.status = .SUCCESS →
          ∃ p' ∈ P'.world.payments, p'.id = p.id ∧ p'.status = .SUCCESS
            ∧ p'.stellarTxHash = p.stellarTxHash := by
  intro hclaim
  have hrun : (Pool.advance (custodies (cfg false)) (fun _ _ e => hashed e) firstSucceeds
      ⟨world plan sub, []⟩).bind (fun P =>
        (Pool.advance (custodies (cfg false)) (fun _ _ e => hashed e) [.act 1 (on 2)] P).map
          (fun P' => (statuses P, statuses P')))
      = some ([.SUCCESS], [.PROCESSING]) := by
    decide +kernel
  obtain ⟨P, hP, hrest⟩ := Option.bind_eq_some_iff.mp hrun
  obtain ⟨P', hP', hst⟩ := Option.map_eq_some_iff.mp hrest
  obtain ⟨h₁, h₂⟩ := Prod.mk.inj hst
  obtain ⟨p, hrows, hp⟩ := List.map_eq_singleton_iff.mp h₁
  obtain ⟨p', hp', -, hst', -⟩ := hclaim (cfg false) (world plan sub) rfl P P'
    (Pool.advance_run (fun _ _ _ => hashed_sound) hP)
    (Pool.advance_run (fun _ _ _ => hashed_sound) hP') p
    (Table.mem_def.mpr (by rw [hrows]; simp)) hp
  have hmem : p'.status ∈ statuses P' := List.mem_map.mpr ⟨p', hp', rfl⟩
  rw [h₂, hst'] at hmem
  simp at hmem

/-- The condition as a test. -/
def uncontested (_ : Custody) (others : List Custody) (e : CallEvent) : Bool :=
  hashed e && match e.call with
    | .paymentUpdate pid data =>
        data.status != some .SUCCESS || others.all (fun u => decide (u ≠ .holds pid))
    | _ => true

theorem uncontested_sound {cfg : Config} {v : Custody} {others : List Custody} {e : CallEvent}
    (h : uncontested v others e = true) : Uncontested cfg v others e := by
  unfold uncontested at h
  obtain ⟨hhash, h⟩ := Bool.and_eq_true_iff.mp h
  refine ⟨hashed_sound hhash, fun _ _ pid data hcall hd u hu => ?_⟩
  rw [hcall] at h
  simp only [hd, bne_self_eq_false, Bool.false_or, List.all_eq_true, decide_eq_true_eq] at h
  exact h u hu

/-- The second worker makes its check after the first is paid. -/
theorem success_final_shop :
    ∃ P P', Pool.Run (custodies (cfg false)) (Uncontested (cfg false)) ⟨world plan sub, []⟩ P
      ∧ Pool.Run (custodies (cfg false)) (Uncontested (cfg false)) P P'
      ∧ ∃ p ∈ P.world.payments, p.status = .SUCCESS
        ∧ ∃ p' ∈ P'.world.payments, p'.id = p.id ∧ p'.status = .SUCCESS
          ∧ p'.stellarTxHash = p.stellarTxHash := by
  have hrun : (Pool.advance (custodies (cfg false)) uncontested
      (firstSucceeds.take 8 ++ firstSucceeds.drop 9) ⟨world plan sub, []⟩).bind (fun P =>
        (Pool.advance (custodies (cfg false)) uncontested
          [.act 1 (on 2), .act 1 (on 2)] P).map (fun _ => statuses P))
      = some [.SUCCESS] := by
    decide +kernel
  obtain ⟨P, hP, hrest⟩ := Option.bind_eq_some_iff.mp hrun
  obtain ⟨P', hP', hst⟩ := Option.map_eq_some_iff.mp hrest
  obtain ⟨p, hrows, hp⟩ := List.map_eq_singleton_iff.mp hst
  have hmem : p ∈ P.world.payments := Table.mem_def.mpr (by rw [hrows]; simp)
  have hsound : ∀ v others e, uncontested v others e = true → Uncontested (cfg false) v others e :=
    fun _ _ _ => uncontested_sound
  have h₁ := Pool.advance_run hsound hP
  have h₂ := Pool.advance_run hsound hP'
  exact ⟨P, P', h₁, h₂, p, hmem, hp, success_final (cfg false) (world plan sub)
    (fun q hq => by cases hq) P P' h₁ h₂ p hmem hp⟩

end Scenarios

end Sorobill
