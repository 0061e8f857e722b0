/-
  Sorobill.Concurrency.PeriodOrder
  ────────────────────────────────
  **CAN THE BILLING PERIOD MOVE BACKWARDS?**

  `advancePeriod` writes the period that follows the one the cycle has read,
  whatever is stored by then.  A cycle that is delayed while others advance
  the subscription twice takes it back by one period.

    • `trackRead` — the subscription as an execution has read it;
    • `NearlyCurrent` — a period is written only over the period that was
      read, or over the one that follows it;
    • `advances_from_read` — what the executions write;
    • `period_end_monotone` — in every interleaving in which each write of
      the period is nearly current, the stored period end never decreases.
-/
import Sorobill.Model.Shop
import Sorobill.Rules.Periods

namespace Sorobill

open Effect

/-! ## §1. What an execution has read. -/

/-- The subscription `id` as the execution has read it. -/
def trackRead (id : String) (v : Option SubscriptionWithPlan) (e : CallEvent) :
    Option SubscriptionWithPlan :=
  match e.call with
  | .subscriptionFindUniqueWithPlan x =>
      if x = id then (e.before.sub? id).bind e.before.withPlan else v
  | _ => v

/-- The running backend without resume requests of `id`, each execution with
the subscription it has read. -/
def advances (cfg : Config) (id : String) :
    System Api World Env Operation (Option SubscriptionWithPlan) :=
  { concurrent cfg (fun _ => none) (trackRead id) with
    enabled := fun w op => op.Enabled w ∧ op.resumes ≠ some id }

instance (cfg : Config) (id : String) (w : World) (op : Operation) :
    Decidable ((advances cfg id).enabled w op) :=
  inferInstanceAs (Decidable (op.Enabled w ∧ op.resumes ≠ some id))

/-- **The condition on interleavings**: when an execution writes the period,
the stored period is the one it has read, or begins where that one ends. -/
def NearlyCurrent (id : String) : Condition Api World Env (Option SubscriptionWithPlan) :=
  fun v _ e => isRejected e = false → ∀ data, e.call = .subscriptionUpdate id data →
    data.currentPeriodEnd ≠ none → ∀ sub, v = some sub → ∀ s, e.before.sub? id = some s →
      s.currentPeriodEnd = sub.currentPeriodEnd ∨ s.currentPeriodStart = sub.currentPeriodEnd

/-! ## §2. What the executions write. -/

/-- A period is written from what was read. -/
def FromRead (cfg : Config) (id : String) (v : Option SubscriptionWithPlan) (e : CallEvent) :
    Prop :=
  ∀ data, e.call = .subscriptionUpdate id data →
    (data.currentPeriodStart = none ∧ data.currentPeriodEnd = none)
      ∨ ∃ sub, v = some sub ∧ data.currentPeriodStart = some (some sub.currentPeriodEnd)
        ∧ data.currentPeriodEnd = some (sub.nextEnd cfg)

def readContract (cfg : Config) (id : String) : Contract api (Option SubscriptionWithPlan) where
  rely _ _ := True
  assume _ _ := True
  guarantee := FromRead cfg id
  track := trackRead id

section Walk

variable {cfg : Config} {id : String} {w : World} {v : Option SubscriptionWithPlan}

theorem Call.leavesPeriod.fromRead {e : CallEvent} (h : e.call.leavesPeriod id) :
    FromRead cfg id v e := by
  intro data hcall
  rw [hcall] at h
  exact .inl (h rfl)

/-- A cycle that goes on with what it has read. -/
theorem rest_fromRead {sub : SubscriptionWithPlan} (hv : sub.id = id → v = some sub) :
    Safe (readContract cfg id) (processBillingCycle.rest cfg sub) (fun _ _ _ => True) w v := by
  refine Safe.mono (fun _ _ _ _ => trivial) (safe_of_calls (C := readContract cfg id)
    (fun _ => trivial) (fun _ _ _ _ _ => trivial) (fun e he _ => ⟨?_, trivial, ?_⟩)
    (rest_calls sub))
  · -- of the three updates of a cycle only the advance writes a period
    intro data hcall
    rw [hcall] at he
    obtain ⟨hid, hdata⟩ := he
    cases hdata with
    | advance => exact .inr ⟨sub, hv hid.symm, rfl, rfl⟩
    | pastDue => exact .inl ⟨rfl, rfl⟩
    | counted => exact .inl ⟨rfl, rfl⟩
  · -- no further subscription is read
    obtain ⟨w, c, env⟩ := e
    cases c with
    | subscriptionFindUniqueWithPlan x => exact he.elim
    | _ => rfl

/-- **Every operation but a resume request of `id` writes its period from
what it has read.** -/
theorem advances_from_read {op : Operation} (hop : op.resumes ≠ some id) :
    Safe (readContract cfg id) (op.body cfg) (fun _ _ _ => True) w none := by
  cases hb : op.bills with
  | none =>
      exact safe_frame (R := fun _ _ => True) (fun _ _ _ => trivial) (fun _ => trivial)
        (fun _ _ _ _ _ => trivial) (fun _ _ he _ => ⟨he.fromRead, trivial⟩)
        (unbilled_leavesPeriod hb hop)
  | some x =>
      refine safe_billing hb (safe_reading (fun w' env _ _ => ⟨?_, fun sub hopen => ?_⟩))
      · intro data hcall
        cases hcall
      · apply rest_fromRead
        intro hid
        have hx : x = id := hopen.id_eq.symm.trans hid
        show (if x = id then _ else _) = _
        rw [if_pos hx, ← hx]
        exact hopen.found

end Walk

/-! ## §3. The invariant. -/

/-- The stored period of `id` ends no earlier than `first`. -/
def EndsFrom (id : String) (first : Instant) (w : World) : Prop :=
  ∃ s, w.sub? id = some s ∧ first ≤ s.currentPeriodEnd

/-- The stored period end does not decrease. -/
def NotBackwards (id : String) (w w' : World) : Prop :=
  ∀ s, w.sub? id = some s → EndsFrom id s.currentPeriodEnd w'

theorem NotBackwards.refl (id : String) (w : World) : NotBackwards id w w :=
  fun s hs => ⟨s, hs, le_refl _⟩

theorem NotBackwards.trans {id : String} {a b c : World} (hab : NotBackwards id a b)
    (hbc : NotBackwards id b c) : NotBackwards id a c := by
  intro s hs
  obtain ⟨t, ht, hst⟩ := hab s hs
  obtain ⟨u, hu, htu⟩ := hbc t ht
  exact ⟨u, hu, hst.trans htu⟩

/-- **The invariant**: the stored period is the first one or the period of the
plan that begins at its start, and what an execution has read ends no earlier
than the first period. -/
structure Ordered (cfg : Config) (id : String) (plan : Plan) (first : Instant) (w : World)
    (vs : List (Option SubscriptionWithPlan)) : Prop where
  planned : w.plans.find? (·.id == plan.id) = some plan
  current : ∃ s, w.sub? id = some s ∧ s.planId = plan.id ∧ first ≤ s.currentPeriodEnd
    ∧ (s.currentPeriodEnd = first ∨ plan.next cfg s.currentPeriodStart = some s.currentPeriodEnd)
  readings : ∀ v ∈ vs, ∀ sub, v = some sub → sub.plan = plan ∧ first ≤ sub.currentPeriodEnd

section Order

variable {cfg : Config} {id : String} {plan : Plan} {first : Instant} {w : World}
  {v : Option SubscriptionWithPlan} {vs : List (Option SubscriptionWithPlan)}

/-- A subscription that is read is the stored one. -/
theorem Ordered.read (h : Ordered cfg id plan first w vs) {sub : SubscriptionWithPlan}
    (hfound : (w.sub? id).bind w.withPlan = some sub) :
    sub.plan = plan ∧ first ≤ sub.currentPeriodEnd := by
  obtain ⟨s, hs, hplanId, hfirst, -⟩ := h.current
  obtain ⟨hrow, -⟩ := withPlan_eq_some hfound
  have hsame : s = sub.toSubscription := Option.some.inj (hs.symm.trans hrow)
  subst hsame
  refine ⟨?_, hfirst⟩
  have hplan := plan_of_withPlan hfound
  rw [hplanId] at hplan
  exact Option.some.inj (hplan.symm.trans h.planned)

/-- **The period after the one that was read** ends no earlier than the stored
one, if the stored period is the one that was read or the one after it. -/
theorem nextEnd_not_before {sub : SubscriptionWithPlan} {s : Subscription} {newEnd : Instant}
    (hcount : 1 ≤ plan.intervalCount) (hplan : sub.plan = plan)
    (hnext : sub.nextEnd cfg = some newEnd) (hfirst : first ≤ sub.currentPeriodEnd)
    (hs : s.currentPeriodEnd = first ∨ plan.next cfg s.currentPeriodStart = some s.currentPeriodEnd)
    (hnear : s.currentPeriodEnd = sub.currentPeriodEnd
      ∨ s.currentPeriodStart = sub.currentPeriodEnd) :
    s.currentPeriodEnd ≤ newEnd ∧ plan.next cfg sub.currentPeriodEnd = some newEnd := by
  have hnext : plan.next cfg sub.currentPeriodEnd = some newEnd := by
    rw [← hplan]
    exact hnext
  have hlt : sub.currentPeriodEnd < newEnd := Plan.next_progressive hcount cfg _ _ hnext
  refine ⟨?_, hnext⟩
  rcases hnear with hend | hstart
  · -- the snapshot is current
    rw [hend]
    exact hlt.le
  · rcases hs with hs | hs
    · -- the first period is still stored
      rw [hs]
      exact hfirst.trans hlt.le
    · -- another execution has advanced once: the same period is written again
      rw [hstart, hnext] at hs
      exact (Option.some.inj hs).ge

/-- **What one call does to the stored period.** -/
theorem current_after {e : CallEvent} {others : List (Option SubscriptionWithPlan)}
    (hcount : 1 ≤ plan.intervalCount) (hfrom : FromRead cfg id v e)
    (hread : ∀ sub, v = some sub → sub.plan = plan ∧ first ≤ sub.currentPeriodEnd)
    (hnear : NearlyCurrent id v others e) {s : Subscription} (hs : e.before.sub? id = some s)
    (hperiod : s.currentPeriodEnd = first
      ∨ plan.next cfg s.currentPeriodStart = some s.currentPeriodEnd) :
    ∃ s', (e.after api).sub? id = some s' ∧ s'.planId = s.planId
      ∧ s.currentPeriodEnd ≤ s'.currentPeriodEnd
      ∧ (s'.currentPeriodEnd = first
        ∨ plan.next cfg s'.currentPeriodStart = some s'.currentPeriodEnd) := by
  by_cases hrejected : isRejected e = true
  · rw [after_of_isRejected hrejected]
    exact ⟨s, hs, rfl, le_refl _, hperiod⟩
  rcases sub?_after e hs with hafter | ⟨data, hcall, hvalid, hafter⟩
  · exact ⟨s, hafter, rfl, le_refl _, hperiod⟩
  · refine ⟨_, hafter, rfl, ?_⟩
    unfold SubscriptionData.apply
    rcases hfrom data hcall with ⟨hstart, hend⟩ | ⟨sub, hv, hstart, hend⟩
    · rw [hstart, hend]
      exact ⟨le_refl _, hperiod⟩
    · cases hnext : sub.nextEnd cfg with
      | none =>
          -- an Invalid Date is refused
          rw [hnext] at hend
          simp [SubscriptionData.valid, hend, validDate?] at hvalid
      | some newEnd =>
          rw [hnext] at hend
          obtain ⟨hplan, hfirst⟩ := hread sub hv
          have hnear := hnear (Bool.eq_false_of_not_eq_true hrejected) data hcall
            (by rw [hend]; simp) sub hv s hs
          rw [hstart, hend]
          obtain ⟨hle, hnext⟩ := nextEnd_not_before hcount hplan hnext hfirst hperiod hnear
          exact ⟨hle, .inr hnext⟩

/-- **What one call preserves.** -/
theorem ordered_after {e : CallEvent} {pre post : List (Option SubscriptionWithPlan)}
    (hcount : 1 ≤ plan.intervalCount) (hfrom : FromRead cfg id v e)
    (h : Ordered cfg id plan first e.before (pre ++ v :: post))
    (hnear : NearlyCurrent id v (pre ++ post) e) :
    NotBackwards id e.before (e.after api)
      ∧ Ordered cfg id plan first (e.after api) (pre ++ trackRead id v e :: post) := by
  obtain ⟨s, hs, hplanId, hfirst, hperiod⟩ := h.current
  obtain ⟨s', hs', hplan', hle, hperiod'⟩ :=
    current_after hcount hfrom (h.readings v (by simp)) hnear hs hperiod
  refine ⟨fun t ht => ?_, ?_, ⟨s', hs', hplan'.trans hplanId, hfirst.trans hle, hperiod'⟩,
    fun u hu sub hsub => ?_⟩
  · obtain rfl : s = t := Option.some.inj (hs.symm.trans ht)
    exact ⟨s', hs', hle⟩
  · show (api.serve e.call e.env e.before).2.plans.find? _ = _
    rw [(serve_changed e.call e.env e.before).plans_eq]
    exact h.planned
  · -- what is read now is the stored subscription, the rest was read before
    have hold : ∀ u ∈ pre ++ v :: post, u = some sub → sub.plan = plan
        ∧ first ≤ sub.currentPeriodEnd := fun u hu => h.readings u hu sub
    rcases List.mem_append.mp hu with hu | hu
    · exact hold u (List.mem_append_left _ hu) hsub
    · rcases List.mem_cons.mp hu with rfl | hu
      · unfold trackRead at hsub
        split at hsub
        · split at hsub
          · exact h.read hsub
          · exact hold v (by simp) hsub
        · exact hold v (by simp) hsub
      · exact hold u (List.mem_append_right _ (List.mem_cons_of_mem _ hu)) hsub

def periodOrder (cfg : Config) (id : String) (plan : Plan) (first : Instant)
    (hcount : 1 ≤ plan.intervalCount) : Discipline (advances cfg id) (NearlyCurrent id) where
  inv := Ordered cfg id plan first
  rely := NotBackwards id
  ended _ := True
  rely_refl := NotBackwards.refl id
  rely_trans _ _ _ := NotBackwards.trans
  start w vs op hinv hen := by
    refine ⟨⟨hinv.planned, hinv.current, fun v hv sub hsub => ?_⟩, ?_⟩
    · rcases List.mem_append.mp hv with hv | hv
      · exact hinv.readings v hv sub hsub
      · -- a new execution has read nothing
        rw [List.mem_singleton.mp hv] at hsub
        cases hsub
    · have hsafe : Safe (readContract cfg id) ((fun _ => ()) <$> op.body cfg)
          (fun _ _ _ => True) w none := (advances_from_read hen.2).map
      refine hsafe.weaken (fun _ _ _ => trivial) (fun _ _ _ => trivial) ?_ rfl
      intro v e h hfrom
      obtain ⟨pre, post, hord, hnear⟩ := h
      exact ⟨(ordered_after hcount hfrom hord hnear).1,
        fun _ _ hord hnear => (ordered_after hcount hfrom hord hnear).2⟩
  leave w pre v post _ hinv := by
    exact ⟨hinv.planned, hinv.current, fun u hu => hinv.readings u (mem_others hu)⟩
  drift w w' vs hd hinv := by
    obtain ⟨q, -, rfl⟩ := hd
    exact ⟨⟨hinv.planned, hinv.current, hinv.readings⟩, NotBackwards.refl id w⟩

/-- **The billing period never moves backwards under nearly current
snapshots**: in every interleaving of any operations but resume requests of
the subscription in which each write of its period finds the period that its
execution has read, or the one after it, the stored period end of any state is
no later than that of any later state. -/
theorem period_end_monotone (cfg : Config) (id : String) (w₀ : World) (s₀ : Subscription)
    (plan : Plan) (hsub : w₀.sub? id = some s₀)
    (hplan : w₀.plans.find? (·.id == s₀.planId) = some plan) (hcount : 1 ≤ plan.intervalCount)
    (P P' : Pool Api World (Option SubscriptionWithPlan))
    (h₀ : Pool.Run (advances cfg id) (NearlyCurrent id) ⟨w₀, []⟩ P)
    (h : Pool.Run (advances cfg id) (NearlyCurrent id) P P') :
    ∃ s s', P.world.sub? id = some s ∧ P'.world.sub? id = some s'
      ∧ s.currentPeriodEnd ≤ s'.currentPeriodEnd := by
  have hid : plan.id = s₀.planId := find_plan_id hplan
  have hidle : (periodOrder cfg id plan s₀.currentPeriodEnd hcount).Sound ⟨w₀, []⟩ := by
    refine Discipline.sound_idle ⟨by rw [hid]; exact hplan, ?_, fun v hv => by cases hv⟩
    exact ⟨s₀, hsub, hid.symm, le_refl _, .inl rfl⟩
  have hsound := (Discipline.run h₀ hidle).1
  obtain ⟨s, hs, -⟩ := hsound.1.current
  obtain ⟨s', hs', hle⟩ := (Discipline.run h hsound).2 s hs
  exact ⟨s, s', hs, hs', hle⟩

end Order

/-! ## §4. Scenarios. -/

section Scenarios

open Shop

/-- A worker reads the first period; two others bill the first and the second
period. -/
def twoAdvances : List (Choice Operation Env) :=
  [.start (.runInline "sub"), .act 0 (on 2),
   .start (.runInline "sub"), .act 1 (on 2), .act 1 (on 2), .act 1 (fresh 2 "pay"),
   .act 1 (on 2), .act 1 (on 2), .act 1 (on 2), .act 1 (on 2),
   .start (.runInline "sub"), .act 1 (on 3), .act 1 (on 3), .act 1 (fresh 3 "pay2"),
   .act 1 (on 3), .act 1 (on 3), .act 1 (on 3)]

/-- The first worker finds its period paid and advances it. -/
def lateAdvance : List (Choice Operation Env) :=
  [.act 0 (on 3), .act 0 (on 3)]

/-- **A delayed worker takes the period back**: the subscription is advanced
to the period that ends on day 4, and then to the one that ends on day 3. -/
theorem period_end_decreases :
    ¬ ∀ (cfg : Config) (id : String) (w₀ : World) (s₀ : Subscription) (plan : Plan),
      w₀.sub? id = some s₀ → w₀.plans.find? (·.id == s₀.planId) = some plan →
      1 ≤ plan.intervalCount →
      ∀ P P' : Pool Api World (Option SubscriptionWithPlan),
        Pool.Run (advances cfg id) (fun _ _ _ => True) ⟨w₀, []⟩ P →
        Pool.Run (advances cfg id) (fun _ _ _ => True) P P' →
        ∃ s s', P.world.sub? id = some s ∧ P'.world.sub? id = some s'
          ∧ s.currentPeriodEnd ≤ s'.currentPeriodEnd := by
  intro hclaim
  have hrun : (Pool.advance (advances (cfg true) "sub") (fun _ _ _ => true) twoAdvances
      ⟨world plan sub, []⟩).bind (fun P =>
        (Pool.advance (advances (cfg true) "sub") (fun _ _ _ => true) lateAdvance P).map
          (fun P' => ((P.world.sub? "sub").map (·.currentPeriodEnd),
            (P'.world.sub? "sub").map (·.currentPeriodEnd))))
      = some (some (day 4), some (day 3)) := by
    decide +kernel
  obtain ⟨P, hP, hrest⟩ := Option.bind_eq_some_iff.mp hrun
  obtain ⟨P', hP', hends⟩ := Option.map_eq_some_iff.mp hrest
  obtain ⟨h₁, h₂⟩ := Prod.mk.inj hends
  obtain ⟨s, s', hs, hs', hle⟩ := hclaim (cfg true) "sub" (world plan sub) sub plan rfl rfl
    (by decide) P P' (Pool.advance_run (fun _ _ _ _ => trivial) hP)
    (Pool.advance_run (fun _ _ _ _ => trivial) hP')
  rw [hs] at h₁
  rw [hs'] at h₂
  have hfour : s.currentPeriodEnd = day 4 := Option.some.inj h₁
  have hthree : s'.currentPeriodEnd = day 3 := Option.some.inj h₂
  rw [hfour, hthree, day_le] at hle
  omega

/-- The condition as a test. -/
def nearlyCurrent (id : String) (v : Option SubscriptionWithPlan)
    (_ : List (Option SubscriptionWithPlan)) (e : CallEvent) : Bool :=
  match e.call with
  | .subscriptionUpdate x data =>
      x != id || data.currentPeriodEnd.isNone
        || v.all (fun sub => (e.before.sub? id).all (fun s =>
            s.currentPeriodEnd == sub.currentPeriodEnd
              || s.currentPeriodStart == sub.currentPeriodEnd))
  | _ => true

theorem nearlyCurrent_sound {id : String} {v : Option SubscriptionWithPlan}
    {others : List (Option SubscriptionWithPlan)} {e : CallEvent}
    (h : nearlyCurrent id v others e = true) : NearlyCurrent id v others e := by
  intro _ data hcall hend sub hv s hs
  unfold nearlyCurrent at h
  rw [hcall, hv, hs] at h
  cases hd : data.currentPeriodEnd with
  | none => exact absurd hd hend
  | some d => simpa [hd] using h

/-- One worker is late by one advance: it writes the same period again. -/
theorem period_end_monotone_shop :
    ∃ P P', Pool.Run (advances (cfg true) "sub") (NearlyCurrent "sub") ⟨world plan sub, []⟩ P
      ∧ Pool.Run (advances (cfg true) "sub") (NearlyCurrent "sub") P P'
      ∧ ∃ s s', P.world.sub? "sub" = some s ∧ P'.world.sub? "sub" = some s'
        ∧ s.currentPeriodEnd ≤ s'.currentPeriodEnd := by
  have hrun : ((Pool.advance (advances (cfg true) "sub") (nearlyCurrent "sub")
      (twoAdvances.take 10) ⟨world plan sub, []⟩).bind (fun P =>
        Pool.advance (advances (cfg true) "sub") (nearlyCurrent "sub") lateAdvance P)).isSome
      = true := by
    decide +kernel
  obtain ⟨P', hrun⟩ := Option.isSome_iff_exists.mp hrun
  obtain ⟨P, hP, hP'⟩ := Option.bind_eq_some_iff.mp hrun
  have h₁ := Pool.advance_run (fun _ _ _ => nearlyCurrent_sound) hP
  have h₂ := Pool.advance_run (fun _ _ _ => nearlyCurrent_sound) hP'
  exact ⟨P, P', h₁, h₂, period_end_monotone (cfg true) "sub" (world plan sub) sub plan rfl rfl
    (by decide) P P' h₁ h₂⟩

end Scenarios

end Sorobill
