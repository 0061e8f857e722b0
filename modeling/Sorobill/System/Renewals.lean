/-
  Sorobill.System.Renewals
  ────────────────────────
  **HOW THE PERIODS OF A SUBSCRIPTION FOLLOW ONE ANOTHER**, in every
  interleaving.

    • `Server.Follows`, `Renews` — a period that follows one with a booked
      payment;
    • `Subscription.Turn.renews` — a turn begins no other period, unless a
      request asks for one;
    • `renewals_have_transactions` — **a period that is not begun anew by a request
      follows one for whose payment a transaction was accepted**.
-/
import Sorobill.System.Turns

namespace Sorobill

open Effect
open Relational
open Shop

/-- **The period follows one whose payment was booked**, by the interval of the
plan. -/
def Server.Follows (cfg : Config) (s : Server) (id planId : String) (start finish : Instant) :
    Prop :=
  s.PeriodBooked id start ∧ ∃ plan ∈ s.core.plans, plan.id = planId
    ∧ nextPeriod cfg.tz start plan.interval plan.intervalCount = some finish

/-- **The subscription `id` was renewed**, if its period has changed. -/
structure Renews (cfg : Config) (id : String) (s s' : Server) : Prop where
  grows : s.Grows s'
  row : ∀ x, s.core.sub? id = some x → ∃ x', s'.core.sub? id = some x' ∧ x'.planId = x.planId
    ∧ ((x'.currentPeriodStart = x.currentPeriodStart ∧ x'.currentPeriodEnd = x.currentPeriodEnd)
      ∨ s'.Follows cfg id x.planId x'.currentPeriodStart x'.currentPeriodEnd)

section Renewing

variable {cfg : Config} {d : Epoch} {s s' s'' : Server} {id : String}

theorem Server.Follows.grow {planId : String} {start finish : Instant}
    (h : s.Follows cfg id planId start finish) (hs : s.Grows s') :
    s'.Follows cfg id planId start finish := by
  obtain ⟨hpaid, plan, hplan, hid, hnext⟩ := h
  obtain ⟨_, hplan', ⟨_, _, rfl⟩, -⟩ := hs.plans plan hplan
  exact ⟨hpaid.grow hs, _, hplan', hid, hnext⟩

theorem Renews.of_eq (hs : s.Grows s') (h : s'.core.sub? id = s.core.sub? id) :
    Renews cfg id s s' :=
  ⟨hs, fun x hx => ⟨x, h.trans hx, rfl, .inl ⟨rfl, rfl⟩⟩⟩

theorem Renews.trans (h : Renews cfg id s s') (h' : Renews cfg id s' s'') :
    Renews cfg id s s'' := by
  refine ⟨h.grows.trans _ _ _ h'.grows, fun x hx => ?_⟩
  obtain ⟨x', hx', hplan, hperiod⟩ := h.row x hx
  obtain ⟨x'', hx'', hplan', hperiod'⟩ := h'.row x' hx'
  refine ⟨x'', hx'', hplan'.trans hplan, ?_⟩
  rcases hperiod' with ⟨hstart, hend⟩ | hfollows
  · rw [hstart, hend]
    exact hperiod.imp_right (fun hfollows => hfollows.grow h'.grows)
  · rw [← hplan]
    exact .inr hfollows

/-- **A turn renews the subscription**, if no request begins its period anew. -/
theorem Subscription.Turn.renews {v : Progress} {x : Subscription} {b : Option Subscription}
    (hx : s.core.sub? id = some x) (hmay : v.1 ≠ .billing (.resume id))
    (h : Subscription.Turn cfg s id v (some x) b) :
    ∃ x', b = some x' ∧ x'.planId = x.planId
      ∧ ((x'.currentPeriodStart = x.currentPeriodStart
          ∧ x'.currentPeriodEnd = x.currentPeriodEnd)
        ∨ s.Follows cfg id x.planId x'.currentPeriodStart x'.currentPeriodEnd) := by
  cases h with
  | written data now x hrecord hvalid =>
      refine ⟨data.apply now x, rfl, rfl, ?_⟩
      cases hrecord with
      | renewed sub hbills _ hknows hid hpaid =>
          -- the row that was read is an earlier version of this one
          obtain ⟨y, hy, hb⟩ := hknows.row
          obtain ⟨hmem, hxid⟩ := Table.find?_mem hx
          obtain rfl := subscription_unique hmem hy
            ((beq_iff_eq.mp hxid).trans (hid.symm.trans hb.id.symm))
          obtain ⟨_, hplan, ⟨_, _, rfl⟩, -⟩ := hknows.plan
          have hplanId := hknows.planId.trans hb.planId.symm
          cases hnext : nextPeriod cfg.tz sub.currentPeriodEnd sub.plan.interval
              sub.plan.intervalCount with
          | none =>
              rw [hnext] at hvalid
              cases hvalid
          | some finish => exact .inr ⟨hpaid, _, hplan, hplanId, hnext⟩
      | pastDue | retrying | expired | cancelled | flagged | paused => exact .inl ⟨rfl, rfl⟩
      | resumed => exact absurd rfl hmay

end Renewing

/-- **No period without an accepted transaction.**  Unless a request begins its
period anew, the period of a subscription changes only to one that begins where
a period ended for whose payment the network has accepted a transaction, or in
test mode, and that lasts for one interval of the plan. -/
theorem renewals_have_transactions (d : Deployment) (P P' : Pool ServerApi Server Progress)
    (x : Subscription) (h : ReachedWith d P) (hx : x ∈ P.world.core.subscriptions)
    (hmoves : ServedOnly d (· ≠ .billing (.resume x.id)) P P') :
    ∃ x' ∈ P'.world.core.subscriptions, x'.id = x.id
      ∧ ((x'.currentPeriodStart = x.currentPeriodStart
          ∧ x'.currentPeriodEnd = x.currentPeriodEnd)
        ∨ (∃ p ∈ P'.world.core.payments, p.subscriptionId = x.id
            ∧ p.billingPeriodEnd = x'.currentPeriodStart ∧ p.Transacted d.cfg P'.world)
          ∧ ∃ plan ∈ P'.world.core.plans, plan.id = x.planId
            ∧ nextPeriod d.cfg.tz x'.currentPeriodStart plan.interval plan.intervalCount
              = some x'.currentPeriodEnd) := by
  have hgoverns := governs_progress d (fun v _ _ => v.1 ≠ .billing (.resume x.id))
  have hrenews : Renews d.cfg x.id P.world P'.world := by
    refine Growth.relates hgoverns (fun s => .of_eq (.refl s) rfl) (fun _ _ _ h h' => h.trans h')
      ?_ ?_ h.sound hmoves
    · intro v _ e hmay hvalid hlawful
      have hgrows :=
        ((attributed (mayRecord d.cfg) { d with }).step v e hvalid trivial hlawful).2
      -- each call leaves the row as it is or is one of its turns
      rcases turn_of_call hlawful.2 x.id with heq | hturn
      · exact .of_eq hgrows heq
      · refine ⟨hgrows, fun y hy => ?_⟩
        rw [hy] at hturn
        obtain ⟨y', hy', hplan, hperiod⟩ := hturn.renews hy hmay
        exact ⟨y', hy', hplan, hperiod.imp_right (fun hfollows => hfollows.grow hgrows)⟩
    · intro s s' hdrift hvalid
      exact .of_eq (drift_step (d := { d with }) hdrift).grows
        ((billsNobody_drift hdrift).sub? x.id)
  have hfound : P.world.core.sub? x.id = some x :=
    (Table.find?_eq_some_iff
      (fun a b ha hb => (beq_iff_eq.mp ha).trans (beq_iff_eq.mp hb).symm)).mpr
        ⟨hx, beq_self_eq_true x.id⟩
  obtain ⟨x', hx', -, hperiod⟩ := hrenews.row x hfound
  obtain ⟨hmem, hid⟩ := Table.find?_mem hx'
  refine ⟨x', hmem, beq_iff_eq.mp hid, hperiod.imp_right (fun hfollows => ?_)⟩
  -- the last renewal of the run has a booked payment behind it
  obtain ⟨⟨p, hp, hsub, hend, hbooked⟩, hplan⟩ := hfollows
  have hvalid := (Growth.moves hgoverns hmoves h.sound).1.1
  exact ⟨⟨p, hp, hsub, hend, hvalid.transacted hp hbooked⟩, hplan⟩

namespace Shop

/-- The pool after a list of choices, none of which serves a request to resume. -/
def progressedUnresumed (cs : List (Choice ServerOperation ServerEnv))
    (P : Pool ServerApi Server Progress) : Option (Pool ServerApi Server Progress) :=
  Pool.advance (progressServer (deployment false))
    (fun v _ _ => match v.1 with
      | .billing (.resume _) => false
      | _ => true) cs P

theorem moves_of_progressedUnresumed {x : String} {cs : List (Choice ServerOperation ServerEnv)}
    {P P' : Pool ServerApi Server Progress} (h : progressedUnresumed cs P = some P') :
    ServedOnly (deployment false) (· ≠ .billing (.resume x)) P P' := by
  refine (Pool.advance_run (fun v _ _ hok (hresume : v.1 = _) => ?_) h).moves
  rw [hresume] at hok
  cases hok

end Shop

/-- The renewal of the subscription. -/
theorem renewals_have_transactions_shop :
    ∃ (P P' : Pool ServerApi Server Progress), ReachedWith (deployment false) P
      ∧ (∃ x ∈ P.world.core.subscriptions, x.id = "sub" ∧ x.currentPeriodStart = day 1)
      ∧ ∃ x' ∈ P'.world.core.subscriptions, x'.id = "sub" ∧ x'.currentPeriodStart = day 2
        ∧ ∃ p ∈ P'.world.core.payments, p.billingPeriodEnd = day 2
          ∧ p.Transacted (deployment false).cfg P'.world := by
  have hrun : (progressed opensShop ⟨Server.fresh, []⟩).bind (fun P =>
      (progressedUnresumed (chargesSub ++ booksPayment) P).map (fun P' =>
        (P.world.core.subscriptions.rows.map (fun x => (x.id, x.currentPeriodStart)),
          P'.world.core.subscriptions.rows.map (fun x => (x.id, x.currentPeriodStart)))))
      = some ([("sub", day 1)], [("sub", day 2)]) := by
    decide +kernel
  obtain ⟨P, hP, hrest⟩ := Option.bind_eq_some_iff.mp hrun
  obtain ⟨P', hP', hrows⟩ := Option.map_eq_some_iff.mp hrest
  obtain ⟨hrows, hrows'⟩ := Prod.mk.inj hrows
  have hreached : ReachedWith (deployment false) P := moves_of_progressed hP
  obtain ⟨x, hx, hxrow⟩ := List.mem_map.mp (hrows ▸ List.mem_singleton_self ("sub", day 1))
  obtain ⟨hid, hstart⟩ := Prod.mk.inj hxrow
  obtain ⟨x', hx', hid', hperiod⟩ := renewals_have_transactions (deployment false) P P' x hreached
    hx (moves_of_progressedUnresumed hP')
  -- it is the one row that is left
  have hxrow' : (x'.id, x'.currentPeriodStart) = ("sub", day 2) :=
    List.mem_singleton.mp
      (hrows' ▸ List.mem_map_of_mem (f := fun x => (x.id, x.currentPeriodStart)) hx')
  obtain ⟨hidSub, hstart'⟩ := Prod.mk.inj hxrow'
  refine ⟨P, P', hreached, ⟨x, hx, hid, hstart⟩, x', hx', hidSub, hstart', ?_⟩
  rcases hperiod with ⟨hsame, -⟩ | ⟨⟨p, hp, -, hend, haccepted⟩, -⟩
  · rw [hstart, hstart'] at hsame
    cases hsame
  · exact ⟨p, hp, hend.trans hstart', haccepted⟩

end Sorobill
