/-
  Sorobill.Concurrency.Announcing
  ───────────────────────────────
  **IS A BILLING EVENT EVER LOST?**

  A cycle charges, advances the period and then emits PAYMENT_SUCCESS; a
  sweep cancels and then emits SUBSCRIPTION_CANCELLED.  When a call in
  between is rejected nothing makes up for the event: the next cycle finds
  the period paid and only advances it, the next sweep finds no PAST_DUE row.

    • `Accounted` — what has come about is told, or some execution owes it;
    • `no_event_lost` — nothing is lost in every interleaving in which no
      execution is rejected while it owes the event.
-/
import Sorobill.Library.Interruption
import Sorobill.Model.Shop
import Sorobill.Rules.Announcements
import Sorobill.Rules.Sweeps

namespace Sorobill

open Effect
open Relational

/-! ## §1. The invariant. -/

/-- The running backend, each execution with whether it owes the event. -/
def announcers (cfg : Config) (a : Announcement) : System Api World Env Operation Bool :=
  concurrent cfg (fun _ => false) (trackOwed a)

instance (cfg : Config) (a : Announcement) (w : World) (op : Operation) :
    Decidable ((announcers cfg a).enabled w op) :=
  inferInstanceAs (Decidable (op.Enabled w))

/-- **The condition on interleavings**: no execution is rejected while it owes
the event. -/
def OwersAnswered : Condition Api World Env Bool := fun v _ e => AnsweredWhileOwing v e

/-- **The invariant**: the event is heard of; and what was not so in `w₀` and
is so now is told, or an execution owes it. -/
structure Accounted (a : Announcement) (w₀ w : World) (vs : List Bool) : Prop where
  hears : w.hears a.type
  told : ¬ a.HoldsIn w₀ → a.HoldsIn w → a.ToldIn w ∨ true ∈ vs

/-- **What one call preserves.** -/
theorem accounted_after {a : Announcement} {w₀ : World} {pre post : List Bool} {v : Bool}
    {e : CallEvent} (he : e.call.isSeen) (h : Accounted a w₀ e.before (pre ++ v :: post)) :
    Accounted a w₀ (e.after api) (pre ++ trackOwed a v e :: post) := by
  refine ⟨hears_after h.hears, fun hnew hholds => ?_⟩
  by_cases hbefore : a.HoldsIn e.before
  · rcases h.told hnew hbefore with htold | howed
    · exact .inl (told_after htold)
    · rcases List.mem_append.mp howed with hpre | hmem
      · exact .inr (List.mem_append_left _ hpre)
      · rcases List.mem_cons.mp hmem with hv | hpost
        · -- the execution itself owes the event, or has just told it
          rw [← hv]
          exact owed_after.symm.imp_right (fun howed => by rw [howed]; simp)
        · exact .inr (List.mem_append_right _ (List.mem_cons_of_mem _ hpost))
  · right
    rw [owed_of_new he hbefore hholds]
    simp

def announcement (cfg : Config) (a : Announcement) (w₀ : World) :
    Discipline (announcers cfg a) OwersAnswered where
  inv := Accounted a w₀
  rely _ _ := True
  ended v := v = false
  rely_refl _ := trivial
  rely_trans _ _ _ _ _ := trivial
  start w vs op hinv _ := by
    refine ⟨⟨hinv.hears, fun hnew hholds => ?_⟩, ?_⟩
    · exact (hinv.told hnew hholds).imp_right (List.mem_append_left _)
    · have hsafe : Safe (announcing a) ((fun _ => ()) <$> op.body cfg)
          (fun _ _ v => v = false) w false := (operation_announces cfg op w).map
      refine hsafe.weaken (fun _ _ _ => trivial) ?_ ?_ rfl
      · intro v e h
        obtain ⟨pre, post, hinv, hanswered⟩ := h
        exact ⟨hinv.hears, hanswered⟩
      · exact fun v e _ hseen => ⟨trivial, fun _ _ hinv _ => accounted_after hseen hinv⟩
  leave w pre v post hv hinv := by
    refine ⟨hinv.hears, fun hnew hholds => (hinv.told hnew hholds).imp_right (fun howed => ?_)⟩
    rw [hv] at howed
    simpa using howed
  drift w w' vs hd hinv := by
    obtain ⟨q, -, rfl⟩ := hd
    exact ⟨⟨hinv.hears, by cases a <;> exact hinv.told⟩, trivial⟩

/-! ## §2. Every interleaving. -/

/-- What has come about since `w₀` is told, or an execution in flight owes
it. -/
theorem told_or_owed {cfg : Config} {a : Announcement} {w₀ : World} (hears : w₀.hears a.type)
    {P : Pool Api World Bool} (h : Pool.Run (announcers cfg a) OwersAnswered ⟨w₀, []⟩ P)
    (hnew : ¬ a.HoldsIn w₀) (hholds : a.HoldsIn P.world) :
    a.ToldIn P.world ∨ ∃ t ∈ P.threads, t.view = true := by
  have hidle : (announcement cfg a w₀).Sound ⟨w₀, []⟩ :=
    Discipline.sound_idle ⟨hears, fun hnew hholds => absurd hholds hnew⟩
  have hinv := (Discipline.run h hidle).1.1
  refine (hinv.told hnew hholds).imp_right (fun howed => ?_)
  exact List.mem_map.mp howed

/-- **No event is lost** in any interleaving of any operations, with an active
endpoint for its type, in which no execution is rejected between the write
that makes the payment SUCCESS, or the subscription CANCELLED, and the
creation of the event: what has come about is told as soon as no execution in
flight owes it. -/
theorem no_event_lost (cfg : Config) (a : Announcement) (w₀ : World) (hears : w₀.hears a.type)
    (P : Pool Api World Bool) (h : Pool.Run (announcers cfg a) OwersAnswered ⟨w₀, []⟩ P)
    (hnew : ¬ a.HoldsIn w₀) (hholds : a.HoldsIn P.world)
    (hidle : ∀ t ∈ P.threads, t.view = false) : a.ToldIn P.world := by
  rcases told_or_owed hears h hnew hholds with htold | howed
  · exact htold
  · obtain ⟨t, ht, hview⟩ := howed
    rw [hidle t ht] at hview
    cases hview

/-- The same of operations that are executed one after the other. -/
theorem no_event_lost_in_sequence (cfg : Config) (a : Announcement) (w₀ w : World)
    (xs : List Step) (hears : w₀.hears a.type)
    (h : History (serial cfg)
      (fun _ x => Alone OwersAnswered (trackOwed a) false x.trace) w₀ xs w)
    (hnew : ¬ a.HoldsIn w₀) (hholds : a.HoldsIn w) : a.ToldIn w := by
  have hrun : Pool.Run (announcers cfg a) OwersAnswered ⟨w₀, []⟩ ⟨w, []⟩ :=
    h.interleaved (fun _ _ halone => halone)
  rcases told_or_owed hears hrun hnew hholds with htold | ⟨t, ht, -⟩
  · exact htold
  · cases ht

/-! ## §3. Scenarios. -/

section Scenarios

open Shop

/-- The period of the payment is over: a later one is current. -/
def Announcement.PassedIn : Announcement → World → Prop
  | .paid pid, w => ∃ p ∈ w.payments, p.id = pid ∧ ∃ s, w.sub? p.subscriptionId = some s
      ∧ p.billingPeriodEnd ≤ s.currentPeriodStart
  | .cancelled _, _ => True

/-- The execution has returned, and none of its calls was rejected. -/
def WithoutError (x : Step) : Prop :=
  (∃ reply, x.reply = .ok reply) ∧ ∀ e ∈ x.trace, isRejected e = false

/-- `WithoutError` as a test. -/
def withoutError (x : Step) : Bool := x.reply.isOk && x.trace.all (fun e => !isRejected e)

theorem withoutError_sound {x : Step} (h : withoutError x = true) : WithoutError x := by
  obtain ⟨hreply, htrace⟩ := Bool.and_eq_true_iff.mp h
  constructor
  · cases hr : x.reply with
    | ok reply => exact ⟨reply, rfl⟩
    | error err =>
        rw [hr] at hreply
        cases hreply
  · intro e he
    simpa using List.all_eq_true.mp htrace e he

/-- Every cycle and sweep of the first list is executed again in the second. -/
def Repeated (past again : List Step) : Prop :=
  ∀ x ∈ past, ∃ y ∈ again, y.op.bills = x.op.bills ∧ y.op.sweeps = x.op.sweeps

/-- `Repeated` as a test. -/
def repeated (past again : List Step) : Bool :=
  past.all (fun x => again.any (fun y =>
    y.op.bills == x.op.bills && y.op.sweeps == x.op.sweeps))

theorem repeated_sound {past again : List Step} (h : repeated past again = true) :
    Repeated past again := by
  intro x hx
  obtain ⟨y, hy, heq⟩ := List.any_eq_true.mp (List.all_eq_true.mp h x hx)
  exact ⟨y, hy, by simpa using heq⟩

/-- An endpoint for everything that is announced. -/
def endpoint : WebhookEndpoint :=
  { id := "endpoint"
    url := "https://merchant.example/hook"
    secret := "whsec_0123456789"
    events := [.PAYMENT_SUCCESS, .SUBSCRIPTION_CANCELLED] }

/-- The subscription is due, and the endpoint is registered. -/
def listening : World :=
  { world plan sub with hooks := { endpoints := ⟨[endpoint], List.pairwise_singleton _ _⟩ } }

theorem listening_hears (a : Announcement) : listening.hears a.type := by
  refine ⟨endpoint, List.mem_singleton_self _, rfl, ?_⟩
  cases a <;> simp [endpoint, Announcement.type]

/-- The payment is SUCCESS, its period is over, and there is no event. -/
def lost (w : World) : Bool :=
  (w.payment? "pay").any (fun p => p.status == .SUCCESS
      && (w.sub? p.subscriptionId).any (fun s =>
        decide (p.billingPeriodEnd ≤ s.currentPeriodStart)))
    && w.hooks.events.rows.isEmpty

theorem lost_sound {w : World} (h : lost w = true) :
    (Announcement.paid "pay").HoldsIn w ∧ (Announcement.paid "pay").PassedIn w
      ∧ ¬ (Announcement.paid "pay").ToldIn w := by
  obtain ⟨hpaid, hevents⟩ := Bool.and_eq_true_iff.mp h
  obtain ⟨p, hp, h⟩ := (Option.any_eq_true _ _).mp hpaid
  obtain ⟨hst, hsub⟩ := Bool.and_eq_true_iff.mp h
  obtain ⟨s, hs, hpassed⟩ := (Option.any_eq_true _ _).mp hsub
  obtain ⟨hmem, hid⟩ := payment?_eq_some.mp hp
  refine ⟨⟨p, hmem, hid, beq_iff_eq.mp hst⟩, ⟨p, hmem, hid, s, hs, of_decide_eq_true hpassed⟩, ?_⟩
  rintro ⟨event, hevent, -⟩
  exact Table.not_mem_of_nil (List.isEmpty_iff.mp hevents) event hevent

/-- The charge succeeds, and the write that advances the period is rejected;
then the cycle is repeated. -/
def advanceRejected : List (Operation × List Env) :=
  [(.runInline "sub", [on 2, on 2, fresh 2 "pay", on 2, on 2, rejected 2, on 2, on 2, on 2]),
   (.runInline "sub", [on 2, on 2, on 2])]

/-- **The repeated cycle advances the paid period and tells nothing.** -/
theorem event_lost :
    ¬ ∀ (cfg : Config) (a : Announcement) (w₀ w : World) (past again : List Step),
      w₀.hears a.type → Clocked (past ++ again) →
      History (serial cfg) (fun _ x => x.op.bills.isSome ∨ x.op.sweeps = true) w₀
        (past ++ again) w →
      -- in the end every cycle and sweep is repeated without an error
      (∀ x ∈ again, WithoutError x) → Repeated past again →
      ¬ a.HoldsIn w₀ → a.HoldsIn w → a.PassedIn w → a.ToldIn w := by
  intro hclaim
  have hrun : ((serial (cfg true)).play (fun _ x => x.op.bills.isSome || x.op.sweeps)
      advanceRejected [] listening).map (fun r =>
        (decide (Clocked r.1), (r.1.drop 1).all withoutError, repeated (r.1.take 1) (r.1.drop 1),
          lost r.2)) = some (true, true, true, true) := by
    decide +kernel
  obtain ⟨⟨xs, w⟩, hplay, hres⟩ := Option.map_eq_some_iff.mp hrun
  simp only [Prod.mk.injEq] at hres
  obtain ⟨hclock, hwithout, hrepeated, hlost⟩ := hres
  have hhistory : History (serial (cfg true))
      (fun _ x => x.op.bills.isSome ∨ x.op.sweeps = true) listening xs w :=
    Serial.play_history (fun _ _ h => by simpa using h) .start hplay
  obtain ⟨hholds, hpassed, hsilent⟩ := lost_sound hlost
  rw [← List.take_append_drop 1 xs] at hhistory hclock
  refine hsilent (hclaim (cfg true) (.paid "pay") listening w _ _ (listening_hears _)
    (of_decide_eq_true hclock) hhistory
    (fun x hx => withoutError_sound (List.all_eq_true.mp hwithout x hx))
    (repeated_sound hrepeated) ?_ hholds hpassed)
  rintro ⟨p, hp, -⟩
  cases hp

/-- `Alone` as a test. -/
def aloneTold (a : Announcement) : Bool → List CallEvent → Bool
  | _, [] => true
  | v, e :: t => (!v || !isRejected e) && aloneTold a (trackOwed a v e) t

theorem aloneTold_sound {a : Announcement} {t : List CallEvent} :
    ∀ {v : Bool}, aloneTold a v t = true → Alone OwersAnswered (trackOwed a) v t := by
  induction t with
  | nil => exact fun _ => trivial
  | cons e t ih =>
      intro v h
      obtain ⟨he, ht⟩ := Bool.and_eq_true_iff.mp h
      refine ⟨fun hv => ?_, ih ht⟩
      simpa [hv] using he

/-- The first cycle cannot store its payment; the second one pays and tells. -/
def createRejected : List (Operation × List Env) :=
  [(.runInline "sub", [on 2, on 2, rejected 2]),
   (.runInline "sub", [on 2, on 2, fresh 2 "pay", on 2, on 2, on 2, on 2, fresh 2 "event",
     fresh 2 "delivery", on 2])]

theorem no_event_lost_shop :
    ∃ P, Pool.Run (announcers (cfg true) (.paid "pay")) OwersAnswered ⟨listening, []⟩ P
      ∧ (Announcement.paid "pay").HoldsIn P.world ∧ (Announcement.paid "pay").ToldIn P.world := by
  have hrun : ((serial (cfg true)).play (fun _ x => aloneTold (.paid "pay") false x.trace)
      createRejected [] listening).map (fun r =>
        (r.2.payment? "pay").any (fun p => p.status == .SUCCESS)) = some true := by
    decide +kernel
  obtain ⟨⟨xs, w⟩, hplay, hpaid⟩ := Option.map_eq_some_iff.mp hrun
  have hhistory : History (serial (cfg true)) (fun _ x =>
      Alone OwersAnswered (trackOwed (.paid "pay")) false x.trace) listening xs w :=
    Serial.play_history (fun _ _ => aloneTold_sound) .start hplay
  have h : Pool.Run (announcers (cfg true) (.paid "pay")) OwersAnswered ⟨listening, []⟩ ⟨w, []⟩ :=
    hhistory.interleaved (fun _ _ halone => halone)
  obtain ⟨p, hp, hst⟩ := (Option.any_eq_true _ _).mp hpaid
  obtain ⟨hmem, hid⟩ := payment?_eq_some.mp hp
  have hholds : (Announcement.paid "pay").HoldsIn w := ⟨p, hmem, hid, beq_iff_eq.mp hst⟩
  refine ⟨⟨w, []⟩, h, hholds, no_event_lost (cfg true) (.paid "pay") listening (listening_hears _)
    ⟨w, []⟩ h ?_ hholds (fun t ht => by cases ht)⟩
  rintro ⟨q, hq, -⟩
  cases hq

end Scenarios

end Sorobill
