/-
  Sorobill.Indexing.Progress
  ──────────────────────────
  **WHETHER POLLING GOES FORWARD.**

  The ledger to go on from is a number, and a page has at most 100 events.  A
  ledger with 100 events or more fills the page of a poll from it, which then
  returns the ledger that it was given.

    • `poll_next` — what a successful poll returns;
    • `polling_progresses_iff` — a poll goes forward, and polling reaches the
      end of the log, exactly when no ledger on the way fills a page;
    • `a_full_ledger` — a poll that returns where it began.
-/
import Sorobill.Indexing.Polling

namespace Sorobill.Indexer

open Effect
open JavaScript (JsValue)

/-! ## §1. Statements. -/

/-- The poll goes on where the last one ended, on a log that does not grow. -/
structure ResumesOn (log : List SorobanEvent) (s₀ : Int) (past : List Poll) (x : Poll) : Prop where
  resumes : Resumes s₀ past x
  log_eq : x.before.log = log

/-- The ledger has fewer events than a page. -/
def FitsPage (log : List SorobanEvent) (ledger : Int) : Prop :=
  Feed.count SorobanEvent.ledgerNumber ledger log < 100

/-- There are events after the ledger. -/
def HasMore (log : List SorobanEvent) (ledger : Int) : Prop :=
  ∃ ev ∈ log, ledger < ev.ledgerNumber

/-! ## §2. Polls. -/

section Steps

variable {cfg : Config} {js : Builtins} {x : Poll}

/-- **What a successful poll returns.** -/
theorem poll_next (hx : x.Of (indexer cfg js)) (hpages : PagesTheLog x) {s : Int} {r : PollResult}
    (hstart : x.op = some s) (hr : x.reply = .ok r) (hpolled : r.polled = true) :
    r.latestLedger = some (Feed.next SorobanEvent.ledgerNumber 100 x.before.log s) := by
  have hpage := poll_page hx hpages hstart hr hpolled
  rw [hpage.latest, latestLedger_eq_cursor]
  rfl

/-- After `n` polls. -/
theorem resumeAt_eq_iterate {log : List SorobanEvent} {s₀ : Int} {w₀ w : World} {xs : List Poll}
    (h : History (indexer cfg js) (ResumesOn log s₀) w₀ xs w) :
    resumeAt s₀ xs = some ((Feed.next SorobanEvent.ledgerNumber 100 log)^[xs.length] s₀) := by
  refine h.invariant (J := fun xs _ => resumeAt s₀ xs
    = some ((Feed.next SorobanEvent.ledgerNumber 100 log)^[xs.length] s₀)) rfl ?_ ?_
  · intro past x hJ hx hresumes
    obtain ⟨r, hr, hpolled⟩ := hresumes.resumes.successful
    have hnext := poll_next hx hresumes.resumes.pages (hresumes.resumes.start.trans hJ) hr hpolled
    rw [resumeAt_append hr, hnext, hresumes.log_eq, List.length_append, List.length_singleton,
      Function.iterate_succ_apply']
  · intro past w₁ w₂ hJ _
    exact hJ

end Steps

/-! ## §3. Progress. -/

/-- **Polling makes progress if and only if no ledger on the way fills a
page**: a successful poll from a ledger with events after it returns a greater
one exactly when that ledger has fewer than 100 events; and as many polls as
the log has events, each from the ledger that the last has returned, reach the
end of the log exactly when every ledger from the first start on, with events
after it, has fewer than 100. -/
theorem polling_progresses_iff (cfg : Config) (js : Builtins) (log : List SorobanEvent)
    (hlog : InLedgerOrder log) :
    (∀ (x : Poll) (s : Int) (r : PollResult), x.Of (indexer cfg js) → x.before.log = log →
        PagesTheLog x → x.op = some s → x.reply = .ok r → r.polled = true → HasMore log s →
        ((∃ latest, r.latestLedger = some latest ∧ s < latest) ↔ FitsPage log s))
      ∧ ∀ (s₀ : Int) (w₀ w : World) (xs : List Poll),
        History (indexer cfg js) (ResumesOn log s₀) w₀ xs w → log.length ≤ xs.length →
        ∃ latest, resumeAt s₀ xs = some latest
          ∧ (¬ HasMore log latest ↔ ∀ s, s₀ ≤ s → HasMore log s → FitsPage log s) := by
  have hinOrder : Feed.InOrder SorobanEvent.ledgerNumber log := hlog.2
  constructor
  · intro x s r hx hbefore hpages hstart hr hpolled hmore
    -- the ledger a poll returns is the cursor after its page
    have hnext := poll_next hx hpages hstart hr hpolled
    rw [hbefore] at hnext
    unfold FitsPage
    rw [← Feed.lt_cursor_iff hinOrder hmore, hnext]
    constructor
    · intro h
      obtain ⟨latest, hlatest, hlt⟩ := h
      cases hlatest
      exact hlt
    · intro hlt
      exact ⟨_, rfl, hlt⟩
  · intro s₀ w₀ w xs h hlength
    -- a whole run iterates the cursor, which reaches the end or stands still
    refine ⟨_, resumeAt_eq_iterate h, ?_⟩
    have hends : (∀ ev ∈ log, ev.ledgerNumber
          ≤ (Feed.next SorobanEvent.ledgerNumber 100 log)^[xs.length] s₀)
        ↔ ∀ s, s₀ ≤ s → HasMore log s → FitsPage log s :=
      Feed.reaches_end_iff hinOrder hlength
    refine Iff.trans ?_ hends
    unfold HasMore
    push Not
    rfl

/-! ## §4. Scenarios. -/

section Scenarios

open Shop

/-- A transaction with 100 events on ledger 7, and one event on ledger 9. -/
def fullLedger : List SorobanEvent :=
  List.replicate 100 (paid "a1" 7) ++ [paid "b2" 9]

/-- **A ledger with 100 events is never left**: a poll from ledger 7 returns
ledger 7. -/
theorem a_full_ledger :
    ¬ ∀ (cfg : Config) (js : Builtins) (log : List SorobanEvent) (x : Poll) (s : Int)
      (r : PollResult), InLedgerOrder log → x.Of (indexer cfg js) → x.before.log = log →
      PagesTheLog x → x.op = some s → x.reply = .ok r → r.polled = true → HasMore log s →
      ∃ latest, r.latestLedger = some latest ∧ s < latest := by
  intro hclaim
  have hvalid : ∀ input ∈ inputs (cfg false) ascii (List.replicate 100 (paid "a1" 7)), ∃ type,
      validType input.type input.ledger = some type := by
    intro input hinput
    obtain ⟨ev, hev, hsome⟩ := List.mem_filterMap.mp hinput
    rw [List.eq_of_mem_replicate hev] at hsome
    cases hsome
    exact ⟨"payment_executed", rfl⟩
  obtain ⟨t, m, w', hall⟩ := ingestAll_answered ascii hvalid 0 { log := fullLedger }
  have hfrom : Runs api (pollSorobanEvents.fromLedger (some 7)) { log := fullLedger } []
      (.ok (some 7)) { log := fullLedger } := .done
  have hrun := poll_answered (by rfl) (by rfl) _ hfrom hall
  have hpage : Feed.page SorobanEvent.ledgerNumber 100 7 fullLedger
      = List.replicate 100 (paid "a1" 7) := by
    unfold Feed.page
    rw [List.filter_eq_self.mpr (by decide +kernel)]
    exact List.take_left' List.length_replicate
  obtain ⟨latest, hlatest, hlt⟩ := hclaim (cfg false) ascii fullLedger
    ⟨some 7, { log := fullLedger }, _, _, w'⟩ 7 _
    ⟨by decide +kernel, by decide +kernel⟩ ⟨trivial, hrun⟩ rfl
    (by
      intro e he start ids limit events hcall hevents
      rcases List.mem_cons.mp he with rfl | he
      · cases hcall
        exact (Option.some.inj hevents).symm.trans hpage.symm
      · obtain ⟨input, -, hupsert⟩ := ingestAll_upserts hall e he
        rw [hupsert] at hcall
        cases hcall)
    rfl rfl rfl ⟨paid "b2" 9, by simp [fullLedger], by decide⟩
  rw [← Option.some.inj hlatest] at hlt
  exact absurd hlt (by decide +kernel)

/-- Two events on two ledgers: the second poll is at the end of the log. -/
theorem polling_progresses_iff_shop :
    ∃ xs w latest, History (indexer (cfg false) ascii) (ResumesOn early 5) { log := early } xs w
      ∧ resumeAt 5 xs = some latest ∧ ¬ HasMore early latest := by
  obtain ⟨x, y, hx, hxreads, hxlog, hy, hyreads, hylog⟩ : ∃ x y,
      (indexer (cfg false) ascii).execute (some 5) firstPage { log := early } = some x
        ∧ Reads 5 7 x ∧ x.before.log = early
        ∧ (indexer (cfg false) ascii).execute (some 7) [{ events := some [paid "b2" 7] }, {}]
            x.after = some y
        ∧ Reads 7 7 y ∧ y.before.log = early :=
    ⟨_, _, rfl, ⟨rfl, ⟨_, _, _, _, rfl, rfl, rfl⟩, _, rfl, rfl, rfl⟩, rfl, rfl,
      ⟨rfl, ⟨_, _, _, _, rfl, rfl, rfl⟩, _, rfl, rfl, rfl⟩, rfl⟩
  obtain ⟨hxbefore, hxof⟩ := Serial.execute_of hx
  obtain ⟨hybefore, hyof⟩ := Serial.execute_of hy
  have hnone : History (indexer (cfg false) ascii) (ResumesOn early 5) { log := early } []
      x.before := by
    rw [hxbefore]
    exact .start
  have hfirst : History (indexer (cfg false) ascii) (ResumesOn early 5) { log := early } [x]
      y.before := by
    rw [hybefore]
    exact hnone.execute x hxof ⟨hxreads.resumes rfl, hxlog⟩
  have hresumed : resumeAt 5 ([] ++ [x]) = some 7 := hxreads.resumeAt
  have hboth : History (indexer (cfg false) ascii) (ResumesOn early 5) { log := early } [x, y]
      y.after :=
    hfirst.execute y hyof ⟨hyreads.resumes hresumed, hylog⟩
  obtain ⟨latest, hlatest, hend⟩ := (polling_progresses_iff (cfg false) ascii early
    ⟨by decide, by decide⟩).2 5 _ _ [x, y] hboth (le_refl 2)
  refine ⟨[x, y], y.after, latest, hboth, hlatest, hend.mpr (fun s _ _ => ?_)⟩
  exact lt_of_le_of_lt List.countP_le_length (by decide)

end Scenarios

end Sorobill.Indexer
