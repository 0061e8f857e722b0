/-
  Sorobill.Indexing.Polling
  ─────────────────────────
  **POLLING FROM THE LEDGER THAT THE LAST POLL RETURNED.**

  A poll returns the greatest ledger of its page, and the next one starts at
  that ledger again, so that the events of it which did not fit on the page
  are read.

    • `PagesTheLog` — what is assumed of `getEvents`;
    • `Resumes` — a successful poll that goes on where the last one ended;
    • `polling_skips_nothing` — every event below the returned ledger was
      passed to `ingestChainEvent`.
-/
import Sorobill.Library.Feed
import Sorobill.Model.Shop
import Sorobill.Rules.Polls

namespace Sorobill.Indexer

open Effect
open JavaScript (JsValue)

/-! ## §1. Statements. -/

def SorobanEvent.ledgerNumber (ev : SorobanEvent) : Int := ev.ledger.getD 0

/-- **What is assumed of `getEvents`**: the first `limit` events of the log
from the start on. -/
def PagesTheLog (x : Poll) : Prop :=
  ∀ e ∈ x.trace, ∀ start ids limit events, e.call = .getEvents start ids limit →
    eventsOf e = some events →
    events = Feed.page SorobanEvent.ledgerNumber limit start e.before.log

/-- Where the next poll starts: at `s₀`, or at the ledger that the last poll
has returned. -/
def resumeAt (s₀ : Int) (xs : List Poll) : Option Int :=
  match xs.getLast? with
  | none => some s₀
  | some x => x.reply.toOption.bind (·.latestLedger)

/-- The poll goes on where the last one ended, and is successful. -/
structure Resumes (s₀ : Int) (past : List Poll) (x : Poll) : Prop where
  start : x.op = resumeAt s₀ past
  pages : PagesTheLog x
  successful : ∃ r, x.reply = .ok r ∧ r.polled = true

/-- The event has a hash, and its first topic decodes to a string other than
`"unknown"`. -/
structure SorobanEvent.Decoded (ev : SorobanEvent) : Prop where
  txHash : ∃ hash, ev.txHash = some hash ∧ hash ≠ ""
  type : ∃ s, topicSymbol ((ev.topic.getD []).headD .undefined) = .string s ∧ s ≠ "unknown"

/-- One of the polls has passed the event to `ingestChainEvent`. -/
def PassedBy (cfg : Config) (js : Builtins) (xs : List Poll) (ev : SorobanEvent) : Prop :=
  ∃ x ∈ xs, ∃ input, pollSorobanEvents.input? cfg js ev = some input ∧ PassedIn js x.trace input

/-! ## §2. One poll. -/

section Steps

variable {cfg : Config} {js : Builtins} {s₀ : Int} {past : List Poll} {x : Poll}

/-- The loop does not skip the event. -/
theorem SorobanEvent.Decoded.input? {ev : SorobanEvent} (h : ev.Decoded) (cfg : Config)
    (js : Builtins) : ∃ input, pollSorobanEvents.input? cfg js ev = some input := by
  obtain ⟨⟨hash, hhash, hne⟩, s, hs, hunknown⟩ := h
  have htype : ((JsValue.string s).nullish (.string "unknown")).isString "unknown" = false :=
    beq_eq_false_iff_ne.mpr hunknown
  unfold pollSorobanEvents.input?
  dsimp only
  rw [hs, htype, Bool.and_false, hhash]
  exact ⟨_, if_neg hne⟩

theorem latestLedger_eq_cursor (fromLedger : Int) (events : List SorobanEvent) :
    pollSorobanEvents.latestLedger fromLedger events
      = Feed.cursor SorobanEvent.ledgerNumber fromLedger events := by
  cases events with
  | nil => rfl
  | cons ev events => rfl

theorem resumeAt_append {r : PollResult} (h : x.reply = .ok r) :
    resumeAt s₀ (past ++ [x]) = r.latestLedger := by
  unfold resumeAt
  rw [List.getLast?_concat]
  show x.reply.toOption.bind (·.latestLedger) = r.latestLedger
  rw [h]
  rfl

/-- **What holds between polls.** -/
structure Caught (cfg : Config) (js : Builtins) (s₀ : Int) (xs : List Poll) (w : World) (c : Int) :
    Prop where
  resume : resumeAt s₀ xs = some c
  reading : Feed.Reading SorobanEvent.ledgerNumber s₀ c
    (fun ev => ev.Decoded → PassedBy cfg js xs ev) w.log

/-- **A successful poll has read the page** of the log from its start on. -/
theorem poll_page (hx : x.Of (indexer cfg js)) (hpages : PagesTheLog x) {s : Int} {r : PollResult}
    (hstart : x.op = some s) (hr : x.reply = .ok r) (hpolled : r.polled = true) :
    Polled cfg js x.op x.before x.trace r x.after s
      (Feed.page SorobanEvent.ledgerNumber 100 s x.before.log) := by
  have hruns : Runs api (pollSorobanEvents cfg js x.op) x.before x.trace x.reply x.after := hx.runs
  rw [hr] at hruns
  rcases poll_runs hruns with ⟨hidle, -⟩ | ⟨fromLedger, events, hpage⟩
  · rw [hpolled] at hidle
    cases hidle
  obtain rfl : fromLedger = s := hpage.start s hstart
  obtain ⟨e, he, hcall, hbefore, hevents⟩ := hpage.asked
  obtain rfl := hpages e he _ _ _ _ hcall hevents
  rwa [hbefore] at hpage

/-- **A poll reads one page more.** -/
theorem poll_caught (hx : x.Of (indexer cfg js)) (hresumes : Resumes s₀ past x) {c : Int}
    (h : Caught cfg js s₀ past x.before c) : ∃ c', Caught cfg js s₀ (past ++ [x]) x.after c' := by
  obtain ⟨r, hr, hpolled⟩ := hresumes.successful
  have hpage := poll_page hx hresumes.pages (hresumes.start.trans h.resume) hr hpolled
  refine ⟨_, (resumeAt_append hr).trans hpage.latest, ?_⟩
  rw [latestLedger_eq_cursor, hpage.log]
  refine (h.reading.mono (fun ev hseen hdecoded => ?_)).page (fun ev hev hdecoded => ?_)
  · -- passed by an earlier poll
    obtain ⟨y, hy, hpassed⟩ := hseen hdecoded
    exact ⟨y, List.mem_append_left _ hy, hpassed⟩
  · -- on this page, and not skipped by the loop
    obtain ⟨input, hinput⟩ := hdecoded.input? cfg js
    exact ⟨x, List.mem_append_right _ (List.mem_singleton_self x), input, hinput,
      hpage.passed input (List.mem_filterMap.mpr ⟨ev, hev, hinput⟩)⟩

end Steps

/-! ## §3. Histories. -/

/-- **Going on from the returned ledger skips nothing**: in every history of
successful polls, the first from `s₀` and each other from the ledger that the
one before it has returned, and for every growing log, every decoded event
from `s₀` to below the last returned ledger was passed to
`ingestChainEvent`. -/
theorem polling_skips_nothing (cfg : Config) (js : Builtins) (s₀ : Int) (w₀ w : World)
    (xs : List Poll) (hlog : InLedgerOrder w₀.log)
    (h : History (indexer cfg js) (Resumes s₀) w₀ xs w) :
    ∀ latest, resumeAt s₀ xs = some latest → ∀ ev ∈ w.log, ∀ ledger, ev.ledger = some ledger →
      s₀ ≤ ledger → ledger < latest → ev.Decoded → PassedBy cfg js xs ev := by
  intro latest hlatest ev hev ledger hledger hle hlt hdecoded
  have hcaught : ∃ c, Caught cfg js s₀ xs w c := by
    refine h.invariant (J := fun xs w => ∃ c, Caught cfg js s₀ xs w c) ?_ ?_ ?_
    · exact ⟨s₀, rfl, .begin hlog.2⟩
    · intro past x hJ hx hresumes
      obtain ⟨c, hc⟩ := hJ
      exact poll_caught hx hresumes hc
    · -- the log grows, at the cursor's ledger or later
      intro past w₁ w₂ hJ hdrift
      obtain ⟨c, hc⟩ := hJ
      obtain ⟨new, hnew, horder⟩ := hdrift
      refine ⟨c, hc.resume, ?_⟩
      rw [hnew] at horder ⊢
      exact hc.reading.grow horder.2
  obtain ⟨c, hc⟩ := hcaught
  obtain rfl : c = latest := Option.some.inj (hc.resume.symm.trans hlatest)
  have hnumber : ev.ledgerNumber = ledger := by
    rw [SorobanEvent.ledgerNumber, hledger, Option.getD_some]
  exact hc.reading.seen ev hev (hnumber ▸ hle) (hnumber ▸ hlt) hdecoded

/-! ## §4. A scenario. -/

section Scenarios

open Shop

def paid (hash : String) (ledger : Int) : SorobanEvent := event "payment_executed" hash ledger

/-- Two events, then two more, the first of them on the ledger that the first
poll has returned. -/
def early : List SorobanEvent := [paid "a1" 5, paid "b2" 7]

def late : List SorobanEvent := [paid "c3" 7, paid "d4" 9]

def firstPage : List Env :=
  [{ events := some early }, { freshId := "row1" }, { freshId := "row2" }]

def secondPage : List Env :=
  [{ events := some (paid "b2" 7 :: late) }, {}, { freshId := "row3" }, { freshId := "row4" }]

/-- A poll from `start` whose only request was answered with its page of the
log, and which returned `latest`. -/
structure Reads (start latest : Int) (x : Poll) : Prop where
  op_eq : x.op = some start
  page : ∃ ids limit env rest, x.trace = ⟨x.before, .getEvents start ids limit, env⟩ :: rest
    ∧ rest.all (fun e => (eventsOf e).isNone) = true
    ∧ eventsOf ⟨x.before, .getEvents start ids limit, env⟩
        = some (Feed.page SorobanEvent.ledgerNumber limit start x.before.log)
  reply : ∃ r, x.reply = .ok r ∧ r.polled = true ∧ r.latestLedger = some latest

theorem Reads.resumes {s₀ start latest : Int} {past : List Poll} {x : Poll}
    (h : Reads start latest x) (hstart : resumeAt s₀ past = some start) : Resumes s₀ past x := by
  obtain ⟨ids, limit, env, rest, htrace, hrest, hpage⟩ := h.page
  obtain ⟨r, hr, hpolled, -⟩ := h.reply
  refine ⟨h.op_eq.trans hstart.symm, fun e he start' ids' limit' events hcall hevents => ?_,
    r, hr, hpolled⟩
  rw [htrace] at he
  rcases List.mem_cons.mp he with rfl | he
  · cases hcall
    exact (Option.some.inj (hpage.symm.trans hevents)).symm
  · rw [Option.isNone_iff_eq_none.mp (List.all_eq_true.mp hrest e he)] at hevents
    cases hevents

theorem Reads.resumeAt {s₀ start latest : Int} {past : List Poll} {x : Poll}
    (h : Reads start latest x) : resumeAt s₀ (past ++ [x]) = some latest := by
  obtain ⟨r, hr, -, hlatest⟩ := h.reply
  exact (resumeAt_append hr).trans hlatest

/-- The event that came after the first poll, on the ledger where that ended,
is passed by the second. -/
theorem polling_skips_nothing_shop :
    ∃ xs w, History (indexer (cfg false) ascii) (Resumes 5) { log := early } xs w
      ∧ resumeAt 5 xs = some 9 ∧ PassedBy (cfg false) ascii xs (paid "c3" 7) := by
  obtain ⟨x, y, hx, hxreads, hxlog, hy, hyreads, hylog⟩ : ∃ x y,
      (indexer (cfg false) ascii).execute (some 5) firstPage { log := early } = some x
        ∧ Reads 5 7 x ∧ x.after.log = early
        ∧ (indexer (cfg false) ascii).execute (some 7) secondPage
            { x.after with log := early ++ late } = some y
        ∧ Reads 7 9 y ∧ y.after.log = early ++ late :=
    ⟨_, _, rfl, ⟨rfl, ⟨_, _, _, _, rfl, rfl, rfl⟩, _, rfl, rfl, rfl⟩, rfl, rfl,
      ⟨rfl, ⟨_, _, _, _, rfl, rfl, rfl⟩, _, rfl, rfl, rfl⟩, rfl⟩
  obtain ⟨hxbefore, hxof⟩ := Serial.execute_of hx
  obtain ⟨hybefore, hyof⟩ := Serial.execute_of hy
  have hgrown : InLedgerOrder (early ++ late) := ⟨by decide, by decide⟩
  have hfirst : History (indexer (cfg false) ascii) (Resumes 5) { log := early } [x] x.after := by
    have hstart : History (indexer (cfg false) ascii) (Resumes 5) { log := early } [] x.before := by
      rw [hxbefore]
      exact .start
    exact hstart.execute x hxof (hxreads.resumes rfl)
  have hboth : History (indexer (cfg false) ascii) (Resumes 5) { log := early } [x, y] y.after := by
    have hnext : History (indexer (cfg false) ascii) (Resumes 5) { log := early } [x] y.before := by
      rw [hybefore]
      exact .drift hfirst ⟨late, by rw [hxlog], hgrown⟩
    have hresume : resumeAt 5 ([] ++ [x]) = some 7 := hxreads.resumeAt
    exact hnext.execute y hyof (hyreads.resumes hresume)
  have hlatest : resumeAt 5 ([x] ++ [y]) = some 9 := hyreads.resumeAt
  have hmem : paid "c3" 7 ∈ y.after.log := by
    rw [hylog]
    exact List.mem_append_right _ List.mem_cons_self
  exact ⟨[x, y], y.after, hboth, hlatest, polling_skips_nothing (cfg false) ascii 5
    { log := early } y.after [x, y] ⟨by decide, by decide⟩ hboth 9 hlatest (paid "c3" 7) hmem 7 rfl
    (by decide) (by decide) ⟨⟨"c3", rfl, by decide⟩, "payment_executed", rfl, by decide⟩⟩

end Scenarios

end Sorobill.Indexer
