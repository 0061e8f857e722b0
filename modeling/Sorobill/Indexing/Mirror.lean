/-
  Sorobill.Indexing.Mirror
  ────────────────────────
  **WHICH EVENTS OF A PAGE ARE IN THE TABLE.**

  The table has one row for a transaction hash.  A page is mirrored without
  loss, and counted correctly, exactly when no two of the events that are
  ingested share a hash and all are of known types.

    • `Mirrors` — a row holds an event;
    • `LosesNone` — every listed event has its row, and the count is right;
    • `Separate` — the condition on the page;
    • `loses_none_iff` — for every page, table and poll;
    • `two_events_of_one_transaction` — the second event replaces the first.
-/
import Mathlib.Data.Set.Card
import Sorobill.Model.Shop
import Sorobill.Rules.Polls

namespace Sorobill.Indexer

open Effect
open Relational
open JavaScript (JsValue)

/-! ## §1. Statements. -/

section Statements

variable (cfg : Config) (js : Builtins)

/-- The event has a hash and a known first topic. -/
structure SorobanEvent.Listed (ev : SorobanEvent) : Prop where
  txHash : ∃ hash, ev.txHash = some hash ∧ hash ≠ ""
  type : isKnownChainEventType (topicSymbol ((ev.topic.getD []).headD .undefined)) = true

/-- **The row holds the event**: its normalised hash, its type, its payload. -/
def Mirrors (ev : SorobanEvent) (row : ChainEvent) : Prop :=
  ∃ input, pollSorobanEvents.input? cfg js ev = some input
    ∧ row.txHash = normalizeTxHash js input.txHash ∧ JsValue.string row.type = input.type
    ∧ row.payload = input.payload

/-- **No event is lost**: every listed event of the page has its row, and the
result counts the rows that hold these events. -/
structure LosesNone (events : List SorobanEvent) (r : PollResult) (w : World) : Prop where
  kept : ∀ ev ∈ events, ev.Listed → ∃ row ∈ w.chainEvents, Mirrors cfg js ev row
  counted : r.ingested
    = {row | row ∈ w.chainEvents ∧ ∃ ev ∈ events, ev.Listed ∧ Mirrors cfg js ev row}.ncard

/-- The events of the page that are ingested are of known types, and no two
of them have the same normalised hash. -/
structure Separate (events : List SorobanEvent) : Prop where
  known : ∀ input ∈ inputs cfg js events, isKnownChainEventType input.type = true
  apart : ((inputs cfg js events).map (fun input => normalizeTxHash js input.txHash)).Nodup

end Statements

/-! ## §2. Inputs. -/

section Inputs

variable {cfg : Config} {js : Builtins}

/-- Of the events that are ingested, those of known types are the listed ones. -/
theorem listed_iff {ev : SorobanEvent} {input : IngestEventInput}
    (h : pollSorobanEvents.input? cfg js ev = some input) :
    ev.Listed ↔ isKnownChainEventType input.type = true := by
  obtain ⟨htype, hhash, hne, -⟩ := input?_eq_some h
  rw [htype, known_nullish]
  exact ⟨fun hlisted => hlisted.type, fun hknown => ⟨⟨_, hhash, hne⟩, hknown⟩⟩

/-- A listed event is ingested. -/
theorem SorobanEvent.Listed.input? {ev : SorobanEvent} (h : ev.Listed) (cfg : Config)
    (js : Builtins) : ∃ input, pollSorobanEvents.input? cfg js ev = some input := by
  obtain ⟨⟨hash, hhash, hne⟩, hknown⟩ := h
  unfold pollSorobanEvents.input?
  dsimp only
  rw [known_nullish, hknown, if_neg (by simp), hhash]
  exact ⟨_, if_neg hne⟩

theorem mirrors_iff {ev : SorobanEvent} {input : IngestEventInput} {row : ChainEvent}
    (h : pollSorobanEvents.input? cfg js ev = some input) :
    Mirrors cfg js ev row ↔ Stores js input row := by
  obtain ⟨-, -, -, props, hprops⟩ := input?_eq_some h
  -- the payload of the poller is an object, so neither `??` replaces it
  have hpayload : (ingestChainEvent.args js input).create.payload = input.payload := by
    show (asInputJson input.payload).nullish (.object []) = input.payload
    rw [hprops]
    rfl
  constructor
  · intro hrow
    obtain ⟨input', hinput, hhash, htype, hpay⟩ := hrow
    obtain rfl : input = input' := Option.some.inj (h.symm.trans hinput)
    exact ⟨hhash, htype, hpay.trans hpayload.symm⟩
  · intro hrow
    exact ⟨input, h, hrow.txHash, hrow.type, hrow.payload.trans hpayload⟩

end Inputs

/-! ## §3. Rows. -/

section Rows

variable {cfg : Config} {js : Builtins} {w w' : World}

/-- With distinct hashes, every input has its row. -/
theorem stored_of_nodup {is : List IngestEventInput} (hrows : RowsFrom js is w w')
    (hapart : (is.map (fun input => normalizeTxHash js input.txHash)).Nodup)
    {input : IngestEventInput} (hinput : input ∈ is) :
    ∃ row ∈ w'.chainEvents, Stores js input row := by
  rcases hrows (normalizeTxHash js input.txHash) with ⟨i, hi, hhash, row, hrow, hstores⟩ |
    ⟨hnone, -⟩
  · obtain rfl : i = input := List.inj_on_of_nodup_map hapart hi hinput hhash
    exact ⟨row, (event?_eq_some.mp hrow).1, hstores⟩
  · exact absurd rfl (hnone input hinput)

/-- When every known input has its row, there are as many of these rows as
there are hashes. -/
theorem ncard_rows {is : List IngestEventInput}
    (hkept : ∀ input ∈ is, isKnownChainEventType input.type = true →
      ∃ row ∈ w.chainEvents, Stores js input row) :
    {row | row ∈ w.chainEvents
        ∧ ∃ input ∈ is, isKnownChainEventType input.type = true ∧ Stores js input row}.ncard
      = ((is.filter (fun input => isKnownChainEventType input.type)).map
          (fun input => normalizeTxHash js input.txHash)).toFinset.card := by
  rw [← Set.ncard_coe_finset]
  refine Set.ncard_congr (fun row _ => row.txHash) ?_ ?_ ?_
  · intro row hrow
    obtain ⟨-, input, hinput, hknown, hstores⟩ := hrow
    rw [Finset.mem_coe, List.mem_toFinset, hstores.txHash]
    exact List.mem_map_of_mem (List.mem_filter.mpr ⟨hinput, hknown⟩)
  · -- the hash is unique
    intro a b ha hb heq
    exact Table.eq_of_clash ha.1 hb.1 (.inr heq)
  · intro hash hhash
    rw [Finset.mem_coe, List.mem_toFinset] at hhash
    obtain ⟨input, hinput, rfl⟩ := List.mem_map.mp hhash
    obtain ⟨hinput, hknown⟩ := List.mem_filter.mp hinput
    obtain ⟨row, hrow, hstores⟩ := hkept input hinput hknown
    exact ⟨row, ⟨hrow, input, hinput, hknown, hstores⟩, hstores.txHash⟩

/-- As many values as elements: nothing was dropped and nothing is repeated. -/
theorem card_eq_length_iff {α β : Type} [DecidableEq β] {p : α → Bool} {f : α → β} {l : List α} :
    ((l.filter p).map f).toFinset.card = l.length ↔ (∀ a ∈ l, p a = true) ∧ (l.map f).Nodup := by
  constructor
  · intro h
    have hcard := List.toFinset_card_le ((l.filter p).map f)
    have hlength := List.length_filter_le p l
    rw [List.length_map] at hcard
    -- neither the filter nor the set of values may be smaller than the list
    have hall : ∀ a ∈ l, p a = true := List.length_filter_eq_length_iff.mp (by omega)
    refine ⟨hall, ?_⟩
    rw [List.filter_eq_self.mpr hall] at h
    rw [← List.length_map (f := f)] at h
    exact Multiset.coe_nodup.mp (Multiset.toFinset_card_eq_card_iff_nodup.mp h)
  · intro h
    obtain ⟨hall, hnodup⟩ := h
    rw [List.filter_eq_self.mpr hall, List.toFinset_card_of_nodup hnodup, List.length_map]

/-- The listed events have their rows when the known inputs have. -/
theorem kept_iff {events : List SorobanEvent} :
    (∀ ev ∈ events, ev.Listed → ∃ row ∈ w.chainEvents, Mirrors cfg js ev row)
      ↔ ∀ input ∈ inputs cfg js events, isKnownChainEventType input.type = true →
          ∃ row ∈ w.chainEvents, Stores js input row := by
  constructor
  · intro h input hinput hknown
    obtain ⟨ev, hev, hsome⟩ := List.mem_filterMap.mp hinput
    obtain ⟨row, hrow, hmirrors⟩ := h ev hev ((listed_iff hsome).mpr hknown)
    exact ⟨row, hrow, (mirrors_iff hsome).mp hmirrors⟩
  · intro h ev hev hlisted
    obtain ⟨input, hsome⟩ := hlisted.input? cfg js
    obtain ⟨row, hrow, hstores⟩ := h input (List.mem_filterMap.mpr ⟨ev, hev, hsome⟩)
      ((listed_iff hsome).mp hlisted)
    exact ⟨row, hrow, (mirrors_iff hsome).mpr hstores⟩

/-- The rows of the listed events are those of the known inputs. -/
theorem rows_eq (events : List SorobanEvent) :
    {row | row ∈ w.chainEvents ∧ ∃ ev ∈ events, ev.Listed ∧ Mirrors cfg js ev row}
      = {row | row ∈ w.chainEvents ∧ ∃ input ∈ inputs cfg js events,
          isKnownChainEventType input.type = true ∧ Stores js input row} := by
  ext row
  refine and_congr_right (fun _ => ?_)
  constructor
  · intro hrow
    obtain ⟨ev, hev, hlisted, hmirrors⟩ := hrow
    obtain ⟨input, hsome⟩ := hlisted.input? cfg js
    exact ⟨input, List.mem_filterMap.mpr ⟨ev, hev, hsome⟩, (listed_iff hsome).mp hlisted,
      (mirrors_iff hsome).mp hmirrors⟩
  · intro hrow
    obtain ⟨input, hinput, hknown, hstores⟩ := hrow
    obtain ⟨ev, hev, hsome⟩ := List.mem_filterMap.mp hinput
    exact ⟨ev, hev, (listed_iff hsome).mpr hknown, (mirrors_iff hsome).mpr hstores⟩

/-- **What a poll leaves of its page.** -/
theorem losesNone_iff_separate {start : Option Int} {t : List CallEvent} {r : PollResult}
    {fromLedger : Int} {events : List SorobanEvent}
    (h : Polled cfg js start w t r w' fromLedger events) :
    LosesNone cfg js events r w' ↔ Separate cfg js events := by
  constructor
  · intro hlose
    have hcount := hlose.counted
    rw [rows_eq, ncard_rows (kept_iff.mp hlose.kept), h.ingested] at hcount
    obtain ⟨hknown, hapart⟩ := card_eq_length_iff.mp hcount.symm
    exact ⟨hknown, hapart⟩
  · intro hsep
    have hstored : ∀ ev ∈ events, ev.Listed → ∃ row ∈ w'.chainEvents, Mirrors cfg js ev row :=
      kept_iff.mpr (fun input hinput _ => stored_of_nodup h.rows hsep.apart hinput)
    refine ⟨hstored, ?_⟩
    rw [rows_eq, ncard_rows (kept_iff.mp hstored), h.ingested]
    exact (card_eq_length_iff.mpr ⟨hsep.known, hsep.apart⟩).symm

end Rows

/-! ## §4. Polls. -/

/-- **No event is lost if and only if the page is separate**: for every list
of events that `getEvents` returns, every table before the poll, and every
poll that completes. -/
theorem loses_none_iff (cfg : Config) (js : Builtins) (startLedger : Option Int) (w w' : World)
    (t : List CallEvent) (r : PollResult) (events : List SorobanEvent)
    (h : Runs api (pollSorobanEvents cfg js startLedger) w t (.ok r) w')
    (hreturned : returned t = some events) :
    LosesNone cfg js events r w' ↔ Separate cfg js events := by
  rcases poll_runs h with ⟨-, hnone⟩ | ⟨fromLedger, page, hpolled⟩
  · rw [hreturned] at hnone
    cases hnone
  · obtain rfl : page = events := Option.some.inj (hpolled.returned.symm.trans hreturned)
    exact losesNone_iff_separate hpolled

/-! ## §5. Scenarios. -/

section Scenarios

open Shop

/-- Two events of one transaction. -/
def oneTransaction : List SorobanEvent :=
  [event "payment_executed" "ab12" 7, event "sub_cancelled" "ab12" 7]

/-- Two events of two transactions. -/
def twoTransactions : List SorobanEvent :=
  [event "payment_executed" "AB12" 7, event "sub_cancelled" "cd34" 7]

/-- **The second event of a transaction replaces the first**, and two are
counted. -/
theorem two_events_of_one_transaction :
    ¬ ∀ (cfg : Config) (js : Builtins) (startLedger : Option Int) (w w' : World)
      (t : List CallEvent) (r : PollResult) (events : List SorobanEvent),
      Runs api (pollSorobanEvents cfg js startLedger) w t (.ok r) w' →
      returned t = some events → LosesNone cfg js events r w' := by
  intro hclaim
  have hrun : (exec api (pollSorobanEvents (cfg false) ascii (some 7))
      [{ events := some oneTransaction }, { freshId := "row" }, {}] {}).map
        (fun r => (r.1.toOption.map (·.ingested), r.2.chainEvents.rows.map (·.type)))
      = some (some 2, ["sub_cancelled"]) := by
    decide +kernel
  obtain ⟨⟨r, w⟩, hexec, hresult⟩ := Option.map_eq_some_iff.mp hrun
  obtain ⟨hr, hrows⟩ := Prod.mk.inj hresult
  cases r with
  | error err => cases hr
  | ok r =>
      have hlose := hclaim _ _ _ _ _ _ r oneTransaction (exec_runs hexec) rfl
      obtain ⟨row, hrow, input, hinput, -, htype, -⟩ :=
        hlose.kept _ List.mem_cons_self ⟨⟨"ab12", rfl, by decide⟩, by decide⟩
      -- the table holds the second event only
      have hmem := List.mem_map_of_mem (f := (·.type)) (Table.mem_def.mp hrow)
      rw [hrows, List.mem_singleton] at hmem
      rw [(input?_eq_some hinput).1, hmem] at htype
      simp [event, topicSymbol, JsValue.nullish] at htype

/-- Two transactions, two rows. -/
theorem loses_none_iff_shop :
    ∃ (t : List CallEvent) (r : PollResult) (w' : World), returned t = some twoTransactions
      ∧ r.ingested = 2 ∧ LosesNone (cfg false) ascii twoTransactions r w' := by
  have hrun : (exec api (pollSorobanEvents (cfg false) ascii (some 7))
      [{ events := some twoTransactions }, { freshId := "row1" }, { freshId := "row2" }] {}).map
        (fun r => r.1.toOption.map (·.ingested)) = some (some 2) := by
    decide +kernel
  obtain ⟨⟨r, w⟩, hexec, hresult⟩ := Option.map_eq_some_iff.mp hrun
  cases r with
  | error err => cases hresult
  | ok r =>
      have hreturned : returned (execTrace api (pollSorobanEvents (cfg false) ascii (some 7))
          [{ events := some twoTransactions }, { freshId := "row1" }, { freshId := "row2" }] {})
          = some twoTransactions := rfl
      refine ⟨_, r, w, hreturned, Option.some.inj hresult, ?_⟩
      exact (loses_none_iff (cfg false) ascii (some 7) {} w _ r twoTransactions (exec_runs hexec)
        hreturned).mpr ⟨by decide +kernel, by decide +kernel⟩

end Scenarios

end Sorobill.Indexer
