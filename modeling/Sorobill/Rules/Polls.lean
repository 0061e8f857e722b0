/-
  Sorobill.Rules.Polls
  ────────────────────
  **WHAT A POLL OF THE INDEXER DOES.**

  A poll that completes has skipped the RPC, or it has read one page of events
  and passed each that it does not skip to `ingestChainEvent`.

    • `eventsOf`, `returned` — the page, as the trace tells;
    • `input?_eq_some` — what is passed for an event;
    • `ingestChainEvent_runs` — one upsert: the row of its hash, and no other;
    • `ingestAll_runs` — the loop;
    • `PageRead`, `poll_cases` — the whole poll, whatever its outcome;
    • `Polled`, `poll_runs` — a poll that completes;
    • `ingestAll_answered`, `poll_answered` — a page of valid events can be read.
-/
import Mathlib.Data.Fintype.EquivFin
import Sorobill.Library.Contract
import Sorobill.Model.Indexer

namespace Sorobill.Indexer

open Effect
open Relational
open JavaScript (JsValue)

/-! ## §1. Statements. -/

/-- The events with which a call of `getEvents` was answered. -/
def eventsOf (e : CallEvent) : Option (List SorobanEvent) :=
  match e.call with
  | .getEvents start ids limit =>
      ((api.serve (.getEvents start ids limit) e.env e.before).1.toOption).map (·.getD [])
  | _ => none

/-- The list of events that `getEvents` has returned. -/
def returned (t : List CallEvent) : Option (List SorobanEvent) := t.findSome? eventsOf

/-- The event of this input was passed to `ingestChainEvent`. -/
def PassedIn (js : Builtins) (t : List CallEvent) (input : IngestEventInput) : Prop :=
  ∃ e ∈ t, e.call = .chainEventUpsert (ingestChainEvent.args js input)

/-- The inputs of a page. -/
def inputs (cfg : Config) (js : Builtins) (events : List SorobanEvent) : List IngestEventInput :=
  events.filterMap (pollSorobanEvents.input? cfg js)

/-- The row holds what was ingested. -/
structure Stores (js : Builtins) (input : IngestEventInput) (row : ChainEvent) : Prop where
  txHash : row.txHash = normalizeTxHash js input.txHash
  type : JsValue.string row.type = input.type
  payload : row.payload = (ingestChainEvent.args js input).create.payload

/-- The row of a hash is one that was ingested, or the row from before. -/
def RowsFrom (js : Builtins) (is : List IngestEventInput) (w w' : World) : Prop :=
  ∀ hash, (∃ input ∈ is, normalizeTxHash js input.txHash = hash
      ∧ ∃ row, w'.event? hash = some row ∧ Stores js input row)
    ∨ ((∀ input ∈ is, normalizeTxHash js input.txHash ≠ hash) ∧ w'.event? hash = w.event? hash)

/-- **A poll that has read a page**, whatever became of the loop over it. -/
structure PageRead (cfg : Config) (js : Builtins) (start : Option Int) (w : World)
    (t : List CallEvent) (r : Except Thrown PollResult) (w' : World) (fromLedger : Int)
    (events : List SorobanEvent) : Prop where
  polls : hasSorobanContract cfg = true ∧ cfg.billing.testMode = false
  start : ∀ s, start = some s → fromLedger = s
  loop : ∃ t₁ env t₂ m,
    t = t₁ ++ ⟨w, .getEvents fromLedger [cfg.stellar.subscriptionContractId] 100, env⟩ :: t₂
      ∧ (∀ e ∈ t₁, e.call = .getLatestLedger)
      ∧ eventsOf ⟨w, .getEvents fromLedger [cfg.stellar.subscriptionContractId] 100, env⟩
        = some events
      ∧ Runs api (pollSorobanEvents.ingestAll cfg js events 0) w t₂ m w'
      ∧ r = m.map (fun ingested =>
          { polled := true, ingested
            latestLedger := some (pollSorobanEvents.latestLedger fromLedger events) })

/-- **A poll that has read a page and completed.** -/
structure Polled (cfg : Config) (js : Builtins) (start : Option Int) (w : World)
    (t : List CallEvent) (r : PollResult) (w' : World) (fromLedger : Int)
    (events : List SorobanEvent) : Prop where
  polled : r.polled = true
  asked : ∃ e ∈ t, e.call = .getEvents fromLedger [cfg.stellar.subscriptionContractId] 100
    ∧ e.before = w ∧ eventsOf e = some events
  returned : returned t = some events
  start : ∀ s, start = some s → fromLedger = s
  ingested : r.ingested = (inputs cfg js events).length
  latest : r.latestLedger = some (pollSorobanEvents.latestLedger fromLedger events)
  passed : ∀ input ∈ inputs cfg js events, PassedIn js t input
  rows : RowsFrom js (inputs cfg js events) w w'
  log : w'.log = w.log

/-! ## §2. Inputs. -/

section Inputs

variable {cfg : Config} {js : Builtins}

/-- A missing topic is of no known type. -/
theorem known_nullish {type : JsValue} :
    isKnownChainEventType (type.nullish (.string "unknown")) = isKnownChainEventType type := by
  cases type with
  | undefined => decide
  | null => decide
  | _ => rfl

theorem input?_eq_some {ev : SorobanEvent} {input : IngestEventInput}
    (h : pollSorobanEvents.input? cfg js ev = some input) :
    input.type = (topicSymbol ((ev.topic.getD []).headD .undefined)).nullish (.string "unknown")
      ∧ ev.txHash = some input.txHash ∧ input.txHash ≠ ""
      ∧ ∃ props, input.payload = .object props := by
  unfold pollSorobanEvents.input? at h
  dsimp only at h
  split at h
  · cases h
  split at h
  · cases h
  split at h
  · cases h
  next hash hhash hne =>
    cases h
    exact ⟨rfl, hhash, hne, _, rfl⟩

end Inputs

/-! ## §3. Ingestion. -/

section Ingestion

variable {cfg : Config} {js : Builtins} {w w' : World} {t : List CallEvent}

theorem event?_eq_some {hash : String} {row : ChainEvent} :
    w.event? hash = some row ↔ row ∈ w.chainEvents ∧ row.txHash = hash := by
  have hkey : ∀ a b : ChainEvent, (a.txHash == hash) = true → (b.txHash == hash) = true →
      a.Clash b :=
    fun a b ha hb => .inr ((beq_iff_eq.mp ha).trans (beq_iff_eq.mp hb).symm)
  unfold World.event?
  rw [Table.find?_eq_some_iff hkey, beq_iff_eq]

theorem validType_eq_some {type : JsValue} {ledger : Option Int} {s : String}
    (h : validType type ledger = some s) : type = .string s := by
  unfold validType at h
  split at h
  · split at h
    · cases h
      rfl
    · cases h
  · cases h

/-- An upsert is refused, or it is the one of the table. -/
theorem serve_chainEventUpsert (args : ChainEventUpsert) (env : Env) (w : World) :
    (∃ err, api.serve (.chainEventUpsert args) env w = (.error err, w))
    ∨ ∃ created updated table row, validType args.create.type args.create.ledger = some created
        ∧ validType args.update.type args.update.ledger = some updated
        ∧ w.chainEvents.upsert? (fun e => e.txHash == args.txHash)
            (args.create.row env.freshId created) (args.update.apply updated) = some table
        ∧ api.serve (.chainEventUpsert args) env w
            = (.ok row, { w with chainEvents := table }) := by
  unfold api
  dsimp only
  split
  · exact .inl ⟨_, rfl⟩
  unfold World.answer
  dsimp only
  split
  next created updated hcreated hupdated =>
    split
    next table htable =>
      exact .inr ⟨created, updated, table, _, hcreated, hupdated, htable, rfl⟩
    next => exact .inl ⟨_, rfl⟩
  next => exact .inl ⟨_, rfl⟩

/-- **One upsert.** -/
theorem ingestChainEvent_runs {input : IngestEventInput} {row : ChainEvent}
    (h : Runs api (ingestChainEvent js input) w t (.ok row) w') :
    (∃ env, t = [⟨w, .chainEventUpsert (ingestChainEvent.args js input), env⟩])
      ∧ w'.log = w.log ∧ RowsFrom js [input] w w' := by
  obtain ⟨env, rfl, hrow, rfl⟩ := runs_perform_iff.mp h
  refine ⟨⟨env, rfl⟩, ?_⟩
  rcases serve_chainEventUpsert (ingestChainEvent.args js input) env w with ⟨err, hserve⟩ |
    ⟨created, updated, table, row', hcreated, hupdated, htable, hserve⟩
  · rw [hserve] at hrow
    cases hrow
  rw [hserve]
  refine ⟨rfl, fun hash => ?_⟩
  have hfind := Table.find?_upsert_key htable rfl (fun _ => rfl) hash
  by_cases hhash : hash = normalizeTxHash js input.txHash
  · refine .inl ⟨input, List.mem_singleton_self input, hhash.symm, ?_⟩
    rw [show (ingestChainEvent.args js input).txHash = normalizeTxHash js input.txHash from rfl,
      if_pos hhash] at hfind
    refine ⟨_, hfind, ?_⟩
    cases hold : w.chainEvents.find? (fun e => e.txHash == normalizeTxHash js input.txHash) with
    | none => exact ⟨rfl, (validType_eq_some hcreated).symm, rfl⟩
    | some old =>
        exact ⟨beq_iff_eq.mp (Table.find?_mem hold).2, (validType_eq_some hupdated).symm, rfl⟩
  · -- the row of another hash is not touched
    refine .inr ⟨fun i hi => ?_, ?_⟩
    · rw [List.mem_singleton.mp hi]
      exact fun heq => hhash heq.symm
    · rw [show (ingestChainEvent.args js input).txHash = normalizeTxHash js input.txHash from rfl,
        if_neg hhash] at hfind
      exact hfind

/-- Later rows replace earlier ones. -/
theorem rowsFrom_cons {input : IngestEventInput} {is : List IngestEventInput} {w₁ : World}
    (h₁ : RowsFrom js [input] w w₁) (h₂ : RowsFrom js is w₁ w') :
    RowsFrom js (input :: is) w w' := by
  intro hash
  rcases h₂ hash with ⟨i, hi, hhash, hrow⟩ | ⟨hnone, hsame⟩
  · exact .inl ⟨i, List.mem_cons_of_mem _ hi, hhash, hrow⟩
  rcases h₁ hash with ⟨i, hi, hhash, row, hrow, hstores⟩ | ⟨hnone', hsame'⟩
  · -- no later event has this hash, so the row of the first is still there
    obtain rfl := List.mem_singleton.mp hi
    exact .inl ⟨i, List.mem_cons_self, hhash, row, hsame.trans hrow, hstores⟩
  · refine .inr ⟨fun i hi => ?_, hsame.trans hsame'⟩
    rcases List.mem_cons.mp hi with rfl | hi
    · exact hnone' i (List.mem_singleton_self i)
    · exact hnone i hi

/-- The loop upserts inputs of the page, and asks for nothing else. -/
theorem ingestAll_upserts {events : List SorobanEvent} {n : Nat} {r : Except Thrown Nat}
    (h : Runs api (pollSorobanEvents.ingestAll cfg js events n) w t r w') :
    ∀ e ∈ t, ∃ input ∈ inputs cfg js events,
      e.call = .chainEventUpsert (ingestChainEvent.args js input) := by
  have hcalls : ∀ n, Calls api (fun c => ∃ input ∈ inputs cfg js events,
      c = .chainEventUpsert (ingestChainEvent.args js input))
      (pollSorobanEvents.ingestAll cfg js events n) := by
    clear h
    induction events with
    | nil => exact fun _ => calls_pure
    | cons ev events ih =>
        intro n
        unfold pollSorobanEvents.ingestAll
        unfold inputs at ih ⊢
        cases hinput : pollSorobanEvents.input? cfg js ev with
        | none =>
            rw [List.filterMap_cons_none hinput]
            exact ih n
        | some input =>
            rw [List.filterMap_cons_some hinput]
            refine calls_bind (fun _ => (ih (n + 1)).mono (fun c hc => ?_))
              (calls_perform ⟨input, List.mem_cons_self, rfl⟩)
            obtain ⟨i, hi, hcall⟩ := hc
            exact ⟨i, List.mem_cons_of_mem _ hi, hcall⟩
  exact (hcalls n).events h

/-- **The loop.** -/
theorem ingestAll_runs {events : List SorobanEvent} {ingested m : Nat}
    (h : Runs api (pollSorobanEvents.ingestAll cfg js events ingested) w t (.ok m) w') :
    m = ingested + (inputs cfg js events).length ∧ w'.log = w.log
      ∧ (∀ input ∈ inputs cfg js events, PassedIn js t input)
      ∧ RowsFrom js (inputs cfg js events) w w' := by
  induction events generalizing ingested w t with
  | nil =>
      obtain ⟨rfl, hm, rfl⟩ := runs_done_iff.mp h
      cases hm
      refine ⟨rfl, rfl, fun i hi => ?_, fun hash => .inr ⟨fun i hi => ?_, rfl⟩⟩
      · cases hi
      · cases hi
  | cons ev events ih =>
      unfold pollSorobanEvents.ingestAll at h
      unfold inputs at ih ⊢
      cases hinput : pollSorobanEvents.input? cfg js ev with
      | none =>
          -- `continue`
          rw [hinput] at h
          rw [List.filterMap_cons_none hinput]
          exact ih h
      | some input =>
          rw [hinput] at h
          rw [List.filterMap_cons_some hinput]
          obtain ⟨err, herr, -⟩ | ⟨row, w₁, t₁, t₂, rfl, h₁, h₂⟩ := runs_bind_iff.mp h
          · cases herr
          obtain ⟨⟨env, rfl⟩, hlog₁, hrows₁⟩ := ingestChainEvent_runs h₁
          obtain ⟨hm, hlog₂, hpassed, hrows₂⟩ := ih h₂
          refine ⟨?_, hlog₂.trans hlog₁, ?_, ?_⟩
          · rw [hm, List.length_cons]
            omega
          · intro i hi
            rcases List.mem_cons.mp hi with rfl | hi
            · exact ⟨_, List.mem_cons_self, rfl⟩
            · obtain ⟨e, he, hcall⟩ := hpassed i hi
              exact ⟨e, List.mem_cons_of_mem _ he, hcall⟩
          · exact rowsFrom_cons hrows₁ hrows₂

end Ingestion

/-! ## §4. Polls. -/

section Polls

variable {cfg : Config} {js : Builtins} {w w' : World} {t : List CallEvent}

/-- The request for the latest ledger returns no events. -/
theorem returned_append {t₁ t₂ : List CallEvent} (h : ∀ e ∈ t₁, e.call = .getLatestLedger) :
    returned (t₁ ++ t₂) = returned t₂ := by
  have hnone : ∀ e ∈ t₁, eventsOf e = none := by
    intro e he
    unfold eventsOf
    rw [h e he]
  unfold returned
  rw [List.findSome?_append, List.findSome?_eq_none_iff.mpr hnone, Option.none_or]

theorem returned_eq_none_of_asked (h : ∀ e ∈ t, e.call = .getLatestLedger) :
    returned t = none := by
  rw [← List.append_nil t, returned_append h]
  rfl

theorem PageRead.returned {start : Option Int} {r : Except Thrown PollResult} {fromLedger : Int}
    {events : List SorobanEvent} (h : PageRead cfg js start w t r w' fromLedger events) :
    returned t = some events := by
  obtain ⟨t₁, env, t₂, m, rfl, hasked, hpage, -⟩ := h.loop
  rw [returned_append hasked, Indexer.returned, List.findSome?_cons, hpage]

/-- The two requests to the RPC change nothing. -/
theorem serve_request {c : Call} (hc : ∀ args, c ≠ .chainEventUpsert args) (env : Env)
    (w : World) : (api.serve c env w).2 = w := by
  unfold api
  dsimp only
  split
  · rfl
  · cases c with
    | getLatestLedger => rfl
    | getEvents start ids limit => rfl
    | chainEventUpsert args => exact absurd rfl (hc args)

/-- The ledger to start from is the given one, or was asked for. -/
theorem fromLedger_runs {start : Option Int} {r : Except Thrown (Option Int)}
    (h : Runs api (pollSorobanEvents.fromLedger start) w t r w') :
    ∃ o, r = .ok o ∧ w' = w ∧ (∀ e ∈ t, e.call = .getLatestLedger)
      ∧ ∀ s, start = some s → o = some s := by
  unfold pollSorobanEvents.fromLedger at h
  split at h
  next s =>
    obtain ⟨rfl, rfl, rfl⟩ := runs_done_iff.mp h
    exact ⟨some s, rfl, rfl, List.forall_mem_nil _, fun _ hs => hs⟩
  next =>
    have hcalls : Calls api (fun c => c = .getLatestLedger)
        (tryCatch (do
          let sequence ← server.getLatestLedger
          return some (max 1 (sequence - 50))) (fun _ => pure none) : Service (Option Int)) :=
      calls_tryCatch (fun _ => calls_pure) (calls_bind (fun _ => calls_pure) (calls_perform rfl))
    obtain ⟨hworld, hevents⟩ := hcalls.runs (R := fun w w' => w' = w) (fun _ => rfl)
      (fun _ _ _ h h' => h'.trans h)
      (fun e he => serve_request (fun args heq => by rw [he] at heq; cases heq) e.env e.before) h
    obtain ⟨o, rfl⟩ := runs_caught h
    exact ⟨o, rfl, hworld, hevents, fun s hs => by cases hs⟩

/-- The page is read, or the RPC does not answer. -/
theorem getEvents_runs {start : Int} {ids : List String} {limit : Nat}
    {r : Except Thrown (Option (Option (List SorobanEvent)))}
    (h : Runs api (tryCatch (some <$> server.getEvents start ids limit) (fun _ => pure none))
      w t r w') :
    ∃ o, r = .ok o ∧ w' = w ∧ ∃ env, t = [⟨w, .getEvents start ids limit, env⟩]
      ∧ eventsOf ⟨w, .getEvents start ids limit, env⟩ = o.map (·.getD []) := by
  have hserve : ∀ env, (api.serve (.getEvents start ids limit) env w).2 = w :=
    fun env => serve_request (by simp) env w
  rcases runs_tryCatch_iff.mp h with ⟨a, rfl, hrun⟩ | ⟨err, w₁, t₁, t₂, rfl, hrun, hpure⟩
  · obtain ⟨err, herr, -⟩ | ⟨events, w₁, t₁, t₂, rfl, hget, hpure⟩ := runs_bind_iff.mp hrun
    · cases herr
    obtain ⟨env, rfl, hr, rfl⟩ := runs_perform_iff.mp hget
    obtain ⟨rfl, hsome, rfl⟩ := runs_done_iff.mp hpure
    cases hsome
    refine ⟨_, rfl, hserve env, env, rfl, ?_⟩
    unfold eventsOf
    dsimp only
    rw [← hr]
    rfl
  · -- the `catch` block
    obtain ⟨rfl, rfl, rfl⟩ := runs_done_iff.mp hpure
    obtain ⟨err', herr, hget⟩ | ⟨events, w₁, t₁, t₂, rfl, hget, hpure⟩ := runs_bind_iff.mp hrun
    · obtain ⟨env, rfl, hr, rfl⟩ := runs_perform_iff.mp hget
      refine ⟨_, rfl, hserve env, env, rfl, ?_⟩
      unfold eventsOf
      dsimp only
      rw [← hr]
      rfl
    · obtain ⟨-, hsome, -⟩ := runs_done_iff.mp hpure
      cases hsome

/-- **A poll**, whatever its outcome, has run the loop over a page, or it has
read none and says so. -/
theorem poll_cases {start : Option Int} {r : Except Thrown PollResult}
    (h : Runs api (pollSorobanEvents cfg js start) w t r w') :
    (returned t = none ∧ (∀ e ∈ t, ∀ args, e.call ≠ .chainEventUpsert args)
        ∧ ∃ res, r = .ok res ∧ res.polled = false)
      ∨ ∃ fromLedger events, PageRead cfg js start w t r w' fromLedger events := by
  unfold pollSorobanEvents at h
  -- the two guards: no contract, no RPC
  split at h
  · obtain ⟨rfl, rfl, -⟩ := runs_done_iff.mp h
    exact .inl ⟨rfl, List.forall_mem_nil _, _, rfl, rfl⟩
  split at h
  · obtain ⟨rfl, rfl, -⟩ := runs_done_iff.mp h
    exact .inl ⟨rfl, List.forall_mem_nil _, _, rfl, rfl⟩
  next hcontract htest =>
  rcases runs_bind_iff.mp h with ⟨err, -, hfrom⟩ | ⟨o, w₁, t₁, t₂, rfl, hfrom, h⟩
  · obtain ⟨o, herr, -⟩ := fromLedger_runs hfrom
    cases herr
  obtain ⟨o, ho, rfl, hasked, hstart⟩ := fromLedger_runs hfrom
  cases ho
  have hnoUpsert : ∀ e ∈ t₁, ∀ args, e.call ≠ .chainEventUpsert args := by
    intro e he args heq
    rw [hasked e he] at heq
    cases heq
  cases o with
  | none =>
      obtain ⟨rfl, rfl, -⟩ := runs_done_iff.mp h
      rw [List.append_nil]
      exact .inl ⟨returned_eq_none_of_asked hasked, hnoUpsert, _, rfl, rfl⟩
  | some fromLedger =>
      rcases runs_bind_iff.mp h with ⟨err, -, hget⟩ | ⟨o, w₂, t₃, t₄, rfl, hget, h⟩
      · obtain ⟨o, herr, -⟩ := getEvents_runs hget
        cases herr
      obtain ⟨o, ho, rfl, env, rfl, hpage⟩ := getEvents_runs hget
      cases ho
      cases o with
      | none =>
          -- `getEvents` has thrown, and the poll says that it has not polled
          obtain ⟨rfl, rfl, -⟩ := runs_done_iff.mp h
          rw [List.append_nil]
          refine .inl ⟨?_, fun e he args => ?_, _, rfl, rfl⟩
          · rw [returned_append hasked, returned, List.findSome?_cons, hpage]
            rfl
          · rcases List.mem_append.mp he with he | he
            · exact hnoUpsert e he args
            · rw [List.mem_singleton.mp he]
              exact fun heq => by cases heq
      | some events =>
          refine .inr ⟨fromLedger, events.getD [], ⟨by simpa using hcontract, by simpa using htest⟩,
            fun s hs => Option.some.inj (hstart s hs), t₁, env, t₄, ?_⟩
          rcases runs_bind_iff.mp h with ⟨err, rfl, hall⟩ | ⟨m, w₃, t₅, t₆, rfl, hall, h⟩
          · exact ⟨.error err, rfl, hasked, hpage, hall, rfl⟩
          · obtain ⟨rfl, rfl, rfl⟩ := runs_done_iff.mp h
            rw [List.append_nil]
            exact ⟨.ok m, rfl, hasked, hpage, hall, rfl⟩

/-- **A poll that completes** has read a page, or has not polled. -/
theorem poll_runs {start : Option Int} {r : PollResult}
    (h : Runs api (pollSorobanEvents cfg js start) w t (.ok r) w') :
    (r.polled = false ∧ returned t = none)
      ∨ ∃ fromLedger events, Polled cfg js start w t r w' fromLedger events := by
  rcases poll_cases h with ⟨hnone, -, res, hres, hidle⟩ | ⟨fromLedger, events, hread⟩
  · cases hres
    exact .inl ⟨hidle, hnone⟩
  have hreturned := hread.returned
  obtain ⟨t₁, env, t₂, m, rfl, hasked, hpage, hall, hr⟩ := hread.loop
  cases m with
  | error err => cases hr
  | ok m =>
      cases hr
      obtain ⟨hm, hlog, hpassed, hrows⟩ := ingestAll_runs hall
      refine .inr ⟨fromLedger, events, ⟨rfl, ⟨_, ?_, rfl, rfl, hpage⟩, hreturned, hread.start,
        hm.trans (Nat.zero_add _), rfl, fun i hi => ?_, hrows, hlog⟩⟩
      · exact List.mem_append_right _ List.mem_cons_self
      · obtain ⟨e, he, hcall⟩ := hpassed i hi
        exact ⟨e, List.mem_append_right _ (List.mem_cons_of_mem _ he), hcall⟩

end Polls

/-! ## §5. Polls that are answered. -/

section Answered

variable {cfg : Config} {js : Builtins}

/-- A valid input can be ingested: some id is not in use. -/
theorem ingestChainEvent_answered (js : Builtins) {input : IngestEventInput} {type : String}
    (hvalid : validType input.type input.ledger = some type) (w : World) :
    ∃ env row w', Runs api (ingestChainEvent js input) w
      [⟨w, .chainEventUpsert (ingestChainEvent.args js input), env⟩] (.ok row) w' := by
  obtain ⟨id, hid⟩ := Infinite.exists_notMem_finset (w.chainEvents.rows.map (·.id)).toFinset
  rw [List.mem_toFinset] at hid
  obtain ⟨table, htable⟩ := Table.upsert_taken (t := w.chainEvents)
    (p := fun e => e.txHash == (ingestChainEvent.args js input).txHash)
    (r := (ingestChainEvent.args js input).create.row id type)
    (f := (ingestChainEvent.args js input).update.apply type) (by
      intro a ha hne hclash
      rcases hclash with heq | heq
      · exact hid (List.mem_map.mpr ⟨a, ha, heq⟩)
      · exact ne_of_beq_false hne heq) (by
      -- neither the id nor the hash is updated
      intro a b hclash
      have hkeys : ∀ e : ChainEvent,
          (if e.txHash == (ingestChainEvent.args js input).txHash then
            (ingestChainEvent.args js input).update.apply type e else e).id = e.id
          ∧ (if e.txHash == (ingestChainEvent.args js input).txHash then
            (ingestChainEvent.args js input).update.apply type e else e).txHash = e.txHash := by
        intro e
        split
        · exact ⟨rfl, rfl⟩
        · exact ⟨rfl, rfl⟩
      unfold ChainEvent.Clash at hclash
      rwa [(hkeys a).1, (hkeys b).1, (hkeys a).2, (hkeys b).2] at hclash)
  have hcreate : validType (ingestChainEvent.args js input).create.type
      (ingestChainEvent.args js input).create.ledger = some type := hvalid
  have hupdate : validType (ingestChainEvent.args js input).update.type
      (ingestChainEvent.args js input).update.ledger = some type := hvalid
  have hserve : api.serve (.chainEventUpsert (ingestChainEvent.args js input))
      { freshId := id } w
      = (.ok (((w.event? (ingestChainEvent.args js input).txHash).map
            ((ingestChainEvent.args js input).update.apply type)).getD
          ((ingestChainEvent.args js input).create.row id type)),
        { w with chainEvents := table }) := by
    show World.answer w { freshId := id } (.chainEventUpsert (ingestChainEvent.args js input)) = _
    unfold World.answer
    simp only [hcreate, hupdate, htable]
  exact ⟨{ freshId := id }, _, _, runs_perform_iff.mpr
    ⟨_, rfl, (congrArg Prod.fst hserve).symm, (congrArg Prod.snd hserve).symm⟩⟩

/-- A page of valid inputs can be ingested. -/
theorem ingestAll_answered (js : Builtins) {events : List SorobanEvent}
    (hvalid : ∀ input ∈ inputs cfg js events, ∃ type,
      validType input.type input.ledger = some type) (n : Nat) (w : World) :
    ∃ t m w', Runs api (pollSorobanEvents.ingestAll cfg js events n) w t (.ok m) w' := by
  induction events generalizing n w with
  | nil => exact ⟨[], n, w, .done⟩
  | cons ev events ih =>
      unfold pollSorobanEvents.ingestAll
      unfold inputs at hvalid ih
      cases hinput : pollSorobanEvents.input? cfg js ev with
      | none =>
          rw [List.filterMap_cons_none hinput] at hvalid
          exact ih hvalid n w
      | some input =>
          rw [List.filterMap_cons_some hinput] at hvalid
          obtain ⟨type, htype⟩ := hvalid input List.mem_cons_self
          obtain ⟨env, row, w₁, hrun⟩ := ingestChainEvent_answered js htype w
          obtain ⟨t, m, w', hrest⟩ :=
            ih (fun i hi => hvalid i (List.mem_cons_of_mem _ hi)) (n + 1) w₁
          exact ⟨_, m, w', hrun.bind hrest⟩

/-- The ledger to start from can be read. -/
theorem fromLedger_answered (start : Option Int) (w : World) :
    ∃ t s, (∀ e ∈ t, e.call = .getLatestLedger)
      ∧ Runs api (pollSorobanEvents.fromLedger start) w t (.ok (some s)) w := by
  cases start with
  | some s => exact ⟨[], s, List.forall_mem_nil _, .done⟩
  | none =>
      refine ⟨[⟨w, .getLatestLedger, {}⟩], _, fun e he => ?_, Runs.tryCatch
        (Runs.bind (runs_perform_iff.mpr ⟨_, rfl, rfl, rfl⟩) .done)⟩
      rw [List.mem_singleton.mp he]

/-- **A poll of any page**, with what becomes of the loop over it. -/
theorem poll_answered (hcontract : hasSorobanContract cfg = true)
    (htest : cfg.billing.testMode = false) {start : Option Int} {s : Int}
    (events : List SorobanEvent) {w w' : World} {t₁ t : List CallEvent} {m : Except Thrown Nat}
    (hfrom : Runs api (pollSorobanEvents.fromLedger start) w t₁ (.ok (some s)) w)
    (hall : Runs api (pollSorobanEvents.ingestAll cfg js events 0) w t m w') :
    Runs api (pollSorobanEvents cfg js start) w
      (t₁ ++ ⟨w, .getEvents s [cfg.stellar.subscriptionContractId] 100,
        { events := some events }⟩ :: t)
      (m.map (fun ingested =>
        { polled := true, ingested
          latestLedger := some (pollSorobanEvents.latestLedger s events) })) w' := by
  unfold pollSorobanEvents
  rw [if_neg (by simp [hcontract]), if_neg (by simp [htest])]
  refine hfrom.bind ?_
  have hget : Runs api (tryCatch
      (some <$> server.getEvents s [cfg.stellar.subscriptionContractId] 100) (fun _ => pure none))
      w [⟨w, .getEvents s [cfg.stellar.subscriptionContractId] 100, { events := some events }⟩]
      (.ok (some (some events))) w :=
    Runs.tryCatch (Runs.bind (runs_perform_iff.mpr ⟨_, rfl, rfl, rfl⟩) .done)
  refine Runs.bind hget ?_
  cases m with
  | error err => exact runs_bind_iff.mpr (.inl ⟨err, rfl, hall⟩)
  | ok n =>
      rw [← List.append_nil t]
      exact hall.bind .done

end Answered

end Sorobill.Indexer
