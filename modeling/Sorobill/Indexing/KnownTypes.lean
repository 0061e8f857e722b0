/-
  Sorobill.Indexing.KnownTypes
  ────────────────────────────
  **WHICH TYPES THE POLLER STORES.**

  The strict ingest route refuses a type that is not listed.  The loop of the
  poller skips an event whose type is missing or `"unknown"`, and passes every
  other one on, a string or not.

    • `Ingestable`, `PassesKnown` — what the strict route takes, and that a
      poll passes nothing else;
    • `OnlyKnown` — the condition on the events of the response;
    • `stores_known_types_iff` — for every response, over all its polls;
    • `an_unlisted_type` — the poller stores what the route refuses.
-/
import Sorobill.Model.Shop
import Sorobill.Rules.Polls

namespace Sorobill.Indexer

open Effect
open JavaScript (JsValue)

/-! ## §1. Statements. -/

/-- The strict ingest route takes the type. -/
def Ingestable (type : JsValue) : Prop :=
  ∃ s, type = .string s ∧ assertIngestableType s true = .ok ()

/-- Every type that the poll has passed to `ingestChainEvent` is ingestable. -/
def PassesKnown (js : Builtins) (t : List CallEvent) : Prop :=
  ∀ input, PassedIn js t input → Ingestable input.type

/-- What the first topic decodes to. -/
def SorobanEvent.decoded (ev : SorobanEvent) : JsValue :=
  topicSymbol ((ev.topic.getD []).headD .undefined)

/-- The event has a hash, and its first topic decodes to something that is not
`"unknown"`. -/
structure SorobanEvent.Passes (ev : SorobanEvent) : Prop where
  txHash : ∃ hash, ev.txHash = some hash ∧ hash ≠ ""
  type : ev.decoded ≠ .null ∧ ev.decoded ≠ .string "unknown"

/-- The event passes, and its ledger does not fit the column: the poll ends
with an error. -/
def SorobanEvent.Overflows (ev : SorobanEvent) : Prop :=
  ev.Passes ∧ ev.ledger.all fitsInt = false

/-- **The events that pass are of listed types**, up to the first one that
overflows. -/
def OnlyKnown (events : List SorobanEvent) : Prop :=
  ∀ before ev after, events = before ++ ev :: after → (∀ e ∈ before, ¬ e.Overflows) → ev.Passes →
    isKnownChainEventType ev.decoded = true

/-! ## §2. Types. -/

theorem ingestable_iff {type : JsValue} :
    Ingestable type ↔ isKnownChainEventType type = true := by
  constructor
  · intro h
    obtain ⟨s, rfl, hs⟩ := h
    unfold assertIngestableType at hs
    split at hs
    · cases hs
    next hknown => simpa using hknown
  · intro hknown
    obtain ⟨s, -, hs⟩ := List.any_eq_true.mp hknown
    obtain rfl := JsValue.isString_iff.mp hs
    refine ⟨s, rfl, ?_⟩
    unfold assertIngestableType
    rw [if_neg (by simp [hknown])]

theorem topicSymbol_ne_undefined (topic : JsValue) : topicSymbol topic ≠ .undefined := by
  have hnullish : ∀ v : JsValue, v.nullish .null ≠ .undefined := by
    intro v
    cases v <;> simp [JsValue.nullish]
  unfold topicSymbol
  split
  · simp
  · split
    · exact hnullish _
    · simp

section Events

variable {cfg : Config} {js : Builtins} {ev : SorobanEvent}

/-- An event that passes is passed with the type that it decodes to. -/
theorem SorobanEvent.Passes.input? (h : ev.Passes) (cfg : Config) (js : Builtins) :
    ∃ input, pollSorobanEvents.input? cfg js ev = some input ∧ input.type = ev.decoded
      ∧ input.ledger = ev.ledger := by
  obtain ⟨⟨hash, hhash, hne⟩, hnull, hunknown⟩ := h
  have htype : ev.decoded.nullish (.string "unknown") = ev.decoded := by
    have hundefined := topicSymbol_ne_undefined ((ev.topic.getD []).headD .undefined)
    unfold SorobanEvent.decoded at hnull ⊢
    cases hdec : topicSymbol ((ev.topic.getD []).headD .undefined) with
    | undefined => exact absurd hdec hundefined
    | null => exact absurd hdec hnull
    | _ => rfl
  have hkeep : ev.decoded.isString "unknown" = false := by
    rw [Bool.eq_false_iff]
    exact fun heq => hunknown (JsValue.isString_iff.mp heq)
  unfold pollSorobanEvents.input?
  dsimp only
  rw [show (topicSymbol ((ev.topic.getD []).headD .undefined)).nullish (.string "unknown")
    = ev.decoded from htype, hkeep, Bool.and_false, hhash]
  exact ⟨_, if_neg hne, rfl, rfl⟩

/-- And no other is passed. -/
theorem passes_of_input? {input : IngestEventInput}
    (h : pollSorobanEvents.input? cfg js ev = some input) : ev.Passes := by
  obtain ⟨-, hhash, hne, -⟩ := input?_eq_some h
  refine ⟨⟨_, hhash, hne⟩, fun hnull => ?_, fun hunknown => ?_⟩
  · unfold SorobanEvent.decoded at hnull
    unfold pollSorobanEvents.input? at h
    dsimp only at h
    rw [hnull] at h
    cases h
  · unfold SorobanEvent.decoded at hunknown
    unfold pollSorobanEvents.input? at h
    dsimp only at h
    rw [hunknown] at h
    cases h

theorem onlyKnown_cons {events : List SorobanEvent} :
    OnlyKnown (ev :: events) ↔ (ev.Passes → isKnownChainEventType ev.decoded = true)
      ∧ (¬ ev.Overflows → OnlyKnown events) := by
  constructor
  · intro h
    refine ⟨h [] ev events rfl (List.forall_mem_nil _), fun hfits before e after heq hbefore => ?_⟩
    exact h (ev :: before) e after (by rw [heq, List.cons_append])
      (List.forall_mem_cons.mpr ⟨hfits, hbefore⟩)
  · intro h before e after heq hbefore
    obtain ⟨hhead, htail⟩ := h
    cases before with
    | nil =>
        obtain ⟨rfl, -⟩ := List.cons.inj heq
        exact hhead
    | cons b before =>
        obtain ⟨rfl, hrest⟩ := List.cons.inj heq
        obtain ⟨hfits, hbefore⟩ := List.forall_mem_cons.mp hbefore
        exact htail hfits before e after hrest hbefore

end Events

/-! ## §3. The loop. -/

section Loop

variable {cfg : Config} {js : Builtins} {w w' : World} {t t₁ t₂ : List CallEvent}

theorem passesKnown_append :
    PassesKnown js (t₁ ++ t₂) ↔ PassesKnown js t₁ ∧ PassesKnown js t₂ := by
  unfold PassesKnown PassedIn
  simp only [List.mem_append, or_and_right, exists_or, or_imp, forall_and]

/-- The requests to the RPC pass nothing. -/
theorem passesKnown_requests {start : Int} {ids : List String} {limit : Nat} {env : Env}
    (hasked : ∀ e ∈ t₁, e.call = .getLatestLedger) :
    PassesKnown js (t₁ ++ ⟨w, .getEvents start ids limit, env⟩ :: t₂) ↔ PassesKnown js t₂ := by
  have hfirst : PassesKnown js t₁ := by
    intro input hpassed
    obtain ⟨e, he, hcall⟩ := hpassed
    rw [hasked e he] at hcall
    cases hcall
  have hpage : PassesKnown js [⟨w, .getEvents start ids limit, env⟩] := by
    intro input hpassed
    obtain ⟨e, he, hcall⟩ := hpassed
    rw [List.mem_singleton.mp he] at hcall
    cases hcall
  rw [List.append_cons, passesKnown_append, passesKnown_append]
  exact and_iff_right ⟨hfirst, hpage⟩

/-- One upsert passes the type of its input. -/
theorem passesKnown_upsert {input : IngestEventInput} {env : Env} :
    PassesKnown js [⟨w, .chainEventUpsert (ingestChainEvent.args js input), env⟩]
      ↔ isKnownChainEventType input.type = true := by
  rw [← ingestable_iff]
  constructor
  · intro h
    exact h input ⟨_, List.mem_singleton_self _, rfl⟩
  · intro h i hi
    obtain ⟨e, he, hcall⟩ := hi
    rw [List.mem_singleton.mp he] at hcall
    -- the argument of the upsert contains the type
    have htype : input.type = i.type :=
      congrArg (fun args => args.create.type) (Call.chainEventUpsert.inj hcall)
    rwa [← htype]

/-- **The loop passes known types only**, when the events are so. -/
theorem ingestAll_known {events : List SorobanEvent} {n : Nat} {r : Except Thrown Nat}
    (hknown : OnlyKnown events)
    (h : Runs api (pollSorobanEvents.ingestAll cfg js events n) w t r w') : PassesKnown js t := by
  induction events generalizing n w t with
  | nil =>
      obtain ⟨rfl, -, -⟩ := runs_done_iff.mp h
      intro input hpassed
      obtain ⟨e, he, -⟩ := hpassed
      cases he
  | cons ev events ih =>
      obtain ⟨hhead, htail⟩ := onlyKnown_cons.mp hknown
      unfold pollSorobanEvents.ingestAll at h
      cases hinput : pollSorobanEvents.input? cfg js ev with
      | none =>
          rw [hinput] at h
          -- passed over: the rest is as before
          refine ih (htail (fun hover => ?_)) h
          obtain ⟨input, hsome, -⟩ := hover.1.input? cfg js
          rw [hinput] at hsome
          cases hsome
      | some input =>
          rw [hinput] at h
          have hpasses := passes_of_input? hinput
          obtain ⟨i, hsome, htype, hledger⟩ := hpasses.input? cfg js
          obtain rfl : input = i := Option.some.inj (hinput.symm.trans hsome)
          -- an event that passes is of a listed type
          have hlisted : isKnownChainEventType input.type = true := htype ▸ hhead hpasses
          rcases runs_bind_iff.mp h with ⟨err, -, h₁⟩ | ⟨row, w₁, t₁, t₂, rfl, h₁, h₂⟩
          · -- refused: the poll ends here
            obtain ⟨env, rfl, -, -⟩ := runs_perform_iff.mp h₁
            exact passesKnown_upsert.mpr hlisted
          · obtain ⟨env, rfl, hrow, -⟩ := runs_perform_iff.mp h₁
            refine passesKnown_append.mpr ⟨passesKnown_upsert.mpr hlisted, ih (htail ?_) h₂⟩
            rcases serve_chainEventUpsert (ingestChainEvent.args js input) env w with
              ⟨err, hserve⟩ | ⟨created, updated, table, row', hcreated, -⟩
            · rw [hserve] at hrow
              cases hrow
            · -- ingested, so the ledger fits
              intro hover
              have hvalid : validType input.type input.ledger = some created := hcreated
              unfold validType at hvalid
              rw [hledger, hover.2] at hvalid
              split at hvalid
              · cases hvalid
              · cases hvalid

/-- **Otherwise some run of the loop passes an unlisted type.** -/
theorem ingestAll_unlisted (cfg : Config) (js : Builtins) {events : List SorobanEvent}
    (hunlisted : ¬ OnlyKnown events) (n : Nat) (w : World) :
    ∃ t r w', Runs api (pollSorobanEvents.ingestAll cfg js events n) w t r w'
      ∧ ¬ PassesKnown js t := by
  induction events generalizing n w with
  | nil => exact absurd (fun before ev after heq => by simp at heq) hunlisted
  | cons ev events ih =>
      unfold pollSorobanEvents.ingestAll
      by_cases hpasses : ev.Passes
      · obtain ⟨input, hinput, htype, hledger⟩ := hpasses.input? cfg js
        rw [hinput]
        by_cases hlisted : isKnownChainEventType input.type = true
        · -- a listed type: the event is ingested, unless its ledger does not fit
          have hrest : ¬ ev.Overflows ∧ ¬ OnlyKnown events := by
            rw [onlyKnown_cons, not_and] at hunlisted
            exact Classical.not_imp.mp (hunlisted (fun _ => htype ▸ hlisted))
          obtain ⟨s, hs, -⟩ := ingestable_iff.mpr hlisted
          have hfits : input.ledger.all fitsInt = true := by
            rw [hledger]
            by_contra hnot
            exact hrest.1 ⟨hpasses, Bool.eq_false_iff.mpr hnot⟩
          have hvalid : validType input.type input.ledger = some s := by
            rw [hs, validType, if_pos hfits]
          obtain ⟨env, row, w₁, h₁⟩ := ingestChainEvent_answered js hvalid w
          obtain ⟨t, r, w', h₂, hnot⟩ := ih hrest.2 (n + 1) w₁
          exact ⟨_, r, w', h₁.bind h₂, fun hall => hnot (passesKnown_append.mp hall).2⟩
        · -- an unlisted type: it is passed, whatever comes of it
          refine ⟨[⟨w, .chainEventUpsert (ingestChainEvent.args js input),
              { rejects := some "down" }⟩], .error (.error "down"), w,
            runs_bind_iff.mpr (.inl ⟨_, rfl, runs_perform_iff.mpr ⟨_, rfl, rfl, rfl⟩⟩), ?_⟩
          rwa [passesKnown_upsert]
      · have hinput : pollSorobanEvents.input? cfg js ev = none := by
          cases hsome : pollSorobanEvents.input? cfg js ev with
          | none => rfl
          | some input => exact absurd (passes_of_input? hsome) hpasses
        rw [hinput]
        refine ih (fun hall => hunlisted (onlyKnown_cons.mpr ⟨fun h => absurd h hpasses, ?_⟩)) n w
        exact fun _ => hall

end Loop

/-! ## §4. Polls. -/

/-- **The poller stores known types only if and only if the response has no
others**: for every configuration that polls and every list of events, all
polls that are answered with it pass only types that the strict ingest route
takes exactly when each event that has a hash, and whose first topic decodes
to something that is not `"unknown"`, is of a listed type. -/
theorem stores_known_types_iff (cfg : Config) (js : Builtins) (startLedger : Option Int)
    (events : List SorobanEvent) :
    (∀ w t r w', Runs api (pollSorobanEvents cfg js startLedger) w t r w' →
        returned t = some events → PassesKnown js t)
      ↔ (hasSorobanContract cfg = true → cfg.billing.testMode = false → OnlyKnown events) := by
  constructor
  · intro h hcontract htest
    by_contra hunlisted
    obtain ⟨t, m, w', hall, hnot⟩ := ingestAll_unlisted cfg js hunlisted 0 {}
    obtain ⟨t₁, s, hasked, hfrom⟩ := fromLedger_answered startLedger {}
    have hrun := poll_answered hcontract htest events hfrom hall
    refine hnot ((passesKnown_requests hasked).mp (h _ _ _ _ hrun ?_))
    rw [returned_append hasked]
    rfl
  · intro h w t r w' hrun hreturned
    rcases poll_cases hrun with ⟨hnone, -, -⟩ | ⟨fromLedger, page, hread⟩
    · rw [hnone] at hreturned
      cases hreturned
    obtain rfl : page = events := Option.some.inj (hread.returned.symm.trans hreturned)
    obtain ⟨t₁, env, t₂, m, rfl, hasked, -, hall, -⟩ := hread.loop
    exact (passesKnown_requests hasked).mpr
      (ingestAll_known (h hread.polls.1 hread.polls.2) hall)

/-! ## §5. A scenario. -/

section Scenarios

open Shop

/-- **An unlisted type is passed on**: an event of type `transfer`, which the
strict route refuses. -/
theorem an_unlisted_type :
    ¬ ∀ (cfg : Config) (js : Builtins) (startLedger : Option Int) (w w' : World)
      (t : List CallEvent) (r : Except Thrown PollResult),
      Runs api (pollSorobanEvents cfg js startLedger) w t r w' → PassesKnown js t := by
  intro hclaim
  have hrun : (exec api (pollSorobanEvents (cfg false) ascii (some 7))
      [{ events := some [event "transfer" "ab12" 7] }, {}] {}).map
        (fun r => r.2.chainEvents.rows.map (·.type)) = some ["transfer"] := by
    decide +kernel
  obtain ⟨⟨r, w⟩, hexec, -⟩ := Option.map_eq_some_iff.mp hrun
  obtain ⟨input, hpassed, htype⟩ : ∃ input, PassedIn ascii
      (execTrace api (pollSorobanEvents (cfg false) ascii (some 7))
        [{ events := some [event "transfer" "ab12" 7] }, {}] {}) input
      ∧ input.type = .string "transfer" :=
    ⟨{ type := .string "transfer", contractId := _, txHash := "ab12", ledger := some 7
       payload := _ }, ⟨_, List.mem_cons_of_mem _ List.mem_cons_self, rfl⟩, rfl⟩
  have hknown := ingestable_iff.mp (hclaim _ _ _ _ _ _ _ (exec_runs hexec) input hpassed)
  rw [htype] at hknown
  exact absurd hknown (by decide)

end Scenarios

end Sorobill.Indexer
