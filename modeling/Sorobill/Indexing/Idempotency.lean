/-
  Sorobill.Indexing.Idempotency
  ─────────────────────────────
  **INGESTING A LIST OF EVENTS AGAIN CHANGES NOTHING.**

  An upsert creates the row of a hash, contract included, or sets the type and
  the payload, and the ledger when that is given.  In a list whose hashes
  repeat, the contract comes from the first input of a hash, the type and the
  payload from the last, and the ledger from the last that has one.

    • `ingestion` — inputs ingested one after the other;
    • `upserts` — the table as a keyed store;
    • `ingest_batch` — a list of inputs is a batch of upserts;
    • `ingesting_twice` — the list again leaves the table as it is.
-/
import Sorobill.Library.Upserts
import Sorobill.Model.Shop
import Sorobill.Rules.Polls

namespace Sorobill.Indexer

open Effect
open Relational
open JavaScript (JsValue)

/-! ## §1. Statements. -/

/-- The columns of a row but for its `id`. -/
structure Content where
  type : String
  contractId : String
  txHash : String
  ledger : Option Int
  payload : JsValue

def ChainEvent.content (e : ChainEvent) : Content :=
  { type := e.type, contractId := e.contractId, txHash := e.txHash, ledger := e.ledger
    payload := e.payload }

/-- **The table**, its rows without their ids. -/
def World.contents (w : World) : Set Content := {c | ∃ row ∈ w.chainEvents, row.content = c}

/-- The row that an input creates; `none` when its type is no string or its
ledger does not fit the column. -/
def IngestEventInput.content? (js : Builtins) (input : IngestEventInput) : Option Content :=
  (validType input.type input.ledger).map (fun type =>
    { type
      contractId := input.contractId
      txHash := normalizeTxHash js input.txHash
      ledger := input.ledger
      payload := (ingestChainEvent.args js input).create.payload })

/-- **Ingestion**, one input after the other, with nothing written to the
table in between. -/
def ingestion (js : Builtins) : Serial Api World Env IngestEventInput ChainEvent where
  backend := api
  body := ingestChainEvent js
  enabled _ _ := True
  drift w w' := w'.chainEvents = w.chainEvents

instance (js : Builtins) (w : World) (input : IngestEventInput) :
    Decidable ((ingestion js).enabled w input) := .isTrue trivial

/-- An input that was ingested, or not taken. -/
abbrev Ingest : Type := Execution Api World Env IngestEventInput ChainEvent

/-- The database refuses an input for what it holds, and for nothing else. -/
def Served (js : Builtins) (x : Ingest) : Prop :=
  (∃ row, x.reply = .ok row) ∨ x.op.content? js = none

/-- The hashes of the table are normalised; that they are unique is a
constraint of the table. -/
def Normalised (js : Builtins) (w : World) : Prop :=
  ∀ row ∈ w.chainEvents, ∃ hash, row.txHash = normalizeTxHash js hash

/-- **One row for each normalised hash** of the table before and of the inputs
that are taken. -/
structure OneRowEach (js : Builtins) (is : List IngestEventInput) (w w' : World) : Prop where
  normalised : Normalised js w'
  unique : ∀ a ∈ w'.chainEvents, ∀ b ∈ w'.chainEvents, a.txHash = b.txHash → a = b
  hashes : ∀ hash, (∃ row ∈ w'.chainEvents, row.txHash = hash)
    ↔ (∃ row ∈ w.chainEvents, row.txHash = hash)
      ∨ ∃ input ∈ is, (input.content? js).isSome = true ∧ normalizeTxHash js input.txHash = hash

/-! ## §2. The table as a store. -/

/-- The upserts of rows by their hashes. -/
def upserts : Upserts Content String Content where
  key := Content.txHash
  create new := new
  update new old :=
    { old with type := new.type, payload := new.payload, ledger := new.ledger.or old.ledger }

theorem overwriting_upserts : upserts.Overwriting := by
  refine ⟨fun i => ?_, fun i v => ?_, fun i j v => ?_⟩
  · show { i with ledger := i.ledger.or i.ledger } = i
    rw [Option.or_self]
  · show ({ v with type := i.type, payload := i.payload
                   ledger := i.ledger.or (i.ledger.or v.ledger) } : Content)
      = { v with type := i.type, payload := i.payload, ledger := i.ledger.or v.ledger }
    rw [← Option.or_assoc, Option.or_self]
  · -- the last ledger that is given counts
    show ({ v with type := i.type, payload := i.payload
                   ledger := i.ledger.or (j.ledger.or (i.ledger.or v.ledger)) } : Content)
      = { v with type := i.type, payload := i.payload
                 ledger := i.ledger.or (j.ledger.or v.ledger) }
    congr 1
    cases i.ledger with
    | none => rfl
    | some ledger => rfl

/-- The store that a table is. -/
def World.store (w : World) : String → Option Content :=
  fun hash => (w.event? hash).map ChainEvent.content

section Stores

variable {w w' : World}

theorem store_eq_some {hash : String} {c : Content} :
    w.store hash = some c ↔ ∃ row ∈ w.chainEvents, row.txHash = hash ∧ row.content = c := by
  unfold World.store
  rw [Option.map_eq_some_iff]
  simp only [event?_eq_some, and_assoc]

theorem isSome_store {hash : String} :
    (w.store hash).isSome = true ↔ ∃ row ∈ w.chainEvents, row.txHash = hash := by
  rw [Option.isSome_iff_exists]
  simp only [store_eq_some]
  constructor
  · intro h
    obtain ⟨c, row, hrow, hhash, -⟩ := h
    exact ⟨row, hrow, hhash⟩
  · intro h
    obtain ⟨row, hrow, hhash⟩ := h
    exact ⟨row.content, row, hrow, hhash, rfl⟩

/-- Tables with the same store have the same rows. -/
theorem contents_of_store (h : w'.store = w.store) : w'.contents = w.contents := by
  have hmem : ∀ (w : World) (c : Content), c ∈ w.contents ↔ w.store c.txHash = some c := by
    intro w c
    rw [store_eq_some]
    constructor
    · intro hc
      obtain ⟨row, hrow, rfl⟩ := hc
      exact ⟨row, hrow, rfl, rfl⟩
    · intro hc
      obtain ⟨row, hrow, -, rfl⟩ := hc
      exact ⟨row, hrow, rfl⟩
  ext c
  rw [hmem, hmem, h]

end Stores

/-! ## §3. Ingestion. -/

section Ingestion

variable {js : Builtins} {w w' : World}

theorem key_of_content? {input : IngestEventInput} {c : Content}
    (h : input.content? js = some c) : c.txHash = normalizeTxHash js input.txHash := by
  obtain ⟨type, -, rfl⟩ := Option.map_eq_some_iff.mp h
  rfl

/-- An upsert of the table is one of the store. -/
theorem store_upsert {input : IngestEventInput} {id type : String}
    {table : Table ChainEvent ChainEvent.Clash}
    (h : w.chainEvents.upsert? (fun e => e.txHash == (ingestChainEvent.args js input).txHash)
      ((ingestChainEvent.args js input).create.row id type)
      ((ingestChainEvent.args js input).update.apply type) = some table) :
    ({ w with chainEvents := table } : World).store
      = upserts.put w.store ((ingestChainEvent.args js input).create.row id type).content := by
  have hkey : upserts.key ((ingestChainEvent.args js input).create.row id type).content
      = (ingestChainEvent.args js input).txHash := rfl
  funext hash
  refine (congrArg (Option.map ChainEvent.content)
    (Table.find?_upsert_key h rfl (fun _ => rfl) hash)).trans ?_
  rw [Upserts.put, hkey, Function.update_apply]
  by_cases hhash : hash = (ingestChainEvent.args js input).txHash
  · rw [if_pos hhash, if_pos hhash]
    unfold Upserts.write World.store World.event?
    cases w.chainEvents.find? (fun e => e.txHash == (ingestChainEvent.args js input).txHash) with
    | none => rfl
    | some old => rfl
  · rw [if_neg hhash, if_neg hhash]
    rfl

/-- **One input is one upsert**, or nothing when it is not taken. -/
theorem ingest_put {x : Ingest} (hx : x.Of (ingestion js)) (hserved : Served js x) :
    x.after.store = upserts.batch x.before.store (x.op.content? js).toList := by
  obtain ⟨env, -, hreply, hafter⟩ := runs_perform_iff.mp
    (show Runs api (ingestChainEvent js x.op) x.before x.trace x.reply x.after from hx.runs)
  rcases serve_chainEventUpsert (ingestChainEvent.args js x.op) env x.before with ⟨err, hserve⟩ |
    ⟨created, updated, table, row, hcreated, hupdated, htable, hserve⟩
  · rw [hserve] at hreply hafter
    rcases hserved with ⟨row, hrow⟩ | hnone
    · rw [hrow] at hreply
      cases hreply
    · rw [hafter, hnone]
      rfl
  · -- the `type` and the `ledger` of `create` and of `update` are the same
    obtain rfl : created = updated := Option.some.inj (hcreated.symm.trans hupdated)
    have hcontent : x.op.content? js
        = some ((ingestChainEvent.args js x.op).create.row env.freshId created).content := by
      unfold IngestEventInput.content?
      rw [show validType x.op.type x.op.ledger = some created from hcreated]
      rfl
    rw [hserve] at hafter
    rw [hcontent, hafter]
    exact store_upsert htable

/-- **A list of inputs is a batch of upserts.** -/
theorem ingest_batch {xs : List Ingest}
    (h : History (ingestion js) (fun _ x => Served js x) w xs w') :
    w'.store = upserts.batch w.store ((xs.map (·.op)).filterMap (·.content? js)) := by
  refine h.invariant (J := fun xs w' =>
    w'.store = upserts.batch w.store ((xs.map (·.op)).filterMap (·.content? js))) rfl ?_ ?_
  · intro xs x hJ hx hserved
    rw [ingest_put hx hserved, hJ, List.map_append, List.filterMap_append, List.map_singleton]
    unfold Upserts.batch
    rw [List.foldl_append]
    cases hop : x.op.content? js with
    | none => rw [List.filterMap_cons_none hop, List.filterMap_nil, Option.toList_none]
    | some c => rw [List.filterMap_cons_some hop, List.filterMap_nil, Option.toList_some]
  · intro xs w₁ w₂ hJ hdrift
    rw [← hJ]
    funext hash
    unfold World.store World.event?
    rw [hdrift]

/-- The hashes after the list. -/
theorem ingest_oneRowEach {xs : List Ingest} (hnorm : Normalised js w)
    (h : History (ingestion js) (fun _ x => Served js x) w xs w') :
    OneRowEach js (xs.map (·.op)) w w' := by
  have hhashes : ∀ hash, (∃ row ∈ w'.chainEvents, row.txHash = hash)
      ↔ (∃ row ∈ w.chainEvents, row.txHash = hash)
        ∨ ∃ input ∈ xs.map (·.op), (input.content? js).isSome = true
            ∧ normalizeTxHash js input.txHash = hash := by
    intro hash
    rw [← isSome_store, ingest_batch h, Upserts.isSome_batch, isSome_store]
    refine or_congr_right ?_
    constructor
    · intro hc
      obtain ⟨c, hc, hkey⟩ := hc
      obtain ⟨input, hinput, hcontent⟩ := List.mem_filterMap.mp hc
      exact ⟨input, hinput, Option.isSome_iff_exists.mpr ⟨c, hcontent⟩,
        (key_of_content? hcontent).symm.trans hkey⟩
    · intro hc
      obtain ⟨input, hinput, hsome, hkey⟩ := hc
      obtain ⟨c, hcontent⟩ := Option.isSome_iff_exists.mp hsome
      exact ⟨c, List.mem_filterMap.mpr ⟨input, hinput, hcontent⟩,
        (key_of_content? hcontent).trans hkey⟩
  refine ⟨fun row hrow => ?_, fun a ha b hb heq => Table.eq_of_clash ha hb (.inr heq), hhashes⟩
  rcases (hhashes row.txHash).mp ⟨row, hrow, rfl⟩ with ⟨old, hold, heq⟩ | ⟨input, -, -, heq⟩
  · obtain ⟨hash, hhash⟩ := hnorm old hold
    exact ⟨hash, heq.symm.trans hhash⟩
  · exact ⟨input.txHash, heq.symm⟩

/-! ## §4. Twice. -/

/-- **Ingesting a list again changes nothing**: for every table with
normalised hashes and every list of inputs, the list ingested twice leaves the
rows that it leaves when ingested once, and one row for each hash. -/
theorem ingesting_twice (js : Builtins) (is : List IngestEventInput) (w w₁ w₂ w' : World)
    (xs ys zs : List Ingest) (hnorm : Normalised js w)
    (hfirst : History (ingestion js) (fun _ x => Served js x) w xs w₁) (hxs : xs.map (·.op) = is)
    (hsecond : History (ingestion js) (fun _ x => Served js x) w₁ ys w₂)
    (hys : ys.map (·.op) = is)
    (honce : History (ingestion js) (fun _ x => Served js x) w zs w') (hzs : zs.map (·.op) = is) :
    w₂.contents = w'.contents ∧ OneRowEach js is w w₂ ∧ OneRowEach js is w w' := by
  have hrow' : OneRowEach js is w w' := hzs ▸ ingest_oneRowEach hnorm honce
  have hstore : w₂.store = w'.store := by
    rw [ingest_batch hsecond, ingest_batch hfirst, ingest_batch honce, hxs, hys, hzs]
    exact overwriting_upserts.batch_batch _ _
  refine ⟨contents_of_store hstore, ?_, hrow'⟩
  -- the same hashes, as the stores are the same
  have hrow₁ : OneRowEach js is w w₁ := hxs ▸ ingest_oneRowEach hnorm hfirst
  have hrow₂ : OneRowEach js is w₁ w₂ := hys ▸ ingest_oneRowEach hrow₁.normalised hsecond
  refine ⟨hrow₂.normalised, hrow₂.unique, fun hash => ?_⟩
  rw [← hrow'.hashes, ← isSome_store, ← isSome_store, hstore]

end Ingestion

/-! ## §5. A scenario. -/

section Scenarios

open Shop

/-- A transaction reported twice, once in capitals and with a ledger. -/
def reports : List IngestEventInput :=
  [{ type := .string "subscribed", contractId := "C1", txHash := " AB12\n", ledger := some 7
     payload := .object [] },
   { type := .string "sub_paused", contractId := "C2", txHash := "ab12", ledger := none
     payload := .object [] }]

/-- Both reports, ingested in turn. -/
def reported (id : String) : List (IngestEventInput × List Env) :=
  reports.map (fun input => (input, [{ freshId := id }]))

/-- One row: the contract of the first report, the type of the last, and the
ledger of the one that has it. -/
theorem ingesting_twice_shop :
    ∃ w₁ w₂ xs ys, History (ingestion ascii) (fun _ x => Served ascii x) {} xs w₁
      ∧ xs.map (·.op) = reports
      ∧ History (ingestion ascii) (fun _ x => Served ascii x) w₁ ys w₂ ∧ ys.map (·.op) = reports
      ∧ w₂.chainEvents.rows.map (fun e => (e.type, e.contractId, e.txHash, e.ledger))
        = [("sub_paused", "C1", "ab12", some 7)]
      ∧ w₂.contents = w₁.contents ∧ OneRowEach ascii reports {} w₂ := by
  have hrun : ((ingestion ascii).play (fun _ x => x.reply.isOk) (reported "a") [] {}).bind
      (fun r => ((ingestion ascii).play (fun _ x => x.reply.isOk) (reported "b") [] r.2).map
        (fun r => r.2.chainEvents.rows.map (fun e => (e.type, e.contractId, e.txHash, e.ledger))))
      = some [("sub_paused", "C1", "ab12", some 7)] := by
    decide +kernel
  obtain ⟨⟨xs, w₁⟩, hfirst, hrest⟩ := Option.bind_eq_some_iff.mp hrun
  obtain ⟨⟨ys, w₂⟩, hsecond, hrows⟩ := Option.map_eq_some_iff.mp hrest
  have hok : ∀ (past : List Ingest) (x : Ingest), x.reply.isOk = true → Served ascii x := by
    intro past x hx
    cases hreply : x.reply with
    | error err =>
        rw [hreply] at hx
        cases hx
    | ok row => exact .inl ⟨row, hreply⟩
  have h₁ : History (ingestion ascii) (fun _ x => Served ascii x) {} xs w₁ :=
    Serial.play_history hok .start hfirst
  have h₂ : History (ingestion ascii) (fun _ x => Served ascii x) w₁ ys w₂ :=
    Serial.play_history hok .start hsecond
  have hxs : xs.map (·.op) = reports := Serial.play_ops hfirst
  have hys : ys.map (·.op) = reports := Serial.play_ops hsecond
  obtain ⟨hcontents, hrow, -⟩ := ingesting_twice ascii reports {} w₁ w₂ w₁ xs ys xs
    (fun row hrow => absurd hrow (Table.not_mem_of_nil rfl row)) h₁ hxs h₂ hys h₁ hxs
  exact ⟨w₁, w₂, xs, ys, h₁, hxs, h₂, hys, hrows, hcontents, hrow⟩

end Scenarios

end Sorobill.Indexer
