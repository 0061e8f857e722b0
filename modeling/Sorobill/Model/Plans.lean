/-
  Sorobill.Model.Plans
  ────────────────────
  **CREATING A PLAN**: `src/routes/plans.ts`.

  What the schema accepts is inserted as it is; the columns `intervalCount`,
  `trialDays` and `contractPlanId` are 32-bit integers.  The fields that no
  other part reads (`description`, `tokenContractId`, `metadata`) are left out.
-/
import Sorobill.Library.Regex
import Sorobill.Model.Operations
import Mathlib.Data.Rat.Cast.Order

namespace Sorobill

open JavaScript (JsNumber)
open Regex

/-! ## §1. `createPlanSchema`. -/

/-- A body whose fields have the declared types; an absent one is `none`. -/
structure CreatePlan where
  name : String
  amount : String
  assetCode : Option String := none
  assetIssuer : Option String := none
  interval : BillingInterval
  intervalCount : Option JsNumber := none
  trialDays : Option JsNumber := none
  merchantAddress : Option String := none
  contractPlanId : Option JsNumber := none

/-- `body.data`. -/
structure CreatePlanData where
  name : String
  amount : String
  assetCode : String
  assetIssuer : Option String
  interval : BillingInterval
  intervalCount : Int
  trialDays : Int
  merchantAddress : Option String
  contractPlanId : Option Int
  deriving DecidableEq

/-- `/^\d+(\.\d+)?$/`. -/
def amountRegex : RegularExpression Char :=
  repeated digit * opt (.char '.' * repeated digit)

/-- `Number.isInteger(n)`, with the integer. -/
def integer? : JsNumber → Option Int
  | .finite q => if q.den = 1 then some q.num else none
  | _ => none

/-- `n >= bound`. -/
def atLeast (bound : Rat) : JsNumber → Bool
  | .finite q => decide (bound ≤ q)
  | .nan => false
  | .infinity negative => !negative

/-- `n > 0`. -/
def positive : JsNumber → Bool
  | .finite q => decide (0 < q)
  | .nan => false
  | .infinity negative => !negative

/-- A check of the schema reports the path of its field. -/
def check (path : String) (ok : Bool) : List String := if ok then [] else [path]

namespace plans

/-- The paths of `body.error`, in the order of the checks. -/
def createPlanSchema.issues (body : CreatePlan) : List String :=
  check "name" (decide (1 ≤ utf16Length body.name))
    ++ check "amount" (test amountRegex body.amount)
    ++ check "intervalCount" (body.intervalCount.all (fun n => (integer? n).isSome))
    ++ check "intervalCount" (body.intervalCount.all positive)
    ++ check "trialDays" (body.trialDays.all (fun n => (integer? n).isSome))
    ++ check "trialDays" (body.trialDays.all (atLeast 0))
    ++ check "merchantAddress" (body.merchantAddress.all (fun s => utf16Length s == 56))
    ++ check "contractPlanId" (body.contractPlanId.all (fun n => (integer? n).isSome))
    ++ check "contractPlanId" (body.contractPlanId.all (atLeast 0))

/-- `createPlanSchema.safeParse(req.body)`; `none` is a failure. -/
def createPlanSchema (body : CreatePlan) : Option CreatePlanData :=
  if createPlanSchema.issues body = [] then
    some
      { name := body.name
        amount := body.amount
        assetCode := body.assetCode.getD "XLM"
        assetIssuer := body.assetIssuer
        interval := body.interval
        intervalCount := (body.intervalCount.bind integer?).getD 1
        trialDays := (body.trialDays.bind integer?).getD 0
        merchantAddress := body.merchantAddress
        contractPlanId := body.contractPlanId.bind integer? }
  else none

end plans

/-! ## §2. The row. -/

/-- An `Int` column. -/
def int4 (n : Int) : Bool := decide (-2147483648 ≤ n) && decide (n ≤ 2147483647)

/-- The row that `prisma.plan.create` inserts; without one it rejects. -/
def CreatePlanData.row (data : CreatePlanData) (id : String) : Option Plan :=
  if int4 data.intervalCount && int4 data.trialDays && data.contractPlanId.all int4 then
    some
      { id
        amount := data.amount
        assetCode := data.assetCode
        assetIssuer := data.assetIssuer
        interval := data.interval
        intervalCount := data.intervalCount
        trialDays := data.trialDays
        merchantAddress := data.merchantAddress
        contractPlanId := data.contractPlanId.map Int.toNat }
  else none

/-- **A stored plan**: a body that the schema accepts, and its row. -/
def plans.stored (body : CreatePlan) (id : String) : Option Plan :=
  (createPlanSchema body).bind (fun data => data.row id)

/-! ## §3. What a stored plan satisfies. -/

theorem check_eq_nil {path : String} {ok : Bool} : check path ok = [] ↔ ok = true := by
  unfold check
  cases ok <;> simp

theorem integer?_eq_some {n : JsNumber} {k : Int} : integer? n = some k ↔ n = .finite k := by
  cases n with
  | finite q =>
      unfold integer?
      dsimp only
      split
      next hden =>
        rw [Option.some.injEq, JsNumber.finite.injEq]
        constructor
        · rintro rfl
          exact Rat.ext rfl hden
        · rintro rfl
          rfl
      next hden =>
        simp only [reduceCtorEq, JsNumber.finite.injEq, false_iff]
        rintro rfl
        exact hden rfl
  | nan => simp [integer?]
  | infinity negative => simp [integer?]

/-- **What the schema accepts** meets its checks, the defaults included. -/
theorem createPlanSchema_accepts {body : CreatePlan} {data : CreatePlanData}
    (h : plans.createPlanSchema body = some data) :
    test amountRegex data.amount ∧ 1 ≤ data.intervalCount ∧ 0 ≤ data.trialDays := by
  unfold plans.createPlanSchema at h
  split at h
  next hissues =>
    cases h
    simp only [plans.createPlanSchema.issues, List.append_eq_nil_iff, check_eq_nil] at hissues
    obtain ⟨⟨⟨⟨⟨⟨⟨⟨-, hamount⟩, hcount⟩, hpositive⟩, hdays⟩, hleast⟩, -⟩, -⟩, -⟩ := hissues
    refine ⟨hamount, ?_, ?_⟩
    · cases hn : body.intervalCount with
      | none => exact le_rfl
      | some n =>
          rw [hn] at hcount hpositive
          obtain ⟨k, hk⟩ := Option.isSome_iff_exists.mp hcount
          obtain rfl := integer?_eq_some.mp hk
          have hpos : (0 : Rat) < k := of_decide_eq_true hpositive
          show 1 ≤ ((some (JsNumber.finite (k : Rat))).bind integer?).getD 1
          rw [Option.bind_some, hk]
          exact Int.add_one_le_iff.mpr (by exact_mod_cast hpos)
    · cases hn : body.trialDays with
      | none => exact le_rfl
      | some n =>
          rw [hn] at hdays hleast
          obtain ⟨k, hk⟩ := Option.isSome_iff_exists.mp hdays
          obtain rfl := integer?_eq_some.mp hk
          have hnonneg : (0 : Rat) ≤ k := of_decide_eq_true hleast
          show 0 ≤ ((some (JsNumber.finite (k : Rat))).bind integer?).getD 0
          rw [Option.bind_some, hk]
          exact_mod_cast hnonneg
  next => cases h

/-- **A stored plan** has a positive count, no negative trial, and an amount
that matches. -/
theorem stored_accepted {body : CreatePlan} {id : String} {plan : Plan}
    (h : plans.stored body id = some plan) :
    test amountRegex plan.amount ∧ 1 ≤ plan.intervalCount ∧ 0 ≤ plan.trialDays := by
  obtain ⟨data, haccepted, hrow⟩ := Option.bind_eq_some_iff.mp h
  unfold CreatePlanData.row at hrow
  split at hrow
  next =>
    cases hrow
    exact createPlanSchema_accepts haccepted
  next => cases hrow

end Sorobill
