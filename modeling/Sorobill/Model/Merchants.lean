/-
  Sorobill.Model.Merchants
  ────────────────────────
  **DASHBOARDS**: the statistics of `src/routes/merchants.ts`.

  A request makes its queries and computes a reply from the rows; what Prisma
  may answer is a relation to the table.
-/
import Sorobill.Library.Grouping
import Sorobill.Library.Numeral
import Sorobill.Model.Schema

namespace Sorobill

open JavaScript (Numeric parseFloat toFixed)

/-- A payment with the column `createdAt`. -/
structure StoredPayment extends Payment where
  createdAt : Instant

namespace merchants

/-! ## §1. Queries. -/

/-- `where` of the payments: SUCCESS, of a subscription to one of the plans,
and not created before `since`, if that is given. -/
def counts (subscriptions : List Subscription) (planIds : List String) (since : Option Instant)
    (p : StoredPayment) : Bool :=
  p.status == .SUCCESS
    && subscriptions.any (fun s => s.id == p.subscriptionId && planIds.contains s.planId)
    && since.all (fun t => decide (t ≤ p.createdAt))

/-- What `findMany` may answer: the rows that are selected, in any order. -/
def Answers (selects : StoredPayment → Bool) (rows payments : List StoredPayment) : Prop :=
  payments.Perm (rows.filter selects)

/-- `orderBy: { createdAt: "asc" }`. -/
def Ascending (payments : List StoredPayment) : Prop :=
  payments.Pairwise (fun p q => p.createdAt ≤ q.createdAt)

/-- `where: { merchantAddress: req.params.address }`. -/
def plansOf (address : String) (plans : List Plan) : List Plan :=
  plans.filter (·.merchantAddress == some address)

/-! ## §2. `GET /:address/revenue`. -/

/-- `parseFloat(p.amount || "0")`. -/
def amountOf (p : StoredPayment) : Numeric := parseFloat (if p.amount = "" then "0" else p.amount)

/-- `p.createdAt.toISOString().slice(0, 10)`. -/
def dayOf (p : StoredPayment) : String := JavaScript.sliceTo 10 p.createdAt.toISOString

/-- The `Map` after the loop. -/
def revenue.buckets (payments : List StoredPayment) : List (String × Numeric) :=
  payments.foldl (fun buckets p => Grouping.add (dayOf p) (amountOf p) buckets) []

def revenue (planIds : List String) (payments : List StoredPayment) : List (String × String) :=
  if planIds = [] then []
  else (revenue.buckets payments).map (fun bucket => (bucket.1, toFixed 2 bucket.2))

/-! ## §3. `GET /:address/stats`. -/

structure Stats where
  activePlans : Nat
  activeSubscribers : Nat
  revenueTotal : String
  successfulPayments : Nat
  deriving DecidableEq

/-- The subscriptions that a plan is included with. -/
def includes (plan : Plan) (s : Subscription) : Bool :=
  s.planId == plan.id && [.ACTIVE, .TRIALING, .PAST_DUE].contains s.status

/-- `payments.reduce((sum, p) => sum + parseFloat(p.amount || "0"), 0)`. -/
def stats.revenue (payments : List StoredPayment) : Numeric :=
  payments.foldl (fun sum p => sum + amountOf p) (.finite 0)

def stats (plans : List Plan) (subscriptions : List Subscription)
    (payments : List StoredPayment) : Stats :=
  { activePlans := (plans.filter (·.isActive)).length
    activeSubscribers :=
      plans.foldl (fun n plan => n + (subscriptions.filter (includes plan)).length) 0
    revenueTotal := toFixed 2 (stats.revenue payments)
    successfulPayments := payments.length }

end merchants

end Sorobill
