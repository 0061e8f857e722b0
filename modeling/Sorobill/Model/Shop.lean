/-
  Sorobill.Model.Shop
  ───────────────────
  **ONE PLAN, ONE SUBSCRIBER**: the data on which scenarios are evaluated.

  Time is counted in days since the epoch; the plan bills daily, and the
  subscription's current period runs from day 1 to day 2.
-/
import Sorobill.Model.Indexer
import Sorobill.Model.Signatures
import Sorobill.Rules.Serving

namespace Sorobill.Shop

open Relational

/-- Midnight of a day of the first thousand days. -/
def day (n : Nat) : Instant :=
  ⟨(n % 1000 : Nat) * msPerDay, by
    have := Nat.mod_lt n (show 0 < 1000 by decide)
    unfold maxTimeMs msPerDay
    omega⟩

theorem day_le {m n : Nat} : day m ≤ day n ↔ m % 1000 ≤ n % 1000 := by
  rw [Instant.le_def]
  show ((m % 1000 : Nat) : Int) * msPerDay ≤ (n % 1000 : Nat) * msPerDay ↔ _
  unfold msPerDay
  omega

/-- A configured backend, in test mode or live. -/
def cfg (testMode : Bool) : Config where
  billing := { testMode }
  stellar := { treasurySecretKey := "SECRET", subscriptionContractId := "CONTRACT" }
  publicKeyOfSecret _ := some "ADMIN"
  isAddress _ := true

def plan : Plan :=
  { id := "plan", amount := "10", interval := .DAILY, contractPlanId := some 1 }

def wallet : Wallet :=
  { id := "wallet", address := "GSUBSCRIBERAAAAAAAAAAAAAAAAAAAAAAAAAAAAAAAAAAAAAAAAAAAAA" }

def sub : Subscription :=
  { id := "sub"
    planId := "plan"
    walletId := "wallet"
    currentPeriodStart := day 1
    currentPeriodEnd := day 2
    updatedAt := day 1 }

/-- The subscription as a cycle reads it. -/
def subOn (plan : Plan) : SubscriptionWithPlan := { sub with plan, wallet }

/-- The job that a tick enqueues for the subscription. -/
def enqueued : JobQueue.Job String := ⟨billingJobId sub, "process-subscription", "sub", 0⟩

/-- The world with the given plan and subscription, and nothing else. -/
def world (plan : Plan) (sub : Subscription) : World where
  plans := ⟨[plan], List.pairwise_singleton _ _⟩
  wallets := ⟨[wallet], List.pairwise_singleton _ _⟩
  subscriptions := ⟨[sub], List.pairwise_singleton _ _⟩
  payments := .empty

/-- The world with the given plan, before anyone subscribes. -/
def opening (plan : Plan) : World :=
  { world plan sub with subscriptions := .empty }

/-- A run that has returned. -/
theorem ok_of_isOk {r : Except Thrown Unit} (h : r.isOk = true) : r = .ok () := by
  cases r with
  | error err => cases h
  | ok _ => rfl

/-- A call on day `n` that is answered. -/
def on (n : Nat) : Env := { now := day n }

/-- A call on day `n` that is rejected. -/
def rejected (n : Nat) : Env := { now := day n, rejects := some "down" }

/-- A call on day `n` that draws a fresh id. -/
def fresh (n : Nat) (id : String) : Env := { now := day n, freshIds := [id] }

/-- A call on day `n` that the network answers. -/
def answered (n : Nat) (network : Network) : Env := { now := day n, network }

/-- The calls of a live cycle that creates its payment on day `n`, up to the
network. -/
def charging (n : Nat) (pid : String) : List Env := [on n, on n, fresh n pid, on n, on n]

/-- The network confirms the charge. -/
def confirmed (n : Nat) (hash : String) : List Env :=
  [answered n .account, answered n (.simulated none), answered n (.accepted hash (some .Paid)),
   answered n (.polled (.SUCCESS (some (.string "Paid"))) (day n) []), on n, on n, on n]

/-- The RPC is down; the row is set to FAILED, and the handler goes on. -/
def unreachable (n : Nat) : List Env := [rejected n, on n, on n, on n, on n]

/-- An endpoint for what is emitted, and nothing else. -/
def registered : World :=
  { plans := .empty
    wallets := .empty
    subscriptions := .empty
    payments := .empty
    hooks :=
      { endpoints := ⟨[{ id := "endpoint", url := "https://merchant.example/hook"
                         secret := "whsec_0123456789", events := [.PAYMENT_SUCCESS] }],
          List.pairwise_singleton _ _⟩ } }

/-- The HMAC-SHA256 of the one event that is delivered to it. -/
def eventDigest : HexDigest where
  digits :=
    [8, 3, 13, 10, 11, 15, 3, 15, 10, 0, 13, 1, 13, 6, 8, 13, 10, 8, 11, 14, 8, 2, 4, 14, 5, 14,
     14, 13, 9, 3, 12, 7, 9, 14, 7, 10, 11, 14, 3, 6, 1, 9, 11, 3, 10, 7, 14, 12, 10, 3, 0, 14, 13,
     12, 6, 8, 1, 6, 7, 12, 1, 1, 2, 5]
  length_eq := rfl

/-- The built-in functions on this event; no number is converted. -/
def onEvent : Builtins where
  stringify _ := "\x7b\"id\":\"event\",\"type\":\"PAYMENT_SUCCESS\","
    ++ "\"createdAt\":\"1970-01-01T00:00:00.000Z\",\"data\":\x7b\x7d\x7d"
  digits _ := ""
  hmacSha256 _ _ := eventDigest.text

/-- The JSON text of the event of a first cycle, where it is the one event that
is delivered. -/
def webhook : Builtins where
  stringify _ := "\x7b\"id\":\"event\",\"type\":\"PAYMENT_SUCCESS\","
    ++ "\"createdAt\":\"1970-01-03T00:00:00.000Z\",\"data\":\x7b\"subscriptionId\":\"sub\","
    ++ "\"amount\":\"10\",\"assetCode\":\"XLM\",\"mode\":\"soroban\"\x7d\x7d"
  digits _ := ""
  hmacSha256 _ _ := ""

/-- Its HMAC-SHA256 under the secret of the endpoint. -/
def digest : HexDigest where
  digits :=
    [2, 10, 8, 15, 10, 4, 4, 5, 0, 0, 6, 14, 2, 13, 13, 13, 7, 5, 2, 14, 10, 2, 13, 12, 5, 8, 4, 1,
     7, 11, 15, 0, 10, 15, 9, 12, 0, 8, 10, 1, 9, 10, 7, 12, 8, 8, 4, 12, 5, 3, 4, 2, 7, 0, 2, 3,
     2, 13, 14, 6, 0, 11, 7, 10]
  length_eq := rfl

/-- Letters of ASCII; nothing is converted by `String`. -/
def ascii : Indexer.Builtins where
  string _ := ""
  toLowerCase s := String.ofList (s.toList.map Char.toLower)

/-- An event of the contract. -/
def event (type hash : String) (ledger : Int) : Indexer.SorobanEvent :=
  { topic := some [.string type], txHash := some hash, ledger := some ledger }

end Sorobill.Shop
