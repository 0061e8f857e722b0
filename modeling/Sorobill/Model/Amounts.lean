/-
  Sorobill.Model.Amounts
  ──────────────────────
  **AMOUNTS**: `src/lib/amount.ts`, with numbers that are read exactly.
-/
import Sorobill.Library.Numeral
import Sorobill.Model.Plans

namespace Sorobill

open JavaScript (Numeric Number toFixed)
open Regex

/-- Convert decimal amount string to a number. -/
def parseAmount (amount : String) : Except Thrown Decimal :=
  match Number amount with
  | .finite n => if n.coeff < 0 then .error (.error s!"Invalid amount: {amount}") else .ok n
  | _ => .error (.error s!"Invalid amount: {amount}")

/-- `amounts.reduce((acc, a) => acc + parseAmount(a), 0)`, from `acc` on. -/
def sumAmounts.total (acc : Decimal) : List String → Except Thrown Decimal
  | [] => .ok acc
  | a :: amounts =>
      match parseAmount a with
      | .error err => .error err
      | .ok n => sumAmounts.total (acc + n) amounts

/-- `/\.?0+$/`, but for the end. -/
def trailingZeros : RegularExpression Char := opt (.char '.') * repeated (.char '0')

/-- `s.replace(/\.?0+$/, "")`. -/
def stripZeros (s : String) : String := String.ofList (cut trailingZeros s.toList)

def sumAmounts (amounts : List String) : Except Thrown String :=
  (sumAmounts.total 0 amounts).map (fun total => stripZeros (toFixed 7 (.finite total)))

example : sumAmounts ["1", "2.5", "0.0000001"] = .ok "3.5000001" := by decide +kernel

end Sorobill
