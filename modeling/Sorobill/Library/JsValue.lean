/-
  Sorobill.Library.JsValue
  ────────────────────────
  **JAVASCRIPT VALUES OF TYPE `unknown`.**

  The values a decoded message can be: primitives, arrays, and plain objects
  as lists of own properties (the first entry of a key counts).  Members that
  arrays and objects inherit from the built-in prototypes (`length` apart)
  are not represented: no lookup here is made for one of their names.
-/
import Mathlib.Data.List.Basic

namespace JavaScript

/-- A number: rational, NaN or an infinity. -/
inductive JsNumber where
  | finite (q : Rat)
  | nan
  | infinity (negative : Bool)
  deriving DecidableEq

inductive JsValue where
  | undefined
  | null
  | bool (b : Bool)
  | number (n : JsNumber)
  | bigint (n : Int)
  | string (s : String)
  | array (elems : List JsValue)
  | object (props : List (String × JsValue))

namespace JsValue

/-- The index `0, 1, …` of an array that the key `k` names. -/
def arrayIndex (elems : List JsValue) (k : String) : Option Nat :=
  (List.range elems.length).find? (fun i => toString i == k)

/-- Property access `v[k]` on a value that is an object; `undefined` for a
missing property. -/
def prop : JsValue → String → JsValue
  | .object props, k => (props.lookup k).getD .undefined
  | .array elems, k =>
      if k = "length" then .number (.finite elems.length)
      else ((arrayIndex elems k).bind (elems[·]?)).getD .undefined
  | _, _ => .undefined

/-- The `in` operator: `k in v`. -/
def hasProp : JsValue → String → Bool
  | .object props, k => (props.lookup k).isSome
  | .array elems, k => k == "length" || (arrayIndex elems k).isSome
  | _, _ => false

/-- `v && typeof v === "object"`. -/
def isObject : JsValue → Bool
  | .array _ => true
  | .object _ => true
  | _ => false

/-- `v ?? w`. -/
def nullish : JsValue → JsValue → JsValue
  | .undefined, w => w
  | .null, w => w
  | v, _ => v

/-- `v === s` for a string `s`. -/
def isString : JsValue → String → Bool
  | .string t, s => t == s
  | _, _ => false

theorem isString_iff {v : JsValue} {s : String} :
    v.isString s = true ↔ v = .string s := by
  cases v <;> simp [isString]

section Conversion

-- how a number is written
variable (number : JsNumber → String)

mutual

/-- `String(v)`; `none` when it throws a `TypeError`: no member of an object is
a function, so that an own member `toString` leaves it without a conversion. -/
def toString? : JsValue → Option String
  | .undefined => some "undefined"
  | .null => some "null"
  | .bool b => some (if b then "true" else "false")
  | .number n => some (number n)
  | .bigint n => some (toString n)
  | .string s => some s
  | .array elems => (joined? elems).map (String.intercalate ",")
  | .object props => if (props.lookup "toString").isSome then none else some "[object Object]"

/-- The elements that `join` puts together; `undefined` and `null` are empty. -/
def joined? : List JsValue → Option (List String)
  | [] => some []
  | v :: vs => do
      let s ← match v with
        | .undefined => some ""
        | .null => some ""
        | v => v.toString?
      return s :: (← joined? vs)

end

@[simp] theorem toString?_string (s : String) : (JsValue.string s).toString? number = some s := by
  rw [toString?]

example : (JsValue.array [.object [("toString", .bool true)]]).toString? number = none := rfl

example : (JsValue.array [.null, .bool true, .array [.string "a", .undefined]]).toString? number
    = some ",true,a," := rfl

end Conversion

end JsValue

/-! ## Strings. -/

/-- `WhiteSpace` and `LineTerminator`. -/
def isWhiteSpace (c : Char) : Bool :=
  [0x09, 0x0A, 0x0B, 0x0C, 0x0D, 0x20, 0xA0, 0x1680, 0x2028, 0x2029, 0x202F, 0x205F, 0x3000,
    0xFEFF].contains c.toNat || (0x2000 ≤ c.toNat && c.toNat ≤ 0x200A)

/-- `s.trim()`. -/
def trim (s : String) : String :=
  String.ofList ((s.toList.dropWhile isWhiteSpace).reverse.dropWhile isWhiteSpace).reverse

/-- The longest prefix of at most `n` UTF-16 code units. -/
def takeUnits : Nat → List Char → List Char
  | _, [] => []
  | n, c :: cs =>
      let k := if c.val < 0x10000 then 1 else 2
      if k ≤ n then c :: takeUnits (n - k) cs else []

/-- `s.slice(0, n)`, without the half of a surrogate pair it may end with. -/
def sliceTo (n : Nat) (s : String) : String := String.ofList (takeUnits n s.toList)

end JavaScript
