/-
  Sorobill.Model.Signatures
  ─────────────────────────
  **SIGNED WEBHOOKS**: `src/lib/webhook-crypto.ts`, and `signPayload` and
  `verifyWebhookSignature` of `src/services/webhook.service.ts`.

  The strings are sequences of UTF-16 code units.  The code is `createHmac`
  over any function to digests.
-/
import Sorobill.Library.Utf16
import Sorobill.Model.Deliveries

namespace Sorobill

open Utf16 (units encode)

/-! ## §1. `crypto`. -/

/-- A digest of 32 bytes, in hexadecimal digits. -/
structure HexDigest where
  digits : List (Fin 16)
  length_eq : digits.length = 64

/-- A lowercase hexadecimal digit. -/
def hexDigit (d : Fin 16) : Char := Nat.digitChar d

/-- `digest("hex")`. -/
def HexDigest.text (h : HexDigest) : String := String.ofList (h.digits.map hexDigit)

/-- `createHmac("sha256", secret).update(body)`. -/
abbrev Hmac : Type := List UInt16 → List UInt16 → HexDigest

/-- `timingSafeEqual(a, b)`. -/
def timingSafeEqual (a b : List UInt8) : Except Thrown Bool :=
  if a.length ≠ b.length then .error (.error "Input buffers must have the same byte length")
  else .ok (a == b)

/-! ## §2. `webhook-crypto`. -/

namespace webhookCrypto

def signWebhookPayload (hmac : Hmac) (secret body : List UInt16) : List UInt16 :=
  units (hmac secret body).text

def verifyWebhookSignature (hmac : Hmac) (secret body signature : List UInt16) :
    Except Thrown Bool :=
  let expected := signWebhookPayload hmac secret body
  -- `Buffer.from(…, "utf8")`
  let a := encode expected
  let b := encode signature
  if a.length ≠ b.length then .ok false else timingSafeEqual a b

end webhookCrypto

/-! ## §3. `webhook.service`. -/

namespace webhookService

def signPayload (hmac : Hmac) (body secret : List UInt16) : List UInt16 :=
  webhookCrypto.signWebhookPayload hmac secret body

def verifyWebhookSignature (hmac : Hmac) (body signature secret : List UInt16) :
    Except Thrown Bool :=
  webhookCrypto.verifyWebhookSignature hmac secret body signature

end webhookService

/-- The built-ins of `deliverWebhook`, whose strings have no lone surrogates,
with the digests of `hmac`. -/
def Builtins.signing (js : Builtins) (hmac : Hmac) : Builtins :=
  { js with hmacSha256 := fun secret body => (hmac (units secret) (units body)).text }

end Sorobill
