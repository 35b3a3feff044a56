/-
This file gives the keys the service handles and the code outside the repository that
works on them: the key manager, the curve, the Nostr encryption schemes, bcrypt, SHA-256,
hexadecimal and JSON text.
-/

import Divine.Keycast.Permission

namespace Divine.Keycast

abbrev Bytes := List UInt8

/-- A `DateTime<Utc>`, in microseconds since the epoch. -/
abbrev DateTime := Nat

/-! ### Keys -/

structure SecretKey where
  bytes : Bytes
  deriving DecidableEq

structure Keys where
  secretKey : SecretKey
  publicKey : PublicKey
  deriving DecidableEq

structure Event where
  id : String
  unsigned : UnsignedEvent
  sig : String
  deriving DecidableEq

structure CacheKey where
  bytes : Bytes
  size : bytes.length = 32
  deriving DecidableEq

/-! ### Code outside the repository -/

/-- The libraries the handlers call. Each function that may fail reports its error as text. -/
structure Crypto where
  /-- `KeyManager::encrypt` and `KeyManager::decrypt`. -/
  encrypt : Bytes → Except String Bytes
  decrypt : Bytes → Except String Bytes
  /-- `SecretKey::from_slice`. -/
  secretKeyFromSlice : Bytes → Except String SecretKey
  /-- The public key of a secret key. -/
  publicKey : SecretKey → PublicKey
  /-- `PublicKey::from_slice` and `PublicKey::from_hex`. -/
  publicKeyFromSlice : Bytes → Except String PublicKey
  publicKeyFromHex : String → Except String PublicKey
  /-- The HKDF derivation of `derive_bunker_keys`. -/
  deriveBunkerKeys : SecretKey → String → Keys
  /-- `Keys::sign` of an unsigned event. -/
  sign : SecretKey → UnsignedEvent → Except String Event
  /-- `EventBuilder::sign_with_keys`, given the event's kind, tags, content and time. -/
  buildEvent : Keys → UnsignedEvent → Except String Event
  /-- `Tag::parse`. -/
  parseTag : List String → Except String (List String)
  nip44Encrypt : SecretKey → PublicKey → String → Except String String
  nip44Decrypt : SecretKey → PublicKey → String → Except String String
  nip04Encrypt : SecretKey → PublicKey → String → Except String String
  nip04Decrypt : SecretKey → PublicKey → String → Except String String
  /-- `bcrypt::verify`. -/
  verifySecret : String → String → Bool
  /-- The hexadecimal SHA-256 of a text, and its unpadded URL-safe base64. -/
  sha256Hex : String → String
  sha256Base64 : String → String
  /-- The BLAKE3 hash of a text. -/
  blake3 : String → CacheKey
  hexDecode : String → Except String Bytes
  bs58Decode : String → Except String Bytes
  /-- `serde_json::from_str`, `Value::to_string` and the rendering of a signed event. -/
  parseJson : String → Except String Json
  renderJson : Json → String
  renderEvent : Event → String

variable (crypto : Crypto)

def Crypto.keys (secret : SecretKey) : Keys where
  secretKey := secret
  publicKey := crypto.publicKey secret

@[simp] theorem Crypto.keys_publicKey (secret : SecretKey) :
    (crypto.keys secret).publicKey = crypto.publicKey secret := rfl

inductive SessionError where
  | invalidKeyLength
  | hexDecode (error : String)
  deriving DecidableEq

def SessionError.display : SessionError → String
  | invalidKeyLength => "invalid key length (expected 32 bytes)"
  | hexDecode error => s!"hex decode error: {error}"

def parseCacheKey (text : String) : Except SessionError CacheKey :=
  match crypto.hexDecode text with
  | .error error => .error (.hexDecode error)
  | .ok bytes => if size : bytes.length = 32 then .ok ⟨bytes, size⟩ else .error .invalidKeyLength

/-! ### A concrete instance -/

def hexDigit (digit : Char) : Except String UInt8 :=
  if '0' ≤ digit ∧ digit ≤ '9' then .ok (UInt8.ofNat (digit.toNat - 48))
  else if 'a' ≤ digit ∧ digit ≤ 'f' then .ok (UInt8.ofNat (digit.toNat - 87))
  else if 'A' ≤ digit ∧ digit ≤ 'F' then .ok (UInt8.ofNat (digit.toNat - 55))
  else .error "Invalid character"

def hexBytes : List Char → Except String Bytes
  | [] => .ok []
  | [_] => .error "Odd number of digits"
  | high :: low :: rest => do
    let first ← hexDigit high
    let second ← hexDigit low
    let bytes ← hexBytes rest
    return (first * 16 + second) :: bytes

def sampleKeys : List String := [
  "79be667ef9dcbbac55a06295ce870b07029bfcdb2dce28d959f2815b16f81798",
  "c6047f9441ed7d6d3045406e95c07cd85c778e4b8cef3ca7abac09b95c709ee5",
  "f9308a019258c31049344f85f89d5229b531c845836f99b08601f113bce036f9",
  "e493dbf1c10d80f3581e4904930b1404cc6c13900ee0758474fa94abe8c4cd13"]

def sampleKey (index : Nat) : String := sampleKeys.getD index ""

def sampleSecret (value : UInt8) : Bytes := List.replicate 31 0 ++ [value]

def sampleDids : List (String × Nat) := [
  ("6DtVyzV64HdAwmi4yw51hLzZicYDKRfWJTYf2UkA2Fgb12X", 0),
  ("6Dtb7jTvumgvjGQWJ1x4tgfaxM48cJngTcyNBhaha3CJufa", 1)]

def sampleEncrypt (scheme text : String) : Except String String := .ok (scheme ++ text)

def sampleDecrypt (scheme text : String) : Except String String :=
  match stripLeading scheme text with
  | some plain => .ok plain
  | none => .error "invalid payload"

def sampleCrypto : Crypto where
  encrypt bytes := .ok (bytes.map fun byte => byte ^^^ 0x5a)
  decrypt bytes := .ok (bytes.map fun byte => byte ^^^ 0x5a)
  secretKeyFromSlice bytes :=
    if bytes.length = 32 then .ok ⟨bytes⟩ else .error "malformed or out-of-range secret key"
  publicKey secret := ⟨sampleKey ((secret.bytes.getLastD 0).toNat - 1)⟩
  publicKeyFromSlice bytes :=
    match sampleKeys.find? fun key => (hexBytes key.toList).toOption = some bytes with
    | some key => .ok ⟨key⟩
    | none => .error "malformed public key"
  publicKeyFromHex text :=
    if text ∈ sampleKeys then .ok ⟨text⟩ else .error "malformed public key"
  deriveBunkerKeys _ _ := ⟨⟨sampleSecret 3⟩, ⟨sampleKey 2⟩⟩
  sign _ event := .ok ⟨"id", event, "sig"⟩
  buildEvent _ event := .ok ⟨"id", event, "sig"⟩
  parseTag := .ok
  nip44Encrypt _ _ := sampleEncrypt "nip44:"
  nip44Decrypt _ _ := sampleDecrypt "nip44:"
  nip04Encrypt _ _ := sampleEncrypt "nip04:"
  nip04Decrypt _ _ := sampleDecrypt "nip04:"
  verifySecret provided hash := hash = "$2b$" ++ provided
  sha256Hex text := "sha256:" ++ text
  sha256Base64 text :=
    if text = "dBjftJeZ4CVP-mB92K27uhbUJU1p1r_wW1gFWFOEjXk" then
      "E9Melhoa2OwvFrEMTJguCHaoeK1t8URWbuGJSstw-cM"
    else ""
  blake3 text :=
    ⟨(text.toList.map
      (fun letter : Char => UInt8.ofNat letter.toNat) ++ List.replicate 32 0).take 32,
      by simp⟩
  hexDecode text := hexBytes text.toList
  bs58Decode text :=
    match sampleDids.lookup text with
    | some index => (hexBytes (sampleKey index).toList).map fun bytes => 0xe7 :: 0x01 :: bytes
    | none => .error "invalid base58"
  parseJson text :=
    if text = "\x7b\x7d" then .ok (.object []) else .error "expected value"
  renderJson _ := ""
  renderEvent event := event.id

end Divine.Keycast
