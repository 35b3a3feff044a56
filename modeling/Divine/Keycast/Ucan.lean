/-
This file embeds the validation of the UCAN bearer token: its decoding, its signature, its
expiry, the facts it carries and the two DIDs it names.
-/

import Divine.Keycast.Keys
import Divine.Library.Fallible

namespace Divine.Keycast

open Fallible

/-! ### Tokens -/

structure Ucan where
  issuer : String
  audience : String
  expiresAt : Nat
  facts : List Json

structure UcanLibrary where
  /-- `Ucan::try_from_token_string`, which does not verify the signature. -/
  tryFromTokenString : String → Except String Ucan
  /-- `Ucan::check_signature` with the service's DID parser. -/
  checkSignature : Ucan → Except String Unit
  /-- `Ucan::is_expired` at a time. -/
  isExpired : Ucan → DateTime → Bool

/-- What the handlers are configured with: the libraries and the server's public key. -/
structure Environment where
  crypto : Crypto
  ucan : UcanLibrary
  serverPubkey : String

variable (environment : Environment)

/-! ### DIDs -/

def secp256k1Multicodec : Bytes := [0xe7, 0x01]

def didToNostrPubkey (crypto : Crypto) (did : String) : Except String PublicKey := do
  let encoded ← okOr (stripLeading "did:key:z" did) "Invalid DID format"
  let decoded ← crypto.bs58Decode encoded
  require (secp256k1Multicodec.isPrefixOf decoded) "Not a secp256k1 key"
  match crypto.publicKeyFromSlice (decoded.drop 2) with
  | .ok key => .ok key
  | .error error => .error s!"Invalid public key: {error}"

/-! ### Facts -/

def findStringFact (facts : List Json) (name : String) : Option String :=
  facts.findSome? fun fact => (fact.get name).bind Json.asStr

def findTenantFact (facts : List Json) : Option Int :=
  facts.findSome? fun fact => (fact.get "tenant_id").bind Json.asI64

def checkTenant (facts : List Json) (expectedTenantId : Int) : Except String Unit :=
  if expectedTenantId = 0 then .ok ()
  else
    match findTenantFact facts with
    | some tenantId => require (tenantId = expectedTenantId) "Tenant mismatch"
    | none => .ok ()

/-! ### Validation -/

structure ValidatedToken where
  userPubkey : String
  redirectOrigin : String
  bunkerPubkey : Option String
  ucan : Ucan

def shortHex (text : String) : String := String.ofList (text.toList.take 8)

def issuerMessage (userHex serverHex issuerHex : String) : String :=
  s!"Invalid UCAN issuer: must be signed by user ({shortHex userHex}) or server " ++
    s!"({shortHex serverHex}), got {shortHex issuerHex}"

def checkIssuer (userHex issuerHex : String) : Except String Unit :=
  require (issuerHex = userHex || issuerHex = environment.serverPubkey)
    (issuerMessage userHex environment.serverPubkey issuerHex)

/-- The decoded token of a header, with its signature and expiry checked. -/
def openToken (now : DateTime) (authHeader : String) : Except String Ucan := do
  let token ← okOr (stripLeading "Bearer " authHeader) "Invalid Authorization header format"
  let ucan ← environment.ucan.tryFromTokenString token
  (environment.ucan.checkSignature ucan).mapError fun error =>
    s!"UCAN signature verification failed: {error}"
  require (!environment.ucan.isExpired ucan now) "Token expired"
  return ucan

def validateUcanToken (now : DateTime) (authHeader : String) (expectedTenantId : Int) :
    Except String ValidatedToken := do
  let ucan ← openToken environment now authHeader
  let redirectOrigin ← okOr (findStringFact ucan.facts "redirect_origin")
    "UCAN missing required redirect_origin fact"
  checkTenant ucan.facts expectedTenantId
  let userPubkey ← didToNostrPubkey environment.crypto ucan.audience
  let issuerPubkey ← didToNostrPubkey environment.crypto ucan.issuer
  checkIssuer environment userPubkey.toHex issuerPubkey.toHex
  return {
    userPubkey := userPubkey.toHex
    redirectOrigin := redirectOrigin
    bunkerPubkey := findStringFact ucan.facts "bunker_pubkey"
    ucan := ucan }

def isServerSigned (ucan : Ucan) : Bool :=
  match didToNostrPubkey environment.crypto ucan.issuer with
  | .ok issuer => issuer.toHex = environment.serverPubkey
  | .error _ => false

/-! ### What validation establishes -/

theorem validateUcanToken_eq_ok {now : DateTime} {authHeader : String} {expectedTenantId : Int}
    {validated : ValidatedToken}
    (accepted : validateUcanToken environment now authHeader expectedTenantId = .ok validated) :
    openToken environment now authHeader = .ok validated.ucan ∧
      validated.bunkerPubkey = findStringFact validated.ucan.facts "bunker_pubkey" ∧
      ∃ user, didToNostrPubkey environment.crypto validated.ucan.audience = .ok user ∧
        user.toHex = validated.userPubkey := by
  obtain ⟨ucan, opened, accepted⟩ := bind_eq_ok.mp accepted
  obtain ⟨origin, -, accepted⟩ := bind_eq_ok.mp accepted
  obtain ⟨-, -, accepted⟩ := bind_eq_ok.mp accepted
  obtain ⟨user, audience, accepted⟩ := bind_eq_ok.mp accepted
  obtain ⟨issuer, -, accepted⟩ := bind_eq_ok.mp accepted
  obtain ⟨-, -, accepted⟩ := bind_eq_ok.mp accepted
  have equal := pure_eq_ok.mp accepted
  subst equal
  exact ⟨opened, rfl, user, audience, rfl⟩

theorem openToken_eq_ok {now : DateTime} {authHeader : String} {ucan : Ucan} :
    openToken environment now authHeader = .ok ucan ↔
      ∃ token, stripLeading "Bearer " authHeader = some token ∧
        environment.ucan.tryFromTokenString token = .ok ucan ∧
        environment.ucan.checkSignature ucan = .ok () ∧
        environment.ucan.isExpired ucan now = false := by
  unfold openToken
  simp only [bind_eq_ok, okOr_eq_ok, mapError_eq_ok, require_eq_ok, pure_eq_ok,
    Bool.not_eq_true']
  constructor
  · rintro ⟨token, stripped, other, decoded, ⟨⟩, signed, ⟨⟩, alive, rfl⟩
    exact ⟨token, stripped, decoded, signed, alive⟩
  · rintro ⟨token, stripped, decoded, signed, alive⟩
    exact ⟨token, stripped, ucan, decoded, (), signed, (), alive, rfl⟩

/-- A token accepted at one time is accepted, with the same result, whenever it has not
expired. -/
theorem validateUcanToken_later {now later : DateTime} {authHeader : String}
    {expectedTenantId : Int} {validated : ValidatedToken}
    (accepted : validateUcanToken environment now authHeader expectedTenantId = .ok validated)
    (alive : environment.ucan.isExpired validated.ucan later = false) :
    validateUcanToken environment later authHeader expectedTenantId = .ok validated := by
  have opened := (validateUcanToken_eq_ok environment accepted).1
  have reopened : openToken environment later authHeader = .ok validated.ucan := by
    obtain ⟨token, stripped, decoded, signed, -⟩ := (openToken_eq_ok environment).mp opened
    exact (openToken_eq_ok environment).mpr ⟨token, stripped, decoded, signed, alive⟩
  unfold validateUcanToken at accepted ⊢
  rw [reopened]
  rw [opened] at accepted
  exact accepted

/-! ### A concrete instance -/

def sampleUcan (index : Nat) : Ucan where
  issuer := "did:key:z" ++ (sampleDids.getD index ("", 0)).1
  audience := "did:key:z" ++ (sampleDids.getD index ("", 0)).1
  expiresAt := 1000
  facts := [.object [
    ("redirect_origin", .string "https://app.example"),
    ("bunker_pubkey", .string (sampleKey 2))]]

def sampleUcanLibrary : UcanLibrary where
  tryFromTokenString token :=
    if token = "alice" then .ok (sampleUcan 0)
    else if token = "mallory" then .ok (sampleUcan 1)
    else .error "Unable to parse UCAN"
  checkSignature _ := .ok ()
  isExpired ucan now := ucan.expiresAt < now / 1000000

def sampleEnvironment : Environment where
  crypto := sampleCrypto
  ucan := sampleUcanLibrary
  serverPubkey := sampleKey 3

end Divine.Keycast
