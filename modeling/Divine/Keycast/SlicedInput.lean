/-
This file embeds three handlers with the slices they take of the texts of a request:
`validate_pkce`, `reset_password` and `connect_post`.
-/

import Divine.Keycast.Minting
import Divine.Library.Slices

namespace Divine.Keycast

open Fallible Slices Table

/-- The levels that are logged. -/
structure LogFilter where
  warn : Bool
  info : Bool
  deriving DecidableEq

/-! ### `validate_pkce` -/

section

variable (log : LogFilter) (crypto : Crypto) (verifier challenge : String)

def logMismatch : Except (Failure OAuthError) Unit :=
  logged log.warn do
    let _ ← slice (crypto.sha256Base64 verifier) 16
    let _ ← slice challenge 16
    return ()

def validatePkceLogged (method : String) : Except (Failure OAuthError) Unit :=
  if method = "S256" then do
    if crypto.sha256Base64 verifier ≠ challenge then
      logMismatch log crypto verifier challenge
      .error (.fails (.invalidRequest "Invalid code_verifier: PKCE validation failed"))
    else return ()
  else if method = "plain" then
    lift (require (verifier = challenge)
      (.invalidRequest "Invalid code_verifier: plain PKCE validation failed"))
  else .error (.fails (.invalidRequest s!"Unsupported code_challenge_method: {method}"))

end

/-! ### `reset_password` -/

/-- The columns of a row of `users` that a reset reads or writes. -/
structure ResettableUser where
  pubkey : String
  tenantId : Int
  passwordHash : Option String
  passwordResetToken : Option String
  passwordResetExpiresAt : Option DateTime
  emailVerified : Bool
  emailVerificationToken : Option String
  emailVerificationExpiresAt : Option DateTime
  deriving DecidableEq

structure ResetPasswordRequest where
  token : String
  newPassword : String
  deriving DecidableEq

structure ResetPasswordResponse where
  success : Bool
  message : String
  deriving DecidableEq

inductive ResetError where
  | invalidToken
  | passwordHash (error : String)
  deriving DecidableEq

def ResettableUser.reset (passwordHash : String) (user : ResettableUser) : ResettableUser :=
  { user with
    passwordHash := some passwordHash
    passwordResetToken := none
    passwordResetExpiresAt := none
    emailVerified := true
    emailVerificationToken := none
    emailVerificationExpiresAt := none }

section

variable (hashPassword : String → Except String String) (tenantId : Int) (now : DateTime)
  (users : List ResettableUser) (request : ResetPasswordRequest)

def applyReset : Except ResetError (List ResettableUser × ResetPasswordResponse) := do
  let user ← okOr (selectOne users fun user =>
    user.passwordResetToken = some request.token && user.tenantId = tenantId) .invalidToken
  if user.passwordResetExpiresAt.any fun expires => expires < now then
    return (users, ⟨false, "Password reset link has expired. Please request a new one."⟩)
  let passwordHash ← (hashPassword request.newPassword).mapError .passwordHash
  return (update users (fun row => row.pubkey = user.pubkey && row.tenantId = tenantId)
    (ResettableUser.reset passwordHash),
    ⟨true, "Password reset successfully! You can now log in with your new password."⟩)

def resetPassword (log : LogFilter) :
    Except (Failure ResetError) (List ResettableUser × ResetPasswordResponse) := do
  logSlice log.info request.token 10
  lift (applyReset hashPassword tenantId now users request)

end

/-! ### `connect_post` -/

structure ConnectApprovalForm where
  clientPubkey : String
  relay : String
  secret : String
  perms : Option String
  approved : Bool
  deriving DecidableEq

/-- The page a connection ends in. -/
inductive ConnectPage where
  | denied
  | connected
  deriving DecidableEq

/-- Whose authorization a connection creates. -/
structure ConnectGrant where
  user : String
  secretHash : String
  bunkerPublicKey : PublicKey
  deriving DecidableEq

def Database.findEncryptedKeyByTenant (database : Database) (tenantId : Int)
    (userPubkey : String) : Option Bytes :=
  (selectOne database.personalKeys fun key =>
    key.tenantId = tenantId && key.userPubkey = userPubkey).map PersonalKey.encryptedSecretKey

section

variable (environment : Environment) (hashSecret : String → Except String String)
  (tenantId : Int) (database : Database) (now : DateTime) (headers : Headers)
  (form : ConnectApprovalForm)

/-- What `connect_post` computes up to the name of the client. -/
def connectGrant : Except OAuthError ConnectGrant := do
  let user ← (extractUserFromToken environment now headers).mapError fun _ => .unauthorized
  let encrypted ← okOr (database.findEncryptedKeyByTenant tenantId user) .unauthorized
  let secretHash ← (hashSecret form.secret).mapError fun error =>
    .serverError s!"Failed to hash secret: {error}"
  let decrypted ← (environment.crypto.decrypt encrypted).mapError fun error =>
    .encryption s!"Failed to decrypt user key: {error}"
  let secretKey ← (environment.crypto.secretKeyFromSlice decrypted).mapError fun error =>
    .invalidRequest s!"Invalid secret key: {error}"
  return ⟨user, secretHash, (environment.crypto.deriveBunkerKeys secretKey secretHash).publicKey⟩

def connectParams (grant : ConnectGrant) (name handle : String) :
    Database.CreateOAuthAuthorizationParams where
  tenantId := tenantId
  userPubkey := grant.user
  redirectOrigin := s!"nostrconnect://{form.clientPubkey}"
  clientId := s!"nostr-login-{name}"
  bunkerPublicKey := grant.bunkerPublicKey.toHex
  secretHash := grant.secretHash
  policyId := none
  clientPubkey := some form.clientPubkey
  authorizationHandle := some handle
  handleExpiresAt := now + Database.thirtyDays

def connectPost (log : LogFilter) (handle : String) :
    Except (Failure OAuthError) (Database × ConnectPage) := do
  logSlice log.info form.clientPubkey 8
  if !form.approved then return (database, .denied)
  let grant ← lift (connectGrant environment hashSecret tenantId database now headers form)
  let name ← slice form.clientPubkey 12
  return (database.createOAuthAuthorization
    (connectParams tenantId now form grant name handle), .connected)

end

/-! ### Where the slices are -/

section

variable {log : LogFilter}

/-- The digest of a verifier is the base64 of thirty-two bytes. -/
def DigestsText (crypto : Crypto) : Prop :=
  ∀ verifier, (crypto.sha256Base64 verifier).toList.length = 43 ∧
    ∀ symbol ∈ (crypto.sha256Base64 verifier).toList, symbol.utf8Size = 1

theorem returns_logMismatch {crypto : Crypto} (digests : DigestsText crypto)
    {verifier challenge : String} :
    Returns (logMismatch log crypto verifier challenge) ↔
      (log.warn = true → Sliceable challenge 16) := by
  have own : Sliceable (crypto.sha256Base64 verifier) 16 :=
    sliceable_of_ascii (digests verifier).2 (by rw [(digests verifier).1]; decide)
  unfold logMismatch
  rw [returns_logged, returns_bind, returns_slice, and_iff_right own]
  refine imp_congr_right fun _ => ?_
  obtain ⟨taken, sliced⟩ := Option.isSome_iff_exists.mp (sliceTo_isSome_iff.mpr own)
  have first : (slice (crypto.sha256Base64 verifier) 16 : Except (Failure OAuthError) String) =
      .ok taken := by
    unfold slice
    rw [sliced]
    rfl
  have later : Returns (do
      let _ ← slice challenge 16
      return () : Except (Failure OAuthError) Unit) ↔ Sliceable challenge 16 := by
    rw [returns_bind, returns_slice]
    exact and_iff_left fun _ _ => returns_ok ()
  rw [← later]
  exact ⟨fun returns => returns taken first, fun returns _ _ => returns⟩

theorem returns_validatePkceLogged {crypto : Crypto} (digests : DigestsText crypto)
    {verifier challenge method : String} :
    Returns (validatePkceLogged log crypto verifier challenge method) ↔
      (method = "S256" → crypto.sha256Base64 verifier ≠ challenge → log.warn = true →
        Sliceable challenge 16) := by
  unfold validatePkceLogged
  by_cases digest : method = "S256"
  · rw [if_pos digest]
    by_cases matching : crypto.sha256Base64 verifier = challenge
    · rw [if_neg (not_not_intro matching)]
      exact iff_of_true (returns_ok ()) fun _ differs => absurd matching differs
    · rw [if_pos matching, returns_bind, returns_logMismatch digests]
      refine ⟨fun both _ _ => both.1, fun sliceable => ⟨sliceable digest matching, ?_⟩⟩
      exact nofun
  · rw [if_neg digest]
    refine iff_of_true ?_ fun same => absurd same digest
    split
    · exact returns_lift _
    · exact nofun

theorem returns_resetPassword {hashPassword : String → Except String String} {tenantId : Int}
    {now : DateTime} {users : List ResettableUser} {request : ResetPasswordRequest} :
    Returns (resetPassword hashPassword tenantId now users request log) ↔
      (log.info = true → Sliceable request.token 10) := by
  unfold resetPassword
  rw [returns_bind, returns_logSlice]
  exact and_iff_left fun _ _ => returns_lift _

section

variable {environment : Environment} {hashSecret : String → Except String String} {tenantId : Int}
  {database : Database} {now : DateTime} {headers : Headers} {form : ConnectApprovalForm}

/-- The token is a user's with a stored key that can be read, and the secret can be hashed. -/
structure ConnectsUser (environment : Environment) (hashSecret : String → Except String String)
    (tenantId : Int) (database : Database) (now : DateTime) (headers : Headers)
      (secret user : String)
    (encrypted decrypted : Bytes) (secretHash : String) (secretKey : SecretKey) : Prop where
  token : extractUserFromToken environment now headers = .ok user
  stored : database.findEncryptedKeyByTenant tenantId user = some encrypted
  hashed : hashSecret secret = .ok secretHash
  decrypts : environment.crypto.decrypt encrypted = .ok decrypted
  parses : environment.crypto.secretKeyFromSlice decrypted = .ok secretKey

theorem connectGrant_ok_iff :
    (∃ grant, connectGrant environment hashSecret tenantId database now headers form = .ok grant) ↔
      ∃ user encrypted decrypted secretHash secretKey, ConnectsUser environment hashSecret tenantId
        database now headers form.secret user encrypted decrypted secretHash secretKey := by
  unfold connectGrant
  simp only [bind_eq_ok, mapError_eq_ok, okOr_eq_ok, pure_eq_ok]
  constructor
  · rintro ⟨_, user, token, encrypted, stored, secretHash, hashed, decrypted, decrypts, secretKey,
      parses, -⟩
    exact ⟨user, encrypted, decrypted, secretHash, secretKey, token, stored, hashed,
      decrypts, parses⟩
  · rintro ⟨user, encrypted, decrypted, secretHash, secretKey, connects⟩
    exact ⟨_, user, connects.token, encrypted, connects.stored, secretHash, connects.hashed,
      decrypted, connects.decrypts, secretKey, connects.parses, rfl⟩

theorem returns_connectPost {handle : String} :
    Returns (connectPost environment hashSecret tenantId database now headers form log handle) ↔
      (log.info = true → Sliceable form.clientPubkey 8) ∧
        (form.approved = true → ∀ user encrypted decrypted secretHash secretKey,
          ConnectsUser environment hashSecret tenantId database now headers form.secret user
              encrypted decrypted secretHash secretKey →
            Sliceable form.clientPubkey 12) := by
  unfold connectPost
  rw [returns_bind, returns_logSlice]
  refine and_congr_right fun logs => ?_
  cases approved : form.approved with
  | false => exact iff_of_true (fun _ _ => returns_ok _) fun same => absurd same Bool.false_ne_true
  | true =>
    have named (grant : ConnectGrant) : Returns (do
        let name ← slice form.clientPubkey 12
        return (database.createOAuthAuthorization
          (connectParams tenantId now form grant name handle), ConnectPage.connected) :
          Except (Failure OAuthError) (Database × ConnectPage)) ↔
        Sliceable form.clientPubkey 12 := by
      rw [returns_bind, returns_slice]
      exact and_iff_left fun _ _ => returns_ok _
    constructor
    · intro returns _ user encrypted decrypted secretHash secretKey connects
      obtain ⟨grant, granted⟩ := connectGrant_ok_iff.mpr
        ⟨user, encrypted, decrypted, secretHash, secretKey, connects⟩
      exact (named grant).mp
        ((returns_bind.mp (returns () (logSlice_eq_ok logs))).2 grant (by rw [granted]; rfl))
    · intro sliceable _ _
      refine returns_bind.mpr ⟨returns_lift _, fun grant granted => (named grant).mpr ?_⟩
      obtain ⟨user, encrypted, decrypted, secretHash, secretKey, connects⟩ :=
        connectGrant_ok_iff.mp ⟨grant, mapError_eq_ok.mp granted⟩
      exact sliceable rfl user encrypted decrypted secretHash secretKey connects

end

/-- When the three handlers return: a challenge, a token and the key of a client are sliced where
they can be; the verifier and the secret are never sliced. -/
theorem handlers_return_iff {crypto : Crypto} (digests : DigestsText crypto) (log : LogFilter) :
    (∀ verifier challenge method,
      Returns (validatePkceLogged log crypto verifier challenge method) ↔
        (method = "S256" → crypto.sha256Base64 verifier ≠ challenge → log.warn = true →
          Sliceable challenge 16)) ∧
      (∀ hashPassword tenantId now users request,
        Returns (resetPassword hashPassword tenantId now users request log) ↔
          (log.info = true → Sliceable request.token 10)) ∧
      ∀ environment hashSecret tenantId database now headers form handle,
        Returns (connectPost environment hashSecret tenantId database now headers form log
            handle) ↔
          (log.info = true → Sliceable form.clientPubkey 8) ∧
            (form.approved = true → ∀ user encrypted decrypted secretHash secretKey,
              ConnectsUser environment hashSecret tenantId database now headers form.secret user
                  encrypted decrypted secretHash secretKey →
                Sliceable form.clientPubkey 12) :=
  ⟨fun _ _ _ => returns_validatePkceLogged digests, fun _ _ _ _ _ => returns_resetPassword,
    fun _ _ _ _ _ _ _ _ => returns_connectPost⟩

end

/-! ### Short texts -/

def defaultFilter : LogFilter where
  warn := true
  info := true

/-- The libraries, digesting one verifier and the empty text. -/
def pkceCrypto : Crypto :=
  { sampleCrypto with
    sha256Base64 := fun text =>
      if text = "dBjftJeZ4CVP-mB92K27uhbUJU1p1r_wW1gFWFOEjXk" then
        "E9Melhoa2OwvFrEMTJguCHaoeK1t8URWbuGJSstw-cM"
      else "47DEQpj8HBSa-_TImW-5JCeuQeRkm5NMpJWZG3hSuFU" }

theorem ascii_of_all {text : String}
    (checked : (text.toList.all fun symbol => symbol.utf8Size == 1) = true) :
    ∀ symbol ∈ text.toList, symbol.utf8Size = 1 := by
  intro symbol mem
  have passes := List.all_eq_true.mp checked symbol mem
  simpa using passes

theorem pkceCrypto_digests : DigestsText pkceCrypto := by
  intro verifier
  show (if verifier = _ then _ else _ : String).toList.length = 43 ∧ ∀ symbol ∈
    (if verifier = _ then _ else _ : String).toList, symbol.utf8Size = 1
  split
  · exact ⟨by decide +kernel, ascii_of_all (by decide +kernel)⟩
  · exact ⟨by decide +kernel, ascii_of_all (by decide +kernel)⟩

theorem handlers_return_sample :
    DigestsText pkceCrypto ∧
      Returns (validatePkceLogged defaultFilter pkceCrypto ""
        "E9Melhoa2OwvFrEMTJguCHaoeK1t8URWbuGJSstw-cM" "S256") := by
  refine ⟨pkceCrypto_digests,
    ((handlers_return_iff pkceCrypto_digests defaultFilter).1 _ _ _).mpr ?_⟩
  exact fun _ _ _ => sliceable_of_ascii (ascii_of_all (by decide +kernel)) (by decide +kernel)

/-- A challenge, a token and a key of fewer bytes than are sliced make the handlers panic. -/
theorem handlers_panic :
    ¬Returns (validatePkceLogged defaultFilter pkceCrypto "" "challenge" "S256") ∧
      ¬Returns (resetPassword .ok 1 0 [] ⟨"", "password"⟩ defaultFilter) ∧
      ¬Returns (connectPost sampleEnvironment .ok 1 sampleDatabase 0 ⟨none, none⟩
        ⟨"key", "wss://relay.example", "secret", none, false⟩ defaultFilter "handle") := by
  refine ⟨fun returns => returns ?_, fun returns => returns ?_, fun returns => returns ?_⟩
  · decide +kernel
  · rfl
  · rfl

end Divine.Keycast
