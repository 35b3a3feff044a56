/-
This file embeds the handler of the HTTP signing path and the function that finds the
handler for a request: the cache keyed by a hash of the token, and behind it the slow path
that validates the token and loads an authorization, its policy and its user's key.
-/

import Divine.Keycast.Database
import Divine.Keycast.Ucan

namespace Divine.Keycast

open Fallible Table

/-! ### The handler -/

inductive HandlerError where
  | authorizationInvalid
  | permissionDenied
  | signing (error : String)
  | encryption (error : String)
  deriving DecidableEq

/-- `HttpRpcHandler`: a user's keys, with the permissions of the authorization of the load. -/
structure HttpRpcHandler where
  signing : Keys
  authorizationId : Nat
  userPubkey : PublicKey
  expiresAt : Option DateTime
  revokedAt : Option DateTime
  permissions : List CustomPermission
  isOAuth : Bool
  bunkerPubkey : CacheKey
  authorizationHandle : CacheKey
  /-- The user's key is taken from the keys the handler signs with. -/
  owned : userPubkey = signing.publicKey
  deriving DecidableEq

namespace HttpRpcHandler

def new (signing : Keys) (authorizationId : Nat) (expiresAt revokedAt : Option DateTime)
    (permissions : List CustomPermission) (isOAuth : Bool)
    (bunkerPubkey authorizationHandle : CacheKey) : HttpRpcHandler where
  signing := signing
  authorizationId := authorizationId
  userPubkey := signing.publicKey
  expiresAt := expiresAt
  revokedAt := revokedAt
  permissions := permissions
  isOAuth := isOAuth
  bunkerPubkey := bunkerPubkey
  authorizationHandle := authorizationHandle
  owned := rfl

variable (crypto : Crypto) (handler : HttpRpcHandler) (now : DateTime)

/-- Whether an expiry has passed, as the handler compares it. -/
def pastExpiry (expiresAt : Option DateTime) (now : DateTime) : Bool :=
  match expiresAt with
  | none => false
  | some expires => decide (expires < now)

def isValid : Bool := handler.revokedAt.isNone && !pastExpiry handler.expiresAt now

/-- The check of the three `validate_*_permission`: every cached permission must allow. -/
def validatePermission (operation : Operation) : Except HandlerError Unit :=
  if handler.permissions.isEmpty then .ok ()
  else require (handler.permissions.all fun permission =>
    permission.allows handler.userPubkey operation) .permissionDenied

def validateSignPermission (event : UnsignedEvent) : Except HandlerError Unit :=
  handler.validatePermission (.sign event)

def validateEncryptPermission (plaintext : String) (recipient : PublicKey) :
    Except HandlerError Unit :=
  handler.validatePermission (.encrypt plaintext recipient)

def validateDecryptPermission (ciphertext : String) (sender : PublicKey) :
    Except HandlerError Unit :=
  handler.validatePermission (.decrypt ciphertext sender)

def signEvent (event : UnsignedEvent) : Except HandlerError Event := do
  require (handler.isValid now) .authorizationInvalid
  handler.validateSignPermission event
  (crypto.sign handler.signing.secretKey event).mapError .signing

def encryptWith (scheme : SecretKey → PublicKey → String → Except String String)
    (recipient : PublicKey) (plaintext : String) : Except HandlerError String := do
  require (handler.isValid now) .authorizationInvalid
  handler.validateEncryptPermission plaintext recipient
  (scheme handler.signing.secretKey recipient plaintext).mapError .encryption

def decryptWith (scheme : SecretKey → PublicKey → String → Except String String)
    (sender : PublicKey) (ciphertext : String) : Except HandlerError String := do
  require (handler.isValid now) .authorizationInvalid
  handler.validateDecryptPermission ciphertext sender
  (scheme handler.signing.secretKey sender ciphertext).mapError .encryption

def nip44Encrypt := encryptWith handler now crypto.nip44Encrypt

def nip44Decrypt := decryptWith handler now crypto.nip44Decrypt

def nip04Encrypt := encryptWith handler now crypto.nip04Encrypt

def nip04Decrypt := decryptWith handler now crypto.nip04Decrypt

theorem validatePermission_eq_ok {operation : Operation} :
    handler.validatePermission operation = .ok () ↔
      operation ∈ allowance handler.permissions handler.userPubkey := by
  unfold validatePermission
  split
  · rename_i empty
    rw [List.isEmpty_iff.mp empty, allowance_nil]
    simp
  · rw [require_eq_ok, List.all_eq_true]
    rfl

end HttpRpcHandler

/-! ### Loading a handler -/

/-- The errors of the RPC endpoint that finding a handler can end in. -/
inductive RpcError where
  | invalidToken
  | internal (message : String)
  deriving DecidableEq

section

variable (environment : Environment) (database : Database)

def loadPermissions (policyId : Option Nat) : Except RpcError (List CustomPermission) :=
  match policyId with
  | none => .ok []
  | some id =>
    match database.getPermissions environment.crypto id with
    | .error error => .error (.internal s!"Database error loading permissions: {error}")
    | .ok permissions =>
      .ok (permissions.filterMap fun permission => permission.toCustomPermission.toOption)

def loadUserKeys (userPubkey missing : String) : Except RpcError Keys := do
  let encrypted ← okOr (database.findEncryptedKey userPubkey) (.internal missing)
  let decrypted ← (environment.crypto.decrypt encrypted).mapError fun error =>
    .internal s!"Decryption failed: {error}"
  let secret ← (environment.crypto.secretKeyFromSlice decrypted).mapError fun error =>
    .internal s!"Invalid secret key bytes: {error}"
  return environment.crypto.keys secret

def loadCacheKey (name text : String) : Except RpcError CacheKey :=
  (parseCacheKey environment.crypto text).mapError fun error =>
    .internal s!"Invalid {name}: {error.display}"

def loadHandleKey (handle : Option String) (bunkerKey : CacheKey) : Except RpcError CacheKey :=
  match handle with
  | some text => loadCacheKey environment "authorization_handle" text
  | none => .ok bunkerKey

def loadHandlerOnDemand (bunkerPubkeyHex : String) : Except RpcError HttpRpcHandler := do
  let row ← okOr (database.findByBunkerPubkey bunkerPubkeyHex) .invalidToken
  let permissions ← loadPermissions environment database row.policyId
  let keys ← loadUserKeys environment database row.userPubkey "Personal keys not found"
  let bunkerKey ← loadCacheKey environment "bunker_pubkey" bunkerPubkeyHex
  let handleKey ← loadHandleKey environment row.authorizationHandle bunkerKey
  return .new keys row.id row.expiresAt row.revokedAt permissions true bunkerKey handleKey

def loadPreloadedUserHandler (userPubkeyHex : String) (tenantId : Int) :
    Except RpcError HttpRpcHandler := do
  require (database.isUnclaimed userPubkeyHex tenantId = some true) .invalidToken
  let keys ← loadUserKeys environment database userPubkeyHex
    "Personal keys not found for preloaded user"
  let cacheKey ← loadCacheKey environment "user_pubkey" userPubkeyHex
  return .new keys 0 none none [] false cacheKey cacheKey

def selectHandler (tenantId : Int) (validated : ValidatedToken) :
    Except RpcError HttpRpcHandler :=
  match validated.bunkerPubkey with
  | some bunkerKeyHex => loadHandlerOnDemand environment database bunkerKeyHex
  | none =>
    if isServerSigned environment validated.ucan then
      loadPreloadedUserHandler environment database validated.userPubkey tenantId
    else .error .invalidToken

def slowPath (now : DateTime) (authHeader : String) (tenantId : Int) :
    Except RpcError HttpRpcHandler := do
  let validated ← (validateUcanToken environment now authHeader 0).mapError fun _ => .invalidToken
  let handler ← selectHandler environment database tenantId validated
  require (handler.isValid now) .invalidToken
  return handler

end

/-! ### The handler cache -/

abbrev HandlerCache := CacheKey → Option HttpRpcHandler

def computeTokenCacheKey (crypto : Crypto) (authHeader : String) : Option CacheKey :=
  (stripLeading "Bearer " authHeader).map crypto.blake3

def getHandler (environment : Environment) (database : Database) (cache : HandlerCache)
    (now : DateTime) (authHeader : String) (tenantId : Int) :
    Except RpcError HttpRpcHandler × HandlerCache :=
  match computeTokenCacheKey environment.crypto authHeader with
  | none => (.error .invalidToken, cache)
  | some key =>
    match cache key with
    | some handler =>
      if handler.isValid now then (.ok handler, cache)
      else (.error .invalidToken, Function.update cache key none)
    | none =>
      match slowPath environment database now authHeader tenantId with
      | .ok handler => (.ok handler, Function.update cache key (some handler))
      | .error error => (.error error, cache)

/-! ### Successful loads -/

section

variable {environment : Environment} {database : Database}

theorem loadUserKeys_eq_ok {userPubkey missing : String} {keys : Keys} :
    loadUserKeys environment database userPubkey missing = .ok keys ↔
      ∃ encrypted decrypted secret, database.findEncryptedKey userPubkey = some encrypted ∧
        environment.crypto.decrypt encrypted = .ok decrypted ∧
        environment.crypto.secretKeyFromSlice decrypted = .ok secret ∧
        environment.crypto.keys secret = keys := by
  unfold loadUserKeys
  simp only [bind_eq_ok, okOr_eq_ok, mapError_eq_ok, pure_eq_ok]
  constructor
  · rintro ⟨encrypted, found, decrypted, opened, secret, parsed, rfl⟩
    exact ⟨encrypted, decrypted, secret, found, opened, parsed, rfl⟩
  · rintro ⟨encrypted, decrypted, secret, found, opened, parsed, rfl⟩
    exact ⟨encrypted, found, decrypted, opened, secret, parsed, rfl⟩

theorem loadHandlerOnDemand_eq_ok {bunkerPubkeyHex : String} {handler : HttpRpcHandler} :
    loadHandlerOnDemand environment database bunkerPubkeyHex = .ok handler ↔
      ∃ row permissions keys bunkerKey handleKey,
        database.findByBunkerPubkey bunkerPubkeyHex = some row ∧
        loadPermissions environment database row.policyId = .ok permissions ∧
        loadUserKeys environment database row.userPubkey "Personal keys not found" = .ok keys ∧
        loadCacheKey environment "bunker_pubkey" bunkerPubkeyHex = .ok bunkerKey ∧
        loadHandleKey environment row.authorizationHandle bunkerKey = .ok handleKey ∧
        HttpRpcHandler.new keys row.id row.expiresAt row.revokedAt permissions true bunkerKey
          handleKey = handler := by
  unfold loadHandlerOnDemand
  simp only [bind_eq_ok, okOr_eq_ok, pure_eq_ok]
  constructor
  · rintro ⟨row, found, permissions, read, keys, loaded, bunkerKey, parsed, handleKey, named, rfl⟩
    exact ⟨row, permissions, keys, bunkerKey, handleKey, found, read, loaded, parsed, named, rfl⟩
  · rintro ⟨row, permissions, keys, bunkerKey, handleKey, found, read, loaded, parsed, named, rfl⟩
    exact ⟨row, found, permissions, read, keys, loaded, bunkerKey, parsed, handleKey, named, rfl⟩

theorem loadPreloadedUserHandler_eq_ok {userPubkeyHex : String} {tenantId : Int}
    {handler : HttpRpcHandler} :
    loadPreloadedUserHandler environment database userPubkeyHex tenantId = .ok handler ↔
      ∃ keys cacheKey, database.isUnclaimed userPubkeyHex tenantId = some true ∧
        loadUserKeys environment database userPubkeyHex
          "Personal keys not found for preloaded user" = .ok keys ∧
        loadCacheKey environment "user_pubkey" userPubkeyHex = .ok cacheKey ∧
        HttpRpcHandler.new keys 0 none none [] false cacheKey cacheKey = handler := by
  unfold loadPreloadedUserHandler
  simp only [bind_eq_ok, require_eq_ok, pure_eq_ok, decide_eq_true_eq]
  constructor
  · rintro ⟨-, unclaimed, keys, loaded, cacheKey, parsed, rfl⟩
    exact ⟨keys, cacheKey, unclaimed, loaded, parsed, rfl⟩
  · rintro ⟨keys, cacheKey, unclaimed, loaded, parsed, rfl⟩
    exact ⟨(), unclaimed, keys, loaded, cacheKey, parsed, rfl⟩

/-- The slow path succeeds when the token is valid, and a handler is selected that is valid. -/
theorem slowPath_eq_ok {now : DateTime} {authHeader : String} {tenantId : Int}
    {handler : HttpRpcHandler} :
    slowPath environment database now authHeader tenantId = .ok handler ↔
      ∃ validated, validateUcanToken environment now authHeader 0 = .ok validated ∧
        selectHandler environment database tenantId validated = .ok handler ∧
        handler.isValid now = true := by
  unfold slowPath
  simp only [bind_eq_ok, mapError_eq_ok, require_eq_ok, pure_eq_ok]
  constructor
  · rintro ⟨validated, accepted, other, selected, ⟨⟩, valid, rfl⟩
    exact ⟨validated, accepted, selected, valid⟩
  · rintro ⟨validated, accepted, selected, valid⟩
    exact ⟨validated, accepted, handler, selected, (), valid, rfl⟩

theorem getHandler_of_miss {cache : HandlerCache} {now : DateTime} {authHeader : String}
    {tenantId : Int} {key : CacheKey}
    (hashed : computeTokenCacheKey environment.crypto authHeader = some key)
    (miss : cache key = none) :
    (getHandler environment database cache now authHeader tenantId).1 =
      slowPath environment database now authHeader tenantId := by
  unfold getHandler
  rw [hashed]
  simp only [miss]
  cases slowPath environment database now authHeader tenantId <;> rfl

end

end Divine.Keycast
