/-
This file settles whose key the HTTP signing path signs with.
-/

import Divine.Keycast.HttpRpc

namespace Divine.Keycast

open Fallible Table

variable {environment : Environment} {database : Database}

/-! ### Whose key is loaded -/

section

variable (intact : KeysIntact environment.crypto database)

include intact

theorem loadUserKeys_owner {userPubkey missing : String} {keys : Keys}
    (loaded : loadUserKeys environment database userPubkey missing = .ok keys) :
    keys.publicKey.toHex = userPubkey := by
  obtain ⟨encrypted, decrypted, secret, found, opened, parsed, rfl⟩ :=
    loadUserKeys_eq_ok.mp loaded
  obtain ⟨row, selected, rfl⟩ := Option.map_eq_some_iff.mp found
  have holds : row.secret environment.crypto = some secret :=
    PersonalKey.secret_eq_some.mpr ⟨decrypted, opened, parsed⟩
  have owner := intact row (selectOne_mem selected) secret holds
  have named : row.userPubkey = userPubkey := by
    simpa using selectOne_condition selected
  rw [Crypto.keys_publicKey, owner, named]

theorem selectHandler_owner_of_none {tenantId : Int} {validated : ValidatedToken}
    {handler : HttpRpcHandler}
    (unnamed : validated.bunkerPubkey = none)
    (selected : selectHandler environment database tenantId validated = .ok handler) :
    handler.userPubkey.toHex = validated.userPubkey := by
  unfold selectHandler at selected
  rw [unnamed] at selected
  simp only at selected
  split at selected
  · obtain ⟨keys, cacheKey, -, loaded, -, rfl⟩ := loadPreloadedUserHandler_eq_ok.mp selected
    exact loadUserKeys_owner intact loaded
  · cases selected

theorem selectHandler_owner_of_some {tenantId : Int} {validated : ValidatedToken}
    {handler : HttpRpcHandler} {bunker : String}
    (named : validated.bunkerPubkey = some bunker)
    (selected : selectHandler environment database tenantId validated = .ok handler) :
    ∃ row, database.findByBunkerPubkey bunker = some row ∧
      handler.userPubkey.toHex = row.userPubkey := by
  unfold selectHandler at selected
  rw [named] at selected
  obtain ⟨row, permissions, keys, bunkerKey, handleKey, found, -, loaded, -, -, rfl⟩ :=
    loadHandlerOnDemand_eq_ok.mp selected
  exact ⟨row, found, loadUserKeys_owner intact loaded⟩

end

/-- A stored authorization that can be turned into a handler: neither revoked nor expired, with a
policy, a key and cache keys that can be read. -/
structure Loadable (environment : Environment) (database : Database) (now : DateTime)
    (row : OAuthAuthorization) : Prop where
  unrevoked : row.revokedAt = none
  unexpired : ∀ expires, row.expiresAt = some expires → now ≤ expires
  policy : ∀ policyId, row.policyId = some policyId →
    ∃ permissions, database.getPermissions environment.crypto policyId = .ok permissions
  secret : ∃ encrypted decrypted secret,
    database.findEncryptedKey row.userPubkey = some encrypted ∧
      environment.crypto.decrypt encrypted = .ok decrypted ∧
      environment.crypto.secretKeyFromSlice decrypted = .ok secret
  bunkerKey : ∃ key, parseCacheKey environment.crypto row.bunkerPublicKey = .ok key
  handleKey : ∀ handle, row.authorizationHandle = some handle →
    ∃ key, parseCacheKey environment.crypto handle = .ok key

theorem Loadable.selectHandler {now : DateTime} {row : OAuthAuthorization}
    (loadable : Loadable environment database now row) (tenantId : Int)
    {validated : ValidatedToken} {bunker : String} (named : validated.bunkerPubkey = some bunker)
    (found : database.findByBunkerPubkey bunker = some row) :
    ∃ handler, selectHandler environment database tenantId validated = .ok handler ∧
      handler.isValid now = true := by
  have same : row.bunkerPublicKey = bunker := by simpa using selectOne_condition found
  obtain ⟨permissions, read⟩ : ∃ permissions,
      loadPermissions environment database row.policyId = .ok permissions := by
    cases policy : row.policyId with
    | none => exact ⟨[], rfl⟩
    | some policyId =>
      obtain ⟨stored, fetched⟩ := loadable.policy policyId policy
      unfold loadPermissions
      simp only [fetched]
      exact ⟨_, rfl⟩
  obtain ⟨encrypted, decrypted, secret, stored, opened, parsed⟩ := loadable.secret
  have loaded : loadUserKeys environment database row.userPubkey "Personal keys not found" =
      .ok (environment.crypto.keys secret) :=
    loadUserKeys_eq_ok.mpr ⟨encrypted, decrypted, secret, stored, opened, parsed, rfl⟩
  obtain ⟨bunkerKey, bunkerParsed⟩ := loadable.bunkerKey
  rw [same] at bunkerParsed
  obtain ⟨handleKey, handleParsed⟩ : ∃ handleKey,
      loadHandleKey environment row.authorizationHandle bunkerKey = .ok handleKey := by
    cases handle : row.authorizationHandle with
    | none => exact ⟨bunkerKey, rfl⟩
    | some text =>
      obtain ⟨key, textParsed⟩ := loadable.handleKey text handle
      exact ⟨key, mapError_eq_ok.mpr textParsed⟩
  refine ⟨.new (environment.crypto.keys secret) row.id row.expiresAt row.revokedAt permissions
    true bunkerKey handleKey, ?_, ?_⟩
  · unfold Keycast.selectHandler
    rw [named]
    exact loadHandlerOnDemand_eq_ok.mpr ⟨row, permissions, _, bunkerKey, handleKey, found, read,
      loaded, mapError_eq_ok.mpr bunkerParsed, handleParsed, rfl⟩
  · have alive : HttpRpcHandler.pastExpiry row.expiresAt now = false := by
      cases expiry : row.expiresAt with
      | none => rfl
      | some expires => exact decide_eq_false (Nat.not_lt.mpr (loadable.unexpired expires expiry))
    show (row.revokedAt.isNone && !HttpRpcHandler.pastExpiry row.expiresAt now) = true
    rw [loadable.unrevoked, alive]
    rfl

theorem loadable_of_selectHandler {now : DateTime} {tenantId : Int} {validated : ValidatedToken}
    {handler : HttpRpcHandler} {bunker : String} (named : validated.bunkerPubkey = some bunker)
    (selected : selectHandler environment database tenantId validated = .ok handler)
    (valid : handler.isValid now = true) {row : OAuthAuthorization}
    (found : database.findByBunkerPubkey bunker = some row) :
    Loadable environment database now row := by
  have same : row.bunkerPublicKey = bunker := by simpa using selectOne_condition found
  unfold selectHandler at selected
  rw [named] at selected
  obtain ⟨other, permissions, keys, bunkerKey, handleKey, refound, read, loaded, bunkerParsed,
    handleParsed, rfl⟩ := loadHandlerOnDemand_eq_ok.mp selected
  obtain rfl : row = other := Option.some.inj (found.symm.trans refound)
  have both : row.revokedAt.isNone = true ∧
      (!HttpRpcHandler.pastExpiry row.expiresAt now) = true := Bool.and_eq_true_iff.mp valid
  refine ⟨Option.isNone_iff_eq_none.mp both.1, ?_, ?_, ?_, ⟨bunkerKey, ?_⟩, ?_⟩
  · intro expires expiry
    have alive := both.2
    rw [expiry, Bool.not_eq_true'] at alive
    exact Nat.not_lt.mp (of_decide_eq_false alive)
  · intro policyId policy
    unfold loadPermissions at read
    rw [policy] at read
    cases fetched : database.getPermissions environment.crypto policyId with
    | error error => simp [fetched] at read
    | ok stored => exact ⟨stored, rfl⟩
  · obtain ⟨encrypted, decrypted, secret, stored, opened, parsed, -⟩ :=
      loadUserKeys_eq_ok.mp loaded
    exact ⟨encrypted, decrypted, secret, stored, opened, parsed⟩
  · rw [same]
    exact mapError_eq_ok.mp bunkerParsed
  · intro handle present
    rw [present] at handleParsed
    exact ⟨handleKey, mapError_eq_ok.mp handleParsed⟩

/-! ### Two users -/

def sampleDatabase : Database :=
  { Database.empty with
    users := [
      ⟨sampleKey 0, 1, some "alice@example.com", none, true⟩,
      ⟨sampleKey 1, 1, some "mallory@example.com", none, true⟩]
    personalKeys := [
      ⟨sampleKey 0, (sampleSecret 1).map fun byte => byte ^^^ 0x5a, 1⟩,
      ⟨sampleKey 1, (sampleSecret 2).map fun byte => byte ^^^ 0x5a, 1⟩]
    oauthAuthorizations := [{
      id := 1
      userPubkey := sampleKey 0
      redirectOrigin := "https://app.example"
      clientId := some "App"
      bunkerPublicKey := sampleKey 2
      secretHash := "$2b$secret"
      policyId := none
      tenantId := 1
      clientPubkey := none
      connectedClientPubkey := none
      revokedAt := none
      expiresAt := none
      handleExpiresAt := 1000000
      authorizationHandle := none }]
    oauthAuthorizationsSeq := 2 }

theorem sampleDatabase_keysIntact : KeysIntact sampleEnvironment.crypto sampleDatabase := by
  intro row member secret holds
  obtain ⟨bytes, opened, parsed⟩ := PersonalKey.secret_eq_some.mp holds
  rcases List.mem_cons.mp member with rfl | member
  · obtain rfl : sampleSecret 1 = bytes := Except.ok.inj (Eq.trans (by decide) opened)
    obtain rfl : ⟨sampleSecret 1⟩ = secret := Except.ok.inj (Eq.trans (by decide) parsed)
    rfl
  · obtain rfl := List.mem_singleton.mp member
    obtain rfl : sampleSecret 2 = bytes := Except.ok.inj (Eq.trans (by decide) opened)
    obtain rfl : ⟨sampleSecret 2⟩ = secret := Except.ok.inj (Eq.trans (by decide) parsed)
    rfl

def sampleValidated (index : Nat) : ValidatedToken where
  userPubkey := sampleKey index
  redirectOrigin := "https://app.example"
  bunkerPubkey := some (sampleKey 2)
  ucan := sampleUcan index

/-- A header with a sample token is accepted for every tenant. -/
theorem validate_sample {index : Nat} {authHeader : String} (token : String) (tenantId : Int)
    (stripped : stripLeading "Bearer " authHeader = some token)
    (decoded : sampleUcanLibrary.tryFromTokenString token = .ok (sampleUcan index))
    (named : didToNostrPubkey sampleCrypto (sampleUcan index).audience = .ok ⟨sampleKey index⟩) :
    validateUcanToken sampleEnvironment 0 authHeader tenantId = .ok (sampleValidated index) := by
  have opened : openToken sampleEnvironment 0 authHeader = .ok (sampleUcan index) :=
    (openToken_eq_ok sampleEnvironment).mpr ⟨token, stripped, decoded, rfl, rfl⟩
  have tenant : checkTenant (sampleUcan index).facts tenantId = .ok () := by
    unfold checkTenant
    split <;> rfl
  have issuer : checkIssuer sampleEnvironment (sampleKey index) (sampleKey index) = .ok () := by
    simp only [checkIssuer, decide_true, Bool.true_or, require_eq_ok]
  unfold validateUcanToken
  rw [opened]
  simp only [bind_eq_ok]
  exact ⟨_, rfl, _, rfl, (), tenant, _, named, _, named, (), issuer, rfl⟩

theorem validate_mallory :
    validateUcanToken sampleEnvironment 0 "Bearer mallory" 0 = .ok (sampleValidated 1) :=
  validate_sample "mallory" 0 (by decide +kernel) (by simp [sampleUcanLibrary])
    (by decide +kernel)

theorem did_alice : didToNostrPubkey sampleCrypto (sampleUcan 0).audience = .ok ⟨sampleKey 0⟩ := by
  decide +kernel

theorem validate_alice :
    validateUcanToken sampleEnvironment 0 "Bearer alice" 0 = .ok (sampleValidated 0) :=
  validate_sample "alice" 0 (by decide +kernel) (by simp [sampleUcanLibrary]) did_alice

/-! ### The owner of the returned handler -/

/-- A bunker fact that names a loadable authorization names one of the token's user. -/
def NamesOwnBunker (environment : Environment) (database : Database) (now : DateTime)
    (authHeader : String) : Prop :=
  ∀ validated bunker row, validateUcanToken environment now authHeader 0 = .ok validated →
    validated.bunkerPubkey = some bunker → database.findByBunkerPubkey bunker = some row →
    Loadable environment database now row → row.userPubkey = validated.userPubkey

/-- On a miss, the handler signs for the token's user exactly when the bunker fact names no loadable
authorization of another. -/
theorem getHandler_owner_iff (intact : KeysIntact environment.crypto database)
    {cache : HandlerCache} {now : DateTime} {authHeader : String} {tenantId : Int}
    {key : CacheKey} (hashed : computeTokenCacheKey environment.crypto authHeader = some key)
    (miss : cache key = none) :
    (∀ validated handler, validateUcanToken environment now authHeader 0 = .ok validated →
        (getHandler environment database cache now authHeader tenantId).1 = .ok handler →
        handler.userPubkey.toHex = validated.userPubkey) ↔
      NamesOwnBunker environment database now authHeader := by
  rw [getHandler_of_miss hashed miss]
  constructor
  · intro owned validated bunker row accepted named found loadable
    obtain ⟨handler, selected, valid⟩ := loadable.selectHandler tenantId named found
    have answered := slowPath_eq_ok.mpr ⟨validated, accepted, selected, valid⟩
    obtain ⟨other, refound, owner⟩ := selectHandler_owner_of_some intact named selected
    obtain rfl : row = other := Option.some.inj (found.symm.trans refound)
    rw [← owner]
    exact owned validated handler accepted answered
  · intro own validated handler accepted answered
    obtain ⟨other, reaccepted, selected, valid⟩ := slowPath_eq_ok.mp answered
    obtain rfl : validated = other := Except.ok.inj (accepted.symm.trans reaccepted)
    cases named : validated.bunkerPubkey with
    | none => exact selectHandler_owner_of_none intact named selected
    | some bunker =>
      obtain ⟨row, found, owner⟩ := selectHandler_owner_of_some intact named selected
      rw [owner]
      exact own validated bunker row accepted named found
        (loadable_of_selectHandler named selected valid found)

theorem getHandler_cold {now : DateTime} {authHeader : String} {tenantId : Int} {key : CacheKey}
    {validated : ValidatedToken} {handler : HttpRpcHandler}
    (hashed : computeTokenCacheKey environment.crypto authHeader = some key)
    (accepted : validateUcanToken environment now authHeader 0 = .ok validated)
    (selected : selectHandler environment database tenantId validated = .ok handler)
    (valid : handler.isValid now = true) :
    (getHandler environment database (fun _ => none) now authHeader tenantId).1 = .ok handler :=
  (getHandler_of_miss hashed rfl).trans
    (slowPath_eq_ok.mpr ⟨validated, accepted, selected, valid⟩)

theorem getHandler_owner_sample :
    ∃ validated handler,
      validateUcanToken sampleEnvironment 0 "Bearer alice" 0 = .ok validated ∧
        (getHandler sampleEnvironment sampleDatabase (fun _ => none) 0 "Bearer alice" 1).1 =
          .ok handler ∧
        handler.userPubkey.toHex = validated.userPubkey := by
  have hashed : computeTokenCacheKey sampleEnvironment.crypto "Bearer alice" =
      some (sampleCrypto.blake3 "alice") := rfl
  have own : NamesOwnBunker sampleEnvironment sampleDatabase 0 "Bearer alice" := by
    intro validated bunker row accepted named found _
    obtain rfl : sampleValidated 0 = validated :=
      Except.ok.inj (validate_alice.symm.trans accepted)
    obtain rfl : sampleKey 2 = bunker := Option.some.inj named
    cases Eq.trans (by rfl) found
    rfl
  have selected : selectHandler sampleEnvironment sampleDatabase 1 (sampleValidated 0) =
      .ok _ := rfl
  have answered := getHandler_cold hashed validate_alice selected rfl
  refine ⟨sampleValidated 0, _, validate_alice, answered, ?_⟩
  refine (getHandler_owner_iff sampleDatabase_keysIntact hashed ?_).mpr own _ _ validate_alice
    answered
  rfl

/-- A user who signs a token naming another user's bunker gets that user's handler. -/
theorem getHandler_owner_mallory :
    KeysIntact sampleEnvironment.crypto sampleDatabase ∧ ∃ validated handler,
      validateUcanToken sampleEnvironment 0 "Bearer mallory" 0 = .ok validated ∧
        (getHandler sampleEnvironment sampleDatabase (fun _ => none) 0 "Bearer mallory" 1).1 =
          .ok handler ∧
        handler.userPubkey.toHex ≠ validated.userPubkey := by
  have hashed : computeTokenCacheKey sampleEnvironment.crypto "Bearer mallory" =
      some (sampleCrypto.blake3 "mallory") := rfl
  have selected : selectHandler sampleEnvironment sampleDatabase 1 (sampleValidated 1) =
      .ok _ := rfl
  have answered := getHandler_cold hashed validate_mallory selected rfl
  refine ⟨sampleDatabase_keysIntact, sampleValidated 1, _, validate_mallory, answered, ?_⟩
  decide

end Divine.Keycast
