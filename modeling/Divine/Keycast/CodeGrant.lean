/-
This file runs the authorization-code grant of the token endpoint one database statement
at a time.
-/

import Divine.Keycast.HandlerOwner
import Divine.Keycast.OAuth
import Divine.Library.Interleaving

namespace Divine.Keycast

open Fallible Interleaving Table

/-! ### Requests -/

/-- A request as the endpoint receives it, with what its generators draw for it. -/
structure TokenContext where
  tenantId : Int
  request : TokenRequest
  draws : Draws
  deriving DecidableEq

structure PendingRegistration where
  user : User
  key : PersonalKey
  deriving DecidableEq

/-- What the grant has computed by the time it resolves the policy. -/
structure PreparedGrant where
  redirectOrigin : String
  connectionSecret : String
  secretHash : String
  bunkerPublicKey : PublicKey
  accessToken : String
  deriving DecidableEq

/-- A request at the statement it issues next, with what it has read so far. -/
inductive TokenStage where
  | findValid
  | checkEmail (code : OAuthCode) (email : String)
  | checkPubkey (code : OAuthCode) (email : String)
  | finalize (code : OAuthCode) (email : String) (pending : PendingRegistration)
  | deleteCode (code : OAuthCode)
  | getEmail (code : OAuthCode)
  | findKey (code : OAuthCode) (email : String)
  | createKey (code : OAuthCode) (email : String) (encrypted : Bytes)
  | resolvePolicy (code : OAuthCode) (prepared : PreparedGrant)
  | createAuthorization (code : OAuthCode) (prepared : PreparedGrant) (policyId : Nat)
  | createRefreshToken (code : OAuthCode) (prepared : PreparedGrant) (row : OAuthAuthorization)
  | revokeTokens (code : OAuthCode) (prepared : PreparedGrant) (previous : Nat)
  | revokeAuthorization (code : OAuthCode) (prepared : PreparedGrant) (previous : Nat)
  deriving DecidableEq

/-- A request goes on to a further statement, is answered, or fails. -/
inductive TokenOutcome where
  | next (stage : TokenStage)
  | answer (response : TokenResponse)
  | fail (error : OAuthError)
  deriving DecidableEq

def TokenOutcome.ofNext : Except OAuthError TokenStage → TokenOutcome
  | .ok stage => next stage
  | .error error => fail error

section

variable (library : OAuthLibrary) (context : TokenContext)

/-! ### Between the statements -/

def checkCode (code : OAuthCode) (redirectUri : String) : Except OAuthError Unit := do
  require (code.redirectUri = redirectUri) (.invalidRequest "redirect_uri mismatch")
  match code.codeChallenge with
  | none => return ()
  | some challenge =>
    let verifier ← okOr context.request.codeVerifier
      (.invalidRequest "code_verifier required for PKCE flow")
    validatePkce library.crypto verifier challenge (code.codeChallengeMethod.getD "plain")

/-- The `nsec` a code verifier carries. -/
def TokenContext.nsec : Option String :=
  context.request.codeVerifier.bind extractNsecFromVerifier

def parseNsec (nsec userPubkey mismatch : String) : Except OAuthError Keys := do
  let keys ← (library.parseKeys nsec).mapError fun error =>
    .invalidRequest s!"Invalid nsec in code_verifier: {error}"
  require (keys.publicKey.toHex = userPubkey) (.invalidRequest mismatch)
  return keys

def encryptKeys (keys : Keys) : Except OAuthError Bytes :=
  (library.crypto.encrypt keys.secretKey.bytes).mapError .encryption

def preparePending (code : OAuthCode) (email : String) :
    Except OAuthError PendingRegistration := do
  let encrypted ← match code.pendingEncryptedSecret with
    | some stored => pure stored
    | none => do
      let nsec ← okOr context.nsec
        (.invalidRequest "Missing nsec in code_verifier for BYOK flow")
      let keys ← parseNsec library nsec code.userPubkey
        "nsec doesn't match pubkey from registration"
      encryptKeys library keys
  let passwordHash ← okOr code.pendingPasswordHash
    (.invalidRequest "Missing password hash in pending registration")
  let _ ← okOr code.pendingEmailVerificationToken
    (.invalidRequest "Missing verification token in pending registration")
  return {
    user := ⟨code.userPubkey, context.tenantId, some email, some passwordHash, false⟩
    key := ⟨code.userPubkey, encrypted, context.tenantId⟩ }

def bringKey (code : OAuthCode) : Except OAuthError Bytes := do
  let nsec ← okOr context.nsec (.invalidRequest
    "Missing nsec in code_verifier. BYOK flow requires nsec to be embedded.")
  let keys ← (library.parseKeys nsec).mapError fun error =>
    .invalidRequest s!"Invalid nsec in code_verifier: {error}"
  require (keys.publicKey.toHex = code.userPubkey) (.invalidRequest
    (s!"nsec in code_verifier doesn't match registered pubkey. Expected: {code.userPubkey}, " ++
      s!"got: {keys.publicKey.toHex}"))
  encryptKeys library keys

/-- The origin, the secret, the bunker keys and the access token of a grant. -/
def prepareGrant (code : OAuthCode) (email : String) (encrypted : Bytes) :
    Except OAuthError PreparedGrant := do
  let redirectOrigin ← extractOrigin library code.redirectUri
  let (secret, hash) ← okOr context.draws.secretPair (.serverError "Secret pool exhausted")
  let decrypted ← (library.crypto.decrypt encrypted).mapError fun error =>
    .encryption s!"Failed to decrypt user key: {error}"
  let secretKey ← (library.crypto.secretKeyFromSlice decrypted).mapError fun error =>
    .invalidRequest s!"Invalid secret key: {error}"
  let bunkerPublicKey := (library.crypto.deriveBunkerKeys secretKey hash).publicKey
  let user ← (library.crypto.publicKeyFromHex code.userPubkey).mapError fun error =>
    .invalidRequest s!"Invalid public key: {error}"
  let accessToken ← (library.generateServerSignedUcan user context.tenantId email redirectOrigin
    (some bunkerPublicKey.toHex) code.isHeadless).mapError fun error =>
      .invalidRequest s!"UCAN generation failed: {error}"
  return ⟨redirectOrigin, secret, hash, bunkerPublicKey, accessToken⟩

def authorizationParams (code : OAuthCode) (prepared : PreparedGrant) (policyId : Nat)
    (now : DateTime) : Database.CreateOAuthAuthorizationParams where
  tenantId := context.tenantId
  userPubkey := code.userPubkey
  redirectOrigin := prepared.redirectOrigin
  clientId := code.clientId
  bunkerPublicKey := prepared.bunkerPublicKey.toHex
  secretHash := prepared.secretHash
  policyId := some policyId
  clientPubkey := none
  authorizationHandle := some context.draws.authorizationHandle
  handleExpiresAt := now + Database.thirtyDays

/-- The response, but for the text that describes the policy. -/
def tokenResponse (code : OAuthCode) (prepared : PreparedGrant) : TokenResponse where
  bunkerUrl :=
    s!"bunker://{prepared.bunkerPublicKey.toHex}?{library.relayParams}" ++
      s!"&secret={prepared.connectionSecret}"
  accessToken := prepared.accessToken
  tokenType := "Bearer"
  expiresIn := library.tokenExpirySeconds
  scope := code.scope
  authorizationHandle := some context.draws.authorizationHandle
  refreshToken := context.draws.refreshToken

/-! ### Statements -/

def codeParams (request : TokenRequest) : Except OAuthError (String × String) := do
  let code ← okOr request.code
    (.invalidRequest "Missing 'code' parameter for authorization_code grant")
  let redirectUri ← okOr request.redirectUri
    (.invalidRequest "Missing 'redirect_uri' parameter for authorization_code grant")
  return (code, redirectUri)

/-- One statement of the grants, with what follows up to the next one. A statement that violates a
constraint leaves the database alone. -/
def tokenStatement (database : Database) (now : DateTime) : TokenStage → Database × TokenOutcome
  | .findValid => (database, .ofNext do
      let (code, redirectUri) ← codeParams context.request
      let found ← okOr (database.findValidCode context.tenantId code now) .unauthorized
      checkCode library context found redirectUri
      match found.pendingEmail with
      | some email => return .checkEmail found email
      | none => return .deleteCode found)
  | .checkEmail code email => (database, .ofNext do
      require (database.findPubkeyByEmail email context.tenantId).isNone
        (.invalidRequest "This email is already registered. Please sign in instead.")
      return .checkPubkey code email)
  | .checkPubkey code email => (database, .ofNext do
      require (!database.inTenant code.userPubkey context.tenantId)
        (.invalidRequest "This Nostr key is already registered.")
      return .finalize code email (← preparePending library context code email))
  | .finalize code email pending =>
      match database.finalizeOAuthRegistration pending.user pending.key context.tenantId
          (context.request.code.getD "") with
      | .ok finalized => (finalized, .next (.findKey code email))
      | .error error => (database, .fail (.database error.display))
  | .deleteCode code =>
      (database.deleteCode context.tenantId (context.request.code.getD ""),
        .next (.getEmail code))
  | .getEmail code => (database, .ofNext do
      let email ← (database.getEmail code.userPubkey context.tenantId).mapError .ofRepository
      return .findKey code email)
  | .findKey code email => (database, .ofNext <|
      match database.findEncryptedKey code.userPubkey with
      | some encrypted => do
        return .resolvePolicy code (← prepareGrant library context code email encrypted)
      | none => do return .createKey code email (← bringKey library context code))
  | .createKey code email encrypted =>
      match database.createPersonalKey ⟨code.userPubkey, encrypted, context.tenantId⟩ with
      | .ok created => (created, .ofNext do
          return .resolvePolicy code (← prepareGrant library context code email encrypted))
      | .error error => (database, .fail (.ofRepository error))
  | .resolvePolicy code prepared => (database, .ofNext do
      return .createAuthorization code prepared (← resolvePolicyFromScope database code.scope))
  | .createAuthorization code prepared policyId =>
      match database.insertOAuthAuthorization
          (authorizationParams context code prepared policyId now) with
      | .ok (row, created) => (created, .next (.createRefreshToken code prepared row))
      | .error error => (database, .fail (.ofRepository error))
  | .createRefreshToken code prepared row =>
      match database.createRefreshToken library.crypto context.draws.refreshToken row.id
          context.tenantId now with
      | .ok created =>
        match code.previousAuthId with
        | some previous => (created, .next (.revokeTokens code prepared previous))
        | none => (created, .answer (tokenResponse library context code prepared))
      | .error error => (database, .fail (.ofRepository error))
  | .revokeTokens code prepared previous =>
      (database.revokeRefreshTokens previous now,
        .next (.revokeAuthorization code prepared previous))
  | .revokeAuthorization code prepared previous =>
      (database.revokeOAuthAuthorization previous now,
        .answer (tokenResponse library context code prepared))

end

/-! ### The endpoint -/

/-- A request under way. -/
structure TokenCall where
  context : TokenContext
  stage : TokenStage
  deriving DecidableEq

/-- The database and the time, with the authorizations created and the answers given so far. -/
structure TokenState where
  database : Database
  now : DateTime
  created : List (TokenContext × OAuthAuthorization)
  answers : List (TokenContext × Except OAuthError TokenResponse)

inductive TokenEvent where
  | advance (duration : Nat)
  | deleteCode (tenantId : Int) (code : String)
  | deleteAccount (pubkey : String) (tenantId : Int)
  deriving DecidableEq

def TokenState.fresh (database : Database) (now : DateTime) : TokenState where
  database := database
  now := now
  created := []
  answers := []

def TokenStage.createdRow : TokenStage → Option OAuthAuthorization
  | createRefreshToken _ _ row => some row
  | _ => none

section

variable (library : OAuthLibrary)

def advanceToken (state : TokenState) (call : TokenCall) : TokenState × Option TokenCall :=
  let (database, outcome) := tokenStatement library call.context state.database state.now call.stage
  match outcome with
  | .next stage =>
      ({ state with
          database := database
          created :=
            (stage.createdRow.map fun row => (call.context, row)).toList ++ state.created },
        some { call with stage := stage })
  | .answer response =>
      ({ state with
          database := database
          answers := (call.context, .ok response) :: state.answers }, none)
  | .fail error =>
      ({ state with
          database := database
          answers := (call.context, .error error) :: state.answers }, none)

def tokenEvent (state : TokenState) : TokenEvent → Option TokenState
  | .advance duration => some { state with now := state.now + duration }
  | .deleteCode tenantId code =>
      some { state with database := state.database.deleteCode tenantId code }
  | .deleteAccount pubkey tenantId =>
      some { state with database := state.database.deleteAccount pubkey tenantId }

/-- The requests of the token endpoint, each starting with the search for its code. -/
def tokenSystem : System TokenState TokenCall TokenEvent where
  starts _ call := call.stage = .findValid
  advance := advanceToken library
  environment := tokenEvent

abbrev TokenPool := Pool TokenState TokenCall

end

/-! ### Before and after a request has deleted its code -/

inductive GrantPhase where
  | presented
  | claimed
  | authorized
  deriving DecidableEq

def TokenStage.phase : TokenStage → GrantPhase
  | findValid | checkEmail _ _ | checkPubkey _ _ | finalize _ _ _ | deleteCode _ => .presented
  | getEmail _ | findKey _ _ | createKey _ _ _ | resolvePolicy _ _ | createAuthorization _ _ _ =>
      .claimed
  | createRefreshToken _ _ _ | revokeTokens _ _ _ | revokeAuthorization _ _ _ => .authorized

/-- The statement deletes the request's code: by itself, or with a registration it finalizes. -/
def DeletesCode (context : TokenContext) (database : Database) : TokenStage → Prop
  | .deleteCode _ => True
  | .finalize _ _ pending => ∃ finalized,
      database.finalizeOAuthRegistration pending.user pending.key context.tenantId
        (context.request.code.getD "") = .ok finalized
  | _ => False

section

variable {library : OAuthLibrary} {context : TokenContext} {before after : Database}
  {now : DateTime} {stage : TokenStage}

theorem TokenOutcome.ofNext_eq_next {computed : Except OAuthError TokenStage} {next : TokenStage} :
    ofNext computed = .next next ↔ computed = .ok next := by
  cases computed <;> simp [ofNext]

theorem TokenOutcome.ofNext_ne_answer {computed : Except OAuthError TokenStage}
    {response : TokenResponse} : ofNext computed ≠ .answer response := by
  cases computed <;> simp [ofNext]

/-- The code is stored for the tenant under the name the request presents. -/
def StoredFor (context : TokenContext) (database : Database) (code : OAuthCode) : Prop :=
  code ∈ database.oauthCodes ∧ code.tenantId = context.tenantId ∧
    context.request.code = some code.code

theorem storedFor_of_find {presented redirectUri : String} {found : OAuthCode}
    (params : codeParams context.request = .ok (presented, redirectUri))
    (looked : before.findValidCode context.tenantId presented now = some found) :
    StoredFor context before found := by
  obtain ⟨named, named_eq, rest⟩ := bind_eq_ok.mp params
  obtain ⟨_, -, paired⟩ := bind_eq_ok.mp rest
  have same : named = presented := (Prod.mk.inj (pure_eq_ok.mp paired)).1
  have conditions := selectOne_condition looked
  simp only [Database.ofCode, Bool.and_eq_true, decide_eq_true_eq] at conditions
  refine ⟨selectOne_mem looked, conditions.1.1, ?_⟩
  rw [okOr_eq_ok.mp named_eq, same, conditions.1.2]

variable (library context before now) in
/-- The statements a request goes through, with the database that each leaves to the next. -/
inductive Follows : TokenStage → Database → TokenStage → Prop
  | pendingFound {code : OAuthCode} {email : String} (stored : StoredFor context before code) :
      Follows .findValid before (.checkEmail code email)
  | found {code : OAuthCode} (stored : StoredFor context before code) :
      Follows .findValid before (.deleteCode code)
  | emailFree {code : OAuthCode} {email : String} :
      Follows (.checkEmail code email) before (.checkPubkey code email)
  | pubkeyFree {code : OAuthCode} {email : String} {pending : PendingRegistration} :
      Follows (.checkPubkey code email) before (.finalize code email pending)
  | finalized {code : OAuthCode} {email : String} {pending : PendingRegistration}
      {after : Database} (succeeded : before.finalizeOAuthRegistration pending.user pending.key
        context.tenantId (context.request.code.getD "") = .ok after) :
      Follows (.finalize code email pending) after (.findKey code email)
  | deleted {code : OAuthCode} :
      Follows (.deleteCode code)
        (before.deleteCode context.tenantId (context.request.code.getD "")) (.getEmail code)
  | emailRead {code : OAuthCode} {email : String} :
      Follows (.getEmail code) before (.findKey code email)
  | keyFound {code : OAuthCode} {email : String} {prepared : PreparedGrant} :
      Follows (.findKey code email) before (.resolvePolicy code prepared)
  | keyBrought {code : OAuthCode} {email : String} {encrypted : Bytes} :
      Follows (.findKey code email) before (.createKey code email encrypted)
  | keyCreated {code : OAuthCode} {email : String} {encrypted : Bytes} {prepared : PreparedGrant}
      {after : Database} (inserted : before.createPersonalKey
        ⟨code.userPubkey, encrypted, context.tenantId⟩ = .ok after) :
      Follows (.createKey code email encrypted) after (.resolvePolicy code prepared)
  | resolved {code : OAuthCode} {prepared : PreparedGrant} {policyId : Nat}
      (policy : resolvePolicyFromScope before code.scope = .ok policyId) :
      Follows (.resolvePolicy code prepared) before (.createAuthorization code prepared policyId)
  | authorized {code : OAuthCode} {prepared : PreparedGrant} {policyId : Nat}
      {row : OAuthAuthorization} {after : Database} (inserted : before.insertOAuthAuthorization
        (authorizationParams context code prepared policyId now) = .ok (row, after)) :
      Follows (.createAuthorization code prepared policyId) after
        (.createRefreshToken code prepared row)
  | tokenStored {code : OAuthCode} {prepared : PreparedGrant} {row : OAuthAuthorization}
      {previous : Nat} {after : Database} (inserted : before.createRefreshToken library.crypto
        context.draws.refreshToken row.id context.tenantId now = .ok after) :
      Follows (.createRefreshToken code prepared row) after (.revokeTokens code prepared previous)
  | tokensRevoked {code : OAuthCode} {prepared : PreparedGrant} {previous : Nat} :
      Follows (.revokeTokens code prepared previous) (before.revokeRefreshTokens previous now)
        (.revokeAuthorization code prepared previous)

theorem tokenStatement_follows {next : TokenStage}
    (advanced : tokenStatement library context before now stage = (after, .next next)) :
    Follows library context before now stage after next := by
  cases stage with
  | findValid =>
    obtain ⟨rfl, outcome⟩ := Prod.mk.inj advanced
    obtain ⟨_, params, selected⟩ := bind_eq_ok.mp (TokenOutcome.ofNext_eq_next.mp outcome)
    obtain ⟨found, looked, checked⟩ := bind_eq_ok.mp selected
    obtain ⟨_, -, decided⟩ := bind_eq_ok.mp checked
    have stored := storedFor_of_find params (okOr_eq_ok.mp looked)
    cases pending : found.pendingEmail with
    | some email =>
      simp only [pending] at decided
      obtain rfl := pure_eq_ok.mp decided
      exact .pendingFound stored
    | none =>
      simp only [pending] at decided
      obtain rfl := pure_eq_ok.mp decided
      exact .found stored
  | checkEmail code email =>
    obtain ⟨rfl, outcome⟩ := Prod.mk.inj advanced
    obtain ⟨_, -, free⟩ := bind_eq_ok.mp (TokenOutcome.ofNext_eq_next.mp outcome)
    obtain rfl := pure_eq_ok.mp free
    exact .emailFree
  | checkPubkey code email =>
    obtain ⟨rfl, outcome⟩ := Prod.mk.inj advanced
    obtain ⟨_, -, free⟩ := bind_eq_ok.mp (TokenOutcome.ofNext_eq_next.mp outcome)
    obtain ⟨pending, -, prepared⟩ := bind_eq_ok.mp free
    obtain rfl := pure_eq_ok.mp prepared
    exact .pubkeyFree
  | finalize code email pending =>
    simp only [tokenStatement] at advanced
    split at advanced
    · rename_i finalized succeeded
      obtain ⟨rfl, outcome⟩ := Prod.mk.inj advanced
      obtain rfl := TokenOutcome.next.inj outcome
      exact .finalized succeeded
    · cases advanced
  | deleteCode code =>
    obtain ⟨rfl, outcome⟩ := Prod.mk.inj advanced
    obtain rfl := TokenOutcome.next.inj outcome
    exact .deleted
  | getEmail code =>
    obtain ⟨rfl, outcome⟩ := Prod.mk.inj advanced
    obtain ⟨_, -, read⟩ := bind_eq_ok.mp (TokenOutcome.ofNext_eq_next.mp outcome)
    obtain rfl := pure_eq_ok.mp read
    exact .emailRead
  | findKey code email =>
    obtain ⟨rfl, outcome⟩ := Prod.mk.inj advanced
    have computed := TokenOutcome.ofNext_eq_next.mp outcome
    split at computed
    · obtain ⟨prepared, -, rest⟩ := bind_eq_ok.mp computed
      obtain rfl := pure_eq_ok.mp rest
      exact .keyFound
    · obtain ⟨brought, -, rest⟩ := bind_eq_ok.mp computed
      obtain rfl := pure_eq_ok.mp rest
      exact .keyBrought
  | createKey code email encrypted =>
    simp only [tokenStatement] at advanced
    split at advanced
    · rename_i created inserted
      obtain ⟨rfl, outcome⟩ := Prod.mk.inj advanced
      obtain ⟨prepared, -, rest⟩ := bind_eq_ok.mp (TokenOutcome.ofNext_eq_next.mp outcome)
      obtain rfl := pure_eq_ok.mp rest
      exact .keyCreated inserted
    · cases advanced
  | resolvePolicy code prepared =>
    obtain ⟨rfl, outcome⟩ := Prod.mk.inj advanced
    obtain ⟨policyId, policy, rest⟩ := bind_eq_ok.mp (TokenOutcome.ofNext_eq_next.mp outcome)
    obtain rfl := pure_eq_ok.mp rest
    exact .resolved policy
  | createAuthorization code prepared policyId =>
    simp only [tokenStatement] at advanced
    split at advanced
    · rename_i row created inserted
      obtain ⟨rfl, outcome⟩ := Prod.mk.inj advanced
      obtain rfl := TokenOutcome.next.inj outcome
      exact .authorized inserted
    · cases advanced
  | createRefreshToken code prepared row =>
    simp only [tokenStatement] at advanced
    split at advanced
    · rename_i created inserted
      split at advanced
      · obtain ⟨rfl, outcome⟩ := Prod.mk.inj advanced
        obtain rfl := TokenOutcome.next.inj outcome
        exact .tokenStored inserted
      · cases advanced
    · cases advanced
  | revokeTokens code prepared previous =>
    obtain ⟨rfl, outcome⟩ := Prod.mk.inj advanced
    obtain rfl := TokenOutcome.next.inj outcome
    exact .tokensRevoked
  | revokeAuthorization code prepared previous => cases advanced

/-- A statement that goes on leaves the codes alone, deletes its code, or creates an authorization.
-/
theorem tokenStatement_next {next : TokenStage}
    (advanced : tokenStatement library context before now stage = (after, .next next)) :
    (next.phase = stage.phase ∧ next.createdRow = none ∧ after.oauthCodes = before.oauthCodes) ∨
    (stage.phase = .presented ∧ next.phase = .claimed ∧ next.createdRow = none ∧
      DeletesCode context before stage ∧ after.oauthCodes =
        delete before.oauthCodes (Database.ofCode context.tenantId
          (context.request.code.getD ""))) ∨
    (stage.phase = .claimed ∧ next.phase = .authorized ∧ next.createdRow.isSome = true ∧
      after.oauthCodes = before.oauthCodes) := by
  cases tokenStatement_follows advanced with
  | pendingFound | found | emailFree | pubkeyFree | emailRead | keyFound | keyBrought | resolved
  | tokensRevoked => exact .inl ⟨rfl, rfl, rfl⟩
  | finalized succeeded =>
    refine .inr (.inl ⟨rfl, rfl, rfl, ⟨after, succeeded⟩, ?_⟩)
    rw [Database.finalizeOAuthRegistration_eq_ok succeeded]
    rfl
  | deleted => exact .inr (.inl ⟨rfl, rfl, rfl, trivial, rfl⟩)
  | keyCreated inserted =>
    refine .inl ⟨rfl, rfl, ?_⟩
    rw [Database.createPersonalKey_eq_ok inserted]
  | authorized inserted =>
    refine .inr (.inr ⟨rfl, rfl, rfl, ?_⟩)
    rw [(Database.insertOAuthAuthorization_eq_ok inserted).2]
    rfl
  | tokenStored inserted =>
    refine .inl ⟨rfl, rfl, ?_⟩
    rw [(Database.createRefreshToken_eq_ok inserted).2]

theorem tokenStatement_answer {response : TokenResponse}
    (answered : tokenStatement library context before now stage = (after, .answer response)) :
    stage.phase = .authorized ∧ after.oauthCodes = before.oauthCodes := by
  cases stage with
  | findValid | checkEmail code email | checkPubkey code email | getEmail code | findKey code email
  | resolvePolicy code prepared =>
    exact absurd (Prod.mk.inj answered).2 TokenOutcome.ofNext_ne_answer
  | deleteCode code | revokeTokens code prepared previous => cases answered
  | finalize | createAuthorization =>
    simp only [tokenStatement] at answered
    split at answered <;> cases answered
  | createKey code email encrypted =>
    simp only [tokenStatement] at answered
    split at answered
    · exact absurd (Prod.mk.inj answered).2 TokenOutcome.ofNext_ne_answer
    · cases answered
  | createRefreshToken code prepared row =>
    simp only [tokenStatement] at answered
    split at answered
    · rename_i created inserted
      split at answered
      · cases answered
      · cases answered
        refine ⟨rfl, ?_⟩
        rw [(Database.createRefreshToken_eq_ok inserted).2]
    · cases answered
  | revokeAuthorization code prepared previous =>
    obtain ⟨same, -⟩ := Prod.mk.inj answered
    refine ⟨rfl, ?_⟩
    rw [← same]
    rfl

theorem tokenStatement_fail_cases {error : OAuthError}
    (failed : tokenStatement library context before now stage = (after, .fail error)) :
    after = before ∨ ∃ keys, after = { before with personalKeys := keys } := by
  cases stage with
  | findValid | checkEmail code email | checkPubkey code email | getEmail code | findKey code email
  | resolvePolicy code prepared =>
    exact .inl (Prod.mk.inj failed).1.symm
  | deleteCode code | revokeTokens code prepared previous
  | revokeAuthorization code prepared previous => cases failed
  | finalize | createAuthorization =>
    simp only [tokenStatement] at failed
    split at failed
    · cases failed
    · exact .inl (Prod.mk.inj failed).1.symm
  | createKey code email encrypted =>
    simp only [tokenStatement] at failed
    split at failed
    · rename_i created inserted
      obtain ⟨rfl, -⟩ := Prod.mk.inj failed
      exact .inr ⟨_, Database.createPersonalKey_eq_ok inserted⟩
    · exact .inl (Prod.mk.inj failed).1.symm
  | createRefreshToken code prepared row =>
    simp only [tokenStatement] at failed
    split at failed
    · split at failed <;> cases failed
    · exact .inl (Prod.mk.inj failed).1.symm

theorem tokenStatement_fail {error : OAuthError}
    (failed : tokenStatement library context before now stage = (after, .fail error)) :
    after.oauthCodes = before.oauthCodes := by
  rcases tokenStatement_fail_cases failed with rfl | ⟨keys, rfl⟩
  · rfl
  · rfl

end

/-! ### Counting what one code yields -/

def TokenContext.presents (tenantId : Int) (code : String) (context : TokenContext) : Bool :=
  context.tenantId = tenantId && context.request.code = some code

section

variable (tenantId : Int) (code : String)

def presence (database : Database) : Nat :=
  if selectExists database.oauthCodes (Database.ofCode tenantId code) then 1 else 0

/-- The number of authorizations created by requests that present the code. -/
def createdFrom (state : TokenState) : Nat :=
  state.created.countP fun entry => entry.1.presents tenantId code

/-- The number of token responses to requests that present the code. -/
def answeredFrom (state : TokenState) : Nat :=
  state.answers.countP fun entry => entry.1.presents tenantId code && entry.2.isOk

/-- A request that presents the code weighs what its phase does. -/
def callWeight (phaseWeight : GrantPhase → Nat) (call : TokenCall) : Nat :=
  if call.context.presents tenantId code then phaseWeight call.stage.phase else 0

def creationWeight : GrantPhase → Nat
  | .claimed => 1
  | .presented | .authorized => 0

def answerWeight : GrantPhase → Nat
  | .claimed | .authorized => 1
  | .presented => 0

def DeletesPresentCode (pool : TokenPool) : Action TokenCall TokenEvent → Prop
  | .start _ | .environment _ => True
  | .step index => ∀ call, pool.calls[index]? = some call →
      call.context.presents tenantId code = true →
      DeletesCode call.context pool.shared.database call.stage →
      selectExists pool.shared.database.oauthCodes (Database.ofCode tenantId code) = true

variable {tenantId code} {library : OAuthLibrary}

theorem presence_of_codes {before after : Database} (same : after.oauthCodes = before.oauthCodes) :
    presence tenantId code after = presence tenantId code before := by
  unfold presence
  rw [same]

theorem presence_of_delete {before after : Database} {condition : OAuthCode → Bool}
    (deleted : after.oauthCodes = delete before.oauthCodes condition) :
    presence tenantId code after ≤ presence tenantId code before := by
  unfold presence
  rw [deleted]
  by_cases found : selectExists (delete before.oauthCodes condition)
      (Database.ofCode tenantId code) = true
  · rw [if_pos found, if_pos (selectExists_of_delete found)]
  · rw [if_neg found]
    exact Nat.zero_le _

theorem presence_of_delete_self {before after : Database}
    (deleted : after.oauthCodes = delete before.oauthCodes (Database.ofCode tenantId code)) :
    presence tenantId code after = 0 := by
  unfold presence
  rw [deleted, selectExists_delete_self, if_neg Bool.false_ne_true]

theorem presence_of_present {database : Database}
    (present : selectExists database.oauthCodes (Database.ofCode tenantId code) = true) :
    presence tenantId code database = 1 := if_pos present

/-- A statement raises neither count by more than the weight of the request and of the code drop. -/
theorem advanceToken_counts {state : TokenState} {call : TokenCall}
    (present : call.context.presents tenantId code = true →
      DeletesCode call.context state.database call.stage →
      selectExists state.database.oauthCodes (Database.ofCode tenantId code) = true) :
    createdFrom tenantId code (advanceToken library state call).1 +
          presence tenantId code (advanceToken library state call).1.database +
          weightOf (callWeight tenantId code creationWeight) (advanceToken library state call).2 ≤
        createdFrom tenantId code state + presence tenantId code state.database +
          callWeight tenantId code creationWeight call ∧
      answeredFrom tenantId code (advanceToken library state call).1 +
          presence tenantId code (advanceToken library state call).1.database +
          weightOf (callWeight tenantId code answerWeight) (advanceToken library state call).2 ≤
        answeredFrom tenantId code state + presence tenantId code state.database +
          callWeight tenantId code answerWeight call := by
  obtain ⟨context, stage⟩ := call
  cases computed : tokenStatement library context state.database state.now stage with
  | mk after outcome =>
    simp only [advanceToken, computed]
    cases outcome with
    | next next =>
      rcases tokenStatement_next computed with ⟨same, created, codes⟩ |
        ⟨before, claimed, created, deletes, codes⟩ | ⟨before, authorized, created, codes⟩
      · -- nothing to count happens
        simp [createdFrom, answeredFrom, callWeight, weightOf, created, same,
          presence_of_codes codes]
      · by_cases presents : context.presents tenantId code = true
        · -- the code was there, and is gone when the request weighs one
          have found := presence_of_present (present presents deletes)
          have own : context.tenantId = tenantId ∧ context.request.code = some code := by
            simpa [TokenContext.presents] using presents
          rw [own.1, own.2] at codes
          have gone : presence tenantId code after = 0 := presence_of_delete_self codes
          simp [createdFrom, answeredFrom, callWeight, weightOf, created, before, claimed, presents,
            creationWeight, answerWeight, found, gone]
        · have fewer : presence tenantId code after ≤ presence tenantId code state.database :=
            presence_of_delete codes
          simp [createdFrom, answeredFrom, callWeight, weightOf, created, presents, fewer]
      · obtain ⟨row, created⟩ := Option.isSome_iff_exists.mp created
        by_cases presents : context.presents tenantId code = true
        · simp [createdFrom, answeredFrom, callWeight, weightOf, created, before, authorized,
            presents, creationWeight, answerWeight, presence_of_codes codes]
          omega
        · simp [createdFrom, answeredFrom, callWeight, weightOf, created, presents,
            presence_of_codes codes]
    | answer response =>
      obtain ⟨authorized, codes⟩ := tokenStatement_answer computed
      by_cases presents : context.presents tenantId code = true
      · simp [createdFrom, answeredFrom, callWeight, weightOf, authorized, presents, Except.isOk,
          Except.toBool, creationWeight, answerWeight, presence_of_codes codes]
        omega
      · simp [createdFrom, answeredFrom, callWeight, weightOf, presents, presence_of_codes codes]
    | fail error =>
      have codes := tokenStatement_fail computed
      simp [createdFrom, answeredFrom, weightOf, Except.isOk, Except.toBool,
        presence_of_codes codes]

theorem tokenEvent_counts {state next : TokenState} {event : TokenEvent}
    (moved : tokenEvent state event = some next) :
    createdFrom tenantId code next = createdFrom tenantId code state ∧
      answeredFrom tenantId code next = answeredFrom tenantId code state ∧
      presence tenantId code next.database ≤ presence tenantId code state.database := by
  cases event with
  | advance duration =>
    cases moved
    exact ⟨rfl, rfl, le_rfl⟩
  | deleteCode otherTenant otherCode =>
    cases moved
    exact ⟨rfl, rfl, presence_of_delete rfl⟩
  | deleteAccount pubkey otherTenant =>
    cases moved
    refine ⟨rfl, rfl, ?_⟩
    unfold Database.deleteAccount
    dsimp only
    split
    · exact presence_of_delete rfl
    · exact le_rfl

variable (tenantId code) in
/-- What the code has yielded, what it may still yield, and the code while it is stored, come to at
most one. -/
structure SingleUse (pool : TokenPool) : Prop where
  created : Bounded
    (fun state => createdFrom tenantId code state + presence tenantId code state.database)
    (fun _ => 1) (callWeight tenantId code creationWeight) pool
  answered : Bounded
    (fun state => answeredFrom tenantId code state + presence tenantId code state.database)
    (fun _ => 1) (callWeight tenantId code answerWeight) pool

theorem poolStep_singleUse {pool next : TokenPool} {action : Action TokenCall TokenEvent}
    (singleUse : SingleUse tenantId code pool)
    (deletes : DeletesPresentCode tenantId code pool action)
    (stepped : poolStep (tokenSystem library) pool action = some next) :
    SingleUse tenantId code next := by
  have light : ∀ call : TokenCall, (tokenSystem library).starts pool.shared call = true →
      callWeight tenantId code creationWeight call = 0 ∧
        callWeight tenantId code answerWeight call = 0 := by
    intro call first
    have first : call.stage = .findValid := of_decide_eq_true first
    unfold callWeight
    rw [first]
    exact ⟨ite_self 0, ite_self 0⟩
  constructor
  · refine singleUse.created.step _ ?_ ?_ ?_ stepped
    · exact fun call _ first => (light call first).1
    · rintro index call rfl present
      exact Nat.add_le_add_right (advanceToken_counts (deletes call present)).1 1
    · intro event shared _ moved
      obtain ⟨created, -, fewer⟩ := tokenEvent_counts moved
      rw [created]
      omega
  · refine singleUse.answered.step _ ?_ ?_ ?_ stepped
    · exact fun call _ first => (light call first).2
    · rintro index call rfl present
      exact Nat.add_le_add_right (advanceToken_counts (deletes call present)).2 1
    · intro event shared _ moved
      obtain ⟨-, answered, fewer⟩ := tokenEvent_counts moved
      rw [answered]
      omega

/-- The code yields at most one authorization and token response when each deletion finds it still
there. -/
theorem code_yields_one {database : Database} {now : DateTime}
    {actions : List (Action TokenCall TokenEvent)} {pool : TokenPool}
    (deletes : Transition.Meets (poolStep (tokenSystem library)) (DeletesPresentCode tenantId code)
      (.idle (.fresh database now)) actions)
    (ran : Transition.run (poolStep (tokenSystem library)) (.idle (.fresh database now)) actions =
      some pool) :
    createdFrom tenantId code pool.shared ≤ 1 ∧ answeredFrom tenantId code pool.shared ≤ 1 := by
  have initial : SingleUse tenantId code (.idle (.fresh database now)) := by
    have stored : presence tenantId code database ≤ 1 := by
      unfold presence
      split <;> omega
    constructor
    · show 0 + presence tenantId code database + 0 ≤ 1
      omega
    · show 0 + presence tenantId code database + 0 ≤ 1
      omega
  have singleUse : SingleUse tenantId code pool :=
    Transition.invariant_of_meets _
      (fun _ _ _ held here stepped => poolStep_singleUse held here stepped) initial deletes ran
  have created : createdFrom tenantId code pool.shared + presence tenantId code
      pool.shared.database + total _ pool.calls ≤ 1 := singleUse.created
  have answered : answeredFrom tenantId code pool.shared + presence tenantId code
      pool.shared.database + total _ pool.calls ≤ 1 := singleUse.answered
  omega

end

/-! ### Two requests with one code -/

def sampleOAuthLibrary : OAuthLibrary where
  crypto := sampleCrypto
  parseUrl text :=
    if text = "https://app.example/callback" then some ⟨"https", some "app.example", none⟩
    else none
  parseKeys _ := .error "invalid key"
  generateServerSignedUcan _ _ _ _ _ _ := .ok "ucan"
  relayParams := "relay=wss%3A%2F%2Frelay.example"
  tokenExpirySeconds := 86400

def sampleCode : OAuthCode where
  code := "code"
  tenantId := 1
  userPubkey := sampleKey 0
  clientId := "App"
  redirectUri := "https://app.example/callback"
  scope := "policy:social"
  expiresAt := 1000
  codeChallenge := some "E9Melhoa2OwvFrEMTJguCHaoeK1t8URWbuGJSstw-cM"
  codeChallengeMethod := some "S256"
  pendingEmail := none
  pendingPasswordHash := none
  pendingEmailVerificationToken := none
  pendingEncryptedSecret := none
  previousAuthId := none
  state := none
  deviceCode := none
  isHeadless := false

def codeDatabase : Database :=
  { sampleDatabase with
    policies := [⟨1, none, some "social"⟩]
    oauthCodes := [sampleCode] }

def sampleTokenCall (drawn : String) : TokenCall where
  context := {
    tenantId := 1
    request := {
      grantType := some "authorization_code"
      code := some "code"
      clientId := "App"
      redirectUri := some "https://app.example/callback"
      codeVerifier := some "dBjftJeZ4CVP-mB92K27uhbUJU1p1r_wW1gFWFOEjXk"
      refreshToken := none }
    draws := ⟨some ("secret", "$2b$secret"), drawn, drawn⟩ }
  stage := .findValid

theorem code_yields_one_sample :
    ∃ pool, Transition.run (poolStep (tokenSystem sampleOAuthLibrary))
        (.idle (.fresh codeDatabase 0))
        (.start (sampleTokenCall "first") :: List.replicate 7 (.step 0)) = some pool ∧
      pool.shared.answers.length = 1 ∧
      createdFrom 1 "code" pool.shared ≤ 1 ∧ answeredFrom 1 "code" pool.shared ≤ 1 := by
  have deletes : Transition.Meets (poolStep (tokenSystem sampleOAuthLibrary))
      (DeletesPresentCode 1 "code") (.idle (.fresh codeDatabase 0))
      (.start (sampleTokenCall "first") :: List.replicate 7 (.step 0)) := by
    refine .cons _ trivial rfl (.cons _ ?_ rfl (.cons _ ?_ rfl (.cons _ ?_ rfl (.cons _ ?_ rfl
      (.cons _ ?_ rfl (.cons _ ?_ rfl (.cons _ ?_ rfl trivial)))))))
    · intro call present _ deleting
      cases present
      exact deleting.elim
    · -- the second statement deletes the code
      intro _ _ _ _
      rfl
    all_goals
      intro call present _ deleting
      cases present
      exact deleting.elim
  exact ⟨_, rfl, rfl, code_yields_one deletes rfl⟩

/-- Two requests that both find the code before either deletes it both get a token. -/
theorem code_yields_two :
    ∃ pool, Transition.run (poolStep (tokenSystem sampleOAuthLibrary))
        (.idle (.fresh codeDatabase 0))
        ([.start (sampleTokenCall "first"), .start (sampleTokenCall "second"), .step 0, .step 1] ++
          List.replicate 12 (.step 0)) = some pool ∧
      createdFrom 1 "code" pool.shared = 2 ∧ answeredFrom 1 "code" pool.shared = 2 := by
  have counts : (Transition.run (poolStep (tokenSystem sampleOAuthLibrary))
      (.idle (.fresh codeDatabase 0))
      ([.start (sampleTokenCall "first"), .start (sampleTokenCall "second"), .step 0, .step 1] ++
        List.replicate 12 (.step 0))).map (fun pool =>
          (createdFrom 1 "code" pool.shared, answeredFrom 1 "code" pool.shared)) =
      some (2, 2) := by decide +kernel
  obtain ⟨pool, ran, counted⟩ := Option.map_eq_some_iff.mp counts
  obtain ⟨created, answered⟩ := Prod.mk.inj counted
  exact ⟨pool, ran, created, answered⟩

end Divine.Keycast
