/-
This file embeds the two endpoints with which a token mints a further authorization:
`headless_authorize`, whose code is redeemed at the token endpoint, and `create_bunker`.
-/

import Divine.Keycast.Consent

namespace Divine.Keycast

open List Option Fallible Interleaving Table

/-! ### Errors -/

inductive AuthError where
  | emailAlreadyExists
  | userNotFound
  | internal (message : String)
  | missingToken
  | invalidToken
  | badRequest (message : String)
  deriving DecidableEq

def AuthError.ofRepository : RepositoryError → AuthError
  | .duplicate => emailAlreadyExists
  | .notFound _ => userNotFound
  | error => internal error.display

inductive HeadlessError where
  | unauthorized
  | invalidRequest (message : String)
  | conflict (message : String)
  | internal (message : String)
  deriving DecidableEq

def HeadlessError.ofRepository : RepositoryError → HeadlessError
  | .duplicate => conflict "Resource already exists"
  | .notFound message => invalidRequest message
  | error => internal error.display

def OAuthError.debug : OAuthError → String
  | unauthorized => "Unauthorized"
  | invalidRequest message => s!"InvalidRequest(\"{message}\")"
  | invalidGrant message => s!"InvalidGrant(\"{message}\")"
  | database error => s!"Database({error})"
  | encryption error => s!"Encryption(\"{error}\")"
  | serverError message => s!"ServerError(\"{message}\")"

/-! ### Whose token is presented -/

section

variable (environment : Environment) (library : OAuthLibrary) (tenantId : Int)
  (database : Database) (now : DateTime) (headers : Headers)

def validateCookie : Except AuthError ValidatedToken := do
  let token ← okOr (extractUcanFromCookie headers) .missingToken
  (validateUcanToken environment now ("Bearer " ++ token) 0).mapError fun _ => .invalidToken

def extractUserAndOriginFromToken : Except AuthError ValidatedToken :=
  match headers.authorization with
  | none => validateCookie environment now headers
  | some value => do
    let text ← okOr value.toStr .invalidToken
    if startsWith text "Bearer " then
      (validateUcanToken environment now text 0).mapError fun _ => .invalidToken
    else validateCookie environment now headers

def extractUserFromToken : Except AuthError String :=
  (extractUserAndOriginFromToken environment now headers).map ValidatedToken.userPubkey

/-! ### `headless_authorize` -/

structure HeadlessAuthorizeRequest where
  clientId : String
  redirectUri : String
  scope : Option String
  codeChallenge : Option String
  codeChallengeMethod : Option String
  state : Option String
  deriving DecidableEq

structure HeadlessAuthorizeResponse where
  success : Bool
  code : String
  state : Option String
  deriving DecidableEq

def headlessCode (request : HeadlessAuthorizeRequest) (drawn user : String) : OAuthCode where
  code := drawn
  tenantId := tenantId
  userPubkey := user
  clientId := request.clientId
  redirectUri := request.redirectUri
  scope := request.scope.getD "policy:full"
  expiresAt := now + codeLifetime
  codeChallenge := request.codeChallenge
  codeChallengeMethod := request.codeChallengeMethod
  pendingEmail := none
  pendingPasswordHash := none
  pendingEmailVerificationToken := none
  pendingEncryptedSecret := none
  previousAuthId := none
  state := request.state
  deviceCode := none
  isHeadless := true

def headlessAuthorize (request : HeadlessAuthorizeRequest) (drawn : String) :
    Except HeadlessError (Database × HeadlessAuthorizeResponse) := do
  let user ← (extractUserFromToken environment now headers).mapError fun _ => .unauthorized
  let _ ← (extractOrigin library request.redirectUri).mapError fun error =>
    .invalidRequest s!"Invalid redirect_uri: {error.debug}"
  let stored ← (database.storeCode
    (headlessCode tenantId now request drawn user)).mapError .ofRepository
  return (stored, ⟨true, drawn, request.state⟩)

/-! ### `create_bunker` -/

structure CreateBunkerRequest where
  appName : String
  origin : Option String
  policySlug : Option String
  deriving DecidableEq

structure CreateBunkerResponse where
  bunkerUrl : String
  origin : Option String
  appName : String
  bunkerPubkey : String
  createdAt : DateTime
  deriving DecidableEq

def validateOrigin (origin : String) : Except AuthError Unit := do
  let url ← okOr (library.parseUrl origin) (.badRequest "Invalid origin URL")
  let host ← okOr url.host (.badRequest "Origin must have a host")
  require (url.scheme = "https" || host = "localhost" || host = "127.0.0.1")
    (.badRequest "Origin must be HTTPS")

def bunkerPolicy (request : CreateBunkerRequest) : Option Nat :=
  request.policySlug.bind database.findPolicyIdBySlug

/-- The parameters of the authorization a manual connection creates. -/
def bunkerParams (request : CreateBunkerRequest) (user secretHash : String)
    (bunkerPublicKey : PublicKey) : Database.CreateOAuthAuthorizationParams where
  tenantId := tenantId
  userPubkey := user
  redirectOrigin := request.origin.getD ""
  clientId := request.appName
  bunkerPublicKey := bunkerPublicKey.toHex
  secretHash := secretHash
  policyId := bunkerPolicy database request
  clientPubkey := none
  authorizationHandle := none
  handleExpiresAt := now + Database.thirtyDays

def createBunker (request : CreateBunkerRequest) (secretPair : Option (String × String)) :
    Except AuthError (Database × CreateBunkerResponse) := do
  let user ← extractUserFromToken environment now headers
  request.origin.forM (validateOrigin library)
  let encrypted ← okOr (database.findEncryptedKey user) (.internal "Personal keys not found")
  let (secret, hash) ← okOr secretPair (.internal "Secret pool exhausted")
  let decrypted ← (library.crypto.decrypt encrypted).mapError fun error =>
    .internal s!"Failed to decrypt user key: {error}"
  let secretKey ← (library.crypto.secretKeyFromSlice decrypted).mapError fun error =>
    .internal s!"Invalid secret key: {error}"
  let bunkerPublicKey := (library.crypto.deriveBunkerKeys secretKey hash).publicKey
  let (_, created) ← (database.insertOAuthAuthorization
    (bunkerParams tenantId database now request user hash bunkerPublicKey)).mapError .ofRepository
  return (created, {
    bunkerUrl := s!"bunker://{bunkerPublicKey.toHex}?{library.relayParams}&secret={secret}"
    origin := request.origin
    appName := request.appName
    bunkerPubkey := user
    createdAt := now })

end

/-! ### The tables of the policies -/

/-- What a scope and the permissions of a policy are read from. -/
def Database.policyTables (database : Database) :
    List Policy × List PermissionRow × List PolicyPermission :=
  (database.policies, database.permissions, database.policyPermissions)

section

variable {before after : Database}

theorem resolvePolicyFromScope_of_tables (same : after.policyTables = before.policyTables)
    (scope : String) :
    resolvePolicyFromScope after scope = resolvePolicyFromScope before scope := by
  have policies : after.policies = before.policies := congrArg Prod.fst same
  have slugs : after.findPolicyIdBySlug = before.findPolicyIdBySlug := by
    funext slug
    unfold Database.findPolicyIdBySlug
    rw [policies]
  unfold resolvePolicyFromScope
  rw [slugs]

theorem grants_of_tables (environment : Environment)
    (same : after.policyTables = before.policyTables) (policyId : Option Nat) (user : PublicKey)
    (operation : Operation) :
    Grants environment after policyId user operation ↔
      Grants environment before policyId user operation := by
  have permissions : after.permissions = before.permissions :=
    congrArg (fun tables => tables.2.1) same
  have links : after.policyPermissions = before.policyPermissions :=
    congrArg (fun tables => tables.2.2) same
  have rows : after.permissionRows = before.permissionRows := by
    funext policyId
    unfold Database.permissionRows
    rw [permissions, links]
  have read : loadPermissions environment after policyId =
      loadPermissions environment before policyId := by
    unfold loadPermissions Database.getPermissions
    rw [rows]
  unfold Grants
  rw [read]

theorem Database.deleteAccount_policyTables (database : Database) (pubkey : String)
    (tenantId : Int) :
    (database.deleteAccount pubkey tenantId).policyTables = database.policyTables := by
  unfold deleteAccount
  dsimp only
  split
  · rfl
  · rfl

theorem tokenStatement_policyTables (library : OAuthLibrary) (context : TokenContext)
    (database : Database) (now : DateTime) (stage : TokenStage) :
    (tokenStatement library context database now stage).1.policyTables =
      database.policyTables := by
  cases stage with
  | findValid | checkEmail code email | checkPubkey code email | deleteCode code | getEmail code
  | findKey code email | resolvePolicy code prepared | revokeTokens code prepared previous
  | revokeAuthorization code prepared previous => rfl
  | finalize code email pending =>
    simp only [tokenStatement]
    split
    · rename_i finalized succeeded
      rw [Database.finalizeOAuthRegistration_eq_ok succeeded]
      rfl
    · rfl
  | createKey code email encrypted =>
    simp only [tokenStatement]
    split
    · rename_i created inserted
      rw [Database.createPersonalKey_eq_ok inserted]
      rfl
    · rfl
  | createAuthorization code prepared policyId =>
    simp only [tokenStatement]
    split
    · rename_i row created inserted
      rw [(Database.insertOAuthAuthorization_eq_ok inserted).2]
      rfl
    · rfl
  | createRefreshToken code prepared row =>
    simp only [tokenStatement]
    split
    · rename_i created inserted
      have same := (Database.createRefreshToken_eq_ok inserted).2
      split
      · rw [same]
        rfl
      · rw [same]
        rfl
    · rfl

end

/-! ### What a code is redeemed for -/

def TokenStage.code : TokenStage → Option OAuthCode
  | findValid => none
  | checkEmail code _ | checkPubkey code _ | finalize code _ _ | deleteCode code | getEmail code
  | findKey code _ | createKey code _ _ | resolvePolicy code _ | createAuthorization code _ _
  | createRefreshToken code _ _ | revokeTokens code _ _ | revokeAuthorization code _ _ => some code

section

variable {library : OAuthLibrary} {context : TokenContext} {before after : Database}
  {now : DateTime} {stage next : TokenStage}

/-- The policy a request has resolved is that of its code's scope. -/
def Resolved (database : Database) (stage : TokenStage) : Prop :=
  ∀ code prepared policyId, stage = .createAuthorization code prepared policyId →
    resolvePolicyFromScope database code.scope = .ok policyId

section

variable (follows : Follows library context before now stage after next)

include follows

theorem Follows.code {code : OAuthCode} (found : next.code = some code) :
    stage.code = some code ∨ StoredFor context before code := by
  cases follows with
  | pendingFound stored | found stored =>
    cases found
    exact .inr stored
  | emailFree | pubkeyFree | finalized _ | deleted | emailRead | keyFound | keyBrought
  | keyCreated _ | resolved _ | authorized _ | tokenStored _ | tokensRevoked =>
    exact .inl found

theorem Follows.resolves :
    Resolved before next := by
  intro code prepared policyId equal
  cases follows with
  | resolved policy =>
    obtain ⟨rfl, -, rfl⟩ := TokenStage.createAuthorization.inj equal
    exact policy
  | pendingFound _ | found _ | emailFree | pubkeyFree | finalized _ | deleted | emailRead
  | keyFound | keyBrought | keyCreated _ | authorized _ | tokenStored _ | tokensRevoked =>
    cases equal

theorem Follows.createdRow {row : OAuthAuthorization} (created : next.createdRow = some row) :
    ∃ code prepared policyId, stage = .createAuthorization code prepared policyId ∧
      row.userPubkey = code.userPubkey ∧ row.policyId = some policyId := by
  cases follows with
  | @authorized code prepared policyId inserted _ insertion =>
    cases created
    rw [(Database.insertOAuthAuthorization_eq_ok insertion).1]
    exact ⟨code, prepared, policyId, rfl, rfl, rfl⟩
  | pendingFound _ | found _ | emailFree | pubkeyFree | finalized _ | deleted | emailRead
  | keyFound | keyBrought | keyCreated _ | resolved _ | tokenStored _ | tokensRevoked =>
    cases created

end

end

/-! ### Runs from a stored code -/

section

variable {library : OAuthLibrary} {database : Database} {minted : OAuthCode}

/-- A request that presents the code carries it and the policy of its scope. -/
def CarriesMinted (database : Database) (minted : OAuthCode) (call : TokenCall) : Prop :=
  call.context.presents minted.tenantId minted.code = true →
    (∀ code, call.stage.code = some code → code = minted) ∧ Resolved database call.stage

/-- What was created from the code is its user's, with the policy of its scope, and the code has no
other row. -/
structure OnlyMinted (database : Database) (minted : OAuthCode) (state : TokenState) : Prop where
  tables : state.database.policyTables = database.policyTables
  codes : ∀ code ∈ state.database.oauthCodes,
    code.tenantId = minted.tenantId → code.code = minted.code → code = minted
  created : ∀ entry ∈ state.created, entry.1.presents minted.tenantId minted.code = true →
    entry.2.userPubkey = minted.userPubkey ∧ ∃ policyId,
      resolvePolicyFromScope database minted.scope = .ok policyId ∧
        entry.2.policyId = some policyId

theorem tokenStatement_codes {context : TokenContext} {before : Database} {now : DateTime}
    {stage : TokenStage} {code : OAuthCode}
    (member : code ∈ (tokenStatement library context before now stage).1.oauthCodes) :
    code ∈ before.oauthCodes := by
  cases computed : tokenStatement library context before now stage with
  | mk after outcome =>
    rw [computed] at member
    cases outcome with
    | next next =>
      rcases tokenStatement_next computed with ⟨-, -, codes⟩ | ⟨-, -, -, -,
        codes⟩ | ⟨-, -, -, codes⟩
      · exact codes ▸ member
      · exact (mem_delete.mp (codes ▸ member)).1
      · exact codes ▸ member
    | answer response => exact (tokenStatement_answer computed).2 ▸ member
    | fail error => exact tokenStatement_fail computed ▸ member

theorem Database.deleteAccount_codes {pubkey : String} {tenantId : Int} {code : OAuthCode}
    (member : code ∈ (database.deleteAccount pubkey tenantId).oauthCodes) :
    code ∈ database.oauthCodes := by
  unfold deleteAccount at member
  dsimp only at member
  split at member
  · exact (mem_delete.mp member).1
  · exact member

theorem advanceToken_minted {state : TokenState} {call : TokenCall}
    (only : OnlyMinted database minted state) (carries : CarriesMinted database minted call) :
    OnlyMinted database minted (advanceToken library state call).1 ∧
      ∀ stage, (advanceToken library state call).2 = some stage →
        CarriesMinted database minted stage := by
  obtain ⟨context, stage⟩ := call
  have tables : (tokenStatement library context state.database state.now stage).1.policyTables =
      database.policyTables :=
    (tokenStatement_policyTables library context state.database state.now stage).trans only.tables
  have codes : ∀ code ∈
      (tokenStatement library context state.database state.now stage).1.oauthCodes,
      code.tenantId = minted.tenantId → code.code = minted.code → code = minted :=
    fun code member => only.codes code (tokenStatement_codes member)
  cases computed : tokenStatement library context state.database state.now stage with
  | mk after outcome =>
    rw [computed] at tables codes
    cases outcome with
    | next next =>
      have follows := tokenStatement_follows computed
      simp only [advanceToken, computed]
      refine ⟨⟨tables, codes, ?_⟩, ?_⟩
      · intro entry member presents
        rcases mem_append.mp member with added | present
        · obtain ⟨row, created, rfl⟩ := map_eq_some_iff.mp (mem_toList.mp added)
          obtain ⟨code, prepared, policyId, rfl, owner, policy⟩ := follows.createdRow created
          obtain ⟨carried, resolved⟩ := carries presents
          obtain rfl := carried code rfl
          exact ⟨owner, policyId, resolved code prepared policyId rfl, policy⟩
        · exact only.created entry present presents
      · intro call same presents
        cases same
        obtain ⟨carried, -⟩ := carries presents
        refine ⟨fun code found => ?_, fun code prepared policyId equal => ?_⟩
        · rcases follows.code found with kept | ⟨member, tenant, name⟩
          · exact carried code kept
          · have own : context.tenantId = minted.tenantId ∧
                context.request.code = some minted.code := by
              simpa [TokenContext.presents] using presents
            refine only.codes code member (tenant.trans own.1) ?_
            exact Option.some.inj (name.symm.trans own.2)
        · rw [← resolvePolicyFromScope_of_tables only.tables]
          exact follows.resolves code prepared policyId equal
    | answer response | fail error =>
      simp only [advanceToken, computed]
      exact ⟨⟨tables, codes, only.created⟩, fun _ ended => by cases ended⟩

theorem tokenEvent_minted {state next : TokenState} {event : TokenEvent}
    (only : OnlyMinted database minted state) (moved : tokenEvent state event = some next) :
    OnlyMinted database minted next := by
  cases event with
  | advance duration =>
    cases moved
    exact ⟨only.tables, only.codes, only.created⟩
  | deleteCode tenantId code =>
    cases moved
    refine ⟨only.tables, fun other member => ?_, only.created⟩
    exact only.codes other (mem_delete.mp member).1
  | deleteAccount pubkey tenantId =>
    cases moved
    refine ⟨?_, fun other member => ?_, only.created⟩
    · exact (state.database.deleteAccount_policyTables pubkey tenantId).trans only.tables
    · exact only.codes other (Database.deleteAccount_codes member)

theorem poolStep_minted {pool next : TokenPool} {action : Action TokenCall TokenEvent}
    (minting : Asserted (OnlyMinted database minted) (fun _ => CarriesMinted database minted) pool)
    (stepped : poolStep (tokenSystem library) pool action = some next) :
    Asserted (OnlyMinted database minted) (fun _ => CarriesMinted database minted) next := by
  refine minting.step _ ?_ ?_ ?_ stepped
  · intro call _ first _
    have first : call.stage = .findValid := of_decide_eq_true first
    rw [first]
    refine ⟨fun code found => ?_, fun code prepared policyId equal => ?_⟩
    · cases found
    · cases equal
  · intro index call _ present
    have carries := minting.calls call (mem_of_getElem? present)
    obtain ⟨only, next⟩ := advanceToken_minted minting.common carries
    exact ⟨only, next, fun other member => minting.calls other (mem_of_mem_eraseIdx member)⟩
  · intro event shared _ moved
    exact ⟨tokenEvent_minted minting.common moved, minting.calls⟩

/-- However the requests interleave, whatever is created from a code is its user's, with the policy
of its scope. -/
theorem run_minted {after : Database} (stored : database.storeCode minted = .ok after)
    {now : DateTime} {actions : List (Action TokenCall TokenEvent)} {pool : TokenPool}
    (ran : Transition.run (poolStep (tokenSystem library)) (.idle (.fresh after now)) actions =
      some pool) : OnlyMinted database minted pool.shared := by
  obtain ⟨fresh, rfl⟩ := Database.storeCode_eq_ok stored
  have initial : OnlyMinted database minted
      (.fresh { database with oauthCodes := database.oauthCodes ++ [minted] } now) := by
    refine ⟨rfl, fun code member _ same => ?_, fun _ member => by cases member⟩
    rcases mem_append.mp member with present | added
    · exact absurd same (fresh code present)
    · exact mem_singleton.mp added
  have idle : Asserted (OnlyMinted database minted) (fun _ => CarriesMinted database minted)
      (Pool.idle (.fresh { database with oauthCodes := database.oauthCodes ++ [minted] } now)) :=
    ⟨initial, fun _ member => by cases member⟩
  exact (Transition.invariant_of_run _ (fun _ _ _ held stepped => poolStep_minted held stepped)
    idle ran).common

end

/-! ### What the endpoints mint -/

section

variable {environment : Environment} {library : OAuthLibrary} {tenantId : Int}
  {database after : Database} {now : DateTime} {headers : Headers}

theorem headlessAuthorize_eq_ok {request : HeadlessAuthorizeRequest} {drawn : String}
    {response : HeadlessAuthorizeResponse}
    (accepted : headlessAuthorize environment library tenantId database now headers request drawn =
      .ok (after, response)) :
    ∃ user, extractUserFromToken environment now headers = .ok user ∧ response.code = drawn ∧
      database.storeCode (headlessCode tenantId now request drawn user) = .ok after := by
  obtain ⟨user, extracted, accepted⟩ := bind_eq_ok.mp accepted
  obtain ⟨origin, -, accepted⟩ := bind_eq_ok.mp accepted
  obtain ⟨stored, storing, answered⟩ := bind_eq_ok.mp accepted
  obtain ⟨rfl, rfl⟩ := Prod.mk.inj (pure_eq_ok.mp answered)
  exact ⟨user, mapError_eq_ok.mp extracted, rfl, mapError_eq_ok.mp storing⟩

theorem createBunker_eq_ok {request : CreateBunkerRequest} {secretPair : Option (String × String)}
    {response : CreateBunkerResponse}
    (accepted : createBunker environment library tenantId database now headers request secretPair =
      .ok (after, response)) :
    ∃ user secretHash bunkerPublicKey, extractUserFromToken environment now headers = .ok user ∧
      after = database.createOAuthAuthorization
        (bunkerParams tenantId database now request user secretHash bunkerPublicKey) := by
  obtain ⟨user, extracted, accepted⟩ := bind_eq_ok.mp accepted
  obtain ⟨_, -, accepted⟩ := bind_eq_ok.mp accepted
  obtain ⟨encrypted, -, accepted⟩ := bind_eq_ok.mp accepted
  obtain ⟨⟨secret, secretHash⟩, -, accepted⟩ := bind_eq_ok.mp accepted
  obtain ⟨decrypted, -, accepted⟩ := bind_eq_ok.mp accepted
  obtain ⟨secretKey, -, accepted⟩ := bind_eq_ok.mp accepted
  obtain ⟨⟨row, created⟩, inserting, answered⟩ := bind_eq_ok.mp accepted
  obtain ⟨rfl, -⟩ := Prod.mk.inj (pure_eq_ok.mp answered)
  exact ⟨user, secretHash, _, extracted,
    (Database.insertOAuthAuthorization_eq_ok (mapError_eq_ok.mp inserting)).2⟩

variable (environment library tenantId database now headers) in
/-- What a token mints is its user's, whatever its own authorization allows: what
`headless_authorize` mints has the policy of the requested scope, and what a connection mints that
of its slug. -/
theorem minted_asRequested :
    (∀ request drawn response later actions pool context row,
      headlessAuthorize environment library tenantId database now headers request drawn =
          .ok (after, response) →
        Transition.run (poolStep (tokenSystem library)) (.idle (.fresh after later)) actions =
          some pool →
        (context, row) ∈ pool.shared.created →
        context.presents tenantId response.code = true →
        ∃ policyId, extractUserFromToken environment now headers = .ok row.userPubkey ∧
          resolvePolicyFromScope database (request.scope.getD "policy:full") = .ok policyId ∧
          row.policyId = some policyId ∧
          ∀ earlier, Covers database policyId earlier → ∀ key operation,
            Grants environment pool.shared.database row.policyId key operation →
              Grants environment database earlier key operation) ∧
    ∀ request secretPair response,
      createBunker environment library tenantId database now headers request secretPair =
          .ok (after, response) →
        ∃ row, after.oauthAuthorizations = database.oauthAuthorizations ++ [row] ∧
          extractUserFromToken environment now headers = .ok row.userPubkey ∧
          (request.policySlug = none → row.policyId = none) ∧
          ∀ slug policyId, request.policySlug = some slug →
            database.findPolicyIdBySlug slug = some policyId →
            row.policyId = some policyId ∧
              ∀ earlier, Covers database policyId earlier → ∀ key operation,
                Grants environment after row.policyId key operation →
                  Grants environment database earlier key operation := by
  constructor
  · intro request drawn response later actions pool context row accepted ran created presents
    obtain ⟨user, extracted, named, stored⟩ := headlessAuthorize_eq_ok accepted
    rw [named] at presents
    have only := run_minted stored ran
    obtain ⟨owner, policyId, resolved, policy⟩ := only.created (context, row) created presents
    rw [owner, policy]
    refine ⟨policyId, extracted, resolved, rfl, fun earlier covers key operation granted => ?_⟩
    exact ((grants_of_tables environment only.tables _ _ _).mp granted).of_covers covers
  · intro request secretPair response accepted
    obtain ⟨user, secretHash, bunkerPublicKey, extracted, rfl⟩ := createBunker_eq_ok accepted
    refine ⟨_, rfl, extracted, fun unnamed => ?_, fun slug policyId named found => ?_⟩
    · show request.policySlug.bind database.findPolicyIdBySlug = none
      rw [unnamed]
      rfl
    · have policy : request.policySlug.bind database.findPolicyIdBySlug = some policyId := by
        rw [named]
        exact found
      refine ⟨policy, fun earlier covers key operation granted => ?_⟩
      have granted : Grants environment database (bunkerPolicy database request) key operation :=
        granted
      unfold bunkerPolicy at granted
      rw [policy] at granted
      exact granted.of_covers covers

end

/-! ### A restricted token -/

/-- The first key's token, which names its read-only authorization. -/
def aliceBearer : Headers where
  authorization := some ⟨some "Bearer alice"⟩
  cookie := none

def sampleHeadlessRequest (scope : String) : HeadlessAuthorizeRequest where
  clientId := "Second App"
  redirectUri := "https://app.example/callback"
  scope := some scope
  codeChallenge := none
  codeChallengeMethod := none
  state := none

def sampleBunkerRequest (slug : String) : CreateBunkerRequest where
  appName := "Third App"
  origin := none
  policySlug := some slug

def withHeadlessCode (scope : String) : Database :=
  { twoPolicies with
    oauthCodes := [headlessCode 1 0 (sampleHeadlessRequest scope) "code" (sampleKey 0)] }

theorem headlessAuthorize_alice (scope : String) :
    headlessAuthorize sampleEnvironment sampleOAuthLibrary 1 twoPolicies 0 aliceBearer
        (sampleHeadlessRequest scope) "code" =
      .ok (withHeadlessCode scope, ⟨true, "code", none⟩) := by
  have bearer : startsWith "Bearer alice" "Bearer " = true := by decide +kernel
  have found : extractUserAndOriginFromToken sampleEnvironment 0 aliceBearer =
      .ok (sampleValidated 0) := by
    refine bind_eq_ok.mpr ⟨"Bearer alice", rfl, ?_⟩
    rw [if_pos bearer, validate_alice]
    rfl
  have extracted : extractUserFromToken sampleEnvironment 0 aliceBearer = .ok (sampleKey 0) := by
    unfold extractUserFromToken
    rw [found]
    rfl
  have parsed : extractOrigin sampleOAuthLibrary (sampleHeadlessRequest scope).redirectUri =
      .ok "https://app.example" := rfl
  unfold headlessAuthorize
  rw [extracted, parsed]
  rfl

def redemption : List (Action TokenCall TokenEvent) :=
  .start (sampleTokenCall "drawn") :: List.replicate 7 (.step 0)

theorem redemption_created {scope : String} {policyId : Nat}
    (redeems : (Transition.run (poolStep (tokenSystem sampleOAuthLibrary))
        (.idle (.fresh (withHeadlessCode scope) 0)) redemption).map
          (fun pool => pool.shared.created.map fun entry => (entry.1, entry.2.policyId)) =
      some [((sampleTokenCall "drawn").context, some policyId)]) :
    ∃ pool row, Transition.run (poolStep (tokenSystem sampleOAuthLibrary))
        (.idle (.fresh (withHeadlessCode scope) 0)) redemption = some pool ∧
      ((sampleTokenCall "drawn").context, row) ∈ pool.shared.created ∧
      row.policyId = some policyId := by
  obtain ⟨pool, ran, entries⟩ := map_eq_some_iff.mp redeems
  have member : ((sampleTokenCall "drawn").context, some policyId) ∈
      pool.shared.created.map fun entry => (entry.1, entry.2.policyId) := by
    rw [entries]
    exact mem_singleton.mpr rfl
  obtain ⟨⟨context, row⟩, created, same⟩ := mem_map.mp member
  obtain ⟨rfl, policy⟩ := Prod.mk.inj same
  exact ⟨pool, row, ran, created, policy⟩

theorem minted_asRequested_sample :
    (∃ pool row, Transition.run (poolStep (tokenSystem sampleOAuthLibrary))
        (.idle (.fresh (withHeadlessCode "policy:readonly") 0)) redemption = some pool ∧
      ((sampleTokenCall "drawn").context, row) ∈ pool.shared.created ∧
      ∃ policyId, extractUserFromToken sampleEnvironment 0 aliceBearer = .ok row.userPubkey ∧
        resolvePolicyFromScope twoPolicies "policy:readonly" = .ok policyId ∧
        row.policyId = some policyId) ∧
    ∃ after response row, createBunker sampleEnvironment sampleOAuthLibrary 1 twoPolicies 0
        aliceBearer (sampleBunkerRequest "readonly") (some ("secret", "$2b$secret")) =
          .ok (after, response) ∧
      after.oauthAuthorizations = twoPolicies.oauthAuthorizations ++ [row] ∧
      extractUserFromToken sampleEnvironment 0 aliceBearer = .ok row.userPubkey ∧
      row.policyId = some 2 := by
  constructor
  · have redeems : (Transition.run (poolStep (tokenSystem sampleOAuthLibrary))
        (.idle (.fresh (withHeadlessCode "policy:readonly") 0)) redemption).map
          (fun pool => pool.shared.created.map fun entry => (entry.1, entry.2.policyId)) =
        some [((sampleTokenCall "drawn").context, some 2)] := by decide +kernel
    obtain ⟨pool, row, ran, created, -⟩ := redemption_created redeems
    obtain ⟨policyId, extracted, resolved, policy, -⟩ :=
      (minted_asRequested sampleEnvironment sampleOAuthLibrary 1 twoPolicies 0 aliceBearer).1 _ _ _
        _ _ _ _ _ (headlessAuthorize_alice "policy:readonly") ran created rfl
    exact ⟨pool, row, ran, created, policyId, extracted, resolved, policy⟩
  · obtain ⟨row, inserted, extracted, -, slug⟩ :=
      (minted_asRequested sampleEnvironment sampleOAuthLibrary 1 twoPolicies 0 aliceBearer).2
        (sampleBunkerRequest "readonly") (some ("secret", "$2b$secret")) _ rfl
    exact ⟨_, _, row, rfl, inserted, extracted, (slug "readonly" 2 rfl rfl).1⟩

/-- A read-only token mints one that allows everything, by a code, and by a connection with an
unknown slug. -/
theorem minted_escalates :
    ∃ token own, extractUserAndOriginFromToken sampleEnvironment 0 aliceBearer = .ok token ∧
      token.bunkerPubkey.bind twoPolicies.findByBunkerPubkey = some own ∧
      ¬Grants sampleEnvironment twoPolicies own.policyId ⟨sampleKey 0⟩
        (.encrypt "hello" ⟨sampleKey 3⟩) ∧
      (∃ after response pool row,
        headlessAuthorize sampleEnvironment sampleOAuthLibrary 1 twoPolicies 0 aliceBearer
            (sampleHeadlessRequest "policy:full") "code" = .ok (after, response) ∧
          Transition.run (poolStep (tokenSystem sampleOAuthLibrary)) (.idle (.fresh after 0))
            redemption = some pool ∧
          ((sampleTokenCall "drawn").context, row) ∈ pool.shared.created ∧
          Grants sampleEnvironment pool.shared.database row.policyId ⟨sampleKey 0⟩
            (.encrypt "hello" ⟨sampleKey 3⟩)) ∧
      ∃ after response row,
        createBunker sampleEnvironment sampleOAuthLibrary 1 twoPolicies 0 aliceBearer
            (sampleBunkerRequest "unknown") (some ("secret", "$2b$secret")) =
          .ok (after, response) ∧
          twoPolicies.findPolicyIdBySlug "unknown" = none ∧
          after.oauthAuthorizations = twoPolicies.oauthAuthorizations ++ [row] ∧
          Grants sampleEnvironment after row.policyId ⟨sampleKey 0⟩
            (.encrypt "hello" ⟨sampleKey 3⟩) := by
  refine ⟨sampleValidated 0, _, rfl, rfl, ?_, ?_, _, _, _, rfl, rfl, rfl, grants_none _ _⟩
  · exact readOnly_denies (mem_singleton.mpr rfl)
  · have redeems : (Transition.run (poolStep (tokenSystem sampleOAuthLibrary))
        (.idle (.fresh (withHeadlessCode "policy:full") 0)) redemption).map
          (fun pool => pool.shared.created.map fun entry => (entry.1, entry.2.policyId)) =
        some [((sampleTokenCall "drawn").context, some 3)] := by decide +kernel
    obtain ⟨pool, row, ran, created, policy⟩ := redemption_created redeems
    obtain ⟨user, -, -, stored⟩ := headlessAuthorize_eq_ok (headlessAuthorize_alice "policy:full")
    have tables := (run_minted stored ran).tables
    refine ⟨_, _, pool, row, headlessAuthorize_alice "policy:full", ran, created, ?_⟩
    rw [policy]
    exact (grants_of_tables sampleEnvironment tables _ _ _).mpr full_allows

end Divine.Keycast
