/-
This file embeds what the OAuth endpoints share: their errors, the reading of a redirect
address, of a scope and of a code verifier, and the queries on codes, users, keys and
refresh tokens.
-/

import Divine.Keycast.Ucan
import Divine.Keycast.Database

namespace Divine.Keycast

open Fallible Table

/-! ### Errors -/

inductive RepositoryError where
  | notFound (record : String)
  | duplicate
  | integrity (message : String)
  | database (message : String)
  deriving DecidableEq

def RepositoryError.display : RepositoryError → String
  | notFound record => s!"Not found: {record}"
  | duplicate => "Already exists"
  | integrity message => s!"Integrity violation: {message}"
  | database message => s!"Database error: {message}"

inductive OAuthError where
  | unauthorized
  | invalidRequest (message : String)
  | invalidGrant (message : String)
  | database (error : String)
  | encryption (error : String)
  | serverError (message : String)
  deriving DecidableEq

def OAuthError.ofRepository (error : RepositoryError) : OAuthError := invalidRequest error.display

/-! ### Libraries -/

/-- A parsed address. -/
structure Url where
  scheme : String
  host : Option String
  port : Option Nat
  deriving DecidableEq

structure OAuthLibrary where
  crypto : Crypto
  /-- `Url::parse`. -/
  parseUrl : String → Option Url
  /-- `Keys::parse`, of an `nsec` or of hexadecimal digits. -/
  parseKeys : String → Except String Keys
  /-- `generate_server_signed_ucan`: user, tenant, email, origin, bunker key, first party. -/
  generateServerSignedUcan :
    PublicKey → Int → String → String → Option String → Bool → Except String String
  /-- The query part of a bunker address that names the relays. -/
  relayParams : String
  /-- `token_expiry_seconds`. -/
  tokenExpirySeconds : Int

/-! ### Redirect addresses, scopes and verifiers -/

def localHosts : List String := ["localhost", "127.0.0.1", "[::1]", "::1"]

def extractOrigin (library : OAuthLibrary) (redirectUri : String) : Except OAuthError String := do
  let url ← okOr (library.parseUrl redirectUri) (.invalidRequest "Invalid redirect_uri")
  let host ← okOr url.host (.invalidRequest "redirect_uri missing host")
  require (url.scheme = "http" || url.scheme = "https") (.invalidRequest
    (s!"Invalid redirect_uri scheme '{url.scheme}'. Only https:// URLs are allowed " ++
      "(http:// for localhost only)."))
  require (url.scheme = "https" || host ∈ localHosts)
    (.invalidRequest "HTTPS required for non-localhost redirect_uri")
  match url.port with
  | some port => return s!"{url.scheme}://{host}:{port}"
  | none => return s!"{url.scheme}://{host}"

def parsePolicyScope (scope : String) : Except OAuthError String :=
  match stripLeading "policy:" scope with
  | some slug =>
    if slug = "" then .error (.invalidRequest
      "Policy scope cannot be empty. Use 'policy:social', 'policy:readonly', etc.")
    else .ok slug
  | none => .error (.invalidRequest
      (s!"Invalid scope '{scope}'. Use 'policy:social', 'policy:readonly', etc. " ++
        "See GET /api/policies for available options."))

def resolvePolicyFromScope (database : Database) (scope : String) : Except OAuthError Nat := do
  let slug ← parsePolicyScope scope
  okOr (database.findPolicyIdBySlug slug) (.invalidRequest
    s!"Unknown policy '{slug}'. See GET /api/policies for available options.")

def splitOnce (separator : Char) (text : String) : Option (String × String) :=
  match text.toList.span (· ≠ separator) with
  | (before, _ :: after) => some (String.ofList before, String.ofList after)
  | (_, []) => none

def isHexDigit (digit : Char) : Bool :=
  ('0' ≤ digit && digit ≤ '9') || ('a' ≤ digit && digit ≤ 'f') || ('A' ≤ digit && digit ≤ 'F')

def extractNsecFromVerifier (verifier : String) : Option String :=
  match splitOnce '.' verifier with
  | none => none
  | some (_, nsec) =>
    if startsWith nsec "nsec1" ||
        (nsec.utf8ByteSize = 64 && nsec.toList.all isHexDigit) then some nsec
    else none

def validatePkce (crypto : Crypto) (verifier challenge method : String) : Except OAuthError Unit :=
  if method = "S256" then
    require (crypto.sha256Base64 verifier = challenge)
      (.invalidRequest "Invalid code_verifier: PKCE validation failed")
  else if method = "plain" then
    require (verifier = challenge)
      (.invalidRequest "Invalid code_verifier: plain PKCE validation failed")
  else .error (.invalidRequest s!"Unsupported code_challenge_method: {method}")

/-! ### Consumed tokens -/

def RefreshToken.consume (now : DateTime) (row : RefreshToken) : RefreshToken :=
  { row with consumedAt := some now }

@[simp] theorem RefreshToken.consume_tokenHash (now : DateTime) (row : RefreshToken) :
    (row.consume now).tokenHash = row.tokenHash := rfl

@[simp] theorem RefreshToken.consume_authorizationId (now : DateTime) (row : RefreshToken) :
    (row.consume now).authorizationId = row.authorizationId := rfl

namespace Database

/-! ### Codes -/

variable (database : Database)

def ofCode (tenantId : Int) (code : String) (row : OAuthCode) : Bool :=
  row.tenantId = tenantId && row.code = code

def findValidCode (tenantId : Int) (code : String) (now : DateTime) : Option OAuthCode :=
  selectOne database.oauthCodes fun row => ofCode tenantId code row && decide (now < row.expiresAt)

def deleteCode (tenantId : Int) (code : String) : Database :=
  { database with oauthCodes := delete database.oauthCodes (ofCode tenantId code) }

def storeCode (row : OAuthCode) : Except RepositoryError Database :=
  if selectExists database.oauthCodes fun other => other.code = row.code then .error .duplicate
  else .ok { database with oauthCodes := database.oauthCodes ++ [row] }

/-! ### Users and keys -/

def findPubkeyByEmail (email : String) (tenantId : Int) : Option String :=
  (selectOne database.users fun user =>
    user.email = some email && user.tenantId = tenantId).map User.pubkey

def getEmail (pubkey : String) (tenantId : Int) : Except RepositoryError String :=
  match selectOne database.users fun user => user.pubkey = pubkey && user.tenantId = tenantId with
  | none => .error (.notFound "record not found")
  | some user => okOr user.email (.database
      "error occurred while decoding column 0: unexpected null; try decoding as an `Option`")

def foreignKeyMessage (table constraint : String) : String :=
  s!"insert or update on table \"{table}\" violates foreign key constraint \"{constraint}\""

def createPersonalKey (row : PersonalKey) : Except RepositoryError Database :=
  if selectExists database.users fun user => user.pubkey = row.userPubkey then
    .ok { database with personalKeys := database.personalKeys ++ [row] }
  else .error (.integrity
    (foreignKeyMessage "personal_keys" "personal_keys_user_pubkey_fkey"))

def finalizeOAuthRegistration (user : User) (key : PersonalKey) (tenantId : Int) (code : String) :
    Except RepositoryError Database :=
  if selectExists database.users fun other =>
      other.pubkey = user.pubkey ||
        (other.tenantId = user.tenantId && other.email.isSome && other.email = user.email) then
    .error .duplicate
  else
    .ok ({ database with
      users := database.users ++ [user]
      personalKeys := database.personalKeys ++ [key] }.deleteCode tenantId code)

variable {database}
variable {after : Database}


theorem createPersonalKey_eq_ok {row : PersonalKey}
    (created : database.createPersonalKey row = .ok after) :
    after = { database with personalKeys := database.personalKeys ++ [row] } := by
  unfold createPersonalKey at created
  split at created
  · exact (Except.ok.inj created).symm
  · cases created

theorem finalizeOAuthRegistration_eq_ok {user : User} {key : PersonalKey} {tenantId : Int}
    {code : String}
    (finalized : database.finalizeOAuthRegistration user key tenantId code = .ok after) :
    after = { database with
      users := database.users ++ [user]
      personalKeys := database.personalKeys ++ [key] }.deleteCode tenantId code := by
  unfold finalizeOAuthRegistration at finalized
  split at finalized
  · cases finalized
  · exact (Except.ok.inj finalized).symm

variable (database)

/-! ### Authorizations and refresh tokens -/

def insertOAuthAuthorization (params : CreateOAuthAuthorizationParams) :
    Except RepositoryError (OAuthAuthorization × Database) :=
  if selectExists database.users fun user => user.pubkey = params.userPubkey then
    if params.authorizationHandle.isSome && selectExists database.oauthAuthorizations fun row =>
        row.authorizationHandle = params.authorizationHandle && row.revokedAt.isNone then
      .error .duplicate
    else .ok (params.row database.oauthAuthorizationsSeq, database.createOAuthAuthorization params)
  else .error (.integrity
    (foreignKeyMessage "oauth_authorizations" "oauth_authorizations_user_pubkey_fkey"))

def revokeOAuthAuthorization (id : Nat) (now : DateTime) : Database :=
  { database with
    oauthAuthorizations := update database.oauthAuthorizations (fun row => row.id = id)
      fun row => { row with revokedAt := some now } }

/-- `REFRESH_TOKEN_EXPIRY_DAYS`, and the same number of days for a handle. -/
def thirtyDays : Nat := 30 * 24 * 60 * 60 * 1000000

def refreshTokenRow (tokenHash : String) (authorizationId : Nat) (tenantId : Int) (now : DateTime) :
    RefreshToken where
  id := database.refreshTokensSeq
  tokenHash := tokenHash
  authorizationId := authorizationId
  tenantId := tenantId
  createdAt := now
  expiresAt := now + thirtyDays
  consumedAt := none

def createRefreshToken (crypto : Crypto) (token : String) (authorizationId : Nat) (tenantId : Int)
    (now : DateTime) : Except RepositoryError Database :=
  if selectExists database.oauthAuthorizations fun row => row.id = authorizationId then
    if selectExists database.refreshTokens fun row => row.tokenHash = crypto.sha256Hex token then
      .error .duplicate
    else .ok { database with
      refreshTokens := database.refreshTokens ++
        [database.refreshTokenRow (crypto.sha256Hex token) authorizationId tenantId now]
      refreshTokensSeq := database.refreshTokensSeq + 1 }
  else .error (.integrity
    (foreignKeyMessage "oauth_refresh_tokens" "oauth_refresh_tokens_authorization_id_fkey"))

variable {database}

theorem insertOAuthAuthorization_eq_ok {params : CreateOAuthAuthorizationParams}
    {row : OAuthAuthorization}
    (inserted : database.insertOAuthAuthorization params = .ok (row, after)) :
    row = params.row database.oauthAuthorizationsSeq ∧
      after = database.createOAuthAuthorization params := by
  unfold insertOAuthAuthorization at inserted
  split at inserted
  · split at inserted
    · cases inserted
    · obtain ⟨same, created⟩ := Prod.mk.inj (Except.ok.inj inserted)
      exact ⟨same.symm, created.symm⟩
  · cases inserted

theorem createRefreshToken_eq_ok {crypto : Crypto} {token : String} {authorizationId : Nat}
    {tenantId : Int} {now : DateTime}
    (created : database.createRefreshToken crypto token authorizationId tenantId now =
      .ok after) :
    (∀ row ∈ database.refreshTokens, row.tokenHash ≠ crypto.sha256Hex token) ∧
      after = { database with
        refreshTokens := database.refreshTokens ++
          [database.refreshTokenRow (crypto.sha256Hex token) authorizationId tenantId now]
        refreshTokensSeq := database.refreshTokensSeq + 1 } := by
  unfold createRefreshToken at created
  split at created
  · split at created
    · cases created
    · rename_i fresh
      refine ⟨fun row member same => ?_, (Except.ok.inj created).symm⟩
      exact fresh (selectExists_iff.mpr ⟨row, member, decide_eq_true same⟩)
  · cases created

variable (database)

/-- The row a consumption of the token finds: unconsumed and unexpired. -/
def consumable (tokenHash : String) (now : DateTime) (row : RefreshToken) : Bool :=
  row.tokenHash = tokenHash && row.consumedAt.isNone && decide (now < row.expiresAt)

def consumeRefreshToken (crypto : Crypto) (token : String) (now : DateTime) :
    Option (RefreshToken × Database) :=
  (selectOne database.refreshTokens (consumable (crypto.sha256Hex token) now)).map fun row =>
    (row.consume now, { database with
      refreshTokens := update database.refreshTokens (consumable (crypto.sha256Hex token) now)
        (RefreshToken.consume now) })

def revokeRefreshTokens (authorizationId : Nat) (now : DateTime) : Database :=
  { database with
    refreshTokens := update database.refreshTokens
      (fun row => row.authorizationId = authorizationId && row.consumedAt.isNone)
      (RefreshToken.consume now) }

end Database

/-! ### Requests to the token endpoint -/

structure TokenRequest where
  grantType : Option String
  code : Option String
  clientId : String
  redirectUri : Option String
  codeVerifier : Option String
  refreshToken : Option String
  deriving DecidableEq

/-- What the random generators and the secret pool give one request: a secret, a handle and a
refresh token. -/
structure Draws where
  secretPair : Option (String × String)
  authorizationHandle : String
  refreshToken : String
  deriving DecidableEq

structure TokenResponse where
  bunkerUrl : String
  accessToken : String
  tokenType : String
  expiresIn : Int
  scope : String
  authorizationHandle : Option String
  refreshToken : String
  deriving DecidableEq

end Divine.Keycast
