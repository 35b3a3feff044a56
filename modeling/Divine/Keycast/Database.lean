/-
This file gives the tables of the database and the queries of the repositories that
several handlers share.
-/

import Divine.Keycast.Keys
import Divine.Library.Fallible
import Divine.Library.Table

namespace Divine.Keycast

open Divine.Table Divine.Fallible

/-! ### Rows -/

structure User where
  pubkey : String
  tenantId : Int
  email : Option String
  passwordHash : Option String
  emailVerified : Bool
  deriving DecidableEq

structure PersonalKey where
  userPubkey : String
  encryptedSecretKey : Bytes
  tenantId : Int
  deriving DecidableEq

structure OAuthAuthorization where
  id : Nat
  userPubkey : String
  redirectOrigin : String
  clientId : Option String
  bunkerPublicKey : String
  secretHash : String
  policyId : Option Nat
  tenantId : Int
  clientPubkey : Option String
  connectedClientPubkey : Option String
  revokedAt : Option DateTime
  expiresAt : Option DateTime
  handleExpiresAt : DateTime
  authorizationHandle : Option String
  deriving DecidableEq

structure Authorization where
  id : Nat
  tenantId : Int
  storedKeyId : Nat
  secretHash : String
  bunkerPublicKey : String
  policyId : Nat
  expiresAt : Option DateTime
  connectedClientPubkey : Option String
  deriving DecidableEq

structure StoredKey where
  id : Nat
  teamId : Nat
  pubkey : String
  secretKey : Bytes
  tenantId : Int
  deriving DecidableEq

structure Policy where
  id : Nat
  teamId : Option Nat
  slug : Option String
  deriving DecidableEq

/-- A row of `permissions`, its configuration still the stored text. -/
structure PermissionRow where
  id : Nat
  identifier : String
  config : String
  deriving DecidableEq

structure PolicyPermission where
  policyId : Nat
  permissionId : Nat
  deriving DecidableEq

structure OAuthCode where
  code : String
  tenantId : Int
  userPubkey : String
  clientId : String
  redirectUri : String
  scope : String
  expiresAt : DateTime
  codeChallenge : Option String
  codeChallengeMethod : Option String
  pendingEmail : Option String
  pendingPasswordHash : Option String
  pendingEmailVerificationToken : Option String
  pendingEncryptedSecret : Option Bytes
  previousAuthId : Option Nat
  state : Option String
  deviceCode : Option String
  isHeadless : Bool
  deriving DecidableEq

structure RefreshToken where
  id : Nat
  tokenHash : String
  authorizationId : Nat
  tenantId : Int
  createdAt : DateTime
  expiresAt : DateTime
  consumedAt : Option DateTime
  deriving DecidableEq

/-- The tables, with the next value of each sequence that numbers rows. -/
structure Database where
  users : List User
  personalKeys : List PersonalKey
  oauthAuthorizations : List OAuthAuthorization
  authorizations : List Authorization
  storedKeys : List StoredKey
  policies : List Policy
  permissions : List PermissionRow
  policyPermissions : List PolicyPermission
  oauthCodes : List OAuthCode
  refreshTokens : List RefreshToken
  oauthAuthorizationsSeq : Nat
  refreshTokensSeq : Nat
  deriving DecidableEq

def Database.empty : Database where
  users := []
  personalKeys := []
  oauthAuthorizations := []
  authorizations := []
  storedKeys := []
  policies := []
  permissions := []
  policyPermissions := []
  oauthCodes := []
  refreshTokens := []
  oauthAuthorizationsSeq := 1
  refreshTokensSeq := 1

/-! ### Active authorizations -/

def unexpired (expiresAt : Option DateTime) (now : DateTime) : Bool :=
  match expiresAt with
  | none => true
  | some expires => decide (now < expires)

/-- `revoked_at IS NULL AND (expires_at IS NULL OR expires_at > NOW())`. -/
def OAuthAuthorization.active (row : OAuthAuthorization) (now : DateTime) : Bool :=
  row.revokedAt.isNone && unexpired row.expiresAt now

/-- The same condition for a team's row, which has no `revoked_at`. -/
def Authorization.active (row : Authorization) (now : DateTime) : Bool :=
  unexpired row.expiresAt now

/-- `sqlx::Error::RowNotFound`, which `fetch_one` reports. -/
def rowNotFound : String :=
  "no rows returned by a query that expected to return at least one row"

namespace Database

variable (crypto : Crypto) (database : Database)

/-! ### Users and personal keys -/

/-- `UserRepository::is_unclaimed`. -/
def isUnclaimed (pubkey : String) (tenantId : Int) : Option Bool :=
  (selectOne database.users fun user =>
    user.pubkey = pubkey && user.tenantId = tenantId).map fun user => user.email.isNone

def findEncryptedKey (userPubkey : String) : Option Bytes :=
  (selectOne database.personalKeys fun key => key.userPubkey = userPubkey).map
    PersonalKey.encryptedSecretKey

/-- `UserRepository::claim_account`. It reports an error when it affects no row. -/
def claimAccount (pubkey : String) (tenantId : Int) (email passwordHash : String) : Database :=
  { database with
    users := update database.users
      (fun user => user.pubkey = pubkey && user.tenantId = tenantId && user.email.isNone)
      fun user => { user with
        email := some email
        passwordHash := some passwordHash
        emailVerified := true } }

/-- `UserRepository::delete_account`, with the rows the foreign keys delete. It fails without such a
user. -/
def deleteAccount (pubkey : String) (tenantId : Int) : Database :=
  let ofUser (user : User) : Bool := user.pubkey = pubkey && user.tenantId = tenantId
  let owned := database.oauthAuthorizations.filter fun row => row.userPubkey = pubkey
  if selectExists database.users ofUser then
    { database with
      oauthCodes := delete database.oauthCodes fun code =>
        code.userPubkey = pubkey && code.tenantId = tenantId
      users := delete database.users ofUser
      personalKeys := delete database.personalKeys fun key => key.userPubkey = pubkey
      oauthAuthorizations := delete database.oauthAuthorizations fun row =>
        row.userPubkey = pubkey
      refreshTokens := delete database.refreshTokens fun token =>
        selectExists owned fun row => row.id = token.authorizationId }
  else database

/-! ### Policies and permissions -/

/-- Decoding a row of `permissions`: the stored configuration must be JSON text. -/
def toPermission (row : PermissionRow) : Except String Permission :=
  match crypto.parseJson row.config with
  | .error error => .error error
  | .ok config => .ok ⟨row.id, row.identifier, config⟩

def permissionRows (policyId : Nat) : List PermissionRow :=
  (database.policyPermissions.filter fun link => link.policyId = policyId).flatMap fun link =>
    database.permissions.filter fun row => row.id = link.permissionId

/-- `PolicyRepository::get_permissions`. One row that does not decode fails the query. -/
def getPermissions (policyId : Nat) : Except String (List Permission) :=
  (database.permissionRows policyId).mapM (toPermission crypto)

def findPolicyIdBySlug (slug : String) : Option Nat :=
  (selectOne database.policies fun policy => policy.slug = some slug).map Policy.id

def linkPermission (policyId permissionId : Nat) : Database :=
  { database with policyPermissions := database.policyPermissions ++ [⟨policyId, permissionId⟩] }

def deletePolicy (policyId : Nat) : Database :=
  { database with
    policyPermissions := delete database.policyPermissions fun link => link.policyId = policyId
    policies := delete database.policies fun policy => policy.id = policyId }

/-! ### OAuth authorizations -/

structure CreateOAuthAuthorizationParams where
  tenantId : Int
  userPubkey : String
  redirectOrigin : String
  clientId : String
  bunkerPublicKey : String
  secretHash : String
  policyId : Option Nat
  clientPubkey : Option String
  authorizationHandle : Option String
  handleExpiresAt : DateTime
  deriving DecidableEq

def CreateOAuthAuthorizationParams.row (params : CreateOAuthAuthorizationParams) (id : Nat) :
    OAuthAuthorization where
  id := id
  userPubkey := params.userPubkey
  redirectOrigin := params.redirectOrigin
  clientId := some params.clientId
  bunkerPublicKey := params.bunkerPublicKey
  secretHash := params.secretHash
  policyId := params.policyId
  tenantId := params.tenantId
  clientPubkey := params.clientPubkey
  connectedClientPubkey := none
  revokedAt := none
  expiresAt := none
  handleExpiresAt := params.handleExpiresAt
  authorizationHandle := params.authorizationHandle

/-- `OAuthAuthorizationRepository::create`; the new row's number is the sequence's next. -/
def createOAuthAuthorization (params : CreateOAuthAuthorizationParams) : Database :=
  { database with
    oauthAuthorizations :=
      database.oauthAuthorizations ++ [params.row database.oauthAuthorizationsSeq]
    oauthAuthorizationsSeq := database.oauthAuthorizationsSeq + 1 }

def findByBunkerPubkey (bunkerPubkey : String) : Option OAuthAuthorization :=
  selectOne database.oauthAuthorizations fun row => row.bunkerPublicKey = bunkerPubkey

def findOAuthAuthorization (tenantId : Int) (id : Nat) : Option OAuthAuthorization :=
  selectOne database.oauthAuthorizations fun row => row.tenantId = tenantId && row.id = id

def oauthPermissions (row : OAuthAuthorization) : Except String (List Permission) :=
  match row.policyId with
  | none => .ok []
  | some policyId => database.getPermissions crypto policyId

def inTenant (pubkey : String) (tenantId : Int) : Bool :=
  selectExists database.users fun user => user.pubkey = pubkey && user.tenantId = tenantId

def revokeByBunkerPubkey (bunkerPubkey userPubkey : String) (tenantId : Int) (now : DateTime) :
    Database :=
  { database with
    oauthAuthorizations := update database.oauthAuthorizations
      (fun row => row.bunkerPublicKey = bunkerPubkey && row.userPubkey = userPubkey &&
        row.revokedAt.isNone && database.inTenant row.userPubkey tenantId)
      fun row => { row with revokedAt := some now } }

def disconnects (bunkerPubkey userPubkey : String) (tenantId : Int) (row : OAuthAuthorization) :
    Bool :=
  row.bunkerPublicKey = bunkerPubkey && row.userPubkey = userPubkey && row.revokedAt.isNone &&
    database.inTenant row.userPubkey tenantId

def disconnectClient (bunkerPubkey userPubkey : String) (tenantId : Int) : Database :=
  { database with
    oauthAuthorizations := update database.oauthAuthorizations
      (database.disconnects bunkerPubkey userPubkey tenantId)
      fun row => { row with connectedClientPubkey := none } }

/-! ### Team authorizations -/

def findAuthorization (tenantId : Int) (id : Nat) : Option Authorization :=
  selectOne database.authorizations fun row => row.tenantId = tenantId && row.id = id

def teamPermissions (row : Authorization) : Except String (List Permission) :=
  ((database.policies.filter fun policy => policy.id = row.policyId).flatMap fun policy =>
    database.permissionRows policy.id).mapM (toPermission crypto)

end Database

/-! ### Stored keys match their owners -/

def PersonalKey.secret (crypto : Crypto) (row : PersonalKey) : Option SecretKey :=
  match crypto.decrypt row.encryptedSecretKey with
  | .error _ => none
  | .ok bytes => (crypto.secretKeyFromSlice bytes).toOption

theorem PersonalKey.secret_eq_some {crypto : Crypto} {row : PersonalKey} {secret : SecretKey} :
    row.secret crypto = some secret ↔
      ∃ bytes, crypto.decrypt row.encryptedSecretKey = .ok bytes ∧
        crypto.secretKeyFromSlice bytes = .ok secret := by
  unfold PersonalKey.secret
  cases opened : crypto.decrypt row.encryptedSecretKey with
  | error error => simp
  | ok bytes =>
    cases parsed : crypto.secretKeyFromSlice bytes <;> simp [parsed, Except.toOption]

/-- Every personal key that can be decrypted is the secret key of the user it is stored under. -/
def KeysIntact (crypto : Crypto) (database : Database) : Prop :=
  ∀ row ∈ database.personalKeys, ∀ secret, row.secret crypto = some secret →
    (crypto.publicKey secret).toHex = row.userPubkey

end Divine.Keycast
