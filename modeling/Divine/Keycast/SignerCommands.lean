/-
This file embeds what the API does to authorizations while the signer runs: the operations
that create, revoke and delete their rows, and the commands each of them sends to the
signer.
-/

import Divine.Keycast.Nip46
import Divine.Keycast.OAuth

namespace Divine.Keycast

open Fallible Table

/-! ### Operations on the tables -/

namespace Database

variable (database : Database)

def existsActiveForBunker (bunkerPubkey userPubkey : String) (tenantId : Int) : Bool :=
  selectExists database.oauthAuthorizations
    (database.disconnects bunkerPubkey userPubkey tenantId)

def changeKey (oldPubkey newPubkey : String) (tenantId : Int) (email passwordHash : String)
    (encryptedSecret : Bytes) : Database :=
  let owned := database.oauthAuthorizations.filter fun row => row.userPubkey = oldPubkey
  { database with
    oauthAuthorizations := delete database.oauthAuthorizations fun row =>
      row.userPubkey = oldPubkey
    refreshTokens := delete database.refreshTokens fun token =>
      selectExists owned fun row => row.id = token.authorizationId
    personalKeys := delete database.personalKeys (fun key => key.userPubkey = oldPubkey) ++
      [⟨newPubkey, encryptedSecret, tenantId⟩]
    users := update database.users
      (fun user => user.pubkey = oldPubkey && user.tenantId = tenantId)
      (fun user => { user with email := none, passwordHash := none }) ++
      [⟨newPubkey, tenantId, some email, some passwordHash, true⟩] }

def createAuthorization (row : Authorization) : Database :=
  { database with authorizations := database.authorizations ++ [row] }

def deleteForStoredKey (tenantId : Int) (id storedKeyId : Nat) : Database :=
  { database with
    authorizations := delete database.authorizations fun row =>
      row.tenantId = tenantId && row.id = id && row.storedKeyId = storedKeyId }

def findStoredKey (tenantId : Int) (teamId : Nat) (pubkey : String) : Option StoredKey :=
  selectOne database.storedKeys fun key =>
    key.tenantId = tenantId && key.teamId = teamId && key.pubkey = pubkey

def deleteStoredKey (tenantId : Int) (id : Nat) : Database :=
  { database with
    authorizations := delete database.authorizations fun row =>
      row.tenantId = tenantId && row.storedKeyId = id
    storedKeys := delete database.storedKeys fun key => key.tenantId = tenantId && key.id = id }

def orphanedPermissions (teamId : Nat) : List Nat :=
  let links (condition : Policy → Bool) : List Nat :=
    (database.policyPermissions.filter fun link => selectExists database.policies fun policy =>
      policy.id = link.policyId && condition policy).map PolicyPermission.permissionId
  let others := links fun policy => policy.teamId.isSome && policy.teamId ≠ some teamId
  (links fun policy => policy.teamId = some teamId).filter fun id => !others.contains id

def deleteTeam (tenantId : Int) (teamId : Nat) : Database :=
  { database with
    authorizations := delete database.authorizations fun row => row.tenantId = tenantId &&
      selectExists database.storedKeys fun key =>
        key.id = row.storedKeyId && key.tenantId = tenantId && key.teamId = teamId
    storedKeys := delete database.storedKeys fun key =>
      key.tenantId = tenantId && key.teamId = teamId
    policyPermissions := delete database.policyPermissions fun link =>
      selectExists database.policies fun policy =>
        policy.id = link.policyId && policy.teamId = some teamId
    permissions := delete database.permissions fun row =>
      (database.orphanedPermissions teamId).contains row.id
    policies := delete database.policies fun policy => policy.teamId = some teamId }

end Database

/-! ### Commands to the signer -/

inductive AuthorizationCommand where
  | upsert (bunkerPubkey : String) (tenantId : Int) (isOAuth : Bool)
  | remove (bunkerPubkey : String)
  | reloadAll
  deriving DecidableEq

def channelBufferSize : Nat := 100

/-! ### Operations of the API -/

/-- The bunker key of a new authorization is derived from every key stored for its user. -/
def bunkerDerived (crypto : Crypto) (database : Database) (userPubkey : String) (tenantId : Int)
    (secretHash bunkerPubkey : String) : Bool :=
  database.personalKeys.all fun key =>
    !(key.userPubkey = userPubkey && key.tenantId = tenantId) ||
      match key.secret crypto with
      | none => true
      | some secret =>
        (crypto.deriveBunkerKeys secret secretHash).publicKey.toHex = bunkerPubkey

/-- The operations on authorizations: of users, then of teams. -/
inductive ApiOperation where
  | createOAuth (params : Database.CreateOAuthAuthorizationParams)
  | supersede (id : Nat)
  | revokeSession (bunkerPubkey userPubkey : String) (tenantId : Int)
  | disconnectClient (bunkerPubkey userPubkey : String) (tenantId : Int)
  | changeKey (oldPubkey newPubkey : String) (tenantId : Int) (email passwordHash : String)
      (encryptedSecret : Bytes)
  | deleteAccount (pubkey : String) (tenantId : Int)
  | createTeamAuthorization (row : Authorization)
  | deleteAuthorization (tenantId : Int) (id storedKeyId : Nat)
  | removeKey (tenantId : Int) (teamId : Nat) (pubkey : String)
  | deleteTeam (tenantId : Int) (teamId : Nat)
  deriving DecidableEq

namespace ApiOperation

def accepted (crypto : Crypto) (database : Database) : ApiOperation → Bool
  | createOAuth params => bunkerDerived crypto database params.userPubkey params.tenantId
      params.secretHash params.bunkerPublicKey
  | revokeSession bunkerPubkey userPubkey tenantId =>
      database.existsActiveForBunker bunkerPubkey userPubkey tenantId
  | changeKey _ newPubkey _ _ _ _ => !selectExists database.users fun user =>
    user.pubkey = newPubkey
  | deleteAccount pubkey tenantId => database.inTenant pubkey tenantId
  | removeKey tenantId teamId pubkey => (database.findStoredKey tenantId teamId pubkey).isSome
  | supersede _ | disconnectClient _ _ _ | createTeamAuthorization _ | deleteAuthorization _ _ _
  | deleteTeam _ _ => true

def apply (now : DateTime) (database : Database) : ApiOperation → Database
  | createOAuth params => database.createOAuthAuthorization params
  | supersede id => database.revokeOAuthAuthorization id now
  | revokeSession bunkerPubkey userPubkey tenantId =>
      database.revokeByBunkerPubkey bunkerPubkey userPubkey tenantId now
  | disconnectClient bunkerPubkey userPubkey tenantId =>
      database.disconnectClient bunkerPubkey userPubkey tenantId
  | changeKey oldPubkey newPubkey tenantId email passwordHash encryptedSecret =>
      database.changeKey oldPubkey newPubkey tenantId email passwordHash encryptedSecret
  | deleteAccount pubkey tenantId => database.deleteAccount pubkey tenantId
  | createTeamAuthorization row => database.createAuthorization row
  | deleteAuthorization tenantId id storedKeyId =>
      database.deleteForStoredKey tenantId id storedKeyId
  | removeKey tenantId teamId pubkey =>
      match database.findStoredKey tenantId teamId pubkey with
      | some key => database.deleteStoredKey tenantId key.id
      | none => database
  | deleteTeam tenantId teamId => database.deleteTeam tenantId teamId

def commands (database : Database) : ApiOperation → List AuthorizationCommand
  | createOAuth params => [.upsert params.bunkerPublicKey params.tenantId true]
  | revokeSession bunkerPubkey _ _ => [.remove bunkerPubkey]
  -- the user's key, which is no bunker's
  | changeKey oldPubkey _ _ _ _ _ => [.remove oldPubkey]
  | deleteAccount pubkey _ =>
      (database.oauthAuthorizations.filter fun row => row.userPubkey = pubkey).map fun row =>
        .remove row.bunkerPublicKey
  | supersede _ | disconnectClient _ _ _ | createTeamAuthorization _ | deleteAuthorization _ _ _
  | removeKey _ _ _ | deleteTeam _ _ => []

end ApiOperation

/-! ### Authorizations behind a bunker key -/

namespace Database

variable (database : Database)

/-- An unrevoked and unexpired authorization, of a user or of a team, has the bunker key. -/
def stands (now : DateTime) (isOAuth : Bool) (bunkerPubkey : String) : Bool :=
  if isOAuth then
    selectExists database.oauthAuthorizations fun row =>
      row.bunkerPublicKey = bunkerPubkey && row.active now
  else
    selectExists database.authorizations fun row =>
      row.bunkerPublicKey = bunkerPubkey && row.active now

/-- The bunker key of every user's authorization is derived from each key stored for the user. -/
def BunkersDerived (crypto : Crypto) : Prop :=
  ∀ row ∈ database.oauthAuthorizations,
    bunkerDerived crypto database row.userPubkey row.tenantId row.secretHash row.bunkerPublicKey =
      true

end Database

section

variable {crypto : Crypto} {database after : Database} {userPubkey secretHash bunkerPubkey : String}
  {tenantId : Int}

theorem bunkerDerived_iff :
    bunkerDerived crypto database userPubkey tenantId secretHash bunkerPubkey = true ↔
      ∀ key ∈ database.personalKeys, key.userPubkey = userPubkey → key.tenantId = tenantId →
        ∀ secret, key.secret crypto = some secret →
          (crypto.deriveBunkerKeys secret secretHash).publicKey.toHex = bunkerPubkey := by
  unfold bunkerDerived
  rw [List.all_eq_true]
  refine forall₂_congr fun key _ => ?_
  cases key.secret crypto with
  | none => simp
  | some secret =>
    simp only [Bool.or_eq_true, Bool.not_eq_true', Bool.and_eq_false_iff, decide_eq_false_iff_not,
      decide_eq_true_eq, Option.some.injEq, forall_eq']
    constructor
    · rintro (((other | other) | derived)) user tenant
      · exact absurd user other
      · exact absurd tenant other
      · exact derived
    · intro derived
      by_cases user : key.userPubkey = userPubkey
      · by_cases tenant : key.tenantId = tenantId
        · exact .inr (derived user tenant)
        · exact .inl (.inr tenant)
      · exact .inl (.inl user)

theorem bunkerDerived_of_subset (fewer : after.personalKeys ⊆ database.personalKeys)
    (derived : bunkerDerived crypto database userPubkey tenantId secretHash bunkerPubkey = true) :
    bunkerDerived crypto after userPubkey tenantId secretHash bunkerPubkey = true := by
  rw [bunkerDerived_iff] at derived ⊢
  exact fun key member => derived key (fewer member)

end

/-! ### What the operations leave -/

section

variable {crypto : Crypto} {database : Database} {now : DateTime}

def ApiOperation.newcomer : ApiOperation → Option String
  | changeKey _ newPubkey _ _ _ _ => some newPubkey
  | createOAuth _ | supersede _ | revokeSession _ _ _ | disconnectClient _ _ _ | deleteAccount _ _
  | createTeamAuthorization _ | deleteAuthorization _ _ _ | removeKey _ _ _ | deleteTeam _ _ => none
variable {operation : ApiOperation}


theorem ApiOperation.mem_personalKeys {key : PersonalKey}
    (member : key ∈ (operation.apply now database).personalKeys) :
    key ∈ database.personalKeys ∨ operation.newcomer = some key.userPubkey := by
  cases operation with
  | createOAuth _ | supersede _ | revokeSession _ _ _ | disconnectClient _ _ _
  | createTeamAuthorization _ | deleteAuthorization _ _ _ | deleteTeam _ _ => exact .inl member
  | changeKey oldPubkey newPubkey tenantId email passwordHash encryptedSecret =>
    rcases List.mem_append.mp member with kept | added
    · exact .inl (mem_delete.mp kept).1
    · obtain rfl := List.mem_singleton.mp added
      exact .inr rfl
  | deleteAccount pubkey tenantId =>
    simp only [ApiOperation.apply, Database.deleteAccount] at member
    split at member
    · exact .inl (mem_delete.mp member).1
    · exact .inl member
  | removeKey tenantId teamId pubkey =>
    simp only [ApiOperation.apply] at member
    split at member
    · exact .inl member
    · exact .inl member

/-- A row left has the owner, secret and bunker key of one that was there, or is the created one. -/
theorem ApiOperation.mem_oauthAuthorizations {row : OAuthAuthorization}
    (member : row ∈ (operation.apply now database).oauthAuthorizations) :
    (∃ old ∈ database.oauthAuthorizations, row.userPubkey = old.userPubkey ∧
      row.tenantId = old.tenantId ∧ row.secretHash = old.secretHash ∧
      row.bunkerPublicKey = old.bunkerPublicKey) ∨
    ∃ params : Database.CreateOAuthAuthorizationParams, operation = .createOAuth params ∧
      row = params.row database.oauthAuthorizationsSeq := by
  have same : row ∈ database.oauthAuthorizations → ∃ old ∈ database.oauthAuthorizations,
      row.userPubkey = old.userPubkey ∧ row.tenantId = old.tenantId ∧
        row.secretHash = old.secretHash ∧ row.bunkerPublicKey = old.bunkerPublicKey :=
    fun present => ⟨row, present, rfl, rfl, rfl, rfl⟩
  have updated : ∀ {condition : OAuthAuthorization → Bool}
      {set : OAuthAuthorization → OAuthAuthorization},
      row ∈ update database.oauthAuthorizations condition set →
      (∀ old, (set old).userPubkey = old.userPubkey ∧ (set old).tenantId = old.tenantId ∧
        (set old).secretHash = old.secretHash ∧ (set old).bunkerPublicKey = old.bunkerPublicKey) →
      ∃ old ∈ database.oauthAuthorizations, row.userPubkey = old.userPubkey ∧
        row.tenantId = old.tenantId ∧ row.secretHash = old.secretHash ∧
        row.bunkerPublicKey = old.bunkerPublicKey := by
    intro condition set present kept
    obtain ⟨old, stored, rfl⟩ := mem_update.mp present
    refine ⟨old, stored, ?_, ?_, ?_, ?_⟩
    · exact updateRow_column OAuthAuthorization.userPubkey (fun row => (kept row).1) old
    · exact updateRow_column OAuthAuthorization.tenantId (fun row => (kept row).2.1) old
    · exact updateRow_column OAuthAuthorization.secretHash (fun row => (kept row).2.2.1) old
    · exact updateRow_column OAuthAuthorization.bunkerPublicKey (fun row => (kept row).2.2.2) old
  cases operation with
  | createTeamAuthorization _ | deleteAuthorization _ _ _ | deleteTeam _ _ =>
    exact .inl (same member)
  | createOAuth params =>
    rcases List.mem_append.mp member with present | added
    · exact .inl (same present)
    · exact .inr ⟨params, rfl, List.mem_singleton.mp added⟩
  | supersede id => exact .inl (updated member fun _ => ⟨rfl, rfl, rfl, rfl⟩)
  | revokeSession | disconnectClient =>
    exact .inl (updated member fun _ => ⟨rfl, rfl, rfl, rfl⟩)
  | changeKey oldPubkey newPubkey tenantId email passwordHash encryptedSecret =>
    exact .inl (same (mem_delete.mp member).1)
  | deleteAccount pubkey tenantId =>
    simp only [ApiOperation.apply, Database.deleteAccount] at member
    split at member
    · exact .inl (same (mem_delete.mp member).1)
    · exact .inl (same member)
  | removeKey tenantId teamId pubkey =>
    simp only [ApiOperation.apply] at member
    split at member
    · exact .inl (same member)
    · exact .inl (same member)

theorem ApiOperation.bunkerDerived_apply {userPubkey secretHash bunkerPubkey : String}
    {tenantId : Int} (other : operation.newcomer ≠ some userPubkey)
    (derived : bunkerDerived crypto database userPubkey tenantId secretHash bunkerPubkey = true) :
    bunkerDerived crypto (operation.apply now database) userPubkey tenantId secretHash
      bunkerPubkey = true := by
  rw [bunkerDerived_iff] at derived ⊢
  intro key member user
  rcases mem_personalKeys member with present | added
  · exact derived key present user
  · rw [user] at added
    exact absurd added other

theorem ApiOperation.bunkersDerived (derived : database.BunkersDerived crypto)
    (accepted : operation.accepted crypto database = true)
    (unknown : ∀ row ∈ database.oauthAuthorizations, operation.newcomer ≠ some row.userPubkey) :
    (operation.apply now database).BunkersDerived crypto := by
  intro row member
  rcases mem_oauthAuthorizations member with ⟨old, present, user, tenant, hash, bunker⟩ |
    ⟨params, rfl, rfl⟩
  · rw [user, tenant, hash, bunker]
    exact bunkerDerived_apply (unknown old present) (derived old present)
  · exact accepted

end

end Divine.Keycast
