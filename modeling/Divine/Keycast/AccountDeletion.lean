/-
This file embeds the deletion of an account, one statement at a time, while other
transactions authorize clients.
-/

import Divine.Keycast.Claiming
import Divine.Library.ForeignKey

namespace Divine.Keycast

open Fallible Table

/-! ### Tables -/

structure EmailVerificationToken where
  id : String
  userPubkey : String
  tokenHash : String
  expiresAt : DateTime
  deriving DecidableEq

structure PasswordResetToken where
  id : String
  userPubkey : String
  tokenHash : String
  expiresAt : DateTime
  used : Bool
  deriving DecidableEq

structure UserProfile where
  pubkey : String
  profileJson : String
  deriving DecidableEq

structure AccountTables extends TeamTables where
  claimTokens : List ClaimToken
  emailVerificationTokens : List EmailVerificationToken
  passwordResetTokens : List PasswordResetToken
  userProfiles : List UserProfile
  deriving DecidableEq

structure DeleteAccountResult where
  teamsRemoved : Nat
  oauthAuthorizationsDeleted : Nat
  bunkerPubkeys : List String
  deriving DecidableEq

/-! ### Foreign keys -/

def userKey {Row : Type*} (column : Row → String) : ForeignKey Row User String :=
  ⟨fun row => some (column row), User.pubkey⟩

def personalKeysUser : ForeignKey PersonalKey User String := userKey PersonalKey.userPubkey

def oauthAuthorizationsUser : ForeignKey OAuthAuthorization User String :=
  userKey OAuthAuthorization.userPubkey

def emailVerificationTokensUser : ForeignKey EmailVerificationToken User String :=
  userKey EmailVerificationToken.userPubkey

def passwordResetTokensUser : ForeignKey PasswordResetToken User String :=
  userKey PasswordResetToken.userPubkey

def userProfilesUser : ForeignKey UserProfile User String := userKey UserProfile.pubkey

def teamUsersUser : ForeignKey TeamUser User String := userKey TeamUser.userPubkey

def claimTokensUser : ForeignKey ClaimToken User String := userKey ClaimToken.userPubkey

def refreshTokensAuthorization : ForeignKey RefreshToken OAuthAuthorization Nat :=
  ⟨fun row => some row.authorizationId, OAuthAuthorization.id⟩

def referencedMessage (table constraint child : String) : String :=
  s!"update or delete on table \"{table}\" violates foreign key constraint \"{constraint}\" " ++
    s!"on table \"{child}\""

def ofAccount (pubkey : String) (tenantId : Int) (user : User) : Bool :=
  user.pubkey = pubkey && user.tenantId = tenantId

namespace AccountTables

variable (tables : AccountTables) (pubkey : String) (tenantId : Int)

/-- `DELETE FROM team_users`, of the user in every team. -/
def leaveTeams : AccountTables :=
  { tables with teamUsers := delete tables.teamUsers fun row => row.userPubkey = pubkey }

/-- `DELETE FROM oauth_codes`, of the user in the tenant. -/
def clearCodes : AccountTables :=
  { tables with
    database := { tables.database with
      oauthCodes := delete tables.database.oauthCodes fun code =>
        code.userPubkey = pubkey && code.tenantId = tenantId } }

/-- What the deletion of the user leaves, with the rows that go with it. -/
def withoutUser : AccountTables :=
  let users := tables.database.users
  let gone := ofAccount pubkey tenantId
  { tables with
    database := { tables.database with
      users := delete users gone
      personalKeys := personalKeysUser.cascade tables.database.personalKeys users gone
      oauthAuthorizations :=
        oauthAuthorizationsUser.cascade tables.database.oauthAuthorizations users gone
      refreshTokens := refreshTokensAuthorization.cascade tables.database.refreshTokens
        tables.database.oauthAuthorizations (oauthAuthorizationsUser.refersTo users gone) }
    emailVerificationTokens :=
      emailVerificationTokensUser.cascade tables.emailVerificationTokens users gone
    passwordResetTokens := passwordResetTokensUser.cascade tables.passwordResetTokens users gone
    userProfiles := userProfilesUser.cascade tables.userProfiles users gone }

def deleteUser : Except RepositoryError (Nat × AccountTables) := do
  let users := tables.database.users
  let gone := ofAccount pubkey tenantId
  require (teamUsersUser.permits tables.teamUsers users gone)
    (.integrity (referencedMessage "users" "team_users_user_pubkey_fkey" "team_users"))
  -- unlike the other tokens, those of claims are declared without a cascade
  require (claimTokensUser.permits tables.claimTokens users gone)
    (.integrity (referencedMessage "users" "account_claim_tokens_user_pubkey_fkey"
      "account_claim_tokens"))
  return (affected users gone, tables.withoutUser pubkey tenantId)

def insertAuthorization (params : Database.CreateOAuthAuthorizationParams) :
    Option AccountTables :=
  match tables.database.insertOAuthAuthorization params with
  | .ok (_, database) => some { tables with database := database }
  | .error _ => none

end AccountTables

/-! ### The transaction -/

/-- The statement of `delete_account` that runs next, with what was read before it. -/
inductive DeletionStage where
  | countTeams
  | countAuthorizations (teamsRemoved : Nat)
  | selectBunkerPubkeys (teamsRemoved oauthAuthorizationsDeleted : Nat)
  | leaveTeams (result : DeleteAccountResult)
  | clearCodes (result : DeleteAccountResult)
  | deleteUser (result : DeleteAccountResult)
  | commit (result : DeleteAccountResult)
  | answered (answer : Except RepositoryError DeleteAccountResult)
  deriving DecidableEq

/-- What the other transactions have committed, and what this one sees: the same with its own
changes. -/
structure DeletionState where
  committed : AccountTables
  view : AccountTables
  stage : DeletionStage
  deriving DecidableEq

def DeletionState.start (tables : AccountTables) : DeletionState :=
  ⟨tables, tables, .countTeams⟩

/-- What is stored: the changes of the transaction count once it has committed. -/
def DeletionState.tables (state : DeletionState) : AccountTables :=
  match state.stage with
  | .answered (.ok _) => state.view
  | _ => state.committed

inductive DeletionAction where
  | statement
  | createAuthorization (params : Database.CreateOAuthAuthorizationParams)

section

variable (pubkey : String) (tenantId : Int)

def deletionStatement (view : AccountTables) : DeletionStage →
    Option (AccountTables × DeletionStage)
  | .countTeams =>
      some (view, .countAuthorizations
        (affected view.teamUsers fun row => row.userPubkey = pubkey))
  | .countAuthorizations teamsRemoved =>
      some (view, .selectBunkerPubkeys teamsRemoved
        (affected view.database.oauthAuthorizations fun row => row.userPubkey = pubkey))
  | .selectBunkerPubkeys teamsRemoved oauthAuthorizationsDeleted =>
      some (view, .leaveTeams ⟨teamsRemoved, oauthAuthorizationsDeleted,
        (view.database.oauthAuthorizations.filter fun row => row.userPubkey = pubkey).map
          OAuthAuthorization.bunkerPublicKey⟩)
  | .leaveTeams result => some (view.leaveTeams pubkey, .clearCodes result)
  | .clearCodes result => some (view.clearCodes pubkey tenantId, .deleteUser result)
  | .deleteUser result =>
      match view.deleteUser pubkey tenantId with
      | .error error => some (view, .answered (.error error))
      | .ok (0, _) => some (view, .answered (.error (.notFound "User not found")))
      | .ok (_, without) => some (without, .commit result)
  | .commit result => some (view, .answered (.ok result))
  | .answered _ => none

/-- An authorization is committed when its user is stored: the foreign key to a user under deletion
waits, and fails. -/
def deletionStep (state : DeletionState) : DeletionAction → Option DeletionState
  | .statement => (deletionStatement pubkey tenantId state.view state.stage).map
      fun (view, stage) => { state with view := view, stage := stage }
  | .createAuthorization params => do
      let committed ← state.committed.insertAuthorization params
      let view ← state.view.insertAuthorization params
      return { state with committed := committed, view := view }

end

/-! ### What the deletion leaves -/

namespace AccountTables

variable (tables : AccountTables) (pubkey : String) (tenantId : Int)

def afterDeletion : AccountTables :=
  ((tables.leaveTeams pubkey).clearCodes pubkey tenantId).withoutUser pubkey tenantId

/-- No row refers to the user, and the user is not stored. -/
structure Forgets : Prop where
  users : ∀ row ∈ tables.database.users, row.pubkey ≠ pubkey
  personalKeys : ∀ row ∈ tables.database.personalKeys, row.userPubkey ≠ pubkey
  oauthAuthorizations : ∀ row ∈ tables.database.oauthAuthorizations, row.userPubkey ≠ pubkey
  emailVerificationTokens : ∀ row ∈ tables.emailVerificationTokens, row.userPubkey ≠ pubkey
  passwordResetTokens : ∀ row ∈ tables.passwordResetTokens, row.userPubkey ≠ pubkey
  userProfiles : ∀ row ∈ tables.userProfiles, row.pubkey ≠ pubkey
  teamUsers : ∀ row ∈ tables.teamUsers, row.userPubkey ≠ pubkey
  claimTokens : ∀ row ∈ tables.claimTokens, row.userPubkey ≠ pubkey

def ofUserToken (token : RefreshToken) : Bool :=
  refreshTokensAuthorization.refersTo tables.database.oauthAuthorizations
    (fun row => row.userPubkey = pubkey) token

/-- The rows of every other user, and the tables that hold no user's rows. -/
def others : AccountTables :=
  { tables with
    database := { tables.database with
      users := delete tables.database.users fun row => row.pubkey = pubkey
      personalKeys := delete tables.database.personalKeys fun row => row.userPubkey = pubkey
      oauthAuthorizations :=
        delete tables.database.oauthAuthorizations fun row => row.userPubkey = pubkey
      refreshTokens := delete tables.database.refreshTokens (tables.ofUserToken pubkey)
      oauthCodes := delete tables.database.oauthCodes fun row => row.userPubkey = pubkey }
    teamUsers := delete tables.teamUsers fun row => row.userPubkey = pubkey
    claimTokens := delete tables.claimTokens fun row => row.userPubkey = pubkey
    emailVerificationTokens :=
      delete tables.emailVerificationTokens fun row => row.userPubkey = pubkey
    passwordResetTokens := delete tables.passwordResetTokens fun row => row.userPubkey = pubkey
    userProfiles := delete tables.userProfiles fun row => row.pubkey = pubkey }

def hasAccount : Bool := selectExists tables.database.users (ofAccount pubkey tenantId)

def Unclaimable : Prop := ∀ row ∈ tables.claimTokens, row.userPubkey ≠ pubkey

variable {tables pubkey tenantId}

/-! ### The rows that go -/

theorem ofAccount_pubkey {users : List User} :
    ∀ user ∈ users, ofAccount pubkey tenantId user = true → user.pubkey = pubkey := by
  intro user _ own
  exact of_decide_eq_true (Bool.and_eq_true_iff.mp own).1

/-- Under a foreign key to the users, the rows that refer to the account are those of the user. -/
theorem refersTo_account {Row : Type*} {column : Row → String}
    (account : tables.hasAccount pubkey tenantId = true) :
    (userKey column).refersTo tables.database.users (ofAccount pubkey tenantId) =
      fun row => decide (column row = pubkey) := by
  funext row
  rw [ForeignKey.refersTo_eq ofAccount_pubkey account]
  exact decide_eq_decide.mpr Option.some_inj

theorem cascade_account {Row : Type*} {column : Row → String}
    (account : tables.hasAccount pubkey tenantId = true) (rows : List Row) :
    (userKey column).cascade rows tables.database.users (ofAccount pubkey tenantId) =
      delete rows fun row => column row = pubkey := by
  rw [ForeignKey.cascade, refersTo_account account]

section

variable (keyed : Keyed User.pubkey tables.database.users)

include keyed

section

variable (account : tables.hasAccount pubkey tenantId = true)

include account

theorem delete_account_eq :
    delete tables.database.users (ofAccount pubkey tenantId) =
      delete tables.database.users fun row => row.pubkey = pubkey := by
  obtain ⟨user, stored, own⟩ := selectExists_iff.mp account
  refine List.filter_congr fun row member => congrArg _ ?_
  rw [Bool.eq_iff_iff, decide_eq_true_eq]
  refine ⟨ofAccount_pubkey row member, fun same => ?_⟩
  obtain rfl := keyed.eq_of_key member stored (same.trans (ofAccount_pubkey user stored own).symm)
  exact own

/-- The rows of the user are gone, but for the claim tokens and for the codes of other tenants. -/
theorem afterDeletion_eq :
    tables.afterDeletion pubkey tenantId =
      { tables.others pubkey with
        database := { (tables.others pubkey).database with
          oauthCodes := delete tables.database.oauthCodes fun code =>
            code.userPubkey = pubkey && code.tenantId = tenantId }
        claimTokens := tables.claimTokens } := by
  simp only [afterDeletion, withoutUser, leaveTeams, clearCodes, others, personalKeysUser,
    oauthAuthorizationsUser, emailVerificationTokensUser, passwordResetTokensUser,
    userProfilesUser, cascade_account account, refersTo_account account,
    delete_account_eq keyed account]
  rfl

theorem afterDeletion_forgets (unclaimable : tables.Unclaimable pubkey) :
    (tables.afterDeletion pubkey tenantId).Forgets pubkey := by
  rw [afterDeletion_eq keyed account]
  constructor
  case claimTokens => exact unclaimable
  all_goals
    intro row member
    exact of_decide_eq_false (mem_delete.mp member).2

theorem afterDeletion_others :
    (tables.afterDeletion pubkey tenantId).others pubkey = tables.others pubkey := by
  have codes : delete (delete tables.database.oauthCodes fun code =>
      decide (code.userPubkey = pubkey) && decide (code.tenantId = tenantId))
        (fun row => decide (row.userPubkey = pubkey)) =
      delete tables.database.oauthCodes fun row => decide (row.userPubkey = pubkey) :=
    delete_delete fun row own => (Bool.and_eq_true_iff.mp own).1
  -- no authorization of the user is left for a token to refer to
  have tokens : (fun token => refreshTokensAuthorization.refersTo
      (delete tables.database.oauthAuthorizations fun row => decide (row.userPubkey = pubkey))
        (fun row => decide (row.userPubkey = pubkey)) token) = fun _ => false := by
    funext token
    refine Bool.eq_false_iff.mpr fun refers => ?_
    obtain ⟨row, member, own, -⟩ := ForeignKey.refersTo_iff.mp refers
    rw [(mem_delete.mp member).2] at own
    cases own
  have none_deleted : delete (delete tables.database.refreshTokens (tables.ofUserToken pubkey))
      (fun _ => false) = delete tables.database.refreshTokens (tables.ofUserToken pubkey) :=
    List.filter_eq_self.mpr fun _ _ => rfl
  rw [afterDeletion_eq keyed account]
  simp only [others, delete_delete fun _ own => own, codes]
  unfold ofUserToken at *
  simp only [tokens, none_deleted]

end

end

theorem afterDeletion_administered_iff {teamId : Nat} :
    (tables.afterDeletion pubkey tenantId).Administered teamId ↔
      tables.countOtherAdmins teamId pubkey ≠ 0 := by
  rw [← Nat.pos_iff_ne_zero, TeamTables.countOtherAdmins, affected, List.countP_pos_iff]
  show (∃ row ∈ delete tables.teamUsers _, _) ↔ _
  refine exists_congr fun row => ?_
  simp only [mem_delete, TeamTables.ofAdmin, Bool.and_eq_true, decide_eq_true_eq,
    decide_eq_false_iff_not]
  tauto

/-! ### References -/

/-- Every row that refers to a user, or to an authorization, refers to a stored one. -/
structure Referential (tables : AccountTables) : Prop where
  personalKeys : personalKeysUser.Holds tables.database.personalKeys tables.database.users
  oauthAuthorizations :
    oauthAuthorizationsUser.Holds tables.database.oauthAuthorizations tables.database.users
  refreshTokens : refreshTokensAuthorization.Holds tables.database.refreshTokens
    tables.database.oauthAuthorizations
  emailVerificationTokens :
    emailVerificationTokensUser.Holds tables.emailVerificationTokens tables.database.users
  passwordResetTokens :
    passwordResetTokensUser.Holds tables.passwordResetTokens tables.database.users
  userProfiles : userProfilesUser.Holds tables.userProfiles tables.database.users
  teamUsers : teamUsersUser.Holds tables.teamUsers tables.database.users
  claimTokens : claimTokensUser.Holds tables.claimTokens tables.database.users

/-! ### The deletion of the user -/

section

variable (account : tables.hasAccount pubkey tenantId = true)

include account

theorem permits_claimTokens :
    claimTokensUser.permits tables.claimTokens tables.database.users (ofAccount pubkey tenantId) =
      true ↔ tables.Unclaimable pubkey := by
  rw [ForeignKey.permits, claimTokensUser, refersTo_account account, Bool.not_eq_true',
    ← Bool.not_eq_true, selectExists_iff]
  simp only [Unclaimable, decide_eq_true_eq, not_exists, not_and, ne_eq]

theorem permits_teamUsers :
    teamUsersUser.permits (tables.leaveTeams pubkey).teamUsers tables.database.users
      (ofAccount pubkey tenantId) = true := by
  rw [ForeignKey.permits, teamUsersUser, refersTo_account account, leaveTeams,
    selectExists_delete_self]
  rfl

theorem deleteUser_of_unclaimable (unclaimable : tables.Unclaimable pubkey) :
    ((tables.leaveTeams pubkey).clearCodes pubkey tenantId).deleteUser pubkey tenantId =
      .ok (affected tables.database.users (ofAccount pubkey tenantId),
        tables.afterDeletion pubkey tenantId) := by
  have teams := permits_teamUsers account
  have claims := (permits_claimTokens account).mpr unclaimable
  unfold deleteUser
  dsimp only [leaveTeams, clearCodes] at teams ⊢
  rw [teams, claims]
  rfl

theorem deleteUser_of_claimable (claimable : ¬tables.Unclaimable pubkey) :
    ((tables.leaveTeams pubkey).clearCodes pubkey tenantId).deleteUser pubkey tenantId =
      .error (.integrity (referencedMessage "users" "account_claim_tokens_user_pubkey_fkey"
        "account_claim_tokens")) := by
  have teams := permits_teamUsers account
  have claims := Bool.eq_false_iff.mpr (claimable ∘ (permits_claimTokens account).mp)
  unfold deleteUser
  dsimp only [leaveTeams, clearCodes] at teams ⊢
  rw [teams, claims]
  rfl

theorem affected_account :
    affected tables.database.users (ofAccount pubkey tenantId) ≠ 0 := by
  obtain ⟨user, stored, own⟩ := selectExists_iff.mp account
  exact Nat.pos_iff_ne_zero.mp (List.countP_pos_iff.mpr ⟨user, stored, own⟩)

end

/-! ### Authorizations committed meanwhile -/

def create (tables : AccountTables) (params : Database.CreateOAuthAuthorizationParams) :
    AccountTables :=
  { tables with database := tables.database.createOAuthAuthorization params }

def withAuthorizations (tables : AccountTables) (rows : List OAuthAuthorization) (seq : Nat) :
    AccountTables :=
  { tables with
    database := { tables.database with
      oauthAuthorizations := tables.database.oauthAuthorizations ++ rows
      oauthAuthorizationsSeq := seq } }

def bunkerKeys (tables : AccountTables) (pubkey : String) : List String :=
  (tables.database.oauthAuthorizations.filter fun row => row.userPubkey = pubkey).map
    OAuthAuthorization.bunkerPublicKey

variable {params : Database.CreateOAuthAuthorizationParams} {after : AccountTables}

theorem insertAuthorization_eq_some (inserted : tables.insertAuthorization params = some after) :
    (∃ user ∈ tables.database.users, user.pubkey = params.userPubkey) ∧
      after = tables.create params := by
  unfold insertAuthorization at inserted
  split at inserted
  · rename_i row database created
    cases inserted
    obtain ⟨-, rfl⟩ := Database.insertOAuthAuthorization_eq_ok created
    refine ⟨?_, rfl⟩
    unfold Database.insertOAuthAuthorization at created
    split at created
    · rename_i stored
      obtain ⟨user, member, own⟩ := selectExists_iff.mp stored
      exact ⟨user, member, of_decide_eq_true own⟩
    · cases created
  · cases inserted

theorem mem_bunkerKeys {key : String} : key ∈ tables.bunkerKeys pubkey ↔
    ∃ row ∈ tables.database.oauthAuthorizations,
      row.userPubkey = pubkey ∧ row.bunkerPublicKey = key := by
  simp only [bunkerKeys, List.mem_map, List.mem_filter, decide_eq_true_eq, and_assoc]

theorem mem_bunkerKeys_create {key : String} : key ∈ (tables.create params).bunkerKeys pubkey ↔
    key ∈ tables.bunkerKeys pubkey ∨
      (params.userPubkey = pubkey ∧ params.bunkerPublicKey = key) := by
  simp only [mem_bunkerKeys, create, Database.createOAuthAuthorization, List.mem_append,
    List.mem_singleton, or_and_right, exists_or, exists_eq_left]
  rfl

theorem afterDeletion_create (elsewhere : params.userPubkey ≠ pubkey) :
    (tables.create params).afterDeletion pubkey tenantId =
      (tables.afterDeletion pubkey tenantId).create params := by
  have stays : oauthAuthorizationsUser.refersTo tables.database.users (ofAccount pubkey tenantId)
      (params.row tables.database.oauthAuthorizationsSeq) = false := by
    refine Bool.eq_false_iff.mpr fun refers => ?_
    obtain ⟨user, stored, own, same⟩ := ForeignKey.refersTo_iff.mp refers
    exact elsewhere ((Option.some.inj same).trans (ofAccount_pubkey user stored own))
  simp only [afterDeletion, withoutUser, leaveTeams, clearCodes, create,
    Database.createOAuthAuthorization, ForeignKey.cascade, delete, List.filter_append,
    funext (ForeignKey.refersTo_append stays), List.filter_singleton, stays, Bool.not_false]
  rfl

end AccountTables

end Divine.Keycast
