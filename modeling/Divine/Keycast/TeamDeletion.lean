/-
This file settles what the deletion of a team takes with it, over the tables as the schema
declares them, with null columns and foreign keys that refuse a deletion.
-/

import Divine.Keycast.AccountDeletion
import Divine.Library.ThreeValued

namespace Divine.Keycast

open Fallible Table ThreeValued

/-! ### Tables -/

structure AuthorizationRow where
  id : Nat
  tenantId : Int
  storedKeyId : Option Nat
  policyId : Option Nat
  bunkerPublicKey : String
  deriving DecidableEq

structure StoredKeyRow where
  id : Nat
  tenantId : Int
  teamId : Option Nat
  pubkey : String
  deriving DecidableEq

structure PolicyPermissionRow where
  policyId : Option Nat
  permissionId : Option Nat
  deriving DecidableEq

structure TeamUserRow where
  teamId : Option Nat
  userPubkey : Option String
  role : String
  deriving DecidableEq

structure TeamStore where
  teams : List Team
  teamUsers : List TeamUserRow
  storedKeys : List StoredKeyRow
  authorizations : List AuthorizationRow
  policies : List Policy
  permissions : List PermissionRow
  policyPermissions : List PolicyPermissionRow
  deriving DecidableEq

/-! ### Foreign keys -/

def authorizationsStoredKey : ForeignKey AuthorizationRow StoredKeyRow Nat :=
  ⟨AuthorizationRow.storedKeyId, StoredKeyRow.id⟩

def authorizationsPolicy : ForeignKey AuthorizationRow Policy Nat :=
  ⟨AuthorizationRow.policyId, Policy.id⟩

def policyPermissionsPermission : ForeignKey PolicyPermissionRow PermissionRow Nat :=
  ⟨PolicyPermissionRow.permissionId, PermissionRow.id⟩

def policyPermissionsPolicy : ForeignKey PolicyPermissionRow Policy Nat :=
  ⟨PolicyPermissionRow.policyId, Policy.id⟩

def policiesTeam : ForeignKey Policy Team Nat := ⟨Policy.teamId, Team.id⟩

def storedKeysTeam : ForeignKey StoredKeyRow Team Nat := ⟨StoredKeyRow.teamId, Team.id⟩

def teamUsersTeam : ForeignKey TeamUserRow Team Nat := ⟨TeamUserRow.teamId, Team.id⟩

def requirePermitted {Child Parent Key : Type*} [DecidableEq Key]
    (reference : ForeignKey Child Parent Key) (children : List Child) (parents : List Parent)
    (condition : Parent → Bool) (table constraint child : String) :
    Except RepositoryError Unit :=
  require (reference.permits children parents condition)
    (.integrity (referencedMessage table constraint child))

namespace TeamStore

variable (store : TeamStore) (tenantId : Int) (teamId : Nat)

/-! ### Conditions -/

def isTeam (column : Option Nat) : Truth := equal column (some teamId)

/-- `tenant_id = $1 AND team_id = $2`. -/
def ofTenantTeam (key : StoredKeyRow) : Bool :=
  ((Truth.ofBool (key.tenantId = tenantId)).and (isTeam teamId key.teamId)).keeps

def ofTenantKey (row : AuthorizationRow) : Bool :=
  ((Truth.ofBool (row.tenantId = tenantId)).and (isIn row.storedKeyId
    ((store.storedKeys.filter (ofTenantTeam tenantId teamId)).map fun key =>
      some key.id))).keeps

/-- `policy_id IN (SELECT id FROM policies WHERE team_id = $1)`. -/
def ofTeamPolicy (link : PolicyPermissionRow) : Bool :=
  (isIn link.policyId ((store.policies.filter fun policy =>
    (isTeam teamId policy.teamId).keeps).map fun policy => some policy.id)).keeps

def permissionIds (kind : Policy → Truth) : List (Option Nat) :=
  store.policyPermissions.flatMap fun link =>
    (store.policies.filter fun policy =>
      ((equal link.policyId (some policy.id)).and (kind policy)).keeps).map fun _ =>
        link.permissionId

/-- The permissions of the team's policies that are in no policy whose `team_id != $1`. -/
def orphanedPermissions : List (Option Nat) :=
  (store.permissionIds fun policy => isTeam teamId policy.teamId).filter fun permissionId =>
    (isIn permissionId
      (store.permissionIds fun policy => (isTeam teamId policy.teamId).not)).not.keeps

/-- The rows are read as `(i32,)`. -/
def decodeIds (ids : List (Option Nat)) : Except RepositoryError (List Nat) :=
  ids.mapM fun id => okOr id (.database
    "error occurred while decoding column 0: unexpected null; try decoding as an `Option`")

/-! ### Statements -/

def deleteAuthorizations : TeamStore :=
  { store with authorizations := delete store.authorizations (store.ofTenantKey tenantId teamId) }

def deleteStoredKeys : Except RepositoryError TeamStore := do
  requirePermitted authorizationsStoredKey store.authorizations store.storedKeys
    (ofTenantTeam tenantId teamId) "stored_keys" "authorizations_stored_key_id_fkey"
    "authorizations"
  return { store with storedKeys := delete store.storedKeys (ofTenantTeam tenantId teamId) }

def deletePolicyPermissions : TeamStore :=
  { store with policyPermissions := delete store.policyPermissions (store.ofTeamPolicy teamId) }

/-- `DELETE FROM permissions WHERE id = ANY($1)`, unless there is none to delete. -/
def deletePermissions (ids : List Nat) : Except RepositoryError TeamStore :=
  if ids.isEmpty then .ok store
  else do
    let condition (permission : PermissionRow) : Bool := ids.contains permission.id
    requirePermitted policyPermissionsPermission store.policyPermissions store.permissions
      condition "permissions" "policy_permissions_permission_id_fkey" "policy_permissions"
    return { store with permissions := delete store.permissions condition }

def deletePolicies : Except RepositoryError TeamStore := do
  let condition (policy : Policy) : Bool := (isTeam teamId policy.teamId).keeps
  requirePermitted authorizationsPolicy store.authorizations store.policies condition
    "policies" "authorizations_policy_id_fkey" "authorizations"
  requirePermitted policyPermissionsPolicy store.policyPermissions store.policies condition
    "policies" "policy_permissions_policy_id_fkey" "policy_permissions"
  return { store with policies := delete store.policies condition }

def deleteTeamUsers : TeamStore :=
  { store with teamUsers := delete store.teamUsers fun row => (isTeam teamId row.teamId).keeps }

def deleteTeamRow : Except RepositoryError TeamStore := do
  let condition (team : Team) : Bool := team.tenantId = tenantId && team.id = teamId
  requirePermitted policiesTeam store.policies store.teams condition
    "teams" "policies_team_id_fkey" "policies"
  requirePermitted storedKeysTeam store.storedKeys store.teams condition
    "teams" "stored_keys_team_id_fkey" "stored_keys"
  requirePermitted teamUsersTeam store.teamUsers store.teams condition
    "teams" "team_users_team_id_fkey" "team_users"
  return { store with teams := delete store.teams condition }

def deleteTeam : Except RepositoryError TeamStore := do
  let store := store.deleteAuthorizations tenantId teamId
  let store ← store.deleteStoredKeys tenantId teamId
  let ids ← decodeIds (store.orphanedPermissions teamId)
  let store := store.deletePolicyPermissions teamId
  let store ← store.deletePermissions ids
  let store ← store.deletePolicies teamId
  let store := store.deleteTeamUsers teamId
  store.deleteTeamRow tenantId teamId

/-! ### What the conditions select -/

def ofTeamKey : AuthorizationRow → Bool :=
  authorizationsStoredKey.refersTo store.storedKeys fun key => key.teamId = some teamId

def LinksTeam (link : PolicyPermissionRow) : Prop :=
  ∃ policy ∈ store.policies, policy.teamId = some teamId ∧ link.policyId = some policy.id

def LinksOtherTeam (link : PolicyPermissionRow) : Prop :=
  ∃ policy ∈ store.policies, (∃ other, policy.teamId = some other ∧ other ≠ teamId) ∧
    link.policyId = some policy.id

variable {store tenantId teamId}

@[simp] theorem isTeam_keeps {column : Option Nat} :
    (isTeam teamId column).keeps = true ↔ column = some teamId := by
  simp [isTeam]

theorem isTeam_not_keeps {column : Option Nat} :
    (isTeam teamId column).not.keeps = true ↔ ∃ other, column = some other ∧ other ≠ teamId := by
  simp [isTeam, keeps_not_equal]

theorem ofBool_keeps (condition : Bool) : (Truth.ofBool condition).keeps = condition := by
  cases condition <;> rfl

theorem ofTenantTeam_iff {key : StoredKeyRow} : ofTenantTeam tenantId teamId key = true ↔
    key.tenantId = tenantId ∧ key.teamId = some teamId := by
  rw [ofTenantTeam, keeps_and, ofBool_keeps, Bool.and_eq_true, decide_eq_true_eq, isTeam_keeps]

theorem ofTenantKey_iff {row : AuthorizationRow} : store.ofTenantKey tenantId teamId row = true ↔
    row.tenantId = tenantId ∧ ∃ key ∈ store.storedKeys,
      ofTenantTeam tenantId teamId key = true ∧ row.storedKeyId = some key.id := by
  rw [ofTenantKey, keeps_and, ofBool_keeps, Bool.and_eq_true, decide_eq_true_eq, keeps_isIn]
  simp only [List.mem_map, List.mem_filter, and_assoc]
  refine and_congr_right fun _ => ⟨?_, ?_⟩
  · rintro ⟨-, -, key, member, own, same⟩
    exact ⟨key, member, own, same.symm⟩
  · rintro ⟨key, member, own, same⟩
    exact ⟨key.id, same, key, member, own, same.symm⟩

theorem ofTeamKey_iff {row : AuthorizationRow} : store.ofTeamKey teamId row = true ↔
    ∃ key ∈ store.storedKeys, key.teamId = some teamId ∧ row.storedKeyId = some key.id := by
  rw [ofTeamKey, ForeignKey.refersTo_iff]
  simp only [decide_eq_true_eq, authorizationsStoredKey]

theorem ofTeamPolicy_iff {link : PolicyPermissionRow} :
    store.ofTeamPolicy teamId link = true ↔ store.LinksTeam teamId link := by
  rw [ofTeamPolicy, keeps_isIn]
  simp only [List.mem_map, List.mem_filter, isTeam_keeps, and_assoc]
  constructor
  · rintro ⟨-, -, policy, member, own, same⟩
    exact ⟨policy, member, own, same.symm⟩
  · rintro ⟨policy, member, own, same⟩
    exact ⟨policy.id, same, policy, member, own, same.symm⟩

theorem mem_permissionIds {kind : Policy → Truth} {id : Option Nat} :
    id ∈ store.permissionIds kind ↔ ∃ link ∈ store.policyPermissions,
      (∃ policy ∈ store.policies, (kind policy).keeps = true ∧ link.policyId = some policy.id) ∧
        link.permissionId = id := by
  simp only [permissionIds, List.mem_flatMap, List.mem_map, List.mem_filter, keeps_and,
    Bool.and_eq_true, keeps_equal, Option.some_inj]
  refine exists_congr fun link => and_congr_right fun _ => ⟨?_, ?_⟩
  · rintro ⟨policy, ⟨member, ⟨value, same, rfl⟩, meets⟩, rfl⟩
    exact ⟨⟨policy, member, meets, same⟩, rfl⟩
  · rintro ⟨⟨policy, member, meets, same⟩, rfl⟩
    exact ⟨policy, ⟨member, ⟨_, same, rfl⟩, meets⟩, rfl⟩

/-- A permission of the team is deleted when it differs from every one of another team's, which
beside a null none does. -/
theorem mem_orphanedPermissions {id : Option Nat} : id ∈ store.orphanedPermissions teamId ↔
    (∃ link ∈ store.policyPermissions, store.LinksTeam teamId link ∧ link.permissionId = id) ∧
      ∀ further ∈ store.policyPermissions, store.LinksOtherTeam teamId further →
        ∃ own other, id = some own ∧ further.permissionId = some other ∧ own ≠ other := by
  rw [orphanedPermissions, List.mem_filter, keeps_not_isIn]
  refine and_congr ?_ ⟨?_, ?_⟩
  · simp only [mem_permissionIds, isTeam_keeps]
    rfl
  · intro differs further member ofOther
    obtain ⟨policy, stored, other, refers⟩ := ofOther
    exact differs _ (mem_permissionIds.mpr
      ⟨further, member, ⟨policy, stored, isTeam_not_keeps.mpr other, refers⟩, rfl⟩)
  · intro differs candidate present
    obtain ⟨further, member, ⟨policy, stored, other, refers⟩, rfl⟩ := mem_permissionIds.mp present
    exact differs further member ⟨policy, stored, isTeam_not_keeps.mp other, refers⟩

/-! ### What the statements leave -/

theorem deletePermissions_eq (ids : List Nat) : store.deletePermissions ids = (do
    requirePermitted policyPermissionsPermission store.policyPermissions store.permissions
      (fun permission => ids.contains permission.id) "permissions"
      "policy_permissions_permission_id_fkey" "policy_permissions"
    return { store with
      permissions := delete store.permissions fun permission => ids.contains permission.id }) := by
  unfold deletePermissions
  split
  · rename_i none_orphaned
    obtain rfl := List.isEmpty_iff.mp none_orphaned
    have permitted : policyPermissionsPermission.permits store.policyPermissions
        store.permissions (fun permission => ([] : List Nat).contains permission.id) = true :=
      ForeignKey.permits_iff.mpr nofun
    have kept : delete store.permissions (fun permission =>
        ([] : List Nat).contains permission.id) = store.permissions :=
      List.filter_eq_self.mpr fun _ _ => rfl
    rw [requirePermitted, permitted, kept]
    rfl
  · rfl

variable (store tenantId teamId) in
/-- The store after every statement, with the permissions under some numbers deleted. -/
def withoutTeam (ids : List Nat) : TeamStore where
  teams := delete store.teams fun team => team.tenantId = tenantId && team.id = teamId
  teamUsers := delete store.teamUsers fun row => (isTeam teamId row.teamId).keeps
  storedKeys := delete store.storedKeys (ofTenantTeam tenantId teamId)
  authorizations := delete store.authorizations (store.ofTenantKey tenantId teamId)
  policies := delete store.policies fun policy => (isTeam teamId policy.teamId).keeps
  permissions := delete store.permissions fun permission => ids.contains permission.id
  policyPermissions := delete store.policyPermissions (store.ofTeamPolicy teamId)

variable (store tenantId teamId) in
/-- No foreign key refuses one of the statements. -/
structure Permitted (ids : List Nat) : Prop where
  storedKeys : authorizationsStoredKey.permits
    (delete store.authorizations (store.ofTenantKey tenantId teamId)) store.storedKeys
      (ofTenantTeam tenantId teamId) = true
  permissions : policyPermissionsPermission.permits
    (delete store.policyPermissions (store.ofTeamPolicy teamId)) store.permissions
      (fun permission => ids.contains permission.id) = true
  policies : authorizationsPolicy.permits
    (delete store.authorizations (store.ofTenantKey tenantId teamId)) store.policies
      (fun policy => (isTeam teamId policy.teamId).keeps) = true
  linkedPolicies : policyPermissionsPolicy.permits
    (delete store.policyPermissions (store.ofTeamPolicy teamId)) store.policies
      (fun policy => (isTeam teamId policy.teamId).keeps) = true
  teams : policiesTeam.permits
    (delete store.policies fun policy => (isTeam teamId policy.teamId).keeps) store.teams
      (fun team => team.tenantId = tenantId && team.id = teamId) = true
  keyTeams : storedKeysTeam.permits
    (delete store.storedKeys (ofTenantTeam tenantId teamId)) store.teams
      (fun team => team.tenantId = tenantId && team.id = teamId) = true
  userTeams : teamUsersTeam.permits
    (delete store.teamUsers fun row => (isTeam teamId row.teamId).keeps) store.teams
      (fun team => team.tenantId = tenantId && team.id = teamId) = true

theorem deleteTeam_eq_ok {after : TeamStore} : store.deleteTeam tenantId teamId = .ok after ↔
    ∃ ids, decodeIds (store.orphanedPermissions teamId) = .ok ids ∧
      store.Permitted tenantId teamId ids ∧ after = store.withoutTeam tenantId teamId ids := by
  simp only [deleteTeam, deleteStoredKeys, deletePermissions_eq, deletePolicies, deleteTeamRow,
    requirePermitted, bind_eq_ok, require_eq_ok, pure_eq_ok]
  constructor
  · rintro ⟨_, ⟨-, storedKeys, rfl⟩, ids, decoded, _, ⟨-, permissions, rfl⟩,
      _, ⟨-, policies, -, linkedPolicies, rfl⟩, -, teams, -, keyTeams, -, userTeams, rfl⟩
    exact ⟨ids, decoded,
      ⟨storedKeys, permissions, policies, linkedPolicies, teams, keyTeams, userTeams⟩, rfl⟩
  · rintro ⟨ids, decoded, permitted, rfl⟩
    exact ⟨_, ⟨(), permitted.storedKeys, rfl⟩, ids, decoded, _, ⟨(), permitted.permissions, rfl⟩,
      _, ⟨(), permitted.policies, (), permitted.linkedPolicies, rfl⟩, (), permitted.teams,
      (), permitted.keyTeams, (), permitted.userTeams, rfl⟩

/-! ### A deletion of the team alone -/

variable (store) in
/-- Every row refers to a stored one. -/
structure Referential : Prop where
  authorizationsKey : authorizationsStoredKey.Holds store.authorizations store.storedKeys
  authorizationsPolicy : authorizationsPolicy.Holds store.authorizations store.policies
  linksPermission : policyPermissionsPermission.Holds store.policyPermissions store.permissions
  linksPolicy : policyPermissionsPolicy.Holds store.policyPermissions store.policies
  policiesTeam : policiesTeam.Holds store.policies store.teams
  keysTeam : storedKeysTeam.Holds store.storedKeys store.teams
  usersTeam : teamUsersTeam.Holds store.teamUsers store.teams

variable (store) in
def permissionsOf (policyId : Nat) : List PermissionRow :=
  (store.policyPermissions.filter fun link => link.policyId = some policyId).flatMap fun link =>
    store.permissions.filter fun row => link.permissionId = some row.id

variable (store tenantId teamId) in
/-- The rows of the team are gone, all others stay, and so do the permissions of other policies. -/
structure Removed (after : TeamStore) : Prop where
  teamUsers : after.teamUsers = delete store.teamUsers fun row => row.teamId = some teamId
  storedKeys : after.storedKeys = delete store.storedKeys fun key => key.teamId = some teamId
  policies : after.policies = delete store.policies fun policy => policy.teamId = some teamId
  authorizations : after.authorizations = delete store.authorizations (store.ofTeamKey teamId)
  teams : after.teams = delete store.teams fun team => team.tenantId = tenantId && team.id = teamId
  permissions : ∀ policy ∈ store.policies, policy.teamId ≠ some teamId →
    after.permissionsOf policy.id = store.permissionsOf policy.id

variable (store tenantId teamId) in
/-- The keys of the team and their authorizations are of the tenant, its policies are not in other
authorizations, and their permissions are not linked elsewhere. -/
structure Separate : Prop where
  storedKeys : ∀ key ∈ store.storedKeys, key.teamId = some teamId → key.tenantId = tenantId
  authorizations : ∀ row ∈ store.authorizations, store.ofTeamKey teamId row = true →
    row.tenantId = tenantId
  policies : ∀ row ∈ store.authorizations, ∀ policy ∈ store.policies,
    policy.teamId = some teamId → row.policyId = some policy.id → store.ofTeamKey teamId row = true
  nulls : ∀ link ∈ store.policyPermissions, store.LinksTeam teamId link →
    link.permissionId = none → ∃ further ∈ store.policyPermissions,
      store.LinksOtherTeam teamId further
  shared : ∀ link ∈ store.policyPermissions, store.LinksTeam teamId link →
    ∀ other ∈ store.policyPermissions, ¬store.LinksTeam teamId other → ∀ permissionId,
      link.permissionId = some permissionId → other.permissionId = some permissionId →
        ∃ further ∈ store.policyPermissions, store.LinksOtherTeam teamId further ∧
          (further.permissionId = some permissionId ∨ further.permissionId = none)

theorem decodeIds_eq_ok {ids : List (Option Nat)} {numbers : List Nat} :
    decodeIds ids = .ok numbers ↔ ids = numbers.map some := by
  unfold decodeIds
  induction ids generalizing numbers with
  | nil =>
    rw [List.mapM_nil, pure_eq_ok]
    cases numbers <;> simp
  | cons id rest ih =>
    rw [List.mapM_cons, bind_eq_ok]
    simp only [okOr_eq_ok, bind_eq_ok, pure_eq_ok, ih]
    constructor
    · rintro ⟨number, rfl, others, rfl, rfl⟩
      rfl
    · intro same
      obtain ⟨number, others, rfl, rfl, rfl⟩ := List.map_eq_cons_iff.mp same.symm
      exact ⟨number, rfl, others, rfl, rfl⟩

theorem exists_decodeIds {ids : List (Option Nat)} (present : none ∉ ids) :
    ∃ numbers, decodeIds ids = .ok numbers := by
  refine ⟨ids.reduceOption, decodeIds_eq_ok.mpr ?_⟩
  induction ids with
  | nil => rfl
  | cons id rest ih =>
    cases id with
    | none => exact absurd List.mem_cons_self present
    | some number =>
      exact congrArg (some number :: ·)
        (ih fun later => present (List.mem_cons_of_mem _ later))

/-! ### When no foreign key refuses it -/

theorem mem_decoded {ids : List Nat}
    (decoded : decodeIds (store.orphanedPermissions teamId) = .ok ids) {permissionId : Nat} :
    permissionId ∈ ids ↔ some permissionId ∈ store.orphanedPermissions teamId := by
  rw [decodeIds_eq_ok.mp decoded, List.mem_map]
  simp

section

variable (separate : store.Separate tenantId teamId)

include separate

theorem Separate.decodes :
    ∃ ids, decodeIds (store.orphanedPermissions teamId) = .ok ids := by
  refine exists_decodeIds fun present => ?_
  obtain ⟨⟨link, member, ofTeam, isNull⟩, differs⟩ := mem_orphanedPermissions.mp present
  obtain ⟨further, stored, ofOther⟩ := separate.nulls link member ofTeam isNull
  obtain ⟨_, _, same, -⟩ := differs further stored ofOther
  cases same

theorem Separate.ofTenantKey_eq :
    ∀ row ∈ store.authorizations,
      store.ofTenantKey tenantId teamId row = store.ofTeamKey teamId row := by
  intro row member
  rw [Bool.eq_iff_iff, ofTenantKey_iff, ofTeamKey_iff]
  constructor
  · rintro ⟨-, key, stored, own, refers⟩
    exact ⟨key, stored, (ofTenantTeam_iff.mp own).2, refers⟩
  · rintro ⟨key, stored, own, refers⟩
    exact ⟨separate.authorizations row member (ofTeamKey_iff.mpr ⟨key, stored, own, refers⟩),
      key, stored, ofTenantTeam_iff.mpr ⟨separate.storedKeys key stored own, own⟩, refers⟩

theorem Separate.permitted {ids : List Nat}
    (decoded : decodeIds (store.orphanedPermissions teamId) = .ok ids) :
    store.Permitted tenantId teamId ids := by
  constructor <;> refine ForeignKey.permits_iff.mpr ?_
  case storedKeys =>
    intro row member key stored own refers
    obtain ⟨present, kept⟩ := mem_delete.mp member
    rw [separate.ofTenantKey_eq row present, ofTeamKey_iff.mpr
      ⟨key, stored, (ofTenantTeam_iff.mp own).2, refers⟩] at kept
    cases kept
  case permissions =>
    intro other member permission _ orphaned refers
    obtain ⟨present, kept⟩ := mem_delete.mp member
    rw [List.contains_iff_mem, mem_decoded decoded, mem_orphanedPermissions] at orphaned
    obtain ⟨⟨link, linked, ofTeam, same⟩, differs⟩ := orphaned
    have notTeam : ¬store.LinksTeam teamId other := fun own => by
      rw [ofTeamPolicy_iff.mpr own] at kept
      cases kept
    obtain ⟨further, stored, ofOther, shares⟩ :=
      separate.shared link linked ofTeam other present notTeam _ same refers
    obtain ⟨own, number, equal, known, distinct⟩ := differs further stored ofOther
    rcases shares with same | isNull
    · exact distinct (Option.some.inj (equal.symm.trans (same.symm.trans known)))
    · rw [isNull] at known
      cases known
  case policies =>
    intro row member policy stored own refers
    obtain ⟨present, kept⟩ := mem_delete.mp member
    rw [separate.ofTenantKey_eq row present,
      separate.policies row present policy stored (isTeam_keeps.mp own) refers] at kept
    cases kept
  case linkedPolicies =>
    intro link member policy stored own refers
    exact absurd member
      (not_mem_delete (ofTeamPolicy_iff.mpr ⟨policy, stored, isTeam_keeps.mp own, refers⟩))
  case teams =>
    intro policy member team _ own refers
    obtain rfl := of_decide_eq_true (Bool.and_eq_true_iff.mp own).2
    exact absurd member (not_mem_delete (isTeam_keeps.mpr refers))
  case keyTeams =>
    intro key member team _ own refers
    obtain rfl := of_decide_eq_true (Bool.and_eq_true_iff.mp own).2
    have present := (mem_delete.mp member).1
    exact absurd member (not_mem_delete
      (ofTenantTeam_iff.mpr ⟨separate.storedKeys key present refers, refers⟩))
  case userTeams =>
    intro row member team _ own refers
    obtain rfl := of_decide_eq_true (Bool.and_eq_true_iff.mp own).2
    exact absurd member (not_mem_delete (isTeam_keeps.mpr refers))

end

/-! ### What a deletion leaves of the others -/

theorem isTeam_eq (column : Option Nat) :
    (isTeam teamId column).keeps = decide (column = some teamId) := by
  rw [Bool.eq_iff_iff, isTeam_keeps, decide_eq_true_eq]

theorem permissionsOf_withoutTeam (keyed : Keyed Policy.id store.policies) {ids : List Nat}
    (permitted : store.Permitted tenantId teamId ids) {policy : Policy}
    (stored : policy ∈ store.policies) (other : policy.teamId ≠ some teamId) :
    (store.withoutTeam tenantId teamId ids).permissionsOf policy.id =
      store.permissionsOf policy.id := by
  have notTeam : ∀ link, link.policyId = some policy.id →
    store.ofTeamPolicy teamId link = false := by
    intro link refers
    refine Bool.eq_false_iff.mpr fun ofTeam => ?_
    obtain ⟨own, member, isOwn, same⟩ := ofTeamPolicy_iff.mp ofTeam
    obtain rfl := keyed.eq_of_key stored member (Option.some.inj (refers.symm.trans same))
    exact other isOwn
  have links : (delete store.policyPermissions (store.ofTeamPolicy teamId)).filter
      (fun link => link.policyId = some policy.id) =
      store.policyPermissions.filter fun link => link.policyId = some policy.id := by
    rw [delete, List.filter_filter]
    refine List.filter_congr fun link _ => ?_
    by_cases refers : link.policyId = some policy.id
    · rw [notTeam link refers]
      exact Bool.and_true _
    · rw [decide_eq_false refers]
      rfl
  unfold permissionsOf
  rw [show (store.withoutTeam tenantId teamId ids).policyPermissions =
    delete store.policyPermissions (store.ofTeamPolicy teamId) from rfl, links]
  refine List.flatMap_congr fun link member => ?_
  obtain ⟨linked, refers⟩ := List.mem_filter.mp member
  show (delete store.permissions _).filter _ = _
  rw [delete, List.filter_filter]
  refine List.filter_congr fun row present => ?_
  by_cases same : link.permissionId = some row.id
  · -- a link that stays refers to no permission that goes
    have kept : ids.contains row.id = false := by
      refine Bool.eq_false_iff.mpr fun orphaned => ?_
      exact ForeignKey.permits_iff.mp permitted.permissions link
        (mem_delete.mpr ⟨linked, notTeam link (of_decide_eq_true refers)⟩) row present orphaned same
    rw [kept]
    exact Bool.and_true _
  · rw [decide_eq_false same]
    rfl

theorem Separate.removed (separate : store.Separate tenantId teamId)
    (keyed : Keyed Policy.id store.policies) {ids : List Nat}
    (permitted : store.Permitted tenantId teamId ids) :
    store.Removed tenantId teamId (store.withoutTeam tenantId teamId ids) where
  teamUsers := delete_congr fun row _ => isTeam_eq row.teamId
  storedKeys := delete_congr fun key member => by
    rw [Bool.eq_iff_iff, ofTenantTeam_iff, decide_eq_true_eq]
    exact ⟨And.right, fun own => ⟨separate.storedKeys key member own, own⟩⟩
  policies := delete_congr fun policy _ => isTeam_eq policy.teamId
  authorizations := delete_congr separate.ofTenantKey_eq
  teams := rfl
  permissions := fun _ stored other => permissionsOf_withoutTeam keyed permitted stored other

theorem separate_of_removed (linksPermission : policyPermissionsPermission.Holds
      store.policyPermissions store.permissions) {ids : List Nat}
    (decoded : decodeIds (store.orphanedPermissions teamId) = .ok ids)
    (permitted : store.Permitted tenantId teamId ids)
    (removed : (store.withoutTeam tenantId teamId ids).storedKeys =
      delete store.storedKeys fun key => key.teamId = some teamId) :
    store.Separate tenantId teamId := by
  have keys : ∀ key ∈ store.storedKeys, key.teamId = some teamId → key.tenantId = tenantId := by
    intro key member own
    by_contra other
    have left : key ∈ delete store.storedKeys (ofTenantTeam tenantId teamId) :=
      mem_delete.mpr ⟨member, Bool.eq_false_iff.mpr fun ofTenant =>
        other (ofTenantTeam_iff.mp ofTenant).1⟩
    rw [show delete store.storedKeys (ofTenantTeam tenantId teamId) = _ from removed] at left
    exact absurd left (not_mem_delete (decide_eq_true own))
  constructor
  case storedKeys => exact keys
  case authorizations =>
    intro row member ofTeam
    by_contra other
    obtain ⟨key, stored, own, refers⟩ := ofTeamKey_iff.mp ofTeam
    refine ForeignKey.permits_iff.mp permitted.storedKeys row (mem_delete.mpr ⟨member, ?_⟩) key
      stored (ofTenantTeam_iff.mpr ⟨keys key stored own, own⟩) refers
    exact Bool.eq_false_iff.mpr fun ofTenant => other (ofTenantKey_iff.mp ofTenant).1
  case policies =>
    intro row member policy stored own refers
    by_contra other
    refine ForeignKey.permits_iff.mp permitted.policies row (mem_delete.mpr ⟨member, ?_⟩) policy
      stored (isTeam_keeps.mpr own) refers
    refine Bool.eq_false_iff.mpr fun ofTenant => other ?_
    obtain ⟨-, key, present, ownKey, same⟩ := ofTenantKey_iff.mp ofTenant
    exact ofTeamKey_iff.mpr ⟨key, present, (ofTenantTeam_iff.mp ownKey).2, same⟩
  case nulls =>
    intro link member ofTeam isNull
    by_contra alone
    have orphaned : none ∈ store.orphanedPermissions teamId :=
      mem_orphanedPermissions.mpr ⟨⟨link, member, ofTeam, isNull⟩,
        fun further stored ofOther => absurd ⟨further, stored, ofOther⟩ alone⟩
    rw [decodeIds_eq_ok.mp decoded] at orphaned
    obtain ⟨_, -, same⟩ := List.mem_map.mp orphaned
    cases same
  case shared =>
    intro link member ofTeam other stored notTeam permissionId same refers
    by_contra alone
    have orphaned : permissionId ∈ ids := by
      refine (mem_decoded decoded).mpr (mem_orphanedPermissions.mpr
        ⟨⟨link, member, ofTeam, same⟩, fun further present ofOther => ?_⟩)
      cases known : further.permissionId with
      | none => exact absurd ⟨further, present, ofOther, .inr known⟩ alone
      | some number =>
        refine ⟨permissionId, number, rfl, rfl, ?_⟩
        rintro rfl
        exact alone ⟨further, present, ofOther, .inl known⟩
    obtain ⟨permission, isStored, rfl⟩ := linksPermission other stored permissionId refers
    refine ForeignKey.permits_iff.mp permitted.permissions other (mem_delete.mpr ⟨stored, ?_⟩)
      permission isStored (List.contains_iff_mem.mpr orphaned) refers
    exact Bool.eq_false_iff.mpr fun ofTeam => notTeam (ofTeamPolicy_iff.mp ofTeam)

/-- The deletion of a team succeeds and removes the team's rows alone exactly when the rows of the
team are its own. -/
theorem team_deleted_iff (referential : store.Referential)
    (keyed : Keyed Policy.id store.policies) :
    (∃ after, store.deleteTeam tenantId teamId = .ok after ∧
      store.Removed tenantId teamId after) ↔ store.Separate tenantId teamId := by
  constructor
  · rintro ⟨after, deleted, removed⟩
    obtain ⟨ids, decoded, permitted, rfl⟩ := deleteTeam_eq_ok.mp deleted
    exact separate_of_removed referential.linksPermission decoded permitted removed.storedKeys
  · intro separate
    obtain ⟨ids, decoded⟩ := separate.decodes
    have permitted := separate.permitted decoded
    exact ⟨_, deleteTeam_eq_ok.mpr ⟨ids, decoded, permitted, rfl⟩,
      separate.removed keyed permitted⟩

end TeamStore

/-! ### A global policy -/

section

variable (store : TeamStore) (tenantId : Int) (teamId : Nat)

instance decidableLinksTeam (link : PolicyPermissionRow) :
    Decidable (store.LinksTeam teamId link) :=
  inferInstanceAs (Decidable (∃ policy ∈ store.policies, policy.teamId = some teamId ∧
    link.policyId = some policy.id))

instance decidableLinksOtherTeam (link : PolicyPermissionRow) :
    Decidable (store.LinksOtherTeam teamId link) :=
  inferInstanceAs (Decidable (∃ policy ∈ store.policies,
    (∃ other ∈ policy.teamId, other ≠ teamId) ∧ link.policyId = some policy.id))

instance decidableSeparate : Decidable (store.Separate tenantId teamId) :=
  decidable_of_iff
    ((∀ key ∈ store.storedKeys, key.teamId = some teamId → key.tenantId = tenantId) ∧
      (∀ row ∈ store.authorizations, store.ofTeamKey teamId row = true →
        row.tenantId = tenantId) ∧
      (∀ row ∈ store.authorizations, ∀ policy ∈ store.policies, policy.teamId = some teamId →
        row.policyId = some policy.id → store.ofTeamKey teamId row = true) ∧
      (∀ link ∈ store.policyPermissions, store.LinksTeam teamId link →
        link.permissionId = none → ∃ further ∈ store.policyPermissions,
          store.LinksOtherTeam teamId further) ∧
      ∀ link ∈ store.policyPermissions, store.LinksTeam teamId link →
        ∀ other ∈ store.policyPermissions, ¬store.LinksTeam teamId other →
          ∀ permissionId ∈ link.permissionId, other.permissionId = some permissionId →
            ∃ further ∈ store.policyPermissions, store.LinksOtherTeam teamId further ∧
              (further.permissionId = some permissionId ∨ further.permissionId = none))
    ⟨fun ⟨storedKeys, authorizations, policies, nulls, shared⟩ =>
        ⟨storedKeys, authorizations, policies, nulls, shared⟩,
      fun separate => ⟨separate.storedKeys, separate.authorizations, separate.policies,
        separate.nulls, separate.shared⟩⟩

end

def sampleStore : TeamStore where
  teams := [⟨1, 1, "first"⟩, ⟨2, 1, "second"⟩]
  teamUsers := [⟨some 1, some (sampleKey 0), "admin"⟩, ⟨some 2, some (sampleKey 1), "admin"⟩]
  storedKeys := [⟨1, 1, some 1, sampleKey 2⟩, ⟨2, 1, some 2, sampleKey 3⟩]
  authorizations := [⟨1, 1, some 1, some 2, "first"⟩, ⟨2, 1, some 2, some 3, "second"⟩]
  policies := [⟨1, none, some "social"⟩, ⟨2, some 1, none⟩, ⟨3, some 2, none⟩]
  permissions := [⟨1, "allowed_kinds", "\x7b\x7d"⟩, ⟨2, "content_filter", "\x7b\x7d"⟩,
    ⟨3, "encrypt_to_self", "\x7b\x7d"⟩]
  policyPermissions := [⟨some 1, some 1⟩, ⟨some 2, some 2⟩, ⟨some 2, some 3⟩, ⟨some 3, some 3⟩]

theorem sampleStore_referential : sampleStore.Referential := by
  constructor <;> decide

theorem team_deleted_sample : ∃ after, sampleStore.deleteTeam 1 1 = .ok after ∧
    sampleStore.Removed 1 1 after := by
  have keyed : Keyed Policy.id sampleStore.policies :=
    show (sampleStore.policies.map Policy.id).Nodup by decide
  exact (TeamStore.team_deleted_iff sampleStore_referential keyed).mpr (by decide +kernel)

/-- The permission of a global policy is taken for one of the team's alone. -/
theorem team_not_deleted :
    let shared := { sampleStore with policyPermissions := [⟨some 1, some 1⟩, ⟨some 2, some 1⟩] }
    shared.Referential ∧ shared.orphanedPermissions 1 = [some 1] ∧
      shared.deleteTeam 1 1 = .error (.integrity (referencedMessage "permissions"
        "policy_permissions_permission_id_fkey" "policy_permissions")) :=
  ⟨by constructor <;> decide, by decide +kernel, by decide +kernel⟩

end Divine.Keycast
