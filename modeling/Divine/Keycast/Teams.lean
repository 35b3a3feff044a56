/-
This file settles when a team keeps an administrator.
-/

import Divine.Keycast.OAuth
import Divine.Library.Interleaving

namespace Divine.Keycast

open Fallible Interleaving Table

/-! ### Tables -/

structure Team where
  id : Nat
  tenantId : Int
  name : String
  deriving DecidableEq

structure TeamUser where
  userPubkey : String
  teamId : Nat
  role : String
  deriving DecidableEq

inductive TeamUserRole where
  | admin
  | member
  deriving DecidableEq

def TeamUserRole.asStr : TeamUserRole → String
  | admin => "admin"
  | member => "member"

/-- The tables of the teams, beside those they are joined with. -/
structure TeamTables where
  database : Database
  teams : List Team
  teamUsers : List TeamUser
  teamsSeq : Nat
  policiesSeq : Nat
  permissionsSeq : Nat
  deriving DecidableEq

namespace TeamTables

variable (tables : TeamTables)

def ofAdmin (teamId : Nat) (row : TeamUser) : Bool := row.teamId = teamId && row.role = "admin"

def isTeamAdmin (pubkey : PublicKey) (teamId : Nat) : Bool :=
  0 < affected tables.teamUsers fun row => row.userPubkey = pubkey.toHex && ofAdmin teamId row

def isMember (teamId : Nat) (pubkey : String) : Bool :=
  selectExists tables.teamUsers fun row => row.teamId = teamId && row.userPubkey = pubkey

def countOtherAdmins (teamId : Nat) (excludePubkey : String) : Nat :=
  affected tables.teamUsers fun row => row.userPubkey ≠ excludePubkey && ofAdmin teamId row

def removeMember (teamId : Nat) (pubkey : String) : TeamTables :=
  { tables with teamUsers := delete tables.teamUsers fun row =>
      row.teamId = teamId && row.userPubkey = pubkey }

def addMember (teamId : Nat) (pubkey role : String) :
    Except RepositoryError (TeamUser × TeamTables) :=
  if tables.isMember teamId pubkey then .error .duplicate
  else if !selectExists tables.teams fun team => team.id = teamId then
    .error (.integrity (Database.foreignKeyMessage "team_users" "team_users_team_id_fkey"))
  else if !selectExists tables.database.users fun user => user.pubkey = pubkey then
    .error (.integrity (Database.foreignKeyMessage "team_users" "team_users_user_pubkey_fkey"))
  else
    let row : TeamUser := ⟨pubkey, teamId, role⟩
    .ok (row, { tables with teamUsers := tables.teamUsers ++ [row] })

/-- `UserRepository::find_or_create`: a user that exists keeps its row. -/
def findOrCreate (tenantId : Int) (pubkey : String) : TeamTables :=
  if selectExists tables.database.users fun user => user.pubkey = pubkey then tables
  else { tables with
    database := { tables.database with
      users := tables.database.users ++ [⟨pubkey, tenantId, none, none, false⟩] } }

/-- `TeamRepository::create_with_admin`, which answers the number: the user, the team, its
administrator, and its policy. -/
def createWithAdmin (tenantId : Int) (name adminPubkey allowedKindsConfig : String) :
    Nat × TeamTables :=
  let withUser := tables.findOrCreate tenantId adminPubkey
  (tables.teamsSeq, { withUser with
    teams := tables.teams ++ [⟨tables.teamsSeq, tenantId, name⟩]
    teamUsers := tables.teamUsers ++ [⟨adminPubkey, tables.teamsSeq, "admin"⟩]
    database := { withUser.database with
      policies := withUser.database.policies ++
        [⟨tables.policiesSeq, some tables.teamsSeq, none⟩]
      permissions := withUser.database.permissions ++
        [⟨tables.permissionsSeq, "allowed_kinds", allowedKindsConfig⟩]
      policyPermissions := withUser.database.policyPermissions ++
        [⟨tables.policiesSeq, tables.permissionsSeq⟩] }
    teamsSeq := tables.teamsSeq + 1
    policiesSeq := tables.policiesSeq + 1
    permissionsSeq := tables.permissionsSeq + 1 })

def ofTeam (teamId : Nat) (policy : Policy) : Bool := policy.teamId = some teamId

def ofOtherTeam (teamId : Nat) (policy : Policy) : Bool :=
  policy.teamId.isSome && policy.teamId ≠ some teamId

def linked (kind : Policy → Bool) (permissionId : Nat) : Bool :=
  selectExists tables.database.policyPermissions fun link => link.permissionId = permissionId &&
    selectExists tables.database.policies fun policy => policy.id = link.policyId && kind policy

def deleteTeam (tenantId : Int) (teamId : Nat) : TeamTables :=
  let ofStoredKey (key : StoredKey) : Bool := key.tenantId = tenantId && key.teamId = teamId
  { tables with
    database := { tables.database with
      authorizations := delete tables.database.authorizations fun row =>
        row.tenantId = tenantId && selectExists tables.database.storedKeys fun key =>
          key.id = row.storedKeyId && ofStoredKey key
      storedKeys := delete tables.database.storedKeys ofStoredKey
      policyPermissions := delete tables.database.policyPermissions fun link =>
        selectExists tables.database.policies fun policy =>
          policy.id = link.policyId && ofTeam teamId policy
      permissions := delete tables.database.permissions fun permission =>
        tables.linked (ofTeam teamId) permission.id &&
          !tables.linked (ofOtherTeam teamId) permission.id
      policies := delete tables.database.policies (ofTeam teamId) }
    teamUsers := delete tables.teamUsers fun row => row.teamId = teamId
    teams := delete tables.teams fun team => team.tenantId = tenantId && team.id = teamId }

end TeamTables

/-! ### Requests -/

inductive ApiError where
  | auth (message : String)
  | badRequest (message : String)
  | forbidden (message : String)
  | notFound (message : String)
  | internal (message : String)
  deriving DecidableEq

def ApiError.ofRepository : RepositoryError → ApiError
  | .notFound message => notFound message
  | .duplicate => badRequest "Already exists"
  | .integrity message => badRequest message
  | .database message => internal message

/-- Whom a request comes from. -/
structure UcanAuth where
  pubkey : String
  adminRole : Option String
  deriving DecidableEq

def isFullAdmin (allowedPubkeys : List String) (auth : UcanAuth) : Bool :=
  auth.adminRole = some "full" || allowedPubkeys.contains auth.pubkey

inductive TeamRequest where
  | deleteTeam (teamId : Nat)
  | addUser (teamId : Nat) (userPubkey : String) (role : TeamUserRole)
  | removeUser (teamId : Nat) (userPubkey : String)
  deriving DecidableEq

def TeamRequest.teamId : TeamRequest → Nat
  | deleteTeam teamId | addUser teamId _ _ | removeUser teamId _ => teamId

/-- The statement a request is about to run. -/
inductive TeamStage where
  | createTeam (name allowedKindsConfig : String)
  | verifyAdmin (request : TeamRequest)
  | isMember (teamId : Nat) (userPubkey : String) (role : TeamUserRole)
  | findOrCreate (teamId : Nat) (userPubkey : String) (role : TeamUserRole)
  | addMember (teamId : Nat) (userPubkey : String) (role : TeamUserRole)
  | countOtherAdmins (teamId : Nat) (userPubkey : String)
  | removeMember (teamId : Nat) (userPubkey : String)
  | deleteTeam (teamId : Nat)
  deriving DecidableEq

inductive TeamReply where
  | created (teamId : Nat)
  | added (row : TeamUser)
  | noContent
  deriving DecidableEq

structure TeamCall where
  tenantId : Int
  auth : UcanAuth
  stage : TeamStage
  deriving DecidableEq

structure TeamState where
  tables : TeamTables
  answers : List (Except ApiError TeamReply)

/-- A request either goes on to its next statement or answers. -/
abbrev TeamOutcome := TeamTables × Except (Except ApiError TeamReply) TeamStage

section

variable (crypto : Crypto) (allowedPubkeys : List String)

def verifyAdmin (tables : TeamTables) (pubkeyHex : String) (teamId : Nat) : Except ApiError Unit :=
  match crypto.publicKeyFromHex pubkeyHex with
  | .error _ => .error (.badRequest "Invalid pubkey")
  | .ok pubkey => require (tables.isTeamAdmin pubkey teamId)
      (.forbidden "You are not authorized to access this team")

/-- What a request does once the requester is known to be an administrator, up to its next
statement. -/
def afterVerify (auth : UcanAuth) : TeamRequest → Except ApiError TeamStage
  | .deleteTeam teamId => .ok (.deleteTeam teamId)
  | .addUser teamId userPubkey role =>
      match crypto.publicKeyFromHex userPubkey with
      | .error error => .error (.badRequest error)
      | .ok newUser => .ok (.isMember teamId newUser.toHex role)
  | .removeUser teamId userPubkey =>
      match crypto.publicKeyFromHex userPubkey with
      | .error error => .error (.badRequest error)
      | .ok removedUser =>
        -- only who removes himself is asked whether another administrator remains
        if auth.pubkey = removedUser.toHex then .ok (.countOtherAdmins teamId removedUser.toHex)
        else .ok (.removeMember teamId removedUser.toHex)

def teamStatement (tables : TeamTables) (tenantId : Int) (auth : UcanAuth) :
    TeamStage → TeamOutcome
  | .createTeam name allowedKindsConfig =>
      if isFullAdmin allowedPubkeys auth then
        let (teamId, created) := tables.createWithAdmin tenantId name auth.pubkey allowedKindsConfig
        (created, .error (.ok (.created teamId)))
      else (tables, .error (.error (.forbidden
        "Team creation is restricted to authorized users. Contact admin for access.")))
  | .verifyAdmin request =>
      match verifyAdmin crypto tables auth.pubkey request.teamId with
      | .error error => (tables, .error (.error error))
      | .ok () =>
        match afterVerify crypto auth request with
        | .error error => (tables, .error (.error error))
        | .ok stage => (tables, .ok stage)
  | .isMember teamId userPubkey role =>
      if tables.isMember teamId userPubkey then
        (tables, .error (.error (.badRequest "User already a member of this team")))
      else (tables, .ok (.findOrCreate teamId userPubkey role))
  | .findOrCreate teamId userPubkey role =>
      (tables.findOrCreate tenantId userPubkey, .ok (.addMember teamId userPubkey role))
  | .addMember teamId userPubkey role =>
      match tables.addMember teamId userPubkey role.asStr with
      | .error error => (tables, .error (.error (.ofRepository error)))
      | .ok (row, added) => (added, .error (.ok (.added row)))
  | .countOtherAdmins teamId userPubkey =>
      if tables.countOtherAdmins teamId userPubkey = 0 then
        (tables, .error (.error (.forbidden "Cannot delete the last admin from the team.")))
      else (tables, .ok (.removeMember teamId userPubkey))
  | .removeMember teamId userPubkey =>
      (tables.removeMember teamId userPubkey, .error (.ok .noContent))
  | .deleteTeam teamId => (tables.deleteTeam tenantId teamId, .error (.ok .noContent))

def advanceTeam (state : TeamState) (call : TeamCall) : TeamState × Option TeamCall :=
  match teamStatement crypto allowedPubkeys state.tables call.tenantId call.auth call.stage with
  | (tables, .ok stage) => ({ state with tables := tables }, some { call with stage := stage })
  | (tables, .error answer) => (⟨tables, answer :: state.answers⟩, none)

def TeamStage.first : TeamStage → Bool
  | createTeam _ _ | verifyAdmin _ => true
  | _ => false

/-- The requests on teams alone. A statement that fails leaves the tables as they are. -/
def teamSystem : System TeamState TeamCall Empty where
  starts _ call := call.stage.first
  advance := advanceTeam crypto allowedPubkeys
  environment _ event := nomatch event

end

abbrev TeamPool := Pool TeamState TeamCall

/-! ### Administrators -/

namespace TeamTables

def Administered (tables : TeamTables) (teamId : Nat) : Prop :=
  ∃ row ∈ tables.teamUsers, row.teamId = teamId ∧ row.role = "admin"

variable {tables : TeamTables} {teamId : Nat}

theorem Administered.of_subset {next : TeamTables} (administered : tables.Administered teamId)
    (kept : ∀ row ∈ tables.teamUsers, row ∈ next.teamUsers) : next.Administered teamId := by
  obtain ⟨row, present, admin⟩ := administered
  exact ⟨row, kept row present, admin⟩

theorem createWithAdmin_administered (tenantId : Int) (name adminPubkey config : String) :
    (tables.createWithAdmin tenantId name adminPubkey config).2.Administered
      (tables.createWithAdmin tenantId name adminPubkey config).1 :=
  ⟨_, List.mem_append_right _ (List.mem_singleton_self _), rfl, rfl⟩

theorem findOrCreate_teamUsers (tenantId : Int) (pubkey : String) :
    (tables.findOrCreate tenantId pubkey).teamUsers = tables.teamUsers := by
  unfold findOrCreate
  split <;> rfl

theorem addMember_eq_ok {pubkey role : String} {row : TeamUser} {added : TeamTables}
    (inserted : tables.addMember teamId pubkey role = .ok (row, added)) :
    added.teamUsers = tables.teamUsers ++ [row] := by
  unfold addMember at inserted
  split at inserted
  · cases inserted
  · split at inserted
    · cases inserted
    · split at inserted
      · cases inserted
      · cases Except.ok.inj inserted
        rfl

theorem removeMember_administered_iff (pubkey : String) :
    (tables.removeMember teamId pubkey).Administered teamId ↔
      tables.countOtherAdmins teamId pubkey ≠ 0 := by
  rw [← Nat.pos_iff_ne_zero, countOtherAdmins, affected, List.countP_pos_iff]
  constructor
  · rintro ⟨row, member, own, admin⟩
    obtain ⟨present, kept⟩ := mem_delete.mp member
    refine ⟨row, present, ?_⟩
    simp only [own, decide_true, Bool.true_and, decide_eq_false_iff_not] at kept
    simp [ofAdmin, own, admin, kept]
  · rintro ⟨row, present, counted⟩
    simp only [ofAdmin, Bool.and_eq_true, decide_eq_true_eq] at counted
    refine ⟨row, mem_delete.mpr ⟨present, ?_⟩, counted.2.1, counted.2.2⟩
    simpa using fun _ => counted.1

theorem Administered.removeMember (administered : tables.Administered teamId) {other : Nat}
    (elsewhere : other ≠ teamId) (pubkey : String) :
    (tables.removeMember other pubkey).Administered teamId := by
  obtain ⟨row, present, own, admin⟩ := administered
  refine ⟨row, mem_delete.mpr ⟨present, ?_⟩, own, admin⟩
  simp [own, Ne.symm elsewhere]

theorem Administered.deleteTeam (administered : tables.Administered teamId) {other : Nat}
    (elsewhere : other ≠ teamId) (tenantId : Int) :
    (tables.deleteTeam tenantId other).Administered teamId := by
  obtain ⟨row, present, own, admin⟩ := administered
  refine ⟨row, mem_delete.mpr ⟨present, ?_⟩, own, admin⟩
  simp [own, Ne.symm elsewhere]

end TeamTables

/-! ### Runs that leave an administrator -/

/-- A deletion of a member of the team runs only while another administrator is counted. -/
def LeavesAdmin (teamId : Nat) (tables : TeamTables) : TeamStage → Prop
  | .removeMember other pubkey => other = teamId → tables.countOtherAdmins teamId pubkey ≠ 0
  | _ => True

def KeepsTeam (teamId : Nat) : TeamStage → Prop
  | .deleteTeam other => other ≠ teamId
  | _ => True

/-- Every statement of the run leaves the team, and an administrator of it. -/
def LeavesTeamAdmin (teamId : Nat) (pool : TeamPool) : Action TeamCall Empty → Prop
  | .start _ | .environment _ => True
  | .step index => ∀ call, pool.calls[index]? = some call →
      KeepsTeam teamId call.stage ∧ LeavesAdmin teamId pool.shared.tables call.stage

section

variable {crypto : Crypto} {allowedPubkeys : List String} {teamId : Nat}

theorem teamStatement_administered {tables : TeamTables} {tenantId : Int} {auth : UcanAuth}
    {stage : TeamStage} (administered : tables.Administered teamId)
    (keeps : KeepsTeam teamId stage) (leaves : LeavesAdmin teamId tables stage) :
    (teamStatement crypto allowedPubkeys tables tenantId auth stage).1.Administered teamId := by
  cases stage with
  | createTeam name config =>
    simp only [teamStatement]
    split
    · exact administered.of_subset fun row present => List.mem_append_left _ present
    · exact administered
  | verifyAdmin request =>
    simp only [teamStatement]
    split
    · exact administered
    · split <;> exact administered
  | isMember other userPubkey role =>
    simp only [teamStatement]
    split <;> exact administered
  | findOrCreate other userPubkey role =>
    refine administered.of_subset fun row present => ?_
    show row ∈ (tables.findOrCreate tenantId userPubkey).teamUsers
    rw [TeamTables.findOrCreate_teamUsers]
    exact present
  | addMember other userPubkey role =>
    simp only [teamStatement]
    split
    · exact administered
    · rename_i row added inserted
      refine administered.of_subset fun old present => ?_
      rw [TeamTables.addMember_eq_ok inserted]
      exact List.mem_append_left _ present
  | countOtherAdmins other userPubkey =>
    simp only [teamStatement]
    split <;> exact administered
  | removeMember other userPubkey =>
    by_cases same : other = teamId
    · subst same
      exact (TeamTables.removeMember_administered_iff userPubkey).mpr (leaves rfl)
    · exact administered.removeMember same userPubkey
  | deleteTeam other => exact administered.deleteTeam keeps tenantId

theorem advanceTeam_tables (state : TeamState) (call : TeamCall) :
    (advanceTeam crypto allowedPubkeys state call).1.tables =
      (teamStatement crypto allowedPubkeys state.tables call.tenantId call.auth call.stage).1 := by
  unfold advanceTeam
  split
  · rename_i tables stage computed
    rw [computed]
  · rename_i tables answer computed
    rw [computed]

theorem poolStep_administered {pool next : TeamPool} {action : Action TeamCall Empty}
    (administered : pool.shared.tables.Administered teamId)
    (leaves : LeavesTeamAdmin teamId pool action)
    (stepped : poolStep (teamSystem crypto allowedPubkeys) pool action = some next) :
    next.shared.tables.Administered teamId := by
  cases action with
  | start call =>
    simp only [poolStep] at stepped
    split at stepped
    · cases stepped
      exact administered
    · cases stepped
  | step index =>
    obtain ⟨call, present, rfl⟩ := Option.map_eq_some_iff.mp stepped
    obtain ⟨keeps, leavesAdmin⟩ := leaves call present
    show (advanceTeam crypto allowedPubkeys pool.shared call).1.tables.Administered teamId
    rw [advanceTeam_tables]
    exact teamStatement_administered administered keeps leavesAdmin
  | environment event => cases event

/-- A team created with one administrator has one until it is deleted, when no deletion of a member
takes the last. -/
theorem team_administered (tables : TeamTables) (tenantId : Int)
    (name adminPubkey config : String) {actions : List (Action TeamCall Empty)} {pool : TeamPool}
    (leaves : Transition.Meets (poolStep (teamSystem crypto allowedPubkeys))
      (LeavesTeamAdmin (tables.createWithAdmin tenantId name adminPubkey config).1)
      (.idle ⟨(tables.createWithAdmin tenantId name adminPubkey config).2, []⟩) actions)
    (ran : Transition.run (poolStep (teamSystem crypto allowedPubkeys))
      (.idle ⟨(tables.createWithAdmin tenantId name adminPubkey config).2, []⟩) actions =
        some pool) :
    pool.shared.tables.Administered
      (tables.createWithAdmin tenantId name adminPubkey config).1 := by
  have preserved : ∀ (pool : TeamPool) action next,
      pool.shared.tables.Administered
        (tables.createWithAdmin tenantId name adminPubkey config).1 →
      LeavesTeamAdmin (tables.createWithAdmin tenantId name adminPubkey config).1 pool action →
      poolStep (teamSystem crypto allowedPubkeys) pool action = some next →
      next.shared.tables.Administered
        (tables.createWithAdmin tenantId name adminPubkey config).1 :=
    fun _ _ _ held here stepped => poolStep_administered held here stepped
  exact Transition.invariant_of_meets _ preserved
    (TeamTables.createWithAdmin_administered tenantId name adminPubkey config) leaves ran

end

/-! ### Two administrators -/

def noTeams : TeamTables where
  database := .empty
  teams := []
  teamUsers := []
  teamsSeq := 1
  policiesSeq := 1
  permissionsSeq := 1

def teamRequest (index : Nat) (request : TeamRequest) : TeamCall where
  tenantId := 1
  auth := ⟨sampleKey index, none⟩
  stage := .verifyAdmin request

def addSecond : List (Action TeamCall Empty) :=
  [.start (teamRequest 0 (.addUser 1 (sampleKey 1) .admin)), .step 0, .step 0, .step 0, .step 0]

def firstTeam : TeamPool :=
  .idle ⟨(noTeams.createWithAdmin 1 "team" (sampleKey 0) "\x7b\x7d").2, []⟩

/-- The second leaves again. -/
theorem team_administered_sample :
    ∃ pool, Transition.run (poolStep (teamSystem sampleCrypto [])) firstTeam
        (addSecond ++ [.start (teamRequest 1 (.removeUser 1 (sampleKey 1))), .step 0, .step 0,
          .step 0]) = some pool ∧
      pool.shared.answers.head? = some (.ok .noContent) ∧
      pool.shared.tables.Administered 1 := by
  have leaves : Transition.Meets (poolStep (teamSystem sampleCrypto [])) (LeavesTeamAdmin 1)
      firstTeam (addSecond ++ [.start (teamRequest 1 (.removeUser 1 (sampleKey 1))), .step 0,
        .step 0, .step 0]) := by
    refine .cons _ trivial rfl (.cons _ ?_ rfl (.cons _ ?_ rfl (.cons _ ?_ rfl (.cons _ ?_ rfl
      (.cons _ trivial rfl (.cons _ ?_ rfl (.cons _ ?_ rfl (.cons _ ?_ rfl trivial))))))))
    all_goals
      rintro call present
      cases present
    · exact ⟨trivial, trivial⟩
    · exact ⟨trivial, trivial⟩
    · exact ⟨trivial, trivial⟩
    · exact ⟨trivial, trivial⟩
    · exact ⟨trivial, trivial⟩
    · exact ⟨trivial, trivial⟩
    · exact ⟨trivial, fun _ => by decide⟩
  exact ⟨_, rfl, rfl, team_administered noTeams 1 "team" (sampleKey 0) "\x7b\x7d" leaves rfl⟩

/-- Two administrators who remove each other at the same time leave the team without any. -/
theorem team_abandoned :
    ∃ pool, Transition.run (poolStep (teamSystem sampleCrypto [])) firstTeam
        (addSecond ++ [.start (teamRequest 0 (.removeUser 1 (sampleKey 1))),
          .start (teamRequest 1 (.removeUser 1 (sampleKey 0))), .step 0, .step 1, .step 0,
          .step 0]) = some pool ∧
      pool.shared.tables.teams = [⟨1, 1, "team"⟩] ∧ ¬pool.shared.tables.Administered 1 := by
  refine ⟨_, rfl, rfl, ?_⟩
  rintro ⟨row, member, -⟩
  cases member

end Divine.Keycast
