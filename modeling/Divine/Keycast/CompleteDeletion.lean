/-
This file settles when the deletion of an account is complete.
-/

import Divine.Keycast.AccountDeletion

namespace Divine.Keycast

open Table

/-! ### Every point of a deletion -/

def DeletionStage.result : DeletionStage → Option DeleteAccountResult
  | leaveTeams result | clearCodes result | deleteUser result | commit result
  | answered (.ok result) => some result
  | countTeams | countAuthorizations _ | selectBunkerPubkeys _ _ | answered (.error _) => none

def DeletionStage.deleted : DeletionStage → Bool
  | commit _ | answered (.ok _) => true
  | _ => false

/-- What the transaction sees of what the others have committed. -/
def DeletionStage.seen (pubkey : String) (tenantId : Int) (committed : AccountTables) :
    DeletionStage → AccountTables
  | clearCodes _ => committed.leaveTeams pubkey
  | deleteUser _ | answered (.error _) =>
      (committed.leaveTeams pubkey).clearCodes pubkey tenantId
  | commit _ | answered (.ok _) => committed.afterDeletion pubkey tenantId
  | countTeams | countAuthorizations _ | selectBunkerPubkeys _ _ | leaveTeams _ => committed

def DeletionState.answered (state : DeletionState) : Prop :=
  ∃ answer, state.stage = .answered answer

section

variable {pubkey : String} {tenantId : Int} {tables : AccountTables} {state next : DeletionState}
  {action : DeletionAction} {params : Database.CreateOAuthAuthorizationParams}

variable (pubkey tenantId tables) in
/-- The others add authorizations and nothing else, what the transaction has reported is stored, and
it passed the user without claim tokens. -/
structure Underway (state : DeletionState) : Prop where
  committed : ∃ rows seq, state.committed = tables.withAuthorizations rows seq
  view : state.view = state.stage.seen pubkey tenantId state.committed
  read : ∀ result, state.stage.result = some result →
    result.bunkerPubkeys ⊆ state.committed.bunkerKeys pubkey
  passed : state.stage.deleted = true → tables.Unclaimable pubkey
  refused : ∀ error, state.stage = .answered (.error error) → ¬tables.Unclaimable pubkey

theorem Underway.start : Underway pubkey tenantId tables (.start tables) where
  committed := ⟨[], tables.database.oauthAuthorizationsSeq, by
    simp [DeletionState.start, AccountTables.withAuthorizations]⟩
  view := rfl
  read := nofun
  passed := nofun
  refused := nofun

section

variable (underway : Underway pubkey tenantId tables state)

include underway

theorem Underway.users :
    state.committed.database.users = tables.database.users := by
  obtain ⟨rows, seq, same⟩ := underway.committed
  rw [same]
  rfl

theorem Underway.unclaimable :
    state.committed.Unclaimable pubkey ↔ tables.Unclaimable pubkey := by
  obtain ⟨rows, seq, same⟩ := underway.committed
  rw [same]
  rfl

theorem Underway.account (account : tables.hasAccount pubkey tenantId = true) :
    state.committed.hasAccount pubkey tenantId = true := by
  unfold AccountTables.hasAccount
  rw [underway.users]
  exact account

theorem Underway.elsewhere (keyed : Keyed User.pubkey tables.database.users)
    (account : tables.hasAccount pubkey tenantId = true) {view : AccountTables}
    (inserted : state.view.insertAuthorization params = some view)
    (deleted : state.stage.deleted = true) : params.userPubkey ≠ pubkey := by
  have seen : state.view = state.committed.afterDeletion pubkey tenantId := by
    rw [underway.view]
    cases stage : state.stage with
    | commit result => rfl
    | answered answer =>
      cases answer with
      | ok result => rfl
      | error error => rw [stage] at deleted; cases deleted
    | _ => rw [stage] at deleted; cases deleted
  obtain ⟨⟨user, stored, own⟩, -⟩ := AccountTables.insertAuthorization_eq_some inserted
  rw [seen] at stored
  rw [← own]
  exact (AccountTables.afterDeletion_forgets (underway.users ▸ keyed) (underway.account account)
    (underway.unclaimable.mpr (underway.passed deleted))).users user stored

end

theorem seen_create {stage : DeletionStage} {committed : AccountTables}
    (elsewhere : stage.deleted = true → params.userPubkey ≠ pubkey) :
    stage.seen pubkey tenantId (committed.create params) =
      (stage.seen pubkey tenantId committed).create params := by
  cases stage with
  | commit result => exact AccountTables.afterDeletion_create (elsewhere rfl)
  | answered answer =>
    cases answer with
    | ok result => exact AccountTables.afterDeletion_create (elsewhere rfl)
    | error error => rfl
  | _ => rfl

theorem deletionStep_create (underway : Underway pubkey tenantId tables state)
    (keyed : Keyed User.pubkey tables.database.users)
    (account : tables.hasAccount pubkey tenantId = true)
    (stepped : deletionStep pubkey tenantId state (.createAuthorization params) = some next) :
    (state.stage.deleted = true → params.userPubkey ≠ pubkey) ∧
      next = ⟨state.committed.create params, state.view.create params, state.stage⟩ := by
  obtain ⟨committed, insertedCommitted, rest⟩ := Option.bind_eq_some_iff.mp stepped
  obtain ⟨view, insertedView, rest⟩ := Option.bind_eq_some_iff.mp rest
  cases rest
  obtain ⟨-, rfl⟩ := AccountTables.insertAuthorization_eq_some insertedCommitted
  obtain ⟨-, created⟩ := AccountTables.insertAuthorization_eq_some insertedView
  exact ⟨underway.elsewhere keyed account insertedView, by rw [created]⟩

theorem Underway.create (underway : Underway pubkey tenantId tables state)
    (elsewhere : state.stage.deleted = true → params.userPubkey ≠ pubkey) :
    Underway pubkey tenantId tables
      ⟨state.committed.create params, state.view.create params, state.stage⟩ where
  committed := by
    obtain ⟨rows, seq, same⟩ := underway.committed
    refine ⟨rows ++ [params.row seq], seq + 1, ?_⟩
    simp [same, AccountTables.create, AccountTables.withAuthorizations,
      Database.createOAuthAuthorization]
  view := by
    rw [seen_create elsewhere, underway.view]
  read := fun result same key present =>
    AccountTables.mem_bunkerKeys_create.mpr (.inl (underway.read result same present))
  passed := underway.passed
  refused := underway.refused

theorem deletionStatement_cases {view after : AccountTables} {stage later : DeletionStage}
    (stepped : deletionStatement pubkey tenantId view stage = some (after, later)) :
    (∃ error, later = .answered (.error error)) ∨ later.result = stage.result ∨
      ∃ result, later = .leaveTeams result ∧ after = view ∧
        (∃ teams authorizations, stage = .selectBunkerPubkeys teams authorizations) ∧
        result.bunkerPubkeys = view.bunkerKeys pubkey := by
  cases stage with
  | selectBunkerPubkeys teams authorizations =>
    cases stepped
    exact .inr (.inr ⟨_, rfl, rfl, ⟨teams, authorizations, rfl⟩, rfl⟩)
  | deleteUser result =>
    simp only [deletionStatement] at stepped
    split at stepped
    · obtain ⟨-, rfl⟩ := Prod.mk.inj (Option.some.inj stepped)
      exact .inl ⟨_, rfl⟩
    · obtain ⟨-, rfl⟩ := Prod.mk.inj (Option.some.inj stepped)
      exact .inl ⟨_, rfl⟩
    · obtain ⟨-, rfl⟩ := Prod.mk.inj (Option.some.inj stepped)
      exact .inr (.inl rfl)
  | answered answer => cases stepped
  | _ =>
    obtain ⟨-, rfl⟩ := Prod.mk.inj (Option.some.inj stepped)
    exact .inr (.inl rfl)

theorem Underway.statement (underway : Underway pubkey tenantId tables state)
    (account : tables.hasAccount pubkey tenantId = true) {view : AccountTables}
    {stage : DeletionStage}
    (stepped : deletionStatement pubkey tenantId state.view state.stage = some (view, stage)) :
    Underway pubkey tenantId tables ⟨state.committed, view, stage⟩ := by
  have read : ∀ result, stage.result = some result →
      result.bunkerPubkeys ⊆ state.committed.bunkerKeys pubkey := by
    intro result isRead
    rcases deletionStatement_cases stepped with ⟨error, rfl⟩ | same |
      ⟨other, rfl, -, ⟨teams, authorizations, selecting⟩, reads⟩
    · cases isRead
    · exact underway.read result (same ▸ isRead)
    · cases isRead
      rw [reads, underway.view, selecting]
      exact List.Subset.refl _
  obtain ⟨committed, seen, stage⟩ := state
  have isSeen := underway.view
  dsimp only at isSeen stepped read
  subst isSeen
  cases stage with
  | deleteUser result =>
    have unclaimable := underway.unclaimable
    simp only [deletionStatement, DeletionStage.seen] at stepped
    by_cases claimed : committed.Unclaimable pubkey
    · rw [AccountTables.deleteUser_of_unclaimable (underway.account account) claimed] at stepped
      have present := AccountTables.affected_account (underway.account account)
      split at stepped
      · rename_i failed
        cases failed
      · rename_i none_deleted
        exact absurd (congrArg Prod.fst (Except.ok.inj none_deleted)) present
      · rename_i count without deleted
        cases stepped
        obtain rfl := congrArg Prod.snd (Except.ok.inj deleted)
        exact ⟨underway.committed, rfl, read, fun _ => unclaimable.mp claimed,
          nofun⟩
    · rw [AccountTables.deleteUser_of_claimable (underway.account account) claimed] at stepped
      cases stepped
      exact ⟨underway.committed, rfl, read, nofun,
        fun _ _ => claimed ∘ unclaimable.mpr⟩
  | commit result =>
    cases stepped
    exact ⟨underway.committed, rfl, read, fun _ => underway.passed rfl, nofun⟩
  | answered answer => cases stepped
  | _ =>
    cases stepped
    exact ⟨underway.committed, rfl, read, nofun,
      nofun⟩

theorem deletionStep_statement
    (stepped : deletionStep pubkey tenantId state .statement = some next) :
    ∃ view stage, deletionStatement pubkey tenantId state.view state.stage = some (view, stage) ∧
      next = ⟨state.committed, view, stage⟩ := by
  obtain ⟨⟨view, stage⟩, statement, rfl⟩ := Option.map_eq_some_iff.mp stepped
  exact ⟨view, stage, statement, rfl⟩

theorem Underway.step (keyed : Keyed User.pubkey tables.database.users)
    (account : tables.hasAccount pubkey tenantId = true) (state : DeletionState)
    (action : DeletionAction) (next : DeletionState)
    (underway : Underway pubkey tenantId tables state)
    (stepped : deletionStep pubkey tenantId state action = some next) :
    Underway pubkey tenantId tables next := by
  cases action with
  | statement =>
    obtain ⟨view, stage, statement, rfl⟩ := deletionStep_statement stepped
    exact underway.statement account statement
  | createAuthorization params =>
    obtain ⟨elsewhere, rfl⟩ := deletionStep_create underway keyed account stepped
    exact underway.create elsewhere

/-! ### Every run answers -/

def DeletionStage.remaining : DeletionStage → Nat
  | countTeams => 7
  | countAuthorizations _ => 6
  | selectBunkerPubkeys _ _ => 5
  | leaveTeams _ => 4
  | clearCodes _ => 3
  | deleteUser _ => 2
  | commit _ => 1
  | answered _ => 0

/-! ### Complete deletions -/

variable (pubkey) in
/-- The account is deleted, everything of it is gone, what is of others is as it was, and every
deleted bunker key is reported. -/
structure Deleted (state : DeletionState) : Prop where
  succeeded : ∃ result, state.stage = .answered (.ok result)
  forgets : state.tables.Forgets pubkey
  others : state.tables.others pubkey = state.committed.others pubkey
  administered : ∀ teamId, state.committed.Administered teamId →
    state.tables.Administered teamId
  reported : ∀ result, state.stage = .answered (.ok result) →
    ∀ row ∈ state.committed.database.oauthAuthorizations,
      row ∉ state.tables.database.oauthAuthorizations →
        row.bunkerPublicKey ∈ result.bunkerPubkeys

/-- Every team that the user administers has another administrator. -/
def AccountTables.SharesTeams (tables : AccountTables) (pubkey : String) : Prop :=
  ∀ row ∈ tables.teamUsers, row.userPubkey = pubkey → row.role = "admin" →
    tables.countOtherAdmins row.teamId pubkey ≠ 0

/-- The bunker keys have been read, and the user has not been deleted. -/
def DeletionStage.pending : DeletionStage → Bool
  | leaveTeams _ | clearCodes _ | deleteUser _ => true
  | _ => false

variable (pubkey) in
/-- No authorization of the user with a new bunker key is committed after the keys are read. -/
def GrantsReported (state : DeletionState) : DeletionAction → Prop
  | .statement => True
  | .createAuthorization params => state.stage.pending = true → params.userPubkey = pubkey →
      params.bunkerPublicKey ∈ state.committed.bunkerKeys pubkey

theorem sharesTeams_iff : tables.SharesTeams pubkey ↔
    ∀ teamId, tables.Administered teamId → tables.countOtherAdmins teamId pubkey ≠ 0 := by
  constructor
  · rintro shares teamId ⟨row, member, rfl, admin⟩
    by_cases own : row.userPubkey = pubkey
    · exact shares row member own admin
    · refine Nat.pos_iff_ne_zero.mp (List.countP_pos_iff.mpr ⟨row, member, ?_⟩)
      simp [TeamTables.ofAdmin, own, admin]
  · intro shares row member _ admin
    exact shares row.teamId ⟨row, member, rfl, admin⟩

/-- All bunker keys of the user are in the result that was read. -/
def Reported (pubkey : String) (state : DeletionState) : Prop :=
  ∀ result, state.stage.result = some result →
    state.committed.bunkerKeys pubkey ⊆ result.bunkerPubkeys

theorem Reported.step (keyed : Keyed User.pubkey tables.database.users)
    (account : tables.hasAccount pubkey tenantId = true) (state : DeletionState)
    (action : DeletionAction) (next : DeletionState)
    (held : Underway pubkey tenantId tables state ∧ Reported pubkey state)
    (reports : GrantsReported pubkey state action)
    (stepped : deletionStep pubkey tenantId state action = some next) :
    Underway pubkey tenantId tables next ∧ Reported pubkey next := by
  obtain ⟨underway, reported⟩ := held
  refine ⟨underway.step keyed account state action next stepped, fun result isRead => ?_⟩
  cases action with
  | statement =>
    obtain ⟨view, stage, statement, rfl⟩ := deletionStep_statement stepped
    rcases deletionStatement_cases statement with ⟨error, rfl⟩ | same |
      ⟨other, rfl, -, ⟨teams, authorizations, selecting⟩, reads⟩
    · cases isRead
    · exact reported result (same ▸ isRead)
    · cases isRead
      rw [reads, underway.view, selecting]
      exact List.Subset.refl _
  | createAuthorization params =>
    obtain ⟨elsewhere, rfl⟩ := deletionStep_create underway keyed account stepped
    intro key present
    rcases AccountTables.mem_bunkerKeys_create.mp present with before | ⟨own, rfl⟩
    · exact reported result isRead before
    · -- the user is still stored, so the deletion is between the reading and the deletion
      refine reported result isRead (reports ?_ own)
      obtain ⟨committed, view, stage⟩ := state
      cases stage with
      | leaveTeams _ | clearCodes _ | deleteUser _ => rfl
      | commit _ => exact absurd own (elsewhere rfl)
      | answered answer =>
        cases answer with
        | ok _ => exact absurd own (elsewhere rfl)
        | error _ => cases isRead
      | countTeams | countAuthorizations _ | selectBunkerPubkeys _ _ => cases isRead

/-- The deletion has failed, or a bunker key of the user is not in the result that was read. -/
def Unreported (pubkey : String) (state : DeletionState) : Prop :=
  (∃ error, state.stage = .answered (.error error)) ∨
    ∃ result, state.stage.result = some result ∧
      ¬state.committed.bunkerKeys pubkey ⊆ result.bunkerPubkeys

theorem Unreported.step (keyed : Keyed User.pubkey tables.database.users)
    (account : tables.hasAccount pubkey tenantId = true) (state : DeletionState)
    (action : DeletionAction) (next : DeletionState)
    (underway : Underway pubkey tenantId tables state) (unreported : Unreported pubkey state)
    (stepped : deletionStep pubkey tenantId state action = some next) :
    Unreported pubkey next := by
  cases action with
  | statement =>
    obtain ⟨view, stage, statement, rfl⟩ := deletionStep_statement stepped
    rcases unreported with ⟨error, failed⟩ | ⟨result, isRead, misses⟩
    · rw [failed] at statement
      cases statement
    · rcases deletionStatement_cases statement with ⟨error, rfl⟩ | same |
        ⟨other, rfl, -, ⟨teams, authorizations, selecting⟩, -⟩
      · exact .inl ⟨error, rfl⟩
      · exact .inr ⟨result, same.trans isRead, misses⟩
      · rw [selecting] at isRead
        cases isRead
  | createAuthorization params =>
    obtain ⟨-, rfl⟩ := deletionStep_create underway keyed account stepped
    refine unreported.imp_right fun ⟨result, isRead, misses⟩ => ⟨result, isRead, fun within => ?_⟩
    exact misses fun key present =>
      within (AccountTables.mem_bunkerKeys_create.mpr (.inl present))

theorem unreported_of_late (keyed : Keyed User.pubkey tables.database.users)
    (account : tables.hasAccount pubkey tenantId = true) (state : DeletionState)
    (action : DeletionAction) (next : DeletionState)
    (underway : Underway pubkey tenantId tables state)
    (late : ¬GrantsReported pubkey state action)
    (stepped : deletionStep pubkey tenantId state action = some next) :
    Unreported pubkey next := by
  cases action with
  | statement => exact absurd trivial late
  | createAuthorization params =>
    obtain ⟨-, rfl⟩ := deletionStep_create underway keyed account stepped
    simp only [GrantsReported, Classical.not_imp] at late
    obtain ⟨pending, own, new⟩ := late
    obtain ⟨result, isRead⟩ : ∃ result, state.stage.result = some result := by
      cases stage : state.stage with
      | leaveTeams result | clearCodes result | deleteUser result => exact ⟨result, rfl⟩
      | _ => rw [stage] at pending; cases pending
    refine .inr ⟨result, isRead, fun within => new (underway.read result isRead (within ?_))⟩
    exact AccountTables.mem_bunkerKeys_create.mpr (.inr ⟨own, rfl⟩)

theorem Underway.tables_eq (underway : Underway pubkey tenantId tables state)
    {result : DeleteAccountResult} (succeeded : state.stage = .answered (.ok result)) :
    state.tables = state.committed.afterDeletion pubkey tenantId := by
  have seen := underway.view
  rw [succeeded] at seen
  rw [DeletionState.tables, succeeded]
  exact seen

theorem Underway.administered (underway : Underway pubkey tenantId tables state) :
    state.committed.SharesTeams pubkey ↔ tables.SharesTeams pubkey := by
  obtain ⟨rows, seq, same⟩ := underway.committed
  rw [same]
  rfl

/-- A deletion that has answered is complete exactly when no claim token was stored, each team has
another administrator, and no authorization was committed after the keys were read. -/
theorem account_deleted_iff {final : DeletionState} {actions : List DeletionAction}
    (keyed : Keyed User.pubkey tables.database.users)
    (account : tables.hasAccount pubkey tenantId = true)
    (ran : Transition.run (deletionStep pubkey tenantId) (.start tables) actions = some final)
    (answered : final.answered) :
    (∃ rows seq, final.committed = tables.withAuthorizations rows seq) ∧
    (∀ error, final.stage = .answered (.error error) → final.tables = final.committed) ∧
    (Deleted pubkey final ↔ tables.Unclaimable pubkey ∧ tables.SharesTeams pubkey ∧
      Transition.Meets (deletionStep pubkey tenantId) (GrantsReported pubkey) (.start tables)
        actions) := by
  have underway : Underway pubkey tenantId tables final :=
    Transition.invariant_of_run _ (Underway.step keyed account) .start ran
  have keyedFinal : Keyed User.pubkey final.committed.database.users := underway.users ▸ keyed
  refine ⟨underway.committed, fun error failed => ?_, ?_, ?_⟩
  · rw [DeletionState.tables, failed]
  · intro deleted
    obtain ⟨result, succeeded⟩ := deleted.succeeded
    refine ⟨underway.passed (by rw [succeeded]; rfl), ?_, ?_⟩
    · rw [← underway.administered, sharesTeams_iff]
      intro teamId administered
      have kept := deleted.administered teamId administered
      rw [underway.tables_eq succeeded] at kept
      exact AccountTables.afterDeletion_administered_iff.mp kept
    · refine Transition.meets_of_run _ (Underway.step keyed account)
        (unreported_of_late keyed account) (Unreported.step keyed account) .start ran ?_
      rintro (⟨error, failed⟩ | ⟨other, isRead, misses⟩)
      · rw [succeeded] at failed
        cases failed
      · rw [succeeded] at isRead
        cases isRead
        refine misses fun key present => ?_
        obtain ⟨row, stored, own, rfl⟩ := AccountTables.mem_bunkerKeys.mp present
        exact deleted.reported _ succeeded row stored fun left =>
          deleted.forgets.oauthAuthorizations row left own
  · rintro ⟨unclaimable, shares, reports⟩
    obtain ⟨answer, stage⟩ := answered
    cases answer with
    | error error => exact absurd unclaimable (underway.refused error stage)
    | ok result =>
      have held : Underway pubkey tenantId tables final ∧ Reported pubkey final :=
        Transition.invariant_of_meets _ (Reported.step keyed account)
          ⟨.start, nofun⟩ reports ran
      have tables_eq := underway.tables_eq stage
      refine ⟨⟨result, stage⟩, ?_, ?_, ?_, ?_⟩
      · rw [tables_eq]
        exact AccountTables.afterDeletion_forgets keyedFinal (underway.account account)
          (underway.unclaimable.mpr unclaimable)
      · rw [tables_eq]
        exact AccountTables.afterDeletion_others keyedFinal (underway.account account)
      · intro teamId administered
        rw [tables_eq, AccountTables.afterDeletion_administered_iff]
        exact sharesTeams_iff.mp (underway.administered.mpr shares) teamId administered
      · intro other same row stored gone
        rw [stage] at same
        obtain rfl := Except.ok.inj (DeletionStage.answered.inj same)
        refine held.2 result (by rw [stage]; rfl) (AccountTables.mem_bunkerKeys.mpr
          ⟨row, stored, ?_, rfl⟩)
        by_contra other
        rw [tables_eq, AccountTables.afterDeletion_eq keyedFinal (underway.account account)] at gone
        exact gone (mem_delete.mpr ⟨stored, decide_eq_false other⟩)

end

/-! ### An administrator who leaves -/

instance decidableUnclaimable (tables : AccountTables) (pubkey : String) :
    Decidable (tables.Unclaimable pubkey) :=
  inferInstanceAs (Decidable (∀ row ∈ tables.claimTokens, row.userPubkey ≠ pubkey))

instance decidableSharesTeams (tables : AccountTables) (pubkey : String) :
    Decidable (tables.SharesTeams pubkey) :=
  inferInstanceAs (Decidable (∀ row ∈ tables.teamUsers, row.userPubkey = pubkey →
    row.role = "admin" → tables.countOtherAdmins row.teamId pubkey ≠ 0))

instance decidableGrantsReported (pubkey : String) (state : DeletionState)
    (action : DeletionAction) :
    Decidable (GrantsReported pubkey state action) := by
  cases action with
  | statement => exact instDecidableTrue
  | createAuthorization params =>
    exact inferInstanceAs (Decidable (state.stage.pending = true → params.userPubkey = pubkey →
      params.bunkerPublicKey ∈ state.committed.bunkerKeys pubkey))

def sampleAccounts : AccountTables where
  database := { sampleDatabase with refreshTokens := [⟨1, "sha256:old", 1, 1, 0, 1000, none⟩] }
  teams := [⟨1, 1, "team"⟩]
  teamUsers := [⟨sampleKey 0, 1, "admin"⟩, ⟨sampleKey 1, 1, "admin"⟩]
  teamsSeq := 2
  policiesSeq := 1
  permissionsSeq := 1
  claimTokens := [⟨"claim", sampleKey 1, 1000, none⟩]
  emailVerificationTokens := [⟨"1", sampleKey 0, "sha256:verify", 1000⟩]
  passwordResetTokens := [⟨"1", sampleKey 0, "sha256:reset", 1000, false⟩]
  userProfiles := [⟨sampleKey 0, "\x7b\x7d"⟩]

def sampleGrant : Database.CreateOAuthAuthorizationParams where
  tenantId := 1
  userPubkey := sampleKey 0
  redirectOrigin := "https://other.example"
  clientId := "Other"
  bunkerPublicKey := sampleKey 3
  secretHash := "$2b$other"
  policyId := none
  clientPubkey := none
  authorizationHandle := some "handle"
  handleExpiresAt := 1000

/-- The statements before the deletion of the user, with an authorization at a point of them. -/
def deletionAround (before : Nat) : List DeletionAction :=
  List.replicate before .statement ++ .createAuthorization sampleGrant ::
    List.replicate (7 - before) .statement

theorem account_deleted_sample :
    ∃ final, Transition.run (deletionStep (sampleKey 0) 1) (.start sampleAccounts)
        (deletionAround 1) = some final ∧
      final.committed.database.oauthAuthorizations.length = 2 ∧ Deleted (sampleKey 0) final := by
  obtain ⟨final, ran, answered, created⟩ := @Transition.exists_of_any _
    (Transition.run (deletionStep (sampleKey 0) 1) (.start sampleAccounts) (deletionAround 1))
    (fun final => final.stage.remaining = 0 ∧
      final.committed.database.oauthAuthorizations.length = 2) _ (by decide +kernel)
  have stage : final.answered := by
    obtain ⟨committed, view, stage⟩ := final
    cases stage with
    | answered answer => exact ⟨answer, rfl⟩
    | _ => cases answered
  have keyed : Keyed User.pubkey sampleAccounts.database.users :=
    show (sampleAccounts.database.users.map User.pubkey).Nodup by decide +kernel
  exact ⟨final, ran, created, (account_deleted_iff keyed (by decide +kernel) ran
    stage).2.2.mpr ⟨by decide +kernel, by decide +kernel, by decide +kernel⟩⟩

/-- A claim token refuses the deletion, a team of one administrator is left without one, and an
authorization that is committed late is deleted unreported. -/
theorem account_not_deleted :
    (∃ final, Transition.run (deletionStep (sampleKey 0) 1)
        (.start { sampleAccounts with
          claimTokens := [⟨"claim", sampleKey 0, 1000, some 500⟩] })
        (List.replicate 6 .statement) = some final ∧
      final.stage = .answered (.error (.integrity (referencedMessage "users"
        "account_claim_tokens_user_pubkey_fkey" "account_claim_tokens")))) ∧
    (∃ final, Transition.run (deletionStep (sampleKey 0) 1)
        (.start { sampleAccounts with
          teamUsers := [⟨sampleKey 0, 1, "admin"⟩, ⟨sampleKey 1, 1, "member"⟩] })
        (List.replicate 7 .statement) = some final ∧
      final.tables.teams = [⟨1, 1, "team"⟩] ∧
      final.tables.teamUsers = [⟨sampleKey 1, 1, "member"⟩]) ∧
    (∃ final, Transition.run (deletionStep (sampleKey 0) 1) (.start sampleAccounts)
        (deletionAround 3) = some final ∧
      final.tables.database.oauthAuthorizations = [] ∧
      final.stage = .answered (.ok ⟨1, 1, [sampleKey 2]⟩)) :=
  ⟨@Transition.exists_of_any _ _ (fun final : DeletionState => final.stage = _) _
      (by decide +kernel),
    @Transition.exists_of_any _ _ (fun final : DeletionState => final.tables.teams = _ ∧
      final.tables.teamUsers = _) _ (by decide +kernel),
    @Transition.exists_of_any _ _ (fun final : DeletionState =>
      final.tables.database.oauthAuthorizations = [] ∧ final.stage = _) _ (by decide +kernel)⟩

end Divine.Keycast
