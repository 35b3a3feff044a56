/-
This file settles what a failed token request leaves behind.
-/

import Divine.Keycast.TokenEndpoint

namespace Divine.Keycast

open Fallible Stages Table

/-! ### What a request presents -/

section

variable (library : OAuthLibrary) (context : TokenContext)

/-- What a request presents can be used as before, whenever that is. -/
structure Usable (before after : Database) : Prop where
  code : ∀ presented, context.request.code = some presented → ∀ time,
    after.findValidCode context.tenantId presented time =
      before.findValidCode context.tenantId presented time
  token : ∀ presented, context.request.refreshToken = some presented → ∀ time,
    selectOne after.refreshTokens
        (Database.consumable (library.crypto.sha256Hex presented) time) =
      selectOne before.refreshTokens
        (Database.consumable (library.crypto.sha256Hex presented) time)

theorem Usable.refl (database : Database) : Usable library context database database :=
  ⟨fun _ _ _ => rfl, fun _ _ _ => rfl⟩

end

/-! ### Refreshes -/

section

variable (library : OAuthLibrary) (context : TokenContext) (schedule : Schedule RefreshStage)
  (database : Database)

/-- The first statement of a refresh finds the token it presents, and does not fail. -/
def TakesToken : Prop :=
  schedule.fault .consume = none ∧
    ∃ presented record, context.request.refreshToken = some presented ∧
      selectOne database.refreshTokens (Database.consumable (library.crypto.sha256Hex presented)
        (schedule.clock .consume)) = some record

variable {library context schedule database} {after : Database} {error : OAuthError}

theorem refreshGrant_inFlight_error {stage : RefreshStage} (inFlight : stage.inFlight = true)
    (failed : (refreshGrant library context schedule).run database stage = (after, .error error)) :
    after = database := by
  have ended : ∀ error, ((refreshGrant library context schedule).run database stage).2 =
        .error error →
      ((refreshGrant library context schedule).run database stage).1 = database := by
    refine @Program.run_invariant _ _ _ (refreshGrant library context schedule) _ _
      (fun shared stage => (stage.inFlight = true ∧ shared = database) ∨ stage.rank = 0)
      (fun after answer => ∀ error, answer = .error error → after = database) ?_ ?_
      (.inl ⟨inFlight, rfl⟩)
    · rintro shared stage after next (⟨inFlight, rfl⟩ | last) performed
      · rcases refreshGrant_next performed with ⟨-, follows⟩ | ⟨-, row, rfl, rfl, rfl⟩
        · cases follows with
          | consumed => cases inFlight
          | authorized | emailRead | keyFound => exact .inl ⟨rfl, rfl⟩
          | created => exact .inr rfl
        · exact .inl ⟨rfl, rfl⟩
      · have lower : next.rank < stage.rank :=
          (refreshGrant library context schedule).descends (congrArg Prod.snd performed)
        omega
    · rintro shared stage after answer (⟨-, rfl⟩ | last) performed error rfl
      · exact (refreshGrant_error performed).1
      · exact absurd last (refreshGrant_error performed).2
  rw [failed] at ended
  exact ended error rfl

theorem handleRefreshTokenGrant_taken (takes : TakesToken library context schedule database)
    (failed : handleRefreshTokenGrant library context schedule database = (after, .error error)) :
    after.oauthAuthorizations = database.oauthAuthorizations ∧
      ¬Usable library context database after := by
  obtain ⟨sound, presented, record, given, found⟩ := takes
  have first : (refreshGrant library context schedule).run database .consume =
      (refreshGrant library context schedule).run (database.afterConsumption
        (library.crypto.sha256Hex presented) (schedule.clock .consume))
        (.findAuthorization (record.consume (schedule.clock .consume))) :=
    Program.run_of_next ((RefreshFollows.consumed given found).perform sound)
  obtain rfl := refreshGrant_inFlight_error rfl (first.symm.trans failed)
  refine ⟨rfl, fun usable => ?_⟩
  have gone := selectOne_update_self (fun row (_ : row ∈ database.refreshTokens) =>
    show Database.consumable (library.crypto.sha256Hex presented) (schedule.clock .consume)
        (row.consume (schedule.clock .consume)) = false by
      simp [Database.consumable, RefreshToken.consume])
  have same := usable.token presented given (schedule.clock .consume)
  rw [found] at same
  cases gone.symm.trans same

theorem handleRefreshTokenGrant_untaken (untaken : ¬TakesToken library context schedule database)
    (failed : handleRefreshTokenGrant library context schedule database = (after, .error error)) :
    after = database := by
  rcases (refreshGrant library context schedule).run_cases database .consume with
    ⟨middle, next, performed, -⟩ | ⟨final, answer, performed, same⟩
  · rcases refreshGrant_next performed with ⟨sound, follows⟩ | ⟨-, row, going, -⟩
    · cases follows with
      | consumed presented found => exact absurd ⟨sound, _, _, presented, found⟩ untaken
    · cases going
  · cases same.symm.trans failed
    exact (refreshGrant_error performed).1

end

/-! ### Code grants -/

section

variable (library : OAuthLibrary) (context : TokenContext) (schedule : Schedule TokenStage)
  (database : Database)

/-- The statements before the code is deleted, with every check that was passed by then. -/
inductive Presented : TokenStage → Prop
  | started : Presented .findValid
  | pendingFound {presented redirectUri email : String} {code : OAuthCode}
      (sound : schedule.fault .findValid = none)
      (params : codeParams context.request = .ok (presented, redirectUri))
      (found : database.findValidCode context.tenantId presented (schedule.clock .findValid) =
        some code)
      (checked : checkCode library context code redirectUri = .ok ())
      (pending : code.pendingEmail = some email) : Presented (.checkEmail code email)
  | emailFree {code : OAuthCode} {email : String} (earlier : Presented (.checkEmail code email))
      (sound : schedule.fault (.checkEmail code email) = none)
      (free : database.findPubkeyByEmail email context.tenantId = none) :
      Presented (.checkPubkey code email)
  | pubkeyFree {code : OAuthCode} {email : String} {pending : PendingRegistration}
      (earlier : Presented (.checkPubkey code email))
      (sound : schedule.fault (.checkPubkey code email) = none)
      (free : database.inTenant code.userPubkey context.tenantId = false)
      (prepared : preparePending library context code email = .ok pending) :
      Presented (.finalize code email pending)
  | found {presented redirectUri : String} {code : OAuthCode}
      (sound : schedule.fault .findValid = none)
      (params : codeParams context.request = .ok (presented, redirectUri))
      (found : database.findValidCode context.tenantId presented (schedule.clock .findValid) =
        some code)
      (checked : checkCode library context code redirectUri = .ok ())
      (registered : code.pendingEmail = none) : Presented (.deleteCode code)

/-- A code grant comes to the statement that deletes its code, which does not fail. -/
inductive TakesCode : Prop
  | deletes {code : OAuthCode}
      (earlier : Presented library context schedule database (.deleteCode code))
      (sound : schedule.fault (.deleteCode code) = none)
  | finalizes {code : OAuthCode} {email : String} {pending : PendingRegistration}
      {finalized : Database}
      (earlier : Presented library context schedule database (.finalize code email pending))
      (sound : schedule.fault (.finalize code email pending) = none)
      (succeeded : database.finalizeOAuthRegistration pending.user pending.key context.tenantId
        (context.request.code.getD "") = .ok finalized)

variable {library context schedule database} {before after : Database} {now : DateTime}
  {error : OAuthError}

/-- The search goes on when a valid code passes its checks: to the emails, or to the code's
deletion. -/
theorem tokenStatement_findValid_next {next : TokenStage} :
    tokenStatement library context before now .findValid = (after, .next next) ↔
      after = before ∧ ∃ presented redirectUri code,
        codeParams context.request = .ok (presented, redirectUri) ∧
        before.findValidCode context.tenantId presented now = some code ∧
        checkCode library context code redirectUri = .ok () ∧
        next = code.pendingEmail.elim (.deleteCode code) fun email => .checkEmail code email := by
  constructor
  · intro advanced
    obtain ⟨rfl, outcome⟩ := Prod.mk.inj advanced
    obtain ⟨⟨presented, redirectUri⟩, params, selected⟩ :=
      bind_eq_ok.mp (TokenOutcome.ofNext_eq_next.mp outcome)
    obtain ⟨code, found, tested⟩ := bind_eq_ok.mp selected
    obtain ⟨_, checked, decided⟩ := bind_eq_ok.mp tested
    refine ⟨rfl, presented, redirectUri, code, params, okOr_eq_ok.mp found, checked, ?_⟩
    cases pending : code.pendingEmail with
    | none | some =>
      simp only [pending] at decided
      exact (pure_eq_ok.mp decided).symm
  · rintro ⟨rfl, presented, redirectUri, code, params, found, checked, rfl⟩
    refine Prod.ext rfl (TokenOutcome.ofNext_eq_next.mpr ?_)
    refine bind_eq_ok.mpr ⟨_, params, bind_eq_ok.mpr ⟨code, okOr_eq_ok.mpr found,
      bind_eq_ok.mpr ⟨(), checked, ?_⟩⟩⟩
    cases pending : code.pendingEmail <;> rfl

theorem tokenStatement_checkEmail_next {code : OAuthCode} {email : String} {next : TokenStage} :
    tokenStatement library context before now (.checkEmail code email) = (after, .next next) ↔
      after = before ∧ before.findPubkeyByEmail email context.tenantId = none ∧
        next = .checkPubkey code email := by
  constructor
  · intro advanced
    obtain ⟨rfl, outcome⟩ := Prod.mk.inj advanced
    obtain ⟨_, free, decided⟩ := bind_eq_ok.mp (TokenOutcome.ofNext_eq_next.mp outcome)
    exact ⟨rfl, Option.isNone_iff_eq_none.mp (require_eq_ok.mp free), (pure_eq_ok.mp decided).symm⟩
  · rintro ⟨rfl, free, rfl⟩
    refine Prod.ext rfl (TokenOutcome.ofNext_eq_next.mpr ?_)
    exact bind_eq_ok.mpr ⟨(), require_eq_ok.mpr (Option.isNone_iff_eq_none.mpr free), rfl⟩

theorem tokenStatement_checkPubkey_next {code : OAuthCode} {email : String} {next : TokenStage} :
    tokenStatement library context before now (.checkPubkey code email) = (after, .next next) ↔
      after = before ∧ before.inTenant code.userPubkey context.tenantId = false ∧
        ∃ pending, preparePending library context code email = .ok pending ∧
          next = .finalize code email pending := by
  constructor
  · intro advanced
    obtain ⟨rfl, outcome⟩ := Prod.mk.inj advanced
    obtain ⟨_, free, rest⟩ := bind_eq_ok.mp (TokenOutcome.ofNext_eq_next.mp outcome)
    obtain ⟨pending, prepared, decided⟩ := bind_eq_ok.mp rest
    have absent := require_eq_ok.mp free
    rw [Bool.not_eq_true'] at absent
    exact ⟨rfl, absent, pending, prepared, (pure_eq_ok.mp decided).symm⟩
  · rintro ⟨rfl, free, pending, prepared, rfl⟩
    refine Prod.ext rfl (TokenOutcome.ofNext_eq_next.mpr ?_)
    have absent : (!after.inTenant code.userPubkey context.tenantId) = true := by rw [free]; rfl
    exact bind_eq_ok.mpr ⟨(), require_eq_ok.mpr absent, bind_eq_ok.mpr ⟨pending, prepared, rfl⟩⟩

variable {stage : TokenStage}

theorem Presented.run (presented : Presented library context schedule database stage) :
    (codeGrant library context schedule).run database .findValid =
      (codeGrant library context schedule).run database stage := by
  induction presented with
  | started => rfl
  | pendingFound sound params found checked pending =>
    refine Program.run_of_next (codeGrant_perform_next sound (tokenStatement_findValid_next.mpr
      ⟨rfl, _, _, _, params, found, checked, ?_⟩))
    rw [pending]
    rfl
  | found sound params found checked registered =>
    refine Program.run_of_next (codeGrant_perform_next sound (tokenStatement_findValid_next.mpr
      ⟨rfl, _, _, _, params, found, checked, ?_⟩))
    rw [registered]
    rfl
  | emailFree _ sound free ih =>
    exact ih.trans (Program.run_of_next (codeGrant_perform_next sound
      (tokenStatement_checkEmail_next.mpr ⟨rfl, free, rfl⟩)))
  | pubkeyFree _ sound free prepared ih =>
    exact ih.trans (Program.run_of_next (codeGrant_perform_next sound
      (tokenStatement_checkPubkey_next.mpr ⟨rfl, free, _, prepared, rfl⟩)))

theorem Presented.found_code (presented : Presented library context schedule database stage)
    (later : stage ≠ .findValid) :
    ∃ presented code, context.request.code = some presented ∧
      database.findValidCode context.tenantId presented (schedule.clock .findValid) =
        some code := by
  induction presented with
  | started => exact absurd rfl later
  | pendingFound _ params found | found _ params found =>
    obtain ⟨named, named_eq, rest⟩ := bind_eq_ok.mp params
    obtain ⟨_, -, paired⟩ := bind_eq_ok.mp rest
    obtain rfl := (Prod.mk.inj (pure_eq_ok.mp paired)).1
    exact ⟨_, _, okOr_eq_ok.mp named_eq, found⟩
  | emailFree _ _ _ ih =>
    exact ih nofun
  | pubkeyFree _ _ _ _ ih =>
    exact ih nofun

theorem tokenStatement_next_authorizations {stage next : TokenStage}
    (advanced : tokenStatement library context before now stage = (after, .next next)) :
    before.oauthAuthorizations ⊆ after.oauthAuthorizations := by
  cases tokenStatement_follows advanced with
  | pendingFound | found | emailFree | pubkeyFree | deleted | emailRead | keyFound | keyBrought
  | resolved | tokensRevoked => exact List.Subset.refl _
  | finalized succeeded =>
    rw [Database.finalizeOAuthRegistration_eq_ok succeeded]
    exact List.Subset.refl _
  | keyCreated inserted =>
    rw [Database.createPersonalKey_eq_ok inserted]
    exact List.Subset.refl _
  | authorized inserted =>
    rw [(Database.insertOAuthAuthorization_eq_ok inserted).2]
    exact List.subset_append_left _ _
  | tokenStored inserted =>
    rw [(Database.createRefreshToken_eq_ok inserted).2]
    exact List.Subset.refl _

/-- A code grant past the deletion of its code fails without a change, and without having revoked
anything. -/
theorem codeGrant_claimed_error (claimed : stage.phase ≠ .presented)
    (failed : (codeGrant library context schedule).run before stage = (after, .error error)) :
    after.oauthCodes = before.oauthCodes ∧
      before.oauthAuthorizations ⊆ after.oauthAuthorizations := by
  have ended : ∀ error, ((codeGrant library context schedule).run before stage).2 =
        .error error →
      ((codeGrant library context schedule).run before stage).1.oauthCodes = before.oauthCodes ∧
        before.oauthAuthorizations ⊆
          ((codeGrant library context schedule).run before stage).1.oauthAuthorizations := by
    refine @Program.run_invariant _ _ _ (codeGrant library context schedule) _ _
      (fun shared stage => stage.phase ≠ .presented ∧ shared.oauthCodes = before.oauthCodes ∧
        before.oauthAuthorizations ⊆ shared.oauthAuthorizations)
      (fun after answer => ∀ error, answer = .error error →
        after.oauthCodes = before.oauthCodes ∧
          before.oauthAuthorizations ⊆ after.oauthAuthorizations)
      ?_ ?_ ⟨claimed, rfl, List.Subset.refl _⟩
    · rintro shared stage after next ⟨claimed, same, kept⟩ performed
      have advanced := (codeGrant_next performed).2
      have more := List.Subset.trans kept (tokenStatement_next_authorizations advanced)
      rcases tokenStatement_next advanced with
        ⟨phase, -, codes⟩ | ⟨presented, -⟩ | ⟨-, authorized, -, codes⟩
      · exact ⟨phase ▸ claimed, codes.trans same, more⟩
      · exact absurd presented claimed
      · refine ⟨?_, codes.trans same, more⟩
        rw [authorized]
        decide
    · rintro shared stage after answer ⟨-, same, kept⟩ performed error rfl
      rcases codeGrant_error performed with rfl | ended
      · exact ⟨same, kept⟩
      · rcases tokenStatement_fail_cases ended with rfl | ⟨keys, rfl⟩
        · exact ⟨same, kept⟩
        · exact ⟨same, kept⟩
  rw [failed] at ended
  exact ended error rfl

section

variable (takes : TakesCode library context schedule database)

include takes

theorem handleAuthorizationCodeGrant_codes
    (failed : handleAuthorizationCodeGrant library context schedule database =
      (after, .error error)) :
    after.oauthCodes = delete database.oauthCodes
        (Database.ofCode context.tenantId (context.request.code.getD "")) ∧
      database.oauthAuthorizations ⊆ after.oauthAuthorizations := by
  unfold handleAuthorizationCodeGrant at failed
  cases takes with
  | @deletes code earlier sound =>
    have deleted : (codeGrant library context schedule).perform database (.deleteCode code) =
        (database.deleteCode context.tenantId (context.request.code.getD ""),
          .next (.getEmail code)) := codeGrant_perform_next sound rfl
    rw [earlier.run, Program.run_of_next deleted] at failed
    exact codeGrant_claimed_error (fun same => by cases same) failed
  | @finalizes code email pending finalized earlier sound succeeded =>
    have went : tokenStatement library context database
        (schedule.clock (.finalize code email pending)) (.finalize code email pending) =
          (finalized, .next (.findKey code email)) := by
      simp only [tokenStatement, succeeded]
    rw [earlier.run, Program.run_of_next (codeGrant_perform_next sound went)] at failed
    obtain rfl := Database.finalizeOAuthRegistration_eq_ok succeeded
    exact codeGrant_claimed_error (fun same => by cases same) failed

theorem TakesCode.found_code :
    ∃ presented code, context.request.code = some presented ∧
      database.findValidCode context.tenantId presented (schedule.clock .findValid) =
        some code := by
  cases takes with
  | deletes earlier => exact earlier.found_code nofun
  | finalizes earlier => exact earlier.found_code nofun

theorem handleAuthorizationCodeGrant_taken
    (failed : handleAuthorizationCodeGrant library context schedule database =
      (after, .error error)) :
    database.oauthAuthorizations ⊆ after.oauthAuthorizations ∧
      ¬Usable library context database after := by
  obtain ⟨codes, kept⟩ := handleAuthorizationCodeGrant_codes takes failed
  refine ⟨kept, fun usable => ?_⟩
  obtain ⟨presented, code, given, found⟩ := takes.found_code
  rw [given, Option.getD_some] at codes
  have gone : after.findValidCode context.tenantId presented (schedule.clock .findValid) =
      none := by
    unfold Database.findValidCode
    rw [codes]
    exact selectOne_delete_none fun row meets => (Bool.and_eq_true_iff.mp meets).1
  have same := usable.code presented given (schedule.clock .findValid)
  rw [gone, found] at same
  cases same

end

theorem Presented.fail (presented : Presented library context schedule database stage)
    (failed : tokenStatement library context before now stage = (after, .fail error)) :
    after = before := by
  cases presented with
  | started | pendingFound | emailFree => exact (Prod.mk.inj failed).1.symm
  | found => cases failed
  | pubkeyFree =>
    simp only [tokenStatement] at failed
    split at failed
    · cases failed
    · exact (Prod.mk.inj failed).1.symm

/-- A code grant that goes on without having taken its code comes to a statement before the
deletion. -/
theorem Presented.next {stage next : TokenStage}
    (untaken : ¬TakesCode library context schedule database)
    (presented : Presented library context schedule database stage)
    (performed : (codeGrant library context schedule).perform database stage =
      (after, .next next)) :
    Presented library context schedule database next ∧ after = database := by
  obtain ⟨sound, advanced⟩ := codeGrant_next performed
  cases presented with
  | started =>
    obtain ⟨rfl, _, _, code, params, found, checked, rfl⟩ :=
      tokenStatement_findValid_next.mp advanced
    refine ⟨?_, rfl⟩
    cases pending : code.pendingEmail with
    | none => exact .found sound params found checked pending
    | some email => exact .pendingFound sound params found checked pending
  | pendingFound searched params found checked pending =>
    obtain ⟨rfl, free, rfl⟩ := tokenStatement_checkEmail_next.mp advanced
    exact ⟨.emailFree (.pendingFound searched params found checked pending) sound free, rfl⟩
  | emailFree earlier checked free =>
    obtain ⟨rfl, unregistered, pending, prepared, rfl⟩ :=
      tokenStatement_checkPubkey_next.mp advanced
    exact ⟨.pubkeyFree (.emailFree earlier checked free) sound unregistered prepared, rfl⟩
  | pubkeyFree earlier checked free prepared =>
    simp only [tokenStatement] at advanced
    split at advanced
    · rename_i finalized succeeded
      exact absurd (.finalizes (.pubkeyFree earlier checked free prepared) sound succeeded) untaken
    · cases advanced
  | found searched params found checked registered =>
    exact absurd (.deletes (.found searched params found checked registered) sound) untaken

theorem handleAuthorizationCodeGrant_untaken
    (untaken : ¬TakesCode library context schedule database)
    (failed : handleAuthorizationCodeGrant library context schedule database =
      (after, .error error)) : after = database := by
  unfold handleAuthorizationCodeGrant at failed
  have ended : ∀ error, ((codeGrant library context schedule).run database .findValid).2 =
        .error error →
      ((codeGrant library context schedule).run database .findValid).1 = database := by
    refine @Program.run_invariant _ _ _ (codeGrant library context schedule) _ _
      (fun shared stage => Presented library context schedule database stage ∧ shared = database)
      (fun after answer => ∀ error, answer = .error error → after = database) ?_ ?_
      ⟨.started, rfl⟩
    · rintro shared stage after next ⟨presented, rfl⟩ performed
      exact presented.next untaken performed
    · rintro shared stage after answer ⟨presented, rfl⟩ performed error rfl
      rcases codeGrant_error performed with rfl | ended
      · rfl
      · exact presented.fail ended
  rw [failed] at ended
  exact ended error rfl

end

/-! ### The endpoint -/

section

variable (library : OAuthLibrary) (context : TokenContext) (codes : Schedule TokenStage)
  (refreshes : Schedule RefreshStage) (database : Database)

/-- The request comes to the statement that consumes its token or deletes its code. -/
inductive Takes : Prop
  | code (grant : context.request.grantType.getD "authorization_code" = "authorization_code")
      (takes : TakesCode library context codes database)
  | token (grant : context.request.grantType.getD "authorization_code" = "refresh_token")
      (takes : TakesToken library context refreshes database)

variable {library context codes refreshes database} {after : Database} {error : OAuthError}

/-- A failed request has revoked nothing, and what it presents stays usable exactly when it failed
before it was taken. -/
theorem failed_request_keeps
    (failed : token library context codes refreshes database = (after, .error error)) :
    database.oauthAuthorizations ⊆ after.oauthAuthorizations ∧
      (Usable library context database after ↔
        ¬Takes library context codes refreshes database) := by
  simp only [token] at failed
  split at failed
  · rename_i grant
    by_cases takes : TakesCode library context codes database
    · obtain ⟨kept, unusable⟩ := handleAuthorizationCodeGrant_taken takes failed
      exact ⟨kept, iff_of_false unusable (not_not_intro (.code grant takes))⟩
    · obtain rfl := handleAuthorizationCodeGrant_untaken takes failed
      refine ⟨List.Subset.refl _, iff_of_true (.refl library context after) ?_⟩
      rintro (⟨-, taken⟩ | ⟨other, -⟩)
      · exact takes taken
      · exact absurd (grant.symm.trans other) (by decide)
  · rename_i other
    split at failed
    · rename_i grant
      by_cases takes : TakesToken library context refreshes database
      · obtain ⟨same, unusable⟩ := handleRefreshTokenGrant_taken takes failed
        refine ⟨?_, iff_of_false unusable (not_not_intro (.token grant takes))⟩
        rw [same]
        exact List.Subset.refl _
      · obtain rfl := handleRefreshTokenGrant_untaken takes failed
        refine ⟨List.Subset.refl _, iff_of_true (.refl library context after) ?_⟩
        rintro (⟨code, -⟩ | ⟨-, taken⟩)
        · exact other code
        · exact takes taken
    · rename_i unknown
      cases failed
      refine ⟨List.Subset.refl _, iff_of_true (.refl library context database) ?_⟩
      rintro (⟨code, -⟩ | ⟨refresh, -⟩)
      · exact other code
      · exact unknown refresh

end

def brokenConsumption : Schedule RefreshStage where
  clock _ := 0
  fault stage := if stage = .consume then some "connection closed" else none

/-- A refresh whose first statement the database does not complete can be tried again. -/
theorem failed_request_keeps_sample :
    ∃ after error, token sampleOAuthLibrary (sampleRefreshCall "old" "new").context (.steady 0)
        brokenConsumption refreshDatabase = (after, .error error) ∧
      refreshDatabase.oauthAuthorizations ⊆ after.oauthAuthorizations ∧
      Usable sampleOAuthLibrary (sampleRefreshCall "old" "new").context refreshDatabase after := by
  have failed : token sampleOAuthLibrary (sampleRefreshCall "old" "new").context (.steady 0)
      brokenConsumption refreshDatabase = (refreshDatabase, .error (.ofRepository
        (.database "connection closed"))) := rfl
  obtain ⟨kept, usable⟩ := failed_request_keeps failed
  refine ⟨_, _, failed, kept, usable.mpr ?_⟩
  rintro (⟨grant, -⟩ | ⟨-, sound, -⟩)
  · exact absurd grant (by decide)
  · cases sound

def longCodeDatabase : Database :=
  { codeDatabase with
    oauthCodes := [{ sampleCode with code := "0123456789abcdefghijklmnopqrstuv" }] }

/-- A request for the code while the pool has no secret. -/
def exhaustedRequest : TokenContext :=
  let context := (sampleTokenCall "drawn").context
  { context with
    request := { context.request with code := some "0123456789abcdefghijklmnopqrstuv" }
    draws := { context.draws with secretPair := none } }

/-- The request that finds the pool of secrets empty fails, and its code is gone. -/
theorem exhausted_request_loses_code :
    ∃ after, token sampleOAuthLibrary exhaustedRequest (.steady 0) (.steady 0) longCodeDatabase =
        (after, .error (.serverError "Secret pool exhausted")) ∧
      ¬Usable sampleOAuthLibrary exhaustedRequest longCodeDatabase after := by
  refine ⟨_, rfl, fun usable => ?_⟩
  have same := usable.code "0123456789abcdefghijklmnopqrstuv" rfl 0
  exact absurd same (by decide)

end Divine.Keycast
