/-
This file runs one request to the token endpoint alone, from its first statement to its
answer.
-/

import Divine.Keycast.RefreshGrant
import Divine.Library.Stages

namespace Divine.Keycast

open Fallible Stages Table

/-! ### Schedules -/

/-- The time of each statement of a request, and the message of each that fails. -/
structure Schedule (Stage : Type) where
  clock : Stage → DateTime
  fault : Stage → Option String

def Schedule.steady {Stage : Type} (now : DateTime) : Schedule Stage where
  clock _ := now
  fault _ := none

/-! ### The stages in order -/

def RefreshStage.rank : RefreshStage → Nat
  | findPolicy _ _ _ => 0
  | createToken _ _ _ => 1
  | findKey _ _ => 2
  | getEmail _ => 3
  | findAuthorization _ => 4
  | consume => 5

def TokenStage.rank : TokenStage → Nat
  | revokeAuthorization _ _ _ => 0
  | revokeTokens _ _ _ => 1
  | createRefreshToken _ _ _ => 2
  | createAuthorization _ _ _ => 3
  | resolvePolicy _ _ => 4
  | createKey _ _ _ => 5
  | findKey _ _ => 6
  | getEmail _ | finalize _ _ _ => 7
  | deleteCode _ | checkPubkey _ _ => 8
  | checkEmail _ _ => 9
  | findValid => 10

/-- What a request is answered with. -/
abbrev TokenResult := Except OAuthError TokenResponse

def RefreshOutcome.outcome : RefreshOutcome → Outcome RefreshStage TokenResult
  | next stage => .next stage
  | answer response => .answer (.ok response)
  | fail error => .answer (.error error)

def TokenOutcome.outcome : TokenOutcome → Outcome TokenStage TokenResult
  | next stage => .next stage
  | answer response => .answer (.ok response)
  | fail error => .answer (.error error)

/-! ### The statements of a refresh -/

section

variable {library : OAuthLibrary} {context : TokenContext} {before after : Database}
  {now : DateTime} {stage next : RefreshStage}

theorem RefreshFollows.descends
    (follows : RefreshFollows library context before now stage after next) :
    next.rank < stage.rank := by
  cases follows <;> exact Nat.lt_succ_self _

theorem RefreshOutcome.ofNext_ne_answer {computed : Except OAuthError RefreshStage}
    {response : TokenResponse} : ofNext computed ≠ .answer response := by
  cases computed <;> simp [ofNext]

theorem refreshStatement_answer {response : TokenResponse}
    (answered : refreshStatement library context before now stage = (after, .answer response)) :
    ∃ row bunkerPublicKey accessToken, stage = .findPolicy row bunkerPublicKey accessToken := by
  cases stage with
  | consume =>
    simp only [refreshStatement] at answered
    split at answered
    · cases answered
    · split at answered <;> cases answered
  | findAuthorization record | findKey row email =>
    exact absurd (Prod.mk.inj answered).2 RefreshOutcome.ofNext_ne_answer
  | getEmail row => cases answered
  | createToken row bunkerPublicKey accessToken =>
    simp only [refreshStatement] at answered
    split at answered <;> cases answered
  | findPolicy row bunkerPublicKey accessToken => exact ⟨row, bunkerPublicKey, accessToken, rfl⟩

end

/-! ### The statements of a code grant -/

theorem Follows.descends {library : OAuthLibrary} {context : TokenContext} {before after : Database}
    {now : DateTime} {stage next : TokenStage}
    (follows : Follows library context before now stage after next) : next.rank < stage.rank := by
  cases follows <;> simp only [TokenStage.rank] <;> omega

/-! ### Failing statements -/

section

variable (library : OAuthLibrary) (context : TokenContext) (message : String)

/-- What follows a statement of a refresh that the database does not complete. -/
def RefreshStage.failed : RefreshStage → RefreshOutcome
  | consume =>
    match refreshParam context.request with
    | .error error => .fail error
    | .ok _ => .fail (.ofRepository (.database message))
  | findAuthorization _ => .fail (.invalidGrant
      s!"Authorization not found: {(RepositoryError.database message).display}")
  | getEmail row => .next (.findKey row "")
  | findKey _ _ | createToken _ _ _ => .fail (.ofRepository (.database message))
  | findPolicy row bunkerPublicKey accessToken => .answer
      (refreshResponse library context row bunkerPublicKey accessToken "policy:full")

/-- The error of a code grant whose statement the database does not complete. -/
def TokenStage.failed : TokenStage → OAuthError
  | findValid =>
    match codeParams context.request with
    | .error error => error
    | .ok _ => .ofRepository (.database message)
  | finalize _ _ _ => .database (RepositoryError.database message).display
  | resolvePolicy code _ =>
    match parsePolicyScope code.scope with
    | .error error => error
    | .ok _ => .database (RepositoryError.database message).display
  | _ => .ofRepository (.database message)

end

/-! ### The endpoint -/

section

variable (library : OAuthLibrary) (context : TokenContext)

def refreshProgram (clock : RefreshStage → DateTime) :
    Program Database RefreshStage TokenResult where
  perform database stage :=
    (refreshStatement library context database (clock stage) stage).map id RefreshOutcome.outcome
  rank := RefreshStage.rank
  descends := by
    intro database stage next performed
    cases advanced : refreshStatement library context database (clock stage) stage with
    | mk after outcome =>
      rw [advanced] at performed
      cases outcome with
      | next other =>
        obtain rfl := Outcome.next.inj performed
        exact (refreshStatement_follows advanced).descends
      | answer response => cases performed
      | fail error => cases performed

def codeProgram (clock : TokenStage → DateTime) : Program Database TokenStage TokenResult where
  perform database stage :=
    (tokenStatement library context database (clock stage) stage).map id TokenOutcome.outcome
  rank := TokenStage.rank
  descends := by
    intro database stage next performed
    cases advanced : tokenStatement library context database (clock stage) stage with
    | mk after outcome =>
      rw [advanced] at performed
      cases outcome with
      | next other =>
        obtain rfl := Outcome.next.inj performed
        exact (tokenStatement_follows advanced).descends
      | answer response => cases performed
      | fail error => cases performed

theorem RefreshStage.failed_next {message : String} {stage next : RefreshStage}
    (failed : (stage.failed library context message).outcome = .next next) :
    ∃ row, stage = .getEmail row ∧ next = .findKey row "" := by
  cases stage with
  | getEmail row =>
    obtain rfl := Outcome.next.inj failed
    exact ⟨row, rfl, rfl⟩
  | consume =>
    simp only [RefreshStage.failed] at failed
    split at failed <;> cases failed
  | findAuthorization record | findKey row email | createToken row bunkerPublicKey accessToken
  | findPolicy row bunkerPublicKey accessToken => cases failed

def refreshGrant (schedule : Schedule RefreshStage) : Program Database RefreshStage TokenResult :=
  (refreshProgram library context schedule.clock).withFaults
    (fun stage message => (stage.failed library context message).outcome)
    (fun _ _ _ failed => by
      obtain ⟨row, rfl, rfl⟩ := RefreshStage.failed_next library context failed
      exact Nat.lt_succ_self _)
    schedule.fault

def codeGrant (schedule : Schedule TokenStage) : Program Database TokenStage TokenResult :=
  (codeProgram library context schedule.clock).withFaults
    (fun stage message => .answer (.error (stage.failed context message)))
    (fun _ _ _ failed => by cases failed)
    schedule.fault

def handleRefreshTokenGrant (schedule : Schedule RefreshStage) (database : Database) :
    Database × TokenResult :=
  (refreshGrant library context schedule).run database .consume

def handleAuthorizationCodeGrant (schedule : Schedule TokenStage) (database : Database) :
    Database × TokenResult :=
  (codeGrant library context schedule).run database .findValid

def token (codes : Schedule TokenStage) (refreshes : Schedule RefreshStage) (database : Database) :
    Database × TokenResult :=
  let grantType := context.request.grantType.getD "authorization_code"
  if grantType = "authorization_code" then
    handleAuthorizationCodeGrant library context codes database
  else if grantType = "refresh_token" then
    handleRefreshTokenGrant library context refreshes database
  else (database, .error (.invalidRequest (s!"Invalid grant_type '{grantType}'. " ++
    "Supported: authorization_code, refresh_token.")))

end

/-! ### One stage of a grant -/

section

variable {library : OAuthLibrary} {context : TokenContext} {before after : Database}

section

variable {schedule : Schedule RefreshStage} {stage next : RefreshStage}

theorem refreshGrant_perform_sound (sound : schedule.fault stage = none) :
    (refreshGrant library context schedule).perform before stage =
      (refreshStatement library context before (schedule.clock stage) stage).map id
        RefreshOutcome.outcome := by
  exact Program.withFaults_perform_none sound before

theorem refreshGrant_perform_broken {message : String}
    (broken : schedule.fault stage = some message) :
    (refreshGrant library context schedule).perform before stage =
      (before, (stage.failed library context message).outcome) := by
  exact Program.withFaults_perform_some broken before

theorem RefreshFollows.perform
    (follows : RefreshFollows library context before (schedule.clock stage) stage after next)
    (sound : schedule.fault stage = none) :
    (refreshGrant library context schedule).perform before stage = (after, .next next) := by
  rw [refreshGrant_perform_sound sound, follows.refreshStatement]
  rfl

/-- A refresh goes on after a statement that the handler lets it, or without an email. -/
theorem refreshGrant_next
    (performed : (refreshGrant library context schedule).perform before stage =
      (after, .next next)) :
    (schedule.fault stage = none ∧
      RefreshFollows library context before (schedule.clock stage) stage after next) ∨
    ((schedule.fault stage).isSome = true ∧
      ∃ row, stage = .getEmail row ∧ after = before ∧ next = .findKey row "") := by
  cases broken : schedule.fault stage with
  | none =>
    rw [refreshGrant_perform_sound broken] at performed
    cases advanced : refreshStatement library context before (schedule.clock stage) stage with
    | mk database outcome =>
      rw [advanced] at performed
      obtain ⟨rfl, went⟩ := Prod.mk.inj performed
      cases outcome with
      | next other =>
        obtain rfl := Outcome.next.inj went
        exact .inl ⟨rfl, refreshStatement_follows advanced⟩
      | answer | fail => cases went
  | some message =>
    rw [refreshGrant_perform_broken broken] at performed
    obtain ⟨rfl, went⟩ := Prod.mk.inj performed
    obtain ⟨row, rfl, rfl⟩ := RefreshStage.failed_next library context went
    exact .inr ⟨rfl, row, rfl, rfl, rfl⟩

theorem refreshGrant_error {error : OAuthError}
    (performed : (refreshGrant library context schedule).perform before stage =
      (after, .answer (.error error))) :
    after = before ∧ stage.rank ≠ 0 := by
  cases broken : schedule.fault stage with
  | none =>
    rw [refreshGrant_perform_sound broken] at performed
    cases stage with
    | consume =>
      refine ⟨?_, Nat.succ_ne_zero _⟩
      simp only [refreshStatement] at performed
      split at performed
      · exact (Prod.mk.inj performed).1.symm
      · split at performed
        · cases performed
        · exact (Prod.mk.inj performed).1.symm
    | findAuthorization record | findKey row email =>
      exact ⟨(Prod.mk.inj performed).1.symm, Nat.succ_ne_zero _⟩
    | getEmail row => cases performed
    | createToken row bunkerPublicKey accessToken =>
      refine ⟨?_, Nat.succ_ne_zero _⟩
      simp only [refreshStatement] at performed
      split at performed
      · cases performed
      · exact (Prod.mk.inj performed).1.symm
    | findPolicy row bunkerPublicKey accessToken => cases performed
  | some message =>
    rw [refreshGrant_perform_broken broken] at performed
    obtain ⟨rfl, failed⟩ := Prod.mk.inj performed
    refine ⟨rfl, ?_⟩
    cases stage with
    | findPolicy row bunkerPublicKey accessToken => cases failed
    | consume | findAuthorization record | getEmail row | findKey row email
    | createToken row bunkerPublicKey accessToken => exact Nat.succ_ne_zero _

theorem refreshGrant_ok {response : TokenResponse}
    (performed : (refreshGrant library context schedule).perform before stage =
      (after, .answer (.ok response))) : stage.rank = 0 := by
  cases broken : schedule.fault stage with
  | none =>
    rw [refreshGrant_perform_sound broken] at performed
    cases advanced : refreshStatement library context before (schedule.clock stage) stage with
    | mk database outcome =>
      rw [advanced] at performed
      cases outcome with
      | next other => cases performed
      | answer response =>
        obtain ⟨row, bunkerPublicKey, accessToken, rfl⟩ := refreshStatement_answer advanced
        rfl
      | fail error => cases performed
  | some message =>
    rw [refreshGrant_perform_broken broken] at performed
    cases stage with
    | findPolicy row bunkerPublicKey accessToken => rfl
    | consume =>
      simp only [RefreshStage.failed] at performed
      split at performed <;> cases performed
    | findAuthorization record | getEmail row | findKey row email
    | createToken row bunkerPublicKey accessToken => cases performed

end

section

variable {schedule : Schedule TokenStage} {stage next : TokenStage}

theorem codeGrant_perform_sound (sound : schedule.fault stage = none) :
    (codeGrant library context schedule).perform before stage =
      (tokenStatement library context before (schedule.clock stage) stage).map id
        TokenOutcome.outcome := by
  exact Program.withFaults_perform_none sound before

theorem codeGrant_perform_broken {message : String}
    (broken : schedule.fault stage = some message) :
    (codeGrant library context schedule).perform before stage =
      (before, .answer (.error (stage.failed context message))) := by
  exact Program.withFaults_perform_some broken before

theorem codeGrant_next
    (performed : (codeGrant library context schedule).perform before stage = (after, .next next)) :
    schedule.fault stage = none ∧
      tokenStatement library context before (schedule.clock stage) stage = (after, .next next) := by
  cases broken : schedule.fault stage with
  | none =>
    rw [codeGrant_perform_sound broken] at performed
    cases advanced : tokenStatement library context before (schedule.clock stage) stage with
    | mk database outcome =>
      rw [advanced] at performed
      obtain ⟨rfl, went⟩ := Prod.mk.inj performed
      cases outcome with
      | next other =>
        obtain rfl := Outcome.next.inj went
        exact ⟨rfl, rfl⟩
      | answer | fail => cases went
  | some message =>
    rw [codeGrant_perform_broken broken] at performed
    cases performed

theorem codeGrant_error {error : OAuthError}
    (performed : (codeGrant library context schedule).perform before stage =
      (after, .answer (.error error))) :
    after = before ∨
      tokenStatement library context before (schedule.clock stage) stage =
        (after, .fail error) := by
  cases broken : schedule.fault stage with
  | none =>
    rw [codeGrant_perform_sound broken] at performed
    cases advanced : tokenStatement library context before (schedule.clock stage) stage with
    | mk database outcome =>
      rw [advanced] at performed
      obtain ⟨rfl, went⟩ := Prod.mk.inj performed
      cases outcome with
      | next | answer => cases went
      | fail other =>
        obtain rfl := Except.error.inj (Outcome.answer.inj went)
        exact .inr rfl
  | some message =>
    rw [codeGrant_perform_broken broken] at performed
    exact .inl (Prod.mk.inj performed).1.symm

theorem codeGrant_perform_next (sound : schedule.fault stage = none)
    (advanced : tokenStatement library context before (schedule.clock stage) stage =
      (after, .next next)) :
    (codeGrant library context schedule).perform before stage = (after, .next next) := by
  rw [codeGrant_perform_sound sound, advanced]
  rfl

end

end

end Divine.Keycast
