/-
This file settles which authorizations a refresh renews.
-/

import Divine.Keycast.TokenEndpoint

namespace Divine.Keycast

open Fallible Stages Table

/-! ### Active authorizations -/

namespace Database

variable (database : Database)

def allIds (now : DateTime) : List Nat :=
  (database.oauthAuthorizations.filter fun row =>
    row.active now && decide (now < row.handleExpiresAt)).map OAuthAuthorization.id

def BelongsTo (tokenHash : String) (row : OAuthAuthorization) : Prop :=
  row ∈ database.oauthAuthorizations ∧
    ∃ record ∈ database.refreshTokens, record.tokenHash = tokenHash ∧
      record.authorizationId = row.id

variable {database} {now : DateTime}

theorem mem_allIds (ids : Keyed OAuthAuthorization.id database.oauthAuthorizations)
    {row : OAuthAuthorization} (member : row ∈ database.oauthAuthorizations) :
    row.id ∈ database.allIds now ↔ row.active now = true ∧ now < row.handleExpiresAt := by
  simp only [allIds, List.mem_map, List.mem_filter, Bool.and_eq_true, decide_eq_true_eq]
  constructor
  · rintro ⟨other, ⟨otherMember, active⟩, same⟩
    obtain rfl := ids.eq_of_key otherMember member same
    exact active
  · intro active
    exact ⟨row, ⟨member, active⟩, rfl⟩

theorem BelongsTo.unique (hashes : Keyed RefreshToken.tokenHash database.refreshTokens)
    (ids : Keyed OAuthAuthorization.id database.oauthAuthorizations) {tokenHash : String}
    {first second : OAuthAuthorization} (firstOwner : database.BelongsTo tokenHash first)
    (secondOwner : database.BelongsTo tokenHash second) : first = second := by
  obtain ⟨firstMember, record, recordMember, hashed, owned⟩ := firstOwner
  obtain ⟨secondMember, other, otherMember, otherHashed, otherOwned⟩ := secondOwner
  obtain rfl := hashes.eq_of_key recordMember otherMember (hashed.trans otherHashed.symm)
  exact ids.eq_of_key firstMember secondMember (owned.symm.trans otherOwned)

theorem createRefreshToken_ok {crypto : Crypto} {token : String} {row : OAuthAuthorization}
    {tenantId : Int} (stored : row ∈ database.oauthAuthorizations)
    (fresh : ∀ other ∈ database.refreshTokens, other.tokenHash ≠ crypto.sha256Hex token) :
    ∃ after, database.createRefreshToken crypto token row.id tenantId now = .ok after := by
  have present : selectExists database.oauthAuthorizations (fun other => other.id = row.id) =
      true := selectExists_iff.mpr ⟨row, stored, decide_eq_true rfl⟩
  have unused : ¬selectExists database.refreshTokens
      (fun other => other.tokenHash = crypto.sha256Hex token) = true := by
    intro used
    obtain ⟨other, member, same⟩ := selectExists_iff.mp used
    exact fresh other member (of_decide_eq_true same)
  unfold createRefreshToken
  rw [if_pos present, if_neg unused]
  exact ⟨_, rfl⟩

end Database

/-! ### What the handler checks -/

section

variable (library : OAuthLibrary) (context : TokenContext) (database : Database) (now : DateTime)

/-- Everything a refresh checks before it answers with a token for an authorization. -/
structure Renews (token : String) (row : OAuthAuthorization) : Prop where
  presented : context.request.refreshToken = some token
  live : ∃ record, selectOne database.refreshTokens
      (Database.consumable (library.crypto.sha256Hex token) now) = some record ∧
    database.findOAuthAuthorization context.tenantId record.authorizationId = some row
  unrevoked : row.revokedAt = none
  key : ∃ encrypted prepared, database.findEncryptedKey row.userPubkey = some encrypted ∧
    prepareRefresh library context row
      ((database.getEmail row.userPubkey context.tenantId).toOption.getD "") encrypted =
        .ok prepared
  fresh : ∀ other ∈ database.refreshTokens, other.tokenHash ≠ newHash library context

variable {library context database now} {token : String} {row : OAuthAuthorization}

theorem Renews.belongs (renews : Renews library context database now token row) :
    database.BelongsTo (library.crypto.sha256Hex token) row := by
  obtain ⟨record, found, owned⟩ := renews.live
  have conditions := selectOne_condition found
  have matched := selectOne_condition owned
  simp only [Database.consumable, Bool.and_eq_true, decide_eq_true_eq] at conditions
  simp only [Bool.and_eq_true, decide_eq_true_eq] at matched
  exact ⟨selectOne_mem owned, record, selectOne_mem found, conditions.1.1, matched.2.symm⟩

theorem refreshGrant_run_ok {before final : Database} {stage : RefreshStage}
    {response : TokenResponse}
    (succeeded : (refreshGrant library context (.steady now)).run before stage =
      (final, .ok response)) (unfinished : stage.rank ≠ 0) :
    ∃ after next, RefreshFollows library context before now stage after next ∧
      (refreshGrant library context (.steady now)).run after next = (final, .ok response) := by
  rcases (refreshGrant library context (.steady now)).run_cases before stage with
    ⟨after, next, performed, same⟩ | ⟨after, answer, performed, same⟩
  · rw [same] at succeeded
    rcases refreshGrant_next performed with ⟨-, follows⟩ | ⟨broken, -⟩
    · exact ⟨after, next, follows, succeeded⟩
    · cases broken
  · cases same.symm.trans succeeded
    exact absurd (refreshGrant_ok performed) unfinished

theorem RefreshFollows.run {before after : Database} {stage next : RefreshStage}
    (follows : RefreshFollows library context before now stage after next) :
    (refreshGrant library context (.steady now)).run before stage =
      (refreshGrant library context (.steady now)).run after next :=
  Program.run_of_next (follows.perform rfl)

/-- Once its authorization is found, a refresh succeeds exactly when the key and the new hash are
good. -/
theorem refreshGrant_getEmail_ok_iff {before : Database}
    (stored : row ∈ before.oauthAuthorizations) :
    (∃ final response, (refreshGrant library context (.steady now)).run before (.getEmail row) =
        (final, .ok response)) ↔
      (∃ encrypted prepared, before.findEncryptedKey row.userPubkey = some encrypted ∧
        prepareRefresh library context row
          ((before.getEmail row.userPubkey context.tenantId).toOption.getD "") encrypted =
            .ok prepared) ∧
      ∀ other ∈ before.refreshTokens, other.tokenHash ≠ newHash library context := by
  constructor
  · rintro ⟨final, response, succeeded⟩
    obtain ⟨_, _, first, succeeded⟩ := refreshGrant_run_ok succeeded (Nat.succ_ne_zero _)
    cases first with
    | emailRead =>
      obtain ⟨_, _, second, succeeded⟩ := refreshGrant_run_ok succeeded (Nat.succ_ne_zero _)
      cases second with
      | keyFound found prepared =>
        obtain ⟨_, _, third, -⟩ := refreshGrant_run_ok succeeded (Nat.succ_ne_zero _)
        cases third with
        | created inserted =>
          exact ⟨⟨_, _, found, prepared⟩, (Database.createRefreshToken_eq_ok inserted).1⟩
  · rintro ⟨⟨encrypted, ⟨bunkerPublicKey, accessToken⟩, found, prepared⟩, fresh⟩
    obtain ⟨after, inserted⟩ := @Database.createRefreshToken_ok _ now _ _ _ context.tenantId stored
      fresh
    have ended : (refreshGrant library context (.steady now)).perform after
        (.findPolicy row bunkerPublicKey accessToken) = (after, .answer (.ok
          (refreshResponse library context row bunkerPublicKey accessToken
            (refreshedScope after row.policyId)))) := refreshGrant_perform_sound rfl
    have same : (refreshGrant library context (.steady now)).run before (.getEmail row) =
        (refreshGrant library context (.steady now)).run after
          (.findPolicy row bunkerPublicKey accessToken) := by
      rw [RefreshFollows.emailRead.run, (RefreshFollows.keyFound found prepared).run,
        (RefreshFollows.created inserted).run]
    exact ⟨after, _, same.trans (Program.run_of_answer ended)⟩

theorem handleRefreshTokenGrant_ok_iff :
    (∃ after response, handleRefreshTokenGrant library context (.steady now) database =
        (after, .ok response)) ↔
      ∃ token row, Renews library context database now token row := by
  constructor
  · rintro ⟨final, response, succeeded⟩
    obtain ⟨_, _, first, succeeded⟩ := refreshGrant_run_ok succeeded (by decide)
    cases first with
    | consumed presented found =>
      obtain ⟨_, _, second, succeeded⟩ := refreshGrant_run_ok succeeded (Nat.succ_ne_zero _)
      cases second with
      | authorized owned unrevoked =>
        obtain ⟨key, fresh⟩ :=
          (refreshGrant_getEmail_ok_iff (selectOne_mem owned)).mp ⟨final, response, succeeded⟩
        refine ⟨_, _, presented, ⟨_, found, owned⟩, unrevoked, key, fun other member same => ?_⟩
        -- the consumption has changed no hash
        refine fresh _ (mem_update.mpr ⟨other, member, rfl⟩) ?_
        rw [updateRow_column RefreshToken.tokenHash (RefreshToken.consume_tokenHash _)]
        exact same
  · rintro ⟨token, row, presented, ⟨record, found, owned⟩, unrevoked, key, fresh⟩
    have second : RefreshFollows library context
        (database.afterConsumption (library.crypto.sha256Hex token) now) now
        (.findAuthorization (record.consume now)) _ (.getEmail row) := .authorized owned unrevoked
    have stored : row ∈
        (database.afterConsumption (library.crypto.sha256Hex token) now).oauthAuthorizations :=
      selectOne_mem owned
    unfold handleRefreshTokenGrant
    rw [(RefreshFollows.consumed presented found).run, second.run]
    refine (refreshGrant_getEmail_ok_iff stored).mpr ⟨key, fun other member same => ?_⟩
    obtain ⟨stored, storedMember, rfl⟩ := mem_update.mp member
    rw [updateRow_column RefreshToken.tokenHash (RefreshToken.consume_tokenHash _)] at same
    exact fresh stored storedMember same

end

/-! ### Expired authorizations -/

section

variable {library : OAuthLibrary} {context : TokenContext} {database : Database} {now : DateTime}

/-- A refresh renews active authorizations only exactly when those that pass its checks are not
expired. -/
theorem refresh_active_iff (hashes : Keyed RefreshToken.tokenHash database.refreshTokens)
    (ids : Keyed OAuthAuthorization.id database.oauthAuthorizations) :
    (∀ after response, handleRefreshTokenGrant library context (.steady now) database =
        (after, .ok response) →
      ∃ token row, context.request.refreshToken = some token ∧
        database.BelongsTo (library.crypto.sha256Hex token) row ∧ row.id ∈ database.allIds now) ↔
    ∀ token row, Renews library context database now token row →
      unexpired row.expiresAt now = true ∧ now < row.handleExpiresAt := by
  constructor
  · intro active token row renews
    obtain ⟨after, response, succeeded⟩ := handleRefreshTokenGrant_ok_iff.mpr ⟨token, row, renews⟩
    obtain ⟨other, owner, presented, belongs, listed⟩ := active after response succeeded
    obtain rfl : token = other := Option.some.inj (renews.presented.symm.trans presented)
    obtain rfl : row = owner := renews.belongs.unique hashes ids belongs
    obtain ⟨alive, handle⟩ := (Database.mem_allIds ids belongs.1).mp listed
    exact ⟨(Bool.and_eq_true_iff.mp alive).2, handle⟩
  · intro unexpired after response succeeded
    obtain ⟨token, row, renews⟩ := handleRefreshTokenGrant_ok_iff.mp ⟨after, response, succeeded⟩
    obtain ⟨alive, handle⟩ := unexpired token row renews
    refine ⟨token, row, renews.presented, renews.belongs, ?_⟩
    refine (Database.mem_allIds ids renews.belongs.1).mpr ⟨?_, handle⟩
    show (row.revokedAt.isNone && Keycast.unexpired row.expiresAt now) = true
    rw [renews.unrevoked, alive]
    rfl

end

/-- A token of the sample authorization that is refreshed before its handle expires. -/
theorem refresh_active_sample :
    (handleRefreshTokenGrant sampleOAuthLibrary (sampleRefreshCall "old" "new").context (.steady 0)
      refreshDatabase).2.isOk = true ∧
    ∀ after response, handleRefreshTokenGrant sampleOAuthLibrary
        (sampleRefreshCall "old" "new").context (.steady 0) refreshDatabase =
          (after, .ok response) →
      ∃ token row, (sampleRefreshCall "old" "new").context.request.refreshToken = some token ∧
        refreshDatabase.BelongsTo (sampleOAuthLibrary.crypto.sha256Hex token) row ∧
        row.id ∈ refreshDatabase.allIds 0 := by
  have hashes : Keyed RefreshToken.tokenHash refreshDatabase.refreshTokens :=
    List.nodup_singleton _
  have ids : Keyed OAuthAuthorization.id refreshDatabase.oauthAuthorizations :=
    List.nodup_singleton _
  refine ⟨by decide +kernel, (refresh_active_iff hashes ids).mpr fun token row renews => ?_⟩
  obtain rfl := List.mem_singleton.mp renews.belongs.1
  exact ⟨rfl, by decide⟩

/-- The sample authorization with a refresh token that outlives its handle. -/
def outlivingDatabase : Database :=
  { sampleDatabase with
    refreshTokens := [⟨1, "sha256:old", 1, 1, 0, 3000000, none⟩]
    refreshTokensSeq := 2 }

/-- A second after the handle expired it is listed no more, and its token still refreshes. -/
theorem refresh_resurrects :
    ∃ after response, handleRefreshTokenGrant sampleOAuthLibrary
        (sampleRefreshCall "old" "new").context (.steady 2000000) outlivingDatabase =
          (after, .ok response) ∧
      ¬∃ token row, (sampleRefreshCall "old" "new").context.request.refreshToken = some token ∧
        outlivingDatabase.BelongsTo (sampleOAuthLibrary.crypto.sha256Hex token) row ∧
        row.id ∈ outlivingDatabase.allIds 2000000 := by
  have succeeded : (handleRefreshTokenGrant sampleOAuthLibrary
      (sampleRefreshCall "old" "new").context (.steady 2000000)
      outlivingDatabase).2.toOption.isSome = true := by decide +kernel
  obtain ⟨response, given⟩ := Option.isSome_iff_exists.mp succeeded
  refine ⟨_, response, Prod.ext rfl (toOption_eq_some.mp given), ?_⟩
  rintro ⟨token, row, -, -, listed⟩
  exact List.not_mem_nil listed

end Divine.Keycast
