/-
This file runs the refresh-token grant of the token endpoint one database statement at a
time, among revocations, deletions and new authorizations.
-/

import Divine.Keycast.CodeGrant

namespace Divine.Keycast

open List Option Function Fallible Interleaving Table

/-! ### Requests -/

/-- A refresh request at the statement it issues next, with what it has read so far. -/
inductive RefreshStage where
  | consume
  | findAuthorization (record : RefreshToken)
  | getEmail (row : OAuthAuthorization)
  | findKey (row : OAuthAuthorization) (email : String)
  | createToken (row : OAuthAuthorization) (bunkerPublicKey : PublicKey) (accessToken : String)
  | findPolicy (row : OAuthAuthorization) (bunkerPublicKey : PublicKey) (accessToken : String)
  deriving DecidableEq

inductive RefreshOutcome where
  | next (stage : RefreshStage)
  | answer (response : TokenResponse)
  | fail (error : OAuthError)
  deriving DecidableEq

def RefreshOutcome.ofNext : Except OAuthError RefreshStage → RefreshOutcome
  | .ok stage => next stage
  | .error error => fail error

section

variable (library : OAuthLibrary) (context : TokenContext)

def refreshParam (request : TokenRequest) : Except OAuthError String :=
  okOr request.refreshToken
    (.invalidRequest "Missing 'refresh_token' parameter for refresh_token grant")

/-- The bunker key and the access token of a refreshed grant. -/
def prepareRefresh (row : OAuthAuthorization) (email : String) (encrypted : Bytes) :
    Except OAuthError (PublicKey × String) := do
  let decrypted ← (library.crypto.decrypt encrypted).mapError fun error =>
    .encryption s!"Failed to decrypt user key: {error}"
  let secretKey ← (library.crypto.secretKeyFromSlice decrypted).mapError fun error =>
    .invalidRequest s!"Invalid secret key: {error}"
  let bunkerPublicKey := (library.crypto.deriveBunkerKeys secretKey row.secretHash).publicKey
  let user ← (library.crypto.publicKeyFromHex row.userPubkey).mapError fun error =>
    .invalidRequest s!"Invalid public key: {error}"
  let accessToken ← (library.generateServerSignedUcan user context.tenantId email
    row.redirectOrigin (some bunkerPublicKey.toHex) false).mapError fun error =>
      .invalidRequest s!"UCAN generation failed: {error}"
  return (bunkerPublicKey, accessToken)

def Database.findPolicy (database : Database) (id : Nat) : Option Policy :=
  selectOne database.policies fun policy => policy.id = id

/-- The scope a response names: that of the authorization's policy, or full access. -/
def refreshedScope (database : Database) (policyId : Option Nat) : String :=
  match policyId.bind database.findPolicy with
  | some policy => s!"policy:{policy.slug.getD (toString policy.id)}"
  | none => "policy:full"

def refreshResponse (row : OAuthAuthorization) (bunkerPublicKey : PublicKey)
    (accessToken scope : String) : TokenResponse where
  bunkerUrl := s!"bunker://{bunkerPublicKey.toHex}?{library.relayParams}"
  accessToken := accessToken
  tokenType := "Bearer"
  expiresIn := library.tokenExpirySeconds
  scope := scope
  authorizationHandle := row.authorizationHandle
  refreshToken := context.draws.refreshToken

/-- One statement of `handle_refresh_token_grant`, with what follows up to the next one. -/
def refreshStatement (database : Database) (now : DateTime) :
    RefreshStage → Database × RefreshOutcome
  | .consume =>
      match refreshParam context.request with
      | .error error => (database, .fail error)
      | .ok token =>
        match database.consumeRefreshToken library.crypto token now with
        | some (record, consumed) => (consumed, .next (.findAuthorization record))
        | none => (database, .fail (.invalidGrant "Invalid or expired refresh token"))
  | .findAuthorization record => (database, .ofNext do
      let row ← okOr (database.findOAuthAuthorization context.tenantId record.authorizationId)
        (.invalidGrant s!"Authorization not found: Database error: {rowNotFound}")
      require row.revokedAt.isNone (.invalidGrant "Authorization has been revoked")
      return .getEmail row)
  | .getEmail row =>
      (database, .next (.findKey row
        ((database.getEmail row.userPubkey context.tenantId).toOption.getD "")))
  | .findKey row email => (database, .ofNext do
      let encrypted ← okOr (database.findEncryptedKey row.userPubkey)
        (.invalidGrant "User keys not found")
      let (bunkerPublicKey, accessToken) ← prepareRefresh library context row email encrypted
      return .createToken row bunkerPublicKey accessToken)
  | .createToken row bunkerPublicKey accessToken =>
      match database.createRefreshToken library.crypto context.draws.refreshToken row.id
          context.tenantId now with
      | .ok created => (created, .next (.findPolicy row bunkerPublicKey accessToken))
      | .error error => (database, .fail (.ofRepository error))
  | .findPolicy row bunkerPublicKey accessToken =>
      (database, .answer (refreshResponse library context row bunkerPublicKey accessToken
        (refreshedScope database row.policyId)))

end

/-! ### The endpoint -/

/-- A refresh request under way, with the hash of the first token of its chain; the service does not
keep it. -/
structure RefreshCall where
  context : TokenContext
  stage : RefreshStage
  root : String
  deriving DecidableEq

/-- The database and the time, with the tokens stored so far, the root of every hash, the hashes
consumed, and the answers given. -/
structure RefreshState where
  database : Database
  now : DateTime
  issued : List (String × Nat)
  roots : String → String
  consumed : List String
  answers : List (TokenContext × Except OAuthError TokenResponse)

inductive RefreshEvent where
  | issue (token : String) (authorizationId : Nat) (tenantId : Int)
  | revokeRefreshTokens (authorizationId : Nat)
  | revokeAuthorization (id : Nat)
  | deleteAccount (pubkey : String) (tenantId : Int)
  | cleanup (days : Nat)
  | advance (duration : Nat)
  deriving DecidableEq

/-- A state before any request, in which every stored token is its own root. -/
def RefreshState.fresh (database : Database) (now : DateTime) : RefreshState where
  database := database
  now := now
  issued := database.refreshTokens.map fun row => (row.tokenHash, row.authorizationId)
  roots := id
  consumed := []
  answers := []

def Database.cleanupRefreshTokens (database : Database) (cutoff : DateTime) : Database :=
  { database with
    refreshTokens := delete database.refreshTokens fun row =>
      (match row.consumedAt with
        | some consumed => decide (consumed < cutoff)
        | none => false) || decide (row.expiresAt < cutoff) }

section

variable (library : OAuthLibrary)

def newHash (context : TokenContext) : String :=
  library.crypto.sha256Hex context.draws.refreshToken

/-- What is recorded of the statement a request has just completed. -/
def RefreshState.record (state : RefreshState) (database : Database) (call : RefreshCall) :
    RefreshStage → RefreshState × String
  | .findAuthorization record =>
      ({ state with database := database, consumed := record.tokenHash :: state.consumed },
        state.roots record.tokenHash)
  | .findPolicy row _ _ =>
      ({ state with
          database := database
          issued := (newHash library call.context, row.id) :: state.issued
          roots := Function.update state.roots (newHash library call.context) call.root },
        call.root)
  | _ => ({ state with database := database }, call.root)

def advanceRefresh (state : RefreshState) (call : RefreshCall) :
    RefreshState × Option RefreshCall :=
  match refreshStatement library call.context state.database state.now call.stage with
  | (database, .next stage) =>
      let (state, root) := state.record library database call stage
      (state, some { call with stage := stage, root := root })
  | (database, .answer response) =>
      ({ state with
          database := database
          answers := (call.context, .ok response) :: state.answers }, none)
  | (database, .fail error) =>
      ({ state with
          database := database
          answers := (call.context, .error error) :: state.answers }, none)

def refreshEvent (state : RefreshState) : RefreshEvent → Option RefreshState
  | .issue token authorizationId tenantId =>
      match state.database.createRefreshToken library.crypto token authorizationId tenantId
          state.now with
      | .ok created => some { state with
          database := created
          issued := (library.crypto.sha256Hex token, authorizationId) :: state.issued
          roots := Function.update state.roots (library.crypto.sha256Hex token)
            (library.crypto.sha256Hex token) }
      | .error _ => none
  | .revokeRefreshTokens authorizationId =>
      some { state with
        database := state.database.revokeRefreshTokens authorizationId state.now }
  | .revokeAuthorization id =>
      some { state with database := state.database.revokeOAuthAuthorization id state.now }
  | .deleteAccount pubkey tenantId =>
      some { state with database := state.database.deleteAccount pubkey tenantId }
  | .cleanup days =>
      some { state with
        database := state.database.cleanupRefreshTokens
          (state.now - days * (24 * 60 * 60 * 1000000)) }
  | .advance duration => some { state with now := state.now + duration }

/-- The refresh requests, each starting with the consumption of its token. -/
def refreshSystem : System RefreshState RefreshCall RefreshEvent where
  starts _ call := call.stage = .consume
  advance := advanceRefresh library
  environment := refreshEvent library

abbrev RefreshPool := Pool RefreshState RefreshCall

/-- A token that is created is new: its hash is not that of a token stored before. -/
def FreshTokens (pool : RefreshPool) : Action RefreshCall RefreshEvent → Prop
  | .start _ => True
  | .step index => ∀ call, pool.calls[index]? = some call →
      (∃ row bunkerPublicKey accessToken,
        call.stage = .createToken row bunkerPublicKey accessToken) →
      newHash library call.context ∉ pool.shared.issued.map Prod.fst
  | .environment (.issue token _ _) =>
      library.crypto.sha256Hex token ∉ pool.shared.issued.map Prod.fst
  | .environment _ => True

end

/-! ### What a statement does -/

/-- The request has consumed a token and not yet created the one that follows it. -/
def RefreshStage.inFlight : RefreshStage → Bool
  | findAuthorization _ | getEmail _ | findKey _ _ | createToken _ _ _ => true
  | consume | findPolicy _ _ _ => false

def RefreshState.store (state : RefreshState) (hash : String) (authorizationId : Nat)
    (tenantId : Int) (root : String) : RefreshState :=
  { state with
    database := { state.database with
      refreshTokens := state.database.refreshTokens ++
        [state.database.refreshTokenRow hash authorizationId tenantId state.now]
      refreshTokensSeq := state.database.refreshTokensSeq + 1 }
    issued := (hash, authorizationId) :: state.issued
    roots := Function.update state.roots hash root }

def Database.afterConsumption (database : Database) (tokenHash : String) (now : DateTime) :
    Database :=
  { database with
    refreshTokens := update database.refreshTokens (Database.consumable tokenHash now)
      (RefreshToken.consume now) }

section

variable (library : OAuthLibrary) (context : TokenContext)

/-- The statements a refresh goes through, with the database that each leaves to the next. -/
inductive RefreshFollows (before : Database) (now : DateTime) :
    RefreshStage → Database → RefreshStage → Prop
  | consumed {token : String} {row : RefreshToken}
      (presented : context.request.refreshToken = some token)
      (found : selectOne before.refreshTokens
        (Database.consumable (library.crypto.sha256Hex token) now) = some row) :
      RefreshFollows before now .consume
        (before.afterConsumption (library.crypto.sha256Hex token) now)
        (.findAuthorization (row.consume now))
  | authorized {record : RefreshToken} {row : OAuthAuthorization}
      (found : before.findOAuthAuthorization context.tenantId record.authorizationId = some row)
      (unrevoked : row.revokedAt = none) :
      RefreshFollows before now (.findAuthorization record) before (.getEmail row)
  | emailRead {row : OAuthAuthorization} :
      RefreshFollows before now (.getEmail row) before (.findKey row
        ((before.getEmail row.userPubkey context.tenantId).toOption.getD ""))
  | keyFound {row : OAuthAuthorization} {email : String} {encrypted : Bytes}
      {bunkerPublicKey : PublicKey} {accessToken : String}
      (found : before.findEncryptedKey row.userPubkey = some encrypted)
      (prepared : prepareRefresh library context row email encrypted =
        .ok (bunkerPublicKey, accessToken)) :
      RefreshFollows before now (.findKey row email) before
        (.createToken row bunkerPublicKey accessToken)
  | created {row : OAuthAuthorization} {bunkerPublicKey : PublicKey} {accessToken : String}
      {after : Database} (inserted : before.createRefreshToken library.crypto
        context.draws.refreshToken row.id context.tenantId now = .ok after) :
      RefreshFollows before now (.createToken row bunkerPublicKey accessToken) after
        (.findPolicy row bunkerPublicKey accessToken)

end

section

variable {library : OAuthLibrary} {context : TokenContext} {before after : Database}
  {now : DateTime}

theorem RefreshOutcome.ofNext_eq_next {computed : Except OAuthError RefreshStage}
    {next : RefreshStage} : ofNext computed = .next next ↔ computed = .ok next := by
  cases computed <;> simp [ofNext]

theorem consumeRefreshToken_eq_some {crypto : Crypto} {token : String} {record : RefreshToken}
    (consumed : before.consumeRefreshToken crypto token now = some (record, after)) :
    ∃ row, selectOne before.refreshTokens
        (Database.consumable (crypto.sha256Hex token) now) = some row ∧
      record = row.consume now ∧
      after = { before with
        refreshTokens := update before.refreshTokens
          (Database.consumable (crypto.sha256Hex token) now) (RefreshToken.consume now) } := by
  obtain ⟨row, found, equal⟩ := map_eq_some_iff.mp consumed
  obtain ⟨record, database⟩ := Prod.mk.inj equal
  exact ⟨row, found, record.symm, database.symm⟩

theorem refreshStatement_follows {stage next : RefreshStage}
    (advanced : refreshStatement library context before now stage = (after, .next next)) :
    RefreshFollows library context before now stage after next := by
  cases stage with
  | consume =>
    cases presented : refreshParam context.request with
    | error error => simp [refreshStatement, presented] at advanced
    | ok token =>
      cases consumed : before.consumeRefreshToken library.crypto token now with
      | none => simp [refreshStatement, presented, consumed] at advanced
      | some both =>
        obtain ⟨record, database⟩ := both
        simp only [refreshStatement, presented, consumed] at advanced
        obtain ⟨rfl, outcome⟩ := Prod.mk.inj advanced
        obtain rfl := RefreshOutcome.next.inj outcome
        obtain ⟨row, found, rfl, rfl⟩ := consumeRefreshToken_eq_some consumed
        exact .consumed (okOr_eq_ok.mp presented) found
  | findAuthorization record =>
    obtain ⟨rfl, outcome⟩ := Prod.mk.inj advanced
    obtain ⟨row, found, checked⟩ := bind_eq_ok.mp (RefreshOutcome.ofNext_eq_next.mp outcome)
    obtain ⟨_, unrevoked, rest⟩ := bind_eq_ok.mp checked
    obtain rfl := pure_eq_ok.mp rest
    exact .authorized (okOr_eq_ok.mp found)
      (isNone_iff_eq_none.mp (require_eq_ok.mp unrevoked))
  | getEmail row =>
    obtain ⟨rfl, outcome⟩ := Prod.mk.inj advanced
    obtain rfl := RefreshOutcome.next.inj outcome
    exact .emailRead
  | findKey row email =>
    obtain ⟨rfl, outcome⟩ := Prod.mk.inj advanced
    obtain ⟨encrypted, found, rest⟩ := bind_eq_ok.mp (RefreshOutcome.ofNext_eq_next.mp outcome)
    obtain ⟨⟨bunkerPublicKey, accessToken⟩, prepared, ended⟩ := bind_eq_ok.mp rest
    obtain rfl := pure_eq_ok.mp ended
    exact .keyFound (okOr_eq_ok.mp found) prepared
  | createToken row bunkerPublicKey accessToken =>
    cases inserted : before.createRefreshToken library.crypto context.draws.refreshToken row.id
        context.tenantId now with
    | error error => simp [refreshStatement, inserted] at advanced
    | ok created =>
      simp only [refreshStatement, inserted] at advanced
      obtain ⟨rfl, outcome⟩ := Prod.mk.inj advanced
      obtain rfl := RefreshOutcome.next.inj outcome
      exact .created inserted
  | findPolicy row bunkerPublicKey accessToken => cases advanced

theorem RefreshFollows.refreshStatement {stage next : RefreshStage}
    (follows : RefreshFollows library context before now stage after next) :
    refreshStatement library context before now stage = (after, .next next) := by
  cases follows with
  | consumed presented found =>
    simp [Keycast.refreshStatement, refreshParam, okOr, presented, Database.consumeRefreshToken,
      Database.afterConsumption, found]
  | authorized found unrevoked =>
    simp [Keycast.refreshStatement, found, unrevoked, okOr, require, RefreshOutcome.ofNext, bind,
      Except.bind, pure, Except.pure]
  | emailRead => rfl
  | keyFound found prepared =>
    simp [Keycast.refreshStatement, found, prepared, okOr, RefreshOutcome.ofNext, bind, Except.bind,
      pure, Except.pure]
  | created inserted => simp [Keycast.refreshStatement, inserted]

theorem refreshStatement_reads {stage : RefreshStage} (inFlight : stage.inFlight = true)
    (early : ∀ row bunkerPublicKey accessToken,
      stage ≠ .createToken row bunkerPublicKey accessToken) :
    (refreshStatement library context before now stage).1 = before ∧
      ∀ next, (refreshStatement library context before now stage).2 = .next next →
        next.inFlight = true ∧ ∀ record, next ≠ .findAuthorization record := by
  have same : (refreshStatement library context before now stage).1 = before := by
    cases stage with
    | consume | findPolicy row bunkerPublicKey accessToken => cases inFlight
    | createToken row bunkerPublicKey accessToken => exact absurd rfl (early row _ _)
    | findAuthorization record | getEmail row | findKey row email => rfl
  refine ⟨same, fun next outcome => ?_⟩
  obtain ⟨after, advanced⟩ : ∃ after, refreshStatement library context before now stage =
      (after, .next next) := ⟨_, Prod.ext rfl outcome⟩
  cases refreshStatement_follows advanced with
  | consumed => cases inFlight
  | authorized | emailRead | keyFound => exact ⟨rfl, fun _ equal => nomatch equal⟩
  | created => exact absurd rfl (early _ _ _)

theorem record_of_read {state : RefreshState} {call : RefreshCall} {next : RefreshStage}
    (inFlight : next.inFlight = true) (later : ∀ record, next ≠ .findAuthorization record) :
    state.record library before call next = ({ state with database := before }, call.root) := by
  cases next with
  | consume | findPolicy row bunkerPublicKey accessToken => cases inFlight
  | findAuthorization record => exact absurd rfl (later record)
  | getEmail | findKey | createToken => rfl

theorem advanceRefresh_reads {state : RefreshState} {call : RefreshCall}
    (inFlight : call.stage.inFlight = true)
    (early : ∀ row bunkerPublicKey accessToken,
      call.stage ≠ .createToken row bunkerPublicKey accessToken) :
    ∃ answers, (advanceRefresh library state call).1 = { state with answers := answers } ∧
      ∀ next, (advanceRefresh library state call).2 = some next →
        call.stage.inFlight = true ∧ next.root = call.root := by
  obtain ⟨same, reads⟩ : (refreshStatement library call.context state.database state.now
      call.stage).1 = state.database ∧ _ := refreshStatement_reads inFlight early
  unfold advanceRefresh
  split
  · rename_i database next computed
    rw [computed] at same reads
    obtain ⟨going, later⟩ := reads next rfl
    obtain rfl : database = state.database := same
    rw [record_of_read going later]
    refine ⟨state.answers, rfl, fun other continued => ⟨inFlight, ?_⟩⟩
    rw [← Option.some.inj continued]
  · rename_i database response computed
    rw [computed] at same
    obtain rfl : database = state.database := same
    exact ⟨_, rfl, fun next ended => nomatch ended⟩
  · rename_i database error computed
    rw [computed] at same
    obtain rfl : database = state.database := same
    exact ⟨_, rfl, fun next ended => nomatch ended⟩

variable (library) in
theorem advanceRefresh_cases (state : RefreshState) (call : RefreshCall) :
    (∃ answers, (advanceRefresh library state call).1 = { state with answers := answers } ∧
      ∀ next, (advanceRefresh library state call).2 = some next →
        call.stage.inFlight = true ∧ next.root = call.root) ∨
    (∃ hash row next, call.stage = .consume ∧
      selectOne state.database.refreshTokens (Database.consumable hash state.now) = some row ∧
      next.root = state.roots row.tokenHash ∧
      advanceRefresh library state call = ({ state with
        database := { state.database with
          refreshTokens := update state.database.refreshTokens
            (Database.consumable hash state.now) (RefreshToken.consume state.now) }
        consumed := row.tokenHash :: state.consumed }, some next)) ∨
    (∃ authorizationId next, call.stage.inFlight = true ∧ next.stage.inFlight = false ∧
      (∃ row bunkerPublicKey accessToken,
        call.stage = .createToken row bunkerPublicKey accessToken) ∧
      (∀ row ∈ state.database.refreshTokens, row.tokenHash ≠ newHash library call.context) ∧
      advanceRefresh library state call = (state.store (newHash library call.context)
        authorizationId call.context.tenantId call.root, some next)) := by
  obtain ⟨context, stage, root⟩ := call
  cases stage with
  | consume =>
    cases presented : refreshParam context.request with
    | error error =>
      refine .inl ⟨(context, .error error) :: state.answers, ?_, ?_⟩
      · simp [advanceRefresh, refreshStatement, presented]
      · simp [advanceRefresh, refreshStatement, presented]
    | ok token =>
      cases consumed : state.database.consumeRefreshToken library.crypto token state.now with
      | none =>
        refine .inl ⟨(context, .error (.invalidGrant "Invalid or expired refresh token")) ::
          state.answers, ?_, ?_⟩
        · simp [advanceRefresh, refreshStatement, presented, consumed]
        · simp [advanceRefresh, refreshStatement, presented, consumed]
      | some both =>
        obtain ⟨record, database⟩ := both
        obtain ⟨row, found, rfl, rfl⟩ := consumeRefreshToken_eq_some consumed
        refine .inr (.inl ⟨library.crypto.sha256Hex token, row,
          ⟨context, .findAuthorization (row.consume state.now), state.roots row.tokenHash⟩,
          rfl, found, rfl, ?_⟩)
        simp [advanceRefresh, refreshStatement, presented, consumed, RefreshState.record]
  | findAuthorization record =>
    exact .inl (advanceRefresh_reads rfl fun _ _ _ => nofun)
  | getEmail | findKey => exact .inl (advanceRefresh_reads rfl fun _ _ _ => nofun)
  | createToken row bunkerPublicKey accessToken =>
    cases created : state.database.createRefreshToken library.crypto context.draws.refreshToken
        row.id context.tenantId state.now with
    | error error =>
      refine .inl ⟨(context, .error (.ofRepository error)) :: state.answers, ?_, ?_⟩
      · simp [advanceRefresh, refreshStatement, created]
      · simp [advanceRefresh, refreshStatement, created]
    | ok database =>
      obtain ⟨fresh, rfl⟩ := Database.createRefreshToken_eq_ok created
      refine .inr (.inr ⟨row.id, ⟨context, .findPolicy row bunkerPublicKey accessToken, root⟩, rfl,
        rfl, ⟨row, _, _, rfl⟩, fresh, ?_⟩)
      simp [advanceRefresh, refreshStatement, created, RefreshState.record, RefreshState.store,
        newHash]
  | findPolicy row bunkerPublicKey accessToken =>
    exact .inl ⟨_, rfl, fun next ended => nomatch ended⟩

end

/-! ### What a step does to the tokens -/

/-- What one step does to the stored tokens: nothing, a consumption, a revocation, a deletion, or a
creation. -/
inductive TokenEffect (before after : RefreshState) : Prop where
  | kept (tokens : after.database.refreshTokens = before.database.refreshTokens)
      (issued : after.issued = before.issued) (consumed : after.consumed = before.consumed)
  | consumes (row : RefreshToken) (hash : String)
      (found : selectOne before.database.refreshTokens
        (Database.consumable hash before.now) = some row)
      (tokens : after.database.refreshTokens = update before.database.refreshTokens
        (Database.consumable hash before.now) (RefreshToken.consume before.now))
      (issued : after.issued = before.issued)
      (consumed : after.consumed = row.tokenHash :: before.consumed)
  | revokes (authorizationId : Nat)
      (tokens : after.database.refreshTokens = update before.database.refreshTokens
        (fun row => row.authorizationId = authorizationId && row.consumedAt.isNone)
        (RefreshToken.consume before.now))
      (issued : after.issued = before.issued) (consumed : after.consumed = before.consumed)
  | deletes (condition : RefreshToken → Bool)
      (tokens : after.database.refreshTokens = delete before.database.refreshTokens condition)
      (issued : after.issued = before.issued) (consumed : after.consumed = before.consumed)
  | creates (row : RefreshToken)
      (fresh : row.tokenHash ∉ before.issued.map Prod.fst)
      (tokens : after.database.refreshTokens = before.database.refreshTokens ++ [row])
      (issued : after.issued = (row.tokenHash, row.authorizationId) :: before.issued)
      (consumed : after.consumed = before.consumed)

section

variable {library : OAuthLibrary} {before after : RefreshState}
variable {state : RefreshState}


theorem advanceRefresh_effect {call : RefreshCall} (fresh : (∃ row bunkerPublicKey accessToken,
        call.stage = .createToken row bunkerPublicKey accessToken) →
      newHash library call.context ∉ state.issued.map Prod.fst) :
    TokenEffect state (advanceRefresh library state call).1 := by
  rcases advanceRefresh_cases library state call with
    ⟨answers, same, -⟩ | ⟨hash, row, next, -, found, -, stepped⟩ |
    ⟨authorizationId, next, -, -, creating, -, stepped⟩
  · rw [same]
    exact .kept rfl rfl rfl
  · rw [stepped]
    exact .consumes row hash found rfl rfl rfl
  · rw [stepped]
    exact .creates _ (fresh creating) rfl rfl rfl

theorem refreshEvent_issue {token : String} {authorizationId : Nat} {tenantId : Int}
    (moved : refreshEvent library before (.issue token authorizationId tenantId) = some after) :
    (∀ row ∈ before.database.refreshTokens,
      row.tokenHash ≠ library.crypto.sha256Hex token) ∧
    after = before.store (library.crypto.sha256Hex token) authorizationId tenantId
      (library.crypto.sha256Hex token) := by
  simp only [refreshEvent] at moved
  split at moved
  · rename_i database created
    obtain ⟨fresh, rfl⟩ := Database.createRefreshToken_eq_ok created
    exact ⟨fresh, (Option.some.inj moved).symm⟩
  · cases moved

theorem refreshEvent_effect {event : RefreshEvent}
    (fresh : ∀ token authorizationId tenantId, event = .issue token authorizationId tenantId →
      library.crypto.sha256Hex token ∉ before.issued.map Prod.fst)
    (moved : refreshEvent library before event = some after) : TokenEffect before after := by
  cases event with
  | issue token authorizationId tenantId =>
    obtain ⟨-, rfl⟩ := refreshEvent_issue moved
    exact .creates _ (fresh _ _ _ rfl) rfl rfl rfl
  | revokeRefreshTokens authorizationId =>
    cases moved
    exact .revokes authorizationId rfl rfl rfl
  | revokeAuthorization id =>
    cases moved
    exact .kept rfl rfl rfl
  | deleteAccount pubkey tenantId =>
    cases moved
    by_cases present : selectExists before.database.users (fun user =>
        user.pubkey = pubkey && user.tenantId = tenantId) = true
    · refine .deletes (fun token => selectExists (before.database.oauthAuthorizations.filter
        fun row => row.userPubkey = pubkey) fun row => row.id = token.authorizationId) ?_ rfl rfl
      simp [Database.deleteAccount, present]
    · refine .kept ?_ rfl rfl
      simp [Database.deleteAccount, present]
  | cleanup days =>
    cases moved
    exact .deletes _ rfl rfl rfl
  | advance duration =>
    cases moved
    exact .kept rfl rfl rfl

theorem poolStep_effect {pool next : RefreshPool} {action : Action RefreshCall RefreshEvent}
    (fresh : FreshTokens library pool action)
    (stepped : poolStep (refreshSystem library) pool action = some next) :
    TokenEffect pool.shared next.shared := by
  cases action with
  | start call =>
    simp only [poolStep] at stepped
    split at stepped
    · cases stepped
      exact .kept rfl rfl rfl
    · cases stepped
  | step index =>
    obtain ⟨call, present, rfl⟩ := map_eq_some_iff.mp stepped
    exact advanceRefresh_effect (fresh call present)
  | environment event =>
    obtain ⟨shared, moved, rfl⟩ := map_eq_some_iff.mp stepped
    refine refreshEvent_effect ?_ moved
    rintro token authorizationId tenantId rfl
    exact fresh

/-! ### Spent tokens -/

/-- The token was stored once and can no longer be consumed. -/
def Spent (state : RefreshState) (hash : String) : Prop :=
  hash ∈ state.issued.map Prod.fst ∧
    ∀ row ∈ state.database.refreshTokens, row.tokenHash = hash → row.consumedAt.isSome = true

theorem Spent.update {hash : String} (spent : Spent state hash) {condition : RefreshToken → Bool}
    {now : DateTime} :
    ∀ row ∈ update state.database.refreshTokens condition
        (RefreshToken.consume now),
      row.tokenHash = hash → row.consumedAt.isSome = true := by
  intro row member same
  obtain ⟨old, oldMember, rfl⟩ := mem_update.mp member
  unfold updateRow at same ⊢
  split
  · rfl
  · rename_i outside
    rw [if_neg outside] at same
    exact spent.2 old oldMember same

theorem Spent.effect {hash : String} (spent : Spent before hash)
    (effect : TokenEffect before after) : Spent after hash := by
  cases effect with
  | kept tokens issued =>
    unfold Spent
    rw [tokens, issued]
    exact spent
  | consumes row other found tokens issued =>
    unfold Spent
    rw [tokens, issued]
    exact ⟨spent.1, spent.update⟩
  | revokes authorizationId tokens issued =>
    unfold Spent
    rw [tokens, issued]
    exact ⟨spent.1, spent.update⟩
  | deletes condition tokens issued =>
    unfold Spent
    rw [tokens, issued]
    exact ⟨spent.1, fun row member => spent.2 row (mem_delete.mp member).1⟩
  | creates row fresh tokens issued =>
    unfold Spent
    rw [tokens, issued]
    refine ⟨mem_cons_of_mem _ spent.1, fun other member same => ?_⟩
    rcases mem_append.mp member with old | new
    · exact spent.2 other old same
    · obtain rfl := mem_singleton.mp new
      exact absurd (same ▸ spent.1) fresh

theorem Spent.count {hash : String} (spent : Spent before hash)
    (effect : TokenEffect before after) :
    after.consumed.count hash = before.consumed.count hash := by
  cases effect with
  | kept tokens issued consumed => rw [consumed]
  | revokes authorizationId tokens issued consumed => rw [consumed]
  | deletes condition tokens issued consumed => rw [consumed]
  | creates row fresh tokens issued consumed => rw [consumed]
  | consumes row other found tokens issued consumed =>
    rw [consumed]
    refine count_cons_of_ne fun same => ?_
    have gone := spent.2 row (selectOne_mem found) same
    have meets := selectOne_condition found
    unfold Database.consumable at meets
    simp only [Bool.and_eq_true, decide_eq_true_eq, isNone_iff_eq_none] at meets
    rw [meets.1.2] at gone
    cases gone

/-- What is recorded agrees with what is stored, and what was consumed is spent. -/
structure Recorded (state : RefreshState) : Prop where
  hashes : Keyed RefreshToken.tokenHash state.database.refreshTokens
  issued : (state.issued.map Prod.fst).Nodup
  stored : ∀ row ∈ state.database.refreshTokens,
    (row.tokenHash, row.authorizationId) ∈ state.issued
  once : state.consumed.Nodup
  spent : ∀ hash ∈ state.consumed, Spent state hash

theorem Recorded.storedUpdate (recorded : Recorded state) {condition : RefreshToken → Bool}
    {now : DateTime} :
    ∀ row ∈ Table.update state.database.refreshTokens condition
        (RefreshToken.consume now),
      (row.tokenHash, row.authorizationId) ∈ state.issued := by
  intro row member
  obtain ⟨old, oldMember, rfl⟩ := mem_update.mp member
  rw [updateRow_column RefreshToken.tokenHash (RefreshToken.consume_tokenHash _),
    updateRow_column RefreshToken.authorizationId (RefreshToken.consume_authorizationId _)]
  exact recorded.stored old oldMember

theorem Recorded.effect (recorded : Recorded before) (effect : TokenEffect before after) :
    Recorded after := by
  have spent : ∀ hash ∈ before.consumed, Spent after hash :=
    fun hash consumed => (recorded.spent hash consumed).effect effect
  cases effect with
  | kept tokens issued consumed =>
    refine ⟨?_, ?_, ?_, ?_, ?_⟩
    · rw [tokens]
      exact recorded.hashes
    · rw [issued]
      exact recorded.issued
    · rw [tokens, issued]
      exact recorded.stored
    · rw [consumed]
      exact recorded.once
    · rw [consumed]
      exact spent
  | revokes authorizationId tokens issued consumed =>
    refine ⟨?_, ?_, ?_, ?_, ?_⟩
    · rw [tokens]
      exact recorded.hashes.update fun _ => rfl
    · rw [issued]
      exact recorded.issued
    · rw [tokens, issued]
      exact recorded.storedUpdate
    · rw [consumed]
      exact recorded.once
    · rw [consumed]
      exact spent
  | deletes condition tokens issued consumed =>
    refine ⟨?_, ?_, ?_, ?_, ?_⟩
    · rw [tokens]
      exact recorded.hashes.delete condition
    · rw [issued]
      exact recorded.issued
    · rw [tokens, issued]
      exact fun row member => recorded.stored row (mem_delete.mp member).1
    · rw [consumed]
      exact recorded.once
    · rw [consumed]
      exact spent
  | creates row fresh tokens issued consumed =>
    refine ⟨?_, ?_, ?_, ?_, ?_⟩
    · rw [tokens]
      refine recorded.hashes.insert fun other member same => fresh ?_
      rw [← same]
      exact mem_map_of_mem (recorded.stored other member)
    · rw [issued]
      exact nodup_cons.mpr ⟨fresh, recorded.issued⟩
    · rw [tokens, issued]
      intro other member
      rcases mem_append.mp member with old | new
      · exact mem_cons_of_mem _ (recorded.stored other old)
      · rw [mem_singleton.mp new]
        exact mem_cons_self
    · rw [consumed]
      exact recorded.once
    · rw [consumed]
      exact spent
  | consumes row hash found tokens issued consumed =>
    have member := selectOne_mem found
    have meets := selectOne_condition found
    have unconsumed : row.consumedAt = none := by
      unfold Database.consumable at meets
      simp only [Bool.and_eq_true, decide_eq_true_eq, isNone_iff_eq_none] at meets
      exact meets.1.2
    refine ⟨?_, ?_, ?_, ?_, ?_⟩
    · rw [tokens]
      exact recorded.hashes.update fun _ => rfl
    · rw [issued]
      exact recorded.issued
    · rw [tokens, issued]
      exact recorded.storedUpdate
    · rw [consumed]
      refine nodup_cons.mpr ⟨fun already => ?_, recorded.once⟩
      have gone := (recorded.spent row.tokenHash already).2 row member rfl
      rw [unconsumed] at gone
      cases gone
    · rw [consumed]
      intro other listed
      rcases mem_cons.mp listed with rfl | earlier
      · -- the consumed row was the only one with its hash
        refine ⟨?_, ?_⟩
        · rw [issued]
          exact mem_map_of_mem (recorded.stored row member)
        · rw [tokens]
          intro updated updatedMember same
          obtain ⟨old, oldMember, rfl⟩ := mem_update.mp updatedMember
          rw [updateRow_column RefreshToken.tokenHash (RefreshToken.consume_tokenHash _)] at same
          rw [recorded.hashes.eq_of_key oldMember member same, updateRow_of meets]
          rfl
      · exact spent other earlier

end

/-! ### Live descendants -/

section

variable (root : String)

/-- The token descends from the root and could be consumed: it is unconsumed, unrevoked and
unexpired. -/
def liveFrom (state : RefreshState) (row : RefreshToken) : Bool :=
  state.roots row.tokenHash = root && row.consumedAt.isNone && decide (state.now < row.expiresAt)

/-- The number of live tokens that descend from the root. -/
def liveDescendants (state : RefreshState) : Nat :=
  affected state.database.refreshTokens (liveFrom root state)

/-- One once a token with the root's hash has been stored. -/
def rootIssued (state : RefreshState) : Nat :=
  if root ∈ state.issued.map Prod.fst then 1 else 0

/-- A request weighs one while it holds a descendant it consumed. -/
def refreshWeight (call : RefreshCall) : Nat :=
  if call.stage.inFlight && call.root = root then 1 else 0

/-- The live descendants of a root, and the requests that hold a consumed one, are at most one. -/
def OneLive (pool : RefreshPool) : Prop :=
  Bounded (liveDescendants root) (rootIssued root) (refreshWeight root) pool

variable {root} {library : OAuthLibrary}

theorem rootIssued_le {before after : RefreshState} (issued : before.issued ⊆ after.issued) :
    rootIssued root before ≤ rootIssued root after := by
  unfold rootIssued
  by_cases present : root ∈ before.issued.map Prod.fst
  · rw [if_pos present, if_pos (map_subset _ issued present)]
  · rw [if_neg present]
    exact Nat.zero_le _
variable {state : RefreshState}


theorem liveDescendants_store {hash : String} {authorizationId : Nat} {tenantId : Int}
    {newRoot : String} (fresh : ∀ other ∈ state.database.refreshTokens, other.tokenHash ≠ hash) :
    liveDescendants root (state.store hash authorizationId tenantId newRoot) ≤
      liveDescendants root state + if newRoot = root then 1 else 0 := by
  unfold liveDescendants affected
  have old : countP (liveFrom root (state.store hash authorizationId tenantId newRoot))
      state.database.refreshTokens =
      countP (liveFrom root state) state.database.refreshTokens := by
    refine countP_congr fun other member => ?_
    have same : (state.store hash authorizationId tenantId newRoot).roots other.tokenHash =
        state.roots other.tokenHash := update_of_ne (fresh other member) _ _
    unfold liveFrom
    rw [same]
    rfl
  show countP _ (state.database.refreshTokens ++ _) ≤ _
  rw [countP_append]
  rw [old]
  refine Nat.add_le_add_left ?_ _
  rw [countP_singleton]
  simp only [liveFrom, RefreshState.store, Database.refreshTokenRow, update_self]
  by_cases same : newRoot = root
  · rw [if_pos same]
    split <;> omega
  · simp [same]

theorem liveFrom_consume {condition : RefreshToken → Bool} {now : DateTime} {row : RefreshToken}
    (live : liveFrom root state (updateRow condition (RefreshToken.consume now) row) = true) :
    liveFrom root state row = true := by
  cases inside : condition row with
  | true =>
    rw [updateRow_of inside] at live
    simp [liveFrom, RefreshToken.consume] at live
  | false =>
    rw [updateRow_of_not inside] at live
    exact live

/-- A statement raises neither the live descendants nor its own weight without lowering the other.
-/
theorem advanceRefresh_oneLive {call : RefreshCall} :
    liveDescendants root (advanceRefresh library state call).1 +
        weightOf (refreshWeight root) (advanceRefresh library state call).2 +
        rootIssued root state ≤
      liveDescendants root state + refreshWeight root call +
        rootIssued root (advanceRefresh library state call).1 := by
  rcases advanceRefresh_cases library state call with
    ⟨answers, same, going⟩ | ⟨hash, row, next, consuming, found, rooted, stepped⟩ |
    ⟨authorizationId, next, inFlight, ended, -, fresh, stepped⟩
  · rw [same]
    have light : weightOf (refreshWeight root) (advanceRefresh library state call).2 ≤
        refreshWeight root call := by
      cases continued : (advanceRefresh library state call).2 with
      | none => exact Nat.zero_le _
      | some next =>
        obtain ⟨inFlight, sameRoot⟩ := going next continued
        show refreshWeight root next ≤ refreshWeight root call
        unfold refreshWeight
        rw [sameRoot, inFlight, Bool.true_and]
        split
        · rename_i both
          rw [if_pos (Bool.and_eq_true_iff.mp both).2]
        · exact Nat.zero_le _
    show liveDescendants root state + _ + rootIssued root state ≤ _ + _ + rootIssued root state
    omega
  · rw [stepped]
    have meets := selectOne_condition found
    have light : refreshWeight root next ≤ if state.roots row.tokenHash = root then 1 else 0 := by
      unfold refreshWeight
      rw [rooted]
      split
      · rename_i both
        rw [if_pos (of_decide_eq_true (Bool.and_eq_true_iff.mp both).2)]
      · exact Nat.zero_le _
    have fewer : affected (update state.database.refreshTokens
          (Database.consumable hash state.now) (RefreshToken.consume state.now))
          (liveFrom root state) + (if state.roots row.tokenHash = root then 1 else 0) ≤
        affected state.database.refreshTokens (liveFrom root state) := by
      by_cases descends : state.roots row.tokenHash = root
      · -- the consumed token was live and is not any more
        rw [if_pos descends]
        refine affected_update_lt (fun _ _ live => liveFrom_consume live)
          (selectOne_mem found) ?_ ?_
        · unfold Database.consumable at meets
          simp only [Bool.and_eq_true, decide_eq_true_eq] at meets
          simp [liveFrom, descends, meets.1.2, meets.2]
        · rw [updateRow_of meets]
          simp [liveFrom, RefreshToken.consume]
      · rw [if_neg descends]
        exact affected_update_le fun _ _ live => liveFrom_consume live
    show affected (update state.database.refreshTokens _ _) (liveFrom root state) +
      refreshWeight root next + rootIssued root state ≤
        affected state.database.refreshTokens (liveFrom root state) + _ + rootIssued root state
    omega
  · rw [stepped]
    have created : liveDescendants root (state.store (newHash library call.context)
        authorizationId call.context.tenantId call.root) ≤
          liveDescendants root state + if call.root = root then 1 else 0 :=
      liveDescendants_store fresh
    have issued : rootIssued root state ≤ rootIssued root (state.store
        (newHash library call.context) authorizationId call.context.tenantId call.root) :=
      rootIssued_le (subset_cons_self _ _)
    have holds : refreshWeight root call = if call.root = root then 1 else 0 := by
      simp [refreshWeight, inFlight]
    have passed : weightOf (refreshWeight root) (some next) = 0 := by
      simp [weightOf, refreshWeight, ended]
    rw [passed, holds]
    dsimp only
    omega

theorem refreshEvent_oneLive {state next : RefreshState} {event : RefreshEvent}
    (fresh : ∀ token authorizationId tenantId, event = .issue token authorizationId tenantId →
      library.crypto.sha256Hex token ∉ state.issued.map Prod.fst)
    (moved : refreshEvent library state event = some next) :
    liveDescendants root next + rootIssued root state ≤
      liveDescendants root state + rootIssued root next := by
  cases event with
  | issue token authorizationId tenantId =>
    obtain ⟨new, rfl⟩ := refreshEvent_issue moved
    have unused := fresh _ _ _ rfl
    have created : liveDescendants root (state.store (library.crypto.sha256Hex token)
        authorizationId tenantId (library.crypto.sha256Hex token)) ≤
          liveDescendants root state +
            if library.crypto.sha256Hex token = root then 1 else 0 :=
      liveDescendants_store new
    by_cases same : library.crypto.sha256Hex token = root
    · -- the root itself is stored now, and was not before
      have now : rootIssued root (state.store (library.crypto.sha256Hex token) authorizationId
          tenantId (library.crypto.sha256Hex token)) = 1 :=
        if_pos (same ▸ mem_cons_self)
      have before : rootIssued root state = 0 := if_neg (same ▸ unused)
      rw [if_pos same] at created
      omega
    · have issued : rootIssued root state ≤ rootIssued root (state.store
          (library.crypto.sha256Hex token) authorizationId tenantId
          (library.crypto.sha256Hex token)) := rootIssued_le (subset_cons_self _ _)
      rw [if_neg same] at created
      omega
  | revokeRefreshTokens authorizationId =>
    cases moved
    have fewer : affected (update state.database.refreshTokens
          (fun row => row.authorizationId = authorizationId && row.consumedAt.isNone)
          (RefreshToken.consume state.now)) (liveFrom root state) ≤
        affected state.database.refreshTokens (liveFrom root state) :=
      affected_update_le fun _ _ live => liveFrom_consume live
    exact Nat.add_le_add_right fewer _
  | revokeAuthorization id =>
    cases moved
    exact le_rfl
  | deleteAccount pubkey tenantId =>
    cases moved
    refine Nat.add_le_add_right ?_ _
    show affected (state.database.deleteAccount pubkey tenantId).refreshTokens _ ≤ _
    unfold Database.deleteAccount
    dsimp only
    split
    · exact affected_delete_le _ _ _
    · exact le_rfl
  | cleanup days =>
    cases moved
    exact Nat.add_le_add_right (affected_delete_le _ _ _) _
  | advance duration =>
    cases moved
    refine Nat.add_le_add_right (countP_mono_left fun row _ live => ?_) _
    simp only [liveFrom, Bool.and_eq_true, decide_eq_true_eq] at live ⊢
    exact ⟨live.1, Nat.lt_of_le_of_lt (Nat.le_add_right _ _) live.2⟩

theorem poolStep_oneLive {pool next : RefreshPool} {action : Action RefreshCall RefreshEvent}
    (oneLive : OneLive root pool) (fresh : FreshTokens library pool action)
    (stepped : poolStep (refreshSystem library) pool action = some next) : OneLive root next := by
  refine Bounded.step _ oneLive ?_ ?_ ?_ stepped
  · intro call _ first
    have first : call.stage = .consume := of_decide_eq_true first
    simp [refreshWeight, first, RefreshStage.inFlight]
  · intro index call _ _
    exact advanceRefresh_oneLive
  · rintro event shared rfl moved
    refine refreshEvent_oneLive ?_ moved
    rintro token authorizationId tenantId rfl
    exact fresh

theorem oneLive_fresh {database : Database} {now : DateTime}
    (hashes : Keyed RefreshToken.tokenHash database.refreshTokens) :
    OneLive root (.idle (.fresh database now) : RefreshPool) := by
  have fewer : affected database.refreshTokens (liveFrom root (.fresh database now)) ≤
      (database.refreshTokens.map RefreshToken.tokenHash).count root := by
    unfold affected
    rw [count, countP_map]
    refine countP_mono_left fun row _ live => ?_
    have own := (Bool.and_eq_true_iff.mp (Bool.and_eq_true_iff.mp live).1).1
    exact beq_iff_eq.mpr (of_decide_eq_true own)
  have counted : (database.refreshTokens.map RefreshToken.tokenHash).count root ≤
      rootIssued root (.fresh database now) := by
    have hashesIssued : (RefreshState.fresh database now).issued.map Prod.fst =
        database.refreshTokens.map RefreshToken.tokenHash := by
      unfold RefreshState.fresh
      rw [List.map_map]
      rfl
    unfold rootIssued
    rw [hashesIssued]
    by_cases present : root ∈ database.refreshTokens.map RefreshToken.tokenHash
    · rw [if_pos present]
      exact nodup_iff_count_le_one.mp hashes root
    · rw [if_neg present, count_eq_zero.mpr present]
  show affected database.refreshTokens (liveFrom root (.fresh database now)) + 0 ≤
    rootIssued root (.fresh database now)
  omega

end

/-! ### Rotation -/

section

variable {library : OAuthLibrary}

theorem recorded_fresh {database : Database} {now : DateTime}
    (hashes : Keyed RefreshToken.tokenHash database.refreshTokens) :
    Recorded (.fresh database now) := by
  refine ⟨hashes, ?_, ?_, nodup_nil, fun _ consumed => (not_mem_nil consumed).elim⟩
  · unfold RefreshState.fresh
    rw [List.map_map]
    exact hashes
  · intro row member
    exact mem_map.mpr ⟨row, member, rfl⟩

theorem spent_run {start final : RefreshPool} {actions : List (Action RefreshCall RefreshEvent)}
    {hash : String} (spent : Spent start.shared hash)
    (fresh : Transition.Meets (poolStep (refreshSystem library)) (FreshTokens library) start
      actions)
    (ran : Transition.run (poolStep (refreshSystem library)) start actions = some final) :
    final.shared.consumed.count hash = start.shared.consumed.count hash := by
  have step : ∀ (pool : RefreshPool) (action : Action RefreshCall RefreshEvent)
      (next : RefreshPool),
      (Spent pool.shared hash ∧
        pool.shared.consumed.count hash = start.shared.consumed.count hash) →
      FreshTokens library pool action →
      poolStep (refreshSystem library) pool action = some next →
      Spent next.shared hash ∧
        next.shared.consumed.count hash = start.shared.consumed.count hash := by
    intro pool action next held here stepped
    have effect := poolStep_effect here stepped
    exact ⟨held.1.effect effect, (held.1.count effect).trans held.2⟩
  exact (Transition.invariant_of_meets _ step ⟨spent, rfl⟩ fresh ran).2

theorem Recorded.revoked {pool : RefreshPool} (recorded : Recorded pool.shared)
    {authorizationId : Nat} {hash : String}
    (issued : (hash, authorizationId) ∈ pool.shared.issued) :
    Spent { pool.shared with
      database := pool.shared.database.revokeRefreshTokens authorizationId pool.shared.now }
      hash := by
  refine ⟨mem_map_of_mem issued, fun row member same => ?_⟩
  obtain ⟨old, oldMember, rfl⟩ := mem_update.mp member
  rw [updateRow_column RefreshToken.tokenHash (RefreshToken.consume_tokenHash _)] at same
  have stored := recorded.stored old oldMember
  have owner : old.authorizationId = authorizationId := by
    have equal := inj_on_of_nodup_map recorded.issued stored issued same
    exact congrArg Prod.snd equal
  cases consumed : old.consumedAt with
  | none =>
    rw [updateRow_of (by simp [owner, consumed])]
    rfl
  | some time =>
    rw [updateRow_of_not (by simp [consumed]), consumed]
    rfl

/-- In every run whose created tokens are new, no token is consumed twice, at most one descendant of
a token is live, and revoked ones are not consumed. -/
theorem refreshTokens_rotate {database : Database} {now : DateTime}
    {actions : List (Action RefreshCall RefreshEvent)} {pool : RefreshPool}
    (hashes : Keyed RefreshToken.tokenHash database.refreshTokens)
    (fresh : Transition.Meets (poolStep (refreshSystem library)) (FreshTokens library)
      (.idle (.fresh database now)) actions)
    (ran : Transition.run (poolStep (refreshSystem library)) (.idle (.fresh database now))
      actions = some pool) :
    pool.shared.consumed.Nodup ∧
    (∀ root, liveDescendants root pool.shared ≤ 1) ∧
    ∀ first second middle authorizationId,
      actions = first ++ .environment (.revokeRefreshTokens authorizationId) :: second →
      Transition.run (poolStep (refreshSystem library)) (.idle (.fresh database now)) first =
        some middle →
      ∀ hash, (hash, authorizationId) ∈ middle.shared.issued →
        pool.shared.consumed.count hash = middle.shared.consumed.count hash := by
  have reached : ∀ {actions : List (Action RefreshCall RefreshEvent)} {pool : RefreshPool},
      Transition.Meets (poolStep (refreshSystem library)) (FreshTokens library)
        (.idle (.fresh database now)) actions →
      Transition.run (poolStep (refreshSystem library)) (.idle (.fresh database now)) actions =
        some pool → Recorded pool.shared := by
    intro actions pool fresh ran
    have step : ∀ (pool : RefreshPool) (action : Action RefreshCall RefreshEvent)
        (next : RefreshPool), Recorded pool.shared → FreshTokens library pool action →
        poolStep (refreshSystem library) pool action = some next → Recorded next.shared :=
      fun _ _ _ held here stepped => held.effect (poolStep_effect here stepped)
    exact Transition.invariant_of_meets _ step (recorded_fresh hashes) fresh ran
  refine ⟨(reached fresh ran).once, fun root => ?_, ?_⟩
  · have oneLive : OneLive root pool :=
      Transition.invariant_of_meets _
        (fun _ _ _ held here stepped => poolStep_oneLive held here stepped)
        (oneLive_fresh hashes) fresh ran
    have bounded : liveDescendants root pool.shared + total _ pool.calls ≤
      rootIssued root pool.shared := oneLive
    have one : rootIssued root pool.shared ≤ 1 := by
      unfold rootIssued
      split <;> omega
    omega
  · rintro first second middle authorizationId rfl reachedMiddle hash issued
    obtain ⟨freshFirst, freshRest⟩ := (Transition.meets_append _).mp fresh
    rw [Transition.run_append, reachedMiddle, bind_some] at ran
    obtain ⟨revoked, stepped, later⟩ := (Transition.run_cons_eq_some _).mp ran
    have freshLater := (freshRest middle reachedMiddle).2 revoked stepped
    have spent : Spent revoked.shared hash := by
      rw [← Option.some.inj stepped]
      exact (reached freshFirst reachedMiddle).revoked issued
    rw [spent_run spent freshLater later, ← Option.some.inj stepped]

end

def refreshDatabase : Database :=
  { sampleDatabase with
    refreshTokens := [⟨1, "sha256:old", 1, 1, 0, 1000, none⟩]
    refreshTokensSeq := 2 }

def sampleRefreshCall (presented drawn : String) : RefreshCall where
  context := {
    tenantId := 1
    request := ⟨some "refresh_token", none, "App", none, none, some presented⟩
    draws := ⟨none, "", drawn⟩ }
  stage := .consume
  root := ""

def sampleRefreshRun : List (Action RefreshCall RefreshEvent) :=
  [.start (sampleRefreshCall "old" "new"), .step 0, .step 0, .step 0, .step 0, .step 0, .step 0,
    .environment (.revokeRefreshTokens 1), .start (sampleRefreshCall "new" "newer"), .step 0]

theorem refreshTokens_rotate_sample :
    ∃ pool, Transition.run (poolStep (refreshSystem sampleOAuthLibrary))
        (.idle (.fresh refreshDatabase 0)) sampleRefreshRun = some pool ∧
      pool.shared.consumed = ["sha256:old"] ∧ pool.shared.answers.length = 2 ∧
      pool.shared.consumed.Nodup ∧ ∀ root, liveDescendants root pool.shared ≤ 1 := by
  have hashes : Keyed RefreshToken.tokenHash refreshDatabase.refreshTokens :=
    nodup_singleton _
  have fresh : Transition.Meets (poolStep (refreshSystem sampleOAuthLibrary))
      (FreshTokens sampleOAuthLibrary) (.idle (.fresh refreshDatabase 0)) sampleRefreshRun := by
    refine .cons _ trivial rfl (.cons _ ?_ rfl (.cons _ ?_ rfl (.cons _ ?_ rfl (.cons _ ?_ rfl
      (.cons _ ?_ rfl (.cons _ ?_ rfl (.cons _ trivial rfl (.cons _ trivial rfl
        (.cons _ ?_ rfl trivial)))))))))
    all_goals
      rintro call present ⟨_, _, _, creating⟩
      cases present
      cases creating
    -- of the statements of the run only one creates a token
    decide +kernel
  obtain ⟨once, one, -⟩ := refreshTokens_rotate hashes fresh rfl
  exact ⟨_, rfl, rfl, rfl, once, one⟩

end Divine.Keycast
