/-
This file embeds the authorization endpoint as a signed-in user's browser meets it: the
session cookie, the two lookups on which the consent screen is skipped, and the code that
is stored then.
-/

import Divine.Keycast.PolicyParity
import Divine.Keycast.CodeGrant

namespace Divine.Keycast

open Fallible Table

/-! ### Headers -/

structure HeaderValue where
  toStr : Option String
  deriving DecidableEq

structure Headers where
  authorization : Option HeaderValue
  cookie : Option HeaderValue
  deriving DecidableEq

def isBlank (letter : Char) : Bool := letter = ' ' || letter = '\t'

def trim (text : List Char) : String :=
  String.ofList ((text.dropWhile isBlank).reverse.dropWhile isBlank).reverse

def extractUcanFromCookie (headers : Headers) : Option String := do
  let header ← headers.cookie
  let text ← header.toStr
  (text.toList.splitOn ';').findSome? fun cookie => stripLeading "keycast_session=" (trim cookie)

/-! ### Requests -/

structure AuthorizeRequest where
  clientId : String
  redirectUri : String
  scope : Option String
  state : Option String
  codeChallenge : Option String
  codeChallengeMethod : Option String
  prompt : Option String
  byokPubkey : Option String
  authorizationHandle : Option String
  deriving DecidableEq

/-- What the endpoint answers with: a redirection with a code, or one of two pages. -/
inductive AuthorizeOutcome where
  | redirect (url : String)
  | approvalScreen (user : String)
  | loginForm (clearCookie : Bool)
  deriving DecidableEq

namespace Database

variable (database : Database)

/-! ### The two lookups -/

def ofHandle (handle userPubkey : String) (now : DateTime) (row : OAuthAuthorization) : Bool :=
  row.authorizationHandle = some handle && row.userPubkey = userPubkey && row.active now &&
    decide (now < row.handleExpiresAt)

def findIdByHandle (handle userPubkey : String) (now : DateTime) : Option Nat :=
  (selectOne database.oauthAuthorizations (ofHandle handle userPubkey now)).map
    OAuthAuthorization.id

def ofOrigin (userPubkey redirectOrigin : String) (tenantId : Int) (row : OAuthAuthorization) :
    Bool :=
  row.userPubkey = userPubkey && row.redirectOrigin = redirectOrigin && row.tenantId = tenantId &&
    row.revokedAt.isNone

def hasActiveForOrigin (userPubkey redirectOrigin : String) (tenantId : Int) : Bool :=
  selectExists database.oauthAuthorizations (ofOrigin userPubkey redirectOrigin tenantId)

end Database

/-! ### The endpoint -/

section

variable (environment : Environment) (library : OAuthLibrary) (tenantId : Int)
  (request : AuthorizeRequest)

def cookieUser (now : DateTime) (headers : Headers) : Option String := do
  let token ← extractUcanFromCookie headers
  let validated ← (validateUcanToken environment now ("Bearer " ++ token) tenantId).toOption
  return validated.userPubkey

/-- The user the request is answered for, and whether to clear the cookie. -/
def sessionUser (database : Database) (user : Option String) : Option String × Bool :=
  match user with
  | none => (none, false)
  | some pubkey =>
    if request.prompt = some "login" then (none, true)
    else if request.byokPubkey.isSome then (none, true)
    else if database.inTenant pubkey tenantId then (some pubkey, false)
    else (none, true)

def codeLifetime : Nat := 10 * 60 * 1000000

def autoApprovedCode (drawn user : String) (now : DateTime) (previousAuthId : Option Nat) :
    OAuthCode where
  code := drawn
  tenantId := tenantId
  userPubkey := user
  clientId := request.clientId
  redirectUri := request.redirectUri
  scope := request.scope.getD "sign_event"
  expiresAt := now + codeLifetime
  codeChallenge := request.codeChallenge
  codeChallengeMethod := request.codeChallengeMethod
  pendingEmail := none
  pendingPasswordHash := none
  pendingEmailVerificationToken := none
  pendingEncryptedSecret := none
  previousAuthId := previousAuthId
  state := request.state
  deviceCode := none
  isHeadless := false

def redirectUrl (drawn : String) : String :=
  match request.state with
  | some state => s!"{request.redirectUri}?code={drawn}&state={state}"
  | none => s!"{request.redirectUri}?code={drawn}"

/-- A code is stored and the browser redirected with it. -/
def autoApprove (database : Database) (drawn user : String) (now : DateTime)
    (previousAuthId : Option Nat) : Except OAuthError (Database × AuthorizeOutcome) := do
  let stored ← (database.storeCode
    (autoApprovedCode tenantId request drawn user now previousAuthId)).mapError .ofRepository
  return (stored, .redirect (redirectUrl request drawn))

def authorizeGet (database : Database) (now : DateTime) (headers : Headers) (drawn : String) :
    Except OAuthError (Database × AuthorizeOutcome) :=
  match sessionUser tenantId request database (cookieUser environment tenantId now headers) with
  | (none, clearCookie) => .ok (database, .loginForm clearCookie)
  | (some user, _) =>
    let previous := request.authorizationHandle.bind fun handle =>
      database.findIdByHandle handle user now
    if request.prompt = some "consent" then .ok (database, .approvalScreen user)
    else if previous.isSome then
      autoApprove tenantId request database drawn user now previous
    else do
      let redirectOrigin ← extractOrigin library request.redirectUri
      if database.hasActiveForOrigin user redirectOrigin tenantId then
        -- the authorization that was found is not recorded with the code
        autoApprove tenantId request database drawn user now none
      else return (database, .approvalScreen user)

end

/-! ### What a policy grants -/

section

variable (environment : Environment) (database : Database)

def Grants (policyId : Option Nat) (user : PublicKey) (operation : Operation) : Prop :=
  ∃ permissions, loadPermissions environment database policyId = .ok permissions ∧
    operation ∈ allowance permissions user

variable {environment database}

theorem grants_none (user : PublicKey) (operation : Operation) :
    Grants environment database none user operation :=
  ⟨[], rfl, by rw [allowance_nil]; trivial⟩

def Covers (database : Database) (policyId : Nat) (earlier : Option Nat) : Prop :=
  ∀ own, earlier = some own → database.permissionRows own ⊆ database.permissionRows policyId

theorem getPermissions_subset {fewer more : Nat} {permissions : List Permission}
    (subset : database.permissionRows fewer ⊆ database.permissionRows more)
    (read : database.getPermissions environment.crypto more = .ok permissions) :
    ∃ kept, database.getPermissions environment.crypto fewer = .ok kept ∧ kept ⊆ permissions :=
  mapM_subset subset read

theorem Grants.of_covers {policyId : Nat} {earlier : Option Nat} {user : PublicKey}
    {operation : Operation} (covers : Covers database policyId earlier)
    (granted : Grants environment database (some policyId) user operation) :
    Grants environment database earlier user operation := by
  cases policy : earlier with
  | none => exact grants_none user operation
  | some own =>
    obtain ⟨permissions, loaded, allowed⟩ := granted
    simp only [loadPermissions] at loaded
    cases read : database.getPermissions environment.crypto policyId with
    | error error =>
      rw [read] at loaded
      cases loaded
    | ok stored =>
      rw [read] at loaded
      obtain rfl := Except.ok.inj loaded
      obtain ⟨kept, reread, fewer⟩ := getPermissions_subset (covers own policy) read
      refine ⟨kept.filterMap fun permission => permission.toCustomPermission.toOption, ?_, ?_⟩
      · simp only [loadPermissions, reread]
      · exact allowance_antitone (List.filterMap_subset _ fewer) user allowed

end

/-! ### On the strength of what consent is skipped -/

section

variable {environment : Environment} {library : OAuthLibrary} {tenantId : Int}
  {request : AuthorizeRequest} {database after : Database} {now : DateTime} {headers : Headers}
  {drawn url user : String}

/-- A user's unrevoked authorization that makes the endpoint skip the consent screen: by its handle,
or for the origin. -/
structure Consented (library : OAuthLibrary) (tenantId : Int) (request : AuthorizeRequest)
    (database : Database) (now : DateTime) (user : String) (row : OAuthAuthorization) : Prop where
  stored : row ∈ database.oauthAuthorizations
  owner : row.userPubkey = user
  unrevoked : row.revokedAt = none
  found :
    (row.authorizationHandle.isSome = true ∧ row.authorizationHandle = request.authorizationHandle ∧
        row.active now = true ∧ now < row.handleExpiresAt) ∨
      (row.tenantId = tenantId ∧ extractOrigin library request.redirectUri = .ok row.redirectOrigin)

/-- A user of the tenant whose cookie validates, unless a login or a registration is forced. -/
theorem sessionUser_eq_some {cookie : Option String} {clearCookie : Bool}
    (signedIn : sessionUser tenantId request database cookie = (some user, clearCookie)) :
    cookie = some user ∧ request.prompt ≠ some "login" ∧ request.byokPubkey = none ∧
      database.inTenant user tenantId = true := by
  cases cookie with
  | none => cases signedIn
  | some pubkey =>
    simp only [sessionUser] at signedIn
    split at signedIn
    · cases signedIn
    · rename_i noLogin
      split at signedIn
      · cases signedIn
      · rename_i noKey
        split at signedIn
        · rename_i present
          obtain rfl := Option.some.inj (Prod.mk.inj signedIn).1
          exact ⟨rfl, noLogin, Option.not_isSome_iff_eq_none.mp noKey, present⟩
        · cases signedIn

theorem Database.storeCode_eq_ok {row : OAuthCode}
    (stored : database.storeCode row = .ok after) :
    (∀ other ∈ database.oauthCodes, other.code ≠ row.code) ∧
      after = { database with oauthCodes := database.oauthCodes ++ [row] } := by
  unfold storeCode at stored
  split at stored
  · cases stored
  · rename_i fresh
    refine ⟨fun other member same => ?_, (Except.ok.inj stored).symm⟩
    exact fresh (selectExists_iff.mpr ⟨other, member, decide_eq_true same⟩)

theorem autoApprove_eq_ok {previousAuthId : Option Nat} {outcome : AuthorizeOutcome}
    (approved : autoApprove tenantId request database drawn user now previousAuthId =
      .ok (after, outcome)) :
    after = { database with oauthCodes := database.oauthCodes ++
      [autoApprovedCode tenantId request drawn user now previousAuthId] } := by
  obtain ⟨stored, storing, answered⟩ := bind_eq_ok.mp approved
  have same : stored = after := (Prod.mk.inj (pure_eq_ok.mp answered)).1
  rw [← same]
  exact (Database.storeCode_eq_ok (mapError_eq_ok.mp storing)).2

theorem consented_of_handle {previous : Nat}
    (found : (request.authorizationHandle.bind fun handle =>
      database.findIdByHandle handle user now) = some previous) :
    ∃ row, row.id = previous ∧ Consented library tenantId request database now user row := by
  obtain ⟨handle, presented, looked⟩ := Option.bind_eq_some_iff.mp found
  obtain ⟨row, selected, numbered⟩ := Option.map_eq_some_iff.mp looked
  have conditions := selectOne_condition selected
  simp only [Database.ofHandle, Bool.and_eq_true, decide_eq_true_eq] at conditions
  obtain ⟨⟨⟨named, owned⟩, active⟩, alive⟩ := conditions
  have unrevoked : row.revokedAt.isNone = true := (Bool.and_eq_true_iff.mp active).1
  refine ⟨row, numbered, selectOne_mem selected, owned, Option.isNone_iff_eq_none.mp unrevoked,
    .inl ⟨?_, ?_, active, alive⟩⟩
  · rw [named]
    rfl
  · rw [named, presented]

theorem consented_of_origin {redirectOrigin : String}
    (extracted : extractOrigin library request.redirectUri = .ok redirectOrigin)
    (found : database.hasActiveForOrigin user redirectOrigin tenantId = true) :
    ∃ row, Consented library tenantId request database now user row := by
  obtain ⟨row, member, conditions⟩ := selectExists_iff.mp found
  simp only [Database.ofOrigin, Bool.and_eq_true, decide_eq_true_eq] at conditions
  obtain ⟨⟨⟨owned, origin⟩, tenant⟩, unrevoked⟩ := conditions
  refine ⟨row, member, owned, Option.isNone_iff_eq_none.mp unrevoked, .inr ⟨tenant, ?_⟩⟩
  rw [origin]
  exact extracted

/-- A redirect stores one code for what is asked, of a user with an authorization on which consent
is skipped. -/
theorem authorizeGet_redirect
    (redirected : authorizeGet environment library tenantId request database now headers drawn =
      .ok (after, .redirect url)) :
    ∃ user row previousAuthId, cookieUser environment tenantId now headers = some user ∧
      database.inTenant user tenantId = true ∧ request.prompt ≠ some "login" ∧
      request.prompt ≠ some "consent" ∧ request.byokPubkey = none ∧
      Consented library tenantId request database now user row ∧
      (previousAuthId = none ∨ previousAuthId = some row.id) ∧
      after = { database with oauthCodes := database.oauthCodes ++
        [autoApprovedCode tenantId request drawn user now previousAuthId] } := by
  unfold authorizeGet at redirected
  split at redirected
  · cases redirected
  · rename_i user clearCookie signedIn
    obtain ⟨cookie, noLogin, noKey, present⟩ := sessionUser_eq_some signedIn
    by_cases consent : request.prompt = some "consent"
    · rw [if_pos consent] at redirected
      cases redirected
    · rw [if_neg consent] at redirected
      split at redirected
      · rename_i handled
        obtain ⟨previous, found⟩ := Option.isSome_iff_exists.mp handled
        obtain ⟨row, numbered, consented⟩ := consented_of_handle found
        refine ⟨user, row, _, cookie, present, noLogin, consent, noKey, consented, .inr ?_,
          autoApprove_eq_ok redirected⟩
        rw [found, numbered]
      · obtain ⟨redirectOrigin, extracted, rest⟩ := bind_eq_ok.mp redirected
        split at rest
        · rename_i known
          obtain ⟨row, consented⟩ := consented_of_origin extracted known
          exact ⟨user, row, none, cookie, present, noLogin, consent, noKey, consented, .inl rfl,
            autoApprove_eq_ok rest⟩
        · cases rest

/-! ### Consent is kept -/

/-- Skipping the consent screen takes an unrevoked authorization of the signed-in user, and stores a
code of that user for exactly the requested scope. -/
theorem authorizeGet_consent
    (redirected : authorizeGet environment library tenantId request database now headers drawn =
      .ok (after, .redirect url)) :
    ∃ user row code, cookieUser environment tenantId now headers = some user ∧
      database.inTenant user tenantId = true ∧ request.prompt ≠ some "login" ∧
      request.prompt ≠ some "consent" ∧ request.byokPubkey = none ∧
      Consented library tenantId request database now user row ∧
      after = { database with oauthCodes := database.oauthCodes ++ [code] } ∧
      code.userPubkey = user ∧ code.tenantId = tenantId ∧
      code.redirectUri = request.redirectUri ∧ code.scope = request.scope.getD "sign_event" ∧
      ∀ policyId, resolvePolicyFromScope after code.scope = .ok policyId →
        Covers after policyId row.policyId →
        ∀ key operation, Grants environment after (some policyId) key operation →
          Grants environment after row.policyId key operation := by
  obtain ⟨user, row, previousAuthId, cookie, present, noLogin, noConsent, noKey, consented, -,
    rfl⟩ := authorizeGet_redirect redirected
  refine ⟨user, row, _, cookie, present, noLogin, noConsent, noKey, consented, rfl, rfl, rfl, rfl,
    rfl, ?_⟩
  intro policyId _ covers key operation granted
  exact granted.of_covers covers

end

/-! ### A browser that was signed in before -/

/-- The read-only authorization, and a second policy that allows everything. -/
def twoPolicies : Database :=
  { readOnlyDatabase with
    policies := readOnlyDatabase.policies ++ [⟨3, none, some "full"⟩]
    permissions := readOnlyDatabase.permissions ++ [⟨2, "full_access", "\x7b\x7d"⟩]
    policyPermissions := readOnlyDatabase.policyPermissions ++ [⟨3, 2⟩] }

def aliceBrowser : Headers where
  authorization := none
  cookie := some ⟨some "theme=dark; keycast_session=alice"⟩

def sampleAuthorizeRequest (scope : String) : AuthorizeRequest where
  clientId := "App"
  redirectUri := "https://app.example/callback"
  scope := some scope
  state := none
  codeChallenge := none
  codeChallengeMethod := none
  prompt := none
  byokPubkey := none
  authorizationHandle := none

section

variable {environment : Environment} {library : OAuthLibrary} {tenantId : Int}
  {request : AuthorizeRequest} {database : Database} {now : DateTime} {headers : Headers}
  {user origin drawn : String}

theorem cookieUser_of_valid {token : String} {validated : ValidatedToken}
    (presented : extractUcanFromCookie headers = some token)
    (valid : validateUcanToken environment now ("Bearer " ++ token) tenantId = .ok validated) :
    cookieUser environment tenantId now headers = some validated.userPubkey := by
  unfold cookieUser
  rw [presented]
  simp only [Option.bind_eq_bind, Option.bind_some, valid]
  rfl

theorem authorizeGet_of_active (cookie : cookieUser environment tenantId now headers = some user)
    (known : database.inTenant user tenantId = true) (unprompted : request.prompt = none)
    (keyless : request.byokPubkey = none) (fresh : request.authorizationHandle = none)
    (parsed : extractOrigin library request.redirectUri = .ok origin)
    (active : database.hasActiveForOrigin user origin tenantId = true) :
    authorizeGet environment library tenantId request database now headers drawn =
      autoApprove tenantId request database drawn user now none := by
  have session : sessionUser tenantId request database (some user) = (some user, false) := by
    simp [sessionUser, unprompted, keyless, known]
  unfold authorizeGet
  rw [cookie, session]
  simp only [unprompted, fresh, parsed]
  exact if_pos active

end

theorem twoPolicies_redirect (scope : String) :
    authorizeGet sampleEnvironment sampleOAuthLibrary 1 (sampleAuthorizeRequest scope) twoPolicies 0
        aliceBrowser "code" =
      .ok ({ twoPolicies with oauthCodes :=
          [autoApprovedCode 1 (sampleAuthorizeRequest scope) "code" (sampleKey 0) 0 none] },
        .redirect "https://app.example/callback?code=code") := by
  have presented : extractUcanFromCookie aliceBrowser = some "alice" := by decide +kernel
  have valid : validateUcanToken sampleEnvironment 0 ("Bearer " ++ "alice") 1 =
      .ok (sampleValidated 0) :=
    validate_sample "alice" 1 (by decide +kernel) (by simp [sampleUcanLibrary]) did_alice
  have parsed : extractOrigin sampleOAuthLibrary (sampleAuthorizeRequest scope).redirectUri =
      .ok "https://app.example" := rfl
  rw [authorizeGet_of_active (cookieUser_of_valid presented valid) (by decide +kernel) rfl rfl rfl
    parsed (by decide +kernel)]
  rfl

theorem twoPolicies_authorization {row : OAuthAuthorization}
    (member : row ∈ twoPolicies.oauthAuthorizations) : row.policyId = some 2 := by
  obtain rfl := List.mem_singleton.mp member
  rfl

theorem authorizeGet_consent_sample :
    ∃ user row, cookieUser sampleEnvironment 1 0 aliceBrowser = some user ∧
      Consented sampleOAuthLibrary 1 (sampleAuthorizeRequest "policy:readonly") twoPolicies 0 user
        row ∧
      ∀ key operation, Grants sampleEnvironment twoPolicies (some 2) key operation →
        Grants sampleEnvironment twoPolicies row.policyId key operation := by
  obtain ⟨user, row, code, cookie, -, -, -, -, consented, -, -, -, -, scope, kept⟩ :=
    authorizeGet_consent (twoPolicies_redirect "policy:readonly")
  have resolved : resolvePolicyFromScope twoPolicies code.scope = .ok 2 := by
    rw [scope]
    rfl
  refine ⟨user, row, cookie, consented, fun key operation => kept 2 resolved ?_ key operation⟩
  intro earlier policy
  rw [twoPolicies_authorization consented.stored] at policy
  cases policy
  exact List.Subset.refl _

theorem readOnly_denies {row : OAuthAuthorization}
    (member : row ∈ twoPolicies.oauthAuthorizations) :
    ¬Grants sampleEnvironment twoPolicies row.policyId ⟨sampleKey 0⟩
      (.encrypt "hello" ⟨sampleKey 3⟩) := by
  intro granted
  rw [twoPolicies_authorization member] at granted
  obtain ⟨permissions, loaded, allowed⟩ := granted
  obtain rfl : [.decryptOnly] = permissions := Except.ok.inj loaded
  have denied := allowed .decryptOnly (List.mem_singleton.mpr rfl)
  cases denied

theorem full_allows : Grants sampleEnvironment twoPolicies (some 3) ⟨sampleKey 0⟩
    (.encrypt "hello" ⟨sampleKey 3⟩) := by
  refine ⟨[.fullAccess], rfl, ?_⟩
  rw [allowance_fullAccess]
  trivial

/-- The same authorization, with a handle and an expiry. -/
def expiringAuthorization : Database :=
  { twoPolicies with
    oauthAuthorizations := twoPolicies.oauthAuthorizations.map fun row =>
      { row with authorizationHandle := some "handle", expiresAt := some 1 } }

/-- The consent screen is skipped for a scope that allows everything by an authorization that only
allows decryption, by an expired one, and by one of another origin. -/
theorem authorizeGet_widens :
    (∃ after url code policyId,
      authorizeGet sampleEnvironment sampleOAuthLibrary 1 (sampleAuthorizeRequest "policy:full")
          twoPolicies 0 aliceBrowser "code" = .ok (after, .redirect url) ∧
        code ∈ after.oauthCodes ∧ code.userPubkey = sampleKey 0 ∧
        resolvePolicyFromScope after code.scope = .ok policyId ∧
        Grants sampleEnvironment after (some policyId) ⟨sampleKey 0⟩
          (.encrypt "hello" ⟨sampleKey 3⟩) ∧
        ∀ row ∈ twoPolicies.oauthAuthorizations,
          ¬Grants sampleEnvironment after row.policyId ⟨sampleKey 0⟩
            (.encrypt "hello" ⟨sampleKey 3⟩)) ∧
    (∃ after url,
      authorizeGet sampleEnvironment sampleOAuthLibrary 1 (sampleAuthorizeRequest "policy:readonly")
          expiringAuthorization 1 aliceBrowser "code" = .ok (after, .redirect url) ∧
        ∀ row ∈ expiringAuthorization.oauthAuthorizations, row.active 1 = false) ∧
    ∃ after,
      authorizeGet sampleEnvironment sampleOAuthLibrary 1
          { sampleAuthorizeRequest "policy:readonly" with
            redirectUri := "https://other.example/callback"
            authorizationHandle := some "handle" }
          expiringAuthorization 0 aliceBrowser "code" =
        .ok (after, .redirect "https://other.example/callback?code=code") ∧
        ∀ row ∈ expiringAuthorization.oauthAuthorizations,
          row.redirectOrigin = "https://app.example" := by
  refine ⟨⟨_, _, _, 3, twoPolicies_redirect "policy:full", List.mem_cons_self, rfl, rfl,
    full_allows, fun row member => readOnly_denies member⟩, ⟨_, _, rfl, ?_⟩, _, rfl, ?_⟩
  · intro row member
    obtain rfl := List.mem_singleton.mp member
    rfl
  · intro row member
    obtain rfl := List.mem_singleton.mp member
    rfl

end Divine.Keycast
