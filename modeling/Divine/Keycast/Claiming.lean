/-
This file embeds the claiming of a preloaded account, one database statement at a time,
and settles how exclusive it is.
-/

import Divine.Keycast.Signup

namespace Divine.Keycast

open Fallible Interleaving Table

/-! ### Tables -/

structure ClaimToken where
  token : String
  userPubkey : String
  expiresAt : DateTime
  usedAt : Option DateTime
  deriving DecidableEq

/-- The users and the claim tokens, under their primary key and their unique index. -/
structure ClaimTables where
  users : List SignupUser
  claimTokens : List ClaimToken
  usersKeyed : Keyed SignupUser.pubkey users
  tokensKeyed : Keyed ClaimToken.token claimTokens

namespace ClaimTables

variable (tables : ClaimTables)

def findValid (token : String) (now : DateTime) : Option ClaimToken :=
  selectOne tables.claimTokens fun row =>
    row.token = token && decide (now < row.expiresAt) && row.usedAt.isNone

def unused (token : String) (row : ClaimToken) : Bool := row.token = token && row.usedAt.isNone

def use (now : DateTime) (row : ClaimToken) : ClaimToken := { row with usedAt := some now }

def markUsed (token : String) (now : DateTime) : ClaimTables where
  users := tables.users
  claimTokens := update tables.claimTokens (unused token) (use now)
  usersKeyed := tables.usersKeyed
  tokensKeyed := tables.tokensKeyed.update fun _ => rfl

def emailExists (email : String) (tenantId : Int) : Bool :=
  selectExists tables.users fun user => user.email = some email && user.tenantId = tenantId

def unclaimed (pubkey : String) (tenantId : Int) (user : SignupUser) : Bool :=
  SignupTables.ofUser pubkey tenantId user && user.email.isNone

def claim (email passwordHash : String) (user : SignupUser) : SignupUser :=
  { user with
    email := some email
    passwordHash := some passwordHash
    emailVerified := true }

def claimAccount (pubkey : String) (tenantId : Int) (email passwordHash : String) :
    Except RepositoryError ClaimTables :=
  if affected tables.users (unclaimed pubkey tenantId) = 0 then
    .error (.notFound "User not found or already claimed")
  else if tables.emailExists email tenantId then .error .duplicate
  else .ok {
    users := update tables.users (unclaimed pubkey tenantId) (claim email passwordHash)
    claimTokens := tables.claimTokens
    usersKeyed := tables.usersKeyed.update fun _ => rfl
    tokensKeyed := tables.tokensKeyed }

end ClaimTables

/-! ### Requests -/

structure ClaimForm where
  token : String
  email : String
  password : String
  passwordConfirmation : String
  deriving DecidableEq

inductive ClaimError where
  | invalidToken
  | userNotFound
  | passwordMismatch
  | weakPassword
  | invalidEmail
  | emailExists
  | internal (message : String)
  deriving DecidableEq

/-- The redirect to the dashboard. -/
structure ClaimReply where
  setCookie : String
  location : String
  deriving DecidableEq

inductive ClaimStatement where
  | findValid
  | emailExists
  | claimAccount
  | markUsed
  deriving DecidableEq

/-- A claim, with its salt, the environment variables, and the statement that fails, if one does,
with its error. -/
structure ClaimContext where
  tenantId : Int
  form : ClaimForm
  salt : String
  serverNsec : Option String
  appUrl : Option String
  fault : Option (ClaimStatement × String)
  deriving DecidableEq

/-- The statement a claim is about to run. -/
inductive ClaimStage where
  | findValid
  | emailExists (claimToken : ClaimToken)
  | claimAccount (claimToken : ClaimToken) (passwordHash : String)
  | markUsed (claimToken : ClaimToken)
  deriving DecidableEq

structure ClaimCall where
  context : ClaimContext
  stage : ClaimStage
  deriving DecidableEq

structure ClaimLibrary where
  signup : SignupLibrary
  /-- `generate_server_signed_ucan`: user, tenant, email, origin, bunker key, server keys, first
  party, role. -/
  generateServerSignedUcan : PublicKey → Int → String → String → Option String → Keys → Bool →
    Option String → Except SignupError String
  /-- The `Debug` rendering of an `AuthError`. -/
  debug : SignupError → String

/-! ### Statements -/

section

variable (library : ClaimLibrary) (context : ClaimContext)

def claimEmail : String := library.signup.toLowercase context.form.email

/-- The error of a statement that fails in the database. -/
def ClaimError.ofRepository (error : RepositoryError) : ClaimError :=
  internal s!"Database error: {error.display}"

def ClaimContext.answered (statement : ClaimStatement) : Except ClaimError Unit :=
  match context.fault with
  | none => .ok ()
  | some (failing, error) =>
      require (failing ≠ statement) (.ofRepository (.database error))

def checkForm : Except ClaimError Unit := do
  require (context.form.password = context.form.passwordConfirmation) .passwordMismatch
  require (8 ≤ context.form.password.utf8ByteSize) .weakPassword
  require ((claimEmail library context).toList.contains '@' &&
    (claimEmail library context).toList.contains '.') .invalidEmail

def getServerKeys : Except ClaimError Keys := do
  let serverNsec ← okOr context.serverNsec (.internal "SERVER_NSEC not configured")
  (library.signup.oauth.parseKeys serverNsec).mapError fun error =>
    .internal s!"Invalid SERVER_NSEC: {error}"

/-- The session of a claimed account, and the redirect that sets its cookie. -/
def createSession (claimToken : ClaimToken) : Except ClaimError ClaimReply := do
  let userPubkey ← (library.signup.oauth.crypto.publicKeyFromHex claimToken.userPubkey).mapError
    fun error => ClaimError.internal s!"Invalid pubkey: {error}"
  let serverKeys ← getServerKeys library context
  let token ← (library.generateServerSignedUcan userPubkey context.tenantId
      (claimEmail library context) "claim" none serverKeys false none).mapError fun error =>
    .internal s!"Failed to generate session: {library.debug error}"
  return {
    setCookie := s!"keycast_session={token}; HttpOnly; Secure; SameSite=Lax; Path=/; " ++
      s!"Max-Age={60 * 60 * 24 * 7}"
    location := (context.appUrl.getD "http://localhost:3000") ++ "/" }

/-- One statement of `claim_post`, with what follows up to the next one. -/
def claimStatement (tables : ClaimTables) (now : DateTime) :
    ClaimStage → ClaimTables × Except ClaimError (ClaimStage ⊕ ClaimReply)
  | .findValid =>
      (tables, do
        context.answered .findValid
        let claimToken ← okOr (tables.findValid context.form.token now) .invalidToken
        checkForm library context
        return .inl (.emailExists claimToken))
  | .emailExists claimToken =>
      (tables, do
        context.answered .emailExists
        require (!tables.emailExists (claimEmail library context) context.tenantId) .emailExists
        let passwordHash ← (library.signup.hash context.form.password context.salt).mapError
          fun error => .internal s!"Password hashing failed: {error}"
        return .inl (.claimAccount claimToken passwordHash))
  | .claimAccount claimToken passwordHash =>
      match context.answered .claimAccount, tables.claimAccount claimToken.userPubkey
          context.tenantId (claimEmail library context) passwordHash with
      | .error error, _ => (tables, .error error)
      | .ok (), .error error => (tables, .error (.ofRepository error))
      | .ok (), .ok claimed => (claimed, .ok (.inl (.markUsed claimToken)))
  | .markUsed claimToken =>
      -- a token that somebody else has used is no error
      match context.answered .markUsed with
      | .error error => (tables, .error error)
      | .ok () => (tables.markUsed context.form.token now,
          (createSession library context claimToken).map .inr)

end

/-! ### The system -/

structure ClaimAnswer where
  context : ClaimContext
  result : Except ClaimError ClaimReply

structure ClaimState where
  tables : ClaimTables
  now : DateTime
  answers : List ClaimAnswer

def ClaimState.fresh (tables : ClaimTables) (now : DateTime) : ClaimState where
  tables := tables
  now := now
  answers := []

def ClaimState.follow (state : ClaimState) (context : ClaimContext) (tables : ClaimTables) :
    Except ClaimError (ClaimStage ⊕ ClaimReply) → ClaimState × Option ClaimCall
  | .ok (.inl next) => ({ state with tables := tables }, some ⟨context, next⟩)
  | .ok (.inr reply) => ({ state with
      tables := tables
      answers := ⟨context, .ok reply⟩ :: state.answers }, none)
  | .error error => ({ state with
      tables := tables
      answers := ⟨context, .error error⟩ :: state.answers }, none)

section

variable (library : ClaimLibrary)

def advanceClaim (state : ClaimState) (call : ClaimCall) : ClaimState × Option ClaimCall :=
  let (tables, outcome) := claimStatement library call.context state.tables state.now call.stage
  state.follow call.context tables outcome

/-- Any number of claims; between their statements only time passes. -/
def claimSystem : System ClaimState ClaimCall Nat where
  starts _ call := call.stage = .findValid
  advance := advanceClaim library
  environment state duration := some { state with now := state.now + duration }

end

abbrev ClaimPool := Pool ClaimState ClaimCall

end Divine.Keycast
