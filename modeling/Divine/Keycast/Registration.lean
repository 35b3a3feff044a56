/-
This file embeds what acts on the row of a registration: the registration itself, which
inserts the row without a hash and queues the password, the worker that hashes it and
stores the hash in the row with the verification token of the job, the request to send the
email again, which gives the row another token, the verification, and the cleanup of rows
whose hash was never computed.
-/

import Divine.Keycast.Verification

namespace Divine.Keycast

open Fallible Interleaving Table

/-! ### The bcrypt queue -/

structure BcryptJob where
  token : String
  password : String
  deriving DecidableEq

def queueCapacity : Nat := 350

inductive BcryptQueueError where
  | atCapacity
  | shuttingDown
  deriving DecidableEq

/-- The answer to a registration whose job could not be queued. -/
def BcryptQueueError.toSignup : BcryptQueueError → SignupError
  | atCapacity => .serviceUnavailable "Server at capacity, please try again" (some 5)
  | shuttingDown => .serviceUnavailable "Server restarting, please try again" (some 10)

/-! ### Statements -/

namespace SignupTables

variable (tables : SignupTables)

def registerWithPersonalKey (user : SignupUser) (encrypted : Bytes) :
    Except RepositoryError SignupTables := do
  let inserted ← tables.insertUser user
  return inserted.insertKey ⟨user.pubkey, encrypted, user.tenantId⟩

def ofToken (token : String) (user : SignupUser) : Bool :=
  user.emailVerificationToken = some token

/-- The worker's `UPDATE users`, by the token of the job. -/
def storeHash (token hash : String) : SignupTables :=
  { tables with
    users := update tables.users (ofToken token) fun user =>
      { user with passwordHash := some hash } }

def setVerificationToken (pubkey : String) (tenantId : Int) (token : String)
    (expiresAt now : DateTime) : SignupTables :=
  { tables with
    users := update tables.users (ofUser pubkey tenantId) fun user =>
      { user with
        emailVerificationToken := some token
        emailVerificationExpiresAt := some expiresAt
        emailVerificationSentAt := some now } }

/-- The user `resend_verification` looks up, by the token of a session or else by the email. -/
def findUnverified (tenantId : Int) (user email : Option String) : Option SignupUser :=
  match user, email with
  | some pubkey, _ => (selectOne tables.users (ofUser pubkey tenantId)).filter fun user =>
      user.email.isSome
  | none, some email => selectOne tables.users fun user =>
      user.email = some email && user.tenantId = tenantId
  | none, none => none

def deleteKeys (pubkey : String) (tenantId : Int) : SignupTables :=
  { tables with personalKeys := delete tables.personalKeys fun key =>
      key.userPubkey = pubkey && key.tenantId = tenantId }

/-- The rows `spawn_cleanup_task` deletes: sign-ups by email that are ten minutes old and have no
hash. -/
def stale (now : DateTime) (user : SignupUser) : Bool :=
  user.passwordHash.isNone && user.vineId.isNone && user.email.isSome &&
    decide (user.createdAt + minutes 10 < now)

end SignupTables

/-! ### Requests -/

/-- A registration, with the keys and the verification token its handler draws. -/
structure RegisterContext where
  tenantId : Int
  email : String
  password : String
  nsec : Option String
  generated : Keys
  verificationToken : String
  deriving DecidableEq

inductive RegisterStage where
  | checkKey
  | insert (keys : Keys) (encrypted : Bytes)
  | enqueue (keys : Keys) (job : BcryptJob)
  | deleteUser (keys : Keys) (error : BcryptQueueError)
  | deleteKeys (keys : Keys) (error : BcryptQueueError)
  deriving DecidableEq

/-- One round of a worker, with the salt it draws and whether the database answers its update. -/
structure WorkerContext where
  salt : String
  answered : Bool
  deriving DecidableEq

inductive WorkerStage where
  | receive
  | update (job : BcryptJob) (hash : String)
  deriving DecidableEq

/-- A request to send the email again, with the user its session names and the token its handler
draws. -/
structure ResendContext where
  tenantId : Int
  user : Option String
  email : Option String
  verificationToken : String
  deriving DecidableEq

inductive ResendStage where
  | lookup
  | setToken (pubkey : String)
  deriving DecidableEq

inductive SignupCall where
  | register (context : RegisterContext) (stage : RegisterStage)
  | worker (context : WorkerContext) (stage : WorkerStage)
  | resend (context : ResendContext) (stage : ResendStage)
  | verify (context : VerifyContext) (stage : VerifyStage)
  deriving DecidableEq

structure AuthResponse where
  success : Bool
  pubkey : String
  verificationRequired : Option Bool
  email : Option String
  deriving DecidableEq

structure ResendVerificationResponse where
  success : Bool
  message : String
  deriving DecidableEq

def resendResponse : ResendVerificationResponse where
  success := true
  message := "If this email is registered, you will receive a verification email shortly."

inductive SignupAnswer where
  | registered (result : Except SignupError AuthResponse)
  | resent (response : ResendVerificationResponse)
  | verified (result : Except SignupError VerifyReply)

/-- The tables, the time and the queue, with the tokens stored, the jobs of the registrations, those
done, and the answers given. -/
structure SignupState where
  tables : SignupTables
  now : DateTime
  queue : List BcryptJob
  accepting : Bool
  issued : List String
  registered : List BcryptJob
  processed : List BcryptJob
  answers : List SignupAnswer

inductive SignupEvent where
  | cleanup
  | joinTeam (row : TeamUser)
  | shutdown
  | advance (duration : Nat)

def SignupState.fresh (tables : SignupTables) (now : DateTime) : SignupState where
  tables := { tables with
    users := tables.users.map fun user => { user with registeredToken := none } }
  now := now
  queue := []
  accepting := true
  issued := tables.users.filterMap SignupUser.emailVerificationToken ++
    tables.oauthCodes.filterMap OAuthCode.pendingEmailVerificationToken
  registered := []
  processed := []
  answers := []

section

variable (library : SignupLibrary)

/-- The keys of a registration: those the client brings, or new ones. -/
def registrationKeys (context : RegisterContext) : Except SignupError Keys :=
  match context.nsec with
  | none => .ok context.generated
  | some nsec => (library.oauth.parseKeys nsec).mapError fun error => .internal
      (s!"Invalid nsec or secret key: {error}. Please provide a valid nsec (bech32) or hex " ++
        "secret key.")

def registeredUser (context : RegisterContext) (keys : Keys) (now : DateTime) : SignupUser where
  pubkey := keys.publicKey.toHex
  tenantId := context.tenantId
  email := some (library.toLowercase context.email)
  passwordHash := none
  emailVerified := false
  emailVerificationToken := some context.verificationToken
  emailVerificationExpiresAt := some (now + hours emailVerificationExpiryHours)
  emailVerificationSentAt := none
  createdAt := now
  vineId := none
  registeredToken := some context.verificationToken

namespace SignupState

variable (state : SignupState)

def answer (given : SignupAnswer) : SignupState × Option SignupCall :=
  ({ state with answers := given :: state.answers }, none)

/-- What a registration checks and encrypts before it inserts the user. -/
def prepareRegistration (context : RegisterContext) : Except SignupError (Keys × Bytes) := do
  let keys ← registrationKeys library context
  require (context.nsec.isNone ||
    !state.tables.userExists keys.publicKey.toHex context.tenantId) .duplicateKey
  let encrypted ← (library.oauth.crypto.encrypt keys.secretKey.bytes).mapError
    SignupError.encryption
  return (keys, encrypted)

def advanceRegister (context : RegisterContext) : RegisterStage → SignupState × Option SignupCall
  | .checkKey =>
      match state.prepareRegistration library context with
      | .error error => state.answer (.registered (.error error))
      | .ok (keys, encrypted) => (state, some (.register context (.insert keys encrypted)))
  | .insert keys encrypted =>
      let job : BcryptJob := ⟨context.verificationToken, context.password⟩
      match state.tables.registerWithPersonalKey (registeredUser library context keys state.now)
          encrypted with
      | .error error => state.answer (.registered (.error (.ofRepository error)))
      | .ok tables => ({ state with
            tables := tables
            issued := context.verificationToken :: state.issued
            registered := job :: state.registered },
          some (.register context (.enqueue keys job)))
  | .enqueue keys job =>
      if !state.accepting then (state, some (.register context (.deleteUser keys .shuttingDown)))
      else if state.queue.length < queueCapacity then
        { state with queue := state.queue ++ [job] }.answer (.registered (.ok
          ⟨true, keys.publicKey.toHex, some true, some (library.toLowercase context.email)⟩))
      else (state, some (.register context (.deleteUser keys .atCapacity)))
  | .deleteUser keys error =>
      let ofUser := SignupTables.ofUser keys.publicKey.toHex context.tenantId
      ({ state with tables := state.tables.deleteUsers ofUser },
        some (.register context (.deleteKeys keys error)))
  | .deleteKeys keys error =>
      { state with tables := state.tables.deleteKeys keys.publicKey.toHex context.tenantId }.answer
        (.registered (.error error.toSignup))

/-- A statement of `bcrypt_worker_loop`. A worker that fails is done with the job all the same. -/
def advanceWorker (context : WorkerContext) : WorkerStage → SignupState × Option SignupCall
  | .receive =>
      match state.queue with
      | [] => (state, some (.worker context .receive))
      | job :: rest =>
        match library.hash job.password context.salt with
        | .ok hash => ({ state with queue := rest }, some (.worker context (.update job hash)))
        | .error _ => ({ state with queue := rest, processed := job :: state.processed }, none)
  | .update job hash =>
      ({ state with
        tables := if context.answered then state.tables.storeHash job.token hash else state.tables
        processed := job :: state.processed }, none)

/-- A statement of `resend_verification`: one email in five minutes. -/
def advanceResend (context : ResendContext) : ResendStage → SignupState × Option SignupCall
  | .lookup =>
      match state.tables.findUnverified context.tenantId context.user
          (context.email.map library.toLowercase) with
      | none => state.answer (.resent resendResponse)
      | some user =>
        let limited := user.emailVerificationSentAt.any fun sentAt =>
          decide ((state.now - sentAt) / minutes 1 < 5)
        if user.emailVerified || limited then state.answer (.resent resendResponse)
        else (state, some (.resend context (.setToken user.pubkey)))
  | .setToken pubkey =>
      { state with
        tables := state.tables.setVerificationToken pubkey context.tenantId
          context.verificationToken (state.now + hours emailVerificationExpiryHours) state.now
        issued := context.verificationToken :: state.issued }.answer (.resent resendResponse)

/-- A statement of `verify_email`. -/
def advanceVerify (context : VerifyContext) (stage : VerifyStage) :
    SignupState × Option SignupCall :=
  match verifyStatement library context state.tables state.now stage with
  | (tables, .inl next) => ({ state with tables := tables }, some (.verify context next))
  | (tables, .inr result) => { state with tables := tables }.answer (.verified result)

def advance : SignupCall → SignupState × Option SignupCall
  | .register context stage => state.advanceRegister library context stage
  | .worker context stage => state.advanceWorker library context stage
  | .resend context stage => state.advanceResend library context stage
  | .verify context stage => state.advanceVerify library context stage

def event : SignupEvent → SignupState
  | .cleanup => { state with tables := state.tables.deleteUsers (SignupTables.stale state.now) }
  | .joinTeam row => { state with
      tables := { state.tables with teamUsers := state.tables.teamUsers ++ [row] } }
  | .shutdown => { state with accepting := false }
  | .advance duration => { state with now := state.now + duration }

end SignupState

def SignupCall.first : SignupCall → Bool
  | register _ .checkKey | worker _ .receive | resend _ .lookup | verify _ .findPending => true
  | _ => false

def signupSystem : System SignupState SignupCall SignupEvent where
  starts _ call := call.first
  advance state call := state.advance library call
  environment state event := some (state.event event)

end

abbrev SignupPool := Pool SignupState SignupCall

end Divine.Keycast
