/-
This file gives the users table with the columns that signing up reads and writes, beside
the tables a sign-up touches: keys, codes, and the codes held in Redis for polling.
-/

import Divine.Keycast.CodeGrant
import Divine.Keycast.Teams

namespace Divine.Keycast

open Fallible Table

/-! ### Rows -/

/-- A row of `users`, with the verification token that a registration inserted it with. -/
structure SignupUser where
  pubkey : String
  tenantId : Int
  email : Option String
  passwordHash : Option String
  emailVerified : Bool
  emailVerificationToken : Option String
  emailVerificationExpiresAt : Option DateTime
  emailVerificationSentAt : Option DateTime
  createdAt : DateTime
  vineId : Option String
  registeredToken : Option String
  deriving DecidableEq

/-- A value in Redis with its time to live. -/
structure Polled where
  key : String
  code : String
  expiresAt : DateTime
  deriving DecidableEq

/-- The tables of the sign-up. -/
structure SignupTables where
  users : List SignupUser
  personalKeys : List PersonalKey
  oauthCodes : List OAuthCode
  teamUsers : List TeamUser
  polls : List Polled
  deriving DecidableEq

def SignupTables.empty : SignupTables where
  users := []
  personalKeys := []
  oauthCodes := []
  teamUsers := []
  polls := []

/-! ### Errors and libraries -/

/-- The errors of `AuthError` that signing up answers. -/
inductive SignupError where
  | database
  | emailAlreadyExists
  | userNotFound
  | encryption (message : String)
  | internal (message : String)
  | invalidToken
  | duplicateKey
  | registrationExpired
  | serviceUnavailable (message : String) (retryAfter : Option Nat)
  deriving DecidableEq

def SignupError.ofRepository : RepositoryError → SignupError
  | .duplicate => emailAlreadyExists
  | .notFound _ => userNotFound
  | error => internal error.display

/-- The further libraries of the sign-up. -/
structure SignupLibrary where
  oauth : OAuthLibrary
  /-- `str::to_lowercase`. -/
  toLowercase : String → String
  /-- `bcrypt::hash` of a password, with the salt it draws. -/
  hash : String → String → Except String String
  /-- `generate_ucan_token`: keys, tenant, email and origin. -/
  generateUcanToken : Keys → Int → String → String → Except SignupError String

/-! ### Queries on users -/

def seconds (count : Nat) : Nat := count * 1000000

def minutes (count : Nat) : Nat := seconds (count * 60)

def hours (count : Nat) : Nat := minutes (count * 60)

def emailVerificationExpiryHours : Nat := 24

namespace SignupTables

variable (tables : SignupTables)

def ofUser (pubkey : String) (tenantId : Int) (user : SignupUser) : Bool :=
  user.pubkey = pubkey && user.tenantId = tenantId

def userExists (pubkey : String) (tenantId : Int) : Bool :=
  selectExists tables.users (ofUser pubkey tenantId)

/-- Two rows that the primary key, or the unique index on a tenant's emails, keeps apart. -/
def conflicts (first second : SignupUser) : Bool :=
  first.pubkey = second.pubkey ||
    (first.tenantId = second.tenantId && first.email.isSome && first.email = second.email)

def insertUser (user : SignupUser) : Except RepositoryError SignupTables :=
  if selectExists tables.users fun other => conflicts other user then .error .duplicate
  else .ok { tables with users := tables.users ++ [user] }

def insertKey (key : PersonalKey) : SignupTables :=
  { tables with personalKeys := tables.personalKeys ++ [key] }

/-- `DELETE FROM users`, with the keys the foreign key deletes. A user on a team makes the statement
fail as a whole. -/
def deleteUsers (condition : SignupUser → Bool) : SignupTables :=
  let chosen := tables.users.filter condition
  if selectExists chosen fun user =>
      selectExists tables.teamUsers fun row => row.userPubkey = user.pubkey then tables
  else { tables with
    users := delete tables.users condition
    personalKeys := delete tables.personalKeys fun key =>
      selectExists chosen fun user => user.pubkey = key.userPubkey }

def findUserByVerificationToken (token : String) (tenantId : Int) : Option SignupUser :=
  selectOne tables.users fun user =>
    user.emailVerificationToken = some token && user.tenantId = tenantId

def verifyEmail (pubkey : String) (tenantId : Int) : SignupTables :=
  { tables with
    users := update tables.users (ofUser pubkey tenantId) fun user =>
      { user with emailVerified := true } }

def getEmail (pubkey : String) (tenantId : Int) : Except RepositoryError String :=
  match selectOne tables.users (ofUser pubkey tenantId) with
  | none => .error (.notFound "record not found")
  | some user => okOr user.email (.database
      "error occurred while decoding column 0: unexpected null; try decoding as an `Option`")

def findEncryptedKey (userPubkey : String) : Option Bytes :=
  (selectOne tables.personalKeys fun key => key.userPubkey = userPubkey).map
    PersonalKey.encryptedSecretKey

variable {tables}

theorem conflicts_iff {first second : SignupUser} :
    conflicts first second = true ↔ first.pubkey = second.pubkey ∨
      first.tenantId = second.tenantId ∧ first.email.isSome = true ∧
        first.email = second.email := by
  simp only [conflicts, Bool.or_eq_true, Bool.and_eq_true, decide_eq_true_eq, and_assoc]

theorem insertUser_eq_ok {user : SignupUser} {after : SignupTables} :
    tables.insertUser user = .ok after ↔
      (∀ other ∈ tables.users, conflicts other user = false) ∧
        { tables with users := tables.users ++ [user] } = after := by
  unfold insertUser
  cases taken : selectExists tables.users fun other => conflicts other user with
  | true =>
    obtain ⟨other, member, conflict⟩ := selectExists_iff.mp taken
    constructor
    · rintro ⟨⟩
    · rintro ⟨apart, -⟩
      rw [apart other member] at conflict
      cases conflict
  | false =>
    rw [if_neg Bool.false_ne_true, Except.ok.injEq]
    have apart : ∀ other ∈ tables.users, conflicts other user = false := fun other member =>
      Bool.eq_false_of_not_eq_true (List.any_eq_false.mp taken other member)
    exact ⟨fun inserted => ⟨apart, inserted⟩, fun inserted => inserted.2⟩

theorem insertUser_of_conflict {user other : SignupUser} (member : other ∈ tables.users)
    (conflict : conflicts other user = true) : tables.insertUser user = .error .duplicate := by
  unfold insertUser
  rw [if_pos (selectExists_iff.mpr ⟨other, member, conflict⟩)]

end SignupTables

/-! ### A concrete instance -/

def sampleSignupLibrary : SignupLibrary where
  oauth := sampleOAuthLibrary
  toLowercase := String.toLower
  hash password _ := .ok ("$2b$" ++ password)
  generateUcanToken _ _ _ _ := .ok "ucan"

end Divine.Keycast
