/-
This file embeds `verify_email` one database statement at a time and settles when a failed
verification of a deferred OAuth registration can be retried.
-/

import Divine.Keycast.Signup

namespace Divine.Keycast

open Fallible Table

/-! ### Requests -/

/-- A request to verify an email, with its code, the answer of Redis, and the origin its headers
name. -/
structure VerifyContext where
  tenantId : Int
  token : String
  drawnCode : String
  redisAnswers : Bool
  origin : Option String
  appUrl : Option String
  deriving DecidableEq

structure VerifyEmailResponse where
  success : Bool
  message : String
  redirectTo : Option String
  authenticated : Option Bool
  status : Option String
  retryAfter : Option Nat
  deriving DecidableEq

/-- A response with the cookie it sets. -/
structure VerifyReply where
  response : VerifyEmailResponse
  cookie : Option String
  deriving DecidableEq

def VerifyReply.plain (success : Bool) (message : String) : VerifyReply :=
  ⟨⟨success, message, none, none, none, none⟩, none⟩

/-- The statement a verification is about to run: first those of an OAuth registration, then those
of a normal one. -/
inductive VerifyStage where
  | findPending
  | createUser (pending : OAuthCode) (email passwordHash : String)
  | storeCode (pending : OAuthCode)
  | storePoll (pending : OAuthCode)
  | deletePending (pending : OAuthCode)
  | findUser
  | markVerified (pubkey : String)
  | getEmail (pubkey : String)
  | findKey (pubkey email : String)
  deriving DecidableEq

/-- A verification goes on to its next statement or answers. -/
abbrev VerifyOutcome := VerifyStage ⊕ Except SignupError VerifyReply

/-! ### Statements -/

namespace SignupTables

variable (tables : SignupTables)

def findPendingByVerificationToken (token : String) (tenantId : Int) (now : DateTime) :
    Option OAuthCode :=
  selectOne tables.oauthCodes fun row => row.pendingEmailVerificationToken = some token &&
    row.tenantId = tenantId && decide (now < row.expiresAt)

def deletePendingByVerificationToken (token : String) (tenantId : Int) : SignupTables :=
  { tables with oauthCodes := delete tables.oauthCodes fun row =>
      row.pendingEmailVerificationToken = some token && row.tenantId = tenantId }

def storeCode (row : OAuthCode) : Except RepositoryError SignupTables :=
  if selectExists tables.oauthCodes fun other => other.code = row.code then .error .duplicate
  else .ok { tables with oauthCodes := tables.oauthCodes ++ [row] }

/-- `SETEX`. -/
def setPoll (key code : String) (expiresAt : DateTime) : SignupTables :=
  { tables with
    polls := ⟨key, code, expiresAt⟩ :: delete tables.polls fun polled => polled.key = key }

end SignupTables

section

variable (library : SignupLibrary) (context : VerifyContext)

def verifiedUser (pending : OAuthCode) (email passwordHash : String) (now : DateTime) :
    SignupUser where
  pubkey := pending.userPubkey
  tenantId := context.tenantId
  email := some email
  passwordHash := some passwordHash
  emailVerified := true
  emailVerificationToken := some context.token
  emailVerificationExpiresAt := none
  emailVerificationSentAt := none
  createdAt := now
  vineId := none
  registeredToken := none

/-- The transaction that creates the user and its keys, or, when the client holds the key, the
single insertion of the user. -/
def createVerified (tables : SignupTables) (pending : OAuthCode) (email passwordHash : String)
    (now : DateTime) : Except SignupError SignupTables :=
  let inserted := tables.insertUser (verifiedUser context pending email passwordHash now)
  match pending.pendingEncryptedSecret, inserted with
  | some encrypted, .ok created =>
      .ok (created.insertKey ⟨pending.userPubkey, encrypted, context.tenantId⟩)
  | some _, .error _ => .error .database
  | none, .ok created => .ok created
  | none, .error error => .error (.ofRepository error)

/-- The code for the redirect, which the client exchanges within ten minutes. -/
def redirectCode (pending : OAuthCode) (now : DateTime) : OAuthCode :=
  { pending with
    code := context.drawnCode
    tenantId := context.tenantId
    expiresAt := now + minutes 10
    pendingEmail := none
    pendingPasswordHash := none
    pendingEmailVerificationToken := none
    pendingEncryptedSecret := none
    deviceCode := none }

def pollKey (deviceCode : String) : String := s!"oauth_poll:{deviceCode}"

def oauthReply (pending : OAuthCode) : VerifyReply :=
  if pending.isHeadless then
    ⟨⟨true, "Email verified! Open the app to continue.", none, none, some "headless", none⟩, none⟩
  else
    let redirect := s!"{pending.redirectUri}?code={context.drawnCode}"
    let redirect := match pending.state with
      | some state => s!"{redirect}&state={state}"
      | none => redirect
    ⟨⟨true, "Email verified! Redirecting to app...", some redirect, none, none, none⟩, none⟩

/-- What the lookup of a pending registration leads to. -/
def afterFindPending : Option OAuthCode → VerifyOutcome
  | none => .inl .findUser
  | some pending =>
      match pending.pendingEmail, pending.pendingPasswordHash with
      | none, _ => .inr (.error (.internal "Missing pending email"))
      | some _, none => .inr (.error (.internal "Missing pending password hash"))
      | some email, some passwordHash => .inl (.createUser pending email passwordHash)

def afterFindUser (now : DateTime) : Option SignupUser → VerifyOutcome
  | none => .inr (.error .invalidToken)
  | some user =>
      if user.emailVerified then
        .inr (.ok (.plain true "Your email is already verified. You can log in."))
      else if user.emailVerificationExpiresAt.any fun expires => decide (expires < now) then
        .inr (.ok (.plain false "Verification link has expired. Please request a new one."))
      else if user.passwordHash.isNone then
        -- the worker has not stored the hash: give it two minutes
        if 120 < (now - user.createdAt) / seconds 1 then .inr (.error .registrationExpired)
        else .inr (.ok ⟨⟨false, "Processing your registration, please wait...", none, none,
          some "processing", some 1⟩, none⟩)
      else .inl (.markVerified user.pubkey)

/-- The session of a user whose email was just verified. -/
def verifiedReply (email : String) (encrypted : Option Bytes) : Except SignupError VerifyReply := do
  let encrypted ← okOr encrypted (.internal "Personal keys not found")
  let decrypted ← (library.oauth.crypto.decrypt encrypted).mapError SignupError.encryption
  let secretKey ← (library.oauth.crypto.secretKeyFromSlice decrypted).mapError fun error =>
    SignupError.internal s!"Invalid secret key bytes: {error}"
  let redirectOrigin := (context.origin.or context.appUrl).getD "http://localhost:3000"
  let ucanToken ← library.generateUcanToken (library.oauth.crypto.keys secretKey) context.tenantId
    email redirectOrigin
  return ⟨⟨true, "Email verified successfully! You are now logged in.", none, some true, none,
      none⟩,
    some (s!"keycast_session={ucanToken}; HttpOnly; Secure; SameSite=Lax; Path=/; " ++
      "Max-Age=86400")⟩

/-- One statement of `verify_email`, with what follows up to the next one. -/
def verifyStatement (tables : SignupTables) (now : DateTime) :
    VerifyStage → SignupTables × VerifyOutcome
  | .findPending =>
      (tables, afterFindPending
        (tables.findPendingByVerificationToken context.token context.tenantId now))
  | .createUser pending email passwordHash =>
      match createVerified context tables pending email passwordHash now with
      | .ok created => (created, .inl (.storeCode pending))
      | .error error => (tables, .inr (.error error))
  | .storeCode pending =>
      match tables.storeCode (redirectCode context pending now) with
      | .ok stored => (stored, .inl (.storePoll pending))
      | .error error => (tables, .inr (.error (.ofRepository error)))
  | .storePoll pending =>
      -- a failure to store the code for polling is only logged
      match pending.deviceCode, context.redisAnswers with
      | some deviceCode, true =>
        (tables.setPoll (pollKey deviceCode) context.drawnCode (now + seconds 600),
          .inl (.deletePending pending))
      | _, _ => (tables, .inl (.deletePending pending))
  | .deletePending pending =>
      (tables.deletePendingByVerificationToken context.token context.tenantId,
        .inr (.ok (oauthReply context pending)))
  | .findUser =>
      (tables, afterFindUser now
        (tables.findUserByVerificationToken context.token context.tenantId))
  | .markVerified pubkey =>
      (tables.verifyEmail pubkey context.tenantId, .inl (.getEmail pubkey))
  | .getEmail pubkey =>
      match tables.getEmail pubkey context.tenantId with
      | .ok email => (tables, .inl (.findKey pubkey email))
      | .error error => (tables, .inr (.error (.ofRepository error)))
  | .findKey pubkey email =>
      (tables, .inr (verifiedReply library context email (tables.findEncryptedKey pubkey)))

def VerifyStage.remaining : VerifyStage → Nat
  | findPending => 5
  | createUser _ _ _ | findUser => 4
  | storeCode _ | markVerified _ => 3
  | storePoll _ | getEmail _ => 2
  | deletePending _ | findKey _ _ => 1

theorem verifyStatement_remaining {tables after : SignupTables} {now : DateTime}
    {stage next : VerifyStage}
    (reached : verifyStatement library context tables now stage = (after, .inl next)) :
    next.remaining < stage.remaining := by
  have outcome := congrArg Prod.snd reached
  cases stage with
  | findPending =>
    simp only [verifyStatement, afterFindPending] at outcome
    split at outcome
    · obtain rfl := Sum.inl.inj outcome
      decide
    · split at outcome
      · cases outcome
      · cases outcome
      · obtain rfl := Sum.inl.inj outcome
        exact Nat.lt_succ_self 4
  | createUser pending email passwordHash =>
    simp only [verifyStatement] at outcome
    split at outcome
    · obtain rfl := Sum.inl.inj outcome
      exact Nat.lt_succ_self 3
    · cases outcome
  | storeCode pending =>
    simp only [verifyStatement] at outcome
    split at outcome
    · obtain rfl := Sum.inl.inj outcome
      exact Nat.lt_succ_self 2
    · cases outcome
  | storePoll pending =>
    simp only [verifyStatement] at outcome
    split at outcome <;>
      · obtain rfl := Sum.inl.inj outcome
        exact Nat.lt_succ_self 1
  | deletePending pending => cases outcome
  | findUser =>
    simp only [verifyStatement, afterFindUser] at outcome
    split at outcome
    · cases outcome
    · split_ifs at outcome
      obtain rfl := Sum.inl.inj outcome
      exact Nat.lt_succ_self 3
  | markVerified pubkey =>
    obtain rfl := Sum.inl.inj outcome
    exact Nat.lt_succ_self 2
  | getEmail pubkey =>
    simp only [verifyStatement] at outcome
    split at outcome
    · obtain rfl := Sum.inl.inj outcome
      exact Nat.lt_succ_self 1
    · cases outcome
  | findKey pubkey email => cases outcome

/-! ### A verification, alone -/

def verifyFrom (fails : VerifyStage → Bool) (tables : SignupTables) (now : DateTime)
    (stage : VerifyStage) : SignupTables × Except SignupError VerifyReply :=
  if fails stage then (tables, .error .database)
  else
    match _reached : verifyStatement library context tables now stage with
    | (after, .inl next) => verifyFrom fails after now next
    | (after, .inr answer) => (after, answer)
termination_by stage.remaining
decreasing_by exact verifyStatement_remaining library context _reached

variable {library context} {fails : VerifyStage → Bool} {tables after : SignupTables}
  {now : DateTime} {stage : VerifyStage}

theorem verifyFrom_fails (failing : fails stage = true) :
    verifyFrom library context fails tables now stage = (tables, .error .database) := by
  rw [verifyFrom, if_pos failing]

theorem verifyFrom_next {next : VerifyStage} (passing : fails stage = false)
    (reached : verifyStatement library context tables now stage = (after, .inl next)) :
    verifyFrom library context fails tables now stage =
      verifyFrom library context fails after now next := by
  rw [verifyFrom, if_neg (passing ▸ Bool.false_ne_true)]
  split
  · rename_i other following computed
    obtain ⟨rfl, continues⟩ := Prod.mk.inj (computed.symm.trans reached)
    rw [Sum.inl.inj continues]
  · rename_i other answer computed
    cases congrArg Prod.snd (computed.symm.trans reached)

theorem verifyFrom_answer {answer : Except SignupError VerifyReply} (passing : fails stage = false)
    (reached : verifyStatement library context tables now stage = (after, .inr answer)) :
    verifyFrom library context fails tables now stage = (after, answer) := by
  rw [verifyFrom, if_neg (passing ▸ Bool.false_ne_true)]
  split
  · rename_i other following computed
    cases congrArg Prod.snd (computed.symm.trans reached)
  · rename_i other given computed
    obtain ⟨rfl, answers⟩ := Prod.mk.inj (computed.symm.trans reached)
    rw [Sum.inr.inj answers]

end

def verifyEmail (library : SignupLibrary) (context : VerifyContext) (fails : VerifyStage → Bool)
    (tables : SignupTables) (now : DateTime) : SignupTables × Except SignupError VerifyReply :=
  verifyFrom library context fails tables now .findPending

inductive OAuthStatement where
  | findPending
  | createUser
  | storeCode
  | deletePending
  deriving DecidableEq

def OAuthStatement.fails : OAuthStatement → VerifyStage → Bool
  | findPending, .findPending => true
  | createUser, .createUser _ _ _ => true
  | storeCode, .storeCode _ => true
  | deletePending, .deletePending _ => true
  | _, _ => false

/-! ### What a retry is to find -/

def LeftNothing (before after : SignupTables) : Prop :=
  after.users = before.users ∧ after.personalKeys = before.personalKeys ∧
    after.oauthCodes = before.oauthCodes

/-- The retry succeeded, and there is one user with the email, its keys when generated, and a code
to exchange. -/
structure CompletedBy (pending : OAuthCode) (tenantId : Int) (drawn : List String)
    (later : DateTime) (retry : SignupTables × Except SignupError VerifyReply) : Prop where
  succeeded : ∃ reply, retry.2 = .ok reply ∧ reply.response.success = true
  user : ∃ user ∈ retry.1.users, user.pubkey = pending.userPubkey ∧
    ∀ other ∈ retry.1.users, other.tenantId = tenantId ∧ other.email = pending.pendingEmail ↔
      other = user
  keys : ∀ encrypted, pending.pendingEncryptedSecret = some encrypted →
    ⟨pending.userPubkey, encrypted, tenantId⟩ ∈ retry.1.personalKeys
  code : ∃ row ∈ retry.1.oauthCodes, row.code ∈ drawn ∧ row.tenantId = tenantId ∧
    row.userPubkey = pending.userPubkey ∧ row.pendingEmail = none ∧ later < row.expiresAt

/-- A pending registration with a token of its own, and with codes for two attempts that no row has.
-/
structure Awaiting (tables : SignupTables) (first retry : VerifyContext) (now : DateTime)
    (pending : OAuthCode) : Prop where
  found : tables.findPendingByVerificationToken first.token first.tenantId now = some pending
  sole : ∀ row ∈ tables.oauthCodes, row.pendingEmailVerificationToken = some first.token →
    row.tenantId = first.tenantId → row = pending
  unused : ∀ user ∈ tables.users, user.emailVerificationToken ≠ some first.token
  fresh : ∀ row ∈ tables.oauthCodes, row.code ≠ first.drawnCode ∧ row.code ≠ retry.drawnCode

/-- The pending registration lacks what the user needs, or the database refuses the user. -/
def Refused (tables : SignupTables) (tenantId : Int) (pending : OAuthCode) : Prop :=
  pending.pendingEmail = none ∨ pending.pendingPasswordHash = none ∨
    ∃ user ∈ tables.users, user.pubkey = pending.userPubkey ∨
      user.tenantId = tenantId ∧ user.email = pending.pendingEmail

/-- The attempt failed before it created the user, or at the very end with a code that outlives the
registration. -/
def Retryable (tables : SignupTables) (tenantId : Int) (pending : OAuthCode)
    (failed : OAuthStatement) (now later : DateTime) : Prop :=
  failed = .findPending ∨ failed = .createUser ∨ Refused tables tenantId pending ∨
    failed = .deletePending ∧ pending.expiresAt ≤ later ∧ later < now + minutes 10

theorem retryable_iff_expired {tables : SignupTables} {tenantId : Int} {pending : OAuthCode}
    {failed : OAuthStatement} {now later : DateTime} (afterFind : failed ≠ .findPending)
    (afterCreate : failed ≠ .createUser) (accepted : ¬Refused tables tenantId pending) :
    Retryable tables tenantId pending failed now later ↔
      failed = .deletePending ∧ pending.expiresAt ≤ later ∧ later < now + minutes 10 := by
  unfold Retryable
  rw [or_iff_right afterFind, or_iff_right afterCreate, or_iff_right accepted]

/-! ### The creation of the user -/

section

variable {context : VerifyContext} {tables : SignupTables} {pending : OAuthCode}
  {email passwordHash : String} {now : DateTime}

theorem conflicts_verifiedUser (user : SignupUser) :
    SignupTables.conflicts user (verifiedUser context pending email passwordHash now) = true ↔
      user.pubkey = pending.userPubkey ∨
        user.tenantId = context.tenantId ∧ user.email = some email := by
  rw [SignupTables.conflicts_iff]
  constructor
  · rintro (same | ⟨tenant, -, taken⟩)
    · exact .inl same
    · exact .inr ⟨tenant, taken⟩
  · rintro (same | ⟨tenant, taken⟩)
    · exact .inl same
    · exact .inr ⟨tenant, taken ▸ rfl, taken⟩

def pendingKeys (context : VerifyContext) (pending : OAuthCode) : List PersonalKey :=
  pending.pendingEncryptedSecret.toList.map fun encrypted =>
    ⟨pending.userPubkey, encrypted, context.tenantId⟩

def withVerified (context : VerifyContext) (tables : SignupTables) (pending : OAuthCode)
    (email passwordHash : String) (now : DateTime) : SignupTables :=
  { tables with
    users := tables.users ++ [verifiedUser context pending email passwordHash now]
    personalKeys := tables.personalKeys ++ pendingKeys context pending }

theorem createVerified_of_free
    (free : ∀ user ∈ tables.users, ¬(user.pubkey = pending.userPubkey ∨
      user.tenantId = context.tenantId ∧ user.email = some email)) :
    createVerified context tables pending email passwordHash now =
      .ok (withVerified context tables pending email passwordHash now) := by
  have inserted : tables.insertUser (verifiedUser context pending email passwordHash now) =
      .ok { tables with
        users := tables.users ++ [verifiedUser context pending email passwordHash now] } := by
    refine SignupTables.insertUser_eq_ok.mpr ⟨fun user member => ?_, rfl⟩
    exact Bool.eq_false_of_not_eq_true fun conflict =>
      free user member ((conflicts_verifiedUser user).mp conflict)
  unfold createVerified withVerified pendingKeys
  rw [inserted]
  cases pending.pendingEncryptedSecret with
  | none => simp
  | some encrypted => rfl

theorem createVerified_of_taken {user : SignupUser} (member : user ∈ tables.users)
    (taken : user.pubkey = pending.userPubkey ∨
      user.tenantId = context.tenantId ∧ user.email = some email) :
    ∃ error, createVerified context tables pending email passwordHash now = .error error := by
  have refused : tables.insertUser (verifiedUser context pending email passwordHash now) =
      .error .duplicate :=
    SignupTables.insertUser_of_conflict member ((conflicts_verifiedUser user).mpr taken)
  unfold createVerified
  rw [refused]
  cases pending.pendingEncryptedSecret with
  | none => exact ⟨_, rfl⟩
  | some encrypted => exact ⟨_, rfl⟩

end

/-! ### The failed attempt -/

section

variable {library : SignupLibrary} {first retry : VerifyContext} {tables : SignupTables}
  {pending : OAuthCode} {email passwordHash : String} {now : DateTime} {failed : OAuthStatement}

theorem verifyStatement_findPending {context : VerifyContext}
    (found : tables.findPendingByVerificationToken context.token context.tenantId now =
      some pending) (hasEmail : pending.pendingEmail = some email)
    (hasHash : pending.pendingPasswordHash = some passwordHash) :
    verifyStatement library context tables now .findPending =
      (tables, .inl (.createUser pending email passwordHash)) := by
  simp only [verifyStatement, found, afterFindPending, hasEmail, hasHash]

theorem verifyStatement_createUser_taken {context : VerifyContext} {user : SignupUser}
    (member : user ∈ tables.users)
    (taken : user.pubkey = pending.userPubkey ∨
      user.tenantId = context.tenantId ∧ user.email = some email) :
    ∃ error, verifyStatement library context tables now
      (.createUser pending email passwordHash) = (tables, .inr (.error error)) := by
  obtain ⟨error, refused⟩ :
      ∃ error, createVerified context tables pending email passwordHash now = .error error :=
    createVerified_of_taken member taken
  refine ⟨error, ?_⟩
  simp only [verifyStatement, refused]

theorem verifyStatement_storePoll (context : VerifyContext) (tables : SignupTables) :
    ∃ polls, verifyStatement library context tables now (.storePoll pending) =
      ({ tables with polls := polls }, .inl (.deletePending pending)) := by
  cases device : pending.deviceCode with
  | none => exact ⟨tables.polls, by simp only [verifyStatement, device]⟩
  | some deviceCode =>
    cases answers : context.redisAnswers with
    | false => exact ⟨tables.polls, by simp only [verifyStatement, device, answers]⟩
    | true => exact ⟨_, by simp only [verifyStatement, device, answers]; rfl⟩

theorem verifyEmail_leaves (awaiting : Awaiting tables first retry now pending)
    (early : failed = .findPending ∨ failed = .createUser ∨
      Refused tables first.tenantId pending) :
    (verifyEmail library first failed.fails tables now).1 = tables := by
  unfold verifyEmail
  by_cases atFind : failed = .findPending
  · rw [verifyFrom_fails (by rw [atFind]; rfl)]
  · have passing : failed.fails .findPending = false := by
      cases failed with
      | findPending => exact absurd rfl atFind
      | createUser => rfl
      | storeCode => rfl
      | deletePending => rfl
    cases hasEmail : pending.pendingEmail with
    | none =>
      have reached : verifyStatement library first tables now .findPending =
          (tables, .inr (.error (.internal "Missing pending email"))) := by
        simp only [verifyStatement, awaiting.found, afterFindPending, hasEmail]
      rw [verifyFrom_answer passing reached]
    | some email =>
      cases hasHash : pending.pendingPasswordHash with
      | none =>
        have reached : verifyStatement library first tables now .findPending =
            (tables, .inr (.error (.internal "Missing pending password hash"))) := by
          simp only [verifyStatement, awaiting.found, afterFindPending, hasEmail, hasHash]
        rw [verifyFrom_answer passing reached]
      | some passwordHash =>
        rw [verifyFrom_next passing
          (verifyStatement_findPending awaiting.found hasEmail hasHash)]
        by_cases atCreate : failed = .createUser
        · rw [verifyFrom_fails (by rw [atCreate]; rfl)]
        · have creating : failed.fails (.createUser pending email passwordHash) = false := by
            cases failed with
            | findPending => exact absurd rfl atFind
            | createUser => exact absurd rfl atCreate
            | storeCode => rfl
            | deletePending => rfl
          obtain absent | absent | ⟨user, member, taken⟩ :=
            (early.resolve_left atFind).resolve_left atCreate
          · rw [hasEmail] at absent
            cases absent
          · rw [hasHash] at absent
            cases absent
          · rw [hasEmail] at taken
            obtain ⟨error, reached⟩ : ∃ error, verifyStatement library first tables now
                (.createUser pending email passwordHash) = (tables, .inr (.error error)) :=
              verifyStatement_createUser_taken member taken
            rw [verifyFrom_answer creating reached]

/-- The tables after an attempt that created the user, and stored the code or not. -/
structure Stranded (tables : SignupTables) (first : VerifyContext) (pending : OAuthCode)
    (email passwordHash : String) (now : DateTime) (codes : List OAuthCode)
    (after : SignupTables) : Prop where
  users : after.users =
    tables.users ++ [verifiedUser first pending email passwordHash now]
  personalKeys : after.personalKeys = tables.personalKeys ++ pendingKeys first pending
  oauthCodes : after.oauthCodes = tables.oauthCodes ++ codes

theorem Stranded.not_leftNothing {tables after : SignupTables} {first : VerifyContext}
    {pending : OAuthCode} {email passwordHash : String} {now : DateTime} {codes : List OAuthCode}
    (stranded : Stranded tables first pending email passwordHash now codes after) :
    ¬LeftNothing tables after := by
  rintro ⟨same, -⟩
  rw [stranded.users] at same
  exact absurd (List.append_right_eq_self.mp same) (List.cons_ne_nil _ _)

/-- The database has no user with the key or the email of the pending registration. -/
def Free (tables : SignupTables) (tenantId : Int) (pending : OAuthCode) (email : String) : Prop :=
  ∀ user ∈ tables.users, ¬(user.pubkey = pending.userPubkey ∨
    user.tenantId = tenantId ∧ user.email = some email)

theorem verifyStatement_createUser {context : VerifyContext}
    (free : Free tables context.tenantId pending email) :
    verifyStatement library context tables now (.createUser pending email passwordHash) =
      (withVerified context tables pending email passwordHash now, .inl (.storeCode pending)) := by
  simp only [verifyStatement, createVerified_of_free free]

theorem verifyEmail_storeCode_strands (awaiting : Awaiting tables first retry now pending)
    (hasEmail : pending.pendingEmail = some email)
    (hasHash : pending.pendingPasswordHash = some passwordHash)
    (free : Free tables first.tenantId pending email) :
    Stranded tables first pending email passwordHash now []
      (verifyEmail library first OAuthStatement.storeCode.fails tables now).1 := by
  unfold verifyEmail
  rw [verifyFrom_next rfl (verifyStatement_findPending awaiting.found hasEmail hasHash),
    verifyFrom_next rfl (verifyStatement_createUser free), verifyFrom_fails rfl]
  exact ⟨rfl, rfl, (List.append_nil _).symm⟩

theorem verifyEmail_deletePending_strands (awaiting : Awaiting tables first retry now pending)
    (hasEmail : pending.pendingEmail = some email)
    (hasHash : pending.pendingPasswordHash = some passwordHash)
    (free : Free tables first.tenantId pending email) :
    Stranded tables first pending email passwordHash now [redirectCode first pending now]
      (verifyEmail library first OAuthStatement.deletePending.fails tables now).1 := by
  have unique : selectExists tables.oauthCodes
      (fun other => other.code = (redirectCode first pending now).code) = false := by
    refine List.any_eq_false.mpr fun row member => ?_
    exact fun equal => (awaiting.fresh row member).1 (of_decide_eq_true equal)
  have stored : verifyStatement library first
      (withVerified first tables pending email passwordHash now) now (.storeCode pending) =
        ({ withVerified first tables pending email passwordHash now with
          oauthCodes := tables.oauthCodes ++ [redirectCode first pending now] },
          .inl (.storePoll pending)) := by
    simp only [verifyStatement, SignupTables.storeCode, withVerified, unique,
      Bool.false_eq_true, if_false]
  obtain ⟨polls, polled⟩ : ∃ polls, verifyStatement library first
      { withVerified first tables pending email passwordHash now with
        oauthCodes := tables.oauthCodes ++ [redirectCode first pending now] } now
      (.storePoll pending) =
        ({ withVerified first tables pending email passwordHash now with
          oauthCodes := tables.oauthCodes ++ [redirectCode first pending now]
          polls := polls }, .inl (.deletePending pending)) :=
    verifyStatement_storePoll first _
  unfold verifyEmail
  rw [verifyFrom_next rfl (verifyStatement_findPending awaiting.found hasEmail hasHash),
    verifyFrom_next rfl (verifyStatement_createUser free), verifyFrom_next rfl stored,
    verifyFrom_next rfl polled, verifyFrom_fails rfl]
  exact ⟨rfl, rfl, rfl⟩

end

/-! ### The retry -/

section

variable {library : SignupLibrary} {first retry : VerifyContext} {tables after : SignupTables}
  {pending : OAuthCode} {email passwordHash : String} {now later : DateTime}
  {codes : List OAuthCode}

section

variable (awaiting : Awaiting tables first retry now pending)

include awaiting

theorem findPending_later (kept : after.oauthCodes = tables.oauthCodes ++ codes)
    (others : ∀ row ∈ codes, row.pendingEmailVerificationToken = none)
    (lasting : later < pending.expiresAt) :
    after.findPendingByVerificationToken first.token first.tenantId later = some pending := by
  have meets := selectOne_condition awaiting.found
  simp only [Bool.and_eq_true, decide_eq_true_eq] at meets
  have present : pending ∈ after.oauthCodes := by
    rw [kept]
    exact List.mem_append_left codes (selectOne_mem awaiting.found)
  cases found : after.findPendingByVerificationToken first.token first.tenantId later with
  | none =>
    refine absurd (List.find?_eq_none.mp found pending present) ?_
    simp [meets.1.1, meets.1.2, lasting]
  | some row =>
    have rowMeets := selectOne_condition found
    have member := selectOne_mem found
    simp only [Bool.and_eq_true, decide_eq_true_eq] at rowMeets
    rw [kept] at member
    rcases List.mem_append.mp member with old | new
    · rw [awaiting.sole row old rowMeets.1.1 rowMeets.1.2]
    · rw [others row new] at rowMeets
      cases rowMeets.1.1

theorem findPending_expired (kept : after.oauthCodes = tables.oauthCodes ++ codes)
    (others : ∀ row ∈ codes, row.pendingEmailVerificationToken = none)
    (expired : pending.expiresAt ≤ later) :
    after.findPendingByVerificationToken first.token first.tenantId later = none := by
  refine List.find?_eq_none.mpr fun row member => ?_
  rw [kept] at member
  simp only [Bool.and_eq_true, decide_eq_true_eq, not_and]
  rintro ⟨token, tenant⟩
  rcases List.mem_append.mp member with old | new
  · rw [awaiting.sole row old token tenant]
    exact not_lt.mpr expired
  · rw [others row new] at token
    cases token

section

variable (sameToken : retry.token = first.token)

include sameToken

section

variable (sameTenant : retry.tenantId = first.tenantId)

include sameTenant

theorem verifyEmail_refused (hasEmail : pending.pendingEmail = some email)
    (hasHash : pending.pendingPasswordHash = some passwordHash)
    (stranded : Stranded tables first pending email passwordHash now codes after)
    (others : ∀ row ∈ codes, row.pendingEmailVerificationToken = none)
    (lasting : later < pending.expiresAt) :
    ∃ error, verifyEmail library retry (fun _ => false) after later = (after, .error error) := by
  have found := findPending_later awaiting stranded.oauthCodes others lasting
  rw [← sameToken, ← sameTenant] at found
  have present : verifiedUser first pending email passwordHash now ∈ after.users := by
    rw [stranded.users]
    exact List.mem_append_right tables.users (List.mem_singleton_self _)
  obtain ⟨error, refused⟩ : ∃ error, verifyStatement library retry after later
      (.createUser pending email passwordHash) = (after, .inr (.error error)) :=
    verifyStatement_createUser_taken present (.inl rfl)
  refine ⟨error, ?_⟩
  unfold verifyEmail
  rw [verifyFrom_next rfl (verifyStatement_findPending found hasEmail hasHash),
    verifyFrom_answer rfl refused]

theorem verifyEmail_already
    (stranded : Stranded tables first pending email passwordHash now codes after)
    (others : ∀ row ∈ codes, row.pendingEmailVerificationToken = none)
    (expired : pending.expiresAt ≤ later) :
    verifyEmail library retry (fun _ => false) after later =
      (after, .ok (.plain true "Your email is already verified. You can log in.")) := by
  have gone := findPending_expired awaiting stranded.oauthCodes others expired
  have nobody : selectOne tables.users (fun user : SignupUser =>
      user.emailVerificationToken = some retry.token && user.tenantId = retry.tenantId) = none := by
    refine List.find?_eq_none.mpr fun user member => ?_
    have unused := awaiting.unused user member
    rw [← sameToken] at unused
    simp [unused]
  have found : after.findUserByVerificationToken retry.token retry.tenantId =
      some (verifiedUser first pending email passwordHash now) := by
    unfold SignupTables.findUserByVerificationToken
    rw [stranded.users]
    unfold selectOne at nobody ⊢
    rw [List.find?_append, nobody]
    simp [verifiedUser, sameToken, sameTenant]
  have looked : verifyStatement library retry after later .findPending =
      (after, .inl .findUser) := by
    simp only [verifyStatement, sameToken, sameTenant, gone, afterFindPending]
  have answered : verifyStatement library retry after later .findUser =
      (after, .inr (.ok (.plain true "Your email is already verified. You can log in."))) := by
    simp only [verifyStatement, found, afterFindUser, verifiedUser, if_true]
  unfold verifyEmail
  rw [verifyFrom_next rfl looked, verifyFrom_answer rfl answered]

/-- The retry completes the registration when its code is left and the registration has expired. -/
theorem completedBy_of_code (hasEmail : pending.pendingEmail = some email)
    (free : Free tables first.tenantId pending email)
    (stranded : Stranded tables first pending email passwordHash now
      [redirectCode first pending now] after)
    (expired : pending.expiresAt ≤ later) (usable : later < now + minutes 10) :
    CompletedBy pending first.tenantId [first.drawnCode, retry.drawnCode] later
      (verifyEmail library retry (fun _ => false) after later) := by
  have others : ∀ row ∈ [redirectCode first pending now],
      row.pendingEmailVerificationToken = none := by
    intro row member
    rw [List.mem_singleton.mp member]
    rfl
  rw [verifyEmail_already awaiting sameToken sameTenant stranded others expired]
  have created : verifiedUser first pending email passwordHash now ∈ after.users := by
    rw [stranded.users]
    exact List.mem_append_right tables.users (List.mem_singleton_self _)
  refine ⟨⟨_, rfl, rfl⟩, ⟨_, created, rfl, fun other member => ?_⟩, fun encrypted stored => ?_,
    ⟨redirectCode first pending now, ?_, List.mem_cons_self, rfl, rfl, rfl, usable⟩⟩
  · constructor
    · rintro ⟨tenant, sameEmail⟩
      replace member : other ∈ after.users := member
      rw [stranded.users] at member
      rcases List.mem_append.mp member with old | new
      · exact absurd (.inr ⟨tenant, sameEmail.trans hasEmail⟩) (free other old)
      · exact List.mem_singleton.mp new
    · rintro rfl
      exact ⟨rfl, hasEmail.symm⟩
  · show _ ∈ after.personalKeys
    rw [stranded.personalKeys, pendingKeys, stored]
    exact List.mem_append_right tables.personalKeys (List.mem_singleton_self _)
  · show _ ∈ after.oauthCodes
    rw [stranded.oauthCodes]
    exact List.mem_append_right tables.oauthCodes (List.mem_singleton_self _)

theorem not_completedBy (hasEmail : pending.pendingEmail = some email)
    (hasHash : pending.pendingPasswordHash = some passwordHash)
    (stranded : Stranded tables first pending email passwordHash now codes after)
    (others : ∀ row ∈ codes, row.pendingEmailVerificationToken = none)
    (useless : pending.expiresAt ≤ later → ∀ row ∈ codes, row.expiresAt ≤ later) :
    ¬CompletedBy pending first.tenantId [first.drawnCode, retry.drawnCode] later
      (verifyEmail library retry (fun _ => false) after later) := by
  intro completed
  rcases Nat.lt_or_ge later pending.expiresAt with lasting | expired
  · obtain ⟨error, refused⟩ : ∃ error,
        verifyEmail library retry (fun _ => false) after later = (after, .error error) :=
      verifyEmail_refused awaiting sameToken sameTenant hasEmail hasHash stranded others lasting
    obtain ⟨reply, answered, -⟩ := completed.succeeded
    rw [refused] at answered
    cases answered
  · obtain ⟨row, member, drawn, -, -, -, unexpired⟩ := completed.code
    rw [verifyEmail_already awaiting sameToken sameTenant stranded others expired,
      stranded.oauthCodes] at member
    rcases List.mem_append.mp member with old | new
    · obtain ⟨notFirst, notRetry⟩ := awaiting.fresh row old
      simp [notFirst, notRetry] at drawn
    · exact absurd unexpired (not_lt.mpr (useless expired row new))

end

end

end

/-- When one statement of the OAuth path fails, a retry finds nothing of the attempt or completes it
exactly when no user was created, or the code outlives the registration. -/
theorem verifyEmail_retry_iff {failed : OAuthStatement}
    (awaiting : Awaiting tables first retry now pending)
    (sameToken : retry.token = first.token) (sameTenant : retry.tenantId = first.tenantId) :
    (LeftNothing tables (verifyEmail library first failed.fails tables now).1 ∨
      CompletedBy pending first.tenantId [first.drawnCode, retry.drawnCode] later
        (verifyEmail library retry (fun _ => false)
          (verifyEmail library first failed.fails tables now).1 later)) ↔
      Retryable tables first.tenantId pending failed now later := by
  by_cases early : failed = .findPending ∨ failed = .createUser ∨
      Refused tables first.tenantId pending
  · rw [verifyEmail_leaves awaiting early]
    refine ⟨fun _ => ?_, fun _ => .inl ⟨rfl, rfl, rfl⟩⟩
    rcases early with atFind | atCreate | refused
    · exact .inl atFind
    · exact .inr (.inl atCreate)
    · exact .inr (.inr (.inl refused))
  · obtain ⟨afterFind, afterCreate, accepted⟩ : failed ≠ .findPending ∧ failed ≠ .createUser ∧
        ¬Refused tables first.tenantId pending := by
      simpa only [not_or] using early
    obtain ⟨email, hasEmail⟩ := Option.ne_none_iff_exists'.mp fun none => accepted (.inl none)
    obtain ⟨passwordHash, hasHash⟩ :=
      Option.ne_none_iff_exists'.mp fun none => accepted (.inr (.inl none))
    have free : Free tables first.tenantId pending email := fun user member taken =>
      accepted (.inr (.inr ⟨user, member, hasEmail ▸ taken⟩))
    rw [retryable_iff_expired afterFind afterCreate accepted]
    cases failed with
    | findPending => exact absurd rfl afterFind
    | createUser => exact absurd rfl afterCreate
    | storeCode =>
      have stranded : Stranded tables first pending email passwordHash now []
          (verifyEmail library first OAuthStatement.storeCode.fails tables now).1 :=
        verifyEmail_storeCode_strands awaiting hasEmail hasHash free
      constructor
      · rintro (nothing | completed)
        · exact absurd nothing stranded.not_leftNothing
        · refine absurd completed (not_completedBy awaiting sameToken sameTenant hasEmail hasHash
            stranded ?_ fun _ => ?_) <;> exact fun _ member => nomatch member
      · rintro ⟨atDelete, -⟩
        cases atDelete
    | deletePending =>
      have stranded : Stranded tables first pending email passwordHash now
          [redirectCode first pending now]
          (verifyEmail library first OAuthStatement.deletePending.fails tables now).1 :=
        verifyEmail_deletePending_strands awaiting hasEmail hasHash free
      constructor
      · rintro (nothing | completed)
        · exact absurd nothing stranded.not_leftNothing
        · by_contra stuck
          refine absurd completed (not_completedBy awaiting sameToken sameTenant hasEmail hasHash
            stranded (fun row member => ?_) fun expired row member => ?_)
          · rw [List.mem_singleton.mp member]
            rfl
          · rw [List.mem_singleton.mp member]
            exact not_lt.mp fun usable => stuck ⟨rfl, expired, usable⟩
      · rintro ⟨-, expired, usable⟩
        exact .inr (completedBy_of_code awaiting sameToken sameTenant hasEmail free stranded
          expired usable)

end

/-! ### A registration that cannot be finished -/

/-- A registration that waits for its email to be verified for a day. -/
def pendingRegistration : OAuthCode where
  code := "pending"
  tenantId := 1
  userPubkey := sampleKey 0
  clientId := "client"
  redirectUri := "https://app.example/callback"
  scope := "policy:social"
  expiresAt := hours 24
  codeChallenge := none
  codeChallengeMethod := none
  pendingEmail := some "alice@example.com"
  pendingPasswordHash := some "$2b$alice"
  pendingEmailVerificationToken := some "token"
  pendingEncryptedSecret := some (sampleSecret 1)
  previousAuthId := none
  state := none
  deviceCode := some "device"
  isHeadless := false

def pendingTables : SignupTables := { SignupTables.empty with oauthCodes := [pendingRegistration] }

def sampleVerify (drawnCode : String) : VerifyContext where
  tenantId := 1
  token := "token"
  drawnCode := drawnCode
  redisAnswers := true
  origin := none
  appUrl := none

theorem awaiting_pendingTables :
    Awaiting pendingTables (sampleVerify "first") (sampleVerify "second") 0 pendingRegistration
    where
  found := by decide
  sole := fun _ member _ _ => List.mem_singleton.mp member
  unused _ := nofun
  fresh := fun row member => by
    rw [List.mem_singleton.mp member]
    decide

/-- The attempt that fails in the transaction leaves nothing, an hour later too. -/
theorem verifyEmail_retry_iff_sample :
    LeftNothing pendingTables (verifyEmail sampleSignupLibrary (sampleVerify "first")
        OAuthStatement.createUser.fails pendingTables 0).1 ∨
      CompletedBy pendingRegistration 1 ["first", "second"] (hours 1)
        (verifyEmail sampleSignupLibrary (sampleVerify "second") (fun _ => false)
          (verifyEmail sampleSignupLibrary (sampleVerify "first")
            OAuthStatement.createUser.fails pendingTables 0).1 (hours 1)) :=
  (verifyEmail_retry_iff awaiting_pendingTables rfl rfl).mpr (.inr (.inl rfl))

/-- When the code is not stored, the user is left without one, and the retry is refused. -/
theorem verifyEmail_stranded :
    ¬(LeftNothing pendingTables (verifyEmail sampleSignupLibrary (sampleVerify "first")
        OAuthStatement.storeCode.fails pendingTables 0).1 ∨
      CompletedBy pendingRegistration 1 ["first", "second"] (hours 1)
        (verifyEmail sampleSignupLibrary (sampleVerify "second") (fun _ => false)
          (verifyEmail sampleSignupLibrary (sampleVerify "first")
            OAuthStatement.storeCode.fails pendingTables 0).1 (hours 1))) := by
  have free : Free pendingTables 1 pendingRegistration "alice@example.com" :=
    fun _ => nofun
  have stranded : Stranded pendingTables (sampleVerify "first") pendingRegistration
      "alice@example.com" "$2b$alice" 0 []
      (verifyEmail sampleSignupLibrary (sampleVerify "first")
        OAuthStatement.storeCode.fails pendingTables 0).1 :=
    verifyEmail_storeCode_strands awaiting_pendingTables rfl rfl free
  rintro (⟨same, -⟩ | completed)
  · rw [stranded.users] at same
    cases same
  · obtain ⟨error, refused⟩ : ∃ error, verifyEmail sampleSignupLibrary (sampleVerify "second")
        (fun _ => false) (verifyEmail sampleSignupLibrary (sampleVerify "first")
          OAuthStatement.storeCode.fails pendingTables 0).1 (hours 1) =
        ((verifyEmail sampleSignupLibrary (sampleVerify "first")
          OAuthStatement.storeCode.fails pendingTables 0).1, .error error) :=
      verifyEmail_refused awaiting_pendingTables rfl rfl rfl rfl stranded
        (fun _ => nofun) (by decide)
    obtain ⟨reply, answered, -⟩ := completed.succeeded
    rw [refused] at answered
    cases answered

end Divine.Keycast
