/-
This file proves what the one guarded update keeps over every interleaving of claims: an
account and a token have at most one claimant whose request succeeds, and the account then
holds the credentials of that claimant.
-/

import Divine.Keycast.Claiming

namespace Divine.Keycast

open List Option Fallible Interleaving Table

/-! ### What one statement does -/

inductive ClaimEffect (library : ClaimLibrary) (context : ClaimContext) (tables : ClaimTables)
    (now : DateTime) :
    ClaimStage → ClaimTables → Except ClaimError (ClaimStage ⊕ ClaimReply) → Prop where
  | refused {stage : ClaimStage} (error : ClaimError) :
      ClaimEffect library context tables now stage tables (.error error)
  | found {claimToken : ClaimToken}
      (valid : tables.findValid context.form.token now = some claimToken) :
      ClaimEffect library context tables now .findValid tables
        (.ok (.inl (.emailExists claimToken)))
  | hashed {claimToken : ClaimToken} {passwordHash : String}
      (computed : library.signup.hash context.form.password context.salt = .ok passwordHash) :
      ClaimEffect library context tables now (.emailExists claimToken) tables
        (.ok (.inl (.claimAccount claimToken passwordHash)))
  | claimed {claimToken : ClaimToken} {passwordHash : String} {after : ClaimTables}
      (updated : tables.claimAccount claimToken.userPubkey context.tenantId
        (claimEmail library context) passwordHash = .ok after) :
      ClaimEffect library context tables now (.claimAccount claimToken passwordHash) after
        (.ok (.inl (.markUsed claimToken)))
  | stranded {claimToken : ClaimToken} {error : ClaimError}
      (failed : createSession library context claimToken = .error error) :
      ClaimEffect library context tables now (.markUsed claimToken)
        (tables.markUsed context.form.token now) (.error error)
  | finished {claimToken : ClaimToken} {reply : ClaimReply}
      (created : createSession library context claimToken = .ok reply) :
      ClaimEffect library context tables now (.markUsed claimToken)
        (tables.markUsed context.form.token now) (.ok (.inr reply))

section

variable {library : ClaimLibrary} {context : ClaimContext} {tables after : ClaimTables}
  {now : DateTime}

theorem claimStatement_effect (stage : ClaimStage) :
    ClaimEffect library context tables now stage
      (claimStatement library context tables now stage).1
      (claimStatement library context tables now stage).2 := by
  cases stage with
  | findValid =>
    cases outcome : (claimStatement library context tables now .findValid).2 with
    | error error => exact .refused error
    | ok next =>
      obtain ⟨-, -, remaining⟩ := bind_eq_ok.mp outcome
      obtain ⟨claimToken, valid, remaining⟩ := bind_eq_ok.mp remaining
      obtain ⟨-, -, reached⟩ := bind_eq_ok.mp remaining
      rw [← pure_eq_ok.mp reached]
      exact .found (okOr_eq_ok.mp valid)
  | emailExists claimToken =>
    cases outcome : (claimStatement library context tables now (.emailExists claimToken)).2 with
    | error error => exact .refused error
    | ok next =>
      obtain ⟨-, -, remaining⟩ := bind_eq_ok.mp outcome
      obtain ⟨-, -, remaining⟩ := bind_eq_ok.mp remaining
      obtain ⟨passwordHash, computed, reached⟩ := bind_eq_ok.mp remaining
      rw [← pure_eq_ok.mp reached]
      exact .hashed (mapError_eq_ok.mp computed)
  | claimAccount claimToken passwordHash =>
    simp only [claimStatement]
    split
    · exact .refused _
    · exact .refused _
    · rename_i updated
      exact .claimed updated
  | markUsed claimToken =>
    simp only [claimStatement]
    split
    · exact .refused _
    · cases created : createSession library context claimToken with
      | error error => exact .stranded created
      | ok reply => exact .finished created

/-! ### Accounts and tokens -/

def Named (tables : ClaimTables) (context : ClaimContext) (pubkey : String) : Prop :=
  ∃ row ∈ tables.claimTokens, row.token = context.form.token ∧ row.userPubkey = pubkey

structure Credentials (library : ClaimLibrary) (context : ClaimContext) (user : SignupUser) :
    Prop where
  tenant : user.tenantId = context.tenantId
  email : user.email = some (claimEmail library context)
  verified : user.emailVerified = true
  hash : ∃ passwordHash, user.passwordHash = some passwordHash ∧
    library.signup.hash context.form.password context.salt = .ok passwordHash

/-- The account with the key has the credentials of the claim. -/
def Holds (library : ClaimLibrary) (tables : ClaimTables) (context : ClaimContext)
    (pubkey : String) : Prop :=
  ∃ user ∈ tables.users, user.pubkey = pubkey ∧ Credentials library context user

theorem Named.unique {first second : String} (named : Named tables context first)
    (other : Named tables context second) : first = second := by
  obtain ⟨row, member, own, rfl⟩ := named
  obtain ⟨row', member', own', rfl⟩ := other
  rw [tables.tokensKeyed.eq_of_key member member' (own.trans own'.symm)]

theorem findValid_named {claimToken : ClaimToken}
    (valid : tables.findValid context.form.token now = some claimToken) :
    Named tables context claimToken.userPubkey := by
  have condition := selectOne_condition valid
  rw [Bool.and_eq_true, Bool.and_eq_true, decide_eq_true_eq] at condition
  exact ⟨claimToken, selectOne_mem valid, condition.1.1, rfl⟩

theorem named_markUsed (token : String) (now : DateTime) (pubkey : String) :
    Named (tables.markUsed token now) context pubkey ↔ Named tables context pubkey := by
  have kept : ∀ row, (updateRow (ClaimTables.unused token) (ClaimTables.use now) row).token =
      row.token := by
    apply updateRow_column
    intro _
    rfl
  have owned : ∀ row, (updateRow (ClaimTables.unused token)
      (ClaimTables.use now) row).userPubkey = row.userPubkey := by
    apply updateRow_column
    intro _
    rfl
  constructor
  · rintro ⟨row, member, own, mine⟩
    obtain ⟨old, present, rfl⟩ := mem_update.mp member
    rw [kept] at own
    rw [owned] at mine
    exact ⟨old, present, own, mine⟩
  · rintro ⟨row, member, own, mine⟩
    refine ⟨_, mem_update.mpr ⟨row, member, rfl⟩, ?_, ?_⟩
    · rw [kept, own]
    · rw [owned, mine]

theorem claimAccount_eq_ok {pubkey email passwordHash : String} {tenantId : Int}
    (updated : tables.claimAccount pubkey tenantId email passwordHash = .ok after) :
    (∃ user ∈ tables.users, ClaimTables.unclaimed pubkey tenantId user = true) ∧
      after.users = update tables.users (ClaimTables.unclaimed pubkey tenantId)
        (ClaimTables.claim email passwordHash) ∧ after.claimTokens = tables.claimTokens := by
  unfold ClaimTables.claimAccount at updated
  by_cases none : affected tables.users (ClaimTables.unclaimed pubkey tenantId) = 0
  · rw [if_pos none] at updated
    cases updated
  · rw [if_neg none] at updated
    split at updated
    · cases updated
    · rw [← Except.ok.inj updated]
      exact ⟨countP_pos_iff.mp (Nat.pos_of_ne_zero none), rfl, rfl⟩

theorem unclaimed_iff {pubkey : String} {tenantId : Int} {user : SignupUser} :
    ClaimTables.unclaimed pubkey tenantId user = true ↔
      user.pubkey = pubkey ∧ user.tenantId = tenantId ∧ user.email = none := by
  unfold ClaimTables.unclaimed SignupTables.ofUser
  rw [Bool.and_eq_true, Bool.and_eq_true, decide_eq_true_eq, decide_eq_true_eq, and_assoc,
    isNone_iff_eq_none]

/-- Every token names its account and claimed accounts keep their credentials, at any statement. -/
structure Keeps (library : ClaimLibrary) (tables after : ClaimTables) : Prop where
  named : ∀ context pubkey, Named after context pubkey ↔ Named tables context pubkey
  holds : ∀ context pubkey, Holds library tables context pubkey →
    Holds library after context pubkey

theorem claimAccount_keeps {pubkey email passwordHash : String} {tenantId : Int}
    (updated : tables.claimAccount pubkey tenantId email passwordHash = .ok after) :
    Keeps library tables after := by
  obtain ⟨-, users, claimTokens⟩ := claimAccount_eq_ok updated
  refine ⟨fun context other => ?_, ?_⟩
  · unfold Named
    rw [claimTokens]
  · rintro context other ⟨user, member, own, credentials⟩
    refine ⟨user, ?_, own, credentials⟩
    rw [users]
    refine mem_update.mpr ⟨user, member, updateRow_of_not ?_⟩
    refine Bool.eq_false_of_not_eq_true fun inside => ?_
    -- the update leaves an account that has an email
    have empty := (unclaimed_iff.mp inside).2.2
    rw [credentials.email] at empty
    cases empty

theorem markUsed_keeps (token : String) :
    Keeps library tables (tables.markUsed token now) :=
  ⟨fun _ pubkey => named_markUsed token now pubkey, fun _ _ held => held⟩

theorem Keeps.refl : Keeps library tables tables := ⟨fun _ _ => Iff.rfl, fun _ _ held => held⟩

variable {stage : ClaimStage} {outcome : Except ClaimError (ClaimStage ⊕ ClaimReply)}

theorem ClaimEffect.keeps (effect : ClaimEffect library context tables now stage after outcome) :
    Keeps library tables after := by
  cases effect with
  | refused | found | hashed => exact .refl
  | claimed updated => exact claimAccount_keeps updated
  | stranded | finished => exact markUsed_keeps _

theorem claimAccount_holds {claimToken : ClaimToken} {passwordHash : String}
    (computed : library.signup.hash context.form.password context.salt = .ok passwordHash)
    (updated : tables.claimAccount claimToken.userPubkey context.tenantId
      (claimEmail library context) passwordHash = .ok after) :
    Holds library after context claimToken.userPubkey := by
  obtain ⟨⟨user, member, unclaimed⟩, users, -⟩ := claimAccount_eq_ok updated
  obtain ⟨own, tenant, -⟩ := unclaimed_iff.mp unclaimed
  refine ⟨ClaimTables.claim (claimEmail library context) passwordHash user, ?_, own, tenant, rfl,
    rfl, passwordHash, rfl, computed⟩
  rw [users]
  exact mem_update.mpr ⟨user, member, updateRow_of unclaimed⟩

/-! ### Assertions of claims -/

def StageHolds (library : ClaimLibrary) (tables : ClaimTables) (context : ClaimContext) :
    ClaimStage → Prop
  | .findValid => True
  | .emailExists claimToken => Named tables context claimToken.userPubkey
  | .claimAccount claimToken passwordHash => Named tables context claimToken.userPubkey ∧
      library.signup.hash context.form.password context.salt = .ok passwordHash
  | .markUsed claimToken => Named tables context claimToken.userPubkey ∧
      Holds library tables context claimToken.userPubkey

theorem Keeps.stageHolds (keeps : Keeps library tables after)
    (holds : StageHolds library tables context stage) :
    StageHolds library after context stage := by
  cases stage with
  | findValid => trivial
  | emailExists claimToken => exact (keeps.named _ _).mpr holds
  | claimAccount claimToken passwordHash => exact ⟨(keeps.named _ _).mpr holds.1, holds.2⟩
  | markUsed claimToken => exact ⟨(keeps.named _ _).mpr holds.1, keeps.holds _ _ holds.2⟩

theorem ClaimEffect.stageHolds {next : ClaimStage}
    (effect : ClaimEffect library context tables now stage after (.ok (.inl next)))
    (holds : StageHolds library tables context stage) : StageHolds library after context next := by
  cases effect with
  | found valid => exact findValid_named valid
  | hashed computed => exact ⟨holds, computed⟩
  | claimed updated =>
    have keeps : Keeps library tables after := claimAccount_keeps updated
    exact ⟨(keeps.named _ _).mpr holds.1, claimAccount_holds holds.2 updated⟩

end

/-! ### Interleavings -/

section

variable {library : ClaimLibrary}

def ClaimAnswer.succeeded (answer : ClaimAnswer) : Bool := answer.result.isOk

/-- The account of every successful claim holds its credentials. -/
def Credited (library : ClaimLibrary) (state : ClaimState) : Prop :=
  ∀ answer ∈ state.answers, answer.succeeded = true → ∃ pubkey,
    Named state.tables answer.context pubkey ∧ Holds library state.tables answer.context pubkey

def ClaimHolds (library : ClaimLibrary) (state : ClaimState) (call : ClaimCall) : Prop :=
  StageHolds library state.tables call.context call.stage

theorem advanceClaim_effect (library : ClaimLibrary) (state : ClaimState) (call : ClaimCall) :
    ∃ after outcome,
      ClaimEffect library call.context state.tables state.now call.stage after outcome ∧
        advanceClaim library state call = state.follow call.context after outcome :=
  ⟨_, _, claimStatement_effect call.stage, rfl⟩

theorem follow_tables (state : ClaimState) (context : ClaimContext) (after : ClaimTables)
    (outcome : Except ClaimError (ClaimStage ⊕ ClaimReply)) :
    (state.follow context after outcome).1.tables = after := by
  rcases outcome with error | next | reply <;> rfl

theorem Keeps.credited {state : ClaimState} {after : ClaimTables}
    (keeps : Keeps library state.tables after) (credited : Credited library state) :
    ∀ answer ∈ state.answers, answer.succeeded = true → ∃ pubkey,
      Named after answer.context pubkey ∧ Holds library after answer.context pubkey := by
  intro answer member succeeded
  obtain ⟨pubkey, named, held⟩ := credited answer member succeeded
  exact ⟨pubkey, (keeps.named _ _).mpr named, keeps.holds _ _ held⟩

theorem credited_follow {state : ClaimState} {context : ClaimContext} {stage : ClaimStage}
    {after : ClaimTables} {outcome : Except ClaimError (ClaimStage ⊕ ClaimReply)}
    (effect : ClaimEffect library context state.tables state.now stage after outcome)
    (known : StageHolds library state.tables context stage) (credited : Credited library state) :
    Credited library (state.follow context after outcome).1 := by
  have earlier := effect.keeps.credited credited
  rcases outcome with error | next | reply
  · intro answer member succeeded
    rcases mem_cons.mp member with rfl | before
    · cases succeeded
    · exact earlier answer before succeeded
  · exact earlier
  · intro answer member succeeded
    rcases mem_cons.mp member with rfl | before
    · cases effect with
      | finished created =>
        exact ⟨_, (named_markUsed context.form.token state.now _).mpr known.1, known.2⟩
    · exact earlier answer before succeeded
variable {action : Action ClaimCall Nat}


theorem poolStep_asserted {pool next : ClaimPool}
    (asserted : Asserted (Credited library) (ClaimHolds library) pool)
    (stepped : poolStep (claimSystem library) pool action = some next) :
    Asserted (Credited library) (ClaimHolds library) next := by
  refine Asserted.step (claimSystem library) asserted ?_ ?_ ?_ stepped
  · rintro call - starts
    have first : call.stage = .findValid := of_decide_eq_true starts
    show StageHolds library pool.shared.tables call.context call.stage
    rw [first]
    trivial
  · rintro index call - present
    obtain ⟨after, outcome, effect, advanced⟩ :=
      advanceClaim_effect library pool.shared call
    have known : StageHolds library pool.shared.tables call.context call.stage :=
      asserted.calls call (mem_of_getElem? present)
    show Credited library (advanceClaim library pool.shared call).1 ∧
      (∀ stage, (advanceClaim library pool.shared call).2 = some stage →
        ClaimHolds library (advanceClaim library pool.shared call).1 stage) ∧
      ∀ other ∈ pool.calls.eraseIdx index,
        ClaimHolds library (advanceClaim library pool.shared call).1 other
    rw [advanced]
    refine ⟨credited_follow effect known asserted.common, ?_, fun other member => ?_⟩
    · rcases outcome with error | next | reply
      · rintro stage ⟨⟩
      · rintro stage ⟨⟩
        exact effect.stageHolds known
      · rintro stage ⟨⟩
    · unfold ClaimHolds
      rw [follow_tables]
      exact effect.keeps.stageHolds (asserted.calls other (mem_of_mem_eraseIdx member))
  · rintro event shared - moved
    rw [← Option.some.inj moved]
    exact ⟨asserted.common, asserted.calls⟩

/-! ### One success an account -/

instance (tables : ClaimTables) (context : ClaimContext) (pubkey : String) :
    Decidable (Named tables context pubkey) :=
  inferInstanceAs (Decidable (∃ row ∈ tables.claimTokens,
    row.token = context.form.token ∧ row.userPubkey = pubkey))

def ClaimAnswer.succeededFor (tables : ClaimTables) (pubkey : String) (answer : ClaimAnswer) :
    Bool :=
  answer.succeeded && decide (Named tables answer.context pubkey)

def emailless (pubkey : String) (user : SignupUser) : Bool :=
  user.pubkey = pubkey && user.email.isNone

/-- The successes for an account, and one more while it can be claimed. -/
def openClaims (pubkey : String) (state : ClaimState) : Nat :=
  state.answers.countP (ClaimAnswer.succeededFor state.tables pubkey) +
    affected state.tables.users (emailless pubkey)

/-- A claim that has updated the account counts as a success to come. -/
def claimWeight (pubkey : String) (call : ClaimCall) : Nat :=
  match call.stage with
  | .markUsed claimToken => if claimToken.userPubkey = pubkey then 1 else 0
  | _ => 0

theorem claimWeight_markUsed (pubkey : String) (context : ClaimContext) (claimToken : ClaimToken) :
    claimWeight pubkey ⟨context, .markUsed claimToken⟩ =
      if claimToken.userPubkey = pubkey then 1 else 0 := rfl

theorem emailless_claim (email passwordHash : String) (pubkey : String) (user : SignupUser) :
    emailless pubkey (ClaimTables.claim email passwordHash user) = false :=
  Bool.and_false _

theorem emailless_updateRow {pubkey : String} {condition : SignupUser → Bool}
    {email passwordHash : String} {user : SignupUser}
    (after : emailless pubkey (updateRow condition (ClaimTables.claim email passwordHash) user) =
      true) : emailless pubkey user = true := by
  by_cases inside : condition user = true
  · rw [updateRow_of inside, emailless_claim] at after
    cases after
  · rw [updateRow_of_not (Bool.eq_false_of_not_eq_true inside)] at after
    exact after

theorem affected_claimAccount {tables after : ClaimTables} {account email passwordHash : String}
    {tenantId : Int}
    (updated : tables.claimAccount account tenantId email passwordHash = .ok after)
    (pubkey : String) :
    affected after.users (emailless pubkey) + (if account = pubkey then 1 else 0) ≤
      affected tables.users (emailless pubkey) := by
  obtain ⟨⟨user, member, unclaimed⟩, users, -⟩ := claimAccount_eq_ok updated
  rw [users]
  by_cases own : account = pubkey
  · rw [if_pos own]
    refine affected_update_lt (fun _ _ => emailless_updateRow) member ?_ ?_
    · obtain ⟨mine, -, empty⟩ := unclaimed_iff.mp unclaimed
      unfold emailless
      rw [mine, own, empty, decide_eq_true rfl]
      rfl
    · rw [updateRow_of unclaimed, emailless_claim]
  · rw [if_neg own]
    exact affected_update_le fun _ _ => emailless_updateRow

theorem succeededFor_keeps {tables after : ClaimTables} (keeps : Keeps library tables after)
    (pubkey : String) :
    ClaimAnswer.succeededFor after pubkey = ClaimAnswer.succeededFor tables pubkey := by
  funext answer
  unfold ClaimAnswer.succeededFor
  rw [decide_eq_decide.mpr (keeps.named answer.context pubkey)]

theorem follow_openClaims {state : ClaimState} {context : ClaimContext} {stage : ClaimStage}
    {after : ClaimTables} {outcome : Except ClaimError (ClaimStage ⊕ ClaimReply)}
    (effect : ClaimEffect library context state.tables state.now stage after outcome)
    (known : StageHolds library state.tables context stage) (pubkey : String) :
    openClaims pubkey (state.follow context after outcome).1 +
        weightOf (claimWeight pubkey) (state.follow context after outcome).2 ≤
      openClaims pubkey state + claimWeight pubkey ⟨context, stage⟩ := by
  have same := succeededFor_keeps effect.keeps pubkey
  unfold openClaims
  cases effect with
  | refused error =>
    show countP (ClaimAnswer.succeededFor state.tables pubkey)
      (⟨context, .error error⟩ :: state.answers) + affected state.tables.users _ + 0 ≤ _
    rw [countP_cons_of_neg (by exact Bool.false_ne_true)]
    omega
  | found | hashed => exact Nat.le_refl _
  | @claimed claimToken passwordHash after updated =>
    have closes := affected_claimAccount updated pubkey
    show countP (ClaimAnswer.succeededFor after pubkey) state.answers +
      affected after.users (emailless pubkey) + claimWeight pubkey ⟨context, .markUsed claimToken⟩ ≤
        _ + 0
    rw [same, claimWeight_markUsed]
    omega
  | stranded failed =>
    show countP (ClaimAnswer.succeededFor (state.tables.markUsed context.form.token state.now)
      pubkey) (⟨context, .error _⟩ :: state.answers) + affected state.tables.users _ + 0 ≤ _
    rw [same, countP_cons_of_neg (by exact Bool.false_ne_true)]
    omega
  | @finished claimToken reply created =>
    show countP (ClaimAnswer.succeededFor (state.tables.markUsed context.form.token state.now)
      pubkey) (⟨context, .ok reply⟩ :: state.answers) + affected state.tables.users _ + 0 ≤ _
    rw [same, countP_cons, claimWeight_markUsed]
    by_cases own : claimToken.userPubkey = pubkey
    · rw [if_pos own]
      split <;> omega
    · -- the claim's token names another account
      have other : ¬Named state.tables context pubkey := fun named => own (known.1.unique named)
      rw [if_neg own, if_neg]
      · omega
      · show ¬(true && decide (Named state.tables context pubkey)) = true
        rw [decide_eq_false other]
        exact Bool.false_ne_true

theorem poolStep_openClaims {pool next : ClaimPool} {pubkey : String}
    (asserted : Asserted (Credited library) (ClaimHolds library) pool)
    (bounded : Bounded (openClaims pubkey) (fun _ => 1) (claimWeight pubkey) pool)
    (stepped : poolStep (claimSystem library) pool action = some next) :
    Bounded (openClaims pubkey) (fun _ => 1) (claimWeight pubkey) next := by
  refine Bounded.step (claimSystem library) bounded ?_ ?_ ?_ stepped
  · rintro call - starts
    have first : call.stage = .findValid := of_decide_eq_true starts
    unfold claimWeight
    rw [first]
  · rintro index call - present
    obtain ⟨after, outcome, effect, advanced⟩ := advanceClaim_effect library pool.shared call
    have known : StageHolds library pool.shared.tables call.context call.stage :=
      asserted.calls call (mem_of_getElem? present)
    show openClaims pubkey (advanceClaim library pool.shared call).1 +
      weightOf (claimWeight pubkey) (advanceClaim library pool.shared call).2 + 1 ≤ _
    rw [advanced]
    exact Nat.add_le_add_right (follow_openClaims effect known pubkey) 1
  · rintro event shared - moved
    rw [← Option.some.inj moved]
    exact Nat.le_refl _

/-! ### What failed claims leave -/

def Unfailed (pool : ClaimPool) (context : ClaimContext) : Prop :=
  (∃ answer ∈ pool.shared.answers, answer.succeeded = true ∧ answer.context = context) ∨
    ∃ claimToken, (⟨context, .markUsed claimToken⟩ : ClaimCall) ∈ pool.calls

/-- No failed claim is behind the credentials of an account or the use of a token. -/
structure Unspoiled (library : ClaimLibrary) (start : ClaimTables) (pool : ClaimPool) : Prop where
  users : ∀ user ∈ pool.shared.tables.users, user ∈ start.users ∨
    ∃ context, Unfailed pool context ∧ Named pool.shared.tables context user.pubkey ∧
      Credentials library context user
  claimTokens : ∀ row ∈ pool.shared.tables.claimTokens, row ∈ start.claimTokens ∨
    ∃ answer ∈ pool.shared.answers, answer.succeeded = true ∧
      answer.context.form.token = row.token

/-- The database marks the token, and the claim gets a session by well-formed and signing keys. -/
structure SessionAvailable (library : ClaimLibrary) (context : ClaimContext)
    (claimToken : ClaimToken) : Prop where
  marks : ∀ error, context.fault ≠ some (.markUsed, error)
  session : ∃ userPubkey serverNsec serverKeys token,
    library.signup.oauth.crypto.publicKeyFromHex claimToken.userPubkey = .ok userPubkey ∧
      context.serverNsec = some serverNsec ∧
        library.signup.oauth.parseKeys serverNsec = .ok serverKeys ∧
          library.generateServerSignedUcan userPubkey context.tenantId
            (claimEmail library context) "claim" none serverKeys false none = .ok token

/-- A claim past the update of the account is not about to fail. -/
def FinishesClaim (library : ClaimLibrary) (call : ClaimCall) : Prop :=
  ∀ claimToken, call.stage = .markUsed claimToken →
    SessionAvailable library call.context claimToken

/-- No claim past the update of its account fails in this step. -/
def FinishesClaims (library : ClaimLibrary) (pool : ClaimPool) : Action ClaimCall Nat → Prop
  | .start _ | .environment _ => True
  | .step index => ∀ call, pool.calls[index]? = some call → FinishesClaim library call

theorem SessionAvailable.answered {context : ClaimContext} {claimToken : ClaimToken}
    (available : SessionAvailable library context claimToken) :
    context.answered .markUsed = .ok () := by
  unfold ClaimContext.answered
  split
  · rfl
  · rename_i failing error faulty
    refine require_eq_ok.mpr (decide_eq_true fun same => ?_)
    exact available.marks error (same ▸ faulty)

theorem SessionAvailable.created {context : ClaimContext} {claimToken : ClaimToken}
    (available : SessionAvailable library context claimToken) :
    ∃ reply, createSession library context claimToken = .ok reply := by
  obtain ⟨userPubkey, serverNsec, serverKeys, token, parsed, configured, loaded, signed⟩ :=
    available.session
  have keys : getServerKeys library context = .ok serverKeys := by
    unfold getServerKeys
    rw [configured]
    exact mapError_eq_ok.mpr loaded
  unfold createSession
  rw [parsed, keys]
  show ∃ reply, Except.bind (Except.mapError _ (library.generateServerSignedUcan userPubkey
    context.tenantId (claimEmail library context) "claim" none serverKeys false none)) _ =
      .ok reply
  rw [signed]
  exact ⟨_, rfl⟩

theorem claimStatement_available {context : ClaimContext} (tables : ClaimTables) (now : DateTime)
    {claimToken : ClaimToken} (available : SessionAvailable library context claimToken) :
    ∃ reply, claimStatement library context tables now (.markUsed claimToken) =
      (tables.markUsed context.form.token now, .ok (.inr reply)) := by
  obtain ⟨reply, created⟩ := available.created
  refine ⟨reply, ?_⟩
  simp only [claimStatement, available.answered, created]
  rfl

theorem advanceClaim_finishes (state : ClaimState) {call : ClaimCall}
    (finishes : FinishesClaim library call) :
    ∃ after outcome,
      ClaimEffect library call.context state.tables state.now call.stage after outcome ∧
        advanceClaim library state call = state.follow call.context after outcome ∧
        ∀ claimToken, call.stage = .markUsed claimToken → ∃ reply, outcome = .ok (.inr reply) := by
  refine ⟨_, _, claimStatement_effect call.stage, rfl, fun claimToken marks => ?_⟩
  obtain ⟨reply, statement⟩ := claimStatement_available state.tables state.now
    (finishes claimToken marks)
  rw [marks, statement]
  exact ⟨reply, rfl⟩

theorem follow_answers (state : ClaimState) (context : ClaimContext) (after : ClaimTables)
    (outcome : Except ClaimError (ClaimStage ⊕ ClaimReply)) :
    state.answers ⊆ (state.follow context after outcome).1.answers := by
  rcases outcome with error | next | reply
  · exact subset_cons_self _ _
  · exact List.Subset.refl _
  · exact subset_cons_self _ _

section

variable {pool : ClaimPool} {index : Nat} {call : ClaimCall} {after : ClaimTables}
  {outcome : Except ClaimError (ClaimStage ⊕ ClaimReply)}

def followed (pool : ClaimPool) (index : Nat) (context : ClaimContext) (after : ClaimTables)
    (outcome : Except ClaimError (ClaimStage ⊕ ClaimReply)) : ClaimPool :=
  ⟨(pool.shared.follow context after outcome).1,
    proceed pool.calls index (pool.shared.follow context after outcome).2⟩

theorem unfailed_followed (present : pool.calls[index]? = some call)
    (finished : ∀ claimToken, call.stage = .markUsed claimToken →
      ∃ reply, outcome = .ok (.inr reply))
    {context : ClaimContext} (unfailed : Unfailed pool context) :
    Unfailed (followed pool index call.context after outcome) context := by
  rcases unfailed with ⟨answer, member, succeeded, own⟩ | ⟨claimToken, member⟩
  · exact .inl ⟨answer, follow_answers _ _ _ _ member, succeeded, own⟩
  · rcases mem_proceed_of_mem member index
      (pool.shared.follow call.context after outcome).2 with advances | stays
    · rw [advances] at present
      cases present
      obtain ⟨reply, rfl⟩ := finished claimToken rfl
      exact .inl ⟨⟨context, .ok reply⟩, mem_cons_self, rfl, rfl⟩
    · exact .inr ⟨claimToken, stays⟩

theorem users_followed (present : pool.calls[index]? = some call)
    (effect : ClaimEffect library call.context pool.shared.tables pool.shared.now call.stage after
      outcome)
    (known : StageHolds library pool.shared.tables call.context call.stage)
    {user : SignupUser} (member : user ∈ after.users) :
    user ∈ pool.shared.tables.users ∨
      Unfailed (followed pool index call.context after outcome) call.context ∧
        Named after call.context user.pubkey ∧ Credentials library call.context user := by
  obtain ⟨context, stage⟩ := call
  cases effect with
  | refused | found | hashed => exact .inl member
  | @claimed claimToken passwordHash after updated =>
    have keeps : Keeps library pool.shared.tables after := claimAccount_keeps updated
    obtain ⟨-, users, -⟩ := claimAccount_eq_ok updated
    rw [users] at member
    obtain ⟨old, before, rfl⟩ := mem_update.mp member
    by_cases unclaimed : ClaimTables.unclaimed claimToken.userPubkey context.tenantId old = true
    · obtain ⟨own, tenant, -⟩ := unclaimed_iff.mp unclaimed
      rw [updateRow_of unclaimed]
      refine .inr ⟨.inr ⟨claimToken, mem_proceed_next present _⟩, ?_, tenant, rfl, rfl,
        passwordHash, rfl, known.2⟩
      show Named after context old.pubkey
      rw [own]
      exact (keeps.named _ _).mpr known.1
    · rw [updateRow_of_not (Bool.eq_false_of_not_eq_true unclaimed)]
      exact .inl before
  | stranded | finished => exact .inl member

theorem claimTokens_followed
    (effect : ClaimEffect library call.context pool.shared.tables pool.shared.now call.stage after
      outcome)
    (finished : ∀ claimToken, call.stage = .markUsed claimToken →
      ∃ reply, outcome = .ok (.inr reply))
    {row : ClaimToken} (member : row ∈ after.claimTokens) :
    row ∈ pool.shared.tables.claimTokens ∨
      ∃ answer ∈ (followed pool index call.context after outcome).shared.answers,
        answer.succeeded = true ∧ answer.context.form.token = row.token := by
  obtain ⟨context, stage⟩ := call
  cases effect with
  | refused | found | hashed => exact .inl member
  | claimed updated =>
    rw [(claimAccount_eq_ok updated).2.2] at member
    exact .inl member
  | stranded failed =>
    obtain ⟨reply, impossible⟩ := finished _ rfl
    cases impossible
  | @finished claimToken reply created =>
    obtain ⟨old, before, rfl⟩ := mem_update.mp member
    by_cases unused : ClaimTables.unused context.form.token old = true
    · refine .inr ⟨⟨context, .ok reply⟩, mem_cons_self, rfl, ?_⟩
      rw [updateRow_of unused]
      exact (of_decide_eq_true (Bool.and_eq_true_iff.mp unused).1).symm
    · rw [updateRow_of_not (Bool.eq_false_of_not_eq_true unused)]
      exact .inl before

theorem unspoiled_followed {start : ClaimTables} (unspoiled : Unspoiled library start pool)
    (present : pool.calls[index]? = some call)
    (effect : ClaimEffect library call.context pool.shared.tables pool.shared.now call.stage after
      outcome)
    (known : StageHolds library pool.shared.tables call.context call.stage)
    (finished : ∀ claimToken, call.stage = .markUsed claimToken →
      ∃ reply, outcome = .ok (.inr reply)) :
    Unspoiled library start (followed pool index call.context after outcome) := by
  have tables : (followed pool index call.context after outcome).shared.tables = after :=
    follow_tables _ _ _ _
  constructor
  · intro user member
    rw [tables] at member ⊢
    rcases users_followed present effect known member with before | changed
    · rcases unspoiled.users user before with untouched | ⟨context, unfailed, named, own⟩
      · exact .inl untouched
      · exact .inr ⟨context, unfailed_followed present finished unfailed,
          (effect.keeps.named _ _).mpr named, own⟩
    · exact .inr ⟨call.context, changed⟩
  · intro row member
    rw [tables] at member
    rcases claimTokens_followed effect finished member with before | used
    · rcases unspoiled.claimTokens row before with untouched | ⟨answer, given, succeeded, own⟩
      · exact .inl untouched
      · exact .inr ⟨answer, follow_answers _ _ _ _ given, succeeded, own⟩
    · exact .inr used

end

theorem poolStep_unspoiled {start : ClaimTables} {pool next : ClaimPool}
    (asserted : Asserted (Credited library) (ClaimHolds library) pool)
    (unspoiled : Unspoiled library start pool) (finishes : FinishesClaims library pool action)
    (stepped : poolStep (claimSystem library) pool action = some next) :
    Unspoiled library start next := by
  cases action with
  | start call =>
    simp only [poolStep] at stepped
    split at stepped
    · cases stepped
      refine ⟨fun user member => ?_, unspoiled.claimTokens⟩
      rcases unspoiled.users user member with untouched | ⟨context, unfailed, changed⟩
      · exact .inl untouched
      · refine .inr ⟨context, ?_, changed⟩
        rcases unfailed with succeeded | ⟨claimToken, under⟩
        · exact .inl succeeded
        · exact .inr ⟨claimToken, mem_append_left _ under⟩
    · cases stepped
  | step index =>
    obtain ⟨call, present, rfl⟩ := map_eq_some_iff.mp stepped
    obtain ⟨after, outcome, effect, advanced, finished⟩ :=
      advanceClaim_finishes pool.shared (finishes call present)
    have known : StageHolds library pool.shared.tables call.context call.stage :=
      asserted.calls call (mem_of_getElem? present)
    show Unspoiled library start ⟨(advanceClaim library pool.shared call).1,
      proceed pool.calls index (advanceClaim library pool.shared call).2⟩
    rw [advanced]
    exact unspoiled_followed unspoiled present effect known finished
  | environment duration =>
    have moved : some (⟨{ pool.shared with now := pool.shared.now + duration }, pool.calls⟩ :
      ClaimPool) = some next := stepped
    rw [← Option.some.inj moved]
    exact ⟨unspoiled.users, unspoiled.claimTokens⟩

/-! ### Exclusivity -/

/-- An account has at most one successful claim and so has a token, such an account has its
credentials, and failed claims left no trace. -/
structure Exclusive (library : ClaimLibrary) (start : ClaimTables) (pool : ClaimPool) : Prop where
  account : ∀ pubkey, pool.shared.answers.countP
    (ClaimAnswer.succeededFor pool.shared.tables pubkey) ≤ 1
  credited : Credited library pool.shared
  token : ∀ token, (pool.shared.answers.countP fun answer =>
    answer.succeeded && answer.context.form.token = token) ≤ 1
  unspoiled : Unspoiled library start pool

theorem credited_token {pool : ClaimPool} (credited : Credited library pool.shared)
    (account : ∀ pubkey, pool.shared.answers.countP
      (ClaimAnswer.succeededFor pool.shared.tables pubkey) ≤ 1) (token : String) :
    (pool.shared.answers.countP fun answer =>
      answer.succeeded && answer.context.form.token = token) ≤ 1 := by
  by_cases succeeded : ∃ answer ∈ pool.shared.answers,
      answer.succeeded = true ∧ answer.context.form.token = token
  · obtain ⟨answer, member, succeeded, own⟩ := succeeded
    obtain ⟨pubkey, ⟨row, present, mine, names⟩, -⟩ := credited answer member succeeded
    refine Nat.le_trans (countP_mono_left fun other _ chosen => ?_) (account pubkey)
    rw [Bool.and_eq_true, decide_eq_true_eq] at chosen
    unfold ClaimAnswer.succeededFor
    rw [chosen.1, Bool.true_and, decide_eq_true_eq]
    exact ⟨row, present, by rw [mine, own, chosen.2], names⟩
  · rw [countP_eq_zero.mpr]
    · exact Nat.zero_le 1
    · intro answer member chosen
      rw [Bool.and_eq_true, decide_eq_true_eq] at chosen
      exact succeeded ⟨answer, member, chosen⟩

section

variable {tables : ClaimTables} {now : DateTime} {actions : List (Action ClaimCall Nat)}
  {pool : ClaimPool}

theorem fresh_asserted (tables : ClaimTables) (now : DateTime) :
    Asserted (Credited library) (ClaimHolds library)
      (.idle (.fresh tables now) : ClaimPool) :=
  ⟨fun _ => nofun, fun _ => nofun⟩

theorem claims_once
    (ran : Transition.run (poolStep (claimSystem library)) (.idle (.fresh tables now)) actions =
      some pool) (pubkey : String) :
    pool.shared.answers.countP (ClaimAnswer.succeededFor pool.shared.tables pubkey) ≤ 1 := by
  have single : affected tables.users (emailless pubkey) ≤ 1 :=
    tables.usersKeyed.affected_le_one pubkey fun user chosen =>
      of_decide_eq_true (Bool.and_eq_true_iff.mp chosen).1
  have opened : Bounded (openClaims pubkey) (fun _ => 1) (claimWeight pubkey)
      (.idle (.fresh tables now) : ClaimPool) := by
    show 0 + affected tables.users (emailless pubkey) + 0 ≤ 1
    omega
  have preserved : ∀ (pool : ClaimPool) action next,
      Asserted (Credited library) (ClaimHolds library) pool ∧
        Bounded (openClaims pubkey) (fun _ => 1) (claimWeight pubkey) pool →
      poolStep (claimSystem library) pool action = some next →
      Asserted (Credited library) (ClaimHolds library) next ∧
        Bounded (openClaims pubkey) (fun _ => 1) (claimWeight pubkey) next :=
    fun _ _ _ held stepped => ⟨poolStep_asserted held.1 stepped,
      poolStep_openClaims held.1 held.2 stepped⟩
  have bounded : openClaims pubkey pool.shared + total (claimWeight pubkey) pool.calls ≤ 1 :=
    (Transition.invariant_of_run _ preserved ⟨fresh_asserted tables now, opened⟩ ran).2
  unfold openClaims at bounded
  omega

/-- When no claim past the update of its account fails, claiming is exclusive. -/
theorem claims_exclusive
    (finishes : Transition.Meets (poolStep (claimSystem library)) (FinishesClaims library)
      (.idle (.fresh tables now)) actions)
    (ran : Transition.run (poolStep (claimSystem library)) (.idle (.fresh tables now)) actions =
      some pool) : Exclusive library tables pool := by
  have untouched : Unspoiled library tables (.idle (.fresh tables now)) :=
    ⟨fun _ member => .inl member, fun _ member => .inl member⟩
  have preserved : ∀ (pool : ClaimPool) action next,
      Asserted (Credited library) (ClaimHolds library) pool ∧ Unspoiled library tables pool →
      FinishesClaims library pool action →
      poolStep (claimSystem library) pool action = some next →
      Asserted (Credited library) (ClaimHolds library) next ∧ Unspoiled library tables next :=
    fun _ _ _ held here stepped => ⟨poolStep_asserted held.1 stepped,
      poolStep_unspoiled held.1 held.2 here stepped⟩
  have reached := Transition.invariant_of_meets _ preserved
    ⟨fresh_asserted tables now, untouched⟩ finishes ran
  have credited := reached.1.common
  exact ⟨claims_once ran, credited, credited_token credited (claims_once ran), reached.2⟩

end

end

/-! ### A claim whose token stays unmarked -/

def sampleClaimLibrary : ClaimLibrary where
  signup := { sampleSignupLibrary with
    oauth := { sampleOAuthLibrary with
      parseKeys := fun _ => .ok (sampleCrypto.keys ⟨sampleSecret 2⟩) }
    toLowercase := id }
  generateServerSignedUcan _ _ _ _ _ _ _ _ := .ok "ucan"
  debug _ := "Internal"

def preloadedUser : SignupUser where
  pubkey := sampleKey 0
  tenantId := 1
  email := none
  passwordHash := none
  emailVerified := false
  emailVerificationToken := none
  emailVerificationExpiresAt := none
  emailVerificationSentAt := none
  createdAt := 0
  vineId := some "vine"
  registeredToken := none

def preloaded : ClaimTables where
  users := [preloadedUser]
  claimTokens := [⟨"first", sampleKey 0, 1000, none⟩, ⟨"other", sampleKey 0, 1000, none⟩]
  usersKeyed := List.nodup_singleton _
  tokensKeyed := by unfold Keyed; decide

def sampleClaim (token email : String) (fault : Option (ClaimStatement × String)) : ClaimCall where
  context := {
    tenantId := 1
    form := ⟨token, email, "password", "password"⟩
    salt := ""
    serverNsec := some "nsec"
    appUrl := none
    fault := fault }
  stage := .findValid

def firstClaim : ClaimCall := sampleClaim "first" "a@b.c" none

def otherClaim : ClaimCall := sampleClaim "other" "d@e.f" none

theorem firstClaim_available : SessionAvailable sampleClaimLibrary firstClaim.context
    ⟨"first", sampleKey 0, 1000, none⟩ := by
  constructor
  · intro error faulty
    cases faulty
  · exact ⟨⟨sampleKey 0⟩, "nsec", sampleCrypto.keys ⟨sampleSecret 2⟩, "ucan", rfl, rfl, rfl, rfl⟩

/-- Two claimants of the account check their tokens and their emails, then the second updates. -/
def rivalClaims : List (Action ClaimCall Nat) :=
  [.start firstClaim, .start otherClaim, .step 0, .step 1, .step 0, .step 1, .step 0, .step 1,
    .step 0]

/-- The second is refused, and the account is the first's. -/
theorem claims_exclusive_sample :
    ∃ pool, Transition.run (poolStep (claimSystem sampleClaimLibrary))
        (.idle (.fresh preloaded 0)) rivalClaims = some pool ∧
      pool.shared.answers.map ClaimAnswer.succeeded = [true, false] ∧
      Exclusive sampleClaimLibrary preloaded pool := by
  have finishes : Transition.Meets (poolStep (claimSystem sampleClaimLibrary))
      (FinishesClaims sampleClaimLibrary) (.idle (.fresh preloaded 0)) rivalClaims := by
    refine .cons _ trivial rfl (.cons _ trivial rfl (.cons _ ?_ rfl (.cons _ ?_ rfl (.cons _ ?_ rfl
      (.cons _ ?_ rfl (.cons _ ?_ rfl (.cons _ ?_ rfl (.cons _ ?_ rfl trivial))))))))
    all_goals
      rintro call present claimToken marks
      cases present
      try cases marks
    exact firstClaim_available
  exact ⟨_, rfl, rfl, claims_exclusive finishes rfl⟩

/-- The claim whose token the database does not mark answers an error, but the account is
claimed. -/
theorem claim_half_done :
    ∃ pool, Transition.run (poolStep (claimSystem sampleClaimLibrary))
        (.idle (.fresh preloaded 0))
        [.start (sampleClaim "first" "a@b.c" (some (.markUsed, "connection closed"))), .step 0,
          .step 0, .step 0, .step 0] = some pool ∧
      pool.shared.answers.map ClaimAnswer.succeeded = [false] ∧
      pool.shared.tables.users.map SignupUser.email = [some "a@b.c"] ∧
      ¬Exclusive sampleClaimLibrary preloaded pool := by
  refine ⟨_, rfl, rfl, rfl, fun exclusive => ?_⟩
  rcases exclusive.unspoiled.users _ mem_cons_self with before | ⟨context, unfailed, -⟩
  · cases mem_singleton.mp before
  · rcases unfailed with ⟨answer, member, succeeded, -⟩ | ⟨claimToken, under⟩
    · obtain rfl := mem_singleton.mp member
      cases succeeded
    · cases under

end Divine.Keycast
