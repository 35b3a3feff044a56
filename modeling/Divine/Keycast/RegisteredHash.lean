/-
This file settles when the password of a registration is not lost.
-/

import Divine.Keycast.Registration

namespace Divine.Keycast

open List Fallible Interleaving Table

/-! ### Runs that keep the tokens -/

def HoldsHash (library : SignupLibrary) (job : BcryptJob) (user : SignupUser) : Prop :=
  ∃ salt hash, library.hash job.password salt = .ok hash ∧ user.passwordHash = some hash

/-- The job a call is about to queue, or to store the hash of. -/
def SignupCall.job : SignupCall → Option BcryptJob
  | register _ (.enqueue _ job) => some job
  | worker _ (.update job _) => some job
  | _ => none

def Outstanding (pool : SignupPool) (job : BcryptJob) : Prop :=
  job ∈ pool.shared.queue ∨ ∃ call ∈ pool.calls, call.job = some job

/-- No token that is waited for is replaced, a stored token is new, every password is hashed, and
the database answers the update. -/
def KeepsToken (library : SignupLibrary) (pool : SignupPool) : SignupCall → Prop
  | .register context (.insert _ _) => context.verificationToken ∉ pool.shared.issued
  | .resend context (.setToken pubkey) =>
      context.verificationToken ∉ pool.shared.issued ∧
        ∀ user ∈ pool.shared.tables.users, SignupTables.ofUser pubkey context.tenantId user = true →
          ∀ job, Outstanding pool job → user.emailVerificationToken ≠ some job.token
  | .worker context .receive => ∀ job ∈ pool.shared.queue.head?,
      ∃ hash, library.hash job.password context.salt = .ok hash
  | .worker context (.update _ _) => context.answered = true
  | _ => True

def KeepsTokens (library : SignupLibrary) (pool : SignupPool) :
    Action SignupCall SignupEvent → Prop
  | .start _ | .environment _ => True
  | .step index => ∀ call, pool.calls[index]? = some call → KeepsToken library pool call

/-! ### What is known of tokens and jobs -/

/-- The row of the job's registration, if it is left, still has the token of the job. -/
def Waiting (state : SignupState) (job : BcryptJob) : Prop :=
  job ∈ state.registered ∧ ∀ user ∈ state.tables.users, user.registeredToken = some job.token →
    user.emailVerificationToken = some job.token

def Unregistered (state : SignupState) (token : String) : Prop :=
  token ∈ state.issued ∧ ∀ job ∈ state.registered, job.token ≠ token

structure Tracked (library : SignupLibrary) (state : SignupState) : Prop where
  users : ∀ user ∈ state.tables.users, ∀ token, user.emailVerificationToken = some token ∨
    user.registeredToken = some token → token ∈ state.issued
  codes : ∀ row ∈ state.tables.oauthCodes, ∀ token,
    row.pendingEmailVerificationToken = some token → Unregistered state token
  jobs : ∀ job ∈ state.registered, job.token ∈ state.issued
  keyed : Keyed BcryptJob.token state.registered
  own : ∀ user ∈ state.tables.users, ∀ job ∈ state.registered,
    user.emailVerificationToken = some job.token → user.registeredToken = some job.token
  queued : ∀ job ∈ state.queue, Waiting state job
  processed : ∀ job ∈ state.processed, job ∈ state.registered ∧ ∀ user ∈ state.tables.users,
    user.registeredToken = some job.token → HoldsHash library job user

def Claims (library : SignupLibrary) (state : SignupState) : SignupCall → Prop
  | .register _ (.enqueue _ job) => Waiting state job
  | .worker _ (.update job hash) =>
      Waiting state job ∧ ∃ salt, library.hash job.password salt = .ok hash
  | .verify context (.createUser _ _ _) => Unregistered state context.token
  | _ => True

/-- A later state: codes stay issued, what is registered newly was not, and jobs wait on. -/
structure Later (kept : BcryptJob → Prop) (state next : SignupState) : Prop where
  issued : ∀ token ∈ state.issued, token ∈ next.issued
  registered : ∀ job ∈ next.registered, job ∈ state.registered ∨ job.token ∉ state.issued
  waiting : ∀ job, kept job → Waiting state job → Waiting next job

section

variable {library : SignupLibrary} {state next : SignupState} {kept : BcryptJob → Prop}

theorem Later.unregistered (later : Later kept state next) {token : String}
    (unregistered : Unregistered state token) : Unregistered next token := by
  refine ⟨later.issued token unregistered.1, fun job member equal => ?_⟩
  rcases later.registered job member with old | new
  · exact unregistered.2 job old equal
  · exact new (equal ▸ unregistered.1)

theorem Later.claims (later : Later kept state next) {call : SignupCall}
    (keeps : ∀ job, call.job = some job → kept job) (claims : Claims library state call) :
    Claims library next call := by
  cases call with
  | register context stage =>
    cases stage with
    | enqueue keys job => exact later.waiting job (keeps job rfl) claims
    | checkKey | insert | deleteUser | deleteKeys => trivial
  | worker context stage =>
    cases stage with
    | receive => trivial
    | update job hash => exact ⟨later.waiting job (keeps job rfl) claims.1, claims.2⟩
  | resend context stage => trivial
  | verify context stage =>
    cases stage with
    | createUser pending email passwordHash => exact later.unregistered claims
    | findPending | storeCode | storePoll | deletePending | findUser | markVerified | getEmail
    | findKey => trivial

/-! ### Statements that keep tokens and hashes -/

/-- Every row left has the tokens and the hash of one that was there, and no further code waits. -/
structure TablesKept (before after : SignupTables) : Prop where
  users : ∀ user ∈ after.users, ∃ old ∈ before.users,
    old.emailVerificationToken = user.emailVerificationToken ∧
      old.registeredToken = user.registeredToken ∧ old.passwordHash = user.passwordHash
  codes : ∀ row ∈ after.oauthCodes, ∀ token, row.pendingEmailVerificationToken = some token →
    ∃ old ∈ before.oauthCodes, old.pendingEmailVerificationToken = some token

theorem TablesKept.of_subset {before after : SignupTables}
    (users : ∀ user ∈ after.users, user ∈ before.users)
    (codes : ∀ row ∈ after.oauthCodes, row ∈ before.oauthCodes) : TablesKept before after :=
  ⟨fun user member => ⟨user, users user member, rfl, rfl, rfl⟩,
    fun row member _ waits => ⟨row, codes row member, waits⟩⟩

theorem TablesKept.refl (tables : SignupTables) : TablesKept tables tables :=
  .of_subset (fun _ member => member) fun _ member => member

theorem deleteUsers_kept (tables : SignupTables) (condition : SignupUser → Bool) :
    TablesKept tables (tables.deleteUsers condition) := by
  unfold SignupTables.deleteUsers
  simp only
  split
  · exact .refl tables
  · exact .of_subset (fun _ member => (mem_delete.mp member).1) fun _ member => member

theorem markVerified_kept (tables : SignupTables) (pubkey : String) (tenantId : Int) :
    TablesKept tables (tables.verifyEmail pubkey tenantId) := by
  refine ⟨fun user member => ?_, fun row member _ waits => ⟨row, member, waits⟩⟩
  obtain ⟨old, present, rfl⟩ := mem_update.mp member
  refine ⟨old, present, Eq.symm ?_, Eq.symm ?_, Eq.symm ?_⟩
  · apply updateRow_column SignupUser.emailVerificationToken
    intro _
    rfl
  · apply updateRow_column SignupUser.registeredToken
    intro _
    rfl
  · apply updateRow_column SignupUser.passwordHash
    intro _
    rfl

theorem storeCode_kept {tables stored : SignupTables} {context : VerifyContext}
    {pending : OAuthCode} {now : DateTime}
    (inserted : tables.storeCode (redirectCode context pending now) = .ok stored) :
    TablesKept tables stored := by
  unfold SignupTables.storeCode at inserted
  split at inserted
  · cases inserted
  · obtain rfl := Except.ok.inj inserted
    refine ⟨fun user member => ⟨user, member, rfl, rfl, rfl⟩, fun row member token waits => ?_⟩
    rcases mem_append.mp member with old | new
    · exact ⟨row, old, waits⟩
    · rw [mem_singleton.mp new] at waits
      cases waits

/-- Every statement of `verify_email` but the creation of the user keeps the tokens and the
hashes. -/
theorem verifyStatement_kept (context : VerifyContext) (tables : SignupTables) (now : DateTime)
    {stage : VerifyStage}
    (other : ∀ pending email passwordHash, stage ≠ .createUser pending email passwordHash) :
    TablesKept tables (verifyStatement library context tables now stage).1 := by
  cases stage with
  | findPending => exact .refl tables
  | createUser pending email passwordHash => exact absurd rfl (other pending email passwordHash)
  | storeCode pending =>
    simp only [verifyStatement]
    split
    · rename_i stored inserted
      exact storeCode_kept inserted
    · exact .refl tables
  | storePoll pending =>
    simp only [verifyStatement]
    split <;> exact .of_subset (fun _ member => member) fun _ member => member
  | deletePending pending =>
    exact .of_subset (fun _ member => member) fun _ member => (mem_delete.mp member).1
  | findUser => exact .refl tables
  | markVerified pubkey => exact markVerified_kept tables pubkey context.tenantId
  | getEmail pubkey =>
    simp only [verifyStatement]
    split <;> exact .refl tables
  | findKey pubkey email => exact .refl tables

/-- A state in which only kept tables, time, queue and answers differ. -/
structure Framed (state next : SignupState) : Prop where
  tables : TablesKept state.tables next.tables
  issued : next.issued = state.issued
  registered : next.registered = state.registered
  processed : next.processed = state.processed
  queue : ∀ job ∈ next.queue, job ∈ state.queue ∨ Waiting state job

theorem Framed.later (framed : Framed state next) : Later (fun _ => True) state next := by
  refine ⟨fun token member => framed.issued ▸ member,
    fun job member => .inl (framed.registered ▸ member), ?_⟩
  rintro job - ⟨registered, waits⟩
  refine ⟨framed.registered ▸ registered, fun user member own => ?_⟩
  obtain ⟨old, present, token, ownToken, -⟩ := framed.tables.users user member
  rw [← token]
  exact waits old present (ownToken.trans own)

theorem Framed.tracked (framed : Framed state next) (tracked : Tracked library state) :
    Tracked library next where
  users user member token has := by
    obtain ⟨old, present, sameToken, sameOwn, -⟩ := framed.tables.users user member
    rw [framed.issued]
    exact tracked.users old present token (sameToken ▸ sameOwn ▸ has)
  codes row member token waits := by
    obtain ⟨old, present, waited⟩ := framed.tables.codes row member token waits
    exact framed.later.unregistered (tracked.codes old present token waited)
  jobs job member := framed.issued ▸ tracked.jobs job (framed.registered ▸ member)
  keyed := framed.registered ▸ tracked.keyed
  own user member job registered has := by
    obtain ⟨old, present, sameToken, sameOwn, -⟩ := framed.tables.users user member
    rw [← sameOwn]
    exact tracked.own old present job (framed.registered ▸ registered) (sameToken.trans has)
  queued job member := framed.later.waiting job trivial <|
    (framed.queue job member).elim (tracked.queued job) id
  processed job member := by
    obtain ⟨registered, held⟩ := tracked.processed job (framed.processed ▸ member)
    refine ⟨framed.registered ▸ registered, fun user present own => ?_⟩
    obtain ⟨old, oldPresent, -, sameOwn, sameHash⟩ := framed.tables.users user present
    obtain ⟨salt, hash, hashed, stored⟩ := held old oldPresent (sameOwn.trans own)
    exact ⟨salt, hash, hashed, sameHash ▸ stored⟩

/-! ### Statements that store a token -/

/-- The insertion of a registered row, whose token is new. -/
structure Registers (job : BcryptJob) (state next : SignupState) : Prop where
  users : ∃ user, next.tables.users = state.tables.users ++ [user] ∧
    user.emailVerificationToken = some job.token ∧ user.registeredToken = some job.token
  codes : next.tables.oauthCodes = state.tables.oauthCodes
  issued : next.issued = job.token :: state.issued
  registered : next.registered = job :: state.registered
  queue : next.queue = state.queue
  processed : next.processed = state.processed

theorem Registers.later {job : BcryptJob} (registers : Registers job state next)
    (fresh : job.token ∉ state.issued) : Later (fun _ => True) state next := by
  obtain ⟨user, users, token, own⟩ := registers.users
  refine ⟨fun other member => ?_, fun other member => ?_, ?_⟩
  · rw [registers.issued]
    exact mem_cons_of_mem job.token member
  · rw [registers.registered] at member
    rcases mem_cons.mp member with rfl | old
    · exact .inr fresh
    · exact .inl old
  · rintro other - ⟨registered, waits⟩
    rw [Waiting, registers.registered, users]
    refine ⟨mem_cons_of_mem job registered, fun row member has => ?_⟩
    rcases mem_append.mp member with old | new
    · exact waits row old has
    · rw [mem_singleton.mp new, own] at has
      rw [mem_singleton.mp new, token, has]

theorem Registers.waiting {job : BcryptJob} (registers : Registers job state next)
    (tracked : Tracked library state) (fresh : job.token ∉ state.issued) : Waiting next job := by
  obtain ⟨user, users, token, own⟩ := registers.users
  rw [Waiting, registers.registered, users]
  refine ⟨mem_cons_self, fun row member has => ?_⟩
  rcases mem_append.mp member with old | new
  · exact absurd (tracked.users row old job.token (.inr has)) fresh
  · rw [mem_singleton.mp new]
    exact token

theorem Registers.tracked {job : BcryptJob} (registers : Registers job state next)
    (tracked : Tracked library state) (fresh : job.token ∉ state.issued) :
    Tracked library next := by
  have later := registers.later fresh
  obtain ⟨user, users, token, own⟩ := registers.users
  have origin : ∀ row ∈ next.tables.users, row ∈ state.tables.users ∨ row = user := by
    intro row member
    rw [users] at member
    exact (mem_append.mp member).imp_right mem_singleton.mp
  refine ⟨fun row member other has => ?_, fun row member other waits => ?_,
    fun other member => ?_, ?_, fun row member other registered has => ?_,
    fun other member => ?_, fun other member => ?_⟩
  · rcases origin row member with old | rfl
    · exact later.issued other (tracked.users row old other has)
    · rw [registers.issued]
      rw [token, own, or_self] at has
      exact Option.some.inj has ▸ mem_cons_self
  · rw [registers.codes] at member
    exact later.unregistered (tracked.codes row member other waits)
  · rw [registers.registered] at member
    rw [registers.issued]
    rcases mem_cons.mp member with rfl | old
    · exact mem_cons_self
    · exact mem_cons_of_mem job.token (tracked.jobs other old)
  · rw [registers.registered]
    refine nodup_cons.mpr ⟨fun taken => ?_, tracked.keyed⟩
    obtain ⟨other, member, equal⟩ := mem_map.mp taken
    exact fresh (equal ▸ tracked.jobs other member)
  · rw [registers.registered] at registered
    rcases origin row member with old | rfl
    · rcases mem_cons.mp registered with rfl | before
      · exact absurd (tracked.users row old other.token (.inl has)) fresh
      · exact tracked.own row old other before has
    · rw [own, ← token, has]
  · rw [registers.queue] at member
    exact later.waiting other trivial (tracked.queued other member)
  · rw [registers.processed] at member
    obtain ⟨before, held⟩ := tracked.processed other member
    rw [registers.registered]
    refine ⟨mem_cons_of_mem job before, fun row present has => ?_⟩
    rcases origin row present with old | rfl
    · exact held row old has
    · rw [own] at has
      exact absurd (Option.some.inj has ▸ tracked.jobs other before) fresh

/-- The insertion of a row whose token is that of a pending registration. -/
structure Verifies (token : String) (state next : SignupState) : Prop where
  users : ∃ user, next.tables.users = state.tables.users ++ [user] ∧
    user.emailVerificationToken = some token ∧ user.registeredToken = none
  codes : next.tables.oauthCodes = state.tables.oauthCodes
  issued : next.issued = state.issued
  registered : next.registered = state.registered
  queue : next.queue = state.queue
  processed : next.processed = state.processed

theorem Verifies.later {token : String} (verifies : Verifies token state next) :
    Later (fun _ => True) state next := by
  obtain ⟨user, users, has, own⟩ := verifies.users
  refine ⟨fun other member => verifies.issued ▸ member,
    fun job member => .inl (verifies.registered ▸ member), ?_⟩
  rintro job - ⟨registered, waits⟩
  rw [Waiting, verifies.registered, users]
  refine ⟨registered, fun row member mine => ?_⟩
  rcases mem_append.mp member with old | new
  · exact waits row old mine
  · rw [mem_singleton.mp new, own] at mine
    cases mine

theorem Verifies.tracked {token : String} (verifies : Verifies token state next)
    (tracked : Tracked library state) (unregistered : Unregistered state token) :
    Tracked library next := by
  have later := verifies.later
  obtain ⟨user, users, has, own⟩ := verifies.users
  have origin : ∀ row ∈ next.tables.users, row ∈ state.tables.users ∨ row = user := by
    intro row member
    rw [users] at member
    exact (mem_append.mp member).imp_right mem_singleton.mp
  refine ⟨fun row member other tokens => ?_, fun row member other waits => ?_,
    fun job member => ?_, verifies.registered ▸ tracked.keyed,
    fun row member job registered tokens => ?_, fun job member => ?_, fun job member => ?_⟩
  · rw [verifies.issued]
    rcases origin row member with old | rfl
    · exact tracked.users row old other tokens
    · rw [has, own] at tokens
      rcases tokens with same | absent
      · exact Option.some.inj same ▸ unregistered.1
      · cases absent
  · rw [verifies.codes] at member
    exact later.unregistered (tracked.codes row member other waits)
  · rw [verifies.registered] at member
    exact verifies.issued ▸ tracked.jobs job member
  · rw [verifies.registered] at registered
    rcases origin row member with old | rfl
    · exact tracked.own row old job registered tokens
    · rw [has] at tokens
      exact absurd (Option.some.inj tokens).symm (unregistered.2 job registered)
  · rw [verifies.queue] at member
    exact later.waiting job trivial (tracked.queued job member)
  · rw [verifies.processed] at member
    obtain ⟨registered, held⟩ := tracked.processed job member
    refine ⟨verifies.registered ▸ registered, fun row present mine => ?_⟩
    rcases origin row present with old | rfl
    · exact held row old mine
    · rw [own] at mine
      cases mine

/-! ### The replacement of a token -/

def Spares (state : SignupState) (pubkey : String) (tenantId : Int) (job : BcryptJob) : Prop :=
  ∀ user ∈ state.tables.users, SignupTables.ofUser pubkey tenantId user = true →
    user.emailVerificationToken ≠ some job.token

def withToken (state : SignupState) (pubkey : String) (tenantId : Int) (token : String)
    (expiresAt : DateTime) : SignupState :=
  { state with
    tables := state.tables.setVerificationToken pubkey tenantId token expiresAt state.now
    issued := token :: state.issued }

theorem mem_withToken {pubkey token : String} {tenantId : Int} {expiresAt : DateTime}
    {user : SignupUser}
    (member : user ∈ (withToken state pubkey tenantId token expiresAt).tables.users) :
    ∃ old ∈ state.tables.users, old.registeredToken = user.registeredToken ∧
      old.passwordHash = user.passwordHash ∧
      (SignupTables.ofUser pubkey tenantId old = true ∧ user.emailVerificationToken = some token ∨
        user.emailVerificationToken = old.emailVerificationToken) := by
  obtain ⟨old, present, rfl⟩ := mem_update.mp member
  refine ⟨old, present, ?_⟩
  cases mine : SignupTables.ofUser pubkey tenantId old with
  | true =>
    rw [updateRow_of mine]
    exact ⟨rfl, rfl, .inl ⟨rfl, rfl⟩⟩
  | false =>
    rw [updateRow_of_not mine]
    exact ⟨rfl, rfl, .inr rfl⟩

theorem withToken_later (pubkey token : String) (tenantId : Int) (expiresAt : DateTime) :
    Later (Spares state pubkey tenantId) state
      (withToken state pubkey tenantId token expiresAt) := by
  refine ⟨fun other member => mem_cons_of_mem token member, fun job member => .inl member,
    ?_⟩
  rintro job spares ⟨registered, waits⟩
  refine ⟨registered, fun user member mine => ?_⟩
  obtain ⟨old, present, sameOwn, -, ⟨ofUser, -⟩ | same⟩ := mem_withToken member
  · exact absurd (waits old present (sameOwn.trans mine)) (spares old present ofUser)
  · rw [same]
    exact waits old present (sameOwn.trans mine)

theorem withToken_tracked (tracked : Tracked library state) {pubkey token : String}
    {tenantId : Int} (expiresAt : DateTime) (fresh : token ∉ state.issued)
    (spares : ∀ job ∈ state.queue, Spares state pubkey tenantId job) :
    Tracked library (withToken state pubkey tenantId token expiresAt) := by
  have later : Later (Spares state pubkey tenantId) state
      (withToken state pubkey tenantId token expiresAt) :=
    withToken_later pubkey token tenantId expiresAt
  refine ⟨fun user member other has => ?_, fun row member other waits =>
      later.unregistered (tracked.codes row member other waits),
    fun job member => mem_cons_of_mem token (tracked.jobs job member), tracked.keyed,
    fun user member job registered has => ?_,
    fun job member => later.waiting job (spares job member) (tracked.queued job member),
    fun job member => ?_⟩
  · obtain ⟨old, present, sameOwn, -, ⟨-, new⟩ | same⟩ := mem_withToken member
    · rcases has with stored | mine
      · rw [new] at stored
        exact Option.some.inj stored ▸ mem_cons_self
      · exact mem_cons_of_mem token
          (tracked.users old present other (.inr (sameOwn.trans mine)))
    · rw [same, ← sameOwn] at has
      exact mem_cons_of_mem token (tracked.users old present other has)
  · obtain ⟨old, present, sameOwn, -, ⟨-, new⟩ | same⟩ := mem_withToken member
    · rw [new] at has
      exact absurd (Option.some.inj has ▸ tracked.jobs job registered) fresh
    · rw [← sameOwn]
      exact tracked.own old present job registered (same.symm.trans has)
  · obtain ⟨registered, held⟩ := tracked.processed job member
    refine ⟨registered, fun user userMember mine => ?_⟩
    obtain ⟨old, present, sameOwn, sameHash, -⟩ := mem_withToken userMember
    obtain ⟨salt, hash, hashed, stored⟩ := held old present (sameOwn.trans mine)
    exact ⟨salt, hash, hashed, sameHash ▸ stored⟩

/-! ### The hash of a job -/

def withHash (state : SignupState) (job : BcryptJob) (hash : String) : SignupState :=
  { state with
    tables := state.tables.storeHash job.token hash
    processed := job :: state.processed }

theorem mem_withHash {job : BcryptJob} {hash : String} {user : SignupUser}
    (member : user ∈ (withHash state job hash).tables.users) :
    ∃ old ∈ state.tables.users, old.registeredToken = user.registeredToken ∧
      old.emailVerificationToken = user.emailVerificationToken ∧
      (old.emailVerificationToken = some job.token ∧ user.passwordHash = some hash ∨
        old.emailVerificationToken ≠ some job.token ∧ user.passwordHash = old.passwordHash) := by
  obtain ⟨old, present, rfl⟩ := mem_update.mp member
  refine ⟨old, present, ?_⟩
  cases has : SignupTables.ofToken job.token old with
  | true =>
    rw [updateRow_of has]
    exact ⟨rfl, rfl, .inl ⟨of_decide_eq_true has, rfl⟩⟩
  | false =>
    rw [updateRow_of_not has]
    exact ⟨rfl, rfl, .inr ⟨of_decide_eq_false has, rfl⟩⟩

theorem withHash_later (job : BcryptJob) (hash : String) :
    Later (fun _ => True) state (withHash state job hash) := by
  refine ⟨fun _ member => member, fun _ member => .inl member, ?_⟩
  rintro other - ⟨registered, waits⟩
  refine ⟨registered, fun user member mine => ?_⟩
  obtain ⟨old, present, sameOwn, sameToken, -⟩ := mem_withHash member
  rw [← sameToken]
  exact waits old present (sameOwn.trans mine)

theorem withHash_tracked (tracked : Tracked library state) {job : BcryptJob} {salt hash : String}
    (waiting : Waiting state job) (hashed : library.hash job.password salt = .ok hash) :
    Tracked library (withHash state job hash) := by
  have later : Later (fun _ => True) state (withHash state job hash) := withHash_later job hash
  refine ⟨fun user member other has => ?_, fun row member other waits =>
      later.unregistered (tracked.codes row member other waits),
    tracked.jobs, tracked.keyed, fun user member other registered has => ?_,
    fun other member => later.waiting other trivial (tracked.queued other member),
    fun other member => ?_⟩
  · obtain ⟨old, present, sameOwn, sameToken, -⟩ := mem_withHash member
    rw [← sameToken, ← sameOwn] at has
    exact tracked.users old present other has
  · obtain ⟨old, present, sameOwn, sameToken, -⟩ := mem_withHash member
    rw [← sameOwn]
    exact tracked.own old present other registered (sameToken.trans has)
  · have known : other ∈ state.registered ∧
        (other ∈ state.processed ∨ other = job) := by
      rcases mem_cons.mp member with rfl | before
      · exact ⟨waiting.1, .inr rfl⟩
      · exact ⟨(tracked.processed other before).1, .inl before⟩
    refine ⟨known.1, fun user userMember mine => ?_⟩
    obtain ⟨old, present, sameOwn, -, ⟨updated, stored⟩ | ⟨untouched, same⟩⟩ :=
      mem_withHash userMember
    · have own := tracked.own old present job waiting.1 updated
      have equal : other.token = job.token :=
        Option.some.inj ((sameOwn.trans mine).symm.trans own)
      obtain rfl := tracked.keyed.eq_of_key known.1 waiting.1 equal
      exact ⟨salt, hash, hashed, stored⟩
    · rcases known.2 with before | rfl
      · obtain ⟨oldSalt, oldHash, oldHashed, held⟩ :=
          (tracked.processed other before).2 old present (sameOwn.trans mine)
        exact ⟨oldSalt, oldHash, oldHashed, same.trans held⟩
      · exact absurd (waiting.2 old present (sameOwn.trans mine)) untouched

end

/-! ### Every step -/

section

variable {library : SignupLibrary} {state : SignupState}
variable {tables : SignupTables} {context : VerifyContext}


theorem framed_of_tables (keptTables : TablesKept state.tables tables) (answers : List SignupAnswer)
    :
    Framed state { state with tables := tables, answers := answers } :=
  ⟨keptTables, rfl, rfl, rfl, fun _ member => .inl member⟩

theorem framed_refl (answers : List SignupAnswer) :
    Framed state { state with answers := answers } :=
  framed_of_tables (.refl state.tables) answers

/-- What a statement leaves: the tokens and jobs tracked, the next stage, and the jobs that are kept
waiting. -/
structure Advanced (library : SignupLibrary) (kept : BcryptJob → Prop) (state : SignupState)
    (after : SignupState × Option SignupCall) : Prop where
  tracked : Tracked library after.1
  later : Later kept state after.1
  claims : ∀ next, after.2 = some next → Claims library after.1 next

theorem Framed.advanced {after : SignupState × Option SignupCall} (framed : Framed state after.1)
    (tracked : Tracked library state)
    (claims : ∀ next, after.2 = some next → Claims library after.1 next) :
    Advanced library (fun _ => True) state after :=
  ⟨framed.tracked tracked, framed.later, claims⟩

theorem Advanced.weaken {kept : BcryptJob → Prop} {after : SignupState × Option SignupCall}
    (advanced : Advanced library (fun _ => True) state after) : Advanced library kept state after :=
  ⟨advanced.tracked, ⟨advanced.later.issued, advanced.later.registered,
    fun job _ => advanced.later.waiting job trivial⟩, advanced.claims⟩

theorem Framed.advanced_free {next : SignupState} {stage : SignupCall}
    (framed : Framed state next) (tracked : Tracked library state)
    (free : Claims library next stage) :
      Advanced library (fun _ => True) state (next, some stage) :=
  framed.advanced tracked fun _ continued => Option.some.inj continued ▸ free

theorem Framed.advanced_answer {next : SignupState} (framed : Framed state next)
    (tracked : Tracked library state) : Advanced library (fun _ => True) state (next, none) :=
  framed.advanced tracked fun _ continued => nomatch continued

theorem registers_of_inserted {job : BcryptJob} {user : SignupUser} {encrypted : Bytes}
    (token : user.emailVerificationToken = some job.token)
    (own : user.registeredToken = some job.token)
    (inserted : state.tables.registerWithPersonalKey user encrypted = .ok tables) :
    Registers job state { state with
      tables := tables
      issued := job.token :: state.issued
      registered := job :: state.registered } := by
  obtain ⟨between, added, keyed⟩ := bind_eq_ok.mp inserted
  obtain ⟨-, rfl⟩ := SignupTables.insertUser_eq_ok.mp added
  obtain rfl := pure_eq_ok.mp keyed
  exact ⟨⟨user, rfl, token, own⟩, rfl, rfl, rfl, rfl, rfl⟩

theorem advanceRegister_advanced (tracked : Tracked library state) {context : RegisterContext}
    {stage : RegisterStage} (claims : Claims library state (.register context stage))
    (fresh : ∀ keys encrypted, stage = .insert keys encrypted →
      context.verificationToken ∉ state.issued) :
    Advanced library (fun _ => True) state (state.advanceRegister library context stage) := by
  cases stage with
  | checkKey =>
    simp only [SignupState.advanceRegister]
    split
    · exact (framed_refl _).advanced_answer tracked
    · exact (framed_refl state.answers).advanced_free tracked trivial
  | insert keys encrypted =>
    simp only [SignupState.advanceRegister]
    split
    · exact (framed_refl _).advanced_answer tracked
    · rename_i tables inserted
      have registers : Registers ⟨context.verificationToken, context.password⟩ state
          { state with
            tables := tables
            issued := context.verificationToken :: state.issued
            registered := ⟨context.verificationToken, context.password⟩ :: state.registered } :=
        registers_of_inserted rfl rfl inserted
      have new := fresh keys encrypted rfl
      refine ⟨registers.tracked tracked new, registers.later new, fun next continued => ?_⟩
      rw [← Option.some.inj continued]
      exact registers.waiting tracked new
  | enqueue keys job =>
    simp only [SignupState.advanceRegister]
    split
    · exact (framed_refl state.answers).advanced_free tracked trivial
    · split
      · have framed : Framed state { state with
            queue := state.queue ++ [job]
            answers := .registered (.ok ⟨true, keys.publicKey.toHex, some true,
              some (library.toLowercase context.email)⟩) :: state.answers } := by
          refine ⟨.refl state.tables, rfl, rfl, rfl, fun other member => ?_⟩
          rcases mem_append.mp member with old | new
          · exact .inl old
          · rw [mem_singleton.mp new]
            exact .inr claims
        exact framed.advanced_answer tracked
      · exact (framed_refl state.answers).advanced_free tracked trivial
  | deleteUser keys error =>
    exact (framed_of_tables (deleteUsers_kept state.tables _) state.answers).advanced_free tracked
      trivial
  | deleteKeys keys error =>
    refine (framed_of_tables ?_ _).advanced_answer tracked
    exact .of_subset (fun _ member => member) fun _ member => member

theorem advanceWorker_advanced (tracked : Tracked library state) {context : WorkerContext}
    {stage : WorkerStage} (claims : Claims library state (.worker context stage))
    (hashes : stage = .receive → ∀ job ∈ state.queue.head?,
      ∃ hash, library.hash job.password context.salt = .ok hash)
    (answers : ∀ job hash, stage = .update job hash → context.answered = true) :
    Advanced library (fun _ => True) state (state.advanceWorker library context stage) := by
  cases stage with
  | receive =>
    simp only [SignupState.advanceWorker]
    split
    · exact (framed_refl state.answers).advanced_free tracked trivial
    · rename_i job rest queue
      obtain ⟨hash, hashed⟩ := hashes rfl job (by rw [queue]; rfl)
      simp only [hashed]
      have framed : Framed state { state with queue := rest } := by
        refine ⟨.refl state.tables, rfl, rfl, rfl, fun other member => .inl ?_⟩
        rw [queue]
        exact mem_cons_of_mem job member
      refine framed.advanced_free tracked ⟨?_, context.salt, hashed⟩
      refine framed.later.waiting job trivial (tracked.queued job ?_)
      rw [queue]
      exact mem_cons_self
  | update job hash =>
    obtain ⟨waiting, salt, hashed⟩ := claims
    have answered := answers job hash rfl
    simp only [SignupState.advanceWorker, answered, if_true]
    exact ⟨withHash_tracked tracked waiting hashed, withHash_later job hash,
      fun _ ended => nomatch ended⟩

theorem advanceResend_advanced (tracked : Tracked library state) {context : ResendContext}
    {stage : ResendStage} {kept : BcryptJob → Prop} (queued : ∀ job ∈ state.queue, kept job)
    (fresh : ∀ pubkey, stage = .setToken pubkey → context.verificationToken ∉ state.issued ∧
      ∀ job, kept job → Spares state pubkey context.tenantId job) :
    Advanced library kept state (state.advanceResend library context stage) := by
  cases stage with
  | lookup =>
    refine Advanced.weaken ?_
    simp only [SignupState.advanceResend]
    split
    · exact (framed_refl _).advanced_answer tracked
    · split
      · exact (framed_refl _).advanced_answer tracked
      · exact (framed_refl state.answers).advanced_free tracked trivial
  | setToken pubkey =>
    obtain ⟨new, spares⟩ := fresh pubkey rfl
    have replaced : Tracked library (withToken state pubkey context.tenantId
        context.verificationToken (state.now + hours emailVerificationExpiryHours)) :=
      withToken_tracked tracked _ new fun job member => spares job (queued job member)
    have later : Later (Spares state pubkey context.tenantId) state
        (withToken state pubkey context.tenantId context.verificationToken
          (state.now + hours emailVerificationExpiryHours)) :=
      withToken_later pubkey context.verificationToken context.tenantId _
    have answered : Framed (withToken state pubkey context.tenantId context.verificationToken
        (state.now + hours emailVerificationExpiryHours))
        (state.advanceResend library context (.setToken pubkey)).1 := framed_refl _
    refine ⟨answered.tracked replaced,
      ⟨later.issued, later.registered, fun job keeps waiting => ?_⟩,
      fun _ ended => nomatch ended⟩
    exact answered.later.waiting job trivial (later.waiting job (spares job keeps) waiting)

theorem verifyStatement_creates {tables after : SignupTables} {now : DateTime} {stage : VerifyStage}
    {pending : OAuthCode} {email passwordHash : String}
    (reached : verifyStatement library context tables now stage =
      (after, .inl (.createUser pending email passwordHash))) :
    after = tables ∧ ∃ row ∈ tables.oauthCodes,
      row.pendingEmailVerificationToken = some context.token := by
  have outcome := congrArg Prod.snd reached
  cases stage with
  | findPending =>
    refine ⟨(congrArg Prod.fst reached).symm, ?_⟩
    simp only [verifyStatement, afterFindPending] at outcome
    split at outcome
    · cases outcome
    · rename_i row found
      have meets := selectOne_condition found
      simp only [Bool.and_eq_true, decide_eq_true_eq] at meets
      exact ⟨row, selectOne_mem found, meets.1.1⟩
  | createUser | storeCode | storePoll =>
    simp only [verifyStatement] at outcome
    split at outcome <;> cases outcome
  | deletePending _ => cases outcome
  | findUser =>
    simp only [verifyStatement, afterFindUser] at outcome
    split at outcome
    · cases outcome
    · split_ifs at outcome
      cases outcome
  | markVerified _ => cases outcome
  | getEmail _ =>
    simp only [verifyStatement] at outcome
    split at outcome <;> cases outcome
  | findKey _ _ => cases outcome

theorem createVerified_verifies {pending : OAuthCode} {email passwordHash : String} {now : DateTime}
    (created : createVerified context state.tables pending email passwordHash now = .ok tables) :
    Verifies context.token state { state with tables := tables } := by
  unfold createVerified at created
  simp only at created
  split at created
  · rename_i encrypted inserted added
    obtain ⟨-, rfl⟩ := SignupTables.insertUser_eq_ok.mp added
    obtain rfl := Except.ok.inj created
    exact ⟨⟨_, rfl, rfl, rfl⟩, rfl, rfl, rfl, rfl, rfl⟩
  · cases created
  · rename_i inserted added
    obtain ⟨-, rfl⟩ := SignupTables.insertUser_eq_ok.mp added
    obtain rfl := Except.ok.inj created
    exact ⟨⟨_, rfl, rfl, rfl⟩, rfl, rfl, rfl, rfl, rfl⟩
  · cases created

theorem advanceVerify_advanced (tracked : Tracked library state) {stage : VerifyStage}
    (claims : Claims library state (.verify context stage)) :
    Advanced library (fun _ => True) state (state.advanceVerify library context stage) := by
  by_cases creating : ∃ pending email passwordHash, stage = .createUser pending email passwordHash
  · obtain ⟨pending, email, passwordHash, rfl⟩ := creating
    simp only [SignupState.advanceVerify, verifyStatement]
    cases created : createVerified context state.tables pending email passwordHash state.now with
    | error error => exact (framed_refl _).advanced_answer tracked
    | ok tables =>
      have verifies := createVerified_verifies created
      refine ⟨verifies.tracked tracked claims, verifies.later, fun next continued => ?_⟩
      rw [← Option.some.inj continued]
      trivial
  · have kept : TablesKept state.tables
        (verifyStatement library context state.tables state.now stage).1 :=
      verifyStatement_kept context state.tables state.now fun pending email passwordHash equal =>
        creating ⟨pending, email, passwordHash, equal⟩
    simp only [SignupState.advanceVerify]
    split
    · rename_i tables next reached
      rw [reached] at kept
      refine (framed_of_tables kept state.answers).advanced_free tracked ?_
      cases next with
      | createUser pending email passwordHash =>
        obtain ⟨rfl, row, member, waits⟩ := verifyStatement_creates reached
        exact tracked.codes row member context.token waits
      | findPending | storeCode | storePoll | deletePending | findUser | markVerified | getEmail
      | findKey => trivial
    · rename_i tables result reached
      rw [reached] at kept
      exact (framed_of_tables kept _).advanced_answer tracked

theorem claims_of_starts {state : SignupState} {call : SignupCall}
    (first : (signupSystem library).starts state call = true) : Claims library state call := by
  cases call with
  | register context stage =>
    cases stage with
    | checkKey => trivial
    | insert | enqueue | deleteUser | deleteKeys => cases first
  | worker context stage =>
    cases stage with
    | receive => trivial
    | update job hash => cases first
  | resend context stage => trivial
  | verify context stage =>
    cases stage with
    | findPending => trivial
    | createUser | storeCode | storePoll | deletePending | findUser | markVerified | getEmail
    | findKey => cases first

theorem event_framed (state : SignupState) (event : SignupEvent) :
    Framed state (state.event event) := by
  cases event with
  | cleanup => exact framed_of_tables (deleteUsers_kept _ _) state.answers
  | joinTeam row =>
    refine framed_of_tables ?_ state.answers
    exact .of_subset (fun _ member => member) fun _ member => member
  | shutdown | advance => exact ⟨.refl _, rfl, rfl, rfl, fun _ member => .inl member⟩

/-- A step that keeps the tokens of outstanding jobs tracks them for all calls under way. -/
theorem poolStep_tracked {pool next : SignupPool} {action : Action SignupCall SignupEvent}
    (asserted : Asserted (Tracked library) (Claims library) pool)
    (keeps : KeepsTokens library pool action)
    (stepped : poolStep (signupSystem library) pool action = some next) :
    Asserted (Tracked library) (Claims library) next := by
  refine asserted.step _ ?_ ?_ ?_ stepped
  · exact fun call _ first => claims_of_starts first
  · rintro index call rfl present
    have claims := asserted.calls call (mem_of_getElem? present)
    have keepsToken := keeps call present
    have advanced : Advanced library (Outstanding pool) pool.shared
        ((signupSystem library).advance pool.shared call) := by
      cases call with
      | register context stage =>
        refine Advanced.weaken (advanceRegister_advanced asserted.common claims ?_)
        rintro keys encrypted rfl
        exact keepsToken
      | worker context stage =>
        refine Advanced.weaken (advanceWorker_advanced asserted.common claims ?_ ?_)
        · rintro rfl
          exact keepsToken
        · rintro job hash rfl
          exact keepsToken
      | resend context stage =>
        refine advanceResend_advanced asserted.common (fun job member => .inl member) ?_
        rintro pubkey rfl
        exact ⟨keepsToken.1, fun job outstanding user member ofUser =>
          keepsToken.2 user member ofUser job outstanding⟩
      | verify context stage => exact (advanceVerify_advanced asserted.common claims).weaken
    refine ⟨advanced.tracked, advanced.claims, fun other member => ?_⟩
    have present := mem_of_mem_eraseIdx member
    exact advanced.later.claims (fun job holds => .inr ⟨other, present, holds⟩)
      (asserted.calls other present)
  · rintro event shared rfl moved
    have framed := event_framed pool.shared event
    cases moved
    exact ⟨framed.tracked asserted.common, fun call member =>
      framed.later.claims (fun _ _ => trivial) (asserted.calls call member)⟩

theorem fresh_tracked (tables : SignupTables) (now : DateTime) :
    Tracked library (.fresh tables now) := by
  have cleared : ∀ user ∈ (SignupState.fresh tables now).tables.users,
      ∃ old ∈ tables.users, user = { old with registeredToken := none } := by
    intro user member
    obtain ⟨old, present, rfl⟩ := mem_map.mp member
    exact ⟨old, present, rfl⟩
  refine ⟨fun user member token has => ?_, fun row member token waits => ?_,
    (fun _ member => nomatch member), nodup_nil, (fun _ _ _ member => nomatch member),
    nofun, nofun⟩
  · obtain ⟨old, present, rfl⟩ := cleared user member
    rcases has with stored | absent
    · exact mem_append_left _ (mem_filterMap.mpr ⟨old, present, stored⟩)
    · cases absent
  · exact ⟨mem_append_right _ (mem_filterMap.mpr ⟨row, member, waits⟩),
      fun _ member => nomatch member⟩

/-- In every run that keeps the tokens that are waited for, the row of every processed registration
holds the hash of its password. -/
theorem processed_holdsHash {tables : SignupTables} {now : DateTime}
    {actions : List (Action SignupCall SignupEvent)} {pool : SignupPool}
    (keeps : Transition.Meets (poolStep (signupSystem library)) (KeepsTokens library)
      (.idle (.fresh tables now)) actions)
    (ran : Transition.run (poolStep (signupSystem library)) (.idle (.fresh tables now)) actions =
      some pool) {job : BcryptJob} (processed : job ∈ pool.shared.processed) {user : SignupUser}
    (member : user ∈ pool.shared.tables.users) (own : user.registeredToken = some job.token) :
    HoldsHash library job user ∧ ∀ time, SignupTables.stale time user = false := by
  have asserted : Asserted (Tracked library) (Claims library) pool :=
    Transition.invariant_of_meets _
      (fun _ _ _ held here stepped => poolStep_tracked held here stepped)
      ⟨fresh_tracked tables now, fun _ member => (not_mem_nil member).elim⟩ keeps ran
  obtain ⟨-, held⟩ := asserted.common.processed job processed
  obtain ⟨salt, hash, hashed, stored⟩ := held user member own
  refine ⟨⟨salt, hash, hashed, stored⟩, fun time => ?_⟩
  simp [SignupTables.stale, stored]

end

/-! ### A registration and a second email -/

def aliceRegisters : SignupCall :=
  .register ⟨1, "alice@example.com", "password", none,
    sampleCrypto.keys ⟨sampleSecret 1⟩, "first"⟩ .checkKey

def aliceResends : SignupCall :=
  .resend ⟨1, none, some "alice@example.com", "second"⟩ .lookup

def workerRound : SignupCall := .worker ⟨"salt", true⟩ .receive

theorem processed_holdsHash_sample :
    ∃ pool, Transition.run (poolStep (signupSystem sampleSignupLibrary)) (.idle (.fresh .empty 0))
        [.start aliceRegisters, .step 0, .step 0, .step 0, .start workerRound, .step 0, .step 0] =
          some pool ∧
      ∃ user ∈ pool.shared.tables.users,
        HoldsHash sampleSignupLibrary ⟨"first", "password"⟩ user ∧
          ∀ time, SignupTables.stale time user = false := by
  have keeps : Transition.Meets (poolStep (signupSystem sampleSignupLibrary))
      (KeepsTokens sampleSignupLibrary) (.idle (.fresh .empty 0))
      [.start aliceRegisters, .step 0, .step 0, .step 0, .start workerRound, .step 0,
        .step 0] := by
    refine .cons _ trivial rfl (.cons _ ?_ rfl (.cons _ ?_ rfl (.cons _ ?_ rfl
      (.cons _ trivial rfl (.cons _ ?_ rfl (.cons _ ?_ rfl trivial))))))
    all_goals
      rintro call present
      cases present
    · trivial
    · exact not_mem_nil
    · trivial
    · exact fun job _ => ⟨"$2b$" ++ job.password, rfl⟩
    · rfl
  exact ⟨_, rfl, _, mem_singleton_self _,
    processed_holdsHash keeps rfl (mem_singleton_self _) (mem_singleton_self _) rfl⟩

/-- A second email sent before the worker is done: the hash is lost, and the cleanup will take the
row. -/
theorem registered_hash_lost :
    ∃ pool, Transition.run (poolStep (signupSystem sampleSignupLibrary)) (.idle (.fresh .empty 0))
        [.start aliceRegisters, .step 0, .step 0, .step 0, .start aliceResends, .step 0, .step 0,
          .start workerRound, .step 0, .step 0] = some pool ∧
      ⟨"first", "password"⟩ ∈ pool.shared.processed ∧
      ∃ user ∈ pool.shared.tables.users, user.registeredToken = some "first" ∧
        user.passwordHash = none ∧ SignupTables.stale (minutes 11) user = true := by
  have ran : (Transition.run (poolStep (signupSystem sampleSignupLibrary))
      (.idle (.fresh .empty 0)) [.start aliceRegisters, .step 0, .step 0, .step 0,
        .start aliceResends, .step 0, .step 0, .start workerRound, .step 0, .step 0]).map
        (fun pool => (pool.shared.processed, pool.shared.tables.users.map fun user =>
          (user.registeredToken, user.passwordHash, SignupTables.stale (minutes 11) user))) =
      some ([⟨"first", "password"⟩], [(some "first", none, true)]) := by decide +kernel
  obtain ⟨pool, reached, shown⟩ := Option.map_eq_some_iff.mp ran
  obtain ⟨processed, users⟩ := Prod.mk.inj shown
  obtain ⟨user, rest, split, row, -⟩ := map_eq_cons_iff.mp users
  obtain ⟨own, hash, stale⟩ := Prod.mk.inj row |>.imp_right Prod.mk.inj
  exact ⟨pool, reached, processed ▸ mem_singleton_self _, user, split ▸ mem_cons_self,
    own, hash, stale⟩

end Divine.Keycast
