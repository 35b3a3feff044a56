/-
This file settles when the relay signer uses a key without an authorization.
-/

import Divine.Keycast.ClientCheck
import Divine.Keycast.SignerSteps

namespace Divine.Keycast

open List Option Function Fallible Interleaving Table

/-! ### What the signer relies on -/

/-- A team's active handler, which is used without asking the database for its authorization. -/
def Nip46Handler.unchecked (handler : Nip46Handler) : Bool :=
  !handler.isOAuth && handler.status = .active

/-- The authorization that a request relies on: a team's since its row was found, a user's since its
client was checked. -/
def RequestStage.reliesOn : RequestStage → Option Bool
  | lookup | findOAuth | oauthKey _ _ | findTeam | checkClient _ _ | claimClient _ _ => none
  | teamKey row foundAt => if row.active foundAt then some false else none
  | insert handler => if handler.unchecked then some false else none
  | storeClient _ _ _ => some true
  | dispatch handler opened =>
      if opened.method.requiresValidation then some handler.isOAuth else none
  | send handler _ answer => if answer.usesSecret then some handler.isOAuth else none

/-- The bunker key of the team's authorization that the listener relies on. -/
def ListenerStage.reliesOn : ListenerStage → Option String
  | idle | oauthKey _ _ _ => none
  | teamKey bunkerPubkey _ _ => some bunkerPubkey
  | insert bunkerPubkey handler => if handler.unchecked then some bunkerPubkey else none

/-- The signer relies on an authorization: in a request, or, a team's, in the cache or in the
listener. -/
def ReliesOn (pool : SignerPool) (isOAuth : Bool) (bunkerPubkey : String) : Prop :=
  (∃ call ∈ pool.calls, call.bunkerPubkey = bunkerPubkey ∧ call.stage.reliesOn = some isOAuth) ∨
    (isOAuth = false ∧ ((∃ handler, pool.shared.handlers bunkerPubkey = some handler ∧
      handler.unchecked = true) ∨ pool.shared.listener.reliesOn = some bunkerPubkey))

/-- The row of a user whose key the request or the listener is about to load. -/
def Loading (pool : SignerPool) (row : OAuthAuthorization) : Prop :=
  (∃ call ∈ pool.calls, ∃ foundAt, call.stage = .oauthKey row foundAt) ∨
    ∃ bunkerPubkey tenantId, pool.shared.listener = .oauthKey bunkerPubkey tenantId row

/-- An `Upsert` that the listener takes loads no expired authorization of a team. -/
def UpsertsActive (shared : SignerShared) : Prop :=
  ∀ bunkerPubkey tenantId rest row, shared.listener = .idle →
    shared.channel = .upsert bunkerPubkey tenantId false :: rest →
    selectUpsertTeam shared.database bunkerPubkey tenantId = some row → row.active shared.now = true

def StoresNewKey (pool : SignerPool) (operation : ApiOperation) : Prop :=
  ∀ row, row ∈ pool.shared.database.oauthAuthorizations ∨ Loading pool row →
    operation.newcomer ≠ some row.userPubkey

/-- No authorization that the signer relies on is revoked or deleted, or expires. -/
def EndsNothing (pool : SignerPool) (database : Database) (now : DateTime) : Prop :=
  ∀ isOAuth bunkerPubkey, ReliesOn pool isOAuth bunkerPubkey →
    pool.shared.database.stands pool.shared.now isOAuth bunkerPubkey = true →
    database.stands now isOAuth bunkerPubkey = true

def Harmless (pool : SignerPool) : Action RequestCall SignerEvent → Prop
  | .start _ | .step _ => True
  | .environment event =>
    match event with
    | .advance duration => EndsNothing pool pool.shared.database (pool.shared.now + duration)
    | .api operation =>
        EndsNothing pool (operation.apply pool.shared.now pool.shared.database) pool.shared.now ∧
          StoresNewKey pool operation
    | .listen => UpsertsActive pool.shared
    | .evict _ | .cleanUp | .send _ => True

/-! ### What holds of a handler, of a request and of the signer -/

section

variable (crypto : Crypto)

/-- A handler is of its own bunker key, and a team's active one of an authorization that stands. -/
structure Nip46Handler.Sound (handler : Nip46Handler) (database : Database) (now : DateTime)
    (bunkerPubkey : String) : Prop where
  own : handler.isOAuth = true → handler.bunkerPubkey = bunkerPubkey
  stands : handler.unchecked = true → database.stands now false bunkerPubkey = true

def FoundFor (database : Database) (bunkerPubkey : String) (row : OAuthAuthorization) : Prop :=
  row.bunkerPublicKey = bunkerPubkey ∧
    bunkerDerived crypto database row.userPubkey row.tenantId row.secretHash row.bunkerPublicKey =
      true

def RequestStage.Sound (database : Database) (now : DateTime) (bunkerPubkey : String) :
    RequestStage → Prop
  | lookup | findOAuth | findTeam => True
  | oauthKey row _ => FoundFor crypto database bunkerPubkey row
  | teamKey row foundAt =>
      row.active foundAt = true → database.stands now false bunkerPubkey = true
  | insert handler => handler.Sound database now bunkerPubkey
  | checkClient handler _ | claimClient handler _ =>
      handler.isOAuth = true ∧ handler.bunkerPubkey = bunkerPubkey
  | storeClient handler _ _ =>
      handler.isOAuth = true ∧ database.stands now true bunkerPubkey = true
  | dispatch handler opened => opened.method.requiresValidation = true →
      database.stands now handler.isOAuth bunkerPubkey = true
  | send handler _ answer => answer.usesSecret = true →
      database.stands now handler.isOAuth bunkerPubkey = true

def RequestCall.Sound (shared : SignerShared) (call : RequestCall) : Prop :=
  call.stage.Sound crypto shared.database shared.now call.bunkerPubkey

def ListenerStage.Sound (database : Database) (now : DateTime) : ListenerStage → Prop
  | idle => True
  | oauthKey bunkerPubkey tenantId row =>
      row.tenantId = tenantId ∧ FoundFor crypto database bunkerPubkey row
  | teamKey bunkerPubkey _ _ => database.stands now false bunkerPubkey = true
  | insert bunkerPubkey handler => handler.Sound database now bunkerPubkey

/-- A signature, a ciphertext or a plaintext was sent while the authorization stood. -/
def Response.Stood (response : Response) : Prop :=
  response.sent.answer.usesSecret = true →
    response.database.stands response.now response.isOAuth response.bunkerPubkey = true

structure SignerShared.Sound (shared : SignerShared) : Prop where
  derived : shared.database.BunkersDerived crypto
  cached : ∀ bunkerPubkey handler, shared.handlers bunkerPubkey = some handler →
    handler.Sound shared.database shared.now bunkerPubkey
  listening : shared.listener.Sound crypto shared.database shared.now
  stood : ∀ response ∈ shared.responses, response.Stood

end

/-! ### Changes of the database and the clock -/

section

variable {crypto : Crypto} {before after : Database} {now later : DateTime} {bunkerPubkey : String}

theorem Nip46Handler.Sound.change {handler : Nip46Handler}
    (sound : handler.Sound before now bunkerPubkey)
    (kept : handler.unchecked = true → before.stands now false bunkerPubkey = true →
      after.stands later false bunkerPubkey = true) : handler.Sound after later bunkerPubkey :=
  ⟨sound.own, fun unchecked => kept unchecked (sound.stands unchecked)⟩

/-- A stage stays sound when what it relies on stands on, and the key it loads stays the bunker's.
-/
theorem RequestStage.Sound.change {stage : RequestStage}
    (sound : stage.Sound crypto before now bunkerPubkey)
    (kept : ∀ isOAuth, stage.reliesOn = some isOAuth →
      before.stands now isOAuth bunkerPubkey = true →
        after.stands later isOAuth bunkerPubkey = true)
    (loading : ∀ row foundAt, stage = .oauthKey row foundAt →
      FoundFor crypto before bunkerPubkey row → FoundFor crypto after bunkerPubkey row) :
    stage.Sound crypto after later bunkerPubkey := by
  cases stage with
  | lookup | findOAuth | findTeam => trivial
  | checkClient handler opened | claimClient handler opened => exact sound
  | oauthKey row foundAt => exact loading row foundAt rfl sound
  | teamKey row foundAt =>
    intro active
    exact kept false (if_pos active) (sound active)
  | insert handler =>
    exact Nip46Handler.Sound.change sound fun unchecked => kept false (if_pos unchecked)
  | storeClient handler opened id => exact ⟨sound.1, kept true rfl sound.2⟩
  | dispatch handler opened =>
    intro required
    exact kept handler.isOAuth (if_pos required) (sound required)
  | send handler opened answer =>
    intro secret
    exact kept handler.isOAuth (if_pos secret) (sound secret)

theorem ListenerStage.Sound.change {stage : ListenerStage}
    (sound : stage.Sound crypto before now)
    (kept : ∀ bunkerPubkey, stage.reliesOn = some bunkerPubkey →
      before.stands now false bunkerPubkey = true → after.stands later false bunkerPubkey = true)
    (loading : ∀ bunkerPubkey tenantId row, stage = .oauthKey bunkerPubkey tenantId row →
      FoundFor crypto before bunkerPubkey row → FoundFor crypto after bunkerPubkey row) :
    stage.Sound crypto after later := by
  cases stage with
  | idle => trivial
  | oauthKey bunkerPubkey tenantId row =>
    exact ⟨sound.1, loading bunkerPubkey tenantId row rfl sound.2⟩
  | teamKey bunkerPubkey tenantId row => exact kept bunkerPubkey rfl sound
  | insert bunkerPubkey handler =>
    exact Nip46Handler.Sound.change sound fun unchecked => kept bunkerPubkey (if_pos unchecked)

theorem change_sound {pool : SignerPool} {shared : SignerShared}
    (sound : Asserted (SignerShared.Sound crypto) (RequestCall.Sound crypto) pool)
    (handlers : ∀ bunkerPubkey handler, shared.handlers bunkerPubkey = some handler →
      pool.shared.handlers bunkerPubkey = some handler)
    (listener : shared.listener = pool.shared.listener)
    (responses : shared.responses = pool.shared.responses)
    (ends : EndsNothing pool shared.database shared.now)
    (derived : shared.database.BunkersDerived crypto)
    (loading : ∀ bunkerPubkey row, Loading pool row →
      FoundFor crypto pool.shared.database bunkerPubkey row →
      FoundFor crypto shared.database bunkerPubkey row) :
    shared.Sound crypto ∧ ∀ call ∈ pool.calls, call.Sound crypto shared := by
  refine ⟨⟨derived, ?_, ?_, ?_⟩, ?_⟩
  · intro bunkerPubkey handler cached
    have present := handlers bunkerPubkey handler cached
    refine (sound.common.cached bunkerPubkey handler present).change fun unchecked => ?_
    exact ends false bunkerPubkey (.inr ⟨rfl, .inl ⟨handler, present, unchecked⟩⟩)
  · rw [listener]
    refine sound.common.listening.change ?_ ?_
    · intro bunkerPubkey relies
      exact ends false bunkerPubkey (.inr ⟨rfl, .inr relies⟩)
    · intro bunkerPubkey tenantId row stage
      exact loading bunkerPubkey row (.inr ⟨bunkerPubkey, tenantId, stage⟩)
  · rw [responses]
    exact sound.common.stood
  · intro call member
    refine RequestStage.Sound.change (sound.calls call member) ?_ ?_
    · intro isOAuth relies
      exact ends isOAuth call.bunkerPubkey (.inl ⟨call, member, rfl, relies⟩)
    · intro row foundAt stage
      exact loading call.bunkerPubkey row (.inl ⟨call, member, foundAt, stage⟩)

end

/-! ### Loading a handler -/

section

variable {crypto : Crypto} {database : Database} {now : DateTime} {bunkerPubkey : String}
variable {row : OAuthAuthorization}


section

variable (found : FoundFor crypto database bunkerPubkey row)

include found

theorem FoundFor.derives {encrypted : Bytes} {invalid : String} {secret : SecretKey}
    (selected : personalSecret database row.userPubkey row.tenantId = .ok encrypted)
    (decrypted : decryptSecret crypto encrypted invalid = .ok secret) :
    (crypto.deriveBunkerKeys secret row.secretHash).publicKey.toHex = bunkerPubkey := by
  obtain ⟨key, stored, rfl⟩ := map_eq_some_iff.mp (okOr_eq_ok.mp selected)
  have conditions := selectOne_condition stored
  simp only [Bool.and_eq_true, decide_eq_true_eq] at conditions
  obtain ⟨bytes, opened, parsed⟩ := bind_eq_ok.mp decrypted
  have holds : key.secret crypto = some secret :=
    PersonalKey.secret_eq_some.mpr ⟨bytes, mapError_eq_ok.mp opened, mapError_eq_ok.mp parsed⟩
  rw [← found.1]
  exact bunkerDerived_iff.mp found.2 key (selectOne_mem stored) conditions.1 conditions.2 secret
    holds

theorem loadOAuthHandler_sound {foundAt : DateTime} {handler : Nip46Handler}
    (loaded : loadOAuthHandler crypto database row foundAt = .ok handler) :
    handler.Sound database now bunkerPubkey := by
  obtain ⟨encrypted, selected, rest⟩ := bind_eq_ok.mp loaded
  obtain ⟨secret, decrypted, made⟩ := bind_eq_ok.mp rest
  obtain rfl := pure_eq_ok.mp made
  exact ⟨fun _ => found.derives selected decrypted, nofun⟩

theorem upsertOAuthHandler_sound {handler : Nip46Handler}
    (loaded : upsertOAuthHandler crypto database row.tenantId row now = .ok handler) :
    handler.Sound database now bunkerPubkey := by
  obtain ⟨encrypted, selected, rest⟩ := bind_eq_ok.mp loaded
  obtain ⟨secret, decrypted, made⟩ := bind_eq_ok.mp rest
  obtain rfl := pure_eq_ok.mp made
  exact ⟨fun _ => found.derives selected decrypted, nofun⟩

end

theorem loadTeamHandler_sound {row : Authorization} {foundAt : DateTime} {handler : Nip46Handler}
    (stands : row.active foundAt = true → database.stands now false bunkerPubkey = true)
    (loaded : loadTeamHandler crypto database row foundAt = .ok handler) :
    handler.Sound database now bunkerPubkey := by
  obtain ⟨encrypted, -, rest⟩ := bind_eq_ok.mp loaded
  obtain ⟨secret, -, made⟩ := bind_eq_ok.mp rest
  obtain rfl := pure_eq_ok.mp made
  refine ⟨fun oauth => (by cases oauth), fun unchecked => stands ?_⟩
  have active : (computeStatus none row.expiresAt foundAt).1 = .active :=
    of_decide_eq_true unchecked
  have both := computeStatus_eq_active.mp active
  exact both

theorem upsertTeamHandler_sound {row : Authorization} {tenantId : Int} {handler : Nip46Handler}
    (stands : database.stands now false bunkerPubkey = true)
    (loaded : upsertTeamHandler crypto database tenantId row now = .ok handler) :
    handler.Sound database now bunkerPubkey := by
  obtain ⟨encrypted, -, rest⟩ := bind_eq_ok.mp loaded
  obtain ⟨secret, -, made⟩ := bind_eq_ok.mp rest
  obtain rfl := pure_eq_ok.mp made
  exact ⟨fun oauth => (by cases oauth), fun _ => stands⟩

theorem Nip46Handler.Sound.revoke {handler : Nip46Handler}
    (sound : handler.Sound database now bunkerPubkey) :
    (handler.revoke now).Sound database now bunkerPubkey := by
  refine ⟨sound.own, fun unchecked => ?_⟩
  have active : HandlerStatus.revoked = .active :=
    of_decide_eq_true (Bool.and_eq_true_iff.mp unchecked).2
  cases active

theorem stands_of_oauth (member : row ∈ database.oauthAuthorizations)
    (bunker : row.bunkerPublicKey = bunkerPubkey) (active : row.active now = true) :
    database.stands now true bunkerPubkey = true := by
  refine selectExists_iff.mpr ⟨row, member, ?_⟩
  rw [active, bunker]
  simp

theorem stands_of_team {row : Authorization} (member : row ∈ database.authorizations)
    (bunker : row.bunkerPublicKey = bunkerPubkey) (active : row.active now = true) :
    database.stands now false bunkerPubkey = true := by
  refine selectExists_iff.mpr ⟨row, member, ?_⟩
  rw [active, bunker]
  simp

end

/-! ### The listener and the environment -/

section

variable {crypto : Crypto} {pool : SignerPool} {shared : SignerShared}

theorem receive_sound (sound : pool.shared.Sound crypto) (upserts : UpsertsActive pool.shared)
    (idle : pool.shared.listener = .idle) {command : AuthorizationCommand}
    {rest : List AuthorizationCommand} (taken : pool.shared.channel = command :: rest) :
    (receive pool.shared command).Sound crypto pool.shared.database pool.shared.now := by
  cases command with
  | upsert bunkerPubkey tenantId isOAuth =>
    cases isOAuth with
    | true =>
      simp only [receive]
      split
      · rename_i row selected
        have conditions := selectOne_condition selected
        simp only [Bool.and_eq_true, decide_eq_true_eq] at conditions
        exact ⟨conditions.1.2, conditions.1.1, sound.derived row (selectOne_mem selected)⟩
      · trivial
    | false =>
      simp only [receive]
      split
      · rename_i row selected
        have conditions := selectOne_condition selected
        simp only [Bool.and_eq_true, decide_eq_true_eq] at conditions
        have active := upserts bunkerPubkey tenantId rest row idle taken selected
        exact stands_of_team (selectOne_mem selected) conditions.2 active
      · trivial
  | remove bunkerPubkey =>
    simp only [receive]
    split
    · rename_i handler cached
      exact (sound.cached bunkerPubkey handler cached).revoke
    · trivial
  | reloadAll => trivial

theorem cached_insert {database : Database} {now : DateTime} {handlers : SignerCache}
    (cached : ∀ bunkerPubkey handler, handlers bunkerPubkey = some handler →
      handler.Sound database now bunkerPubkey)
    {inserted : String} {handler : Nip46Handler} (sound : handler.Sound database now inserted) :
    ∀ bunkerPubkey other,
      Function.update handlers inserted (some handler) bunkerPubkey = some other →
      other.Sound database now bunkerPubkey := by
  intro bunkerPubkey other present
  by_cases same : bunkerPubkey = inserted
  · subst same
    rw [update_self] at present
    cases present
    exact sound
  · rw [update_of_ne same] at present
    exact cached bunkerPubkey other present

theorem cached_of_evict {handlers : SignerCache} {evicted other : String} {handler : Nip46Handler}
    (cached : Function.update handlers evicted none other = some handler) :
    handlers other = some handler := by
  by_cases same : other = evicted
  · subst same
    rw [update_self] at cached
    cases cached
  · rw [update_of_ne same] at cached
    exact cached

theorem listen_sound (sound : pool.shared.Sound crypto) (upserts : UpsertsActive pool.shared)
    (listened : listen crypto pool.shared = some shared) :
    shared.Sound crypto ∧ shared.database = pool.shared.database ∧
      shared.now = pool.shared.now := by
  have listening := sound.listening
  cases stage : pool.shared.listener with
  | idle =>
    cases taken : pool.shared.channel with
    | nil => simp [listen, stage, taken] at listened
    | cons command rest =>
      simp only [listen, stage, taken] at listened
      cases listened
      exact ⟨⟨sound.derived, sound.cached, receive_sound sound upserts stage taken, sound.stood⟩,
        rfl, rfl⟩
  | oauthKey bunkerPubkey tenantId row =>
    simp only [listen, stage] at listened
    cases listened
    rw [stage] at listening
    obtain ⟨rfl, found⟩ := listening
    refine ⟨⟨sound.derived, sound.cached, ?_, sound.stood⟩, rfl, rfl⟩
    cases loaded : upsertOAuthHandler crypto pool.shared.database row.tenantId row
        pool.shared.now with
    | error error => trivial
    | ok handler => exact upsertOAuthHandler_sound found loaded
  | teamKey bunkerPubkey tenantId row =>
    simp only [listen, stage] at listened
    cases listened
    rw [stage] at listening
    refine ⟨⟨sound.derived, sound.cached, ?_, sound.stood⟩, rfl, rfl⟩
    cases loaded : upsertTeamHandler crypto pool.shared.database tenantId row pool.shared.now with
    | error error => trivial
    | ok handler => exact upsertTeamHandler_sound listening loaded
  | insert bunkerPubkey handler =>
    simp only [listen, stage] at listened
    cases listened
    rw [stage] at listening
    exact ⟨⟨sound.derived, cached_insert sound.cached listening, trivial, sound.stood⟩, rfl, rfl⟩

theorem signerEvent_sound {event : SignerEvent}
    (sound : Asserted (SignerShared.Sound crypto) (RequestCall.Sound crypto) pool)
    (harmless : Harmless pool (.environment event))
    (moved : signerEvent crypto pool.shared event = some shared) :
    shared.Sound crypto ∧ ∀ call ∈ pool.calls, call.Sound crypto shared := by
  cases event with
  | advance duration =>
    cases moved
    exact change_sound sound (fun _ _ cached => cached) rfl rfl harmless sound.common.derived
      fun _ _ _ found => found
  | evict bunkerPubkey =>
    cases moved
    refine change_sound sound ?_ rfl rfl (fun _ _ _ stands => stands) sound.common.derived
      fun _ _ _ found => found
    exact fun other handler cached => cached_of_evict cached
  | cleanUp =>
    cases moved
    refine change_sound sound ?_ rfl rfl (fun _ _ _ stands => stands) sound.common.derived
      fun _ _ _ found => found
    intro other handler cached
    exact (filter_eq_some_iff.mp cached).1
  | send index =>
    simp only [signerEvent] at moved
    split at moved
    · split at moved
      · cases moved
        exact change_sound sound (fun _ _ cached => cached) rfl rfl (fun _ _ _ stands => stands)
          sound.common.derived fun _ _ _ found => found
      · cases moved
    · cases moved
  | listen =>
    obtain ⟨listened, database, now⟩ := listen_sound sound.common harmless moved
    refine ⟨listened, fun call member => ?_⟩
    unfold RequestCall.Sound
    rw [database, now]
    exact sound.calls call member
  | api operation =>
    simp only [signerEvent] at moved
    split at moved
    · rename_i accepted
      cases moved
      obtain ⟨ends, unknown⟩ := harmless
      refine change_sound sound (fun _ _ cached => cached) rfl rfl ends ?_ ?_
      · exact ApiOperation.bunkersDerived sound.common.derived accepted
          fun row member => unknown row (.inl member)
      · intro bunkerPubkey row loading found
        exact ⟨found.1, ApiOperation.bunkerDerived_apply (unknown row (.inr loading)) found.2⟩
    · cases moved

end

/-! ### Statements of requests -/

section

variable {crypto : Crypto} {handler : Nip46Handler} {before after database : Database}
  {now : DateTime}

/-- Only clients differ: the same authorizations stand, and their bunker keys are derived alike. -/
structure AlikeButClients (before after : Database) : Prop where
  stands : ∀ now isOAuth bunkerPubkey,
    after.stands now isOAuth bunkerPubkey = before.stands now isOAuth bunkerPubkey
  keys : after.personalKeys = before.personalKeys
  rows : ∀ row ∈ after.oauthAuthorizations, ∃ old ∈ before.oauthAuthorizations,
    row.userPubkey = old.userPubkey ∧ row.tenantId = old.tenantId ∧
      row.secretHash = old.secretHash ∧ row.bunkerPublicKey = old.bunkerPublicKey

theorem AlikeButClients.refl (database : Database) : AlikeButClients database database :=
  ⟨fun _ _ _ => rfl, rfl, fun row member => ⟨row, member, rfl, rfl, rfl, rfl⟩⟩

theorem AlikeButClients.bunkerDerived (alike : AlikeButClients before after)
    {userPubkey secretHash bunkerPubkey : String} {tenantId : Int}
    (derived : bunkerDerived crypto before userPubkey tenantId secretHash bunkerPubkey = true) :
    bunkerDerived crypto after userPubkey tenantId secretHash bunkerPubkey = true :=
  bunkerDerived_of_subset (alike.keys ▸ List.Subset.refl _) derived

theorem AlikeButClients.bunkersDerived (alike : AlikeButClients before after)
    (derived : before.BunkersDerived crypto) : after.BunkersDerived crypto := by
  intro row member
  obtain ⟨old, present, user, tenant, hash, bunker⟩ := alike.rows row member
  rw [user, tenant, hash, bunker]
  exact alike.bunkerDerived (derived old present)

theorem storeClient_alike (id : Nat) (clientPubkey : String) :
    AlikeButClients database (handler.storeClient database id clientPubkey) := by
  unfold Nip46Handler.storeClient
  split
  · refine ⟨?_, rfl, ?_⟩
    · intro now isOAuth bunkerPubkey
      cases isOAuth with
      | false => rfl
      | true =>
        refine selectExists_update fun row _ => ?_
        unfold updateRow
        split <;> rfl
    · intro row member
      obtain ⟨old, present, rfl⟩ := mem_update.mp member
      refine ⟨old, present, ?_⟩
      unfold updateRow
      split <;> exact ⟨rfl, rfl, rfl, rfl⟩
  · refine ⟨?_, rfl, fun row member => ⟨row, member, rfl, rfl, rfl, rfl⟩⟩
    intro now isOAuth bunkerPubkey
    cases isOAuth with
    | true => rfl
    | false =>
      refine selectExists_update fun row _ => ?_
      unfold updateRow
      split <;> rfl

theorem dispatch_alike (clientPubkey : String) (opened : OpenRequest) :
    AlikeButClients database (dispatch crypto handler database now clientPubkey opened).1 := by
  unfold dispatch
  split
  · simp only [handleConnect]
    split
    · exact .refl database
    · split
      · rename_i result stored connected
        obtain ⟨_, -, found⟩ := bind_eq_ok.mp connected
        split at found
        · split at found
          · cases pure_eq_ok.mp found
            exact .refl database
          · cases found
        · cases pure_eq_ok.mp found
          exact storeClient_alike _ _
      · exact .refl database
  · exact .refl database

theorem RequestCall.Sound.alike {shared : SignerShared} {call : RequestCall}
    (sound : call.Sound crypto shared) (alike : AlikeButClients shared.database after) :
    call.Sound crypto { shared with database := after } := by
  refine RequestStage.Sound.change sound ?_ ?_
  · intro isOAuth _ stands
    rw [alike.stands]
    exact stands
  · intro row _ _ found
    exact ⟨found.1, alike.bunkerDerived found.2⟩

theorem SignerShared.Sound.alike {shared : SignerShared} (sound : shared.Sound crypto)
    (alike : AlikeButClients shared.database after) :
    SignerShared.Sound crypto { shared with database := after } := by
  refine ⟨alike.bunkersDerived sound.derived, ?_, ?_, sound.stood⟩
  · intro bunkerPubkey handler cached
    refine (sound.cached bunkerPubkey handler cached).change fun _ stands => ?_
    rw [alike.stands]
    exact stands
  · refine sound.listening.change ?_ ?_
    · intro bunkerPubkey _ stands
      rw [alike.stands]
      exact stands
    · intro bunkerPubkey _ row _ found
      exact ⟨found.1, alike.bunkerDerived found.2⟩

theorem stands_of_isConnected (oauth : handler.isOAuth = true) {clientPubkey : String}
    (connected : handler.isConnected database now clientPubkey = true) :
    database.stands now true handler.bunkerPubkey = true := by
  obtain ⟨row, member, bunker, active, -⟩ := isConnected_hasClient oauth connected
  exact stands_of_oauth member bunker active

theorem stands_of_unconnectedId (oauth : handler.isOAuth = true) {id : Nat}
    (found : handler.unconnectedId database now = some id) :
    database.stands now true handler.bunkerPubkey = true := by
  obtain ⟨row, member, -, bunker, -, active⟩ := unconnectedId_row oauth found
  exact stands_of_oauth member bunker active

/-- A request goes on soundly with a sound handler: a team's tombstone never gets to the dispatch.
-/
theorem withHandler_sound {shared : SignerShared} {call next : RequestCall}
    (sound : handler.Sound shared.database shared.now call.bunkerPubkey)
    (goesOn : call.withHandler crypto handler = some next) : next.Sound crypto shared := by
  unfold RequestCall.withHandler at goesOn
  split at goesOn
  · cases goesOn
  · rename_i opened _
    split at goesOn
    · cases goesOn
      intro secret
      cases secret
    · rename_i live
      split at goesOn
      · rename_i checked
        cases goesOn
        have oauth := (Bool.and_eq_true_iff.mp checked).1
        exact ⟨oauth, sound.own oauth⟩
      · rename_i unchecked
        cases goesOn
        intro required
        have team : handler.isOAuth = false := by
          cases kind : handler.isOAuth with
          | false => rfl
          | true =>
            rw [kind, required] at unchecked
            exact absurd rfl unchecked
        rw [team]
        refine sound.stands ?_
        have active : handler.status = .active := by
          unfold Nip46Handler.tombstoneErrorMessage at live
          cases status : handler.status with
          | active => rfl
          | revoked | expired =>
            rw [status] at live
            cases live
        unfold Nip46Handler.unchecked
        rw [team, active]
        rfl

end

/-! ### Runs -/

section

variable {crypto : Crypto} {shared : SignerShared} {call : RequestCall}

/-- A statement leaves sound: the signer, the request it goes on with and the others. -/
structure KeepsSound (crypto : Crypto) (shared : SignerShared)
    (outcome : SignerShared × Option RequestCall) : Prop where
  signer : outcome.1.Sound crypto
  goesOn : ∀ next, outcome.2 = some next → next.Sound crypto outcome.1
  others : ∀ other : RequestCall, other.Sound crypto shared → other.Sound crypto outcome.1

theorem KeepsSound.of_read (sound : shared.Sound crypto) {continued : Option RequestCall}
    (goesOn : ∀ next, continued = some next → next.Sound crypto shared) :
    KeepsSound crypto shared (shared, continued) :=
  ⟨sound, goesOn, fun _ held => held⟩

theorem KeepsSound.of_read_some (sound : shared.Sound crypto) {next : RequestCall}
    (own : next.Sound crypto shared) : KeepsSound crypto shared (shared, some next) := by
  refine .of_read sound fun other same => ?_
  rw [← Option.some.inj same]
  exact own

theorem KeepsSound.of_alike (sound : shared.Sound crypto) {after : Database}
    (alike : AlikeButClients shared.database after) {continued : Option RequestCall}
    (goesOn : ∀ next, continued = some next →
      next.Sound crypto { shared with database := after }) :
    KeepsSound crypto shared ({ shared with database := after }, continued) :=
  ⟨sound.alike alike, goesOn, fun _ held => held.alike alike⟩

variable {event : Nip46Event} {bunkerPubkey : String} {handler : Nip46Handler}
  {opened : OpenRequest}

theorem dispatch_keepsSound (sound : shared.Sound crypto)
    (own : RequestCall.Sound crypto shared ⟨event, bunkerPubkey, .dispatch handler opened⟩) :
    KeepsSound crypto shared
      (advanceRequest crypto shared ⟨event, bunkerPubkey, .dispatch handler opened⟩) := by
  have alike : AlikeButClients shared.database (dispatch crypto handler shared.database shared.now
      event.author.toHex opened).1 := dispatch_alike _ opened
  cases dispatched : dispatch crypto handler shared.database shared.now event.author.toHex
      opened with
  | mk stored answer =>
    rw [dispatched] at alike
    simp only [advanceRequest, dispatched]
    refine .of_alike sound alike fun next goesOn => ?_
    obtain ⟨given, answered, rfl⟩ := map_eq_some_iff.mp goesOn
    rw [toOption_eq_some.mp answered] at dispatched
    intro secret
    obtain ⟨required, same⟩ := dispatch_usesSecret dispatched secret
    rw [same]
    exact own required

theorem send_keepsSound {answer : Answer} (sound : shared.Sound crypto)
    (own : RequestCall.Sound crypto shared ⟨event, bunkerPubkey, .send handler opened answer⟩) :
    KeepsSound crypto shared
      (advanceRequest crypto shared ⟨event, bunkerPubkey, .send handler opened answer⟩) := by
  simp only [advanceRequest]
  split
  · rename_i sent sealing
    refine ⟨⟨sound.derived, sound.cached, sound.listening, fun response member => ?_⟩,
      fun next goesOn => ?_, fun _ held => held⟩
    · rcases mem_cons.mp member with rfl | earlier
      · obtain ⟨content, -, built⟩ := bind_eq_ok.mp sealing
        obtain rfl := pure_eq_ok.mp built
        exact own
      · exact sound.stood response earlier
    · cases goesOn
  · refine .of_read sound fun next goesOn => ?_
    cases goesOn

/-- A statement keeps the signer sound, goes on soundly, and leaves the others sound. -/
theorem advanceRequest_sound (sound : shared.Sound crypto) (own : call.Sound crypto shared) :
    KeepsSound crypto shared (advanceRequest crypto shared call) := by
  obtain ⟨event, bunkerPubkey, stage⟩ := call
  cases stage with
  | lookup =>
    simp only [advanceRequest]
    split
    · rename_i handler cached
      exact .of_read sound fun next goesOn =>
        withHandler_sound (sound.cached _ handler cached) goesOn
    · exact .of_read_some sound trivial
  | findOAuth =>
    simp only [advanceRequest]
    split
    · rename_i row found
      have bunker : row.bunkerPublicKey = bunkerPubkey := by
        simpa using selectOne_condition found
      exact .of_read_some sound ⟨bunker, sound.derived row (selectOne_mem found)⟩
    · exact .of_read_some sound trivial
  | oauthKey row foundAt =>
    refine .of_read sound fun next goesOn => ?_
    obtain ⟨handler, loaded, rfl⟩ := map_eq_some_iff.mp goesOn
    exact loadOAuthHandler_sound own (toOption_eq_some.mp loaded)
  | findTeam =>
    refine .of_read sound fun next goesOn => ?_
    obtain ⟨row, found, rfl⟩ := map_eq_some_iff.mp goesOn
    have bunker : row.bunkerPublicKey = bunkerPubkey := by
      simpa using selectOne_condition found
    exact fun active => stands_of_team (selectOne_mem found) bunker active
  | teamKey row foundAt =>
    refine .of_read sound fun next goesOn => ?_
    obtain ⟨handler, loaded, rfl⟩ := map_eq_some_iff.mp goesOn
    exact loadTeamHandler_sound own (toOption_eq_some.mp loaded)
  | insert handler =>
    refine ⟨⟨sound.derived, cached_insert sound.cached own, sound.listening, sound.stood⟩,
      fun next goesOn => ?_, fun _ held => held⟩
    exact withHandler_sound own goesOn
  | checkClient handler opened =>
    obtain ⟨oauth, bunker⟩ := own
    simp only [advanceRequest]
    split
    · rename_i connected
      refine .of_read_some sound fun _ => ?_
      have stands := stands_of_isConnected oauth connected
      rw [bunker] at stands
      rw [oauth]
      exact stands
    · exact .of_read_some sound ⟨oauth, bunker⟩
  | claimClient handler opened =>
    obtain ⟨oauth, bunker⟩ := own
    simp only [advanceRequest]
    split
    · rename_i id found
      have stands := stands_of_unconnectedId oauth found
      rw [bunker] at stands
      exact .of_read_some sound ⟨oauth, stands⟩
    · refine .of_read_some sound fun secret => ?_
      cases secret
  | storeClient handler opened id =>
    obtain ⟨oauth, stands⟩ := own
    have alike : AlikeButClients shared.database
        (handler.storeClient shared.database id event.author.toHex) := storeClient_alike id _
    refine .of_alike sound alike fun next goesOn => ?_
    cases goesOn
    intro _
    rw [alike.stands, oauth]
    exact stands
  | dispatch handler opened => exact dispatch_keepsSound sound own
  | send handler opened answer => exact send_keepsSound sound own

theorem poolStep_sound {shouldHandle : String → Bool} {pool next : SignerPool}
    {action : Action RequestCall SignerEvent}
    (sound : Asserted (SignerShared.Sound crypto) (RequestCall.Sound crypto) pool)
    (harmless : Harmless pool action)
    (stepped : poolStep (signerSystem crypto shouldHandle) pool action = some next) :
    Asserted (SignerShared.Sound crypto) (RequestCall.Sound crypto) next := by
  refine sound.step _ ?_ ?_ ?_ stepped
  · rintro ⟨event, bunkerPubkey, stage⟩ _ first
    cases stage with
    | lookup => trivial
    | findOAuth | oauthKey _ _ | findTeam | teamKey _ _ | insert _ | checkClient _ _
    | claimClient _ _ | storeClient _ _ _ | dispatch _ _ | send _ _ _ => cases first
  · intro index call _ present
    obtain ⟨kept, goesOn, others⟩ :=
      advanceRequest_sound sound.common (sound.calls call (mem_of_getElem? present))
    exact ⟨kept, goesOn, fun other member =>
      others other (sound.calls other (mem_of_mem_eraseIdx member))⟩
  · rintro event shared rfl moved
    exact signerEvent_sound sound harmless moved

/-- In every run whose steps end nothing the signer relies on, every response was sent while an
authorization stood behind its key. -/
theorem responses_stood {shouldHandle : String → Bool} {database : Database} {now : DateTime}
    {outbox : List AuthorizationCommand} {actions : List (Action RequestCall SignerEvent)}
    {pool : SignerPool} (derived : database.BunkersDerived crypto)
    (harmless : Transition.Meets (poolStep (signerSystem crypto shouldHandle)) Harmless
      (.idle (.fresh database now outbox)) actions)
    (ran : Transition.run (poolStep (signerSystem crypto shouldHandle))
      (.idle (.fresh database now outbox)) actions = some pool) :
    ∀ response ∈ pool.shared.responses, response.Stood := by
  have initial : Asserted (SignerShared.Sound crypto) (RequestCall.Sound crypto)
      (Pool.idle (.fresh database now outbox)) :=
    ⟨⟨derived, fun _ _ cached => (nomatch cached), trivial, fun _ member => (nomatch member)⟩,
      fun _ member => (nomatch member)⟩
  exact (Transition.invariant_of_meets _
    (fun _ _ _ held here stepped => poolStep_sound held here stepped) initial harmless
    ran).common.stood

end

/-! ### A team's authorization that is deleted -/

def sampleCall : RequestCall where
  event := sampleEvent
  bunkerPubkey := sampleKey 2
  stage := .lookup

/-- The request is answered with a handler loaded from the team's row, and time passes. -/
def answeredRun : List (Action RequestCall SignerEvent) :=
  .start sampleCall :: List.replicate 7 (.step 0) ++ [.environment (.advance 5)]

/-- For each response, newest first, whether the secret was used and the authorization stood. -/
def summary (pool : SignerPool) : List (Bool × Bool) :=
  pool.shared.responses.map fun response => (response.sent.answer.usesSecret,
    response.database.stands response.now response.isOAuth response.bunkerPubkey)

theorem responses_stood_sample :
    ∃ pool, Transition.run (poolStep (signerSystem sampleSigner fun _ => true))
        (.idle (.fresh teamDatabase 0 [])) answeredRun = some pool ∧
      summary pool = [(true, true)] ∧ ∀ response ∈ pool.shared.responses, response.Stood := by
  have answered : (Transition.run (poolStep (signerSystem sampleSigner fun _ => true))
      (.idle (.fresh teamDatabase 0 [])) answeredRun).map summary = some [(true, true)] := by
    decide +kernel
  obtain ⟨pool, ran, summarized⟩ := map_eq_some_iff.mp answered
  have derived : teamDatabase.BunkersDerived sampleSigner := nofun
  have harmless : Transition.Meets (poolStep (signerSystem sampleSigner fun _ => true))
      Harmless (.idle (.fresh teamDatabase 0 [])) answeredRun := by
    refine .cons _ trivial rfl (.cons _ trivial rfl (.cons _ trivial rfl (.cons _ trivial rfl
      (.cons _ trivial rfl (.cons _ trivial rfl (.cons _ trivial rfl (.cons _ trivial rfl
        (.cons _ ?_ rfl trivial))))))))
    -- the team's row has no expiry
    exact fun isOAuth bunkerPubkey _ stands => stands
  exact ⟨pool, ran, summarized, responses_stood derived harmless ran⟩

/-- A team's authorization is deleted while cached, and the next request is still answered. -/
theorem responses_afterDeletion :
    teamDatabase.BunkersDerived sampleSigner ∧
      ∃ pool, Transition.run (poolStep (signerSystem sampleSigner fun _ => true))
          (.idle (.fresh teamDatabase 0 [])) (answeredRun ++
            [Action.environment (SignerEvent.api (.deleteAuthorization 1 1 1)), .start sampleCall,
              .step 0, .step 0, .step 0]) = some pool ∧
        ∃ response ∈ pool.shared.responses, ¬response.Stood := by
  refine ⟨fun _ member => (nomatch member), ?_⟩
  have answered : (Transition.run (poolStep (signerSystem sampleSigner fun _ => true))
      (.idle (.fresh teamDatabase 0 [])) (answeredRun ++
        [Action.environment (SignerEvent.api (.deleteAuthorization 1 1 1)), .start sampleCall,
          .step 0, .step 0, .step 0])).map summary = some [(true, false), (true, true)] := by
    decide +kernel
  obtain ⟨pool, ran, summarized⟩ := map_eq_some_iff.mp answered
  refine ⟨pool, ran, ?_⟩
  have member : (true, false) ∈ summary pool := by
    rw [summarized]
    exact mem_cons_self
  obtain ⟨response, sent, same⟩ := mem_map.mp member
  obtain ⟨secret, ended⟩ := Prod.mk.inj same
  refine ⟨response, sent, fun stood => ?_⟩
  rw [stood secret] at ended
  cases ended

end Divine.Keycast
