/-
This file runs the HTTP signing path together with everything that changes what its slow
path would answer: sessions revoked, accounts claimed and deleted, policies changed,
authorizations created, and time passing.
-/

import Divine.Keycast.HandlerOwner
import Divine.Library.Transition

namespace Divine.Keycast

open List Option Function Fallible Table

/-! ### Writes -/

/-- The statements of the API that change what the slow path reads. -/
inductive Write where
  | revokeSession (bunkerPubkey userPubkey : String) (tenantId : Int)
  | claimAccount (pubkey : String) (tenantId : Int) (email passwordHash : String)
  | deleteAccount (pubkey : String) (tenantId : Int)
  | linkPermission (policyId permissionId : Nat)
  | deletePolicy (policyId : Nat)
  | createAuthorization (params : Database.CreateOAuthAuthorizationParams)
  deriving DecidableEq

def Write.apply (write : Write) (database : Database) (now : DateTime) : Database :=
  match write with
  | revokeSession bunkerPubkey userPubkey tenantId =>
      database.revokeByBunkerPubkey bunkerPubkey userPubkey tenantId now
  | claimAccount pubkey tenantId email passwordHash =>
      database.claimAccount pubkey tenantId email passwordHash
  | deleteAccount pubkey tenantId => database.deleteAccount pubkey tenantId
  | linkPermission policyId permissionId => database.linkPermission policyId permissionId
  | deletePolicy policyId => database.deletePolicy policyId
  | createAuthorization params => database.createOAuthAuthorization params

/-! ### The running service -/

/-- A handler the slow path has loaded, with its key, and beside it the token and the tenant it was
loaded for. -/
structure LoadedHandler (crypto : Crypto) where
  authHeader : String
  tenantId : Int
  handler : HttpRpcHandler
  key : CacheKey
  keyed : computeTokenCacheKey crypto authHeader = some key

/-- The service: a request that missed the cache has loaded its handler before it inserts it. -/
structure RpcState (crypto : Crypto) where
  database : Database
  now : DateTime
  cache : CacheKey → Option (LoadedHandler crypto)
  pending : List (LoadedHandler crypto)

def RpcState.handlers {crypto : Crypto} (state : RpcState crypto) : HandlerCache :=
  fun key => (state.cache key).map LoadedHandler.handler

inductive RpcAction where
  | request (authHeader : String) (tenantId : Int)
  | insert (index : Nat)
  | evict (key : CacheKey)
  | write (write : Write)
  | advance (duration : Nat)

variable (environment : Environment)

/-- A request up to its answer: a hit drops an invalid handler, a miss leaves one to be inserted. -/
def requestStep (state : RpcState environment.crypto) (authHeader : String) (tenantId : Int) :
    RpcState environment.crypto :=
  match keyed : computeTokenCacheKey environment.crypto authHeader with
  | none => state
  | some key =>
    match state.cache key with
    | some loaded =>
      if loaded.handler.isValid state.now then state
      else { state with cache := Function.update state.cache key none }
    | none =>
      match slowPath environment state.database state.now authHeader tenantId with
      | .ok handler =>
          { state with pending := state.pending ++ [⟨authHeader, tenantId, handler, key, keyed⟩] }
      | .error _ => state

def rpcStep (state : RpcState environment.crypto) :
    RpcAction → Option (RpcState environment.crypto)
  | .request authHeader tenantId => some (requestStep environment state authHeader tenantId)
  | .insert index =>
      state.pending[index]?.map fun loaded =>
        { state with
          cache := Function.update state.cache loaded.key (some loaded)
          pending := state.pending.eraseIdx index }
  | .evict key => some { state with cache := Function.update state.cache key none }
  | .write write => some { state with database := write.apply state.database state.now }
  | .advance duration => some { state with now := state.now + duration }

theorem getHandler_of_hit {environment : Environment} {state : RpcState environment.crypto}
    {authHeader : String} {tenantId : Int} {key : CacheKey}
    {loaded : LoadedHandler environment.crypto}
    (keyed : computeTokenCacheKey environment.crypto authHeader = some key)
    (hit : state.cache key = some loaded) (valid : loaded.handler.isValid state.now = true) :
    (getHandler environment state.database state.handlers state.now authHeader tenantId).1 =
      .ok loaded.handler := by
  unfold getHandler
  rw [keyed]
  simp only [RpcState.handlers, hit, map_some, valid, if_true]

/-! ### Undisturbed runs -/

/-- Two databases agree on every row the slow path reads for a token under a tenant. -/
def SameRows (before after : Database) (tenantId : Int) (validated : ValidatedToken) : Prop :=
  match validated.bunkerPubkey with
  | some bunker =>
      after.findByBunkerPubkey bunker = before.findByBunkerPubkey bunker ∧
      ∀ row, before.findByBunkerPubkey bunker = some row →
        (∀ policyId, row.policyId = some policyId →
          after.permissionRows policyId = before.permissionRows policyId) ∧
        after.findEncryptedKey row.userPubkey = before.findEncryptedKey row.userPubkey
  | none =>
      after.isUnclaimed validated.userPubkey tenantId =
          before.isUnclaimed validated.userPubkey tenantId ∧
        after.findEncryptedKey validated.userPubkey =
          before.findEncryptedKey validated.userPubkey

def RpcState.Holds {crypto : Crypto} (state : RpcState crypto) (loaded : LoadedHandler crypto) :
    Prop :=
  loaded ∈ state.pending ∨ ∃ key, state.cache key = some loaded

/-- The step touches nothing a valid loaded handler depends on. -/
def Undisturbed (tokens : Set String) (state : RpcState environment.crypto) : RpcAction → Prop
  | .request authHeader tenantId =>
      authHeader ∈ tokens ∧
      ∀ key loaded, computeTokenCacheKey environment.crypto authHeader = some key →
        state.cache key = some loaded → loaded.handler.isOAuth = false →
        loaded.tenantId = tenantId
  | .insert _ => True
  | .evict _ => True
  | .write write =>
      ∀ loaded, state.Holds loaded → loaded.handler.isValid state.now = true →
        ∀ validated, validateUcanToken environment state.now loaded.authHeader 0 = .ok validated →
        SameRows state.database (write.apply state.database state.now) loaded.tenantId validated
  | .advance duration =>
      ∀ loaded, state.Holds loaded → loaded.handler.isValid (state.now + duration) = true →
        ∀ validated, validateUcanToken environment state.now loaded.authHeader 0 = .ok validated →
        environment.ucan.isExpired validated.ucan (state.now + duration) = false

def CollisionFree (crypto : Crypto) (tokens : Set String) : Prop :=
  ∀ first ∈ tokens, ∀ second ∈ tokens, ∀ key,
    computeTokenCacheKey crypto first = some key →
    computeTokenCacheKey crypto second = some key → first = second

/-! ### What the slow path depends on -/

section

variable {environment : Environment} {before after : Database}

theorem loadPermissions_congr {policyId : Option Nat}
    (same : ∀ id, policyId = some id → after.permissionRows id = before.permissionRows id) :
    loadPermissions environment after policyId = loadPermissions environment before policyId := by
  cases policyId with
  | none => rfl
  | some id =>
    unfold loadPermissions Database.getPermissions
    simp only [same id rfl]

theorem loadUserKeys_congr {userPubkey missing : String}
    (same : after.findEncryptedKey userPubkey = before.findEncryptedKey userPubkey) :
    loadUserKeys environment after userPubkey missing =
      loadUserKeys environment before userPubkey missing := by
  unfold loadUserKeys
  rw [same]

theorem loadHandlerOnDemand_congr {bunker : String}
    (found : after.findByBunkerPubkey bunker = before.findByBunkerPubkey bunker)
    (read : ∀ row, before.findByBunkerPubkey bunker = some row →
      (∀ policyId, row.policyId = some policyId →
        after.permissionRows policyId = before.permissionRows policyId) ∧
      after.findEncryptedKey row.userPubkey = before.findEncryptedKey row.userPubkey) :
    loadHandlerOnDemand environment after bunker =
      loadHandlerOnDemand environment before bunker := by
  unfold loadHandlerOnDemand
  rw [found]
  cases selected : before.findByBunkerPubkey bunker with
  | none => rfl
  | some row =>
    obtain ⟨policy, key⟩ := read row selected
    show (loadPermissions environment after row.policyId >>= _) =
      (loadPermissions environment before row.policyId >>= _)
    rw [loadPermissions_congr policy, loadUserKeys_congr key]

theorem loadPreloadedUserHandler_congr {pubkey : String} {tenantId : Int}
    (unclaimed : after.isUnclaimed pubkey tenantId = before.isUnclaimed pubkey tenantId)
    (key : after.findEncryptedKey pubkey = before.findEncryptedKey pubkey) :
    loadPreloadedUserHandler environment after pubkey tenantId =
      loadPreloadedUserHandler environment before pubkey tenantId := by
  unfold loadPreloadedUserHandler
  rw [unclaimed, loadUserKeys_congr key]

theorem selectHandler_congr {tenantId : Int} {validated : ValidatedToken}
    (same : SameRows before after tenantId validated) :
    selectHandler environment after tenantId validated =
      selectHandler environment before tenantId validated := by
  unfold SameRows at same
  unfold selectHandler
  cases named : validated.bunkerPubkey with
  | some bunker =>
    simp only [named] at same ⊢
    exact loadHandlerOnDemand_congr same.1 same.2
  | none =>
    simp only [named] at same ⊢
    rw [loadPreloadedUserHandler_congr same.1 same.2]

theorem slowPath_tenant {database : Database} {now : DateTime} {authHeader : String}
    {first second : Int} {handler : HttpRpcHandler}
    (answered : slowPath environment database now authHeader first = .ok handler)
    (same : handler.isOAuth = false → first = second) :
    slowPath environment database now authHeader second = .ok handler := by
  obtain ⟨validated, accepted, selected, valid⟩ := slowPath_eq_ok.mp answered
  refine slowPath_eq_ok.mpr ⟨validated, accepted, ?_, valid⟩
  unfold selectHandler at selected ⊢
  cases named : validated.bunkerPubkey with
  | some bunker =>
    rw [named] at selected
    exact selected
  | none =>
    simp only [named] at selected ⊢
    split at selected
    · rename_i signed
      obtain ⟨keys, cacheKey, -, -, -, rfl⟩ := loadPreloadedUserHandler_eq_ok.mp selected
      rw [if_pos signed, ← same rfl]
      exact selected
    · cases selected

end

/-! ### Cached handlers agree with the slow path -/

section

variable {environment : Environment} {tokens : Set String}

/-- Every handler the service holds is one the slow path would load now, or is not valid. -/
structure Coherent (environment : Environment) (tokens : Set String)
    (state : RpcState environment.crypto) : Prop where
  keyed : ∀ key loaded, state.cache key = some loaded → loaded.key = key
  presented : ∀ loaded, state.Holds loaded → loaded.authHeader ∈ tokens
  agrees : ∀ loaded, state.Holds loaded → loaded.handler.isValid state.now = true →
    slowPath environment state.database state.now loaded.authHeader loaded.tenantId =
      .ok loaded.handler

theorem Coherent.restrict {state next : RpcState environment.crypto}
    (coherent : Coherent environment tokens state)
    (sameDatabase : next.database = state.database) (sameTime : next.now = state.now)
    (keyed : ∀ key loaded, next.cache key = some loaded → loaded.key = key)
    (held : ∀ loaded, next.Holds loaded → state.Holds loaded) :
    Coherent environment tokens next := by
  refine ⟨keyed, fun loaded holds => coherent.presented loaded (held loaded holds), ?_⟩
  intro loaded holds valid
  rw [sameTime] at valid
  rw [sameDatabase, sameTime]
  exact coherent.agrees loaded (held loaded holds) valid
variable {state : RpcState environment.crypto}


section

variable (coherent : Coherent environment tokens state)

include coherent

theorem coherent_evict (key : CacheKey) :
    Coherent environment tokens
      { state with cache := update state.cache key none } := by
  have kept : ∀ other loaded, update state.cache key none other = some loaded →
      state.cache other = some loaded := by
    intro other loaded present
    by_cases equal : other = key
    · rw [equal, update_self] at present
      cases present
    · rwa [update_of_ne equal] at present
  refine coherent.restrict rfl rfl (fun other loaded present =>
    coherent.keyed other loaded (kept other loaded present)) ?_
  rintro loaded (waiting | ⟨other, present⟩)
  · exact .inl waiting
  · exact .inr ⟨other, kept other loaded present⟩

theorem coherent_insert {index : Nat}
    {loaded : LoadedHandler environment.crypto} (waiting : state.pending[index]? = some loaded) :
    Coherent environment tokens
      { state with
        cache := update state.cache loaded.key (some loaded)
        pending := state.pending.eraseIdx index } := by
  have kept : ∀ key other, update state.cache loaded.key (some loaded) key = some other →
      (key = loaded.key ∧ other = loaded) ∨ state.cache key = some other := by
    intro key other present
    by_cases equal : key = loaded.key
    · rw [equal, update_self] at present
      exact .inl ⟨equal, (Option.some.inj present).symm⟩
    · rw [update_of_ne equal] at present
      exact .inr present
  refine coherent.restrict rfl rfl ?_ ?_
  · intro key other present
    rcases kept key other present with ⟨rfl, rfl⟩ | present
    · rfl
    · exact coherent.keyed key other present
  · rintro other (rest | ⟨key, present⟩)
    · exact .inl (mem_of_mem_eraseIdx rest)
    · rcases kept key other present with ⟨-, rfl⟩ | present
      · exact .inl (mem_of_getElem? waiting)
      · exact .inr ⟨key, present⟩

theorem coherent_request {authHeader : String} {tenantId : Int} (presented : authHeader ∈ tokens) :
    Coherent environment tokens (requestStep environment state authHeader tenantId) := by
  unfold requestStep
  split
  · exact coherent
  · rename_i key keyed
    cases state.cache key with
    | some loaded =>
      simp only
      split
      · exact coherent
      · exact coherent_evict coherent key
    | none =>
      cases answered : slowPath environment state.database state.now authHeader tenantId with
      | error error => exact coherent
      | ok handler =>
        refine ⟨coherent.keyed, ?_, ?_⟩
        · rintro loaded (waiting | cached)
          · rcases mem_append.mp waiting with waiting | added
            · exact coherent.presented loaded (.inl waiting)
            · rw [mem_singleton.mp added]
              exact presented
          · exact coherent.presented loaded (.inr cached)
        · rintro loaded (waiting | cached) valid
          · rcases mem_append.mp waiting with waiting | added
            · exact coherent.agrees loaded (.inl waiting) valid
            · rw [mem_singleton.mp added]
              exact answered
          · exact coherent.agrees loaded (.inr cached) valid

theorem coherent_write {write : Write}
    (undisturbed : Undisturbed environment tokens state (.write write)) :
    Coherent environment tokens
      { state with database := write.apply state.database state.now } := by
  refine ⟨coherent.keyed, coherent.presented, fun loaded holds valid => ?_⟩
  obtain ⟨validated, accepted, selected, stillValid⟩ :=
    slowPath_eq_ok.mp (coherent.agrees loaded holds valid)
  have same := undisturbed loaded holds valid validated accepted
  exact slowPath_eq_ok.mpr
    ⟨validated, accepted, (selectHandler_congr same).trans selected, stillValid⟩

end

theorem HttpRpcHandler.isValid_of_later {handler : HttpRpcHandler} {now : DateTime}
    {duration : Nat} (valid : handler.isValid (now + duration) = true) :
    handler.isValid now = true := by
  have both := Bool.and_eq_true_iff.mp valid
  have alive : (!HttpRpcHandler.pastExpiry handler.expiresAt now) = true := by
    have later := both.2
    generalize handler.expiresAt = expiry at later ⊢
    cases expiry with
    | none => rfl
    | some expires =>
      have bound : ¬expires < now + duration := of_decide_eq_false (Bool.not_eq_true' _ |>.mp later)
      refine (Bool.not_eq_true' _).mpr (decide_eq_false fun early => bound ?_)
      exact Nat.lt_add_right duration early
  exact Bool.and_eq_true_iff.mpr ⟨both.1, alive⟩

theorem coherent_advance (coherent : Coherent environment tokens state) {duration : Nat}
    (undisturbed : Undisturbed environment tokens state (.advance duration)) :
    Coherent environment tokens { state with now := state.now + duration } := by
  refine ⟨coherent.keyed, coherent.presented, fun loaded holds valid => ?_⟩
  have earlier := HttpRpcHandler.isValid_of_later valid
  obtain ⟨validated, accepted, selected, -⟩ :=
    slowPath_eq_ok.mp (coherent.agrees loaded holds earlier)
  have alive := undisturbed loaded holds valid validated accepted
  exact slowPath_eq_ok.mpr
    ⟨validated, validateUcanToken_later environment accepted alive, selected, valid⟩

theorem coherent_step {state next : RpcState environment.crypto} {action : RpcAction}
    (coherent : Coherent environment tokens state)
    (undisturbed : Undisturbed environment tokens state action)
    (stepped : rpcStep environment state action = some next) :
    Coherent environment tokens next := by
  cases action with
  | request authHeader tenantId =>
    cases stepped
    exact coherent_request coherent undisturbed.1
  | insert index =>
    obtain ⟨loaded, waiting, rfl⟩ := map_eq_some_iff.mp stepped
    exact coherent_insert coherent waiting
  | evict key =>
    cases stepped
    exact coherent_evict coherent key
  | write write =>
    cases stepped
    exact coherent_write coherent undisturbed
  | advance duration =>
    cases stepped
    exact coherent_advance coherent undisturbed

def RpcState.cold (crypto : Crypto) (database : Database) (now : DateTime) : RpcState crypto where
  database := database
  now := now
  cache := fun _ => none
  pending := []

theorem coherent_cold (database : Database) (now : DateTime) :
    Coherent environment tokens (.cold environment.crypto database now) := by
  have nothing : ∀ loaded, ¬(RpcState.cold environment.crypto database now).Holds loaded := by
    rintro loaded (waiting | ⟨key, cached⟩)
    · cases waiting
    · cases cached
  exact ⟨fun _ _ cached => (nomatch cached), fun loaded holds => absurd holds (nothing loaded),
    fun loaded holds => absurd holds (nothing loaded)⟩

/-- An undisturbed request that is answered from the cache is answered as the slow path would answer
it. -/
theorem fastPath_agrees (collisionFree : CollisionFree environment.crypto tokens)
    {database : Database} {now : DateTime} {actions : List RpcAction}
    {state : RpcState environment.crypto} {authHeader : String} {tenantId : Int}
    {key : CacheKey} {cached : HttpRpcHandler}
    (undisturbed : Transition.Meets (rpcStep environment) (Undisturbed environment tokens)
      (.cold environment.crypto database now) (actions ++ [.request authHeader tenantId]))
    (ran : Transition.run (rpcStep environment) (.cold environment.crypto database now) actions =
      some state)
    (hashed : computeTokenCacheKey environment.crypto authHeader = some key)
    (hit : state.handlers key = some cached) (valid : cached.isValid state.now = true) :
    (getHandler environment state.database state.handlers state.now authHeader tenantId).1 =
        .ok cached ∧
      ∃ handler, slowPath environment state.database state.now authHeader tenantId = .ok handler ∧
        handler.userPubkey = cached.userPubkey ∧ handler.permissions = cached.permissions := by
  have coherent : Coherent environment tokens state :=
    Transition.invariant_of_meets (rpcStep environment)
      (fun _ _ _ held here stepped => coherent_step held here stepped)
      (coherent_cold database now) (Transition.Meets.init _ undisturbed) ran
  obtain ⟨presented, sameTenant⟩ := Transition.Meets.last _ undisturbed ran
  obtain ⟨loaded, present, rfl⟩ := map_eq_some_iff.mp hit
  refine ⟨getHandler_of_hit hashed present valid, loaded.handler, ?_, rfl, rfl⟩
  have sameToken : loaded.authHeader = authHeader := by
    refine collisionFree loaded.authHeader (coherent.presented loaded (.inr ⟨key, present⟩))
      authHeader presented key ?_ hashed
    rw [← coherent.keyed key loaded present]
    exact loaded.keyed
  have answered := coherent.agrees loaded (.inr ⟨key, present⟩) valid
  rw [sameToken] at answered
  exact slowPath_tenant answered (sameTenant key loaded hashed present)

end

theorem fastPath_agrees_alice :
    ∃ state cached,
      Transition.run (rpcStep sampleEnvironment) (.cold _ sampleDatabase 0)
          [.request "Bearer alice" 1, .insert 0] = some state ∧
        (getHandler sampleEnvironment state.database state.handlers state.now
          "Bearer alice" 1).1 = .ok cached ∧
        ∃ handler, slowPath sampleEnvironment state.database state.now "Bearer alice" 1 =
            .ok handler ∧
          handler.userPubkey = cached.userPubkey ∧ handler.permissions = cached.permissions := by
  have collisionFree : CollisionFree sampleEnvironment.crypto {"Bearer alice"} := by
    rintro first rfl second rfl key - -
    rfl
  have undisturbed : Transition.Meets (rpcStep sampleEnvironment)
      (Undisturbed sampleEnvironment {"Bearer alice"}) (.cold _ sampleDatabase 0)
      ([.request "Bearer alice" 1, .insert 0] ++ [.request "Bearer alice" 1]) := by
    refine ⟨⟨rfl, nofun⟩, fun requested stepped =>
      ⟨trivial, fun inserted restepped => ⟨⟨rfl, fun key loaded hashed cached => ?_⟩,
        fun _ _ => trivial⟩⟩⟩
    cases stepped
    cases restepped
    cases hashed
    cases cached
    intro _
    rfl
  exact ⟨_, _, rfl, fastPath_agrees collisionFree undisturbed rfl rfl rfl rfl⟩

/-- A handler loaded before a revocation is still answered from the cache. -/
theorem fastPath_outlives_revocation :
    ∃ state handler,
      Transition.run (rpcStep sampleEnvironment) (.cold _ sampleDatabase 0)
          [.request "Bearer alice" 1, .insert 0,
            .write (.revokeSession (sampleKey 2) (sampleKey 0) 1)] = some state ∧
        (getHandler sampleEnvironment state.database state.handlers state.now
          "Bearer alice" 1).1 = .ok handler ∧
        slowPath sampleEnvironment state.database state.now "Bearer alice" 1 =
          .error .invalidToken := by
  refine ⟨_, _, rfl, rfl, ?_⟩
  rfl

end Divine.Keycast
