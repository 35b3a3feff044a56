/-
This file embeds the check of the HTTP signing endpoint that finds the authorization of an
origin.
-/

import Divine.Keycast.OAuth

namespace Divine.Keycast

open Fallible Table

/-! ### The check -/

inductive OriginError where
  | forbidden (message : String)
  | invalidCredentials
  | internal (message : String)
  deriving DecidableEq

def OAuthAuthorization.ofOrigin (row : OAuthAuthorization) (userPubkey redirectOrigin : String)
    (tenantId : Int) : Bool :=
  row.userPubkey = userPubkey && row.redirectOrigin = redirectOrigin && row.tenantId = tenantId

section

variable (crypto : Crypto) (database : Database) (now : DateTime)
  (tenantId : Int) (userPubkey redirectOrigin : String)

def Database.firstOfOrigin : Option OAuthAuthorization :=
  selectOne database.oauthAuthorizations fun row =>
    row.ofOrigin userPubkey redirectOrigin tenantId && unexpired row.expiresAt now

def Database.findPolicyIdByOrigin : Option (Option Nat) :=
  (database.firstOfOrigin now tenantId userPubkey redirectOrigin).map OAuthAuthorization.policyId

def getAuthorizationForOrigin : Except OriginError (Option Nat) :=
  okOr (database.findPolicyIdByOrigin now tenantId userPubkey redirectOrigin)
    (.forbidden "No authorization for this origin. Create one via OAuth or /user/bunker/create")

def checkPolicy (event : UnsignedEvent) : Option Nat → Except OriginError Unit
  | none => .ok ()
  | some policyId => do
    let permissions ← (database.getPermissions crypto policyId).mapError fun error =>
      .internal (RepositoryError.database error).display
    let custom ← (permissions.mapM Permission.toCustomPermission).mapError fun error =>
      .internal s!"Failed to convert permissions: {error.display}"
    if custom.isEmpty then return ()
    require (custom.all fun permission => permission.canSign event) .invalidCredentials

def validateSigningPermissions (event : UnsignedEvent) : Except OriginError Unit := do
  let policyId ← getAuthorizationForOrigin database now tenantId userPubkey redirectOrigin
  checkPolicy crypto database event policyId

end

/-! ### What a policy allows -/

section

variable (crypto : Crypto) (database : Database)

/-- The events that every permission of a policy allows, all events when there is no policy. -/
def allowedEvents : Option Nat → Set UnsignedEvent
  | none => Set.univ
  | some policyId =>
    {event | ∃ permissions, database.getPermissions crypto policyId = .ok permissions ∧
      ∀ permission ∈ permissions, ∃ custom, permission.toCustomPermission = .ok custom ∧
        custom.canSign event = true}

variable {crypto database}

theorem checkPolicy_eq_ok {policyId : Option Nat} {event : UnsignedEvent} :
    checkPolicy crypto database event policyId = .ok () ↔
      event ∈ allowedEvents crypto database policyId := by
  cases policyId with
  | none => exact iff_of_true rfl trivial
  | some policyId =>
    unfold checkPolicy
    rw [bind_eq_ok]
    refine exists_congr fun permissions => ?_
    rw [mapError_eq_ok, bind_eq_ok]
    refine and_congr_right fun _ => ⟨?_, fun each => ?_⟩
    · rintro ⟨custom, converted, passed⟩ permission member
      obtain ⟨result, present, same⟩ := mem_mapM (mapError_eq_ok.mp converted) member
      refine ⟨result, same, ?_⟩
      cases empty : custom.isEmpty with
      | true =>
        rw [List.isEmpty_iff.mp empty] at present
        cases present
      | false =>
        rw [if_neg (by simp [empty])] at passed
        exact List.all_eq_true.mp (require_eq_ok.mp passed) result present
    · obtain ⟨custom, converted⟩ := exists_mapM fun permission member =>
        (each permission member).imp fun _ both => both.1
      refine ⟨custom, mapError_eq_ok.mpr converted, ?_⟩
      cases empty : custom.isEmpty with
      | true => rfl
      | false =>
        rw [if_neg Bool.false_ne_true, require_eq_ok, List.all_eq_true]
        intro result present
        obtain ⟨permission, member, same⟩ := mem_of_mapM converted present
        obtain ⟨other, also, allowed⟩ := each permission member
        rw [Except.ok.inj (same.symm.trans also)]
        exact allowed

end

/-! ### What is approved -/

section

variable {crypto : Crypto} {database : Database} {now : DateTime} {tenantId : Int}
  {userPubkey redirectOrigin : String}

theorem validateSigningPermissions_eq_ok {event : UnsignedEvent} :
    validateSigningPermissions crypto database now tenantId userPubkey redirectOrigin event =
        .ok () ↔
      ∃ row, database.firstOfOrigin now tenantId userPubkey redirectOrigin = some row ∧
        event ∈ allowedEvents crypto database row.policyId := by
  unfold validateSigningPermissions getAuthorizationForOrigin Database.findPolicyIdByOrigin
  rw [bind_eq_ok]
  simp only [okOr_eq_ok, Option.map_eq_some_iff, checkPolicy_eq_ok]
  constructor
  · rintro ⟨_, ⟨row, first, rfl⟩, allowed⟩
    exact ⟨row, first, allowed⟩
  · rintro ⟨row, first, allowed⟩
    exact ⟨row.policyId, ⟨row, first, rfl⟩, allowed⟩

/-- An unrevoked and unexpired authorization of the user for the origin allows the event. -/
def ActivelyAllowed (crypto : Crypto) (database : Database) (now : DateTime) (tenantId : Int)
    (userPubkey redirectOrigin : String) (event : UnsignedEvent) : Prop :=
  ∃ row ∈ database.oauthAuthorizations, row.ofOrigin userPubkey redirectOrigin tenantId = true ∧
    row.active now = true ∧ event ∈ allowedEvents crypto database row.policyId

/-- Every event approved for an origin is allowed by an active authorization exactly when the first
unexpired row is unrevoked or allows no more. -/
theorem approved_activelyAllowed_iff :
    (∀ event, validateSigningPermissions crypto database now tenantId userPubkey redirectOrigin
          event = .ok () →
        ActivelyAllowed crypto database now tenantId userPubkey redirectOrigin event) ↔
      ∀ row, database.firstOfOrigin now tenantId userPubkey redirectOrigin = some row →
        row.revokedAt = none ∨
          allowedEvents crypto database row.policyId ⊆
            {event |
              ActivelyAllowed crypto database now tenantId userPubkey redirectOrigin event} := by
  simp only [validateSigningPermissions_eq_ok]
  constructor
  · exact fun covered row first => .inr fun event allowed => covered event ⟨row, first, allowed⟩
  · rintro condition event ⟨row, first, allowed⟩
    rcases condition row first with unrevoked | covered
    · unfold Database.firstOfOrigin at first
      have found := selectOne_condition first
      obtain ⟨own, fresh⟩ := Bool.and_eq_true_iff.mp found
      refine ⟨row, selectOne_mem first, own, ?_, allowed⟩
      unfold OAuthAuthorization.active
      rw [unrevoked, fresh]
      rfl
    · exact covered allowed

end

/-! ### A revoked authorization -/

def sampleOfOrigin (id : Nat) (revokedAt : Option DateTime) : OAuthAuthorization where
  id := id
  userPubkey := sampleKey 0
  redirectOrigin := "https://app.example"
  clientId := some "App"
  bunkerPublicKey := sampleKey 2
  secretHash := "$2b$secret"
  policyId := none
  tenantId := 1
  clientPubkey := none
  connectedClientPubkey := none
  revokedAt := revokedAt
  expiresAt := none
  handleExpiresAt := 1000000
  authorizationHandle := none

def revokedDatabase : Database :=
  { Database.empty with oauthAuthorizations := [sampleOfOrigin 1 (some 5)] }

def sampleNote : UnsignedEvent where
  pubkey := ⟨sampleKey 0⟩
  createdAt := 1700000000
  kind := 1
  tags := []
  content := "hello"

/-- A revoked authorization approves an event. -/
theorem approved_revoked :
    validateSigningPermissions sampleCrypto revokedDatabase 10 1 (sampleKey 0)
        "https://app.example" sampleNote = .ok () ∧
      ¬ActivelyAllowed sampleCrypto revokedDatabase 10 1 (sampleKey 0) "https://app.example"
        sampleNote := by
  refine ⟨rfl, ?_⟩
  rintro ⟨row, member, -, active, -⟩
  obtain rfl := List.mem_singleton.mp member
  cases active

end Divine.Keycast
