/-
This file compares the two places that enforce an authorization's policy: the HTTP
handler, which loads the permissions once and checks every operation, and the relay
signer, which reads them for each signature and checks nothing else.
-/

import Divine.Keycast.HandlerOwner
import Divine.Keycast.Nip46

namespace Divine.Keycast

open Fallible Table

/-! ### The relay signer's check -/

section

variable (crypto : Crypto) (handler : Nip46Handler) (database : Database)

/-- The policy check before the secret key is used: signing has one, and `answerMethod_eq` shows
that nothing else has. -/
def relayCheck : Operation → Except SignerError Unit
  | .sign event => validatePermissionsForSign crypto handler database event
  | .encrypt _ _ | .decrypt _ _ => .ok ()

theorem checkSignPermissions_eq_ok {event : UnsignedEvent} {permissions : List Permission} :
    checkSignPermissions event permissions = .ok () ↔
      ∀ permission ∈ permissions, ∃ custom, permission.toCustomPermission = .ok custom ∧
        custom.canSign event = true := by
  induction permissions with
  | nil => simp [checkSignPermissions]
  | cons permission rest ih =>
    unfold checkSignPermissions
    rw [List.forall_mem_cons, ← ih]
    cases converted : permission.toCustomPermission with
    | error error => simp
    | ok custom =>
      cases allowed : custom.canSign event <;> simp [allowed]

theorem validatePermissionsForSign_eq_ok {event : UnsignedEvent} :
    validatePermissionsForSign crypto handler database event = .ok () ↔
      ∃ permissions, storedPermissions crypto handler database = .ok permissions ∧
        ∀ permission ∈ permissions, ∃ custom, permission.toCustomPermission = .ok custom ∧
          custom.canSign event = true := by
  unfold validatePermissionsForSign
  rw [bind_eq_ok]
  refine exists_congr fun permissions => and_congr_right fun _ => ?_
  rw [← checkSignPermissions_eq_ok]
  cases permissions <;> rfl

end

/-! ### The same authorization on both paths -/

section

variable {environment : Environment} {database : Database}

/-- A handler of the signer and a bunker key of the HTTP path stand for one stored authorization
that can be loaded. -/
structure SameAuthorization (environment : Environment) (database : Database)
    (bunkerPubkey : String) (handler : Nip46Handler) (row : OAuthAuthorization) : Prop where
  oauth : handler.isOAuth = true
  byBunker : database.findByBunkerPubkey bunkerPubkey = some row
  byNumber : database.findOAuthAuthorization handler.tenantId handler.authorizationId = some row
  keys : loadUserKeys environment database row.userPubkey "Personal keys not found" =
    .ok handler.userKeys
  cacheKeys : ∃ bunkerKey handleKey,
    loadCacheKey environment "bunker_pubkey" bunkerPubkey = .ok bunkerKey ∧
      loadHandleKey environment row.authorizationHandle bunkerKey = .ok handleKey

/-- The HTTP path loads a handler and its check passes the operation. -/
def HttpPermits (environment : Environment) (database : Database) (bunkerPubkey : String)
    (operation : Operation) : Prop :=
  ∃ handler, loadHandlerOnDemand environment database bunkerPubkey = .ok handler ∧
    handler.validatePermission operation = .ok ()

def RelayPermits (crypto : Crypto) (database : Database) (handler : Nip46Handler)
    (operation : Operation) : Prop :=
  relayCheck crypto handler database operation = .ok ()
variable {row : OAuthAuthorization}


theorem loadPermissions_eq_ok {permissions : List CustomPermission} :
    loadPermissions environment database row.policyId = .ok permissions ↔
      ∃ stored, database.oauthPermissions environment.crypto row = .ok stored ∧
        permissions = stored.filterMap fun permission =>
          permission.toCustomPermission.toOption := by
  unfold loadPermissions Database.oauthPermissions
  cases row.policyId with
  | none => simp [eq_comm]
  | some policyId =>
    simp only
    cases database.getPermissions environment.crypto policyId with
    | error error => simp
    | ok stored => simp [eq_comm]

theorem storedPermissions_eq_ok {bunkerPubkey : String} {handler : Nip46Handler}
    (same : SameAuthorization environment database bunkerPubkey handler row)
    {permissions : List Permission} :
    storedPermissions environment.crypto handler database = .ok permissions ↔
      database.oauthPermissions environment.crypto row = .ok permissions := by
  unfold storedPermissions
  rw [if_pos same.oauth, same.byNumber]
  exact mapError_eq_ok

/-- A permission of the list that remains allows the operation when every row that converts
does. -/
theorem mem_allowance_filterMap {stored : List Permission} {user : PublicKey}
    {operation : Operation} :
    operation ∈ allowance (stored.filterMap fun permission =>
        permission.toCustomPermission.toOption) user ↔
      ∀ permission ∈ stored, ∀ custom, permission.toCustomPermission = .ok custom →
        custom.allows user operation = true := by
  have option : ∀ (permission : Permission) custom,
      permission.toCustomPermission.toOption = some custom ↔
        permission.toCustomPermission = .ok custom := by
    intro permission custom
    cases permission.toCustomPermission <;> simp [Except.toOption]
  constructor
  · intro allowed permission member custom converted
    exact allowed custom (List.mem_filterMap.mpr
      ⟨permission, member, (option permission custom).mpr converted⟩)
  · intro allowed custom member
    obtain ⟨permission, stored, converted⟩ := List.mem_filterMap.mp member
    exact allowed permission stored custom ((option permission custom).mp converted)

/-- The HTTP path permits an operation when the rows can be read and every row that converts
allows it. -/
theorem httpPermits_iff {bunkerPubkey : String} {handler : Nip46Handler}
    (same : SameAuthorization environment database bunkerPubkey handler row) {operation : Operation}
    :
    HttpPermits environment database bunkerPubkey operation ↔
      ∃ stored, database.oauthPermissions environment.crypto row = .ok stored ∧
        ∀ permission ∈ stored, ∀ custom, permission.toCustomPermission = .ok custom →
          custom.allows handler.userKeys.publicKey operation = true := by
  constructor
  · rintro ⟨loaded, loading, passed⟩
    obtain ⟨other, permissions, keys, bunkerKey, handleKey, found, read, keysLoaded, -, -, rfl⟩ :=
      loadHandlerOnDemand_eq_ok.mp loading
    cases same.byBunker.symm.trans found
    obtain rfl := Except.ok.inj (same.keys.symm.trans keysLoaded)
    obtain ⟨stored, fetched, rfl⟩ := loadPermissions_eq_ok.mp read
    have allowed := (HttpRpcHandler.validatePermission_eq_ok _).mp passed
    exact ⟨stored, fetched, mem_allowance_filterMap.mp allowed⟩
  · rintro ⟨stored, fetched, allowed⟩
    obtain ⟨bunkerKey, handleKey, bunkerParsed, handleParsed⟩ := same.cacheKeys
    refine ⟨_, loadHandlerOnDemand_eq_ok.mpr ⟨row, _, handler.userKeys, bunkerKey, handleKey,
      same.byBunker, loadPermissions_eq_ok.mpr ⟨stored, fetched, rfl⟩, same.keys, bunkerParsed,
      handleParsed, rfl⟩, ?_⟩
    exact (HttpRpcHandler.validatePermission_eq_ok _).mpr (mem_allowance_filterMap.mpr allowed)

/-- Both paths treat an operation alike: a signature, when no row fails to convert or one denies it
anyway; another, when the rows can be read and all allow it. -/
def TreatedAlike (stored : Except String (List Permission)) (user : PublicKey) :
    Operation → Prop
  | .sign event =>
      ∀ permissions, stored = .ok permissions →
        (∀ permission ∈ permissions, ∃ custom, permission.toCustomPermission = .ok custom) ∨
          ∃ permission ∈ permissions, ∃ custom, permission.toCustomPermission = .ok custom ∧
            custom.canSign event = false
  | .encrypt plaintext recipient =>
      ∃ permissions, stored = .ok permissions ∧ ∀ permission ∈ permissions, ∀ custom,
        permission.toCustomPermission = .ok custom →
          custom.canEncrypt plaintext user recipient = true
  | .decrypt ciphertext sender =>
      ∃ permissions, stored = .ok permissions ∧ ∀ permission ∈ permissions, ∀ custom,
        permission.toCustomPermission = .ok custom →
          custom.canDecrypt ciphertext sender user = true

/-- The two paths permit an operation alike exactly under the condition on the stored rows. -/
theorem httpPermits_iff_relayPermits_iff {bunkerPubkey : String} {handler : Nip46Handler}
    {row : OAuthAuthorization}
    (same : SameAuthorization environment database bunkerPubkey handler row)
    (operation : Operation) :
    (HttpPermits environment database bunkerPubkey operation ↔
        RelayPermits environment.crypto database handler operation) ↔
      TreatedAlike (database.oauthPermissions environment.crypto row) handler.userKeys.publicKey
        operation := by
  rw [httpPermits_iff same]
  cases operation with
  | sign event =>
    unfold RelayPermits relayCheck TreatedAlike
    simp only [validatePermissionsForSign_eq_ok, storedPermissions_eq_ok same]
    constructor
    · intro alike permissions read
      by_cases passes : ∀ permission ∈ permissions, ∀ custom,
          permission.toCustomPermission = .ok custom → custom.canSign event = true
      · obtain ⟨others, reread, converts⟩ := alike.mp ⟨permissions, read, passes⟩
        obtain rfl := Except.ok.inj (read.symm.trans reread)
        left
        intro permission member
        obtain ⟨custom, converted, -⟩ := converts permission member
        exact ⟨custom, converted⟩
      · right
        push Not at passes
        obtain ⟨permission, member, custom, converted, denied⟩ := passes
        exact ⟨permission, member, custom, converted, Bool.eq_false_iff.mpr denied⟩
    · intro condition
      constructor
      · rintro ⟨permissions, read, passes⟩
        refine ⟨permissions, read, fun permission member => ?_⟩
        rcases condition permissions read with converts | ⟨denier, present, custom,
          converted, denied⟩
        · obtain ⟨custom, converted⟩ := converts permission member
          exact ⟨custom, converted, passes permission member custom converted⟩
        · have allowed : custom.canSign event = true := passes denier present custom converted
          rw [denied] at allowed
          cases allowed
      · rintro ⟨permissions, read, converts⟩
        refine ⟨permissions, read, fun permission member custom converted => ?_⟩
        obtain ⟨other, reconverted, allowed⟩ := converts permission member
        obtain rfl := Except.ok.inj (converted.symm.trans reconverted)
        exact allowed
  | encrypt plaintext recipient | decrypt ciphertext sender =>
    -- the relay permits it whatever the rows are
    exact ⟨fun alike => alike.mpr rfl, fun allowed => ⟨fun _ => rfl, fun _ => allowed⟩⟩

end

/-! ### A read-only authorization -/

/-- The first key's authorization under a policy that only allows decryption. -/
def readOnlyDatabase : Database :=
  { sampleDatabase with
    oauthAuthorizations := sampleDatabase.oauthAuthorizations.map fun row =>
      { row with policyId := some 2 }
    policies := [⟨2, none, some "readonly"⟩]
    permissions := [⟨1, "decrypt_only", "\x7b\x7d"⟩]
    policyPermissions := [⟨2, 1⟩] }

def readOnlyHandler : Nip46Handler :=
  makeHandler sampleCrypto ⟨sampleSecret 1⟩ "$2b$secret" 1 1 true none none 0

theorem readOnlyHandler_same : ∃ row, SameAuthorization sampleEnvironment readOnlyDatabase
    (sampleKey 2) readOnlyHandler row ∧
      readOnlyDatabase.oauthPermissions sampleCrypto row =
        .ok [⟨1, "decrypt_only", .object []⟩] :=
  ⟨_, ⟨rfl, rfl, rfl, rfl, _, _, rfl, rfl⟩, rfl⟩

theorem decrypt_treatedAlike :
    HttpPermits sampleEnvironment readOnlyDatabase (sampleKey 2)
        (.decrypt "ciphertext" ⟨sampleKey 3⟩) ↔
      RelayPermits sampleEnvironment.crypto readOnlyDatabase readOnlyHandler
        (.decrypt "ciphertext" ⟨sampleKey 3⟩) := by
  obtain ⟨row, same, stored⟩ := readOnlyHandler_same
  refine (httpPermits_iff_relayPermits_iff same _).mpr ⟨_, stored, ?_⟩
  intro permission member custom converted
  obtain rfl := List.mem_singleton.mp member
  obtain rfl := Except.ok.inj converted
  rfl

/-- Under a read-only policy the HTTP path refuses to encrypt and the relay path encrypts. -/
theorem encrypt_treatedDifferently :
    ¬(HttpPermits sampleEnvironment readOnlyDatabase (sampleKey 2)
        (.encrypt "hello" ⟨sampleKey 3⟩) ↔
      RelayPermits sampleEnvironment.crypto readOnlyDatabase readOnlyHandler
        (.encrypt "hello" ⟨sampleKey 3⟩)) := by
  obtain ⟨row, same, stored⟩ := readOnlyHandler_same
  intro alike
  obtain ⟨permissions, reread, allowed⟩ := (httpPermits_iff same).mp (alike.mpr rfl)
  obtain rfl := Except.ok.inj (stored.symm.trans reread)
  have denied := allowed _ (List.mem_singleton.mpr rfl) .decryptOnly rfl
  cases denied

end Divine.Keycast
