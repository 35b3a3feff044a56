/-
This file settles whom the relay signer answers with a user's secret key.
-/

import Divine.Keycast.HandlerOwner
import Divine.Keycast.Nip46

namespace Divine.Keycast

open Fallible Table

variable {crypto : Crypto}

/-! ### Answers made with the secret key -/

variable {now : DateTime} {clientPubkey : String}

/-- Only a method that requires validation uses the secret key, and it leaves the database. -/
theorem dispatch_usesSecret {handler : Nip46Handler} {database next : Database}
    {opened : OpenRequest} {answer : Answer}
    (dispatched : dispatch crypto handler database now clientPubkey opened = (next, .ok answer))
    (secret : answer.usesSecret = true) :
    opened.method.requiresValidation = true ∧ next = database := by
  unfold dispatch at dispatched
  split at dispatched
  · -- `connect` answers with an acknowledgement or an error
    obtain ⟨-, equal⟩ := Prod.mk.inj dispatched
    have answered := Except.ok.inj equal
    split at answered
    · rw [← answered] at secret
      cases secret
    · split at answered <;> · rw [← answered] at secret; cases secret
  · obtain ⟨same, answered⟩ := Prod.mk.inj dispatched
    refine ⟨?_, same.symm⟩
    unfold answerMethod at answered
    cases method : opened.method with
    | signEvent | nip44Encrypt | nip44Decrypt | nip04Encrypt | nip04Decrypt => rfl
    | getPublicKey | connect | unsupported name =>
      rw [method] at answered
      rw [← Except.ok.inj answered] at secret
      cases secret

/-! ### The stored client -/

def Nip46Handler.HasClient (handler : Nip46Handler) (database : Database) (now : DateTime)
    (clientPubkey : String) : Prop :=
  ∃ row ∈ database.oauthAuthorizations, row.bunkerPublicKey = handler.bunkerPubkey ∧
    row.active now = true ∧ row.connectedClientPubkey = some clientPubkey

def KeepsClients (before after : Database) : Prop :=
  ∀ row ∈ before.oauthAuthorizations, row.connectedClientPubkey.isSome = true →
    row ∈ after.oauthAuthorizations

theorem KeepsClients.refl (database : Database) : KeepsClients database database :=
  fun _ member _ => member

theorem isConnected_hasClient {handler : Nip46Handler} {database : Database}
    (oauth : handler.isOAuth = true)
    (connected : handler.isConnected database now clientPubkey = true) :
    handler.HasClient database now clientPubkey := by
  unfold Nip46Handler.isConnected at connected
  rw [if_pos oauth] at connected
  obtain ⟨row, member, meets⟩ := selectExists_iff.mp connected
  simp only [Bool.and_eq_true, decide_eq_true_eq] at meets
  exact ⟨row, member, meets.1.1, meets.2, meets.1.2⟩

/-- The row `validate_and_store_client` claims is active, of the handler's bunker and without a
client. -/
theorem unconnectedId_row {handler : Nip46Handler} {database : Database} {id : Nat}
    (oauth : handler.isOAuth = true) (found : handler.unconnectedId database now = some id) :
    ∃ row ∈ database.oauthAuthorizations, row.id = id ∧
      row.bunkerPublicKey = handler.bunkerPubkey ∧ row.connectedClientPubkey = none ∧
      row.active now = true := by
  unfold Nip46Handler.unconnectedId at found
  rw [if_pos oauth] at found
  obtain ⟨row, selected, rfl⟩ := Option.map_eq_some_iff.mp found
  have meets := selectOne_condition selected
  simp only [Bool.and_eq_true, decide_eq_true_eq, Option.isNone_iff_eq_none] at meets
  exact ⟨row, selectOne_mem selected, rfl, meets.1.1, meets.1.2, meets.2⟩

theorem storeClient_oauthAuthorizations {handler : Nip46Handler} {database : Database} {id : Nat}
    (oauth : handler.isOAuth = true) :
    (handler.storeClient database id clientPubkey).oauthAuthorizations =
      update database.oauthAuthorizations (fun row => row.id = id)
        fun row => { row with connectedClientPubkey := some clientPubkey } := by
  unfold Nip46Handler.storeClient
  rw [if_pos oauth]

/-- A client is let through when it is stored for an active authorization; no other is replaced. -/
theorem validateAndStoreClient_hasClient {handler : Nip46Handler} {database stored : Database}
    (oauth : handler.isOAuth = true)
    (numbered : Keyed OAuthAuthorization.id database.oauthAuthorizations)
    (validated : handler.validateAndStoreClient database now clientPubkey = .ok stored) :
    handler.HasClient stored now clientPubkey ∧ KeepsClients database stored := by
  unfold Nip46Handler.validateAndStoreClient at validated
  split at validated
  · rename_i connected
    obtain rfl := Except.ok.inj validated
    exact ⟨isConnected_hasClient oauth connected, .refl database⟩
  · cases found : handler.unconnectedId database now with
    | none => simp [found] at validated
    | some id =>
      simp only [found] at validated
      obtain rfl := Except.ok.inj validated
      obtain ⟨row, member, rfl, bunker, unconnected, active⟩ := unconnectedId_row oauth found
      refine ⟨⟨{ row with connectedClientPubkey := some clientPubkey }, ?_, bunker, active, rfl⟩,
        ?_⟩
      · rw [storeClient_oauthAuthorizations oauth]
        exact mem_update.mpr ⟨row, member, updateRow_of (decide_eq_true rfl)⟩
      · intro other otherMember connected
        rw [storeClient_oauthAuthorizations oauth]
        refine mem_update.mpr ⟨other, otherMember, updateRow_of_not (decide_eq_false ?_)⟩
        intro same
        rw [numbered.eq_of_key otherMember member same, unconnected] at connected
        cases connected

theorem answerRequest_hasClient {handler : Nip46Handler} {database next : Database}
    {opened : OpenRequest} {answer : Answer} (oauth : handler.isOAuth = true)
    (numbered : Keyed OAuthAuthorization.id database.oauthAuthorizations)
    (answered : answerRequest crypto handler database now clientPubkey opened =
      (next, .ok answer)) (secret : answer.usesSecret = true) :
    handler.HasClient next now clientPubkey ∧ KeepsClients database next := by
  unfold answerRequest at answered
  split at answered
  · obtain rfl := Except.ok.inj (Prod.mk.inj answered).2
    cases secret
  · split at answered
    · split at answered
      · obtain rfl := Except.ok.inj (Prod.mk.inj answered).2
        cases secret
      · rename_i stored validated
        obtain ⟨-, rfl⟩ := dispatch_usesSecret answered secret
        exact validateAndStoreClient_hasClient oauth numbered validated
    · rename_i unchecked
      obtain ⟨required, -⟩ := dispatch_usesSecret answered secret
      rw [oauth, required] at unchecked
      exact absurd rfl unchecked

/-! ### Requests -/

theorem handleNip46Request_eq_some {shouldHandle : String → Bool} {state next : SignerState}
    {event : Nip46Event} {sent : SentResponse}
    (handled : handleNip46Request crypto shouldHandle state now event = (next, .ok (some sent))) :
    ∃ bunkerPubkey handler opened, event.pTag = some bunkerPubkey ∧
      shouldHandle bunkerPubkey = true ∧
      resolveHandler crypto state.handlers state.database now bunkerPubkey =
        .ok (some handler, next.handlers) ∧
      openRequest crypto handler event = .ok opened ∧
      answerRequest crypto handler state.database now event.author.toHex opened =
        (next.database, .ok sent.answer) ∧
      sent.recipient = event.author := by
  unfold handleNip46Request at handled
  cases target : event.pTag with
  | none => simp [target] at handled
  | some bunkerPubkey =>
    simp only [target] at handled
    split at handled
    · rename_i owned
      split at handled
      · cases handled
      · cases handled
      · rename_i handler handlers resolved
        split at handled
        · cases handled
        · rename_i opened openedOk
          obtain ⟨rfl, sealed⟩ := Prod.mk.inj handled
          obtain ⟨answer, answered, sealing⟩ := bind_eq_ok.mp sealed
          obtain ⟨response, responded, rest⟩ := bind_eq_ok.mp sealing
          cases pure_eq_ok.mp rest
          obtain ⟨content, -, built⟩ := bind_eq_ok.mp responded
          obtain rfl := pure_eq_ok.mp built
          exact ⟨bunkerPubkey, handler, opened, rfl, owned, resolved, openedOk,
            Prod.ext rfl answered, rfl⟩
    · cases handled

/-- The author of an answered request is the client stored for an active authorization of that
bunker, and no client stored before has been replaced. -/
theorem handleNip46Request_hasClient {shouldHandle : String → Bool} {state next : SignerState}
    {now : DateTime} {event : Nip46Event} {sent : SentResponse} {bunkerPubkey : String}
    {handler : Nip46Handler}
    (numbered : Keyed OAuthAuthorization.id state.database.oauthAuthorizations)
    (handled : handleNip46Request crypto shouldHandle state now event = (next, .ok (some sent)))
    (secret : sent.answer.usesSecret = true) (target : event.pTag = some bunkerPubkey)
    (resolved : resolveHandler crypto state.handlers state.database now bunkerPubkey =
      .ok (some handler, next.handlers)) (oauth : handler.isOAuth = true) :
    handler.HasClient next.database now event.author.toHex ∧
      KeepsClients state.database next.database := by
  obtain ⟨other, resolvedHandler, opened, retarget, -, reresolved, -, answered, -⟩ :=
    handleNip46Request_eq_some handled
  cases target.symm.trans retarget
  have same := Except.ok.inj (resolved.symm.trans reresolved)
  obtain rfl := Option.some.inj (Prod.mk.inj same).1
  exact answerRequest_hasClient oauth numbered answered secret

/-! ### Two requests -/

def sampleRequestText : String :=
  "\x7b\"id\":\"1\",\"method\":\"nip44_encrypt\",\"params\":[\"peer\",\"hello\"]\x7d"

def sampleRequest : Json :=
  .object [("id", .string "1"), ("method", .string "nip44_encrypt"),
    ("params", .array [.string (sampleKey 3), .string "hello"])]

def sampleSigner : Crypto :=
  { sampleCrypto with
    parseJson := fun text =>
      if text = sampleRequestText then .ok sampleRequest else sampleCrypto.parseJson text }

def sampleEvent : Nip46Event where
  pTag := some (sampleKey 2)
  author := ⟨sampleKey 1⟩
  content := "nip44:" ++ sampleRequestText

/-- A team's authorization with the third key as its bunker, connected to the fourth key. -/
def teamDatabase : Database :=
  { Database.empty with
    authorizations := [{
      id := 1
      tenantId := 1
      storedKeyId := 1
      secretHash := "$2b$secret"
      bunkerPublicKey := sampleKey 2
      policyId := 1
      expiresAt := none
      connectedClientPubkey := some (sampleKey 3) }]
    storedKeys := [⟨1, 1, sampleKey 0, (sampleSecret 1).map fun byte => byte ^^^ 0x5a, 1⟩]
    policies := [⟨1, some 1, none⟩] }

theorem handleNip46Request_hasClient_sample :
    ∃ next sent handler,
      handleNip46Request sampleSigner (fun _ => true) ⟨sampleDatabase, fun _ => none⟩ 0
          sampleEvent = (next, .ok (some sent)) ∧
        Nip46Handler.HasClient handler next.database 0 (sampleKey 1) ∧
        KeepsClients sampleDatabase next.database := by
  obtain ⟨next, sent, handled, secret⟩ : ∃ next sent,
      handleNip46Request sampleSigner (fun _ => true) ⟨sampleDatabase, fun _ => none⟩ 0
          sampleEvent = (next, .ok (some sent)) ∧ sent.answer.usesSecret = true :=
    ⟨_, _, rfl, rfl⟩
  obtain ⟨bunkerPubkey, handler, -, target, -, resolved, -⟩ := handleNip46Request_eq_some handled
  have oauth : handler.isOAuth = true := by
    obtain rfl : sampleKey 2 = bunkerPubkey := Option.some.inj target
    obtain rfl := Option.some.inj (Prod.mk.inj (Except.ok.inj resolved)).1
    rfl
  have numbered : Keyed OAuthAuthorization.id sampleDatabase.oauthAuthorizations :=
    List.nodup_singleton _
  exact ⟨next, sent, handler, handled,
    handleNip46Request_hasClient numbered handled secret target resolved oauth⟩

/-- A team's bunker encrypts for an author who is not its connected client. -/
theorem handleNip46Request_team :
    ∃ next sent,
      handleNip46Request sampleSigner (fun _ => true) ⟨teamDatabase, fun _ => none⟩ 0
          sampleEvent = (next, .ok (some sent)) ∧
        sent.answer.usesSecret = true ∧ sent.recipient = sampleEvent.author ∧
        ∀ row ∈ next.database.authorizations,
          row.connectedClientPubkey ≠ some sampleEvent.author.toHex := by
  refine ⟨_, _, rfl, rfl, rfl, ?_⟩
  decide

end Divine.Keycast
