/-
This file runs the calls by which a client becomes the connected client of a user's
authorization one database statement at a time, so that the statements of several calls
interleave with each other and with disconnections.
-/

import Divine.Keycast.ClientCheck
import Divine.Library.Interleaving

namespace Divine.Keycast

open List Option Interleaving Table

/-! ### Calls -/

/-- A call by a client, at the statement it issues next, of `process_connect` or
`validate_and_store_client`. -/
inductive ClientCall where
  | connect (clientPubkey providedSecret : String)
  | connectUpdate (clientPubkey : String)
  | validate (clientPubkey : String)
  | validateSelect (clientPubkey : String)
  | validateUpdate (clientPubkey : String) (id : Nat)
  deriving DecidableEq

/-- The database, the time, and the clients told that they are connected since the last
disconnection. -/
structure ConnectionState where
  database : Database
  now : DateTime
  told : List String
  deriving DecidableEq

inductive ConnectionEvent where
  | disconnectClient (bunkerPubkey userPubkey : String) (tenantId : Int)
  | revokeSession (bunkerPubkey userPubkey : String) (tenantId : Int)
  | advance (duration : Nat)
  deriving DecidableEq

def ConnectionState.tell (state : ConnectionState) (clientPubkey : String) : ConnectionState :=
  { state with told := clientPubkey :: state.told }

def ConnectionState.fresh (database : Database) (now : DateTime) : ConnectionState where
  database := database
  now := now
  told := []

section

variable (crypto : Crypto) (handler : Nip46Handler)

/-- One statement of a call, and the statement it issues next. -/
def advanceClient (state : ConnectionState) : ClientCall → ConnectionState × Option ClientCall
  | .connect clientPubkey providedSecret =>
      if crypto.verifySecret providedSecret handler.secretHash then
        match handler.existingClient state.database state.now with
        | some existing =>
            if existing = clientPubkey then (state.tell clientPubkey, none) else (state, none)
        | none => (state, some (.connectUpdate clientPubkey))
      else (state, none)
  | .connectUpdate clientPubkey =>
      ({ state with
          database := handler.storeClient state.database handler.authorizationId clientPubkey
        }.tell clientPubkey, none)
  | .validate clientPubkey =>
      if handler.isConnected state.database state.now clientPubkey then
        (state.tell clientPubkey, none)
      else (state, some (.validateSelect clientPubkey))
  | .validateSelect clientPubkey =>
      match handler.unconnectedId state.database state.now with
      | some id => (state, some (.validateUpdate clientPubkey id))
      | none => (state, none)
  | .validateUpdate clientPubkey id =>
      ({ state with database := handler.storeClient state.database id clientPubkey
        }.tell clientPubkey, none)

/-- A disconnection that clears the row ends the time in which clients were told of a connection. -/
def connectionEvent (state : ConnectionState) : ConnectionEvent → Option ConnectionState
  | .disconnectClient bunkerPubkey userPubkey tenantId =>
      let cleared := selectExists state.database.oauthAuthorizations fun row =>
        row.id = handler.authorizationId &&
          state.database.disconnects bunkerPubkey userPubkey tenantId row
      some { state with
        database := state.database.disconnectClient bunkerPubkey userPubkey tenantId
        told := if cleared then [] else state.told }
  | .revokeSession bunkerPubkey userPubkey tenantId =>
      some { state with
        database :=
          state.database.revokeByBunkerPubkey bunkerPubkey userPubkey tenantId state.now }
  | .advance duration => some { state with now := state.now + duration }

def ClientCall.isFirst : ClientCall → Bool
  | connect _ _ | validate _ => true
  | connectUpdate _ | validateSelect _ | validateUpdate _ _ => false

def clientSystem : System ConnectionState ClientCall ConnectionEvent where
  starts _ call := call.isFirst
  advance := advanceClient crypto handler
  environment := connectionEvent handler

abbrev ClientPool := Pool ConnectionState ClientCall

end

/-! ### Writes that replace no client -/

def Nip46Handler.Holds (handler : Nip46Handler) (database : Database) (clientPubkey : String) :
    Prop :=
  ∃ row ∈ database.oauthAuthorizations, row.id = handler.authorizationId ∧
    row.connectedClientPubkey = some clientPubkey

def Nip46Handler.Vacant (handler : Nip46Handler) (database : Database) (clientPubkey : String) :
    Prop :=
  ∃ row ∈ database.oauthAuthorizations, row.id = handler.authorizationId ∧
    (row.connectedClientPubkey = none ∨ row.connectedClientPubkey = some clientPubkey)

/-- No other client's key is replaced, and a lookup by bunker key finds no other authorization. -/
def ReplacesNoClient (handler : Nip46Handler) (state : ConnectionState) : ClientCall → Prop
  | .connect _ _ => True
  | .connectUpdate clientPubkey => handler.Vacant state.database clientPubkey
  | .validate clientPubkey =>
      handler.isConnected state.database state.now clientPubkey = true →
        handler.Holds state.database clientPubkey
  | .validateSelect _ =>
      ∀ id, handler.unconnectedId state.database state.now = some id →
        id = handler.authorizationId
  | .validateUpdate clientPubkey _ => handler.Vacant state.database clientPubkey

def Uncontended (handler : Nip46Handler) (pool : ClientPool) :
    Action ClientCall ConnectionEvent → Prop
  | .start _ | .environment _ => True
  | .step index => ∀ call, pool.calls[index]? = some call →
      ReplacesNoClient handler pool.shared call

/-! ### The stored client is the one told -/

section

variable {crypto : Crypto} {handler : Nip46Handler}

/-- Every client told that it is connected is the one the row holds. -/
structure Agreed (handler : Nip46Handler) (state : ConnectionState) : Prop where
  numbered : Keyed OAuthAuthorization.id state.database.oauthAuthorizations
  stored : ∀ clientPubkey ∈ state.told, handler.Holds state.database clientPubkey

def ClaimsOwn (handler : Nip46Handler) (_ : ConnectionState) : ClientCall → Prop
  | .validateUpdate _ id => id = handler.authorizationId
  | .connect _ _ | .connectUpdate _ | .validate _ | .validateSelect _ => True

variable {state : ConnectionState}

theorem Agreed.tell (agreed : Agreed handler state) {clientPubkey : String}
    (holds : handler.Holds state.database clientPubkey) :
    Agreed handler (state.tell clientPubkey) := by
  refine ⟨agreed.numbered, fun other told => ?_⟩
  rcases mem_cons.mp told with rfl | earlier
  · exact holds
  · exact agreed.stored other earlier

theorem existingClient_holds (oauth : handler.isOAuth = true) {database : Database}
    {now : DateTime} {clientPubkey : String}
    (existing : handler.existingClient database now = some clientPubkey) :
    handler.Holds database clientPubkey := by
  unfold Nip46Handler.existingClient at existing
  rw [if_pos oauth] at existing
  obtain ⟨row, selected, connected⟩ := bind_eq_some_iff.mp existing
  have meets := selectOne_condition selected
  simp only [Bool.and_eq_true, decide_eq_true_eq] at meets
  exact ⟨row, selectOne_mem selected, meets.1.1, connected⟩

/-- A write that replaces no other client leaves its own, and the clients told before were that one.
-/
theorem Agreed.store (oauth : handler.isOAuth = true) (agreed : Agreed handler state)
    {clientPubkey : String} (vacant : handler.Vacant state.database clientPubkey) :
    Agreed handler ({ state with
      database := handler.storeClient state.database handler.authorizationId clientPubkey
      }.tell clientPubkey) := by
  obtain ⟨row, member, own, free⟩ := vacant
  have holds : handler.Holds
      (handler.storeClient state.database handler.authorizationId clientPubkey) clientPubkey := by
    refine ⟨{ row with connectedClientPubkey := some clientPubkey }, ?_, own, rfl⟩
    rw [storeClient_oauthAuthorizations oauth]
    exact mem_update.mpr ⟨row, member, updateRow_of (decide_eq_true own)⟩
  refine ⟨?_, fun other told => ?_⟩
  · show Keyed OAuthAuthorization.id
      (handler.storeClient state.database handler.authorizationId clientPubkey).oauthAuthorizations
    rw [storeClient_oauthAuthorizations oauth]
    exact agreed.numbered.update fun _ => rfl
  · rcases mem_cons.mp told with rfl | earlier
    · exact holds
    · obtain ⟨otherRow, otherMember, otherOwn, connected⟩ := agreed.stored other earlier
      have same := agreed.numbered.eq_of_key otherMember member (otherOwn.trans own.symm)
      rw [same] at connected
      rcases free with none | some
      · rw [none] at connected
        cases connected
      · cases some.symm.trans connected
        exact holds

/-- A statement that replaces no client keeps the row in agreement with what clients were told. -/
theorem advanceClient_agreed (oauth : handler.isOAuth = true) {call : ClientCall}
    (agreed : Agreed handler state) (claims : ClaimsOwn handler state call)
    (replaces : ReplacesNoClient handler state call) :
    Agreed handler (advanceClient crypto handler state call).1 ∧
      ∀ stage, (advanceClient crypto handler state call).2 = some stage →
        ClaimsOwn handler (advanceClient crypto handler state call).1 stage := by
  cases call with
  | connect clientPubkey providedSecret =>
    simp only [advanceClient]
    split
    · split
      · rename_i existing found
        split
        · rename_i same
          exact ⟨agreed.tell (same ▸ existingClient_holds oauth found), nofun⟩
        · exact ⟨agreed, nofun⟩
      · refine ⟨agreed, fun stage next => ?_⟩
        rw [← Option.some.inj next]
        trivial
    · exact ⟨agreed, nofun⟩
  | connectUpdate clientPubkey =>
    exact ⟨agreed.store oauth replaces, nofun⟩
  | validate clientPubkey =>
    simp only [advanceClient]
    split
    · rename_i connected
      exact ⟨agreed.tell (replaces connected), nofun⟩
    · refine ⟨agreed, fun stage next => ?_⟩
      rw [← Option.some.inj next]
      trivial
  | validateSelect clientPubkey =>
    simp only [advanceClient]
    split
    · rename_i id found
      refine ⟨agreed, fun stage next => ?_⟩
      rw [← Option.some.inj next]
      exact replaces id found
    · exact ⟨agreed, nofun⟩
  | validateUpdate clientPubkey id =>
    obtain rfl : id = handler.authorizationId := claims
    exact ⟨agreed.store oauth replaces, nofun⟩

/-- An update that keeps the numbers and the clients of the authorization's rows keeps the
agreement. -/
theorem Agreed.update (agreed : Agreed handler state) {condition : OAuthAuthorization → Bool}
    {set : OAuthAuthorization → OAuthAuthorization} (numbers : ∀ row, (set row).id = row.id)
    (clients : ∀ row ∈ state.database.oauthAuthorizations, row.id = handler.authorizationId →
      (updateRow condition set row).connectedClientPubkey = row.connectedClientPubkey) :
    Agreed handler { state with
      database := { state.database with
        oauthAuthorizations :=
          Table.update state.database.oauthAuthorizations condition set } } := by
  refine ⟨agreed.numbered.update numbers, fun clientPubkey told => ?_⟩
  obtain ⟨row, member, own, connected⟩ := agreed.stored clientPubkey told
  exact ⟨updateRow condition set row, mem_update.mpr ⟨row, member, rfl⟩,
    (updateRow_column OAuthAuthorization.id numbers row).trans own,
    (clients row member own).trans connected⟩

theorem connectionEvent_agreed {state next : ConnectionState} {event : ConnectionEvent}
    (agreed : Agreed handler state) (moved : connectionEvent handler state event = some next) :
    Agreed handler next := by
  cases event with
  | disconnectClient bunkerPubkey userPubkey tenantId =>
    cases moved
    cases cleared : selectExists state.database.oauthAuthorizations fun row =>
        row.id = handler.authorizationId &&
          state.database.disconnects bunkerPubkey userPubkey tenantId row with
    | true =>
      -- nobody counts as told after the row was cleared
      exact ⟨agreed.numbered.update fun _ => rfl, nofun⟩
    | false =>
      refine agreed.update (fun _ => rfl) fun row member own => ?_
      have outside := any_eq_false.mp cleared row member
      simp only [own, decide_true, Bool.true_and] at outside
      rw [updateRow_of_not (Bool.eq_false_of_not_eq_true outside)]
  | revokeSession bunkerPubkey userPubkey tenantId =>
    cases moved
    refine agreed.update (fun _ => rfl) fun row _ _ => ?_
    apply updateRow_column OAuthAuthorization.connectedClientPubkey
    intro _
    rfl
  | advance duration =>
    cases moved
    exact ⟨agreed.numbered, agreed.stored⟩

theorem poolStep_agreed (oauth : handler.isOAuth = true) {pool next : ClientPool}
    {action : Action ClientCall ConnectionEvent}
    (asserted : Asserted (Agreed handler) (ClaimsOwn handler) pool)
    (uncontended : Uncontended handler pool action)
    (stepped : poolStep (clientSystem crypto handler) pool action = some next) :
    Asserted (Agreed handler) (ClaimsOwn handler) next := by
  refine asserted.step _ ?_ ?_ ?_ stepped
  · rintro call rfl first
    cases call with
    | connect | validate => trivial
    | connectUpdate | validateSelect | validateUpdate => cases first
  · rintro index call rfl present
    obtain ⟨kept, established⟩ :
        Agreed handler (advanceClient crypto handler pool.shared call).1 ∧ _ :=
      advanceClient_agreed oauth asserted.common
        (asserted.calls call (mem_of_getElem? present)) (uncontended call present)
    -- what the other calls claim does not depend on the database
    exact ⟨kept, established, fun other member =>
      asserted.calls other (mem_of_mem_eraseIdx member)⟩
  · rintro event shared rfl moved
    exact ⟨connectionEvent_agreed asserted.common moved, asserted.calls⟩

/-- The clients told that they are connected since the last disconnection are one, when writes
replace none. -/
theorem toldClients_agree (oauth : handler.isOAuth = true) {database : Database} {now : DateTime}
    {actions : List (Action ClientCall ConnectionEvent)} {pool : ClientPool}
    (numbered : Keyed OAuthAuthorization.id database.oauthAuthorizations)
    (uncontended : Transition.Meets (poolStep (clientSystem crypto handler))
      (Uncontended handler) (.idle (.fresh database now)) actions)
    (ran : Transition.run (poolStep (clientSystem crypto handler))
      (.idle (.fresh database now)) actions = some pool)
    {first second : String} (firstTold : first ∈ pool.shared.told)
    (secondTold : second ∈ pool.shared.told) : first = second := by
  have asserted : Asserted (Agreed handler) (ClaimsOwn handler) pool :=
    Transition.invariant_of_meets _
      (fun _ _ _ held here stepped => poolStep_agreed oauth held here stepped)
      ⟨⟨numbered, fun _ told => (not_mem_nil told).elim⟩,
        fun _ member => (not_mem_nil member).elim⟩ uncontended ran
  obtain ⟨firstRow, firstMember, firstOwn, firstHeld⟩ := asserted.common.stored first firstTold
  obtain ⟨secondRow, secondMember, secondOwn, secondHeld⟩ :=
    asserted.common.stored second secondTold
  have same := asserted.common.numbered.eq_of_key firstMember secondMember
    (firstOwn.trans secondOwn.symm)
  rw [same, secondHeld] at firstHeld
  exact (Option.some.inj firstHeld).symm

end

/-! ### Two clients -/

def sampleHandler : Nip46Handler :=
  makeHandler sampleCrypto ⟨sampleSecret 1⟩ "$2b$secret" 1 1 true none none 0

theorem toldClients_agree_sample :
    ∃ pool, Transition.run (poolStep (clientSystem sampleCrypto sampleHandler))
        (.idle (.fresh sampleDatabase 0))
        [.start (.connect (sampleKey 3) "secret"), .step 0, .step 0,
          .start (.validate (sampleKey 3)), .step 0] = some pool ∧
      pool.shared.told.length = 2 ∧
      ∀ first ∈ pool.shared.told, ∀ second ∈ pool.shared.told, first = second := by
  have oauth : sampleHandler.isOAuth = true := rfl
  have numbered : Keyed OAuthAuthorization.id sampleDatabase.oauthAuthorizations :=
    nodup_singleton _
  have uncontended : Transition.Meets (poolStep (clientSystem sampleCrypto sampleHandler))
      (Uncontended sampleHandler) (.idle (.fresh sampleDatabase 0))
      [.start (.connect (sampleKey 3) "secret"), .step 0, .step 0,
        .start (.validate (sampleKey 3)), .step 0] := by
    refine .cons _ trivial rfl (.cons _ ?_ rfl (.cons _ ?_ rfl (.cons _ trivial rfl
      (.cons _ ?_ rfl trivial))))
    · rintro call present
      cases present
      trivial
    · rintro call present
      cases present
      exact ⟨_, mem_singleton_self _, rfl, .inl rfl⟩
    · rintro call present
      cases present
      exact fun _ => ⟨_, mem_singleton_self _, rfl, rfl⟩
  exact ⟨_, rfl, rfl, fun first firstTold second secondTold =>
    toldClients_agree oauth numbered uncontended rfl firstTold secondTold⟩

/-- Two connects that both select before either updates are both acknowledged. -/
theorem toldClients_differ :
    ∃ pool, Transition.run (poolStep (clientSystem sampleCrypto sampleHandler))
        (.idle (.fresh sampleDatabase 0))
        [.start (.connect (sampleKey 1) "secret"), .start (.connect (sampleKey 3) "secret"),
          .step 0, .step 1, .step 0, .step 0] = some pool ∧
      sampleKey 1 ∈ pool.shared.told ∧ sampleKey 3 ∈ pool.shared.told ∧
        sampleKey 1 ≠ sampleKey 3 := by
  refine ⟨_, rfl, ?_, ?_, by decide⟩
  · exact mem_cons_of_mem _ mem_cons_self
  · exact mem_cons_self

end Divine.Keycast
