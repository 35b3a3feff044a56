/-
This file runs the relay signer one statement at a time: the requests in flight, the
listener that carries out the API's commands, the cache of handlers, and the database
under the operations of the API and the clock.
-/

import Divine.Keycast.SignerCommands
import Divine.Library.Interleaving

namespace Divine.Keycast

open Fallible Interleaving

/-! ### The signer -/

/-- The listener of the commands, at the statement it issues next. -/
inductive ListenerStage where
  | idle
  | oauthKey (bunkerPubkey : String) (tenantId : Int) (row : OAuthAuthorization)
  | teamKey (bunkerPubkey : String) (tenantId : Int) (row : Authorization)
  | insert (bunkerPubkey : String) (handler : Nip46Handler)

/-- A request in flight, at the statement it issues next. -/
inductive RequestStage where
  | lookup
  | findOAuth
  | oauthKey (row : OAuthAuthorization) (foundAt : DateTime)
  | findTeam
  | teamKey (row : Authorization) (foundAt : DateTime)
  | insert (handler : Nip46Handler)
  | checkClient (handler : Nip46Handler) (opened : OpenRequest)
  | claimClient (handler : Nip46Handler) (opened : OpenRequest)
  | storeClient (handler : Nip46Handler) (opened : OpenRequest) (id : Nat)
  | dispatch (handler : Nip46Handler) (opened : OpenRequest)
  | send (handler : Nip46Handler) (opened : OpenRequest) (answer : Answer)

structure RequestCall where
  event : Nip46Event
  bunkerPubkey : String
  stage : RequestStage

/-- A response as it was sent for a bunker key, with the database and the time it was sent at. -/
structure Response where
  bunkerPubkey : String
  isOAuth : Bool
  sent : SentResponse
  database : Database
  now : DateTime

/-- The database, the time, the cached handlers, the commands to send, the channel, the listener,
and the responses sent. -/
structure SignerShared where
  database : Database
  now : DateTime
  handlers : SignerCache
  outbox : List AuthorizationCommand
  channel : List AuthorizationCommand
  listener : ListenerStage
  responses : List Response

/-- A signer that has just started, with an empty cache. -/
def SignerShared.fresh (database : Database) (now : DateTime) (outbox : List AuthorizationCommand) :
    SignerShared where
  database := database
  now := now
  handlers := fun _ => none
  outbox := outbox
  channel := []
  listener := .idle
  responses := []

inductive SignerEvent where
  | advance (duration : Nat)
  | evict (bunkerPubkey : String)
  | cleanUp
  | send (index : Nat)
  | listen
  | api (operation : ApiOperation)

section

variable (crypto : Crypto)

/-! ### The listener -/

def receive (shared : SignerShared) : AuthorizationCommand → ListenerStage
  | .upsert bunkerPubkey tenantId true =>
      match selectUpsertOAuth shared.database bunkerPubkey tenantId shared.now with
      | some row => .oauthKey bunkerPubkey tenantId row
      | none => .idle
  | .upsert bunkerPubkey tenantId false =>
      match selectUpsertTeam shared.database bunkerPubkey tenantId with
      | some row => .teamKey bunkerPubkey tenantId row
      | none => .idle
  | .remove bunkerPubkey =>
      match shared.handlers bunkerPubkey with
      | some handler => .insert bunkerPubkey (handler.revoke shared.now)
      | none => .idle
  | .reloadAll => .idle

/-- The stage after a handler was loaded; an error is only logged. -/
def ListenerStage.loaded (bunkerPubkey : String) :
    Except SignerError Nip46Handler → ListenerStage
  | .ok handler => .insert bunkerPubkey handler
  | .error _ => .idle

/-- The listener's next statement, none while it waits for a command. -/
def listen (shared : SignerShared) : Option SignerShared :=
  match shared.listener with
  | .idle =>
    match shared.channel with
    | [] => none
    | command :: rest =>
        some { shared with channel := rest, listener := receive shared command }
  | .oauthKey bunkerPubkey tenantId row =>
      some { shared with
        listener := .loaded bunkerPubkey
          (upsertOAuthHandler crypto shared.database tenantId row shared.now) }
  | .teamKey bunkerPubkey tenantId row =>
      some { shared with
        listener := .loaded bunkerPubkey
          (upsertTeamHandler crypto shared.database tenantId row shared.now) }
  | .insert bunkerPubkey handler =>
      some { shared with
        handlers := Function.update shared.handlers bunkerPubkey (some handler)
        listener := .idle }

/-! ### The environment -/

def tombstoneLifetime : Nat := 24 * 60 * 60 * 1000000

def Nip46Handler.outdated (handler : Nip46Handler) (now : DateTime) : Bool :=
  match handler.tombstoneAt with
  | some since => decide (since + tombstoneLifetime < now)
  | none => false

def signerEvent (shared : SignerShared) : SignerEvent → Option SignerShared
  | .advance duration => some { shared with now := shared.now + duration }
  | .evict bunkerPubkey =>
      some { shared with handlers := Function.update shared.handlers bunkerPubkey none }
  | .cleanUp =>
      some { shared with handlers := fun bunkerPubkey =>
        (shared.handlers bunkerPubkey).filter fun handler => !handler.outdated shared.now }
  | .send index =>
      match shared.outbox[index]? with
      | some command =>
        if shared.channel.length < channelBufferSize then
          some { shared with
            outbox := shared.outbox.eraseIdx index
            channel := shared.channel ++ [command] }
        else none
      | none => none
  | .listen => listen crypto shared
  | .api operation =>
      if operation.accepted crypto shared.database then
        some { shared with
          database := operation.apply shared.now shared.database
          outbox := shared.outbox ++ operation.commands shared.database }
      else none

/-! ### Requests -/

def RequestCall.goTo (call : RequestCall) (stage : RequestStage) : RequestCall :=
  { call with stage := stage }

/-- The request goes on with its handler: a tombstone answers with its error, and the client is
checked before the secret key is used. -/
def RequestCall.withHandler (call : RequestCall) (handler : Nip46Handler) : Option RequestCall :=
  match openRequest crypto handler call.event with
  | .error _ => none
  | .ok opened =>
    match handler.tombstoneErrorMessage with
    | some message => some (call.goTo (.send handler opened (.error message)))
    | none =>
      if handler.isOAuth && opened.method.requiresValidation then
        some (call.goTo (.checkClient handler opened))
      else some (call.goTo (.dispatch handler opened))

def unauthorizedClient : Answer :=
  let error : SignerError :=
    .permissionDenied "Unknown client - not connected to any authorization"
  .error s!"Client not authorized: {error.display}"

/-- One statement of `handle_nip46_request`, with what follows up to the next one. -/
def advanceRequest (shared : SignerShared) (call : RequestCall) :
    SignerShared × Option RequestCall :=
  match call.stage with
  | .lookup =>
    match shared.handlers call.bunkerPubkey with
    | some handler => (shared, call.withHandler crypto handler)
    | none => (shared, some (call.goTo .findOAuth))
  | .findOAuth =>
    match shared.database.findByBunkerPubkey call.bunkerPubkey with
    | some row => (shared, some (call.goTo (.oauthKey row shared.now)))
    | none => (shared, some (call.goTo .findTeam))
  | .oauthKey row foundAt =>
    (shared, (loadOAuthHandler crypto shared.database row foundAt).toOption.map fun handler =>
      call.goTo (.insert handler))
  | .findTeam =>
    (shared, (findTeamByBunkerPubkey shared.database call.bunkerPubkey).map fun row =>
      call.goTo (.teamKey row shared.now))
  | .teamKey row foundAt =>
    (shared, (loadTeamHandler crypto shared.database row foundAt).toOption.map fun handler =>
      call.goTo (.insert handler))
  | .insert handler =>
    ({ shared with
        handlers := Function.update shared.handlers call.bunkerPubkey (some handler) },
      call.withHandler crypto handler)
  | .checkClient handler opened =>
    if handler.isConnected shared.database shared.now call.event.author.toHex then
      (shared, some (call.goTo (.dispatch handler opened)))
    else (shared, some (call.goTo (.claimClient handler opened)))
  | .claimClient handler opened =>
    match handler.unconnectedId shared.database shared.now with
    | some id => (shared, some (call.goTo (.storeClient handler opened id)))
    | none => (shared, some (call.goTo (.send handler opened unauthorizedClient)))
  | .storeClient handler opened id =>
    ({ shared with
        database := handler.storeClient shared.database id call.event.author.toHex },
      some (call.goTo (.dispatch handler opened)))
  | .dispatch handler opened =>
    -- the selects of a permission check, and those of a connect, are one statement here
    let (stored, answer) :=
      dispatch crypto handler shared.database shared.now call.event.author.toHex opened
    ({ shared with database := stored },
      answer.toOption.map fun answer => call.goTo (.send handler opened answer))
  | .send handler opened answer =>
    match sealResponse crypto handler call.event.author opened answer with
    | .ok sent =>
      ({ shared with responses := ⟨call.bunkerPubkey, handler.isOAuth, sent, shared.database,
          shared.now⟩ :: shared.responses }, none)
    | .error _ => (shared, none)

/-- The requests of one instance, which takes those for its own bunker keys. -/
def signerSystem (shouldHandle : String → Bool) :
    System SignerShared RequestCall SignerEvent where
  starts _ call := match call.stage with
    | .lookup => call.event.pTag = some call.bunkerPubkey && shouldHandle call.bunkerPubkey
    | _ => false
  advance := advanceRequest crypto
  environment := signerEvent crypto

abbrev SignerPool := Pool SignerShared RequestCall

end

end Divine.Keycast
