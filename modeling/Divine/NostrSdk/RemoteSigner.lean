/-
This file embeds the client of a remote signer.
-/

import Divine.NostrSdk.RemoteResponse
import Divine.Library.Dictionary
import Divine.Library.Promise

namespace Divine.NostrSdk

open Promise

/-! ### Data -/

structure NostrRemoteRequest where
  id : String
  method : String
  params : List String
  deriving DecidableEq

structure RequestEvent where
  pubkey : String
  kind : Nat
  tags : List (List String)
  content : String
  deriving DecidableEq

/-- How a request completes: with a value, null when it could not be sent, or with an exception. -/
inductive RequestOutcome where
  | value (result : Option String)
  | bunkerError (error : String)
  | timedOut
  | closed
  | thrown
  deriving DecidableEq

/-- Where a call of `sendAndWaitForResult` is. -/
inductive RequestStage where
  | preparing (request : NostrRemoteRequest)
  | waiting (completer : Nat)
  | ended (outcome : RequestOutcome)
  deriving DecidableEq

structure RequestCall where
  id : String
  stage : RequestStage
  deriving DecidableEq

structure AuthUrlCall where
  id : String
  authUrl : String
  deriving DecidableEq

structure SignerLibrary where
  response : ResponseLibrary
  /-- `Nip19.decode`. -/
  decodeNip19 : String → String
  getPublicKey : String → String
  /-- `NostrRemoteRequest.encrypt`: the private key of the client, the signer, the request. -/
  encryptRequest : String → String → NostrRemoteRequest → Except Unit (Option String)

/-- The fields of `NostrRemoteSignerInfo` that the client reads. -/
structure SignerInfo where
  remoteSignerPubkey : String
  nsec : Option String
  deriving DecidableEq

/-- The client with its suspended operations: the requests, the decryptions and the reconnections.
-/
structure NostrRemoteSigner where
  localNostrSigner : Option String
  relays : List String
  callbacks : List (String × Nat)
  pendingRequestEvents : List (String × RequestEvent)
  listensToAuthUrls : Bool
  openedAuthUrls : List String
  relayRetryCount : List (String × Nat)
  isClosed : Bool
  isPaused : Bool
  stableRelays : List String
  completers : Heap RequestOutcome
  calls : List RequestCall
  decryptions : List Decryption
  reconnecting : List String
  sent : List (String × RequestEvent)
  authUrlCalls : List AuthUrlCall
  deriving DecidableEq

def NostrRemoteSigner.fresh : NostrRemoteSigner where
  localNostrSigner := none
  relays := []
  callbacks := []
  pendingRequestEvents := []
  listensToAuthUrls := false
  openedAuthUrls := []
  relayRetryCount := []
  isClosed := false
  isPaused := false
  stableRelays := []
  completers := []
  calls := []
  decryptions := []
  reconnecting := []
  sent := []
  authUrlCalls := []

/-! ### Requests -/

namespace NostrRemoteSigner

variable (library : SignerLibrary) (info : SignerInfo) (signer : NostrRemoteSigner)

def proceedTo (place : Nat) (call : RequestCall) (stage : RequestStage) : NostrRemoteSigner :=
  { signer with calls := signer.calls.set place { call with stage := stage } }

/-- `connect`, until it awaits the relays: without a key nothing happens. -/
def connect : NostrRemoteSigner :=
  if isNotBlank info.nsec then
    { signer with localNostrSigner := info.nsec.map library.decodeNip19 }
  else signer

/-- `sendAndWaitForResult`, until it has seen to the relays. -/
def beginRequest (request : NostrRemoteRequest) : NostrRemoteSigner :=
  { signer with calls := signer.calls ++ [⟨request.id, .preparing request⟩] }

def register (place : Nat) (call : RequestCall) (event : RequestEvent) : NostrRemoteSigner :=
  let completer := signer.completers.length
  { signer.proceedTo place call (.waiting completer) with
    completers := allocate signer.completers
    callbacks := Dictionary.put signer.callbacks call.id completer
    pendingRequestEvents := Dictionary.put signer.pendingRequestEvents call.id event
    sent := signer.sent ++ signer.relays.map fun relay => (relay, event) }

/-- The rest of `sendAndWaitForResult`, until it awaits the response. Without a key the late field
throws. -/
def sendRequest (place : Nat) (call : RequestCall) (request : NostrRemoteRequest) :
    NostrRemoteSigner :=
  match signer.localNostrSigner with
  | none => signer.proceedTo place call (.ended .thrown)
  | some privateKey =>
      match library.encryptRequest privateKey info.remoteSignerPubkey request with
      | .error () => signer.proceedTo place call (.ended .thrown)
      | .ok content =>
        match content with
        | some content =>
            if library.getPublicKey privateKey ≠ "" then
              signer.register place call {
                pubkey := library.getPublicKey privateKey
                kind := nostrRemoteSigning
                tags := [["p", info.remoteSignerPubkey]]
                content := content }
            else signer.proceedTo place call (.ended (.value none))
        | none => signer.proceedTo place call (.ended (.value none))

def forget (id : String) : NostrRemoteSigner :=
  { signer with
    callbacks := Dictionary.remove signer.callbacks id
    pendingRequestEvents := Dictionary.remove signer.pendingRequestEvents id }

/-- `onTimeout`. -/
def timeOut (place : Nat) (call : RequestCall) : NostrRemoteSigner :=
  (signer.proceedTo place call (.ended .timedOut)).forget call.id

/-! ### Messages -/

def outcomeOf (response : NostrRemoteResponse) : RequestOutcome :=
  if response.isError then .bunkerError (response.error.getD "")
  else .value (some response.result)

/-- A challenge to approve opens its URL once for each id, whoever sent it. -/
def receiveAuthUrl (response : NostrRemoteResponse) : NostrRemoteSigner :=
  if response.id ∈ signer.openedAuthUrls then signer
  else { signer with
    openedAuthUrls := response.id :: signer.openedAuthUrls
    authUrlCalls := if signer.listensToAuthUrls then
        ⟨response.id, response.error.getD ""⟩ :: signer.authUrlCalls
      else signer.authUrlCalls }

/-- A response completes the completer registered under its id, whoever sent it. -/
def receiveResponse (response : NostrRemoteResponse) : NostrRemoteSigner :=
  match Dictionary.find signer.callbacks response.id with
  | none => signer.forget response.id
  | some completer =>
      { signer.forget response.id with
        completers := complete signer.completers completer (outcomeOf response) }

/-- The rest of `onMessage`, once the content is decrypted. -/
def handleMessage (decryption : Decryption) : NostrRemoteSigner :=
  match decryptResponse library.response decryption.privateKey decryption.event.pubkey
      decryption.event.content with
  | .ok (some response) =>
      if response.isAuthUrl then signer.receiveAuthUrl response
      else signer.receiveResponse response
  | _ => signer

/-- `onMessage`, until it awaits the decryption. -/
def onMessage (relay : String) : RelayMessage → NostrRemoteSigner
  | .event (some event) =>
      if event.kind = nostrRemoteSigning then
        match signer.localNostrSigner with
        | some privateKey =>
            { signer with decryptions := signer.decryptions ++ [⟨event, privateKey⟩] }
        | none => signer
      else signer
  | .eose => { signer with
      stableRelays := relay :: signer.stableRelays
      relayRetryCount := Dictionary.put signer.relayRetryCount relay 0 }
  | _ => signer

/-! ### Reconnections -/

def maxRetries : Nat := 5

def reconnectRelay (relay : String) (connecting connected : Bool) : NostrRemoteSigner :=
  let retryCount := (Dictionary.find signer.relayRetryCount relay).getD 0
  if signer.isClosed || signer.isPaused || decide (maxRetries ≤ retryCount) || connecting ||
      connected && decide (relay ∈ signer.stableRelays) then signer
  else { signer with
    relayRetryCount := Dictionary.put signer.relayRetryCount relay (retryCount + 1)
    reconnecting := signer.reconnecting ++ [relay] }

def relayDisconnected (relay : String) : NostrRemoteSigner :=
  if signer.isClosed || signer.isPaused then signer
  else { signer with
    stableRelays := signer.stableRelays.filter fun other => other ≠ relay
    }.reconnectRelay relay false false

def relayReconnected (place : Nat) (relay : String) (connected : Bool) : NostrRemoteSigner :=
  { signer with
    reconnecting := signer.reconnecting.eraseIdx place
    sent := if connected then signer.sent ++
        signer.pendingRequestEvents.map fun entry => (relay, entry.2)
      else signer.sent }

def pause : NostrRemoteSigner := { signer with isPaused := true }

def resume (disconnected : List String) : NostrRemoteSigner :=
  if signer.isPaused then
    disconnected.foldl (fun resumed relay => resumed.reconnectRelay relay false false)
      { signer with
        isPaused := false
        relayRetryCount := [] }
  else signer

def close : NostrRemoteSigner :=
  { signer with
    isClosed := true
    relays := []
    completers := signer.callbacks.foldl (fun completers entry =>
      complete completers entry.2 .closed) signer.completers
    callbacks := []
    pendingRequestEvents := []
    relayRetryCount := []
    stableRelays := [] }

def outcome (call : RequestCall) : Option RequestOutcome :=
  match call.stage with
  | .preparing _ => none
  | .waiting completer => settled signer.completers completer
  | .ended outcome => some outcome

end NostrRemoteSigner

/-! ### Steps -/

inductive SignerAction where
  | connect
  | relayConnected (relay : String)
  | listenToAuthUrls (listens : Bool)
  | request (request : NostrRemoteRequest)
  | send (place : Nat)
  | abort (place : Nat)
  | timeout (place : Nat)
  | message (relay : String) (message : RelayMessage)
  | decrypted (place : Nat)
  | relayDisconnected (relay : String)
  | relayReconnected (place : Nat) (connected : Bool)
  | pause
  | resume (disconnected : List String)
  | close
  deriving DecidableEq

/-- One operation up to its next suspension. A request times out while its completer is pending. -/
def signerStep (library : SignerLibrary) (info : SignerInfo) (signer : NostrRemoteSigner) :
    SignerAction → Option NostrRemoteSigner
  | .connect => some (signer.connect library info)
  | .relayConnected relay => some { signer with relays := signer.relays ++ [relay] }
  | .listenToAuthUrls listens => some { signer with listensToAuthUrls := listens }
  | .request request => some (signer.beginRequest request)
  | .send place =>
      match signer.calls[place]? with
      | some ⟨id, .preparing request⟩ =>
          some (signer.sendRequest library info place ⟨id, .preparing request⟩ request)
      | _ => none
  | .abort place =>
      match signer.calls[place]? with
      | some ⟨id, .preparing request⟩ =>
          some (signer.proceedTo place ⟨id, .preparing request⟩ (.ended .thrown))
      | _ => none
  | .timeout place =>
      match signer.calls[place]? with
      | some ⟨id, .waiting completer⟩ =>
          if (settled signer.completers completer).isNone then
            some (signer.timeOut place ⟨id, .waiting completer⟩)
          else none
      | _ => none
  | .message relay message => some (signer.onMessage relay message)
  | .decrypted place => signer.decryptions[place]?.map fun decryption =>
      { signer with decryptions := signer.decryptions.eraseIdx place }.handleMessage library
        decryption
  | .relayDisconnected relay => some (signer.relayDisconnected relay)
  | .relayReconnected place connected => signer.reconnecting[place]?.map fun relay =>
      signer.relayReconnected place relay connected
  | .pause => some signer.pause
  | .resume disconnected => some (signer.resume disconnected)
  | .close => some signer.close

end Divine.NostrSdk
