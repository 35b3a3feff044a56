/-
This file embeds the session of a client-initiated connection.
-/

import Divine.NostrSdk.RemoteResponse
import Divine.Library.Promise

namespace Divine.NostrSdk

open Promise

/-! ### Data -/

inductive NostrConnectState where
  | idle
  | generating
  | listening
  | connected
  | timeout
  | cancelled
  | error
  deriving DecidableEq

structure NostrRemoteSignerInfo where
  remoteSignerPubkey : String
  relays : List String
  optionalSecret : Option String
  nsec : Option String
  userPubkey : Option String
  isClientInitiated : Bool
  clientPubkey : Option String
  appName : Option String
  appUrl : Option String
  appIcon : Option String
  deriving DecidableEq

structure NostrConnectResult where
  remoteSignerPubkey : String
  userPubkey : Option String
  info : NostrRemoteSignerInfo
  deriving DecidableEq

structure SessionConfig where
  relays : List String
  appName : Option String
  appUrl : Option String
  appIcon : Option String
  permissions : Option String
  callback : Option String

structure ConnectLibrary where
  response : ResponseLibrary
  /-- `Nip19.encodePrivateKey` and `Nip19.decode`. -/
  encodePrivateKey : String → String
  decodeNip19 : String → String
  getPublicKey : String → String
  /-- `Uri.encodeComponent`. -/
  encodeComponent : String → String

/-- The private key and the secret that a session draws. -/
structure Drawn where
  privateKey : String
  secret : String
  deriving DecidableEq

/-- A call of `waitForConnection`, in the state it was made in: refused, or waiting on a completer.
-/
structure Wait where
  calledIn : NostrConnectState
  completer : Option Nat
  deriving DecidableEq

/-- A session with its suspended operations. The timer of a wait has the place of its completer. -/
structure NostrConnectSession where
  state : NostrConnectState
  connectUrl : Option String
  info : Option NostrRemoteSignerInfo
  errorMessage : Option String
  localSigner : Option String
  relays : List String
  connectionCompleter : Option Nat
  timeoutTimer : Option Nat
  isClosed : Bool
  completers : Heap (Option NostrConnectResult)
  timers : List Bool
  starting : Bool
  decryptions : List Decryption
  waits : List Wait
  deriving DecidableEq

def NostrConnectSession.fresh : NostrConnectSession where
  state := .idle
  connectUrl := none
  info := none
  errorMessage := none
  localSigner := none
  relays := []
  connectionCompleter := none
  timeoutTimer := none
  isClosed := false
  completers := []
  timers := []
  starting := false
  decryptions := []
  waits := []

/-! ### The connection URL -/

section Url

variable (library : ConnectLibrary) (config : SessionConfig)

def generateNostrConnectUrl (drawn : Drawn) : NostrRemoteSignerInfo where
  remoteSignerPubkey := ""
  relays := config.relays
  optionalSecret := some drawn.secret
  nsec := some (library.encodePrivateKey drawn.privateKey)
  userPubkey := none
  isClientInitiated := true
  clientPubkey := some (library.getPublicKey drawn.privateKey)
  appName := config.appName
  appUrl := config.appUrl
  appIcon := config.appIcon

def queryParam (name : String) (value : Option String) : List String :=
  match value with
  | some text => if text = "" then [] else [s!"{name}={library.encodeComponent text}"]
  | none => []

def defaultPermissions : String :=
  "sign_event:0,sign_event:1,sign_event:3,sign_event:6,sign_event:7," ++
    "sign_event:34236,nip44_encrypt,nip44_decrypt"

def toNostrConnectUrl (info : NostrRemoteSignerInfo) : Except String String :=
  if !isNotBlank info.clientPubkey then
    .error "clientPubkey is required for nostrconnect:// URLs"
  else if !isNotBlank info.optionalSecret then
    .error "secret is required for nostrconnect:// URLs"
  else
    let relays := info.relays.map fun relay => s!"relay={library.encodeComponent relay}"
    let clientPubkey := info.clientPubkey.getD ""
    let secret := info.optionalSecret.getD ""
    let params := relays ++ [s!"secret={library.encodeComponent secret}"] ++
      queryParam library "name" info.appName ++ queryParam library "url" info.appUrl ++
      queryParam library "image" info.appIcon ++
      [s!"perms={library.encodeComponent (config.permissions.getD defaultPermissions)}"] ++
      queryParam library "callback" config.callback
    .ok (s!"nostrconnect://{clientPubkey}?" ++ "&".intercalate params)

end Url

/-! ### Operations -/

namespace NostrConnectSession

variable (library : ConnectLibrary) (config : SessionConfig) (session : NostrConnectSession)

def completeConnection (value : Option NostrConnectResult) : NostrConnectSession :=
  { session with
    completers := match session.connectionCompleter with
      | none => session.completers
      | some completer => complete session.completers completer value }

def cancelTimer : NostrConnectSession :=
  { session with
    timers := match session.timeoutTimer with
      | none => session.timers
      | some timer => session.timers.set timer false }

def cleanup : NostrConnectSession :=
  { session.cancelTimer with
    isClosed := true
    timeoutTimer := none
    relays := [] }

/-- What `start` does when it throws. -/
def failStart (message : String) : NostrConnectSession :=
  { session with
    errorMessage := some s!"Failed to start session: Bad state: {message}"
    state := .error
    starting := false }

/-- `start`, until it awaits the relays. A second call throws and changes nothing. -/
def start (drawn : Drawn) : NostrConnectSession :=
  if session.state ≠ .idle then session
  else
    let info := generateNostrConnectUrl library config drawn
    let generating := { session with state := .generating, info := some info }
    match toNostrConnectUrl library config info with
    | .error message => generating.failStart message
    | .ok url => { generating with
        connectUrl := some url
        localSigner := info.nsec.map library.decodeNip19
        starting := true }

def relaysConnected (connected : List String) : NostrConnectSession :=
  let joined := { session with relays := session.relays ++ connected }
  if joined.relays = [] then joined.failStart "Failed to connect to any relay"
  else { joined with
    state := .listening
    starting := false }

def waitForConnection : NostrConnectSession :=
  if session.state ≠ .listening then
    { session with waits := session.waits ++ [⟨session.state, none⟩] }
  else
    let completer := session.completers.length
    { session with
      completers := allocate session.completers
      timers := session.timers ++ [true]
      connectionCompleter := some completer
      timeoutTimer := some completer
      waits := session.waits ++ [⟨session.state, some completer⟩] }

/-- What the timer of a wait does: it looks at the completer that is current then. -/
def timedOut : NostrConnectSession :=
  match session.connectionCompleter with
  | none => session
  | some completer =>
      if (settled session.completers completer).isNone then
        { session with state := .timeout }.completeConnection none
      else session

def cancel : NostrConnectSession :=
  if session.isClosed then session
  else ({ session with state := .cancelled }.completeConnection none).cleanup

/-- `_onMessage` up to the decryption of a response. What it throws is caught and logged. -/
def onMessage : RelayMessage → NostrConnectSession
  | .event (some event) =>
      if event.kind = nostrRemoteSigning then
        match session.localSigner with
        | some privateKey =>
            { session with decryptions := session.decryptions ++ [⟨event, privateKey⟩] }
        | none => session
      else session
  | _ => session

def connectedInfo (info : NostrRemoteSignerInfo) (pubkey : String) : NostrRemoteSignerInfo :=
  { info with
    remoteSignerPubkey := pubkey
    userPubkey := none
    isClientInitiated := true }

/-- A response without an error connects, whatever its result: one that is not the secret is logged.
-/
def connect (info : NostrRemoteSignerInfo) (pubkey : String) : NostrConnectSession :=
  let info := connectedInfo info pubkey
  ({ session.cancelTimer with
    info := some info
    state := .connected }.completeConnection (some ⟨pubkey, none, info⟩)).cleanup

/-- The rest of `_handleResponse`, for a response that is not a challenge to approve. -/
def respond (pubkey : String) (response : NostrRemoteResponse) : NostrConnectSession :=
  match session.info with
  | some info =>
      if isNotBlank info.optionalSecret then
        if response.isError then
          let error := response.error.getD ""
          { session with
            errorMessage := some s!"Bunker rejected connection: {error}"
            state := .error }.completeConnection none
        else session.connect info pubkey
      else { session with
        errorMessage := some "Invalid session state: no secret to validate"
        state := .error }
  | none => { session with
      errorMessage := some "Invalid session state: no secret to validate"
      state := .error }

/-- What a decryption leads to. Content that does not decrypt and challenges are only logged. -/
def received (decryption : Decryption) : Option NostrRemoteResponse :=
  match decryptResponse library.response decryption.privateKey decryption.event.pubkey
      decryption.event.content with
  | .ok (some response) => if response.isAuthUrl then none else some response
  | _ => none

def handleResponse (decryption : Decryption) : NostrConnectSession :=
  match received library decryption with
  | some response => session.respond decryption.event.pubkey response
  | none => session

end NostrConnectSession

/-! ### Steps -/

inductive SessionAction where
  | start (drawn : Drawn)
  | relaysConnected (connected : List String)
  | waitForConnection
  | timer (place : Nat)
  | cancel
  | message (message : RelayMessage)
  | decrypted (place : Nat)
  deriving DecidableEq

def sessionStep (library : ConnectLibrary) (config : SessionConfig)
    (session : NostrConnectSession) : SessionAction → Option NostrConnectSession
  | .start drawn => some (session.start library config drawn)
  | .relaysConnected connected =>
      if session.starting ∧ connected.isSublist config.relays then
        some (session.relaysConnected connected)
      else none
  | .waitForConnection => some session.waitForConnection
  | .timer place =>
      if session.timers[place]? = some true then
        some { session with timers := session.timers.set place false }.timedOut
      else none
  | .cancel => some session.cancel
  | .message message => some (session.onMessage message)
  | .decrypted place =>
      session.decryptions[place]?.map fun decryption =>
        { session with decryptions := session.decryptions.eraseIdx place }.handleResponse
          library decryption

end Divine.NostrSdk
