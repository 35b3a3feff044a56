/-
This file embeds the relay signer's side of NIP-46: how a handler is loaded from an
authorization of a user or of a team, how a client becomes the connected client of an
authorization, and how a request is answered.
-/

import Divine.Keycast.Database

namespace Divine.Keycast

open Fallible Table

/-! ### Errors -/

inductive SignerError where
  | database (error : String)
  | authorization (error : String)
  | encryption (error : String)
  | invalidKey (error : String)
  | permissionDenied (error : String)
  | invalidPermission (error : String)
  | nip04 (error : String)
  | nip44 (error : String)
  | eventBuilder (error : String)
  | json (error : String)
  | tagParse (error : String)
  | missingParameter (name : String)
  deriving DecidableEq

def SignerError.display : SignerError → String
  | database error => s!"Database error: {error}"
  | authorization error => s!"Authorization error: {error}"
  | encryption error => s!"Encryption error: {error}"
  | invalidKey error => s!"Invalid key: {error}"
  | permissionDenied error => s!"Permission denied: {error}"
  | invalidPermission error => s!"Invalid permission config: {error}"
  | nip04 error => s!"NIP-04 error: {error}"
  | nip44 error => s!"NIP-44 error: {error}"
  | eventBuilder error => s!"Event builder error: {error}"
  | json error => s!"JSON error: {error}"
  | tagParse error => s!"Tag parse error: {error}"
  | missingParameter name => s!"Missing parameter: {name}"

/-! ### Handlers -/

inductive HandlerStatus where
  | active
  | revoked
  | expired
  deriving DecidableEq

/-- `Nip46Handler`: the keys of one authorization. One that is not active is a tombstone. -/
structure Nip46Handler where
  bunkerKeys : Keys
  userKeys : Keys
  secretHash : String
  authorizationId : Nat
  tenantId : Int
  isOAuth : Bool
  status : HandlerStatus
  tombstoneAt : Option DateTime
  /-- Exactly the tombstones have a time. -/
  marked : status = .active ↔ tombstoneAt = none
  deriving DecidableEq

def Nip46Handler.tombstoneErrorMessage (handler : Nip46Handler) : Option String :=
  match handler.status with
  | .active => none
  | .revoked => some "Authorization has been revoked"
  | .expired => some "Authorization has expired"

/-- The handler under `AuthorizationCommand::Remove`. -/
def Nip46Handler.revoke (handler : Nip46Handler) (now : DateTime) : Nip46Handler :=
  { handler with
    status := .revoked
    tombstoneAt := some now
    marked := by simp }

/-- The status read off a row's two columns, with the time it was reached. -/
def computeStatus (revokedAt expiresAt : Option DateTime) (now : DateTime) :
    HandlerStatus × Option DateTime :=
  match revokedAt, expiresAt with
  | some revoked, _ => (.revoked, some revoked)
  | none, some expires => if expires ≤ now then (.expired, some expires) else (.active, none)
  | none, none => (.active, none)

def computeStatusFromOAuth (row : OAuthAuthorization) (now : DateTime) :
    HandlerStatus × Option DateTime :=
  computeStatus row.revokedAt row.expiresAt now

/-- The same for a team's row, which cannot be revoked. -/
def computeStatusFromTeam (row : Authorization) (now : DateTime) :
    HandlerStatus × Option DateTime :=
  computeStatus none row.expiresAt now

theorem computeStatus_marked (revokedAt expiresAt : Option DateTime) (now : DateTime) :
    (computeStatus revokedAt expiresAt now).1 = .active ↔
      (computeStatus revokedAt expiresAt now).2 = none := by
  unfold computeStatus
  split
  · simp
  · split <;> simp
  · simp

theorem computeStatus_eq_active {revokedAt expiresAt : Option DateTime} {now : DateTime} :
    (computeStatus revokedAt expiresAt now).1 = .active ↔
      (revokedAt.isNone && unexpired expiresAt now) = true := by
  unfold computeStatus unexpired
  split
  · simp
  · rename_i expires
    by_cases past : expires ≤ now
    · simp [past]
    · simp [past, Nat.not_le.mp past]
  · simp

section

variable (crypto : Crypto) (database : Database)

def decryptSecret (encrypted : Bytes) (invalid : String) : Except SignerError SecretKey := do
  let decrypted ← (crypto.decrypt encrypted).mapError .encryption
  (crypto.secretKeyFromSlice decrypted).mapError fun error => .invalidKey s!"{invalid}: {error}"

def makeHandler (secret : SecretKey) (secretHash : String) (authorizationId : Nat)
    (tenantId : Int) (isOAuth : Bool) (revokedAt expiresAt : Option DateTime) (now : DateTime) :
    Nip46Handler where
  bunkerKeys := crypto.deriveBunkerKeys secret secretHash
  userKeys := crypto.keys secret
  secretHash := secretHash
  authorizationId := authorizationId
  tenantId := tenantId
  isOAuth := isOAuth
  status := (computeStatus revokedAt expiresAt now).1
  tombstoneAt := (computeStatus revokedAt expiresAt now).2
  marked := computeStatus_marked revokedAt expiresAt now

def personalSecret (userPubkey : String) (tenantId : Int) : Except SignerError Bytes :=
  okOr ((selectOne database.personalKeys fun key =>
    key.userPubkey = userPubkey && key.tenantId = tenantId).map PersonalKey.encryptedSecretKey)
    (.database rowNotFound)

def storedSecret (id : Nat) (tenantId : Int) : Except SignerError Bytes :=
  okOr ((selectOne database.storedKeys fun key =>
    key.id = id && key.tenantId = tenantId).map StoredKey.secretKey)
    (.database rowNotFound)

def loadOAuthHandler (row : OAuthAuthorization) (now : DateTime) :
    Except SignerError Nip46Handler := do
  let encrypted ← personalSecret database row.userPubkey row.tenantId
  let secret ← decryptSecret crypto encrypted "Invalid user key"
  return makeHandler crypto secret row.secretHash row.id row.tenantId true row.revokedAt
    row.expiresAt now

def loadTeamHandler (row : Authorization) (now : DateTime) : Except SignerError Nip46Handler := do
  let encrypted ← storedSecret database row.storedKeyId row.tenantId
  let secret ← decryptSecret crypto encrypted "Invalid user secret key"
  return makeHandler crypto secret row.secretHash row.id row.tenantId false none row.expiresAt now

/-- `SELECT ... FROM authorizations WHERE bunker_public_key = $1`. -/
def findTeamByBunkerPubkey (bunkerPubkey : String) : Option Authorization :=
  selectOne database.authorizations fun row => row.bunkerPublicKey = bunkerPubkey

/-- The handler for a bunker key: a user's authorization, then a team's. Revoked and expired ones
are tombstones. -/
def loadHandlerForBunker (bunkerPubkey : String) (now : DateTime) :
    Except SignerError (Option Nip46Handler) :=
  match database.findByBunkerPubkey bunkerPubkey with
  | some row => (loadOAuthHandler crypto database row now).map some
  | none =>
    match findTeamByBunkerPubkey database bunkerPubkey with
    | some row => (loadTeamHandler crypto database row now).map some
    | none => .ok none

/-- The user's authorization that an `Upsert` loads: it must be active. -/
def selectUpsertOAuth (bunkerPubkey : String) (tenantId : Int) (now : DateTime) :
    Option OAuthAuthorization :=
  selectOne database.oauthAuthorizations fun row =>
    row.bunkerPublicKey = bunkerPubkey && row.tenantId = tenantId && row.active now

def selectUpsertTeam (bunkerPubkey : String) (tenantId : Int) : Option Authorization :=
  selectOne database.authorizations fun row =>
    row.tenantId = tenantId && row.bunkerPublicKey = bunkerPubkey

def upsertOAuthHandler (tenantId : Int) (row : OAuthAuthorization) (now : DateTime) :
    Except SignerError Nip46Handler := do
  let encrypted ← personalSecret database row.userPubkey tenantId
  let secret ← decryptSecret crypto encrypted "Invalid user secret key"
  return makeHandler crypto secret row.secretHash row.id tenantId true none none now

def upsertTeamHandler (tenantId : Int) (row : Authorization) (now : DateTime) :
    Except SignerError Nip46Handler := do
  let encrypted ← storedSecret database row.storedKeyId tenantId
  let secret ← decryptSecret crypto encrypted "Invalid user secret key"
  return makeHandler crypto secret row.secretHash row.id tenantId false none none now

def loadSingleAuthorization (bunkerPubkey : String) (tenantId : Int) (isOAuth : Bool)
    (now : DateTime) : Except SignerError (Option Nip46Handler) :=
  if isOAuth then
    match selectUpsertOAuth database bunkerPubkey tenantId now with
    | none => .ok none
    | some row => (upsertOAuthHandler crypto database tenantId row now).map some
  else
    match selectUpsertTeam database bunkerPubkey tenantId with
    | none => .ok none
    | some row => (upsertTeamHandler crypto database tenantId row now).map some

end

/-! ### Connected clients -/

namespace Nip46Handler

variable (handler : Nip46Handler) (database : Database) (now : DateTime)

def bunkerPubkey : String := handler.bunkerKeys.publicKey.toHex

/-- The client that `process_connect` finds connected to an active authorization. -/
def existingClient : Option String :=
  if handler.isOAuth then
    (selectOne database.oauthAuthorizations fun row =>
      row.id = handler.authorizationId && row.tenantId = handler.tenantId &&
        row.active now).bind OAuthAuthorization.connectedClientPubkey
  else
    (selectOne database.authorizations fun row =>
      row.id = handler.authorizationId && row.tenantId = handler.tenantId &&
        row.active now).bind Authorization.connectedClientPubkey

/-- `UPDATE ... SET connected_client_pubkey = $1 WHERE id = $2`. -/
def storeClient (id : Nat) (clientPubkey : String) : Database :=
  if handler.isOAuth then
    { database with
      oauthAuthorizations := update database.oauthAuthorizations (fun row => row.id = id)
        fun row => { row with connectedClientPubkey := some clientPubkey } }
  else
    { database with
      authorizations := update database.authorizations (fun row => row.id = id)
        fun row => { row with connectedClientPubkey := some clientPubkey } }

def processConnect (crypto : Crypto) (clientPubkey providedSecret : String) :
    Except SignerError (String × Database) := do
  require (crypto.verifySecret providedSecret handler.secretHash)
    (.permissionDenied "Invalid secret")
  match handler.existingClient database now with
  | some existing =>
    if existing = clientPubkey then return ("ack", database)
    else .error (.permissionDenied "Secret already used by another client")
  | none => return ("ack", handler.storeClient database handler.authorizationId clientPubkey)

/-- The client is the connected one of an active authorization with the handler's bunker. -/
def isConnected (clientPubkey : String) : Bool :=
  if handler.isOAuth then
    selectExists database.oauthAuthorizations fun row =>
      row.bunkerPublicKey = handler.bunkerPubkey &&
        row.connectedClientPubkey = some clientPubkey && row.active now
  else
    selectExists database.authorizations fun row =>
      row.bunkerPublicKey = handler.bunkerPubkey &&
        row.connectedClientPubkey = some clientPubkey && row.active now

/-- An active authorization with the handler's bunker and without a client. -/
def unconnectedId : Option Nat :=
  if handler.isOAuth then
    (selectOne database.oauthAuthorizations fun row =>
      row.bunkerPublicKey = handler.bunkerPubkey && row.connectedClientPubkey.isNone &&
        row.active now).map OAuthAuthorization.id
  else
    (selectOne database.authorizations fun row =>
      row.bunkerPublicKey = handler.bunkerPubkey && row.connectedClientPubkey.isNone &&
        row.active now).map Authorization.id

def validateClient (clientPubkey : String) : Except SignerError Unit :=
  if handler.isConnected database now clientPubkey then .ok ()
  else if (handler.unconnectedId database now).isSome then
    .error (.permissionDenied "Unknown client - must connect first")
  else .error (.permissionDenied "Unknown client - not connected to any authorization")

def validateAndStoreClient (clientPubkey : String) : Except SignerError Database :=
  if handler.isConnected database now clientPubkey then .ok database
  else
    match handler.unconnectedId database now with
    | some id => .ok (handler.storeClient database id clientPubkey)
    | none => .error (.permissionDenied "Unknown client - not connected to any authorization")

end Nip46Handler

/-! ### Signing -/

section

variable (crypto : Crypto) (handler : Nip46Handler) (database : Database)

def storedPermissions : Except SignerError (List Permission) :=
  if handler.isOAuth then do
    let row ← okOr (database.findOAuthAuthorization handler.tenantId handler.authorizationId)
      (.authorization s!"Database error: {rowNotFound}")
    (database.oauthPermissions crypto row).mapError fun error =>
      .authorization s!"Database error: {error}"
  else do
    let row ← okOr (database.findAuthorization handler.tenantId handler.authorizationId)
      (.authorization s!"Database error: {rowNotFound}")
    (database.teamPermissions crypto row).mapError fun error =>
      .authorization s!"Database error: {error}"

/-- The loop over the permissions: each must convert and must allow the event. -/
def checkSignPermissions (event : UnsignedEvent) : List Permission → Except SignerError Unit
  | [] => .ok ()
  | permission :: rest =>
    match permission.toCustomPermission with
    | .error error =>
      .error (.invalidPermission
        s!"Failed to convert permission '{permission.identifier}': {error.display}")
    | .ok custom =>
      if custom.canSign event then checkSignPermissions event rest
      else .error (.permissionDenied s!"Blocked by '{custom.identifier}' policy")

def validatePermissionsForSign (event : UnsignedEvent) : Except SignerError Unit := do
  let permissions ← storedPermissions crypto handler database
  if permissions.isEmpty then return ()
  checkSignPermissions event permissions

/-- The tags of an event to sign. What is not an array of strings is dropped. -/
def parseTags : List Json → Except SignerError (List (List String))
  | [] => .ok []
  | tag :: rest =>
    match tag.asArray with
    | none => parseTags rest
    | some items =>
      if (items.filterMap Json.asStr).isEmpty then parseTags rest
      else do
        let parsed ← (crypto.parseTag (items.filterMap Json.asStr)).mapError .tagParse
        let others ← parseTags rest
        return parsed :: others

def parseSignRequest (request : Json) : Except SignerError UnsignedEvent := do
  let text ← okOr ((request.field "params").item 0).asStr (.missingParameter "event")
  let event ← (crypto.parseJson text).mapError .json
  let kind ← okOr (event.field "kind").asU64 (.missingParameter "kind")
  let content ← okOr (event.field "content").asStr (.missingParameter "content")
  let createdAt ← okOr (event.field "created_at").asU64 (.missingParameter "created_at")
  let tagValues ← okOr (event.field "tags").asArray (.missingParameter "tags")
  let tags ← parseTags crypto tagValues
  return {
    pubkey := handler.userKeys.publicKey
    createdAt := createdAt
    -- `as u16` keeps the low sixteen bits
    kind := UInt16.ofNat kind
    tags := tags
    content := content }

def handleSignEvent (request : Json) : Except SignerError Event := do
  let event ← parseSignRequest crypto handler request
  validatePermissionsForSign crypto handler database event
  (crypto.buildEvent handler.userKeys event).mapError .eventBuilder

end

/-! ### Requests -/

/-- The methods the dispatcher knows. -/
inductive Method where
  | signEvent
  | getPublicKey
  | connect
  | nip44Encrypt
  | nip44Decrypt
  | nip04Encrypt
  | nip04Decrypt
  | unsupported (name : String)
  deriving DecidableEq

def Method.ofString (name : String) : Method :=
  if name = "sign_event" then signEvent
  else if name = "get_public_key" then getPublicKey
  else if name = "connect" then connect
  else if name = "nip44_encrypt" then nip44Encrypt
  else if name = "nip44_decrypt" then nip44Decrypt
  else if name = "nip04_encrypt" then nip04Encrypt
  else if name = "nip04_decrypt" then nip04Decrypt
  else unsupported name

def Method.requiresValidation : Method → Bool
  | signEvent | nip44Encrypt | nip44Decrypt | nip04Encrypt | nip04Decrypt => true
  | getPublicKey | connect | unsupported _ => false

/-- What a response carries. -/
inductive Answer where
  | signed (event : Event)
  | ciphertext (text : String)
  | plaintext (text : String)
  | publicKey (hex : String)
  | acknowledged (text : String)
  | error (message : String)
  deriving DecidableEq

/-- A signature, a ciphertext or a plaintext: the answer was made with the user's secret key. -/
def Answer.usesSecret : Answer → Bool
  | signed _ | ciphertext _ | plaintext _ => true
  | publicKey _ | acknowledged _ | error _ => false

def Answer.toJson (crypto : Crypto) (id : Json) : Answer → Json
  | signed event => .object [("id", id), ("result", .string (crypto.renderEvent event))]
  | ciphertext text | plaintext text | acknowledged text =>
      .object [("id", id), ("result", .string text)]
  | publicKey hex => .object [("id", id), ("result", .string hex)]
  | error message => .object [("id", id), ("error", .string message)]

/-- A request event: the bunker it is for, its author and its encrypted content. -/
structure Nip46Event where
  pTag : Option String
  author : PublicKey
  content : String
  deriving DecidableEq

/-- A decrypted request, with the scheme it was encrypted under. -/
structure OpenRequest where
  request : Json
  method : Method
  useNip44 : Bool

section

variable (crypto : Crypto)

/-- The decryption of a request: NIP-44 first, then NIP-04. -/
def decryptRequest (handler : Nip46Handler) (event : Nip46Event) :
    Except SignerError (String × Bool) :=
  match crypto.nip44Decrypt handler.bunkerKeys.secretKey event.author event.content with
  | .ok text => .ok (text, true)
  | .error _ =>
    match crypto.nip04Decrypt handler.bunkerKeys.secretKey event.author event.content with
    | .ok text => .ok (text, false)
    | .error error => .error (.nip04 error)

def openRequest (handler : Nip46Handler) (event : Nip46Event) : Except SignerError OpenRequest := do
  let (text, useNip44) ← decryptRequest crypto handler event
  let request ← (crypto.parseJson text).mapError .json
  let method ← okOr (request.field "method").asStr (.missingParameter "method")
  return ⟨request, Method.ofString method, useNip44⟩

/-- The parameters of an encryption or a decryption: the peer and the text. -/
def cipherParams (request : Json) (textName : String) :
    Except SignerError (PublicKey × String) := do
  let peerHex ← okOr ((request.field "params").item 0).asStr (.missingParameter "pubkey")
  let text ← okOr ((request.field "params").item 1).asStr (.missingParameter textName)
  let peer ← (crypto.publicKeyFromHex peerHex).mapError .invalidKey
  return (peer, text)

/-- An encryption or a decryption with the user's secret key. -/
def applyCipher (handler : Nip46Handler) (request : Json) (textName : String)
    (scheme : SecretKey → PublicKey → String → Except String String)
    (failure : String → SignerError) : Except SignerError String := do
  let (peer, text) ← cipherParams crypto request textName
  (scheme handler.userKeys.secretKey peer text).mapError failure

def handleConnect (handler : Nip46Handler) (database : Database) (now : DateTime)
    (clientPubkey : String) (request : Json) : Database × Answer :=
  match ((request.field "params").item 1).asStr with
  | none => (database, .acknowledged "ack")
  | some providedSecret =>
    match handler.processConnect database now crypto clientPubkey providedSecret with
    | .ok (result, stored) => (stored, .acknowledged result)
    | .error error => (database, .error error.display)

def answerMethod (handler : Nip46Handler) (database : Database) (opened : OpenRequest) :
    Except SignerError Answer :=
  match opened.method with
  | .signEvent => (handleSignEvent crypto handler database opened.request).map .signed
  | .getPublicKey => .ok (.publicKey handler.userKeys.publicKey.toHex)
  | .connect => .ok (.acknowledged "ack")
  | .nip44Encrypt =>
    (applyCipher crypto handler opened.request "plaintext" crypto.nip44Encrypt .nip44).map
      .ciphertext
  | .nip44Decrypt =>
    (applyCipher crypto handler opened.request "ciphertext" crypto.nip44Decrypt .nip44).map
      .plaintext
  | .nip04Encrypt =>
    (applyCipher crypto handler opened.request "plaintext" crypto.nip04Encrypt .nip04).map
      .ciphertext
  | .nip04Decrypt =>
    (applyCipher crypto handler opened.request "ciphertext" crypto.nip04Decrypt .nip04).map
      .plaintext
  | .unsupported name => .ok (.error s!"Unsupported method: {name}")

def dispatch (handler : Nip46Handler) (database : Database) (now : DateTime)
    (clientPubkey : String) (opened : OpenRequest) : Database × Except SignerError Answer :=
  if opened.method = .connect then
    let (stored, answer) := handleConnect crypto handler database now clientPubkey opened.request
    (stored, .ok answer)
  else (database, answerMethod crypto handler database opened)

/-- The answer to an opened request, and the database it leaves: the client is checked before the
secret key is used. -/
def answerRequest (handler : Nip46Handler) (database : Database) (now : DateTime)
    (clientPubkey : String) (opened : OpenRequest) : Database × Except SignerError Answer :=
  match handler.tombstoneErrorMessage with
  | some message => (database, .ok (.error message))
  | none =>
    if handler.isOAuth && opened.method.requiresValidation then
      match handler.validateAndStoreClient database now clientPubkey with
      | .error error => (database, .ok (.error s!"Client not authorized: {error.display}"))
      | .ok stored => dispatch crypto handler stored now clientPubkey opened
    else dispatch crypto handler database now clientPubkey opened

structure SentResponse where
  recipient : PublicKey
  answer : Answer
  content : String
  deriving DecidableEq

/-- The encryption of a response under the scheme of its request. -/
def sealText (handler : Nip46Handler) (recipient : PublicKey) (useNip44 : Bool) (text : String) :
    Except SignerError String :=
  if useNip44 then
    (crypto.nip44Encrypt handler.bunkerKeys.secretKey recipient text).mapError .nip44
  else (crypto.nip04Encrypt handler.bunkerKeys.secretKey recipient text).mapError .nip04

def sealResponse (handler : Nip46Handler) (recipient : PublicKey) (opened : OpenRequest)
    (answer : Answer) : Except SignerError SentResponse := do
  let content ← sealText crypto handler recipient opened.useNip44
    (crypto.renderJson (answer.toJson crypto (opened.request.field "id")))
  return ⟨recipient, answer, content⟩

abbrev SignerCache := String → Option Nip46Handler

def resolveHandler (handlers : SignerCache) (database : Database) (now : DateTime)
    (bunkerPubkey : String) : Except SignerError (Option Nip46Handler × SignerCache) :=
  match handlers bunkerPubkey with
  | some handler => .ok (some handler, handlers)
  | none => do
    match ← loadHandlerForBunker crypto database bunkerPubkey now with
    | some handler => return (some handler, Function.update handlers bunkerPubkey (some handler))
    | none => return (none, handlers)

/-- What the signer keeps between requests. -/
structure SignerState where
  database : Database
  handlers : SignerCache

def handleNip46Request (shouldHandle : String → Bool) (state : SignerState) (now : DateTime)
    (event : Nip46Event) : SignerState × Except SignerError (Option SentResponse) :=
  match event.pTag with
  | none => (state, .error (.missingParameter "p-tag"))
  | some bunkerPubkey =>
    if shouldHandle bunkerPubkey then
      match resolveHandler crypto state.handlers state.database now bunkerPubkey with
      | .error error => (state, .error error)
      | .ok (none, handlers) => ({ state with handlers := handlers }, .ok none)
      | .ok (some handler, handlers) =>
        match openRequest crypto handler event with
        | .error error => ({ state with handlers := handlers }, .error error)
        | .ok opened =>
          let (database, answer) :=
            answerRequest crypto handler state.database now event.author.toHex opened
          (⟨database, handlers⟩, do
            let sent ← sealResponse crypto handler event.author opened (← answer)
            return some sent)
    else (state, .ok none)

end

end Divine.Keycast
