/-
This file embeds what a client of a remote signer reads from its relays: the messages of a
relay, the events they carry, and the response an event's content decrypts to under the
author the event names.
-/

import Divine.Library.Json

namespace Divine.NostrSdk

/-! ### Events and messages -/

/-- The fields of an event that the clients read. -/
structure Event where
  kind : Nat
  pubkey : String
  content : String
  deriving DecidableEq

def nostrRemoteSigning : Nat := 24133

/-- A message of a relay. An event that does not parse makes `Event.fromJson` throw. -/
inductive RelayMessage where
  | event (parsed : Option Event)
  | eose
  | other
  deriving DecidableEq

/-! ### Responses -/

structure NostrRemoteResponse where
  id : String
  result : String
  error : Option String
  deriving DecidableEq

/-- The cipher and the JSON decoder, which throw on what they do not accept. -/
structure ResponseLibrary where
  /-- `LocalNostrSigner.nip44Decrypt`: the private key of the client, the author, the content. -/
  nip44Decrypt : String → String → String → Except Unit (Option String)
  jsonDecode : String → Except Unit Json

def isNotBlank (text : Option String) : Bool := text.isSome && text ≠ some ""

def lookupField (jsonMap : Json) (field : String) : Except Unit Json :=
  match jsonMap with
  | .object _ => .ok (jsonMap.field field)
  | _ => .error ()

/-- A dynamic value where a `String?` is expected. -/
def asOptionalString : Json → Except Unit (Option String)
  | .null => .ok none
  | .string text => .ok (some text)
  | _ => .error ()

def decryptResponse (library : ResponseLibrary) (privateKey pubkey content : String) :
    Except Unit (Option NostrRemoteResponse) := do
  let plaintext ← library.nip44Decrypt privateKey pubkey content
  if isNotBlank plaintext then
    let jsonMap ← library.jsonDecode (plaintext.getD "")
    match ← lookupField jsonMap "id", ← lookupField jsonMap "result" with
    | .string id, .string result =>
        return some ⟨id, result, ← asOptionalString (← lookupField jsonMap "error")⟩
    | _, _ => return none
  else return none

/-- A response being decrypted, with the key its handler took. -/
structure Decryption where
  event : Event
  privateKey : String
  deriving DecidableEq

namespace NostrRemoteResponse

variable (response : NostrRemoteResponse)

def isAuthUrl : Bool := response.result = "auth_url" && response.error.isSome

def isError : Bool := isNotBlank response.error

end NostrRemoteResponse

end Divine.NostrSdk
