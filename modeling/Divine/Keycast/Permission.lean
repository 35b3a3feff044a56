/-
This file embeds the custom permissions of the signing service: the five kinds of
permission, how each is read from a stored row, and what each says about signing,
encrypting and decrypting.
-/

import Divine.Library.Json
import Mathlib.Data.Set.Lattice

namespace Divine.Keycast

/-! ### Keys and events -/

/-- A Nostr public key, identified with its lower-case hex rendering. -/
structure PublicKey where
  hex : String
  deriving DecidableEq

def PublicKey.toHex (key : PublicKey) : String := key.hex

/-- An event before it is signed. -/
structure UnsignedEvent where
  pubkey : PublicKey
  createdAt : Nat
  kind : UInt16
  tags : List (List String)
  content : String
  deriving DecidableEq

/-! ### Stored permissions -/

/-- A permission row with its configuration parsed. -/
structure Permission where
  id : Nat
  identifier : String
  config : Json

inductive PermissionError where
  | unknownPermission (identifier : String)
  | invalidConfig
  deriving DecidableEq

/-- The text of a `PermissionError`, without what the JSON decoder adds to the second. -/
def PermissionError.display : PermissionError → String
  | unknownPermission identifier => s!"Unknown permission type: {identifier}"
  | invalidConfig => "Invalid permission configuration"

/-! ### The custom permissions -/

structure AllowedKinds where
  allowedKinds : Option (List UInt16)
  deriving DecidableEq

structure ContentFilter where
  blockedWords : Option (List String)
  deriving DecidableEq

def nip42AuthKind : UInt16 := 22242

def AllowedKinds.canSign (permission : AllowedKinds) (event : UnsignedEvent) : Bool :=
  match permission.allowedKinds with
  | none => true
  | some kinds => kinds.contains event.kind

def ContentFilter.clean (permission : ContentFilter) (text : String) : Bool :=
  match permission.blockedWords with
  | none => true
  | some words => !words.any fun word => contains text word

/-- A `Box<dyn CustomPermission>`: one of the five implementations. -/
inductive CustomPermission where
  | allowedKinds (permission : AllowedKinds)
  | contentFilter (permission : ContentFilter)
  | decryptOnly
  | encryptToSelf
  | fullAccess
  deriving DecidableEq

namespace CustomPermission

def identifier : CustomPermission → String
  | allowedKinds _ => "allowed_kinds"
  | contentFilter _ => "content_filter"
  | decryptOnly => "decrypt_only"
  | encryptToSelf => "encrypt_to_self"
  | fullAccess => "full_access"

def canSign : CustomPermission → UnsignedEvent → Bool
  | allowedKinds permission, event => permission.canSign event
  | contentFilter permission, event => permission.clean event.content
  | decryptOnly, event => event.kind == nip42AuthKind
  | encryptToSelf, _ => true
  | fullAccess, _ => true

def canEncrypt : CustomPermission → String → PublicKey → PublicKey → Bool
  | allowedKinds _, _, _, _ => true
  | contentFilter permission, plaintext, _, _ => permission.clean plaintext
  | decryptOnly, _, _, _ => false
  | encryptToSelf, _, sender, recipient => sender == recipient
  | fullAccess, _, _, _ => true

def canDecrypt : CustomPermission → String → PublicKey → PublicKey → Bool
  | allowedKinds _, _, _, _ => true
  | contentFilter _, _, _, _ => true
  | decryptOnly, _, _, _ => true
  | encryptToSelf, _, sender, recipient => sender == recipient
  | fullAccess, _, _, _ => true

end CustomPermission

/-! ### Reading a stored permission -/

namespace Permission

def toAllowedKinds (permission : Permission) : Except PermissionError CustomPermission :=
  match permission.config.toOptionalField "allowed_kinds" (Json.toVec Json.toU16) with
  | some kinds => .ok (.allowedKinds ⟨kinds⟩)
  | none => .error .invalidConfig

def toContentFilter (permission : Permission) : Except PermissionError CustomPermission :=
  match permission.config.toOptionalField "blocked_words" (Json.toVec Json.asStr) with
  | some words => .ok (.contentFilter ⟨words⟩)
  | none => .error .invalidConfig

def toDecryptOnly (permission : Permission) : Except PermissionError CustomPermission :=
  match permission.config.toEmptyStruct with
  | some _ => .ok .decryptOnly
  | none => .error .invalidConfig

def toCustomPermission (permission : Permission) : Except PermissionError CustomPermission :=
  -- the seeded rows carry a suffix, such as `allowed_kinds_social`
  if startsWith permission.identifier "allowed_kinds" then permission.toAllowedKinds
  else if permission.identifier = "content_filter" then permission.toContentFilter
  else if permission.identifier = "decrypt_only" then permission.toDecryptOnly
  else if permission.identifier = "encrypt_to_self" then .ok .encryptToSelf
  else if permission.identifier = "full_access" then .ok .fullAccess
  else .error (.unknownPermission permission.identifier)

end Permission

/-! ### What a list of permissions allows -/

/-- One use of a user's key. -/
inductive Operation where
  | sign (event : UnsignedEvent)
  | encrypt (plaintext : String) (recipient : PublicKey)
  | decrypt (ciphertext : String) (sender : PublicKey)
  deriving DecidableEq

def CustomPermission.allows (permission : CustomPermission) (user : PublicKey) :
    Operation → Bool
  | .sign event => permission.canSign event
  | .encrypt plaintext recipient => permission.canEncrypt plaintext user recipient
  | .decrypt ciphertext sender => permission.canDecrypt ciphertext sender user

def allowance (permissions : List CustomPermission) (user : PublicKey) : Set Operation :=
  {operation | ∀ permission ∈ permissions, permission.allows user operation}

@[simp] theorem allowance_nil (user : PublicKey) : allowance [] user = Set.univ := by
  simp [allowance]

theorem allowance_antitone {first second : List CustomPermission} (subset : first ⊆ second)
    (user : PublicKey) : allowance second user ⊆ allowance first user :=
  fun _ allowed permission member => allowed permission (subset member)

@[simp] theorem allowance_fullAccess (user : PublicKey) :
    allowance [.fullAccess] user = Set.univ := by
  refine Set.eq_univ_of_forall fun operation permission member => ?_
  rw [List.mem_singleton] at member
  subst member
  cases operation <;> rfl

end Divine.Keycast
