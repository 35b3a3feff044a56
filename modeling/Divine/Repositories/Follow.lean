/-
This file embeds the repository of the users that the current one follows: the list in
memory and the newest contact list event, how initialization fills them, and what a follow
or an unfollow does to them.
-/

import Divine.Library.Edits
import Divine.Library.Fallible
import Divine.NostrSdk.Keys
import Divine.Repositories.Likes

namespace Divine.Repositories

open Dictionary Edits
open NostrSdk (keyIsValid)

inductive FollowException where
  | notAuthenticated
  | invalidKey
  | broadcastFailed
  | queueFailed
  deriving DecidableEq

/-! ### Contact lists -/

/-- An event of kind 3 of the user, created at a number of seconds. -/
structure ContactListEvent where
  createdAt : Nat
  tags : List (List String)
  content : String
  deriving DecidableEq

/-- The users that the `p` tags of an event name. -/
def ContactListEvent.followedPubkeys (event : ContactListEvent) : List String :=
  event.tags.filterMap (tagValue "p")

section

variable (isHexadecimal : String → Bool)

structure Contact where
  publicKey : String
  url : String
  petname : String
  valid : keyIsValid isHexadecimal publicKey = true

structure ContactList where
  contacts : List (String × Contact isHexadecimal)
  followedTags : List String
  followedCommunitys : List String

variable {isHexadecimal}

namespace ContactList

def empty : ContactList isHexadecimal where
  contacts := []
  followedTags := []
  followedCommunitys := []

def add (list : ContactList isHexadecimal) (contact : Contact isHexadecimal) :
    ContactList isHexadecimal :=
  { list with contacts := put list.contacts contact.publicKey contact }

def toJson (list : ContactList isHexadecimal) : List (List String) :=
  (list.contacts.map fun entry =>
      ["p", entry.2.publicKey, entry.2.url, entry.2.petname]) ++
    list.followedTags.map (fun tag => ["t", tag]) ++
    list.followedCommunitys.map fun id => ["a", id]

end ContactList

variable (isHexadecimal)

def newContact (publicKey : String) : Except FollowException (Contact isHexadecimal) :=
  if valid : keyIsValid isHexadecimal publicKey = true then .ok ⟨publicKey, "", "", valid⟩
  else .error .invalidKey

def contactListOf (pubkeys : List String) : Except FollowException (ContactList isHexadecimal) :=
  pubkeys.foldlM (fun list pubkey => do
    let contact ← newContact isHexadecimal pubkey
    return list.add contact) ContactList.empty

end

/-! ### The repository -/

/-- The users followed, the newest contact list event, what is saved locally, and the user's key, if
there is one. -/
structure FollowRepository where
  publicKey : String
  followingPubkeys : List String
  currentUserContactListEvent : Option ContactListEvent
  localStorage : Option (List String)
  deriving DecidableEq

namespace FollowRepository

variable (repository : FollowRepository)

def saveToLocalStorage : FollowRepository :=
  { repository with
    localStorage :=
      if repository.publicKey = "" then repository.localStorage
      else some repository.followingPubkeys }

def isNewer (event : ContactListEvent) : Bool :=
  match repository.currentUserContactListEvent with
  | none => true
  | some current => current.createdAt < event.createdAt

def processContactListEvent (event : ContactListEvent) : FollowRepository :=
  if repository.isNewer event then
    { repository with
      followingPubkeys := event.followedPubkeys
      currentUserContactListEvent := some event }
  else repository

/-! ### Initialization -/

def loadFromLocalStorage : FollowRepository :=
  { repository with
    followingPubkeys :=
      if repository.publicKey = "" then repository.followingPubkeys
      else repository.localStorage.getD repository.followingPubkeys }

def loadFromPersonalEventCache : List ContactListEvent → FollowRepository
  | [] => repository
  | latest :: _ =>
      let pubkeys := latest.followedPubkeys.filter fun pubkey => pubkey ≠ ""
      if pubkeys = [] then repository
      else { repository with
        followingPubkeys := pubkeys
        currentUserContactListEvent := some latest }

def loadFromRestApi (pubkeys : List String) : FollowRepository :=
  if repository.publicKey = "" ∨ pubkeys = [] then repository
  else { repository with followingPubkeys := pubkeys }.saveToLocalStorage

def loadFromRelay (found : Option ContactListEvent) : FollowRepository :=
  if repository.publicKey = "" then repository
  else (found.map repository.processContactListEvent).getD repository

/-- `initialize`, up to the subscription: local storage, the event cache, the API and the relays,
while the list is empty. -/
def initialized (cached : List ContactListEvent) (fetched : List String)
    (found : Option ContactListEvent) : FollowRepository :=
  let stored := repository.loadFromLocalStorage.loadFromPersonalEventCache cached
  let listed := if stored.followingPubkeys = [] then stored.loadFromRestApi fetched else stored
  if listed.followingPubkeys = [] then listed.loadFromRelay found else listed

/-! ### Following and unfollowing -/

def checkChange (change : Edit String) : Except FollowException Bool :=
  if repository.publicKey = "" then .error .notAuthenticated
  else if change.key = repository.publicKey then .ok false
  else .ok !repository.followingPubkeys.contains change.key == change.present

/-- The list with a change made before the network knows of it. -/
def makeChange (change : Edit String) : FollowRepository :=
  { repository with
    followingPubkeys :=
      if change.present then repository.followingPubkeys ++ [change.key]
      else repository.followingPubkeys.filter fun pubkey => pubkey ≠ change.key }

/-- `_broadcastContactList` up to its await: the tags and the content that are sent. -/
def contactListToSend (isHexadecimal : String → Bool) :
    Except FollowException (List (List String) × String) := do
  let contactList ← contactListOf isHexadecimal repository.followingPubkeys
  return (contactList.toJson, (repository.currentUserContactListEvent.map (·.content)).getD "")

def contactListSent (event : ContactListEvent) : FollowRepository :=
  { repository with currentUserContactListEvent := some event }

def rollback (previousFollowList : List String) : FollowRepository :=
  { repository with followingPubkeys := previousFollowList }

variable (isHexadecimal : String → Bool)

/-- `follow` and `unfollow` alone: what becomes of the repository and which contact list is sent. -/
def changeFollow (change : Edit String) (offline : Bool) (accepted : Option Nat) :
    FollowRepository × Except FollowException (Option ContactListEvent) :=
  match repository.checkChange change with
  | .error exception => (repository, .error exception)
  | .ok false => (repository, .ok none)
  | .ok true =>
      let changed := repository.makeChange change
      if offline then (changed.saveToLocalStorage, .ok none)
      else
        match changed.contactListToSend isHexadecimal, accepted with
        | .error exception, _ =>
            (changed.rollback repository.followingPubkeys, .error exception)
        | .ok _, none =>
            (changed.rollback repository.followingPubkeys, .error .broadcastFailed)
        | .ok (tags, content), some createdAt =>
            ((changed.contactListSent ⟨createdAt, tags, content⟩).saveToLocalStorage,
              .ok (some ⟨createdAt, tags, content⟩))

def follow (pubkey : String) := repository.changeFollow isHexadecimal ⟨pubkey, true⟩

def unfollow (pubkey : String) := repository.changeFollow isHexadecimal ⟨pubkey, false⟩

/-- `executeFollowAction` and `executeUnfollowAction`, which keep the change when they fail. -/
def executeChange (change : Edit String) (accepted : Option Nat) :
    FollowRepository × Except FollowException (Option ContactListEvent) :=
  if repository.publicKey = "" then (repository, .error .notAuthenticated)
  else
    let changed :=
      if repository.followingPubkeys.contains change.key == change.present then repository
      else repository.makeChange change
    match changed.contactListToSend isHexadecimal, accepted with
    | .error exception, _ => (changed, .error exception)
    | .ok _, none => (changed, .error .broadcastFailed)
    | .ok (tags, content), some createdAt =>
        ((changed.contactListSent ⟨createdAt, tags, content⟩).saveToLocalStorage,
          .ok (some ⟨createdAt, tags, content⟩))

def executeFollowAction (pubkey : String) :=
  repository.executeChange isHexadecimal ⟨pubkey, true⟩

def executeUnfollowAction (pubkey : String) :=
  repository.executeChange isHexadecimal ⟨pubkey, false⟩

end FollowRepository

/-! ### Changes -/

theorem contains_eq_iff {items : List String} {change : Edit String} :
    (items.contains change.key == change.present) = true ↔ Held items change := by
  rw [beq_iff_eq, Bool.eq_iff_iff, List.contains_iff_mem]
  rfl


def contactTag (pubkey : String) : List String := ["p", pubkey, "", ""]

theorem tagValue_contactTag (pubkey : String) : tagValue "p" (contactTag pubkey) =
    some pubkey := rfl

end Divine.Repositories
