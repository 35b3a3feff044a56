/-
This file embeds likes and unlikes as they are made online and offline, and the queued
ones as they are executed later.
-/

import Divine.Repositories.Likes
import Divine.Repositories.PendingActions

namespace Divine.Repositories

open Dictionary

/-! ### Data -/

structure LikeRequest where
  eventId : String
  authorPubkey : String
  addressableId : Option String
  targetKind : Option Nat
  deriving DecidableEq

/-- The id of a new event and the second it is created at. -/
structure Signing where
  id : String
  createdAt : Nat
  published : isPlaceholder id = false

def sendLike (request : LikeRequest) (signing : Signing) : Event where
  id := signing.id
  createdAt := signing.createdAt
  content := likeContent
  tags := ["e", request.eventId] ::
    ((request.addressableId.filter fun id => id ≠ "").toList.map (fun id => ["a", id]) ++
      (if request.authorPubkey = "" then [] else [["p", request.authorPubkey]]) ++
      request.targetKind.toList.map fun kind => ["k", toString kind])
  published := signing.published

/-- What relays hold of the user: the reactions, and the ids that deletions refer to. -/
structure Relays where
  reactions : List Event
  deletions : List String
  deriving DecidableEq

inductive LikeException where
  | alreadyLiked
  | notLiked
  | likeFailed
  | unlikeFailed
  | queueFailed
  deriving DecidableEq

/-- The repository with the queue it fills and the relays it publishes to. -/
structure LikesClient where
  repository : LikesRepository
  service : PendingActionService
  relays : Relays
  deriving DecidableEq

namespace LikesRepository

variable (repository : LikesRepository)

def saveLikeRecord (record : LikeRecord) : LikesRepository where
  likeRecords := put repository.likeRecords record.targetEventId record
  localStorage := repository.localStorage.map fun rows =>
    put rows record.targetEventId record.stored

def deleteLikeRecord (eventId : String) : LikesRepository where
  likeRecords := remove repository.likeRecords eventId
  localStorage := repository.localStorage.map fun rows => remove rows eventId

/-- The record of a target in memory, or else in storage. -/
def getRecord (eventId : String) : Option LikeRecord :=
  (find repository.likeRecords eventId).or
    (repository.localStorage.bind fun rows => find rows eventId)

end LikesRepository

namespace LikesClient

variable (client : LikesClient)

/-! ### Calls -/

def placeholderId (eventId : String) : String := "pending_like_" ++ eventId

def publishLike (request : LikeRequest) (signing : Option Signing) :
    Except LikeException (LikesClient × String) :=
  match signing with
  | none => .error .likeFailed
  | some signing =>
      .ok ({ client with
        relays := { client.relays with
          reactions := client.relays.reactions ++ [sendLike request signing] } }, signing.id)

def publishDeletion (reactionEventId : String) (accepted : Bool) :
    Except LikeException LikesClient :=
  if accepted then
    .ok { client with
      relays := { client.relays with
        deletions := client.relays.deletions ++ [reactionEventId] } }
  else .error .unlikeFailed

def queueOfflineAction (type : PendingActionType) (request : LikeRequest) :
    Except LikeException LikesClient :=
  match client.service.queueAction type request.eventId (some request.authorPubkey)
      request.addressableId request.targetKind with
  | .ok service => .ok { client with service := service }
  | .error _ => .error .queueFailed

def likeEvent (request : LikeRequest) (online : Bool) (signing : Option Signing) (now : Nat) :
    Except LikeException LikesClient :=
  if (find client.repository.likeRecords request.eventId).isSome then .error .alreadyLiked
  else if online then do
    let (published, id) ← client.publishLike request signing
    .ok { published with
      repository := client.repository.saveLikeRecord ⟨request.eventId, id, now⟩ }
  else do
    let queued ← client.queueOfflineAction .like request
    .ok { queued with
      repository := client.repository.saveLikeRecord
        ⟨request.eventId, placeholderId request.eventId, now⟩ }

def unlikeEvent (eventId : String) (online accepted : Bool) : Except LikeException LikesClient :=
  match client.repository.getRecord eventId with
  | none => .error .notLiked
  | some record =>
      if online then
        if isPlaceholder record.reactionEventId then
          .ok { client with repository := client.repository.deleteLikeRecord eventId }
        else do
          let published ← client.publishDeletion record.reactionEventId accepted
          .ok { published with repository := client.repository.deleteLikeRecord eventId }
      else do
        let queued ← client.queueOfflineAction .unlike ⟨eventId, "", none, none⟩
        .ok { queued with repository := client.repository.deleteLikeRecord eventId }

/-! ### Queued actions -/

def executeLikeAction (request : LikeRequest) (signing : Option Signing) :
    Except LikeException LikesClient := do
  let (published, id) ← client.publishLike request signing
  match find client.repository.likeRecords request.eventId with
  | none => .ok published
  | some existing =>
      if isPlaceholder existing.reactionEventId then
        .ok { published with
          repository := client.repository.saveLikeRecord
            ⟨request.eventId, id, existing.createdAt⟩ }
      else .ok published

def executeUnlikeAction (eventId : String) (accepted : Bool) : Except LikeException LikesClient :=
  match client.repository.getRecord eventId with
  | none => .ok client
  | some record =>
      if isPlaceholder record.reactionEventId then
        .ok { client with repository := client.repository.deleteLikeRecord eventId }
      else do
        let published ← client.publishDeletion record.reactionEventId accepted
        .ok { published with repository := client.repository.deleteLikeRecord eventId }

/-- The executor that is registered for the type of an action. -/
def execute (action : PendingAction) (signing : Option Signing) (accepted : Bool) :
    Except LikeException LikesClient :=
  match action.type with
  | .like => client.executeLikeAction
      ⟨action.targetId, action.authorPubkey.getD "", action.addressableId,
        action.targetKind⟩ signing
  | .unlike => client.executeUnlikeAction action.targetId accepted
  | _ => .ok client

/-! ### Steps -/

inductive LikesAction where
  | likeEvent (request : LikeRequest) (online : Bool) (signing : Option Signing) (now : Nat)
  | unlikeEvent (eventId : String) (online accepted : Bool)
  | syncAction (place : Nat) (signing : Option Signing) (accepted : Bool)

/-- One call, which changes nothing when it throws, or the execution of a queued action. -/
def likesStep (client : LikesClient) : LikesAction → Option LikesClient
  | .likeEvent request online signing now =>
      some ((client.likeEvent request online signing now).toOption.getD client)
  | .unlikeEvent eventId online accepted =>
      some ((client.unlikeEvent eventId online accepted).toOption.getD client)
  | .syncAction place signing accepted =>
      match client.service.actions[place]? with
      | none => none
      | some action =>
          if action.status = .pending then
            (client.execute action signing accepted).toOption.map fun executed =>
              { executed with service := executed.service.updateStatus action.id .completed }
          else none

end LikesClient

end Divine.Repositories
