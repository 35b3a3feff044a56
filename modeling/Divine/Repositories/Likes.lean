/-
This file embeds the repository of the user's likes: the records it keeps in memory and in
local storage by target, and the sync that merges the reactions and deletions the relays
return into them.
-/

import Divine.Library.Dictionary

namespace Divine.Repositories

open Dictionary

/-! ### Events -/

/-- The id of a reaction or repost that is queued and not published. -/
def isPlaceholder (id : String) : Bool := "pending_".toList.isPrefixOf id.toList

/-- An event of the user that relays return, created at a number of seconds. Its id is a hash. -/
structure Event where
  id : String
  createdAt : Nat
  content : String
  tags : List (List String)
  published : isPlaceholder id = false
  deriving DecidableEq

def tagValue (name : String) : List String → Option String
  | first :: value :: _ => if first = name then some value else none
  | _ => none

def extractTargetEventId (event : Event) : Option String := event.tags.findSome? (tagValue "e")

def deletedEventIds (deletions : List Event) : List String :=
  deletions.flatMap fun deletion => deletion.tags.filterMap (tagValue "e")

/-! ### Records -/

/-- A like, created at a number of milliseconds. -/
structure LikeRecord where
  targetEventId : String
  reactionEventId : String
  createdAt : Nat
  deriving DecidableEq

def LikeRecord.stored (record : LikeRecord) : LikeRecord :=
  { record with createdAt := record.createdAt / 1000 * 1000 }

/-- The records in memory, and in local storage when there is one, each by target. -/
structure LikesRepository where
  likeRecords : List (String × LikeRecord)
  localStorage : Option (List (String × LikeRecord))
  deriving DecidableEq

def likeContent : String := "+"

namespace LikesRepository

variable (repository : LikesRepository)

/-- `getAllLikeRecords`, put into memory. -/
def load : LikesRepository :=
  { repository with
    likeRecords := ((repository.localStorage.getD []).map Prod.snd).foldl
      (fun records record => put records record.targetEventId record) repository.likeRecords }

/-! ### Sync -/

/-- The variables of the loop of `syncUserReactions`. -/
structure Syncing where
  likeRecords : List (String × LikeRecord)
  newRecords : List LikeRecord
  deletedTargetIds : List String
  deriving DecidableEq

def reactionRecord (event : Event) (target : String) : LikeRecord where
  targetEventId := target
  reactionEventId := event.id
  createdAt := event.createdAt * 1000

def syncReaction (deletedReactionIds : List String) (syncing : Syncing) (event : Event) : Syncing :=
  if event.id ∈ deletedReactionIds then
    match extractTargetEventId event with
    | none => syncing
    | some target =>
        -- a live like of the target may have been recorded before
        if (find syncing.likeRecords target).isSome then
          { syncing with deletedTargetIds := syncing.deletedTargetIds ++ [target] }
        else syncing
  else
    match extractTargetEventId event with
    | none => syncing
    | some target =>
        if event.content = likeContent then
          let record := reactionRecord event target
          let records := offer LikeRecord.createdAt syncing.likeRecords (target, record)
          if (find syncing.likeRecords target).all fun existing =>
              existing.createdAt < record.createdAt then
            { syncing with likeRecords := records, newRecords := syncing.newRecords ++ [record] }
          else { syncing with likeRecords := records }
        else syncing

/-- The rest of `syncUserReactions`: the deleted targets leave, and the new records are saved. -/
def finishSync (syncing : Syncing) : LikesRepository where
  likeRecords := syncing.deletedTargetIds.foldl remove syncing.likeRecords
  localStorage := repository.localStorage.map fun rows =>
    syncing.newRecords.foldl (fun rows record => put rows record.targetEventId record.stored)
      (syncing.deletedTargetIds.foldl remove rows)

def syncUserReactions (returned : Option (List Event × List Event)) :
    Except Unit LikesRepository :=
  let loaded := repository.load
  match returned with
  | some (reactions, deletions) =>
      .ok (loaded.finishSync (reactions.foldl (syncReaction (deletedEventIds deletions))
        ⟨loaded.likeRecords, [], []⟩))
  | none => if loaded.likeRecords = [] then .error () else .ok loaded

end LikesRepository

end Divine.Repositories
