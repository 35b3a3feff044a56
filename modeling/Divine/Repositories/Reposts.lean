/-
This file embeds the repository of the user's reposts: the records it keeps in memory and
in local storage by addressable id, and the sync that merges the reposts the relays return
into them.
-/

import Divine.Repositories.Likes

namespace Divine.Repositories

open Dictionary

def extractAddressableId (event : Event) : Option String := event.tags.findSome? (tagValue "a")

def extractOriginalAuthorPubkey (event : Event) : Option String :=
  event.tags.findSome? (tagValue "p")

/-- A repost, created at a number of milliseconds. -/
structure RepostRecord where
  addressableId : String
  repostEventId : String
  originalAuthorPubkey : String
  createdAt : Nat
  deriving DecidableEq

def RepostRecord.stored (record : RepostRecord) : RepostRecord :=
  { record with createdAt := record.createdAt / 1000 * 1000 }

/-- The records in memory, and in local storage when there is one, each by addressable id. -/
structure RepostsRepository where
  repostRecords : List (String × RepostRecord)
  localStorage : Option (List (String × RepostRecord))
  deriving DecidableEq

namespace RepostsRepository

variable (repository : RepostsRepository)

/-- `getAllRepostRecords`, put into memory. -/
def load : RepostsRepository :=
  { repository with
    repostRecords := ((repository.localStorage.getD []).map Prod.snd).foldl
      (fun records record => put records record.addressableId record) repository.repostRecords }

def repostRecord (event : Event) : Option (String × RepostRecord) :=
  match extractAddressableId event, extractOriginalAuthorPubkey event with
  | some addressableId, some authorPubkey =>
      some (addressableId, ⟨addressableId, event.id, authorPubkey, event.createdAt * 1000⟩)
  | _, _ => none

/-- The variables of the loop of `syncUserReposts`. -/
structure Syncing where
  repostRecords : List (String × RepostRecord)
  newRecords : List RepostRecord
  deriving DecidableEq

def syncRepost (syncing : Syncing) (event : Event) : Syncing :=
  match repostRecord event with
  | none => syncing
  | some (addressableId, record) =>
      let records := offer RepostRecord.createdAt syncing.repostRecords (addressableId, record)
      if (find syncing.repostRecords addressableId).all fun existing =>
          existing.createdAt < record.createdAt then
        { syncing with repostRecords := records, newRecords := syncing.newRecords ++ [record] }
      else { syncing with repostRecords := records }

/-- The rest of `syncUserReposts`: the new records are saved. -/
def finishSync (syncing : Syncing) : RepostsRepository where
  repostRecords := syncing.repostRecords
  localStorage := repository.localStorage.map fun rows =>
    syncing.newRecords.foldl (fun rows record => put rows record.addressableId record.stored) rows

def syncUserReposts (returned : Option (List Event)) : Except Unit RepostsRepository :=
  let loaded := repository.load
  match returned with
  | some reposts => .ok (loaded.finishSync (reposts.foldl syncRepost ⟨loaded.repostRecords, []⟩))
  | none => if loaded.repostRecords = [] then .error () else .ok loaded

end RepostsRepository

end Divine.Repositories
