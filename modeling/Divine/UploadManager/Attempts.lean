/-
This file models the manager of uploads as its calls go on from one await to the next.
-/

import Divine.Library.Dictionary
import Divine.Library.Interleaving
import Divine.UploadManager.PendingUpload

namespace Divine.UploadManager

open Dictionary Interleaving

/-! ### Calls -/

structure Config where
  isWeb : Bool
  maxRetries : Nat

/-- Who waits for an attempt. -/
inductive Caller where
  | startUpload | other
  deriving DecidableEq

/-- Where an attempt waits: for a stored record, for the service, for the thumbnail, for the next
try, and for the state of the network. -/
inductive Stage where
  | starting (upload : PendingUpload)
  | announced (upload : PendingUpload) (tries : Nat)
  | uploading (upload : PendingUpload) (tries : Nat)
  | thumbnail (upload : PendingUpload) (tries : Nat) (result : UploadResult)
  | stored (upload : PendingUpload) (tries : Nat) (result : UploadResult)
  | succeeded (upload updated : PendingUpload)
  | delaying (upload : PendingUpload) (tries : Nat)
  | failing (upload : PendingUpload) (error : ErrorText)
  | failed (upload : PendingUpload)
  deriving DecidableEq

def Stage.upload : Stage → PendingUpload
  | starting upload | announced upload _ | uploading upload _ | thumbnail upload _ _
  | stored upload _ _ | succeeded upload _ | delaying upload _ | failing upload _
  | failed upload => upload

structure Attempt where
  number : Nat
  caller : Caller
  stage : Stage
  deriving DecidableEq

/-- A call that waits: an attempt, the resumption of the remaining uploads, the timer of a video,
and one of its checks. -/
inductive Call where
  | attempt (attempt : Attempt)
  | resuming (rest : List PendingUpload) (current : Option PendingUpload)
  | polling (id : String)
  | checking (upload : PendingUpload)
  deriving DecidableEq

/-- What a call waits for. A file is there or not when a call looks for it. -/
inductive Answer where
  | done (present : Bool) (now : Nat)
  | files (current next : Bool)
  | result (result : UploadResult) (now : Nat)
  | thumbnail (url : Option String) (now : Nat)
  | raised (error : ErrorText)
  | connectivity (checked categorized : ConnectivityResult)
  | ready (isReady : Bool) (now : Nat)
  | tick
  | stop

/-! ### Writes -/

abbrev Box := List (String × PendingUpload)

/-- What happens to the uploads. An attempt writes a record over one with some status, and
`startUpload` returns nothing when it throws. -/
inductive Entry where
  | stopped (id : String)
  | deleted (id : String)
  | updated (id : String) (metadata : Metadata)
  | began (id : String) (attempt : Nat)
  | wrote (id : String) (attempt : Nat) (before : Option UploadStatus) (after : UploadStatus)
  | returned (attempt : Option Nat) (record : Option PendingUpload)
  deriving DecidableEq

section Writes

variable (box : Box)

def updateUpload (upload : PendingUpload) : Box := put box upload.id upload

def updateUploadProgress (id : String) (progress : Rat) : Box :=
  match find box id with
  | none => box
  | some upload =>
      if upload.status = .uploading then
        updateUpload box { upload with uploadProgress := some progress }
      else box

def wrote (number : Nat) (upload : PendingUpload) : Entry :=
  .wrote upload.id number ((find box upload.id).map PendingUpload.status) upload.status

end Writes

/-! ### Records that are written -/

section Records

variable (upload : PendingUpload)

def pausedUpload : PendingUpload := { upload with status := .paused }

def resumedUpload : PendingUpload := { upload with status := .pending, uploadProgress := some 0 }

def resetUpload : PendingUpload := { upload with status := .pending }

def cancelledUpload : PendingUpload :=
  { upload with status := .failed, errorMessage := some "Upload cancelled by user" }

/-- The record of an upload whose video is not there on startup. -/
def deletedVideo : PendingUpload :=
  { upload with
    status := .failed
    errorMessage := some "Video file was deleted. Please record again." }

def withMetadata (metadata : Metadata) : PendingUpload :=
  { upload with metadata := metadata.over upload.metadata }

def readyUpload (now : Nat) : PendingUpload :=
  { upload with
    status := .readyToPublish
    uploadProgress := some 1
    completedAt := some now }

/-- The record at the beginning of a try, with the count of retries that the attempt started with.
-/
def announcement : PendingUpload :=
  { upload with
    status := if upload.retryCount.getD 0 = 0 then .uploading else .retrying
    retryCount := some (upload.retryCount.getD 0) }

/-- The record of `_handleUploadFailure`. -/
def failedUpload (error : ErrorText) (checked categorized : ConnectivityResult) : PendingUpload :=
  { upload with
    status := .failed
    errorMessage := some (getUserFriendlyErrorMessage (categorizeError error categorized) checked)
    retryCount := some (upload.retryCount.getD 0) }

def withThumbnail (url : String) : PendingUpload := { upload with thumbnailPath := some url }

end Records

/-! ### Attempts -/

section Attempts

variable (config : Config) (number : Nat)

def announce (box : Box) (upload : PendingUpload) (tries : Nat) : Box × Stage × List Entry :=
  (updateUpload box (announcement upload), .announced upload tries,
    [wrote box number (announcement upload)])

def performUpload (box : Box) (upload : PendingUpload) (present : Bool) :
    Box × Stage × List Entry :=
  if config.isWeb then
    (box, .failing upload "exception: web platform uploads not yet implemented", [])
  else if present then announce number box upload 0
  else (box, .failing upload "exception: video file not found", [])

/-- `retryWithBackoff` after an error. -/
def caught (upload : PendingUpload) (tries : Nat) (error : ErrorText) : Stage :=
  if isRetriableError error && tries < config.maxRetries then .delaying upload (tries + 1)
  else .failing upload error

def handleUploadSuccess (box : Box) (upload : PendingUpload) (tries : Nat)
    (result : UploadResult) (now : Nat) : Box × Stage × List Entry :=
  if result.success then
    let latestUpload := (find box upload.id).getD upload
    let updatedUpload := createSuccessfulUpload latestUpload result now
    (updateUpload box updatedUpload, .succeeded upload updatedUpload,
      [wrote box number updatedUpload])
  else
    (box, caught config upload tries
      ("exception: " ++ (result.errorMessage.getD "upload failed with unknown error").toLower), [])

def advanceAttempt (box : Box) : Stage → Answer → Option (Box × Stage × List Entry)
  | .starting upload, .done present _ => some (performUpload config number box upload present)
  | .announced upload tries, .done present _ =>
      some (box, if present then .uploading upload tries
        else caught config upload tries
          ("exception: video file not found: " ++ upload.localVideoPath.toLower), [])
  | .uploading upload tries, .raised error => some (box, caught config upload tries error, [])
  | .uploading upload tries, .result result now =>
      if result.success && result.cdnUrl.isSome then
        some (box, .thumbnail upload tries result, [])
      else some (handleUploadSuccess config number box upload tries result now)
  | .thumbnail upload tries result, .thumbnail url now =>
      let finished := updateUploadProgress box upload.id 1
      match url with
      | none => some (handleUploadSuccess config number finished upload tries result now)
      | some url =>
          some (updateUpload finished (withThumbnail upload url), .stored upload tries result,
            [wrote finished number (withThumbnail upload url)])
  | .stored upload tries result, .done _ now =>
      some (handleUploadSuccess config number box upload tries result now)
  | .delaying upload tries, .done _ _ => some (announce number box upload tries)
  | .failing upload error, .connectivity checked categorized =>
      some (updateUpload box (failedUpload upload error checked categorized), .failed upload,
        [wrote box number (failedUpload upload error checked categorized)])
  | _, _ => none

/-- What `startUpload` returns after its attempt, which is the record that is stored then. -/
def returns (box : Box) (attempt : Attempt) : List Entry :=
  if attempt.caller = .startUpload then
    [.returned attempt.number (find box attempt.stage.upload.id)]
  else []

end Attempts

/-! ### The manager -/

structure State where
  box : Box
  calls : List Call
  attempts : Nat
  drawn : List String

/-- The next upload of `_resumeInterruptedUploads`, up to the write of its record. -/
def resumeNext (config : Config) (box : Box) (present : Bool) :
    List PendingUpload → Box × Option Call
  | [] => (box, none)
  | upload :: rest =>
      if config.isWeb || present then
        (updateUpload box (resetUpload upload), some (.resuming rest (some (resetUpload upload))))
      else (updateUpload box (deletedVideo upload), some (.resuming rest none))

namespace State

variable (config : Config) (state : State)

def resume (index : Nat) (answer : Answer) : Call → Option (State × List Entry)
  | .attempt attempt =>
      match attempt.stage, answer with
      | .succeeded _ updated, .done _ _ =>
          some ({ state with
              calls := proceed state.calls index none ++
                if updated.status = .processing then [.polling updated.id] else [] },
            returns state.box attempt)
      | .failed _, .done _ _ =>
          some ({ state with calls := proceed state.calls index none }, returns state.box attempt)
      | stage, answer =>
          (advanceAttempt config attempt.number state.box stage answer).map fun outcome =>
            ({ state with
                box := outcome.1
                calls := proceed state.calls index
                  (some (.attempt { attempt with stage := outcome.2.1 })) },
              outcome.2.2)
  | .resuming rest current =>
      match current, answer with
      | none, .files _ next =>
          let resumed := resumeNext config state.box next rest
          some ({ state with
              box := resumed.1, calls := proceed state.calls index resumed.2 }, [])
      | some upload, .files current next =>
          let outcome := performUpload config state.attempts state.box upload current
          let resumed := resumeNext config outcome.1 next rest
          some ({ state with
              box := resumed.1
              calls := proceed state.calls index resumed.2 ++
                [.attempt ⟨state.attempts, .other, outcome.2.1⟩]
              attempts := state.attempts + 1 },
            outcome.2.2 ++ [.began upload.id state.attempts])
      | _, _ => none
  | .polling id =>
      match answer with
      | .stop => some ({ state with calls := proceed state.calls index none }, [])
      | .tick =>
          match find state.box id with
          | none => some ({ state with calls := proceed state.calls index none }, [])
          | some upload =>
              if upload.status = .processing then
                some ({ state with calls := state.calls ++ [.checking upload] }, [])
              else some ({ state with calls := proceed state.calls index none }, [])
      | _ => none
  | .checking upload =>
      match answer with
      | .ready isReady now =>
          some ({ state with
              box :=
                if isReady && upload.videoId.isSome then
                  updateUpload state.box (readyUpload upload now)
                else state.box
              calls := proceed state.calls index none }, [])
      | _ => none

/-- A new attempt that waits for the record that was stored before it. -/
def begin (upload : PendingUpload) (caller : Caller) : State × List Entry :=
  ({ state with
      box := updateUpload state.box upload
      calls := state.calls ++ [.attempt ⟨state.attempts, caller, .starting upload⟩]
      attempts := state.attempts + 1 },
    [.began upload.id state.attempts])

end State

/-- What the app asks of the manager, and what it waits for. -/
inductive Action where
  | startUpload (upload : PendingUpload)
  | resumeUpload (id : String)
  | retryUpload (id : String)
  | pauseUpload (id : String)
  | cancelUpload (id : String)
  | deleteUpload (id : String)
  | updateUploadMetadata (id : String) (metadata : Metadata)
  | resumeInterruptedUploads (uploads : List PendingUpload) (present : Bool)
  | progress (id : String) (progress : Rat)
  | answer (index : Nat) (answer : Answer)

section Step

variable (config : Config)

def isWebM (path : String) : Bool := ".webm".toList <:+ path.toLower.toList

/-- One call up to its first await, or one call that goes on. The record of `startUpload` is new;
the interrupted uploads are the stored ones, newest first. -/
def step (state : State) : Action → Option (State × List Entry)
  | .startUpload upload =>
      if isWebM upload.localVideoPath then some (state, [.returned none none])
      else if upload.id ∉ state.drawn ∧ upload = .create upload.id upload.localVideoPath
          upload.nostrPubkey upload.createdAt upload.thumbnailPath upload.metadata then
        some ({ state with drawn := upload.id :: state.drawn }.begin upload .startUpload)
      else none
  | .resumeUpload id =>
      match find state.box id with
      | none => some (state, [])
      | some upload =>
          if upload.status = .paused then some (state.begin (resumedUpload upload) .other)
          else some (state, [])
  | .retryUpload id =>
      match find state.box id with
      | none => some (state, [])
      | some upload =>
          if upload.canRetry then some (state.begin (resetUpload upload) .other)
          else some (state, [])
  | .pauseUpload id =>
      match find state.box id with
      | none => some (state, [])
      | some upload =>
          if upload.status = .uploading then
            some ({ state with box := updateUpload state.box (pausedUpload upload) }, [.stopped id])
          else some (state, [])
  | .cancelUpload id =>
      match find state.box id with
      | none => some (state, [])
      | some upload =>
          some ({ state with box := updateUpload state.box (cancelledUpload upload) },
            [.stopped id])
  | .deleteUpload id =>
      match find state.box id with
      | none => some (state, [])
      | some _ => some ({ state with box := remove state.box id }, [.deleted id])
  | .updateUploadMetadata id metadata =>
      match find state.box id with
      | none => some (state, [])
      | some upload =>
          some ({ state with box := updateUpload state.box (withMetadata upload metadata) },
            [.updated id metadata])
  | .resumeInterruptedUploads uploads present =>
      if uploads.Perm ((state.box.map Prod.snd).filter PendingUpload.isInterrupted) ∧
          uploads.Pairwise fun first second => second.createdAt ≤ first.createdAt then
        let resumed := resumeNext config state.box present uploads
        some ({ state with box := resumed.1, calls := state.calls ++ resumed.2.toList }, [])
      else none
  | .progress id progress =>
    some ({ state with box := updateUploadProgress state.box id progress }, [])
  | .answer index answer => state.calls[index]?.bind (state.resume config index answer)

end Step

end Divine.UploadManager
