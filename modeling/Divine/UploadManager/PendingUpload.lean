/-
This file models the record of a video upload and what the manager of uploads makes of the
answers of the upload service: the record after a success, and the error that is kept
after a failure.
-/

import Mathlib.Data.List.Infix
import Mathlib.Data.Rat.Defs

namespace Divine.UploadManager

/-! ### Records -/

inductive UploadStatus where
  | pending | uploading | retrying | processing | readyToPublish | published | failed | paused
  deriving DecidableEq

/-- What the user says about a video. -/
structure Metadata where
  title : Option String
  description : Option String
  hashtags : Option (List String)
  deriving DecidableEq

def Metadata.over (first second : Metadata) : Metadata :=
  { title := first.title <|> second.title
    description := first.description <|> second.description
    hashtags := first.hashtags <|> second.hashtags }

structure PendingUpload where
  id : String
  localVideoPath : String
  nostrPubkey : String
  status : UploadStatus
  createdAt : Nat
  cloudinaryPublicId : Option String
  videoId : Option String
  cdnUrl : Option String
  errorMessage : Option String
  uploadProgress : Option Rat
  thumbnailPath : Option String
  metadata : Metadata
  completedAt : Option Nat
  retryCount : Option Nat
  streamingMp4Url : Option String
  streamingHlsUrl : Option String
  fallbackUrl : Option String
  deriving DecidableEq

namespace PendingUpload

variable (upload : PendingUpload)

def create (id localVideoPath nostrPubkey : String) (createdAt : Nat)
    (thumbnailPath : Option String) (metadata : Metadata) : PendingUpload :=
  { id := id
    localVideoPath := localVideoPath
    nostrPubkey := nostrPubkey
    status := .pending
    createdAt := createdAt
    cloudinaryPublicId := none
    videoId := none
    cdnUrl := none
    errorMessage := none
    uploadProgress := none
    thumbnailPath := thumbnailPath
    metadata := metadata
    completedAt := none
    retryCount := some 0
    streamingMp4Url := none
    streamingHlsUrl := none
    fallbackUrl := none }

def canRetry : Bool := upload.status = .failed && upload.retryCount.getD 0 < 3

def isInterrupted : Bool :=
  upload.status = .pending || upload.status = .uploading || upload.status = .retrying ||
    upload.canRetry

end PendingUpload

/-! ### Answers of the service -/

structure UploadResult where
  success : Bool
  videoId : Option String
  url : Option String
  fallbackUrl : Option String
  streamingMp4Url : Option String
  streamingHlsUrl : Option String
  thumbnailUrl : Option String
  errorMessage : Option String
  deriving DecidableEq

def UploadResult.cdnUrl (result : UploadResult) : Option String := result.fallbackUrl <|> result.url

def isHttpUrl (url : String) : Bool := "http://".isPrefixOf url || "https://".isPrefixOf url

def validated (url : Option String) : Option String := url.filter isHttpUrl

/-- The video is still being processed and has no URL yet. -/
def UploadResult.isProcessing (result : UploadResult) : Bool :=
  result.errorMessage = some "processing" && result.cdnUrl.isNone

def createSuccessfulUpload (upload : PendingUpload) (result : UploadResult) (now : Nat) :
    PendingUpload :=
  { upload with
    status := if result.isProcessing then .processing else .readyToPublish
    cloudinaryPublicId := result.videoId <|> upload.cloudinaryPublicId
    videoId := result.videoId <|> upload.videoId
    cdnUrl := validated result.cdnUrl <|> upload.cdnUrl
    streamingMp4Url := validated result.streamingMp4Url <|> upload.streamingMp4Url
    streamingHlsUrl := validated result.streamingHlsUrl <|> upload.streamingHlsUrl
    fallbackUrl := validated result.fallbackUrl <|> upload.fallbackUrl
    thumbnailPath := result.thumbnailUrl <|> upload.thumbnailPath
    uploadProgress := some (if result.isProcessing then 9 / 10 else 1)
    completedAt := if result.isProcessing then upload.completedAt else some now }

/-! ### Errors -/

abbrev ErrorText := String

def mentions (error : ErrorText) (part : String) : Bool := part.toList <:+: error.toList

def isRetriableError (error : ErrorText) : Bool :=
  if mentions error "timeout" || mentions error "connection" || mentions error "network" ||
      mentions error "socket" then true
  else if mentions error "500" || mentions error "502" || mentions error "503" ||
      mentions error "504" then true
  else if mentions error "400" || mentions error "401" || mentions error "403" ||
      mentions error "404" then false
  else if mentions error "file not found" || mentions error "does not exist" then false
  else true

inductive ConnectivityResult where
  | wifi | mobile | ethernet | vpn | none
  deriving DecidableEq

def getNetworkTypeString : ConnectivityResult → String
  | .wifi => "WiFi"
  | .mobile => "Cellular"
  | .ethernet => "Ethernet"
  | .vpn => "VPN"
  | .none => "Offline"

inductive ErrorCategory where
  | noInternet | slowConnection | timeout | networkError | dnsError | fileNotFound | outOfMemory
  | permissionDenied | authentication | serverError | fileTooLarge | clientError | unknown
  deriving DecidableEq

def categorizeError (error : ErrorText) (connectivity : ConnectivityResult) : ErrorCategory :=
  if connectivity = .none then .noInternet
  else if mentions error "timeout" then
    if connectivity = .mobile then .slowConnection else .timeout
  else if mentions error "network" || mentions error "connection" then .networkError
  else if mentions error "host" || mentions error "dns" then .dnsError
  else if mentions error "file not found" then .fileNotFound
  else if mentions error "memory" then .outOfMemory
  else if mentions error "permission" then .permissionDenied
  else if mentions error "auth" || mentions error "unauthorized" then .authentication
  else if mentions error "5" || mentions error "server error" then .serverError
  else if mentions error "413" then .fileTooLarge
  else if mentions error "4" then .clientError
  else .unknown

def getUserFriendlyErrorMessage (category : ErrorCategory) (connectivity : ConnectivityResult) :
    String :=
  match category with
  | .noInternet => "No internet connection. Check your WiFi or cellular data and try again."
  | .slowConnection =>
      "Upload timed out on cellular data. Try connecting to WiFi for faster uploads."
  | .timeout =>
      "Upload timed out. Your connection might be slow. Try again or connect to WiFi."
  | .networkError | .dnsError =>
      "Network error on " ++ getNetworkTypeString connectivity ++
        ". Check your connection and try again."
  | .fileNotFound => "Video file not found. Please record the video again."
  | .fileTooLarge => "Video is too large to upload. Try recording a shorter video."
  | .outOfMemory => "Not enough memory to upload. Close other apps and try again."
  | .permissionDenied => "Permission denied. Check app permissions in Settings."
  | .authentication => "Authentication failed. Please sign in again."
  | .serverError => "Upload server is having issues. Please try again later."
  | .clientError => "Upload request failed. Please try again."
  | .unknown => "Upload failed. Please check your connection and try again."

/-! ### Records that can be published -/

def PendingUpload.publishable (upload : PendingUpload) : Bool :=
  upload.videoId.isSome && upload.cdnUrl.any isHttpUrl

section Success

variable {upload : PendingUpload} {result : UploadResult} {now : Nat}

theorem createSuccessfulUpload_id : (createSuccessfulUpload upload result now).id = upload.id := rfl

/-- What a result leaves ready can be published when there is a video id and a URL. -/
theorem publishable_createSuccessfulUpload :
    (createSuccessfulUpload upload result now).publishable =
      ((result.videoId <|> upload.videoId).isSome &&
        (validated result.cdnUrl <|> upload.cdnUrl).any isHttpUrl) := rfl

end Success

end Divine.UploadManager
