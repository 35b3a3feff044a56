/-
This file models the record of a video that the app makes of a Nostr event.
-/

import Mathlib.Order.Basic
import Mathlib.Data.Int.Order.Basic

namespace Divine.Models

/-- The most milliseconds that a date may be away from the epoch. -/
def maxMillisecondsSinceEpoch : Int := 8640000000000000

structure DateTime where
  millisecondsSinceEpoch : Int
  inRange : -maxMillisecondsSinceEpoch ≤ millisecondsSinceEpoch ∧
    millisecondsSinceEpoch ≤ maxMillisecondsSinceEpoch
  deriving DecidableEq

theorem epoch_inRange : -maxMillisecondsSinceEpoch ≤ 0 ∧ 0 ≤ maxMillisecondsSinceEpoch :=
  ⟨by decide, by decide⟩

/-- A reference to the video that inspired another one. -/
structure InspiredByInfo where
  addressableId : String
  relayUrl : Option String
  deriving DecidableEq

structure VideoEvent where
  id : String
  pubkey : String
  createdAt : Int
  content : String
  timestamp : DateTime
  title : Option String := none
  videoUrl : Option String := none
  thumbnailUrl : Option String := none
  duration : Option Int := none
  dimensions : Option String := none
  mimeType : Option String := none
  sha256 : Option String := none
  fileSize : Option Int := none
  hashtags : List String := []
  publishedAt : Option String := none
  rawTags : List (String × String) := []
  vineId : Option String := none
  group : Option String := none
  altText : Option String := none
  blurhash : Option String := none
  originalLoops : Option Int := none
  originalLikes : Option Int := none
  originalComments : Option Int := none
  originalReposts : Option Int := none
  expirationTimestamp : Option Int := none
  audioEventId : Option String := none
  audioEventRelay : Option String := none
  collaboratorPubkeys : List String := []
  inspiredByVideo : Option InspiredByInfo := none
  inspiredByNpub : Option String := none
  nostrEventTags : List (List String) := []
  textTrackRef : Option String := none
  contentWarningLabels : List String := []
  deriving DecidableEq

namespace VideoEvent

variable (video : VideoEvent)

def hasVideo : Bool := video.videoUrl.any fun url => !url.isEmpty

def isExpired (now : Int) : Bool := video.expirationTimestamp.any fun expiration => expiration ≤ now

end VideoEvent

end Divine.Models
