/-
This file models the web client's parser of video events: the two layouts of an `imeta`
tag, the choice of one such tag by its score, what is filled in from the others, and the
list of videos that are short enough to be shown.
-/

import Divine.ComputeJs.SubdomainProfile
import Divine.Library.NumberText
import Divine.Library.Splitting
import Mathlib.Data.List.MinMax

namespace Divine.FrontendWeb

open ComputeJs Splitting
open NumberText (ParsedNumber readSign)

/-! ### Events -/

def shortVideoKind : Int := 34236

def videoKinds : List Int := [shortVideoKind]

abbrev Tag := List Text

structure NostrEvent where
  id : Text
  pubkey : Text
  createdAt : Int
  kind : Int
  tags : List Tag
  content : Text
  sig : Text
  deriving DecidableEq

structure VideoMetadata where
  url : Text
  fallbackUrls : Option (List Text) := none
  hlsUrl : Option Text := none
  mimeType : Option Text := none
  dimensions : Option Text := none
  blurhash : Option Text := none
  thumbnailUrl : Option Text := none
  duration : Option ParsedNumber := none
  size : Option ParsedNumber := none
  hash : Option Text := none
  deriving DecidableEq

/-! ### Values -/

def parseIntAnyRadix (value : Text) : ParsedNumber :=
  match readSign (value.dropWhile isWhiteSpace) with
  | (negative, '0' :: 'x' :: rest) | (negative, '0' :: 'X' :: rest) =>
      let digits := ((rest.map JsonText.hexValue).takeWhile Option.isSome).reduceOption
      if digits = [] then .nan
      else
        let magnitude : ℕ := digits.foldl (fun value digit => value * 16 + digit) 0
        .finite (NumberText.applySign negative magnitude)
  | _ => NumberText.parseInt isWhiteSpace value

def nonempty (text : Text) : Bool := text ≠ []

def nonzero : ParsedNumber → Bool
  | .finite value => value ≠ 0
  | .infinite _ => true
  | .nan => false

def orElse {Value : Type} (truthy : Value → Bool) (value other : Option Value) : Option Value :=
  if value.any truthy then value else other

def isNamed (name : String) (tag : Tag) : Bool := tag.head? = some name.toList

section Parsing

variable (hostname : Text → Option Text)

def isVineHost (host : Text) : Bool := host = "vine.co".toList || ".vine.co".toList.isSuffixOf host

def isValidVideoUrl (url : Text) : Bool :=
  match hostname url with
  | none => false
  | some host => !isVineHost host

/-! ### One tag -/

/-- One case of the `switch` of `parseImetaTag`. -/
def setField (metadata : VideoMetadata) (field : Text × Text) : VideoMetadata :=
  let (key, value) := field
  if key = "url".toList then
    if isValidVideoUrl hostname value then { metadata with url := value } else metadata
  else if key = "m".toList then { metadata with mimeType := some value }
  else if key = "dim".toList then { metadata with dimensions := some value }
  else if key = "blurhash".toList then { metadata with blurhash := some value }
  else if key = "image".toList then { metadata with thumbnailUrl := some value }
  else if key = "duration".toList then { metadata with duration := some (parseIntAnyRadix value) }
  else if key = "size".toList then { metadata with size := some (parseIntAnyRadix value) }
  else if key = "x".toList then { metadata with hash := some value }
  else if key = "hls".toList then { metadata with hlsUrl := some value }
  else metadata

/-- Format 1: the key and the value on the two sides of the first blank of an element. -/
def spacedField (element : Text) : Option (Text × Text) :=
  if ' ' ∉ element then none
  else
    let key := element.takeWhile (· ≠ ' ')
    let value := element.drop (key.length + 1)
    if value = [] then none else some (key, value)

def separateFields : List Text → List (Text × Text)
  | key :: value :: rest =>
      if key = [] ∨ value = [] then separateFields rest else (key, value) :: separateFields rest
  | [_] | [] => []

def isFormat1 (tag : Tag) : Bool := tag[1]?.any (' ' ∈ ·)

def fieldsOf (tag : Tag) : List (Text × Text) :=
  if isFormat1 tag then tag.tail.filterMap spacedField else separateFields tag.tail

def parseImetaTag (tag : Tag) : Option VideoMetadata :=
  if isNamed "imeta" tag then
    let metadata := (fieldsOf tag).foldl (setField hostname) { url := [] }
    if metadata.url = [] then none else some metadata
  else none

/-! ### The metadata of an event -/

def acceptableImeta (tags : List Tag) : List VideoMetadata :=
  tags.filterMap fun tag => (parseImetaTag hostname tag).filter fun imetaData =>
    isValidVideoUrl hostname imetaData.url

def hasVideoUrl (tag : Tag) : Bool :=
  tag[1]?.any fun value => nonempty value && isValidVideoUrl hostname value

/-- The match of `https?:\/\/[^\s]+` at the beginning of a text. -/
def urlAt (text : Text) : Option Text :=
  ["https://".toList, "http://".toList].findSome? fun scheme =>
    let rest := (text.drop scheme.length).takeWhile fun symbol => !isWhiteSpace symbol
    if scheme.isPrefixOf text ∧ rest ≠ [] then some (scheme ++ rest) else none

/-- The matches in a text, after so many symbols that belong to one. -/
def urlsFrom : Nat → Text → List Text
  | _, [] => []
  | skip + 1, _ :: rest => urlsFrom skip rest
  | 0, symbol :: rest =>
      match urlAt (symbol :: rest) with
      | some url => url :: urlsFrom (url.length - 1) rest
      | none => urlsFrom 0 rest

def extractVideoUrl (event : NostrEvent) : Option Text :=
  let rTags := event.tags.filter fun tag => isNamed "r" tag && hasVideoUrl hostname tag
  let urlTag := event.tags.find? fun tag => isNamed "url" tag && hasVideoUrl hostname tag
  (((acceptableImeta hostname event.tags).head?.map VideoMetadata.url).or
    (urlTag.bind (·[1]?))).or
    (((rTags.filterMap (·[1]?)).find? (includes ".mp4".toList)).or
      ((rTags.filterMap (·[1]?)).head?.or
        ((urlsFrom 0 event.content).find? (isValidVideoUrl hostname))))

def score (imetaData : VideoMetadata) : Int :=
  (if includes ".mp4".toList imetaData.url then 100
    else if includes ".webm".toList imetaData.url || includes ".mov".toList imetaData.url then 90
    else if includes ".m3u8".toList imetaData.url then 50
    else 70) +
  (if imetaData.hlsUrl.any nonempty then 10 else 0) +
  (if imetaData.thumbnailUrl.any nonempty then 5 else 0) +
  (if imetaData.mimeType.any nonempty then 2 else 0)

/-- One turn of the loop over the tags: a strictly better score takes the place of the best. -/
def keepBest (best : Option VideoMetadata × Int) (imetaData : VideoMetadata) :
    Option VideoMetadata × Int :=
  if score imetaData > best.2 then (some imetaData, score imetaData) else best

def bestImeta (tags : List Tag) : Option VideoMetadata :=
  ((acceptableImeta hostname tags).foldl keepBest (none, -1)).1

def divineMedia : Text := "https://media.divine.video/".toList

def derivedHlsUrl (hash : Text) : Text := divineMedia ++ hash ++ "/hls/master.m3u8".toList

/-- The HLS URL that is generated from the hash where there is none. -/
def generateHls (metadata : VideoMetadata) : VideoMetadata :=
  match metadata.hash.filter nonempty with
  | some hash =>
      if !metadata.hlsUrl.any nonempty && includes "media.divine.video".toList metadata.url then
        { metadata with hlsUrl := some (derivedHlsUrl hash) }
      else metadata
  | none => metadata

/-- What is missing is copied from another tag, but for the URLs. -/
def fillIn (metadata imetaData : VideoMetadata) : VideoMetadata :=
  { metadata with
    mimeType := orElse nonempty metadata.mimeType imetaData.mimeType
    dimensions := orElse nonempty metadata.dimensions imetaData.dimensions
    blurhash := orElse nonempty metadata.blurhash imetaData.blurhash
    thumbnailUrl := orElse nonempty metadata.thumbnailUrl imetaData.thumbnailUrl
    duration := orElse nonzero metadata.duration imetaData.duration
    size := orElse nonzero metadata.size imetaData.size
    hash := orElse nonempty metadata.hash imetaData.hash }

def addFallback (url : Text) (fallbackUrls : List Text) (imetaData : VideoMetadata) : List Text :=
  if imetaData.url ≠ url ∧ includes ".mp4".toList imetaData.url ∧
      (fallbackUrls.all fun other => imetaData.url ≠ other) then
    fallbackUrls ++ [imetaData.url]
  else fallbackUrls

def fallbacksFor (url : Text) (tags : List Tag) : List Text :=
  (acceptableImeta hostname tags).foldl (addFallback url) []

/-- What follows the choice: a generated HLS URL, what other tags fill in, and the fallbacks. -/
def complete (tags : List Tag) (best : VideoMetadata) : VideoMetadata :=
  let metadata := (tags.filterMap (parseImetaTag hostname)).foldl fillIn (generateHls best)
  let fallbackUrls := fallbacksFor hostname metadata.url tags
  if fallbackUrls = [] then metadata
  else { metadata with fallbackUrls := some (fallbackUrls.take 2) }

def extractVideoMetadata (event : NostrEvent) : Option VideoMetadata :=
  ((bestImeta hostname event.tags).or
    ((extractVideoUrl hostname event).map fun primaryUrl => { url := primaryUrl })).map
    (complete hostname event.tags)

/-! ### The list of videos -/

structure VideoEvent where
  event : NostrEvent
  videoMetadata : VideoMetadata
  title : Option Text
  hashtags : List Text
  deriving DecidableEq

def firstValue (names : List String) (event : NostrEvent) : Option Text :=
  (event.tags.find? fun tag => names.any fun name => isNamed name tag).bind (·[1]?)

def parseVideoEvent (event : NostrEvent) : Option VideoEvent := do
  let videoMetadata ← extractVideoMetadata hostname event
  return {
    event
    videoMetadata
    title := firstValue ["title"] event
    hashtags := ((event.tags.filter (isNamed "t")).filterMap (·[1]?)).filter nonempty }

def getVineId (event : NostrEvent) : Option Text := (firstValue ["d"] event).filter nonempty

def validateVideoEvent (event : NostrEvent) : Bool :=
  event.kind ∈ videoKinds && !(event.kind = shortVideoKind && (getVineId event).isNone)

def firstCount (names : List String) (event : NostrEvent) : Option ParsedNumber :=
  ((firstValue names event).filter nonempty).bind fun value =>
    let count := parseIntAnyRadix value
    if count.isNaN then none else some count

def getOriginalVineTimestamp (event : NostrEvent) : Option ParsedNumber :=
  (firstCount ["published_at"] event).or
    (firstCount ["vine_created_at", "original_created_at"] event)

def getLoopCount (event : NostrEvent) : ParsedNumber :=
  ((firstCount ["loop_count", "loops"] event).or (firstCount ["view_count", "views"] event)).getD
    (.finite 0)

def getOriginalLikeCount (event : NostrEvent) : Option ParsedNumber := firstCount ["likes"] event

def getOriginalRepostCount (event : NostrEvent) : Option ParsedNumber :=
  firstCount ["reposts", "revines"] event

def getOriginalCommentCount (event : NostrEvent) : Option ParsedNumber :=
    firstCount ["comments"] event

structure OriginData where
  platform : Text
  externalId : Text
  url : Option Text
  metadata : Option Text
  deriving DecidableEq

def getOriginPlatform (event : NostrEvent) : Option OriginData :=
  let originTag := event.tags.find? (isNamed "origin")
  match (originTag.bind (·[1]?)).filter nonempty, (originTag.bind (·[2]?)).filter nonempty with
  | some platform, some externalId =>
      some ⟨platform, externalId, originTag.bind (·[3]?), originTag.bind (·[4]?)⟩
  | _, _ => ((firstValue ["platform"] event).filter nonempty).map fun platform =>
      let rTag := event.tags.find? fun tag =>
        isNamed "r" tag && tag[1]?.any (includes "vine.co".toList)
      ⟨platform, (firstValue ["d"] event).getD [], rTag.bind (·[1]?), none⟩

def isVineMigrated (event : NostrEvent) : Bool :=
  (getOriginPlatform event).any fun origin => origin.platform.map Char.toLower = "vine".toList

def getTextTrackRef (event : NostrEvent) : Option (Text × Option Text) :=
  (event.tags.find? (isNamed "text-track")).bind fun tag =>
    (tag[1]?.filter nonempty).map fun ref => (ref, tag[2]?)

def getThumbnailUrl (videoEvent : VideoEvent) : Option Text :=
  ((videoEvent.videoMetadata.thumbnailUrl.filter nonempty).or
    ((firstValue ["image"] videoEvent.event).filter nonempty)).or
    (((firstValue ["thumb"] videoEvent.event).filter nonempty).or
      ((some videoEvent.videoMetadata.url).filter nonempty))

/-- A video as the hooks receive it, without the proof of apps and the reposts collected later. -/
structure ParsedVideoData where
  id : Text
  pubkey : Text
  kind : Int
  createdAt : Int
  originalVineTimestamp : Option ParsedNumber
  content : Text
  videoUrl : Text
  fallbackVideoUrls : Option (List Text)
  hlsUrl : Option Text
  thumbnailUrl : Option Text
  blurhash : Option Text
  title : Option Text
  duration : Option ParsedNumber
  dimensions : Option Text
  hashtags : List Text
  vineId : Option Text
  loopCount : ParsedNumber
  likeCount : Option ParsedNumber
  repostCount : Option ParsedNumber
  commentCount : Option ParsedNumber
  origin : Option OriginData
  isVineMigrated : Bool
  textTrackRef : Option Text
  textTrackLanguage : Option Text
  originalEvent : NostrEvent
  deriving DecidableEq

def isTooLong : ParsedNumber → Bool
  | .finite duration => 7 ≤ duration
  | .infinite negative => !negative
  | .nan => false

def parseVideo (event : NostrEvent) : Option ParsedVideoData := do
  guard (validateVideoEvent event)
  let videoEvent ← parseVideoEvent hostname event
  let metadata := videoEvent.videoMetadata
  let vineId := getVineId event
  guard (!(vineId.isNone && event.kind = shortVideoKind))
  guard (nonempty metadata.url)
  guard (!metadata.duration.any isTooLong)
  let textTrack := getTextTrackRef event
  return {
    id := event.id
    pubkey := event.pubkey
    kind := event.kind
    createdAt := event.createdAt
    originalVineTimestamp := getOriginalVineTimestamp event
    content := event.content
    videoUrl := metadata.url
    fallbackVideoUrls := metadata.fallbackUrls
    hlsUrl := metadata.hlsUrl
    thumbnailUrl := getThumbnailUrl videoEvent
    blurhash := metadata.blurhash
    title := videoEvent.title
    duration := metadata.duration
    dimensions := metadata.dimensions
    hashtags := videoEvent.hashtags
    vineId
    loopCount := getLoopCount event
    likeCount := getOriginalLikeCount event
    repostCount := getOriginalRepostCount event
    commentCount := getOriginalCommentCount event
    origin := getOriginPlatform event
    isVineMigrated := isVineMigrated event
    textTrackRef := textTrack.map Prod.fst
    textTrackLanguage := textTrack.bind Prod.snd
    originalEvent := event }

def parseVideoEvents (events : List NostrEvent) : List ParsedVideoData :=
  events.filterMap (parseVideo hostname)

end Parsing

end Divine.FrontendWeb
