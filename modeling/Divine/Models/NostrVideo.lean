/-
This file models how a video is read from a Nostr event.
-/

import Divine.Library.Dictionary
import Divine.Library.Fallible
import Divine.Models.DartText
import Divine.Models.VideoEvent

namespace Divine.Models

open Dictionary Fallible

/-! ### Events -/

/-- A tag of an event as it was received: a list, with its elements as their texts, or another
value. -/
inductive Tag where
  | list (elements : List String)
  | other
  deriving DecidableEq

/-- The cast of a tag to a list, which throws for another value. -/
def Tag.elements : Tag → Option (List String)
  | list elements => some elements
  | other => none

structure Event where
  id : String
  pubkey : String
  createdAt : Int
  kind : Nat
  tags : List Tag
  content : String
  deriving DecidableEq

/-! ### Kinds -/

def isVideoKind (kind : Nat) : Bool := [34236].contains kind

def isAcceptableVideoKind (kind : Nat) : Bool := [22, 21, 34236, 34235].contains kind

/-! ### Addresses -/

section Addresses

variable (platform : Platform)

def correctedUrl (url : String) : String :=
  if contains url "apt.openvine.co" then replaceAll url "apt.openvine.co" "api.openvine.co" else url

def isValidVideoUrl (url : String) : Bool :=
  if url.isEmpty then false
  else match platform.parseUri (correctedUrl url) with
    | none => false
    | some uri =>
        ["http", "https"].contains (platform.toLowerCase uri.scheme) && !uri.host.isEmpty

def scoreVideoUrl (url : String) : Int :=
  let urlLower := platform.toLowerCase url
  if contains urlLower "//vine.co/" || contains urlLower "//www.vine.co/" ||
      startsWith urlLower "vine.co/" then -1
  else if contains urlLower "cdn.divine.video" && contains urlLower "/manifest/" then 5
  else if contains urlLower ".mp4" && contains urlLower "cdn.divine.video" then 115
  else if contains urlLower ".mp4" then 110
  else if contains urlLower ".m3u8" && contains urlLower "stream.divine.video" then 105
  else if contains urlLower ".m3u8" || contains urlLower "hls" then 100
  else if contains urlLower ".webm" then 90
  else if contains urlLower ".mov" then 70
  else if contains urlLower ".avi" then 60
  else if contains urlLower ".mpd" || contains urlLower "dash" then 10
  else 50

def selectBestVideoUrl (best : Option String) (bestScore : Int) : List String → Option String
  | [] => best
  | url :: rest =>
      if isValidVideoUrl platform url && bestScore < scoreVideoUrl platform url then
        selectBestVideoUrl (some url) (scoreVideoUrl platform url) rest
      else selectBestVideoUrl best bestScore rest

def findAnyVideoUrlInTags (tags : List (List String)) : Option String :=
  (tags.flatMap fun tag =>
    (tag.tail.filter fun value => !value.isEmpty).map correctedUrl).find? (isValidVideoUrl platform)

end Addresses

/-! ### Tags -/

/-- What was read from the tags so far. -/
structure Fields where
  rawTags : List (String × String) := []
  hashtags : List String := []
  videoUrlCandidates : List String := []
  thumbnailUrl : Option String := none
  title : Option String := none
  duration : Option Int := none
  dimensions : Option String := none
  mimeType : Option String := none
  sha256 : Option String := none
  fileSize : Option Int := none
  publishedAt : Option String := none
  vineId : Option String := none
  group : Option String := none
  altText : Option String := none
  blurhash : Option String := none
  originalLoops : Option Int := none
  originalLikes : Option Int := none
  originalComments : Option Int := none
  originalReposts : Option Int := none
  expirationTimestamp : Option Int := none
  audioEventId : Option String := none
  audioEventRelay : Option String := none
  collaboratorPubkeys : List String := []
  inspiredByVideo : Option InspiredByInfo := none
  textTrackRef : Option String := none
  contentWarningLabels : List String := []

namespace Fields

variable (platform : Platform) (fields : Fields)

def withCandidate (url : String) : Fields :=
  if isValidVideoUrl platform url then
    { fields with videoUrlCandidates := fields.videoUrlCandidates ++ [url] }
  else fields

def withCorrected (url : String) : Fields :=
  if isValidVideoUrl platform url then
    { fields with videoUrlCandidates := fields.videoUrlCandidates ++ [correctedUrl url] }
  else fields

def withLabel (label : String) : Fields :=
  if !label.isEmpty && !fields.contentWarningLabels.contains label then
    { fields with contentWarningLabels := fields.contentWarningLabels ++ [label] }
  else fields

def readImeta (key value : String) : Fields :=
  match key with
  | "url" => fields.withCorrected platform value
  | "hls" | "dash" | "stream" | "streaming" | "fallback" | "mp4" | "video" =>
      fields.withCandidate platform value
  | "m" => { fields with mimeType := fields.mimeType <|> some value }
  | "x" => { fields with sha256 := fields.sha256 <|> some value }
  | "size" => { fields with fileSize := fields.fileSize <|> tryParseInt value }
  | "dim" => { fields with dimensions := fields.dimensions <|> some value }
  | "thumb" | "image" => { fields with thumbnailUrl := fields.thumbnailUrl <|> some value }
  | "blurhash" => { fields with blurhash := fields.blurhash <|> some value }
  | "duration" => { fields with duration := fields.duration <|> platform.roundedDouble value }
  | _ => fields

end Fields

/-- The key and the value before and after the first blank, unless it comes first. -/
def spacedPair (element : String) : Option (String × String) :=
  let symbols := element.toList
  match symbols.findIdx? (fun symbol => symbol = ' ') with
  | none | some 0 => none
  | some index =>
    some (String.ofList (symbols.take index), String.ofList (symbols.drop (index + 1)))

def followingPairs : List String → List (String × String)
  | key :: value :: rest => (key, value) :: followingPairs rest
  | _ => []

def parseImetaTag (elements : List String) : List (String × String) :=
  match elements with
  | [] => []
  | first :: _ =>
      if contains first " " then elements.filterMap spacedPair else followingPairs elements

namespace Fields

variable (platform : Platform) (pubkey : String) (fields : Fields)

/-- The `r` tag, with a type or without. The address with its type is overwritten later. -/
def readReference (url : String) : List String → Fields
  | [] => fields.withCandidate platform url
  | type :: _ =>
      if type = "video" && !url.isEmpty && isValidVideoUrl platform url then fields
      else if type = "thumbnail" && !url.isEmpty && !contains url "picsum.photos" then
        { fields with thumbnailUrl := fields.thumbnailUrl <|> some url }
      else fields

/-- The marker of an `e` tag, and its relay when the marker comes after it. -/
def audioMarker : List String → Option (String × Option String)
  | [] => none
  | [marker] => some (marker, none)
  | relay :: marker :: _ => some (marker, some relay)

/-- The `e` tag, which may refer to the sound of the video. -/
def readEvent (id : String) (values : List String) : Fields :=
  let read := match audioMarker values with
    | some ("audio", relay) =>
        if fields.audioEventId.isNone && !id.isEmpty then
          { fields with
            audioEventId := some id
            audioEventRelay :=
              (relay.filter fun url => url ≠ "") <|> fields.audioEventRelay }
        else fields
    | _ => fields
  read.withCandidate platform id

/-- The `a` tag, which may refer to the video that inspired this one. -/
def readAddress (address : String) (values : List String) : Fields :=
  if startsWith address "34236:" then
    { fields with
      inspiredByVideo := fields.inspiredByVideo <|>
        some ⟨address, values.head?.filter fun relay => relay ≠ ""⟩ }
  else fields

/-- The `p` tag of a collaborator. -/
def readPerson (person : String) : Fields :=
  if !person.isEmpty && person ≠ pubkey && !fields.collaboratorPubkeys.contains person then
    { fields with collaboratorPubkeys := fields.collaboratorPubkeys ++ [person] }
  else fields

def readNamed (name value : String) (values : List String) : Fields :=
  match name with
  | "url" => fields.withCorrected platform value
  | "streaming" => fields.withCandidate platform value
  | "imeta" =>
      (parseImetaTag values).foldl (fun read pair => read.readImeta platform pair.1 pair.2) fields
  | "title" => { fields with title := some value }
  | "published_at" => { fields with publishedAt := some value }
  | "duration" => { fields with duration := tryParseInt value }
  | "dim" => { fields with dimensions := some value }
  | "m" => { fields with mimeType := some value }
  | "x" => { fields with sha256 := some value }
  | "size" => { fields with fileSize := tryParseInt value }
  | "thumb" => { fields with thumbnailUrl := some value }
  | "preview" =>
      if !value.isEmpty && endsWith value ".gif" then
        { fields with rawTags := put fields.rawTags "preview_gif" value }
      else fields
  | "image" => { fields with thumbnailUrl := fields.thumbnailUrl <|> some value }
  | "d" => { fields with vineId := some value }
  | "vine_id" => { fields with vineId := fields.vineId <|> some value }
  | "h" => { fields with group := some value }
  | "alt" => { fields with altText := some value }
  | "blurhash" => { fields with blurhash := some value }
  | "loops" => { fields with originalLoops := tryParseInt value }
  | "likes" => { fields with originalLikes := tryParseInt value }
  | "comments" => { fields with originalComments := tryParseInt value }
  | "reposts" => { fields with originalReposts := tryParseInt value }
  | "expiration" => { fields with expirationTimestamp := tryParseInt value }
  | "t" => if value.isEmpty then fields else { fields with hashtags := fields.hashtags ++ [value] }
  | "r" => fields.readReference platform value values.tail
  | "e" => fields.readEvent platform value values.tail
  | "i" => fields.withCandidate platform value
  | "p" => fields.readPerson pubkey value
  | "a" => fields.readAddress value values.tail
  | "content-warning" => fields.withLabel value
  | "l" => if values.tail.head? = some "content-warning" then fields.withLabel value else fields
  | "text-track" =>
      if value.isEmpty then fields
      else { fields with textTrackRef := fields.textTrackRef <|> some value }
  | _ => fields.withCandidate platform value

/-- A tag that is not empty, which is also stored under its name. -/
def readTag : List String → Fields
  | [] => fields
  | name :: values =>
      let value := values.headD ""
      let read := fields.readNamed platform pubkey name value values
      { read with rawTags := put read.rawTags name value }

end Fields

def readTags (platform : Platform) (pubkey : String) (tags : List (List String)) : Fields :=
  tags.foldl (fun fields tag => fields.readTag platform pubkey tag) {}

/-! ### Videos -/

def DateTime.fromMillisecondsSinceEpoch (milliseconds : Int) : Option DateTime :=
  if inRange : -maxMillisecondsSinceEpoch ≤ milliseconds ∧
      milliseconds ≤ maxMillisecondsSinceEpoch then
    some ⟨milliseconds, inRange⟩
  else none

/-- The time of a video in seconds: the published one, when it is a number, else the event's. -/
def effectiveTimestamp (publishedAt : Option String) (createdAt : Int) : Int :=
  (tryParseInt (publishedAt.getD "")).getD createdAt

section Parsing

variable (platform : Platform)

/-- The address of the video: the best candidate, and else any address in the tags. -/
def chosenUrl (fields : Fields) (tags : List (List String)) : Option String :=
  let chosen :=
    if fields.videoUrlCandidates.isEmpty then findAnyVideoUrlInTags platform tags
    else selectBestVideoUrl platform none (-1) fields.videoUrlCandidates
  chosen.map correctedUrl

def fromNostrEvent (permissive : Bool) (event : Event) : Option VideoEvent := do
  if !(if permissive then isAcceptableVideoKind event.kind else isVideoKind event.kind) then none
  else
    let tags ← event.tags.mapM Tag.elements
    let fields := readTags platform event.pubkey tags
    let createdAt := effectiveTimestamp fields.publishedAt event.createdAt
    let timestamp ← DateTime.fromMillisecondsSinceEpoch (wrapped (createdAt * 1000))
    some
      { id := event.id
        pubkey := event.pubkey
        createdAt := createdAt
        content := event.content
        timestamp := timestamp
        title := fields.title
        videoUrl := chosenUrl platform fields tags
        thumbnailUrl := fields.thumbnailUrl
        duration := fields.duration
        dimensions := fields.dimensions
        mimeType := fields.mimeType
        sha256 := fields.sha256
        fileSize := fields.fileSize
        hashtags := fields.hashtags
        publishedAt := fields.publishedAt
        rawTags := fields.rawTags
        vineId := some ((fields.vineId.filter fun vineId => !vineId.isEmpty).getD event.id)
        group := fields.group
        altText := fields.altText
        blurhash := fields.blurhash
        originalLoops := fields.originalLoops
        originalLikes := fields.originalLikes
        originalComments := fields.originalComments
        originalReposts := fields.originalReposts
        expirationTimestamp := fields.expirationTimestamp
        audioEventId := fields.audioEventId
        audioEventRelay := fields.audioEventRelay
        collaboratorPubkeys := fields.collaboratorPubkeys
        inspiredByVideo := fields.inspiredByVideo
        inspiredByNpub := npubMatch event.content
        nostrEventTags := tags
        textTrackRef := fields.textTrackRef
        contentWarningLabels := fields.contentWarningLabels }

end Parsing

/-! ### Events that parse -/

/-- The text of the time that was published, the last one of the tags. -/
def publishedValue : List (List String) → Option String
  | [] => none
  | [] :: rest => publishedValue rest
  | (name :: values) :: rest =>
      publishedValue rest <|> if name = "published_at" then some (values.headD "") else none

/-- The tags are lists, and a date can have the time of the video. -/
structure Parses (event : Event) : Prop where
  lists : ∀ tag ∈ event.tags, tag ≠ .other
  dated : (wrapped (effectiveTimestamp (publishedValue (event.tags.filterMap Tag.elements))
    event.createdAt * 1000)).natAbs ≤ 8640000000000000

instance decidableParses (event : Event) : Decidable (Parses event) :=
  decidable_of_iff ((∀ tag ∈ event.tags, tag ≠ .other) ∧
      (wrapped (effectiveTimestamp (publishedValue (event.tags.filterMap Tag.elements))
        event.createdAt * 1000)).natAbs ≤ 8640000000000000)
    ⟨fun ⟨lists, dated⟩ => ⟨lists, dated⟩, fun ⟨lists, dated⟩ => ⟨lists, dated⟩⟩

namespace Fields

variable {platform : Platform} {pubkey : String} {fields : Fields}

@[simp] theorem publishedAt_withCandidate (url : String) :
    (fields.withCandidate platform url).publishedAt = fields.publishedAt := by
  unfold withCandidate
  split <;> rfl

@[simp] theorem publishedAt_withCorrected (url : String) :
    (fields.withCorrected platform url).publishedAt = fields.publishedAt := by
  unfold withCorrected
  split <;> rfl

@[simp] theorem publishedAt_withLabel (label : String) :
    (fields.withLabel label).publishedAt = fields.publishedAt := by
  unfold withLabel
  split <;> rfl

@[simp] theorem publishedAt_readImeta (key value : String) :
    (fields.readImeta platform key value).publishedAt = fields.publishedAt := by
  unfold readImeta
  split <;> simp

@[simp] theorem publishedAt_foldl_readImeta (pairs : List (String × String)) :
    (pairs.foldl (fun read pair => read.readImeta platform pair.1 pair.2) fields).publishedAt =
      fields.publishedAt := by
  induction pairs generalizing fields with
  | nil => rfl
  | cons pair rest ih =>
    exact ih.trans (publishedAt_readImeta pair.1 pair.2)

@[simp] theorem publishedAt_readReference (url : String) (values : List String) :
    (fields.readReference platform url values).publishedAt = fields.publishedAt := by
  unfold readReference
  split
  · simp
  · split
    · rfl
    · split <;> rfl

@[simp] theorem publishedAt_readEvent (id : String) (values : List String) :
    (fields.readEvent platform id values).publishedAt = fields.publishedAt := by
  unfold readEvent
  simp only [publishedAt_withCandidate]
  split
  · split <;> rfl
  · rfl

@[simp] theorem publishedAt_readAddress (address : String) (values : List String) :
    (fields.readAddress address values).publishedAt = fields.publishedAt := by
  unfold readAddress
  split <;> rfl

@[simp] theorem publishedAt_readPerson (person : String) :
    (fields.readPerson pubkey person).publishedAt = fields.publishedAt := by
  unfold readPerson
  split <;> rfl

theorem publishedAt_readNamed (name value : String) (values : List String) :
    (fields.readNamed platform pubkey name value values).publishedAt =
      if name = "published_at" then some value else fields.publishedAt := by
  by_cases published : name = "published_at"
  · subst published
    rfl
  · rw [if_neg published]
    unfold readNamed
    split
    case h_5 => exact absurd rfl published
    all_goals simp [apply_ite Fields.publishedAt]

theorem publishedAt_foldl_readTag (tags : List (List String)) :
    (tags.foldl (fun fields tag => fields.readTag platform pubkey tag) fields).publishedAt =
      (publishedValue tags <|> fields.publishedAt) := by
  induction tags generalizing fields with
  | nil => rfl
  | cons tag rest ih =>
    rw [List.foldl_cons, ih]
    cases tag with
    | nil => rfl
    | cons name values =>
      show (publishedValue rest <|> (fields.readNamed platform pubkey name (values.headD "")
        values).publishedAt) = (publishedValue ((name :: values) :: rest) <|> fields.publishedAt)
      rw [publishedAt_readNamed, publishedValue]
      cases publishedValue rest with
      | some value => rfl
      | none => split <;> rfl

end Fields

section Parsing

variable {platform : Platform} {event : Event}

theorem elements_isSome {tag : Tag} : tag.elements.isSome = true ↔ tag ≠ .other := by
  cases tag with
  | list elements => exact ⟨fun _ => Tag.noConfusion, fun _ => rfl⟩
  | other => exact ⟨nofun, fun differs => absurd rfl differs⟩

theorem fromMillisecondsSinceEpoch_isSome {milliseconds : Int} :
    (DateTime.fromMillisecondsSinceEpoch milliseconds).isSome = true ↔
      milliseconds.natAbs ≤ 8640000000000000 := by
  unfold DateTime.fromMillisecondsSinceEpoch maxMillisecondsSinceEpoch
  split
  · rename_i inRange
    exact ⟨fun _ => by omega, fun _ => rfl⟩
  · rename_i outOfRange
    exact ⟨nofun, fun inRange => absurd (by omega) outOfRange⟩

theorem fromNostrEvent_isSome {permissive : Bool}
    (accepted : (if permissive then isAcceptableVideoKind event.kind else isVideoKind event.kind) =
      true) : (fromNostrEvent platform permissive event).isSome = true ↔ Parses event := by
  unfold fromNostrEvent
  rw [accepted, Bool.not_true, if_neg Bool.false_ne_true]
  by_cases lists : ∀ tag ∈ event.tags, tag ≠ .other
  · have read : event.tags.mapM Tag.elements = some (event.tags.filterMap Tag.elements) :=
      mapM_eq_some_iff.mpr ⟨fun tag member => elements_isSome.mpr (lists tag member), rfl⟩
    have published : (readTags platform event.pubkey
        (event.tags.filterMap Tag.elements)).publishedAt =
          publishedValue (event.tags.filterMap Tag.elements) := by
      unfold readTags
      rw [Fields.publishedAt_foldl_readTag]
      cases publishedValue (event.tags.filterMap Tag.elements) <;> rfl
    have dated := @fromMillisecondsSinceEpoch_isSome
      (wrapped (effectiveTimestamp (publishedValue (event.tags.filterMap Tag.elements))
        event.createdAt * 1000))
    simp only [read, Option.bind_eq_bind, Option.bind_some, published]
    cases found : DateTime.fromMillisecondsSinceEpoch (wrapped (effectiveTimestamp
        (publishedValue (event.tags.filterMap Tag.elements)) event.createdAt * 1000)) with
    | none =>
      rw [found] at dated
      exact ⟨nofun, fun parses => dated.mpr parses.dated⟩
    | some timestamp =>
      rw [found] at dated
      exact ⟨fun _ => ⟨lists, dated.mp rfl⟩, fun _ => rfl⟩
  · have unread : event.tags.mapM Tag.elements = none := by
      by_contra some
      obtain ⟨tags, read⟩ := Option.ne_none_iff_exists'.mp some
      exact lists fun tag member => elements_isSome.mp ((mapM_eq_some_iff.mp read).1 tag member)
    simp only [unread, Option.bind_eq_bind, Option.bind_none]
    exact ⟨nofun, fun parses => absurd parses.lists lists⟩

theorem id_of_fromNostrEvent {permissive : Bool} {video : VideoEvent}
    (read : fromNostrEvent platform permissive event = some video) : video.id = event.id := by
  unfold fromNostrEvent at read
  cases accepted : (if permissive then isAcceptableVideoKind event.kind
    else isVideoKind event.kind) with
  | false =>
    rw [accepted, Bool.not_false, if_pos rfl] at read
    cases read
  | true =>
    rw [accepted, Bool.not_true, if_neg Bool.false_ne_true] at read
    simp only [Option.bind_eq_bind, Option.bind_eq_some_iff] at read
    obtain ⟨_, -, _, -, read⟩ := read
    cases read
    rfl

end Parsing

end Divine.Models
