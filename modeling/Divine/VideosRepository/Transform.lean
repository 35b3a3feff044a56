/-
This file models how the repository of videos makes a list of the events that relays
return.
-/

import Divine.Library.Sorting
import Divine.Models.NostrVideo

namespace Divine.VideosRepository

open List Option Fallible Models Sorting

/-! ### Filters -/

/-- What a repository is made with, and the time at which it reads. Without a filter nothing is
blocked. -/
structure Setup where
  platform : Platform
  blockFilter : String → Bool
  contentFilter : VideoEvent → Bool
  order : Descending VideoEvent.createdAt
  now : Int

section

variable (setup : Setup)

def isShown (video : VideoEvent) : Bool :=
  video.hasVideo && !video.isExpired setup.now && !setup.contentFilter video

def tryParseAndFilter (event : Event) : Option (Option VideoEvent) :=
  if !isVideoKind event.kind then some none
  else if setup.blockFilter event.pubkey then some none
  else (fromNostrEvent setup.platform false event).map fun video =>
    if isShown setup video then some video else none

def transformAndFilter (sortByCreatedAt : Bool) (events : List Event) :
    Option (List VideoEvent) :=
  (events.mapM (tryParseAndFilter setup)).map fun found =>
    let videos := found.reduceOption
    if sortByCreatedAt then setup.order.sort videos else videos

def shown (event : Event) : Option VideoEvent := (tryParseAndFilter setup event).join

end

section

variable {setup : Setup} {sortByCreatedAt : Bool} {event : Event} {video : VideoEvent}

theorem shown_eq_some_iff :
    shown setup event = some video ↔ tryParseAndFilter setup event = some (some video) :=
  join_eq_some_iff

theorem parsed_of_shown (shows : shown setup event = some video) :
    isVideoKind event.kind = true ∧ fromNostrEvent setup.platform false event = some video ∧
      isShown setup video = true := by
  rw [shown_eq_some_iff] at shows
  unfold tryParseAndFilter at shows
  split at shows
  · cases shows
  · rename_i isVideo
    split at shows
    · cases shows
    · obtain ⟨read, parsed, kept⟩ := map_eq_some_iff.mp shows
      split at kept
      · rename_i showable
        cases kept
        exact ⟨by simpa using isVideo, parsed, showable⟩
      · cases kept

theorem id_of_shown (shows : shown setup event = some video) : video.id = event.id :=
  id_of_fromNostrEvent (parsed_of_shown shows).2.1

theorem videoUrl_of_shown (shows : shown setup event = some video) :
    video.videoUrl.isSome = true := by
  have showable := (parsed_of_shown shows).2.2
  unfold isShown VideoEvent.hasVideo at showable
  cases held : video.videoUrl with
  | none => simp [held] at showable
  | some url => rfl

theorem mem_transformAndFilter {events : List Event} {videos : List VideoEvent}
    (returned : transformAndFilter setup sortByCreatedAt events = some videos) :
    video ∈ videos ↔ ∃ event ∈ events, shown setup event = some video := by
  obtain ⟨found, read, rfl⟩ := map_eq_some_iff.mp returned
  rw [(mapM_eq_some_iff.mp read).2, reduceOption_filterMap]
  split
  · rw [setup.order.mem_sort, mem_filterMap]
    rfl
  · rw [mem_filterMap]
    rfl

end

/-! ### One bad event -/

section

variable {setup : Setup} {sortByCreatedAt : Bool} {event : Event} {events : List Event}

/-- The videos are those of the events that parse, and every event of a video does. -/
structure Survives (setup : Setup) (sortByCreatedAt : Bool) (events : List Event) : Prop where
  returns : ∃ videos, transformAndFilter setup sortByCreatedAt events = some videos ∧
    transformAndFilter setup sortByCreatedAt (events.filter fun event =>
      (fromNostrEvent setup.platform false event).isSome) = some videos
  parses : ∀ event ∈ events, isVideoKind event.kind = true →
    (fromNostrEvent setup.platform false event).isSome = true

theorem tryParseAndFilter_isSome : (tryParseAndFilter setup event).isSome = true ↔
    (isVideoKind event.kind = true → setup.blockFilter event.pubkey = false → Parses event) := by
  unfold tryParseAndFilter
  cases video : isVideoKind event.kind with
  | false => simp
  | true =>
    cases blocked : setup.blockFilter event.pubkey with
    | true => simp
    | false => simp [@fromNostrEvent_isSome _ event false video]

theorem join_tryParseAndFilter
    (unparsed : (fromNostrEvent setup.platform false event).isSome = false) :
    (tryParseAndFilter setup event).join = none := by
  rw [isSome_eq_false_iff, isNone_iff_eq_none] at unparsed
  unfold tryParseAndFilter
  rw [unparsed]
  split
  · rfl
  · split <;> rfl

theorem transformAndFilter_isSome :
    (transformAndFilter setup sortByCreatedAt events).isSome = true ↔
      ∀ event ∈ events, isVideoKind event.kind = true → setup.blockFilter event.pubkey = false →
        Parses event := by
  unfold transformAndFilter
  rw [isSome_map, mapM_isSome_iff]
  exact forall₂_congr fun event _ => tryParseAndFilter_isSome

theorem transformAndFilter_eq_some {videos : List VideoEvent}
    (returned : transformAndFilter setup sortByCreatedAt events = some videos) :
    videos = if sortByCreatedAt then
        setup.order.sort (events.filterMap fun event => (tryParseAndFilter setup event).join)
      else events.filterMap fun event => (tryParseAndFilter setup event).join := by
  obtain ⟨found, read, rfl⟩ := map_eq_some_iff.mp returned
  rw [(mapM_eq_some_iff.mp read).2, reduceOption_filterMap]

theorem filterMap_parsed (events : List Event) :
    (events.filter fun event => (fromNostrEvent setup.platform false event).isSome).filterMap
        (fun event => (tryParseAndFilter setup event).join) =
      events.filterMap fun event => (tryParseAndFilter setup event).join := by
  rw [filterMap_filter]
  refine filterMap_congr fun event _ => ?_
  split
  · rfl
  · rename_i unparsed
    exact (join_tryParseAndFilter (Bool.not_eq_true _ ▸ unparsed)).symm

/-- One event takes the list down exactly when it is a video that does not parse. -/
theorem survives_iff : Survives setup sortByCreatedAt events ↔
    ∀ event ∈ events, isVideoKind event.kind = true → Parses event := by
  constructor
  · intro survives event member video
    exact (@fromNostrEvent_isSome _ _ false video).mp (survives.parses event member video)
  · intro parses
    have all : (transformAndFilter setup sortByCreatedAt events).isSome = true :=
      transformAndFilter_isSome.mpr fun event member video _ => parses event member video
    have kept : (transformAndFilter setup sortByCreatedAt (events.filter fun event =>
        (fromNostrEvent setup.platform false event).isSome)).isSome = true :=
      transformAndFilter_isSome.mpr fun event member video _ =>
        parses event (mem_of_mem_filter member) video
    obtain ⟨videos, returned⟩ := isSome_iff_exists.mp all
    obtain ⟨others, keptReturned⟩ := isSome_iff_exists.mp kept
    have same : others = videos := by
      rw [transformAndFilter_eq_some returned, transformAndFilter_eq_some keptReturned,
        filterMap_parsed]
    exact ⟨⟨videos, returned, same ▸ keptReturned⟩, fun event member video =>
      (@fromNostrEvent_isSome _ _ false video).mpr (parses event member video)⟩

end

section

def samplePlatform : Platform where
  parseUri url :=
    if Models.startsWith url "https://" then some ⟨"https",
      String.ofList (url.toList.drop 8)⟩ else none
  toLowerCase := String.toLower
  roundedDouble := tryParseInt

def sampleSetup : Setup where
  platform := samplePlatform
  blockFilter _ := false
  contentFilter _ := false
  order := insertion VideoEvent.createdAt
  now := 0

def sampleEvent (id publishedAt : String) : Event where
  id := id
  pubkey := "author"
  createdAt := 1700000000
  kind := 34236
  tags := [.list ["url", "https://media.divine.video/hash.mp4"],
    .list ["published_at", publishedAt]]
  content := ""

/-- A time that no date has hides the videos of all events. -/
theorem hides :
    (transformAndFilter sampleSetup true [sampleEvent "good" "1700000000"]).map
        (List.map VideoEvent.id) = some ["good"] ∧
      transformAndFilter sampleSetup true
        [sampleEvent "good" "1700000000", sampleEvent "bad" "9000000000000"] = none := by
  decide +kernel

end

end Divine.VideosRepository
