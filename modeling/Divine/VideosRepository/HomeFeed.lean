/-
This file models how the repository fetches the pages of the feeds that are sorted by
date: the home feed, which has the videos of followed authors and those that subscribed
lists refer to, and the latest videos.
-/

import Divine.NostrSdk.Filter
import Divine.VideoFeedBloc.Bloc
import Divine.VideosRepository.Transform

namespace Divine.VideosRepository

open List Option Dictionary Fallible Models Sorting VideoFeedBloc
open NostrSdk (Filter)

/-! ### Videos by reference -/

/-- Where events are found: the relays, for the filters of one request, and the local storage. -/
structure EventSource where
  query : List Filter → List Event
  getEventsByIds : List String → List Event

/-- An addressable id. -/
structure AId where
  kind : Int
  pubkey : String
  dTag : String

def colonParts : List Char → List (List Char)
  | [] => [[]]
  | symbol :: rest =>
      if symbol = ':' then [] :: colonParts rest
      else match colonParts rest with
        | [] => [[symbol]]
        | part :: later => (symbol :: part) :: later

def AId.fromString (text : String) : Option AId :=
  match colonParts text.toList with
  | kind :: pubkey :: first :: rest =>
      (tryParseInt (String.ofList kind)).map fun kind =>
        ⟨kind, String.ofList pubkey,
          String.ofList (first ++ rest.flatMap fun part => ':' :: part)⟩
  | _ => none

def dTagValue (event : Event) : String :=
  (event.tags.findSome? fun tag =>
    match tag with
    | .list ("d" :: values) => some (values.headD "")
    | _ => none).getD ""

section

variable (setup : Setup) (source : EventSource)

def getVideosByIds (eventIds : List String) : Option (List VideoEvent) :=
  let cached := (source.getEventsByIds eventIds).foldl (fun found event =>
    put found event.id event) ([] : List (String × Event))
  let missingIds := eventIds.filter fun id => (find cached id).isNone
  let relayEvents :=
    if missingIds.isEmpty then []
    else source.query [{ ids := some missingIds, kinds := some [34236] }]
  let eventMap := relayEvents.foldl (fun found event => put found event.id event) cached
  ((eventIds.filterMap (find eventMap)).mapM (tryParseAndFilter setup)).map List.reduceOption

/-- The filters of one request, of at most twenty each. -/
def batches : Nat → List Filter → List (List Filter)
  | 0, _ => []
  | fuel + 1, filters =>
      if filters.isEmpty then [] else filters.take 20 :: batches fuel (filters.drop 20)

def addressableEvents (addressableIds : List String) : List Event :=
  let filters := addressableIds.filterMap fun addressableId =>
    ((AId.fromString addressableId).filter fun parsed => isVideoKind parsed.kind.toNat).map
      fun parsed =>
        { kinds := some [parsed.kind.toNat]
          authors := some [parsed.pubkey]
          d := some [parsed.dTag] }
  (batches filters.length filters).flatMap source.query

def getVideosByAddressableIds (addressableIds : List String) : Option (List VideoEvent) :=
  let events := (addressableEvents source addressableIds).filter fun event =>
    dTagValue event ≠ ""
  (events.mapM fun event => (tryParseAndFilter setup event).map fun video =>
      video.map fun video =>
        (toString event.kind ++ ":" ++ event.pubkey ++ ":" ++ dTagValue event, video)).map
    fun found =>
      let foundVideos := found.reduceOption.foldl (fun videos entry => put videos entry.1 entry.2)
        ([] : List (String × VideoEvent))
      addressableIds.filterMap (find foundVideos)

def eventRefs (videoRefs : List (String × List String)) : List String :=
  ((videoRefs.flatMap Prod.snd).filter fun ref => !Models.contains ref ":").eraseDups

def addressableRefs (videoRefs : List (String × List String)) : List String :=
  ((videoRefs.flatMap Prod.snd).filter fun ref => Models.contains ref ":").eraseDups

def refOfTag (addressableIds : List String) (dTag : String) : Option String :=
  (addressableIds.filter fun ref => (AId.fromString ref).any fun parsed => parsed.dTag =
    dTag).getLast?

/-- The videos of the references, when none of them throws. -/
def refToVideo (videoRefs : List (String × List String)) : Option (List (String × VideoEvent)) :=
  (getVideosByIds setup source (eventRefs videoRefs)).bind fun byId =>
    (getVideosByAddressableIds setup source (addressableRefs videoRefs)).map fun byAddress =>
      byAddress.foldl (fun videos video =>
          match refOfTag (addressableRefs videoRefs) (video.vineId.getD "") with
          | none => videos
          | some ref => put videos ref video)
        (byId.foldl (fun videos video => put videos video.id video) [])

end

/-! ### What the references bring -/

section

variable {setup : Setup} {source : EventSource} {videoRefs : List (String × List String)}
  {videos : List VideoEvent} {video : VideoEvent}

/-- No reference of the lists brings a video, by the id of an event or by an address. -/
structure Unreferred (setup : Setup) (source : EventSource)
    (videoRefs : List (String × List String)) : Prop where
  ids : getVideosByIds setup source (eventRefs videoRefs) = some []
  addresses : ∃ videos,
    getVideosByAddressableIds setup source (addressableRefs videoRefs) = some videos ∧
      ∀ video ∈ videos, refOfTag (addressableRefs videoRefs) (video.vineId.getD "") = none

theorem id_of_foldl_put {events : List Event} {found : List (String × Event)}
    (own : ∀ entry ∈ found, entry.1 = entry.2.id) :
    ∀ entry ∈ events.foldl (fun found event => put found event.id event) found,
      entry.1 = entry.2.id :=
  forall_mem_foldl own fun event _ found own entry member => by
    rcases mem_put member with before | rfl
    · exact own entry before
    · rfl

theorem id_of_getVideosByIds {eventIds : List String}
    (found : getVideosByIds setup source eventIds = some videos) (member : video ∈ videos) :
    video.id ∈ eventIds := by
  obtain ⟨read, parsed, rfl⟩ := map_eq_some_iff.mp found
  rw [(mapM_eq_some_iff.mp parsed).2, reduceOption_filterMap] at member
  obtain ⟨event, listed, shows⟩ := mem_filterMap.mp member
  obtain ⟨id, isWanted, stored⟩ := mem_filterMap.mp listed
  have own : id = event.id :=
    id_of_foldl_put (id_of_foldl_put fun entry absent => absurd absent not_mem_nil) _
      (mem_of_find stored)
  rw [id_of_shown shows, ← own]
  exact isWanted

theorem videoUrl_of_getVideosByIds {eventIds : List String}
    (found : getVideosByIds setup source eventIds = some videos) (member : video ∈ videos) :
    video.videoUrl.isSome = true := by
  obtain ⟨read, parsed, rfl⟩ := map_eq_some_iff.mp found
  rw [(mapM_eq_some_iff.mp parsed).2, reduceOption_filterMap] at member
  obtain ⟨event, -, shows⟩ := mem_filterMap.mp member
  exact videoUrl_of_shown shows

theorem videoUrl_of_getVideosByAddressableIds {addressableIds : List String}
    (found : getVideosByAddressableIds setup source addressableIds = some videos)
    (member : video ∈ videos) : video.videoUrl.isSome = true := by
  obtain ⟨read, parsed, rfl⟩ := map_eq_some_iff.mp found
  have each : ∀ entry ∈ read.reduceOption, entry.2.videoUrl.isSome = true := by
    rw [(mapM_eq_some_iff.mp parsed).2, reduceOption_filterMap]
    intro entry listed
    obtain ⟨event, -, shows⟩ := mem_filterMap.mp listed
    obtain ⟨held, tried, kept⟩ := map_eq_some_iff.mp (join_eq_some_iff.mp shows)
    obtain ⟨video, rfl, rfl⟩ := map_eq_some_iff.mp kept
    exact videoUrl_of_shown (shown_eq_some_iff.mpr tried)
  obtain ⟨address, -, stored⟩ := mem_filterMap.mp member
  have kept : ∀ entry ∈ read.reduceOption.foldl (fun videos entry => put videos entry.1 entry.2)
      ([] : List (String × VideoEvent)), entry.2.videoUrl.isSome = true :=
    forall_mem_foldl (fun _ absent => absurd absent not_mem_nil)
      fun entry listed videos kept other stored => by
        rcases mem_put stored with before | rfl
        · exact kept other before
        · exact each entry listed
  exact kept _ (mem_of_find stored)

theorem videoUrl_of_refToVideo {found : List (String × VideoEvent)}
    (looked : refToVideo setup source videoRefs = some found) :
    ∀ entry ∈ found, entry.2.videoUrl.isSome = true := by
  obtain ⟨byId, foundById, rest⟩ := bind_eq_some_iff.mp looked
  obtain ⟨byAddress, foundByAddress, rfl⟩ := map_eq_some_iff.mp rest
  refine forall_mem_foldl (forall_mem_foldl
    (fun _ absent => absurd absent not_mem_nil) ?_) ?_
  · intro video member videos kept entry stored
    rcases mem_put stored with before | rfl
    · exact kept entry before
    · exact videoUrl_of_getVideosByIds foundById member
  · intro video member videos kept entry stored
    split at stored
    · exact kept entry stored
    · rcases mem_put stored with before | rfl
      · exact kept entry before
      · exact videoUrl_of_getVideosByAddressableIds foundByAddress member

theorem mem_eventRefs {ref : String} : ref ∈ eventRefs videoRefs ↔
    (∃ entry ∈ videoRefs, ref ∈ entry.2) ∧ Models.contains ref ":" = false := by
  unfold eventRefs
  rw [mem_eraseDups, mem_filter, mem_flatMap, Bool.not_eq_true']

theorem mem_addressableRefs {ref : String} : ref ∈ addressableRefs videoRefs ↔
    (∃ entry ∈ videoRefs, ref ∈ entry.2) ∧ Models.contains ref ":" = true := by
  unfold addressableRefs
  rw [mem_eraseDups, mem_filter, mem_flatMap]

theorem mem_of_refOfTag {refs : List String} {dTag ref : String}
    (found : refOfTag refs dTag = some ref) : ref ∈ refs :=
  mem_of_mem_filter (mem_of_getLast? found)

theorem find_refToVideo_isSome (videoRefs : List (String × List String))
    (byId byAddress : List VideoEvent) {ref : String} :
    (find (byAddress.foldl (fun videos video =>
        match refOfTag (addressableRefs videoRefs) (video.vineId.getD "") with
        | none => videos
        | some ref => put videos ref video)
      (byId.foldl (fun videos video => put videos video.id video) [])) ref).isSome = true ↔
      (∃ video ∈ byId, video.id = ref) ∨ ∃ video ∈ byAddress,
        refOfTag (addressableRefs videoRefs) (video.vineId.getD "") = some ref := by
  rw [find_foldl_isSome (fun video => refOfTag (addressableRefs videoRefs)
      (video.vineId.getD "")) ?_, find_foldl_isSome (fun video => some video.id) ?_]
  · simp [find]
  · intro entries video key
    rw [find_put_isSome, Option.some.injEq]
  · intro entries video key
    split
    · rename_i absent
      rw [absent]
      simp
    · rename_i found
      rw [find_put_isSome, found, Option.some.injEq]

end

/-! ### The home feed -/

section

variable (setup : Setup) (toLowerCase : String → String)

def referred (videos : List (String × VideoEvent)) (videoRefs : List (String × List String)) :
    List (String × VideoEvent) :=
  videoRefs.flatMap fun entry =>
    entry.2.filterMap fun ref => (find videos ref).map fun video => (entry.1, video)

def dedupByLowerId : List String → List VideoEvent → List VideoEvent
  | _, [] => []
  | seenIds, video :: rest =>
      if toLowerCase video.id ∈ seenIds then dedupByLowerId seenIds rest
      else video :: dedupByLowerId (toLowerCase video.id :: seenIds) rest

def mergeListVideos (followingVideos : List VideoEvent) (videos : List (String × VideoEvent))
    (videoRefs : List (String × List String)) : HomeFeedResult :=
  let followingIds := followingVideos.map fun video => toLowerCase video.id
  let referred := referred videos videoRefs
  let listOnly := (referred.map Prod.snd).filter fun video => toLowerCase video.id ∉ followingIds
  { videos := setup.order.sort (followingVideos ++ dedupByLowerId toLowerCase [] listOnly)
    videoListSources := referred.foldl (fun sources entry =>
      put sources entry.2.id ((find sources entry.2.id).getD [] ∪ [entry.1])) []
    listOnlyVideoIds := (listOnly.map VideoEvent.id).eraseDups }

end

section

variable {setup : Setup} {source : EventSource} {videoRefs : List (String × List String)}
  {videos : List (String × VideoEvent)} {followingVideos : List VideoEvent} {video : VideoEvent}
  {toLowerCase : String → String}

theorem referred_eq_nil_iff : referred videos videoRefs = [] ↔
    ∀ entry ∈ videoRefs, ∀ ref ∈ entry.2, find videos ref = none := by
  unfold referred
  rw [flatMap_eq_nil_iff]
  refine forall₂_congr fun entry _ => ?_
  rw [filterMap_eq_nil_iff]
  exact forall₂_congr fun ref _ => map_eq_none_iff

theorem unreferred_iff : Unreferred setup source videoRefs ↔
    ∃ videos, refToVideo setup source videoRefs = some videos ∧ referred videos videoRefs = [] := by
  unfold refToVideo
  constructor
  · rintro ⟨ids, byAddress, found, untagged⟩
    refine ⟨_, by rw [ids, bind_some, found, map_some], ?_⟩
    rw [referred_eq_nil_iff]
    intro entry _ ref _
    rw [← not_isSome_iff_eq_none, find_refToVideo_isSome]
    rintro (⟨video, member, -⟩ | ⟨video, member, tagged⟩)
    · cases member
    · rw [untagged video member] at tagged
      cases tagged
  · rintro ⟨videos, looked, absent⟩
    obtain ⟨byId, foundById, rest⟩ := bind_eq_some_iff.mp looked
    obtain ⟨byAddress, foundByAddress, rfl⟩ := map_eq_some_iff.mp rest
    rw [referred_eq_nil_iff] at absent
    constructor
    · rw [foundById, Option.some.injEq, eq_nil_iff_forall_not_mem]
      intro video member
      obtain ⟨⟨entry, listed, inside⟩, -⟩ :=
        mem_eventRefs.mp (id_of_getVideosByIds foundById member)
      have present := (find_refToVideo_isSome videoRefs byId byAddress).mpr
        (.inl ⟨video, member, rfl⟩)
      rw [absent entry listed video.id inside] at present
      cases present
    · refine ⟨byAddress, foundByAddress, fun video member => ?_⟩
      by_contra tagged
      obtain ⟨ref, found⟩ := ne_none_iff_exists'.mp tagged
      obtain ⟨⟨entry, listed, inside⟩, -⟩ := mem_addressableRefs.mp (mem_of_refOfTag found)
      have present := (find_refToVideo_isSome videoRefs byId byAddress).mpr
        (.inr ⟨video, member, found⟩)
      rw [absent entry listed ref inside] at present
      cases present

theorem mem_mergeListVideos (absent : referred videos videoRefs = []) :
    video ∈ (mergeListVideos setup toLowerCase followingVideos videos videoRefs).videos ↔
      video ∈ followingVideos := by
  unfold mergeListVideos
  simp only [absent, map_nil, filter_nil, dedupByLowerId, append_nil,
    setup.order.mem_sort]

theorem mem_dedupByLowerId {seenIds : List String} {listed : List VideoEvent}
    (member : video ∈ dedupByLowerId toLowerCase seenIds listed) : video ∈ listed := by
  induction listed generalizing seenIds with
  | nil => exact member
  | cons first rest ih =>
    rw [dedupByLowerId] at member
    split at member
    · exact mem_cons_of_mem _ (ih member)
    · rcases mem_cons.mp member with rfl | later
      · exact mem_cons_self
      · exact mem_cons_of_mem _ (ih later)

theorem mem_or_referred
    (member : video ∈ (mergeListVideos setup toLowerCase followingVideos videos videoRefs).videos) :
    video ∈ followingVideos ∨ ∃ ref, find videos ref = some video := by
  unfold mergeListVideos at member
  rw [setup.order.mem_sort, mem_append] at member
  rcases member with followed | listed
  · exact .inl followed
  · obtain ⟨entry, inside, rfl⟩ :=
      mem_map.mp (mem_of_mem_filter (mem_dedupByLowerId listed))
    obtain ⟨list, -, refers⟩ := mem_flatMap.mp inside
    obtain ⟨ref, -, looked⟩ := mem_filterMap.mp refers
    obtain ⟨video, found, rfl⟩ := map_eq_some_iff.mp looked
    exact .inr ⟨ref, found⟩

theorem mergeListVideos_ne_nil (present : referred videos videoRefs ≠ []) :
    (mergeListVideos setup toLowerCase followingVideos videos videoRefs).videos ≠ [] := by
  obtain ⟨entry, member⟩ := exists_mem_of_ne_nil _ present
  have inside : entry.2 ∈ (referred videos videoRefs).map Prod.snd :=
    mem_map_of_mem member
  refine fun empty => ?_
  have unsorted := (setup.order.perm _).symm.trans (.of_eq empty)
  obtain ⟨nobody, nothing⟩ := append_eq_nil_iff.mp (perm_nil.mp unsorted)
  subst nobody
  cases listOnly : ((referred videos videoRefs).map Prod.snd).filter fun video =>
      toLowerCase video.id ∉ ([] : List VideoEvent).map fun video => toLowerCase video.id with
  | nil =>
    refine absurd (mem_filter.mpr ⟨inside, ?_⟩) (listOnly ▸ not_mem_nil)
    simp
  | cons video rest =>
    rw [listOnly, dedupByLowerId, if_neg not_mem_nil] at nothing
    cases nothing

end

/-! ### Pages -/

def defaultLimit : Nat := 5

/-- Whom the user follows, and the references of the lists that the user subscribes to. -/
structure Following where
  authors : List String
  videoRefs : List (String × List String)

section

variable (setup : Setup) (source : EventSource) (following : Following)

def fetchFollowingVideos (cursor : Option Int) : Option (List VideoEvent) :=
  transformAndFilter setup true (source.query
    [{ kinds := some [34236]
       authors := some following.authors
       limit := some defaultLimit
       untilTime := cursor }])

def getHomeFeedVideos (cursor : Option Int) : Option HomeFeedResult :=
  if following.authors.isEmpty then some { videos := [] }
  else (fetchFollowingVideos setup source following cursor).bind fun followingVideos =>
    if following.videoRefs.isEmpty then some { videos := followingVideos }
    else (refToVideo setup source following.videoRefs).map fun videos =>
      mergeListVideos setup setup.platform.toLowerCase followingVideos videos following.videoRefs

def getNewVideos (cursor : Option Int) : Option (List VideoEvent) :=
  transformAndFilter setup true (source.query
    [{ kinds := some [34236], limit := some defaultLimit, untilTime := cursor }])

abbrev DatedMode := { mode : FeedMode // mode ≠ .popular }

def fetchVideosForMode (cursor : Option Int) : DatedMode → Option HomeFeedResult
  | ⟨.forYou, _⟩ | ⟨.home, _⟩ => getHomeFeedVideos setup source following cursor
  | ⟨.latest, _⟩ =>
      (getNewVideos setup source cursor).map fun videos => { videos := videos }
  | ⟨.popular, dated⟩ => absurd rfl dated

end

end Divine.VideosRepository
