/-
This file proves when scrolling through a feed that is sorted by date ends with every
video listed.
-/

import Divine.Library.Scrolling
import Divine.VideosRepository.HomeFeed

namespace Divine.VideoFeedBloc

open Fallible Models Scrolling Sorting VideosRepository
open NostrSdk (Filter)

/-! ### Relays -/

/-- The events that there are, each with its own id. -/
structure Content where
  events : List Event
  ids_nodup : (events.map Event.id).Nodup

/-- Relays that answer a filter with the newest events up to its limit, and a local storage. -/
structure Relays (content : Content) extends EventSource where
  each : ∀ {filters event}, event ∈ query filters ↔ ∃ filter ∈ filters, event ∈ query [filter]
  accepted : ∀ {filter event}, event ∈ query [filter] →
    event ∈ content.events ∧ filter.checkEvent event = true
  nodup : ∀ filters, (query filters).Nodup
  bounded : ∀ {filter limit}, filter.limit = some limit → (query [filter]).length ≤ limit
  newest : ∀ {filter}, ∀ event ∈ content.events, filter.checkEvent event = true →
    event ∉ query [filter] →
      (∃ limit, filter.limit = some limit ∧ (query [filter]).length = limit) ∧
        ∀ other ∈ query [filter], event.createdAt ≤ other.createdAt
  stored : ∀ {ids event}, event ∈ getEventsByIds ids → event ∈ content.events ∧ event.id ∈ ids

/-! ### Scrolling -/

/-- A user who scrolls through the feed of a mode. -/
structure Viewer where
  setup : Setup
  content : Content
  relays : Relays content
  following : Following
  mode : DatedMode

namespace Viewer

variable (viewer : Viewer)

def fetch (cursor : Option Int) : Option HomeFeedResult :=
  fetchVideosForMode viewer.setup viewer.relays.toEventSource viewer.following cursor viewer.mode

def reply (cursor : Option Int) : Reply :=
  match viewer.fetch cursor with
  | some result => .fetched result viewer.following.authors.isEmpty viewer.setup.now
  | none => .failed

def acts (bloc : Bloc) (action : Action) : Bloc :=
  ((step ⟨viewer.setup.order, 0⟩ bloc action).map Prod.fst).getD bloc

/-- The feed after the page that is waited for is answered. -/
def settled (bloc : Bloc) : Bloc :=
  match bloc.calls with
  | .loading _ _ :: _ => viewer.acts bloc (.answer 0 (viewer.reply none))
  | .more _ _ cursor :: _ => viewer.acts bloc (.answer 0 (viewer.reply (some cursor)))
  | _ => bloc

def feed : Nat → Bloc
  | 0 => viewer.settled (viewer.acts initialBloc (.started none viewer.mode))
  | count + 1 => viewer.settled (viewer.acts (feed count) .loadMoreRequested)

/-- An event of the feed, by a followed author or in the latest mode, with a video that passes. -/
def Wants (event : Event) : Prop :=
  (viewer.mode.val = .latest ∨ event.pubkey ∈ viewer.following.authors) ∧
    (shown viewer.setup event).isSome = true

instance decidableWants (event : Event) : Decidable (viewer.Wants event) := by
  unfold Wants
  infer_instance

/-- Nothing more is loaded, and every video of the feed is listed, once, the newest first. -/
structure AtEnd (state : VideoFeedState) : Prop where
  ended : state.hasMore = false
  all : ∀ event ∈ viewer.content.events, viewer.Wants event →
    ∃ video ∈ state.videos, shown viewer.setup event = some video
  once : (state.videos.map VideoEvent.id).Nodup
  newestFirst : state.videos.Pairwise fun first second => second.createdAt ≤ first.createdAt

def ScrollsToEnd : Prop := ∃ count, viewer.AtEnd (viewer.feed count).state

/-! ### The condition -/

/-- No list brings a video: its references are not looked up, or nothing is found for them. -/
def NoListVideos : Prop :=
  viewer.mode.val = .latest ∨ viewer.following.authors = [] ∨
    Unreferred viewer.setup viewer.relays.toEventSource viewer.following.videoRefs

def pageFilter (cursor : Option Int) : Filter where
  kinds := some [34236]
  authors := if viewer.mode.val = .latest then none else some viewer.following.authors
  limit := some defaultLimit
  untilTime := cursor

/-- The events of a page that show a video. Nothing is asked for where nobody is followed. -/
def page (cursor : Option Int) : Option (List Event) :=
  if viewer.mode.val ≠ .latest ∧ viewer.following.authors = [] then some []
  else
    let events := viewer.relays.query [viewer.pageFilter cursor]
    (events.mapM (tryParseAndFilter viewer.setup)).map fun _ =>
      events.filter fun event => (shown viewer.setup event).isSome

def listed (state : VideoFeedState) : List Event :=
  viewer.content.events.filter fun event =>
    (shown viewer.setup event).any fun video => state.videos.contains video

/-- What is listed before each page, and whether there may be more. -/
def scroll : Nat → Scroll Event
  | 0 => ⟨[], true⟩
  | count + 1 => ⟨viewer.listed (viewer.feed count).state, (viewer.feed count).state.hasMore⟩

variable {viewer} {cursor : Option Int} {items : List Event} {event : Event}

theorem mem_page (read : viewer.page cursor = some items) (member : event ∈ items) :
    event ∈ viewer.content.events ∧ viewer.Wants event ∧
      ∀ time, cursor = some time → event.createdAt ≤ time := by
  unfold page at read
  split at read
  · cases read
    cases member
  · obtain ⟨_, -, rfl⟩ := Option.map_eq_some_iff.mp read
    obtain ⟨answered, shows⟩ := List.mem_filter.mp member
    obtain ⟨present, accepts⟩ := viewer.relays.accepted answered
    simp only [Filter.checkEvent, pageFilter, Bool.and_eq_true] at accepts
    obtain ⟨⟨⟨⟨⟨-, authors⟩, -⟩, -⟩, before⟩, -⟩ := accepts
    refine ⟨present, ⟨?_, shows⟩, ?_⟩
    · split at authors
      · rename_i latest
        exact .inl latest
      · exact .inr (by simpa using authors)
    · rintro time rfl
      simpa using before

def pages (viewer : Viewer) : Feed Event where
  wanted := viewer.content.events.filter viewer.Wants
  date event := ((shown viewer.setup event).map VideoEvent.createdAt).getD event.createdAt
  sentAt := Event.createdAt
  page := viewer.page
  page_wanted read member :=
    List.mem_filter.mpr ⟨(mem_page read member).1, decide_eq_true (mem_page read member).2.1⟩
  page_before read member := (mem_page read member).2.2 _ rfl

/-! ### What is fetched -/

section

theorem asked_cases (cursor : Option Int)
    (asks : ¬(viewer.mode.val ≠ .latest ∧ viewer.following.authors = [])) :
    (transformAndFilter viewer.setup true (viewer.relays.query [viewer.pageFilter cursor]) = none ∧
        viewer.page cursor = none) ∨
      ∃ videos items,
        transformAndFilter viewer.setup true (viewer.relays.query [viewer.pageFilter cursor]) =
            some videos ∧
          viewer.page cursor = some items ∧
          ∀ video, video ∈ videos ↔ ∃ event ∈ items, shown viewer.setup event = some video := by
  have read : viewer.page cursor =
      (transformAndFilter viewer.setup true (viewer.relays.query [viewer.pageFilter cursor])).map
        fun _ => (viewer.relays.query [viewer.pageFilter cursor]).filter fun event =>
          (shown viewer.setup event).isSome := by
    unfold page transformAndFilter
    rw [if_neg asks, Option.map_map]
    rfl
  cases returned : transformAndFilter viewer.setup true
      (viewer.relays.query [viewer.pageFilter cursor]) with
  | none =>
    rw [returned] at read
    exact .inl ⟨rfl, read⟩
  | some videos =>
    rw [returned] at read
    refine .inr ⟨videos, _, rfl, read, fun video => (mem_transformAndFilter returned).trans ?_⟩
    constructor
    · rintro ⟨event, member, shows⟩
      exact ⟨event, List.mem_filter.mpr ⟨member, by rw [shows]; rfl⟩, shows⟩
    · rintro ⟨event, member, shows⟩
      exact ⟨event, List.mem_of_mem_filter member, shows⟩

theorem fetch_latest (latest : viewer.mode.val = .latest) (cursor : Option Int) :
    viewer.fetch cursor = (transformAndFilter viewer.setup true
      (viewer.relays.query [viewer.pageFilter cursor])).map fun videos => { videos := videos } := by
  obtain ⟨setup, content, relays, following, mode, dated⟩ := viewer
  obtain rfl : mode = .latest := latest
  rfl

theorem fetch_home (notLatest : viewer.mode.val ≠ .latest) (cursor : Option Int) :
    viewer.fetch cursor = if viewer.following.authors.isEmpty then some { videos := [] }
      else (transformAndFilter viewer.setup true
          (viewer.relays.query [viewer.pageFilter cursor])).bind fun followingVideos =>
        if viewer.following.videoRefs.isEmpty then some { videos := followingVideos }
        else (refToVideo viewer.setup viewer.relays.toEventSource viewer.following.videoRefs).map
          fun videos => mergeListVideos viewer.setup viewer.setup.platform.toLowerCase
            followingVideos videos viewer.following.videoRefs := by
  obtain ⟨setup, content, relays, following, mode, dated⟩ := viewer
  cases mode with
  | forYou => rfl
  | home => rfl
  | latest => exact absurd rfl notLatest
  | popular => exact absurd rfl dated

theorem fetched (noLists : viewer.NoListVideos) (cursor : Option Int) :
    (viewer.fetch cursor = none ∧ viewer.page cursor = none) ∨
      ∃ result items, viewer.fetch cursor = some result ∧ viewer.page cursor = some items ∧
        ∀ video, video ∈ result.videos ↔
          ∃ event ∈ items, shown viewer.setup event = some video := by
  by_cases latest : viewer.mode.val = .latest
  · rw [fetch_latest latest]
    rcases asked_cases cursor fun ⟨notLatest, _⟩ => notLatest latest with
      ⟨failed, unread⟩ | ⟨videos, items, returned, read, members⟩
    · exact .inl ⟨by rw [failed]; rfl, unread⟩
    · exact .inr ⟨{ videos := videos }, items, by rw [returned]; rfl, read, members⟩
  · rw [fetch_home latest]
    by_cases nobody : viewer.following.authors = []
    · refine .inr ⟨{ videos := [] }, [], by rw [nobody]; rfl, if_pos ⟨latest, nobody⟩, ?_⟩
      simp
    · rw [if_neg (mt List.isEmpty_iff.mp nobody)]
      rcases asked_cases cursor fun ⟨_, same⟩ => nobody same with
        ⟨failed, unread⟩ | ⟨videos, items, returned, read, members⟩
      · exact .inl ⟨by rw [failed]; rfl, unread⟩
      · rw [returned, Option.bind_some]
        obtain ⟨found, looked, absent⟩ :=
          unreferred_iff.mp ((noLists.resolve_left latest).resolve_left nobody)
        split
        · exact .inr ⟨{ videos := videos }, items, rfl, read, members⟩
        · rw [looked, Option.map_some]
          exact .inr ⟨_, items, rfl, read, fun video =>
            (mem_mergeListVideos absent).trans (members video)⟩

theorem validVideos_fetch_ne_nil (lists : ¬viewer.NoListVideos) {result : HomeFeedResult}
    (returned : viewer.fetch cursor = some result) : validVideos result ≠ [] := by
  unfold NoListVideos at lists
  push Not at lists
  obtain ⟨notLatest, somebody, brought⟩ := lists
  rw [fetch_home notLatest, if_neg (mt List.isEmpty_iff.mp somebody)] at returned
  obtain ⟨followingVideos, asked, merged⟩ := Option.bind_eq_some_iff.mp returned
  split at merged
  · rename_i noRefs
    rw [List.isEmpty_iff] at noRefs
    rw [noRefs] at brought
    exact absurd ⟨rfl, [], rfl, fun _ absent => absurd absent List.not_mem_nil⟩ brought
  · obtain ⟨found, looked, rfl⟩ := Option.map_eq_some_iff.mp merged
    have present : referred found viewer.following.videoRefs ≠ [] := fun absent =>
      brought (unreferred_iff.mpr ⟨found, looked, absent⟩)
    obtain ⟨video, member⟩ := List.exists_mem_of_ne_nil _ (mergeListVideos_ne_nil present)
    refine List.ne_nil_of_mem (List.mem_filter.mpr ⟨member, ?_⟩)
    rcases mem_or_referred member with followed | ⟨ref, stored⟩
    · obtain ⟨event, -, shows⟩ := (mem_transformAndFilter asked).mp followed
      exact videoUrl_of_shown shows
    · exact videoUrl_of_refToVideo looked _ (Dictionary.mem_of_find stored)

end

/-! ### One page after another -/

section

def cursorOf : List VideoEvent → Option Int
  | [] => none
  | video :: rest => some (oldestCreatedAt video rest - 1)

theorem foldl_oldest (rest : List VideoEvent) (start : Int) :
    let oldest := rest.foldl (fun oldest video =>
      if oldest < video.createdAt then oldest else video.createdAt) start
    (oldest = start ∨ ∃ video ∈ rest, video.createdAt = oldest) ∧ oldest ≤ start ∧
      ∀ video ∈ rest, oldest ≤ video.createdAt := by
  induction rest generalizing start with
  | nil => simp
  | cons video rest ih =>
    obtain ⟨reached, bound, below⟩ :=
      ih (if start < video.createdAt then start else video.createdAt)
    have least : (if start < video.createdAt then start else video.createdAt) ≤ start ∧
        (if start < video.createdAt then start else video.createdAt) ≤ video.createdAt := by
      split <;> omega
    refine ⟨?_, bound.trans least.1, fun other member => ?_⟩
    · rcases reached with same | ⟨other, member, dated⟩
      · by_cases before : start < video.createdAt
        · rw [if_pos before] at same
          exact .inl (by rw [List.foldl_cons, if_pos before]; exact same)
        · rw [if_neg before] at same
          exact .inr ⟨video, List.mem_cons_self,
            by rw [List.foldl_cons, if_neg before]; exact same.symm⟩
      · exact .inr ⟨other, List.mem_cons_of_mem _ member, dated⟩
    · rcases List.mem_cons.mp member with rfl | later
      · exact bound.trans least.2
      · exact below other later

theorem oldestCreatedAt_spec (video : VideoEvent) (rest : List VideoEvent) :
    (∃ other ∈ video :: rest, other.createdAt = oldestCreatedAt video rest) ∧
      ∀ other ∈ video :: rest, oldestCreatedAt video rest ≤ other.createdAt := by
  obtain ⟨reached, bound, below⟩ := foldl_oldest rest video.createdAt
  constructor
  · rcases reached with same | ⟨other, member, dated⟩
    · exact ⟨video, List.mem_cons_self, same.symm⟩
    · exact ⟨other, List.mem_cons_of_mem _ member, dated⟩
  · intro other member
    rcases List.mem_cons.mp member with rfl | later
    · exact bound
    · exact below other later

end

section

def opened (viewer : Viewer) : VideoFeedState :=
  { initialBloc.state with status := .loading, mode := viewer.mode }

theorem feed_zero_some {result : HomeFeedResult} (returned : viewer.fetch none = some result) :
    (viewer.feed 0).calls = [] ∧ (viewer.feed 0).state =
      viewer.opened.loaded viewer.mode result viewer.following.authors.isEmpty := by
  have first : viewer.feed 0 = viewer.acts (initialBloc.load viewer.opened viewer.mode []).1
      (.answer 0 (viewer.reply none)) := rfl
  rw [first]
  unfold reply
  rw [returned]
  exact ⟨rfl, rfl⟩

theorem feed_zero_none (failed : viewer.fetch none = none) :
    (viewer.feed 0).calls = [] ∧ (viewer.feed 0).state = viewer.opened.loadFailed := by
  have first : viewer.feed 0 = viewer.acts (initialBloc.load viewer.opened viewer.mode []).1
      (.answer 0 (viewer.reply none)) := rfl
  rw [first]
  unfold reply
  rw [failed]
  exact ⟨rfl, rfl⟩

/-- What holds of the feed between two pages. -/
structure Rests (viewer : Viewer) (bloc : Bloc) : Prop where
  calls : bloc.calls = []
  idle : bloc.state.isLoadingMore = false
  mode : bloc.state.mode = viewer.mode.val
  loaded : (bloc.state.status = .success ∧
      (bloc.state.hasMore = true → bloc.state.videos ≠ [])) ∨
    (bloc.state.status = .failure ∧ bloc.state.videos = [] ∧ viewer.fetch none = none)

theorem Rests.cases {bloc : Bloc} (rests : viewer.Rests bloc) :
    let next := viewer.settled (viewer.acts bloc .loadMoreRequested)
    next.calls = [] ∧
      ((next.state = bloc.state ∧ (bloc.state.hasMore = true →
          viewer.fetch (cursorOf bloc.state.videos) = none)) ∨
        ∃ result, bloc.state.hasMore = true ∧ bloc.state.videos ≠ [] ∧
          bloc.state.status = .success ∧
          viewer.fetch (cursorOf bloc.state.videos) = some result ∧
          next.state = ({ bloc.state with isLoadingMore := true } : VideoFeedState).extended
            viewer.setup.order result) := by
  have still : viewer.settled bloc = bloc := by
    unfold settled
    rw [rests.calls]
  cases held : bloc.state.videos with
  | nil =>
    have stays : viewer.acts bloc .loadMoreRequested = bloc := by
      unfold acts step Bloc.loadMore
      rw [held]
      rfl
    rw [stays, still]
    refine ⟨rests.calls, .inl ⟨rfl, fun more => ?_⟩⟩
    rcases rests.loaded with ⟨-, present⟩ | ⟨-, -, failed⟩
    · exact absurd held (present more)
    · exact failed
  | cons video rest =>
    have success : bloc.state.status = .success := by
      rcases rests.loaded with ⟨success, -⟩ | ⟨-, empty, -⟩
      · exact success
      · rw [held] at empty
        cases empty
    cases more : bloc.state.hasMore with
    | false =>
      have stays : viewer.acts bloc .loadMoreRequested = bloc := by
        unfold acts step Bloc.loadMore
        rw [held]
        simp [more]
      rw [stays, still]
      exact ⟨rests.calls, .inl ⟨rfl, fun absent => by cases absent⟩⟩
    | true =>
      have asks : viewer.acts bloc .loadMoreRequested =
          { bloc with
            state := { bloc.state with isLoadingMore := true }
            calls := [.more bloc.fetches bloc.state.mode (oldestCreatedAt video rest - 1)]
            fetches := bloc.fetches + 1 } := by
        unfold acts step Bloc.loadMore
        rw [held]
        simp [more, success, rests.idle, rests.calls]
      rw [asks]
      unfold settled
      dsimp only
      unfold reply
      cases returned : viewer.fetch (some (oldestCreatedAt video rest - 1)) with
      | none =>
        refine ⟨rfl, .inl ⟨?_, fun _ => returned⟩⟩
        show ({ bloc.state with isLoadingMore := false } : VideoFeedState) = bloc.state
        rw [← rests.idle]
      | some result =>
        exact ⟨rfl, .inr ⟨result, rfl, List.cons_ne_nil _ _, success, returned, rfl⟩⟩

end

/-! ### What is listed -/

section

variable {seenIds : List String} {videos : List VideoEvent} {video : VideoEvent}

theorem exists_dedupById (member : video ∈ videos) (unseen : video.id ∉ seenIds) :
    ∃ other ∈ dedupById seenIds videos, other.id = video.id := by
  induction videos generalizing seenIds with
  | nil => cases member
  | cons first rest ih =>
    rw [dedupById]
    split
    · rename_i seen
      rcases List.mem_cons.mp member with rfl | later
      · exact absurd seen unseen
      · exact ih later unseen
    · by_cases same : first.id = video.id
      · exact ⟨first, List.mem_cons_self, same⟩
      · have later : video ∈ rest :=
          (List.mem_cons.mp member).resolve_left fun same' => same (same' ▸ rfl)
        obtain ⟨other, inside, own⟩ := ih later
          (List.not_mem_cons_of_ne_of_not_mem (Ne.symm same) unseen)
        exact ⟨other, List.mem_cons_of_mem _ inside, own⟩

theorem nodup_dedupById : ((dedupById seenIds videos).map VideoEvent.id).Nodup := by
  induction videos generalizing seenIds with
  | nil => exact List.nodup_nil
  | cons first rest ih =>
    rw [dedupById]
    split
    · exact ih
    · rw [List.map_cons, List.nodup_cons]
      refine ⟨fun repeated => ?_, ih⟩
      obtain ⟨other, inside, same⟩ := List.mem_map.mp repeated
      exact (mem_of_dedupById inside).2 (same ▸ List.mem_cons_self)

end

section

def Shows (viewer : Viewer) (videos : List VideoEvent) : Prop :=
  ∀ video ∈ videos, ∃ event ∈ viewer.content.events, shown viewer.setup event = some video

variable {videos : List VideoEvent} {video other : VideoEvent} {state : VideoFeedState}

theorem event_unique {another : Event} (present : event ∈ viewer.content.events)
    (alsoPresent : another ∈ viewer.content.events) (same : event.id = another.id) :
    event = another :=
  List.inj_on_of_nodup_map viewer.content.ids_nodup present alsoPresent same

theorem Shows.unique (shows : viewer.Shows videos) (member : video ∈ videos)
    (alsoMember : other ∈ videos) (same : video.id = other.id) : video = other := by
  obtain ⟨event, present, isShown⟩ := shows video member
  obtain ⟨another, alsoPresent, alsoShown⟩ := shows other alsoMember
  have one := event_unique present alsoPresent
    ((id_of_shown isShown).symm.trans (same.trans (id_of_shown alsoShown)))
  rw [one, alsoShown] at isShown
  exact (Option.some.inj isShown).symm

theorem Shows.validVideos {result : HomeFeedResult} (shows : viewer.Shows result.videos) :
    validVideos result = result.videos := by
  refine List.filter_eq_self.mpr fun video member => ?_
  obtain ⟨event, -, isShown⟩ := shows video member
  exact videoUrl_of_shown isShown

theorem mem_listed : event ∈ viewer.listed state ↔ event ∈ viewer.content.events ∧
    ∃ video ∈ state.videos, shown viewer.setup event = some video := by
  unfold listed
  rw [List.mem_filter, Option.any_eq_true]
  simp only [List.contains_iff_mem]
  exact and_congr_right fun _ =>
    ⟨fun ⟨video, isShown, member⟩ => ⟨video, member, isShown⟩,
      fun ⟨video, member, isShown⟩ => ⟨video, isShown, member⟩⟩

theorem date_of_shown (isShown : shown viewer.setup event = some video) :
    viewer.pages.date event = video.createdAt := by
  show ((shown viewer.setup event).map VideoEvent.createdAt).getD event.createdAt = _
  rw [isShown]
  rfl

theorem Shows.cursor_listed (shows : viewer.Shows state.videos) :
    viewer.pages.cursor (viewer.listed state) = cursorOf state.videos := by
  cases held : state.videos with
  | nil =>
    refine Feed.cursor_eq_none_iff.mpr (List.eq_nil_iff_forall_not_mem.mpr fun event member => ?_)
    obtain ⟨-, video, inside, -⟩ := mem_listed.mp member
    rw [held] at inside
    cases inside
  | cons first rest =>
    obtain ⟨⟨oldest, inside, dated⟩, below⟩ := oldestCreatedAt_spec first rest
    rw [← held] at inside below
    refine Feed.cursor_eq_some_iff.mpr ⟨?_, fun event member => ?_⟩
    · obtain ⟨event, present, isShown⟩ := shows oldest inside
      refine ⟨event, mem_listed.mpr ⟨present, oldest, inside, isShown⟩, ?_⟩
      rw [date_of_shown isShown, dated]
      omega
    · obtain ⟨-, video, isListed, isShown⟩ := mem_listed.mp member
      have bound := below video isListed
      rw [date_of_shown isShown]
      omega

theorem Shows.mem_extended {result : HomeFeedResult} (shows : viewer.Shows state.videos)
    (brings : viewer.Shows result.videos) :
    video ∈ (state.extended viewer.setup.order result).videos ↔
      video ∈ state.videos ∨ video ∈ result.videos := by
  have either : viewer.Shows (state.videos ++ result.videos) := fun video member =>
    (List.mem_append.mp member).elim (shows video) (brings video)
  have kept : video ∈ (state.extended viewer.setup.order result).videos ↔
      video ∈ dedupById [] (state.videos ++ result.videos) := by
    unfold VideoFeedState.extended
    rw [brings.validVideos]
    split
    · rfl
    · exact viewer.setup.order.mem_sort
  rw [kept, ← List.mem_append]
  constructor
  · intro member
    exact (mem_of_dedupById member).1
  · intro member
    obtain ⟨other, inside, same⟩ := exists_dedupById member List.not_mem_nil
    exact either.unique (mem_of_dedupById inside).1 member same ▸ inside

end

/-! ### Runs -/

section

theorem extended_ne_nil {order : Descending VideoEvent.createdAt} {state : VideoFeedState}
    {result : HomeFeedResult} (present : state.videos ≠ []) :
    (state.extended order result).videos ≠ [] := by
  obtain ⟨video, member⟩ := List.exists_mem_of_ne_nil _ present
  obtain ⟨other, inside, -⟩ :=
    exists_dedupById (List.mem_append_left (validVideos result) member) List.not_mem_nil
  unfold VideoFeedState.extended
  split
  · exact List.ne_nil_of_mem inside
  · exact List.ne_nil_of_mem (order.mem_sort.mpr inside)

theorem videos_loaded {state : VideoFeedState} {mode : FeedMode} {result : HomeFeedResult}
    {followsNobody : Bool} :
    (state.loaded mode result followsNobody).videos = validVideos result ∧
      (state.loaded mode result followsNobody).hasMore = !(validVideos result).isEmpty := by
  unfold VideoFeedState.loaded
  dsimp only
  split
  · rename_i empty
    simp only [Bool.and_eq_true, List.isEmpty_iff] at empty
    rw [empty.1.2]
    exact ⟨rfl, rfl⟩
  · exact ⟨rfl, rfl⟩

theorem rests_loaded {result : HomeFeedResult} {followsNobody : Bool} :
    let state := viewer.opened.loaded viewer.mode result followsNobody
    state.isLoadingMore = false ∧ state.mode = viewer.mode.val ∧ state.status = .success := by
  unfold VideoFeedState.loaded
  dsimp only
  split <;> exact ⟨rfl, rfl, rfl⟩

theorem rests_feed (count : Nat) : viewer.Rests (viewer.feed count) := by
  induction count with
  | zero =>
    cases returned : viewer.fetch none with
    | none =>
      obtain ⟨calls, held⟩ := feed_zero_none returned
      exact ⟨calls, by rw [held]; rfl, by rw [held]; rfl,
        .inr ⟨by rw [held]; rfl, by rw [held]; rfl, returned⟩⟩
    | some result =>
      obtain ⟨calls, held⟩ := feed_zero_some returned
      obtain ⟨idle, mode, success⟩ := @rests_loaded viewer result
        viewer.following.authors.isEmpty
      obtain ⟨videos, more⟩ := @videos_loaded viewer.opened viewer.mode result
        viewer.following.authors.isEmpty
      rw [← held] at idle mode success videos more
      refine ⟨calls, idle, mode, .inl ⟨success, fun goesOn empty => ?_⟩⟩
      rw [more, ← videos, empty] at goesOn
      cases goesOn
  | succ count rests =>
    obtain ⟨calls, ⟨same, -⟩ | ⟨result, -, present, success, -, extended⟩⟩ := rests.cases
    · refine ⟨calls, ?_, ?_, ?_⟩
      · exact (congrArg VideoFeedState.isLoadingMore same).trans rests.idle
      · exact (congrArg VideoFeedState.mode same).trans rests.mode
      · unfold feed
        rw [same]
        exact rests.loaded
    · refine ⟨calls, congrArg VideoFeedState.isLoadingMore extended,
        (congrArg VideoFeedState.mode extended).trans rests.mode, .inl ⟨?_, fun _ => ?_⟩⟩
      · exact (congrArg VideoFeedState.status extended).trans success
      · rw [feed, extended]
        exact extended_ne_nil present

theorem hasMore_of_lists (lists : ¬viewer.NoListVideos) (count : Nat) :
    (viewer.feed count).state.hasMore = true := by
  induction count with
  | zero =>
    cases returned : viewer.fetch none with
    | none =>
      rw [(feed_zero_none returned).2]
      rfl
    | some result =>
      rw [(feed_zero_some returned).2, videos_loaded.2,
        List.isEmpty_eq_false_iff.mpr (validVideos_fetch_ne_nil lists returned)]
      rfl
  | succ count ih =>
    obtain ⟨-, ⟨same, -⟩ | ⟨result, -, -, -, returned, extended⟩⟩ := (rests_feed count).cases
    · exact (congrArg VideoFeedState.hasMore same).trans ih
    · rw [feed, extended]
      have present : result.videos ≠ [] := fun empty =>
        validVideos_fetch_ne_nil lists returned (by unfold validVideos; rw [empty]; rfl)
      show (!result.videos.isEmpty) = true
      rw [List.isEmpty_eq_false_iff.mpr present]
      rfl

theorem shows_fetch (noLists : viewer.NoListVideos) {result : HomeFeedResult}
    (returned : viewer.fetch cursor = some result) : viewer.Shows result.videos := by
  intro video member
  rcases fetched noLists cursor with ⟨failed, -⟩ | ⟨other, items, found, read, members⟩
  · rw [failed] at returned
    cases returned
  · obtain rfl := Option.some.inj (found.symm.trans returned)
    obtain ⟨event, inside, isShown⟩ := (members video).mp member
    exact ⟨event, (mem_page read inside).1, isShown⟩

theorem shows_feed (noLists : viewer.NoListVideos) (count : Nat) :
    viewer.Shows (viewer.feed count).state.videos := by
  induction count with
  | zero =>
    cases returned : viewer.fetch none with
    | none =>
      rw [(feed_zero_none returned).2]
      exact fun _ absent => absurd absent List.not_mem_nil
    | some result =>
      have shows := shows_fetch noLists returned
      rw [(feed_zero_some returned).2, videos_loaded.1, shows.validVideos]
      exact shows
  | succ count shows =>
    obtain ⟨-, ⟨same, -⟩ | ⟨result, -, -, -, returned, extended⟩⟩ := (rests_feed count).cases
    · rw [feed, same]
      exact shows
    · have brings := shows_fetch noLists returned
      rw [feed, extended]
      intro video member
      exact ((Shows.mem_extended shows brings).mp member).elim (shows video) (brings video)

theorem ordered_feed (count : Nat) (ended : (viewer.feed count).state.hasMore = false) :
    ((viewer.feed count).state.videos.map VideoEvent.id).Nodup ∧
      (viewer.feed count).state.videos.Pairwise fun first second =>
        second.createdAt ≤ first.createdAt := by
  induction count with
  | zero =>
    cases returned : viewer.fetch none with
    | none =>
      rw [(feed_zero_none returned).2] at ended
      cases ended
    | some result =>
      rw [(feed_zero_some returned).2] at ended ⊢
      rw [videos_loaded.2, Bool.not_eq_false', List.isEmpty_iff] at ended
      rw [videos_loaded.1, ended]
      exact ⟨List.nodup_nil, List.Pairwise.nil⟩
  | succ count ih =>
    have rests := @rests_feed viewer count
    obtain ⟨-, ⟨same, -⟩ | ⟨result, -, -, -, -, extended⟩⟩ := rests.cases
    · rw [feed, same] at ended ⊢
      exact ih ended
    · rw [feed, extended]
      have dated : (viewer.feed count).state.mode ≠ .popular :=
        rests.mode ▸ viewer.mode.property
      unfold VideoFeedState.extended
      dsimp only
      rw [if_neg dated]
      exact ⟨((viewer.setup.order.perm _).map VideoEvent.id).nodup_iff.mpr nodup_dedupById,
        viewer.setup.order.sorted _⟩

theorem shown_iff_mem_page {videos : List VideoEvent} (read : viewer.page cursor = some items)
    (members : ∀ video, video ∈ videos ↔ ∃ event ∈ items, shown viewer.setup event = some video) :
    (event ∈ viewer.content.events ∧ ∃ video ∈ videos, shown viewer.setup event = some video) ↔
      event ∈ items := by
  constructor
  · rintro ⟨present, video, member, isShown⟩
    obtain ⟨another, inside, alsoShown⟩ := (members video).mp member
    have same := (id_of_shown isShown).symm.trans (id_of_shown alsoShown)
    exact event_unique present (mem_page read inside).1 same ▸ inside
  · intro inside
    obtain ⟨present, ⟨-, shows⟩, -⟩ := mem_page read inside
    obtain ⟨video, isShown⟩ := Option.isSome_iff_exists.mp shows
    exact ⟨present, video, (members video).mpr ⟨event, inside, isShown⟩, isShown⟩

theorem isEmpty_page {videos : List VideoEvent} (read : viewer.page cursor = some items)
    (members : ∀ video, video ∈ videos ↔ ∃ event ∈ items, shown viewer.setup event = some video) :
    videos.isEmpty = items.isEmpty := by
  rw [Bool.eq_iff_iff, List.isEmpty_iff, List.isEmpty_iff]
  constructor
  · rintro rfl
    refine List.eq_nil_iff_forall_not_mem.mpr fun event inside => ?_
    obtain ⟨-, video, member, -⟩ := (shown_iff_mem_page read members).mpr inside
    cases member
  · rintro rfl
    refine List.eq_nil_iff_forall_not_mem.mpr fun video member => ?_
    obtain ⟨event, inside, -⟩ := (members video).mp member
    cases inside

theorem extends_first (noLists : viewer.NoListVideos) :
    viewer.pages.Extends (viewer.scroll 0) (viewer.scroll 1) := by
  refine ⟨nofun, fun _ unread => ?_, fun _ items read => ?_⟩
  all_goals
    rcases fetched noLists none with ⟨failed, never⟩ | ⟨result, others, returned, found, members⟩
  · show (⟨viewer.listed (viewer.feed 0).state, (viewer.feed 0).state.hasMore⟩ :
      Scroll Event) = ⟨[], true⟩
    rw [(feed_zero_none failed).2]
    congr 1
    refine List.eq_nil_iff_forall_not_mem.mpr fun event member => ?_
    obtain ⟨-, video, inside, -⟩ := mem_listed.mp member
    cases inside
  · cases found.symm.trans unread
  · cases never.symm.trans read
  · obtain rfl := Option.some.inj (found.symm.trans read)
    have shows := shows_fetch noLists returned
    obtain ⟨videos, more⟩ := @videos_loaded viewer.opened viewer.mode result
      viewer.following.authors.isEmpty
    rw [← (feed_zero_some returned).2, shows.validVideos] at videos more
    refine ⟨more.trans (congrArg Bool.not (isEmpty_page found members)), fun event => ?_⟩
    refine mem_listed.trans ?_
    rw [videos, shown_iff_mem_page found members]
    exact ⟨.inr, fun member => member.resolve_left List.not_mem_nil⟩

theorem extends_scroll (noLists : viewer.NoListVideos) (count : Nat) :
    viewer.pages.Extends (viewer.scroll count) (viewer.scroll (count + 1)) := by
  cases count with
  | zero => exact extends_first noLists
  | succ count =>
    have shows := shows_feed noLists count
    have isCursor : viewer.pages.cursor (viewer.scroll (count + 1)).listed =
      cursorOf (viewer.feed count).state.videos := shows.cursor_listed
    have kept (same : (viewer.feed (count + 1)).state = (viewer.feed count).state) :
        viewer.scroll (count + 2) = viewer.scroll (count + 1) := by
      rw [scroll, same, scroll]
    obtain ⟨-, ⟨same, stays⟩ | ⟨result, more, -, -, returned, extended⟩⟩ :=
      (rests_feed count).cases
    · refine ⟨fun _ => kept same, fun _ _ => kept same, fun goesOn items read => ?_⟩
      have failed := stays goesOn
      rcases fetched noLists (cursorOf (viewer.feed count).state.videos) with
        ⟨-, never⟩ | ⟨result, others, returned, -⟩
      · rw [isCursor] at read
        cases never.symm.trans read
      · cases failed.symm.trans returned
    · rcases fetched noLists (cursorOf (viewer.feed count).state.videos) with
        ⟨failed, -⟩ | ⟨other, others, alsoReturned, found, members⟩
      · cases failed.symm.trans returned
      · obtain rfl := Option.some.inj (alsoReturned.symm.trans returned)
        refine ⟨(fun ended => by cases ended.symm.trans more), fun _ unread => ?_,
          fun _ items read => ?_⟩
        · rw [isCursor] at unread
          cases found.symm.trans unread
        · rw [isCursor] at read
          obtain rfl := Option.some.inj (found.symm.trans read)
          have brings := shows_fetch noLists returned
          have listed (video : VideoEvent) : video ∈ (viewer.feed (count + 1)).state.videos ↔
              video ∈ (viewer.feed count).state.videos ∨ video ∈ other.videos := by
            rw [feed, extended]
            exact Shows.mem_extended shows brings
          refine ⟨?_, fun event => ?_⟩
          · refine (congrArg VideoFeedState.hasMore extended).trans ?_
            exact congrArg Bool.not (isEmpty_page found members)
          · refine mem_listed.trans ?_
            rw [← shown_iff_mem_page found members]
            refine Iff.trans ?_ (or_congr_left mem_listed.symm)
            rw [← and_or_left]
            refine and_congr_right fun _ => ?_
            simp only [listed, or_and_right, exists_or]

/-- Scrolling ends with every video exactly when no list brings a video and every page advances. -/
theorem scrollsToEnd_iff : viewer.ScrollsToEnd ↔ viewer.NoListVideos ∧
    ∀ count, (viewer.scroll count).more = true →
      viewer.pages.Advances (viewer.scroll count).listed := by
  constructor
  · rintro ⟨count, atEnd⟩
    have noLists : viewer.NoListVideos := by
      by_contra lists
      have goesOn := hasMore_of_lists lists count
      rw [atEnd.ended] at goesOn
      cases goesOn
    refine ⟨noLists, (Feed.ends_iff (extends_scroll noLists) rfl).mp
      ⟨count + 1, atEnd.ended, fun event wanted => ?_⟩⟩
    obtain ⟨present, wants⟩ := List.mem_filter.mp wanted
    exact mem_listed.mpr ⟨present, atEnd.all event present (of_decide_eq_true wants)⟩
  · rintro ⟨noLists, advances⟩
    obtain ⟨count, ended, all⟩ :=
      (Feed.ends_iff (extends_scroll noLists) rfl).mpr advances
    cases count with
    | zero => cases ended
    | succ count =>
      obtain ⟨once, newestFirst⟩ := ordered_feed count ended
      refine ⟨count, ended, fun event present wants => ?_, once, newestFirst⟩
      exact (mem_listed.mp (all (List.mem_filter.mpr ⟨present, decide_eq_true wants⟩))).2

end

end Viewer

/-! ### Feeds that do not end with every video -/

section

def answer (content : Content) (filter : Filter) : List Event :=
  let accepted := ((insertion Event.createdAt).sort content.events).filter filter.checkEvent
  match filter.limit with
  | none => accepted
  | some limit => accepted.take limit

theorem nodup_answer (content : Content) (filter : Filter) : (answer content filter).Nodup := by
  have own : content.events.Nodup := List.Nodup.of_map Event.id content.ids_nodup
  have accepted := (((insertion Event.createdAt).perm content.events).nodup_iff.mpr own).filter
    filter.checkEvent
  unfold answer
  split
  · exact accepted
  · exact accepted.sublist (List.take_sublist _ _)

theorem mem_accepted {content : Content} {filter : Filter} {event : Event} :
    event ∈ ((insertion Event.createdAt).sort content.events).filter filter.checkEvent ↔
      event ∈ content.events ∧ filter.checkEvent event = true := by
  rw [List.mem_filter, (insertion Event.createdAt).mem_sort]

def relaysOf (content : Content) : Relays content where
  query filters := (filters.flatMap (answer content)).dedup
  getEventsByIds _ := []
  each := by simp
  accepted := by
    intro filter event member
    rw [List.mem_dedup, List.flatMap_singleton] at member
    unfold answer at member
    split at member
    · exact mem_accepted.mp member
    · exact mem_accepted.mp (List.mem_of_mem_take member)
  nodup filters := List.nodup_dedup _
  bounded := by
    intro filter limit limited
    rw [List.flatMap_singleton, (nodup_answer content filter).dedup]
    unfold answer
    rw [limited]
    exact List.length_take_le _ _
  newest := by
    intro filter event present accepts absent
    rw [List.flatMap_singleton, (nodup_answer content filter).dedup] at absent ⊢
    have accepted := mem_accepted.mpr ⟨present, accepts⟩
    have sorted := ((insertion Event.createdAt).sorted content.events).filter filter.checkEvent
    unfold answer at absent ⊢
    split at absent
    · exact absurd accepted absent
    · rename_i limit limited
      rw [limited]
      rw [← List.take_append_drop limit (((insertion Event.createdAt).sort
        content.events).filter filter.checkEvent)] at accepted sorted
      have later := (List.mem_append.mp accepted).resolve_left absent
      refine ⟨⟨limit, rfl, ?_⟩, fun other inside =>
        (List.pairwise_append.mp sorted).2.2 other inside event later⟩
      have longer := List.length_pos_of_mem later
      rw [List.length_drop] at longer
      rw [List.length_take]
      omega
  stored := by simp

def sampleViewer (content : Content) (videoRefs : List (String × List String)) : Viewer where
  setup := sampleSetup
  content := content
  relays := relaysOf content
  following := ⟨["author"], videoRefs⟩
  mode := ⟨.home, nofun⟩

/-- One video more than a page has, all sent at one time. -/
def burst : Content where
  events := ["a", "b", "c", "d", "e", "f"].map fun id => sampleEvent id ""
  ids_nodup := by decide

theorem feed_of_ended {viewer : Viewer} {first last : Nat}
    (ended : (viewer.feed first).state.hasMore = false) (ordered : first ≤ last) :
    (viewer.feed last).state = (viewer.feed first).state := by
  induction last, ordered using Nat.le_induction with
  | base => rfl
  | succ last _ same =>
    obtain ⟨-, ⟨stays, -⟩ | ⟨result, more, -⟩⟩ := (Viewer.rests_feed last).cases
    · exact stays.trans same
    · rw [same, ended] at more
      cases more

/-- A list with a video is asked for on and on, and one of six videos of one time is not found. -/
theorem scrolls_past :
    ¬(sampleViewer burst [("list", ["f"])]).ScrollsToEnd ∧
      ¬(sampleViewer burst []).ScrollsToEnd := by
  constructor
  · rintro ⟨count, atEnd⟩
    have lists : ¬(sampleViewer burst [("list", ["f"])]).NoListVideos := by
      rintro (latest | nobody | unreferred)
      · cases latest
      · cases nobody
      · have absent := unreferred.ids
        revert absent
        decide +kernel
    have goesOn := Viewer.hasMore_of_lists lists count
    rw [atEnd.ended] at goesOn
    cases goesOn
  · rintro ⟨count, atEnd⟩
    obtain ⟨more, ended, missing, wants⟩ :
        ((sampleViewer burst []).feed 0).state.hasMore = true ∧
          ((sampleViewer burst []).feed 1).state.hasMore = false ∧
          (∀ video ∈ ((sampleViewer burst []).feed 1).state.videos, video.id ≠ "f") ∧
          (sampleViewer burst []).Wants (sampleEvent "f" "") := by
      decide +kernel
    obtain ⟨video, member, isShown⟩ := atEnd.all _ (by decide) wants
    cases count with
    | zero => cases more.symm.trans atEnd.ended
    | succ count =>
      rw [feed_of_ended ended (Nat.le_add_left 1 count)] at member
      exact missing video member (id_of_shown isShown)

end

end Divine.VideoFeedBloc
