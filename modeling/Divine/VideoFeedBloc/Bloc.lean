/-
This file models the feed of videos with its modes as its handlers go on from one await to
the next.
-/

import Divine.Library.Dictionary
import Divine.Library.Interleaving
import Divine.Library.Sorting
import Divine.Models.VideoEvent

namespace Divine.VideoFeedBloc

open Dictionary Interleaving Models Sorting

/-! ### The state of a feed -/

inductive FeedMode where
  | forYou | home | latest | popular
  deriving DecidableEq

def FeedMode.name : FeedMode → String
  | forYou => "forYou"
  | home => "home"
  | latest => "latest"
  | popular => "popular"

inductive VideoFeedStatus where
  | loading | success | failure
  deriving DecidableEq

inductive VideoFeedError where
  | loadFailed | noFollowedUsers
  deriving DecidableEq

/-- The lists that refer to each video. -/
abbrev Sources := List (String × List String)

structure HomeFeedResult where
  videos : List VideoEvent
  videoListSources : Sources := []
  listOnlyVideoIds : List String := []

structure VideoFeedState where
  status : VideoFeedStatus := .loading
  videos : List VideoEvent := []
  mode : FeedMode := .home
  hasMore : Bool := true
  isLoadingMore : Bool := false
  error : Option VideoFeedError := none
  videoListSources : Sources := []
  listOnlyVideoIds : List String := []
  deriving DecidableEq

/-! ### What the handlers emit -/

def restoredMode (savedModeName : Option String) (given : FeedMode) : FeedMode :=
  match savedModeName with
  | none => given
  | some name =>
      ([.forYou, .home, .latest, .popular].find? fun mode => mode.name = name).getD given

def validVideos (result : HomeFeedResult) : List VideoEvent :=
  result.videos.filter fun video => video.videoUrl.isSome

def dedupById : List String → List VideoEvent → List VideoEvent
  | _, [] => []
  | seenIds, video :: rest =>
      if video.id ∈ seenIds then dedupById seenIds rest
      else video :: dedupById (video.id :: seenIds) rest

theorem mem_of_dedupById {seenIds : List String} {videos : List VideoEvent} {video : VideoEvent}
    (member : video ∈ dedupById seenIds videos) :
    video ∈ videos ∧ video.id ∉ seenIds := by
  induction videos generalizing seenIds with
  | nil => cases member
  | cons first rest ih =>
    rw [dedupById] at member
    split at member
    · obtain ⟨later, unseen⟩ := ih member
      exact ⟨List.mem_cons_of_mem _ later, unseen⟩
    · rename_i unseen
      rcases List.mem_cons.mp member with rfl | after
      · exact ⟨List.mem_cons_self, unseen⟩
      · obtain ⟨later, unseen⟩ := ih after
        exact ⟨List.mem_cons_of_mem _ later, fun seen => unseen (List.mem_cons_of_mem _ seen)⟩

def oldestCreatedAt (video : VideoEvent) (rest : List VideoEvent) : Int :=
  rest.foldl (fun oldest video => if oldest < video.createdAt then oldest else video.createdAt)
    video.createdAt

/-- The lists that refer to each video on one page or another. -/
def mergedSources (sources more : Sources) : Sources :=
  more.foldl (fun merged entry =>
    put merged entry.1 ((find merged entry.1).getD [] ∪ entry.2)) sources

namespace VideoFeedState

variable (state : VideoFeedState)

def cleared : VideoFeedState :=
  { state with status := .loading, videos := [], hasMore := true, error := none }

def loaded (mode : FeedMode) (result : HomeFeedResult) (followsNobody : Bool) : VideoFeedState :=
  let valid := validVideos result
  if mode = .home && valid.isEmpty && followsNobody then
    { state with
      status := .success
      videos := []
      hasMore := false
      error := some .noFollowedUsers
      videoListSources := []
      listOnlyVideoIds := [] }
  else
    { state with
      status := .success
      videos := valid
      hasMore := !valid.isEmpty
      error := none
      videoListSources := result.videoListSources
      listOnlyVideoIds := result.listOnlyVideoIds }

def loadFailed : VideoFeedState :=
  { state with status := .failure, error := some .loadFailed }

/-- The state after a page was loaded by `_onLoadMoreRequested`. -/
def extended (order : Descending VideoEvent.createdAt) (result : HomeFeedResult) :
    VideoFeedState :=
  let updatedVideos := dedupById [] (state.videos ++ validVideos result)
  { state with
    videos := if state.mode = .popular then updatedVideos else order.sort updatedVideos
    hasMore := !result.videos.isEmpty
    isLoadingMore := false
    videoListSources := mergedSources state.videoListSources result.videoListSources
    listOnlyVideoIds := state.listOnlyVideoIds ∪ result.listOnlyVideoIds }

end VideoFeedState

/-! ### Handlers -/

/-- A handler that waits for the mode to be saved, a first page, or the page before a time. -/
inductive Call where
  | saving (mode : FeedMode)
  | loading (fetch : Nat) (mode : FeedMode)
  | more (fetch : Nat) (mode : FeedMode) (cursor : Int)
  deriving DecidableEq

inductive Reply where
  | saved
  | fetched (result : HomeFeedResult) (followsNobody : Bool) (now : Int)
  | failed

/-- The list is emptied, a page is asked for, or an answer comes when some mode is current. -/
inductive Entry where
  | emptied
  | asked (fetch : Nat) (mode : FeedMode)
  | answered (fetch : Nat) (mode current : FeedMode) (videos : List VideoEvent)
      (before after : VideoFeedState)
  deriving DecidableEq

structure Bloc where
  state : VideoFeedState
  lastRefreshedAt : Option Int
  calls : List Call
  fetches : Nat

structure Config where
  order : Descending VideoEvent.createdAt
  autoRefreshMinInterval : Int

inductive Action where
  | started (savedModeName : Option String) (mode : FeedMode)
  | modeChanged (mode : FeedMode)
  | loadMoreRequested
  | refreshRequested
  | autoRefreshRequested (now : Int)
  | followingListChanged
  | curatedListsChanged
  | answer (index : Nat) (reply : Reply)

namespace Bloc

variable (config : Config) (bloc : Bloc)

def load (state : VideoFeedState) (mode : FeedMode) (entries : List Entry) : Bloc × List Entry :=
  ({ bloc with
      state := state
      calls := bloc.calls ++ [.loading bloc.fetches mode]
      fetches := bloc.fetches + 1 },
    .asked bloc.fetches mode :: entries)

def reload : Bloc × List Entry := bloc.load bloc.state.cleared bloc.state.mode [.emptied]

/-- A page is asked for while no other handler does so. -/
def loadMore : Bloc × List Entry :=
  match bloc.state.videos with
  | [] => (bloc, [])
  | video :: rest =>
      if bloc.calls.any (fun call => call matches .more ..) || bloc.state.status ≠ .success ||
          bloc.state.isLoadingMore || !bloc.state.hasMore then
        (bloc, [])
      else
        ({ bloc with
            state := { bloc.state with isLoadingMore := true }
            calls := bloc.calls ++
              [.more bloc.fetches bloc.state.mode (oldestCreatedAt video rest - 1)]
            fetches := bloc.fetches + 1 },
          [.asked bloc.fetches bloc.state.mode])

def resume (index : Nat) : Call → Reply → Option (Bloc × List Entry)
  | .saving mode, .saved =>
      some ({ bloc with
          state := { bloc.state.cleared with mode := mode }
          calls := proceed bloc.calls index (some (.loading bloc.fetches mode))
          fetches := bloc.fetches + 1 },
        [.asked bloc.fetches mode, .emptied])
  | .saving _, .failed => some ({ bloc with calls := proceed bloc.calls index none }, [])
  | .loading fetch mode, .fetched result followsNobody now =>
      let state := bloc.state.loaded mode result followsNobody
      some ({ bloc with
          state := state
          lastRefreshedAt :=
            if mode = .home && (validVideos result).isEmpty && followsNobody then
              bloc.lastRefreshedAt
            else some now
          calls := proceed bloc.calls index none },
        [.answered fetch mode bloc.state.mode result.videos bloc.state state])
  | .loading fetch mode, .failed =>
      some ({ bloc with
          state := bloc.state.loadFailed, calls := proceed bloc.calls index none },
        [.answered fetch mode bloc.state.mode [] bloc.state bloc.state.loadFailed])
  | .more fetch mode _, .fetched result _ _ =>
      let state := bloc.state.extended config.order result
      some ({ bloc with state := state, calls := proceed bloc.calls index none },
        [.answered fetch mode bloc.state.mode result.videos bloc.state state])
  | .more fetch mode _, .failed =>
      let state := { bloc.state with isLoadingMore := false }
      some ({ bloc with state := state, calls := proceed bloc.calls index none },
        [.answered fetch mode bloc.state.mode [] bloc.state state])
  | _, _ => none

end Bloc

section Step

variable (config : Config)

/-- One handler up to its first await, or one handler that goes on. -/
def step (bloc : Bloc) : Action → Option (Bloc × List Entry)
  | .started savedModeName given =>
      let mode := restoredMode savedModeName given
      some (bloc.load { bloc.state with status := .loading, mode := mode } mode [])
  | .modeChanged mode =>
      if bloc.state.mode = mode ∧ bloc.state.status = .success then some (bloc, [])
      else some ({ bloc with calls := bloc.calls ++ [.saving mode] }, [])
  | .loadMoreRequested => some bloc.loadMore
  | .refreshRequested => some bloc.reload
  | .autoRefreshRequested now =>
      if bloc.state.mode ≠ .home ∨ (bloc.lastRefreshedAt.any fun last =>
          now - last < config.autoRefreshMinInterval) = true then
        some (bloc, [])
      else some bloc.reload
  | .followingListChanged | .curatedListsChanged =>
      if bloc.state.mode ≠ .home ∨ bloc.state.status = .loading then some (bloc, [])
      else some bloc.reload
  | .answer index reply => bloc.calls[index]?.bind fun call => bloc.resume config index call reply

end Step

def initialBloc : Bloc := ⟨{}, none, [], 0⟩

end Divine.VideoFeedBloc
