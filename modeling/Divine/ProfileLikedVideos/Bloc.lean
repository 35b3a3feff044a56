/-
This file models the grid of videos that a user likes, on the own profile: the list of ids
that the repository tells, the pages that are loaded from it, and an offset that is to
keep its place while the list grows and shrinks.
-/

import Divine.Library.Interleaving

namespace Divine.ProfileLikedVideos

open Interleaving

/-! ### The state -/

def pageSize : Nat := 18

inductive Status where
  | initial | syncing | loading | success | failure
  deriving DecidableEq

inductive Error where
  | syncFailed | loadFailed
  deriving DecidableEq

structure ProfileLikedVideosState where
  status : Status := .initial
  videos : List String := []
  likedEventIds : List String := []
  error : Option Error := none
  isLoadingMore : Bool := false
  hasMoreContent : Bool := true
  nextPageOffset : Nat := 0
  deriving DecidableEq

/-- A handler that waits: a sync, for ids or for the videos of the first page; and a load, for those
of the next one. -/
inductive Call where
  | caching
  | syncing
  | fetchingFirst (likedEventIds : List String)
  | loadingMore (offset totalCount : Nat) (nextPageIds : List String)
  deriving DecidableEq

/-- The answer a handler waits for: ids, which of them resolve to a supported video, or an error. -/
inductive Reply where
  | ids (likedEventIds : List String)
  | videos (resolves : String → Bool)
  | failed (error : Error)

inductive Action where
  | syncRequested
  | loadMoreRequested
  | emitted (newIds : List String)
  | answer (index : Nat) (reply : Reply)

structure Bloc where
  state : ProfileLikedVideosState
  calls : List Call
  deriving DecidableEq

/-- The ids whose videos a step asks for, and whether it shows a first page. -/
structure Effect where
  requested : List String := []
  firstPage : Bool := false

/-! ### Handlers -/

def page (likedEventIds : List String) (offset : Nat) : List String :=
  (likedEventIds.drop offset).take pageSize

namespace ProfileLikedVideosState

variable (state : ProfileLikedVideosState)

/-- `_onSubscriptionRequested`: the list changes. -/
def onData (newIds : List String) : ProfileLikedVideosState :=
  if newIds = state.likedEventIds then state
  else if state.status = .initial ∨ state.status = .syncing then state
  else if newIds.length < state.likedEventIds.length then
    let removedIds := state.likedEventIds.filter fun id => !newIds.contains id
    { state with
      likedEventIds := newIds
      videos := state.videos.filter fun video => !removedIds.contains video
      nextPageOffset := min state.nextPageOffset newIds.length }
  else if newIds.length > state.likedEventIds.length then
    { state with
      likedEventIds := newIds
      nextPageOffset := state.nextPageOffset + (newIds.length - state.likedEventIds.length) }
  else state

def firstPage (likedEventIds videos : List String) : ProfileLikedVideosState :=
  { state with
    status := .success
    videos := videos
    hasMoreContent := likedEventIds.length > (page likedEventIds 0).length
    nextPageOffset := (page likedEventIds 0).length
    error := none }

def nextPage (offset totalCount : Nat) (nextPageIds newVideos : List String) :
    ProfileLikedVideosState :=
  let newOffset := offset + nextPageIds.length
  { state with
    videos := state.videos ++ newVideos.filter fun video => !state.videos.contains video
    isLoadingMore := false
    hasMoreContent := newOffset < totalCount
    nextPageOffset := newOffset }

def fetchFirst (likedEventIds : List String) : ProfileLikedVideosState × Option Call × Effect :=
  ({ state with status := .loading, likedEventIds := likedEventIds },
    some (.fetchingFirst likedEventIds), { requested := page likedEventIds 0 })

/-- `_syncOwnProfileLikes` or `_onLoadMoreRequested` goes on. -/
def resume (call : Call) (reply : Reply) :
    Option (ProfileLikedVideosState × Option Call × Effect) :=
  match call, reply with
  | .caching, .ids cachedIds =>
      some (if cachedIds.isEmpty then ({ state with status := .syncing }, some .syncing, {})
        else state.fetchFirst cachedIds)
  | .syncing, .ids likedEventIds =>
      some (if likedEventIds.isEmpty then
          ({ state with
            status := .success
            videos := []
            likedEventIds := []
            hasMoreContent := false
            error := none }, none, { firstPage := true })
        else state.fetchFirst likedEventIds)
  | .fetchingFirst likedEventIds, .videos resolves =>
      some (state.firstPage likedEventIds ((page likedEventIds 0).filter resolves), none,
        { firstPage := true })
  | .loadingMore offset totalCount nextPageIds, .videos resolves =>
      some (state.nextPage offset totalCount nextPageIds (nextPageIds.filter resolves), none, {})
  | .loadingMore _ _ _, .failed _ => some ({ state with isLoadingMore := false }, none, {})
  | _, .failed error =>
      some ({ state with status := .failure, error := some error }, none, {})
  | _, _ => none

end ProfileLikedVideosState

namespace Bloc

variable (bloc : Bloc)

def syncRequested : Bloc :=
  if bloc.state.status = .syncing then bloc else { bloc with calls := bloc.calls ++ [.caching] }

def loadMoreRequested : Bloc × Effect :=
  let state := bloc.state
  if state.status ≠ .success ∨ state.isLoadingMore ∨ !state.hasMoreContent then (bloc, {})
  else if state.likedEventIds.length ≤ state.nextPageOffset then
    ({ bloc with state := { state with hasMoreContent := false } }, {})
  else
    let nextPageIds := page state.likedEventIds state.nextPageOffset
    (⟨{ state with isLoadingMore := true },
      bloc.calls ++ [.loadingMore state.nextPageOffset state.likedEventIds.length nextPageIds]⟩,
      { requested := nextPageIds })

end Bloc

/-- One handler up to its first await, one that goes on, or one list of the subscription. -/
def step (bloc : Bloc) : Action → Option (Bloc × Effect)
  | .syncRequested => some (bloc.syncRequested, {})
  | .loadMoreRequested => some bloc.loadMoreRequested
  | .emitted newIds => some ({ bloc with state := bloc.state.onData newIds }, {})
  | .answer index reply =>
      bloc.calls[index]?.bind fun call =>
        (bloc.state.resume call reply).map fun (state, stage, effect) =>
          (⟨state, proceed bloc.calls index stage⟩, effect)

def initialBloc : Bloc := ⟨{}, []⟩

end Divine.ProfileLikedVideos
