/-
This file settles which version of a video a lookup by addressable ids returns.
-/

import Divine.Library.Indexing
import Divine.VideosRepository.AddressableId

namespace Divine.VideosRepository

open Dictionary Fallible Indexing LastWins Models Sorting
open NostrSdk (Filter)

/-! ### The client -/

/-- What the cache has of a filter and what the relays answer, as it arrives. -/
structure EventClient where
  getEventsByFilter : Filter → List Event
  websocketEvents : List Filter → List Event
  order : Descending Event.createdAt

def mergeEvents (order : Descending Event.createdAt) (cached network : List Event)
    (limit : Option Nat) : List Event :=
  let limited (events : List Event) : List Event :=
    match limit with
    | some limit => if limit < events.length then (order.sort events).take limit else events
    | none => events
  if cached.isEmpty then limited network
  else if network.isEmpty then limited cached
  else limited ((index Event.id (cached ++ network)).map Prod.snd)

namespace EventClient

variable (client : EventClient)

/-- The cache is asked only where the request has one filter. -/
def cacheResults : List Filter → List Event
  | [filter] => client.getEventsByFilter filter
  | _ => []

def limitOf : List Filter → Option Nat
  | [filter] => filter.limit
  | _ => none

def queryEvents (filters : List Filter) : List Event :=
  mergeEvents client.order (client.cacheResults filters) (client.websocketEvents filters)
    (limitOf filters)

def source : EventSource := ⟨client.queryEvents, fun _ => []⟩

end EventClient

/-! ### The lookup -/

/-- The videos that Funnelcake has of an author, and none where the request fails. -/
abbrev Funnelcake := String → Option (List VideoEvent)

def addressFilters (addressableIds : List String) : List Filter :=
  addressableIds.filterMap fun addressableId =>
    ((AId.fromString addressableId).filter fun parsed => isVideoKind parsed.kind.toNat).map
      fun parsed =>
        { kinds := some [parsed.kind.toNat]
          authors := some [parsed.pubkey]
          d := some [parsed.dTag] }

def addressOf (event : Event) : String :=
  toString event.kind ++ ":" ++ event.pubkey ++ ":" ++ dTagValue event

section Lookup

variable (setup : Setup) (client : EventClient) (funnelcake : Option Funnelcake)
  (addressableIds : List String)

/-- The videos of the events with a `d` tag, with the texts of their addresses. -/
def filedVideos (events : List Event) : Option (List (String × VideoEvent)) :=
  ((events.filter fun event => dTagValue event ≠ "").mapM fun event =>
    (tryParseAndFilter setup event).map fun video =>
      video.map fun video => (addressOf event, video)).map List.reduceOption

/-- The `d` tags that are missing, by their authors. -/
def missingByPubkey (missingIds : List String) : List (String × List String) :=
  (missingIds.filterMap AId.fromString).foldl (fun missing parsed =>
    put missing parsed.pubkey ((find missing parsed.pubkey).getD [] ++ [parsed.dTag])) []

def fetchMissingVideosFromFunnelcake (api : Funnelcake) (missingIds : List String) :
    List (String × VideoEvent) :=
  (missingByPubkey missingIds).flatMap fun entry =>
    ((api entry.1).getD []).filterMap fun video => video.vineId.bind fun vineId =>
      if vineId ∈ entry.2 ∧ setup.blockFilter video.pubkey = false ∧ isShown setup video = true then
        some (AId.toAString ⟨34236, video.pubkey, vineId⟩, video)
      else none

def foundVideos : Option (List (String × VideoEvent)) :=
  if (addressFilters addressableIds).isEmpty then some []
  else (filedVideos setup (addressableEvents client.source addressableIds)).map fun filed =>
    let found := filed.foldl (fun videos entry => put videos entry.1 entry.2) []
    match funnelcake with
    | none => found
    | some api =>
        let missingIds := addressableIds.filter fun id => (find found id).isNone
        (fetchMissingVideosFromFunnelcake setup api missingIds).foldl
          (fun videos entry => put videos entry.1 entry.2) found

def getVideosByAddressableIdsFrom : Option (List VideoEvent) :=
  if addressableIds.isEmpty then some []
  else (foundVideos setup client funnelcake addressableIds).map fun found =>
    addressableIds.filterMap (find found)

/-! ### Versions -/

/-- What the cache and the relays return to the requests. -/
def returnedEvents : List Event :=
  (batches (addressFilters addressableIds).length (addressFilters addressableIds)).flatMap
    fun filters => client.cacheResults filters ++ client.websocketEvents filters

structure IsVersion (a : AId) (event : Event) : Prop where
  video : isVideoKind event.kind = true
  address : (⟨event.kind, event.pubkey, dTagValue event⟩ : AId) = a

def VersionVideo (id : String) (video : VideoEvent) : Prop :=
  ∃ a, AId.fromString id = some a ∧ ∃ event ∈ returnedEvents client addressableIds,
    IsVersion a event ∧ shown setup event = some video

/-- A video that is parsed from a returned version with the greatest time. -/
def NewestVideo (id : String) (video : VideoEvent) : Prop :=
  ∃ a, AId.fromString id = some a ∧ ∃ event ∈ returnedEvents client addressableIds,
    IsVersion a event ∧ shown setup event = some video ∧
      ∀ other ∈ returnedEvents client addressableIds, IsVersion a other →
        other.createdAt ≤ event.createdAt

/-! ### Arrivals -/

/-- The last event that is filed under a text and can be shown. -/
def lastArrival (id : String) : Option Event :=
  lastItem (addressableEvents client.source addressableIds) fun event =>
    dTagValue event ≠ "" && addressOf event = id && (shown setup event).isSome

/-- What Funnelcake is asked for is what no arrival can be shown of. -/
def fallbackVideos : List (String × VideoEvent) :=
  match funnelcake with
  | none => []
  | some api =>
      if (addressFilters addressableIds).isEmpty then []
      else fetchMissingVideosFromFunnelcake setup api
        (addressableIds.filter fun id => (lastArrival setup client addressableIds id).isNone)

def lastFallback (id : String) : Option VideoEvent :=
  (lastItem (fallbackVideos setup client funnelcake addressableIds) fun entry =>
    entry.1 = id).map Prod.snd

/-- No event with a `d` tag makes the parser throw. -/
def Readable : Prop :=
  ∀ event ∈ addressableEvents client.source addressableIds, dTagValue event ≠ "" →
    isVideoKind event.kind = true → setup.blockFilter event.pubkey = false → Parses event

/-! ### Statement -/

/-- A video that Funnelcake has of the author of an address. -/
def IsFallback (id : String) (video : VideoEvent) : Prop :=
  ∃ a, AId.fromString id = some a ∧ ∃ api, funnelcake = some api ∧
    ∃ videos, api a.pubkey = some videos ∧ video ∈ videos

/-- The newest version, or where no version can be shown, what Funnelcake has. -/
def Admissible (id : String) (video : VideoEvent) : Prop :=
  NewestVideo setup client addressableIds id video ∨
    (¬∃ version, VersionVideo setup client addressableIds id version) ∧
      IsFallback funnelcake id video

/-- The lookup returns videos in the order of the ids, each the newest version, and omits none that
can be shown. -/
structure ReturnsNewest : Prop where
  ordered : ∀ videos,
    getVideosByAddressableIdsFrom setup client funnelcake addressableIds = some videos →
      ∃ found, foundVideos setup client funnelcake addressableIds = some found ∧
        videos = addressableIds.filterMap (find found)
  newest : ∀ found, foundVideos setup client funnelcake addressableIds = some found →
    ∀ id ∈ addressableIds, ∀ video, find found id = some video →
      Admissible setup client funnelcake addressableIds id video
  present : ∀ id ∈ addressableIds, ∀ video, NewestVideo setup client addressableIds id video →
    ∃ found, foundVideos setup client funnelcake addressableIds = some found ∧
      (find found id).isSome = true

/-- The last arrival under an id shows the newest version that can be shown, and nothing throws
before it. -/
structure NewestArrivesLast : Prop where
  readable : (∃ id ∈ addressableIds, ∃ video, NewestVideo setup client addressableIds id video) →
    Readable setup client addressableIds
  last : Readable setup client addressableIds → ∀ id ∈ addressableIds,
    lastFallback setup client funnelcake addressableIds id = none →
      ∀ event, lastArrival setup client addressableIds id = some event →
        ∀ video, shown setup event = some video →
          Admissible setup client funnelcake addressableIds id video
  filled : Readable setup client addressableIds → ∀ id ∈ addressableIds,
    ∀ video, lastFallback setup client funnelcake addressableIds id = some video →
      Admissible setup client funnelcake addressableIds id video
  arrives : ∀ id ∈ addressableIds, ∀ video, NewestVideo setup client addressableIds id video →
    (lastArrival setup client addressableIds id).isSome = true ∨
      (lastFallback setup client funnelcake addressableIds id).isSome = true

end Lookup

section Found

variable {setup : Setup} {client : EventClient} {funnelcake : Option Funnelcake}
  {addressableIds : List String} {found : List (String × VideoEvent)} {id : String}

/-! ### What is found -/

theorem addressableEvents_eq : addressableEvents client.source addressableIds =
    (batches (addressFilters addressableIds).length (addressFilters addressableIds)).flatMap
      client.queryEvents := rfl

theorem addressableEvents_of_isEmpty (empty : (addressFilters addressableIds).isEmpty = true) :
    addressableEvents client.source addressableIds = [] := by
  rw [addressableEvents_eq, List.isEmpty_iff.mp empty]
  rfl

theorem filedVideos_isSome (events : List Event) : (filedVideos setup events).isSome = true ↔
    ∀ event ∈ events, dTagValue event ≠ "" → isVideoKind event.kind = true →
      setup.blockFilter event.pubkey = false → Parses event := by
  rw [filedVideos, Option.isSome_map, mapM_isSome_iff]
  constructor
  · intro each event member tagged
    have read := each event (List.mem_filter.mpr ⟨member, decide_eq_true tagged⟩)
    rw [Option.isSome_map] at read
    exact tryParseAndFilter_isSome.mp read
  · intro parses event member
    obtain ⟨inside, tagged⟩ := List.mem_filter.mp member
    rw [Option.isSome_map]
    exact tryParseAndFilter_isSome.mpr (parses event inside (of_decide_eq_true tagged))

theorem find_filedVideos {events : List Event} {filed : List (String × VideoEvent)}
    (read : filedVideos setup events = some filed) (id : String) :
    find (filed.foldl (fun videos entry => put videos entry.1 entry.2) []) id =
      (lastItem events fun event =>
        dTagValue event ≠ "" && addressOf event = id && (shown setup event).isSome).bind
        (shown setup) := by
  obtain ⟨entries, each, rfl⟩ := Option.map_eq_some_iff.mp read
  have files : ∀ event, ((tryParseAndFilter setup event).map fun video =>
      video.map fun video => (addressOf event, video)).join =
        (shown setup event).map (Prod.mk (addressOf event)) := by
    intro event
    unfold shown
    cases tryParseAndFilter setup event <;> rfl
  rw [find_foldl_put Prod.fst Prod.snd, (mapM_eq_some_iff.mp each).2, reduceOption_filterMap]
  simp only [files]
  have holds : ∀ event, (decide (dTagValue event ≠ "") &&
      ((shown setup event).map (Prod.mk (addressOf event))).any fun entry => entry.1 = id) =
        (decide (dTagValue event ≠ "") && decide (addressOf event = id) &&
          (shown setup event).isSome) := by
    intro event
    cases shown setup event with
    | none =>
      rw [Option.map_none, Option.any_none, Option.isSome_none, Bool.and_false, Bool.and_false]
    | some video => rw [Option.map_some, Option.any_some, Option.isSome_some, Bool.and_true]
  rw [lastItem_filterMap, lastItem_filter, funext holds, Option.map_bind]
  refine Option.or_none.trans (congrArg _ (funext fun event => ?_))
  cases read : shown setup event with
  | none => simp only [Function.comp_apply, read, Option.map_none]
  | some video => simp only [Function.comp_apply, read, Option.map_some]

theorem foundVideos_isSome :
    (foundVideos setup client funnelcake addressableIds).isSome = true ↔
      Readable setup client addressableIds := by
  unfold foundVideos
  split
  · rename_i empty
    simp only [Readable, addressableEvents_of_isEmpty empty, List.not_mem_nil, false_implies,
      implies_true, Option.isSome_some]
  · rw [Option.isSome_map, filedVideos_isSome]
    rfl

/-- For an id: the last video that Funnelcake adds under it, else what the last arrival shows. -/
theorem find_foundVideos (looked : foundVideos setup client funnelcake addressableIds = some found)
    (id : String) :
    find found id = (lastFallback setup client funnelcake addressableIds id).or
      ((lastArrival setup client addressableIds id).bind (shown setup)) := by
  unfold foundVideos at looked
  unfold lastFallback fallbackVideos
  split at looked
  · rename_i empty
    cases looked
    rw [lastArrival, addressableEvents_of_isEmpty empty]
    cases funnelcake with
    | none => rfl
    | some api =>
      simp only [if_pos empty]
      rfl
  · rename_i filtered
    obtain ⟨filed, read, rfl⟩ := Option.map_eq_some_iff.mp looked
    have arrived : ∀ id, find (filed.foldl (fun videos entry => put videos entry.1 entry.2) []) id =
        (lastArrival setup client addressableIds id).bind (shown setup) := find_filedVideos read
    cases funnelcake with
    | none => exact arrived id
    | some api =>
      have missing : ∀ id, (find (filed.foldl (fun videos entry => put videos entry.1 entry.2) [])
          id).isNone = (lastArrival setup client addressableIds id).isNone := by
        intro id
        rw [arrived]
        cases last : lastArrival setup client addressableIds id with
        | none => rfl
        | some event =>
          have held := lastItem_holds last
          rw [Bool.and_eq_true] at held
          rw [Option.bind_some, Option.isNone_some, ← Option.not_isSome, held.2]
          rfl
      simp only [missing, if_neg filtered]
      rw [find_foldl_put Prod.fst Prod.snd, arrived]

end Found

/-! ### Recency -/

/-- The lookup returns newest versions exactly when they arrive last. -/
theorem returnsNewest_iff (setup : Setup) (client : EventClient) (funnelcake : Option Funnelcake)
    (addressableIds : List String) :
    ReturnsNewest setup client funnelcake addressableIds ↔
      NewestArrivesLast setup client funnelcake addressableIds := by
  constructor
  · intro returns
    have looks : Readable setup client addressableIds →
        ∃ found, foundVideos setup client funnelcake addressableIds = some found :=
      fun readable => Option.isSome_iff_exists.mp (foundVideos_isSome.mpr readable)
    refine ⟨?_, fun readable id listed unfilled event last video shows => ?_,
      fun readable id listed video filled => ?_, fun id listed video newest => ?_⟩
    · rintro ⟨id, listed, video, newest⟩
      obtain ⟨found, looked, _⟩ := returns.present id listed video newest
      exact foundVideos_isSome.mp (Option.isSome_of_eq_some looked)
    · obtain ⟨found, looked⟩ := looks readable
      refine returns.newest found looked id listed video ?_
      rw [find_foundVideos looked, unfilled, last, Option.none_or, Option.bind_some, shows]
    · obtain ⟨found, looked⟩ := looks readable
      refine returns.newest found looked id listed video ?_
      rw [find_foundVideos looked, filled, Option.some_or]
    · obtain ⟨found, looked, present⟩ := returns.present id listed video newest
      rw [find_foundVideos looked, Option.isSome_or, Bool.or_eq_true] at present
      refine present.symm.imp_left fun shows => ?_
      exact Option.isSome_of_isSome_bind shows
  · intro arrives
    refine ⟨fun videos returned => ?_, fun found looked id listed video same => ?_,
      fun id listed video newest => ?_⟩
    · unfold getVideosByAddressableIdsFrom at returned
      split at returned
      · rename_i empty
        obtain rfl := List.isEmpty_iff.mp empty
        exact ⟨[], rfl, (Option.some.inj returned).symm⟩
      · obtain ⟨found, looked, same⟩ := Option.map_eq_some_iff.mp returned
        exact ⟨found, looked, same.symm⟩
    · have readable := foundVideos_isSome.mp (Option.isSome_of_eq_some looked)
      rw [find_foundVideos looked] at same
      rcases Option.or_eq_some_iff.mp same with filled | ⟨unfilled, arrived⟩
      · exact arrives.filled readable id listed video filled
      · obtain ⟨event, last, shows⟩ := Option.bind_eq_some_iff.mp arrived
        exact arrives.last readable id listed unfilled event last video shows
    · have readable := arrives.readable ⟨id, listed, video, newest⟩
      obtain ⟨found, looked⟩ := Option.isSome_iff_exists.mp
        ((@foundVideos_isSome setup client funnelcake addressableIds).mpr readable)
      refine ⟨found, looked, ?_⟩
      rw [find_foundVideos looked, Option.isSome_or, Bool.or_eq_true]
      refine (arrives.arrives id listed video newest).symm.imp_right fun arrived => ?_
      obtain ⟨event, last⟩ := Option.isSome_iff_exists.mp arrived
      have held := lastItem_holds last
      rw [Bool.and_eq_true] at held
      rw [last]
      exact held.2

def versionAt (id : String) (createdAt : Int) : Event where
  id := id
  pubkey := "author"
  createdAt := createdAt
  kind := 34236
  tags := [.list ["d", "v"], .list ["url", "https://media.divine.video/hash.mp4"]]
  content := ""

/-- Of two relays, the second to answer has an older version. -/
def twoRelays : EventClient where
  getEventsByFilter _ := []
  websocketEvents _ := [versionAt "new" 2, versionAt "old" 1]
  order := insertion Event.createdAt

/-- The older version arrives last and is returned. -/
theorem returnsNewest_fails : ¬ReturnsNewest sampleSetup twoRelays none ["34236:author:v"] := by
  intro returns
  have looked : ((foundVideos sampleSetup twoRelays none ["34236:author:v"]).bind fun found =>
      (find found "34236:author:v").map VideoEvent.id) = some "old" := by decide +kernel
  obtain ⟨found, same, returned⟩ := Option.bind_eq_some_iff.mp looked
  obtain ⟨video, shows, old⟩ := Option.map_eq_some_iff.mp returned
  rcases returns.newest found same _ List.mem_cons_self video shows with
    ⟨a, _, event, member, version, read, newest⟩ | ⟨_, _, _, _, absent, _⟩
  · have own := id_of_shown read
    rw [old] at own
    have both : event ∈ [versionAt "new" 2, versionAt "old" 1] := member
    rcases List.mem_cons.mp both with rfl | rest
    · exact absurd own (by decide)
    · obtain rfl := List.mem_singleton.mp rest
      have later := newest (versionAt "new" 2) List.mem_cons_self ⟨rfl, version.address⟩
      exact absurd later (by decide)
  · cases absent

end Divine.VideosRepository
