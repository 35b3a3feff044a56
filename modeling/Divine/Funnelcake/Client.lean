/-
This file models the requests of the web client to the Funnelcake API.
-/

import Mathlib.Data.List.Basic

namespace Divine.Funnelcake

/-! ### Requests -/

structure FunnelcakeVideoRaw where
  id : String
  pubkey : String
  createdAt : Int
  dTag : String
  deriving DecidableEq

inductive SortMode where
  | trending | recent | popular | loops | engagement
  deriving DecidableEq

inductive Endpoint where
  | videos
  | search
  | userVideos (pubkey : String)
  | userFeed (pubkey : String)
  | userRecommendations (pubkey : String)
  deriving DecidableEq

/-- What a request asks for, without the page of it. -/
structure Query where
  endpoint : Endpoint
  sort : Option SortMode
  q : Option String
  tag : Option String
  author : Option String
  classic : Option Bool
  platform : Option String
  fallback : Option String
  deriving DecidableEq

structure Request where
  query : Query
  limit : Nat
  before : Option Int
  offset : Option Int

/-- `FunnelcakeResponse`. Its cursor is the text of a number, which `parseInt` reads back. -/
structure FunnelcakeResponse where
  videos : List FunnelcakeVideoRaw
  hasMore : Bool
  nextCursor : Option Int

structure FetchOptions where
  sort : Option SortMode
  limit : Nat
  before : Option Int
  offset : Option Int
  classic : Option Bool
  platform : Option String

abbrev Answer := Request → List FunnelcakeVideoRaw

/-! ### Lists of videos -/

section Fetch

variable (answer : Answer)

/-- Below this number a cursor of a sorted feed is an offset. -/
def offsetLimit : Int := 1000000000

def paginationParams (sort : SortMode) (before offset : Option Int) : Option Int × Option Int :=
  match offset, before with
  | some offset, _ => (none, some offset)
  | none, none => (none, none)
  | none, some before =>
      if sort ≠ .recent ∧ before < offsetLimit then (none, some before) else (some before, none)

def cursorResponse (sort : SortMode) (query : Query) (options : FetchOptions) :
    FunnelcakeResponse :=
  let params := paginationParams sort options.before options.offset
  let videos := answer ⟨query, options.limit, params.1, params.2⟩
  { videos := videos
    hasMore := options.limit ≤ videos.length
    nextCursor :=
      if options.limit ≤ videos.length then
        if sort ≠ .recent then some (params.2.getD 0 + videos.length)
        else videos.getLast?.map FunnelcakeVideoRaw.createdAt
      else none }

def fetchVideos (options : FetchOptions) : FunnelcakeResponse :=
  let sort := options.sort.getD .trending
  cursorResponse answer sort
    { endpoint := .videos, sort := some sort, q := none, tag := none, author := none
      classic := options.classic, platform := options.platform, fallback := none } options

def searchVideos (query tag author : Option String) (options : FetchOptions) :
    FunnelcakeResponse :=
  let sort := options.sort.getD .trending
  let isHashtagSearch := tag.any (· ≠ "") && !query.any (· ≠ "")
  cursorResponse answer sort
    { endpoint := if isHashtagSearch then .videos else .search, sort := some sort, q := query
      tag := tag, author := author, classic := options.classic, platform := options.platform
      fallback := none } options

def fetchUserFeed (pubkey : String) (options : FetchOptions) : FunnelcakeResponse :=
  let sort := options.sort.getD .recent
  cursorResponse answer sort
    { endpoint := .userFeed pubkey, sort := some sort, q := none, tag := none, author := none
      classic := none, platform := none, fallback := none } options

def offsetResponse (query : Query) (limit : Nat) (offset : Option Int) : FunnelcakeResponse :=
  let videos := answer ⟨query, limit, none, offset⟩
  { videos := videos
    hasMore := limit ≤ videos.length
    nextCursor := if limit ≤ videos.length then some (offset.getD 0 + videos.length) else none }

/-- This endpoint has offsets only, and an offset of zero is left out. -/
def fetchUserVideos (pubkey : String) (options : FetchOptions) : FunnelcakeResponse :=
  let currentOffset := (options.offset <|> options.before).getD 0
  offsetResponse answer
    { endpoint := .userVideos pubkey, sort := options.sort, q := none, tag := none
      author := none, classic := none, platform := none, fallback := none } options.limit
    (if currentOffset = 0 then none else some currentOffset)

def fetchRecommendations (pubkey : String) (limit : Nat) (offset : Option Int)
    (fallback : Option String) : FunnelcakeResponse :=
  offsetResponse answer
    { endpoint := .userRecommendations pubkey, sort := none, q := none, tag := none
      author := none, classic := none, platform := none, fallback := fallback } limit offset

end Fetch

/-! ### Pages -/

def shortVideoKind : Nat := 34236

structure ParsedVideoData where
  id : String
  pubkey : String
  kind : Nat
  createdAt : Int
  vineId : Option String
  deriving DecidableEq

def transformFunnelcakeVideo (raw : FunnelcakeVideoRaw) : ParsedVideoData :=
  { id := raw.id
    pubkey := raw.pubkey
    kind := shortVideoKind
    createdAt := raw.createdAt
    vineId := if raw.dTag = "" then none else some raw.dTag }

def ParsedVideoData.address (video : ParsedVideoData) : String :=
  s!"{video.pubkey}:{video.kind}:{video.vineId.getD video.id}"

/-- The first video of each address, without those that were seen. -/
def deduplicate (seen : List String) : List ParsedVideoData → List ParsedVideoData
  | [] => []
  | video :: rest =>
      if video.address ∈ seen then deduplicate seen rest
      else video :: deduplicate (video.address :: seen) rest

def transformFunnelcakeResponse (response : FunnelcakeResponse) : List ParsedVideoData :=
  deduplicate [] (response.videos.map transformFunnelcakeVideo)

inductive CursorType where
  | timestamp | offset
  deriving DecidableEq

structure FunnelcakeVideoPage where
  videos : List ParsedVideoData
  nextCursor : Option Int
  offset : Option Int

def transformToVideoPage (response : FunnelcakeResponse) (cursorType : CursorType) :
    FunnelcakeVideoPage :=
  let cursor := if response.hasMore then response.nextCursor else none
  { videos := transformFunnelcakeResponse response
    nextCursor := if cursorType = .timestamp then cursor else none
    offset := if cursorType = .offset then cursor else none }

end Divine.Funnelcake
