/-
This file models the infinite scroll of the web client over the Funnelcake API, and a
server whose content does not change.
-/

import Divine.Funnelcake.Client
import Divine.Library.Paging
import Mathlib.Data.List.Perm.Subperm

namespace Divine.Funnelcake

open Paging

/-! ### The hook -/

abbrev Given := { text : String // text ≠ "" }

/-- `FunnelcakeFeedType`: a query throws without a hashtag or a key, and is not enabled without a
user. -/
inductive FeedType where
  | trending
  | recent
  | classics
  | hashtag (tag : Given)
  | profile (pubkey : Given)
  | home (user : Given)
  | recommendations (user : Given)

/-- The options of the hook and the page it drew to start at. -/
structure Options where
  feedType : FeedType
  sortMode : Option SortMode
  pageSize : Nat
  positive : 0 < pageSize
  randomizeWithinTop : Nat
  randomStartPage : Nat
  drawn : randomStartPage = 0 ∨ randomStartPage < randomizeWithinTop / pageSize

inductive PageParam where
  | offset (offset : Int)
  | cursor (cursor : Int)

namespace Options

variable (options : Options)

def totalPages : Nat := options.randomizeWithinTop / options.pageSize

def randomStartOffset : Nat := options.randomStartPage * options.pageSize

def getFetchOptions : FetchOptions :=
  let base : FetchOptions :=
    { sort := none, limit := options.pageSize, before := none, offset := none, classic := none
      platform := none }
  match options.feedType with
  | .classics =>
      { base with classic := some true, platform := some "vine", sort := some .loops }
  | .trending => { base with sort := some (options.sortMode.getD .trending) }
  | .recent => { base with sort := some .recent }
  | .hashtag _ => { base with sort := some (options.sortMode.getD .trending) }
  | .profile _ => { base with sort := some (options.sortMode.getD .recent) }
  | .home _ => { base with sort := some (options.sortMode.getD .recent) }
  | .recommendations _ => base

/-- `before` and `offset` of the fetch. A cursor of zero counts as none. -/
def pageOptions (pageParam : Option PageParam) : FetchOptions :=
  match pageParam with
  | none => options.getFetchOptions
  | some (.cursor cursor) =>
      { options.getFetchOptions with before := if cursor = 0 then none else some cursor }
  | some (.offset offset) =>
      if options.randomizeWithinTop ≠ 0 then { options.getFetchOptions with offset := some offset }
      else { options.getFetchOptions with before := some offset }

def queryFn (answer : Answer) (pageParam : Option PageParam) : FunnelcakeResponse :=
  match options.feedType with
  | .hashtag tag => searchVideos answer none (some tag) none (options.pageOptions pageParam)
  | .profile pubkey => fetchUserVideos answer pubkey (options.pageOptions pageParam)
  | .home user => fetchUserFeed answer user (options.pageOptions pageParam)
  | .recommendations user =>
      let recOffset :=
        match pageParam with
        | some (.offset offset) => offset
        | _ => 0
      fetchRecommendations answer user options.pageSize (some recOffset) (some "popular")
  | _ => fetchVideos answer (options.pageOptions pageParam)

def cursorType : CursorType :=
  match options.feedType with
  | .recommendations _ => .offset
  | _ => .timestamp

def getNextPageParam (lastPage : FunnelcakeVideoPage) (allPages : Nat) : Option PageParam :=
  if options.randomizeWithinTop ≠ 0 ∧ 0 < options.totalPages then
    if options.totalPages ≤ allPages then none
    else some (.offset ↑((options.randomStartOffset + allPages * options.pageSize) %
      options.randomizeWithinTop))
  else
    match lastPage.offset with
    | some offset => some (.offset offset)
    | none => lastPage.nextCursor.map .cursor

def initialPageParam : Option PageParam :=
  if options.randomizeWithinTop ≠ 0 then some (.offset options.randomStartOffset) else none

def fetchPage (answer : Answer) :
    Source (Option PageParam × Nat) (List FunnelcakeVideoRaw) := fun cursor =>
  let response := options.queryFn answer cursor.1
  let page := transformToVideoPage response options.cursorType
  (response.videos, (options.getNextPageParam page (cursor.2 + 1)).map fun pageParam =>
    (some pageParam, cursor.2 + 1))

end Options

/-! ### The server -/

/-- What a query finds, in the order of its sort and from the newest to the oldest. -/
structure Content where
  rows : List FunnelcakeVideoRaw
  newest : List FunnelcakeVideoRaw
  perm : newest.Perm rows
  descending : newest.Pairwise fun first second => second.createdAt ≤ first.createdAt

def rowsBefore (rows : List FunnelcakeVideoRaw) (before : Int) : List FunnelcakeVideoRaw :=
  rows.filter fun row => row.createdAt < before

structure Server where
  content : Query → Content
  chronological : ∀ query, query.sort = some .recent →
    (content query).rows = (content query).newest

def Server.answer (server : Server) : Answer := fun request =>
  let content := server.content request.query
  match request.offset, request.before with
  | some offset, _ => slice content.rows offset.toNat request.limit
  | none, some before => (rowsBefore content.newest before).take request.limit
  | none, none => content.rows.take request.limit

/-! ### Feeds -/

namespace Options

def sort (options : Options) : SortMode :=
  match options.feedType with
  | .classics => .loops
  | .trending | .hashtag _ => options.sortMode.getD .trending
  | .recent => .recent
  | _ => options.sortMode.getD .recent

def query (options : Options) : Query :=
  let base : Query :=
    { endpoint := .videos, sort := some options.sort, q := none, tag := none, author := none
      classic := none, platform := none, fallback := none }
  match options.feedType with
  | .classics => { base with classic := some true, platform := some "vine" }
  | .hashtag tag => { base with tag := some tag }
  | .profile pubkey => { base with endpoint := .userVideos pubkey }
  | .home user => { base with endpoint := .userFeed user }
  | .recommendations user =>
      { base with endpoint := .userRecommendations user, sort := none, fallback := some "popular" }
  | _ => base

def byOffsets (options : Options) : Bool :=
  match options.feedType with
  | .profile _ | .recommendations _ => true
  | _ => false

/-- The items that a feed has to show: its top pool when it is randomized. -/
def pool (options : Options) (content : Content) : List FunnelcakeVideoRaw :=
  if options.randomizeWithinTop ≠ 0 then content.rows.take options.randomizeWithinTop
  else content.rows

/-- The fetched pages end, have every item of the pool and no item of the content twice. -/
def ShowsOnce (options : Options) (server : Server) : Prop :=
  ∃ pages, Collects (options.fetchPage server.answer) (options.initialPageParam, 0) pages ∧
    (options.pool (server.content options.query)).Subperm pages.flatten ∧
    pages.flatten.Subperm (server.content options.query).rows

end Options

end Divine.Funnelcake
