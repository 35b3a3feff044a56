/-
This file proves what the pages of an infinite feed are.
-/

import Divine.Funnelcake.InfiniteVideos

namespace Divine.Funnelcake

open Paging

section Requests

variable {server : Server} {options : Options} {pageParam : Option PageParam} {position : Nat}

def Options.rows (options : Options) (server : Server) : List FunnelcakeVideoRaw :=
  (server.content options.query).rows

theorem pageOptions_limit (options : Options) (pageParam : Option PageParam) :
    (options.pageOptions pageParam).limit = options.pageSize := by
  have base : options.getFetchOptions.limit = options.pageSize := by
    unfold Options.getFetchOptions
    cases options.feedType <;> rfl
  unfold Options.pageOptions
  split
  · exact base
  · exact base
  · split <;> exact base

theorem queryFn_of_cursors (answer : Answer) (cursors : options.byOffsets = false) :
    options.queryFn answer pageParam =
      cursorResponse answer options.sort options.query (options.pageOptions pageParam) := by
  have classic : (options.pageOptions pageParam).classic = options.getFetchOptions.classic ∧
      (options.pageOptions pageParam).platform = options.getFetchOptions.platform ∧
      (options.pageOptions pageParam).sort = options.getFetchOptions.sort := by
    unfold Options.pageOptions
    split
    · exact ⟨rfl, rfl, rfl⟩
    · exact ⟨rfl, rfl, rfl⟩
    · split <;> exact ⟨rfl, rfl, rfl⟩
  obtain ⟨sameClassic, samePlatform, sameSort⟩ := classic
  unfold Options.byOffsets at cursors
  unfold Options.queryFn Options.query Options.sort
  unfold Options.getFetchOptions at sameClassic samePlatform sameSort
  cases feed : options.feedType with
  | trending | recent | classics =>
    simp only [feed] at sameClassic samePlatform sameSort
    simp only [fetchVideos, sameClassic, samePlatform, sameSort, Option.getD_some]
  | hashtag tag =>
    simp only [feed] at sameClassic samePlatform sameSort
    have given : (some tag.1).any (· ≠ "") = true := decide_eq_true tag.2
    simp only [searchVideos, given, sameClassic, samePlatform, sameSort, Option.getD_some]
    rfl
  | profile pubkey => simp [feed] at cursors
  | home user =>
    simp only [feed] at sameClassic samePlatform sameSort
    simp only [fetchUserFeed, sameSort, Option.getD_some]
  | recommendations user => simp [feed] at cursors

def Options.ReadsAt (options : Options) (position : Nat) : Option PageParam → Prop
  | none => position = 0
  | some (.offset offset) =>
      offset = position ∧ (options.randomizeWithinTop ≠ 0 ∨ options.byOffsets = true)
  | some (.cursor cursor) => cursor = position ∧ options.cursorType = .timestamp ∧
      (options.byOffsets = true ∨ options.sort ≠ .recent ∧ (position : Int) < offsetLimit)

/-- The response with the page from an offset on. -/
structure RespondsAt (options : Options) (server : Server) (position : Nat)
    (response : FunnelcakeResponse) : Prop where
  videos : response.videos = slice (options.rows server) position options.pageSize
  hasMore : response.hasMore = decide (options.pageSize ≤ response.videos.length)
  nextCursor : options.byOffsets = true ∨ options.sort ≠ .recent → response.nextCursor =
    if options.pageSize ≤ response.videos.length then
      some (position + response.videos.length : Int) else none

theorem getFetchOptions_page (options : Options) :
    options.getFetchOptions.before = none ∧ options.getFetchOptions.offset = none := by
  unfold Options.getFetchOptions
  cases options.feedType <;> exact ⟨rfl, rfl⟩

theorem paginationParams_of_readsAt (cursors : options.byOffsets = false)
    (reads : options.ReadsAt position pageParam) :
    paginationParams options.sort (options.pageOptions pageParam).before
        (options.pageOptions pageParam).offset = (none, some ↑position) ∨
      (paginationParams options.sort (options.pageOptions pageParam).before
        (options.pageOptions pageParam).offset = (none, none) ∧ position = 0) := by
  obtain ⟨noBefore, noOffset⟩ := getFetchOptions_page options
  unfold Options.pageOptions
  match pageParam, reads with
  | none, isFirst =>
    right
    rw [noBefore, noOffset]
    exact ⟨rfl, isFirst⟩
  | some (.offset offset), ⟨isOffset, allowed⟩ =>
    have randomized : options.randomizeWithinTop ≠ 0 := by
      rcases allowed with randomized | byOffsets
      · exact randomized
      · cases cursors.symm.trans byOffsets
    left
    simp only [if_pos randomized, isOffset]
    rfl
  | some (.cursor cursor), ⟨isCursor, _, allowed⟩ =>
    obtain ⟨sorted, small⟩ : options.sort ≠ .recent ∧ (position : Int) < offsetLimit := by
      rcases allowed with byOffsets | sorted
      · cases cursors.symm.trans byOffsets
      · exact sorted
    simp only [noOffset, isCursor]
    by_cases first : (position : Int) = 0
    · right
      rw [if_pos first]
      exact ⟨rfl, Int.natCast_eq_zero.mp first⟩
    · left
      rw [if_neg first]
      exact if_pos ⟨sorted, small⟩

theorem cursorResponse_respondsAt (cursors : options.byOffsets = false)
    (reads : options.ReadsAt position pageParam) :
    RespondsAt options server position
      (cursorResponse server.answer options.sort options.query
        (options.pageOptions pageParam)) := by
  unfold cursorResponse
  rw [pageOptions_limit]
  rcases paginationParams_of_readsAt cursors reads with isOffset | ⟨isFirst, rfl⟩
  · rw [isOffset]
    refine ⟨rfl, rfl, fun sorted => ?_⟩
    simp only [if_pos (sorted.resolve_left (by simp [cursors]))]
    rfl
  · rw [isFirst]
    refine ⟨rfl, rfl, fun sorted => ?_⟩
    simp only [if_pos (sorted.resolve_left (by simp [cursors]))]
    rfl

theorem offsetResponse_respondsAt {offset : Option Int}
    (isOffset : offset = some ↑position ∨ (offset = none ∧ position = 0)) :
    RespondsAt options server position
      (offsetResponse server.answer options.query options.pageSize offset) := by
  rcases isOffset with rfl | ⟨rfl, rfl⟩
  · exact ⟨rfl, rfl, fun _ => rfl⟩
  · exact ⟨rfl, rfl, fun _ => rfl⟩

theorem fetchUserVideos_respondsAt {pubkey : Given} (profile : options.feedType = .profile pubkey)
    (reads : options.ReadsAt position pageParam) :
    RespondsAt options server position
      (fetchUserVideos server.answer pubkey (options.pageOptions pageParam)) := by
  obtain ⟨noBefore, noOffset⟩ := getFetchOptions_page options
  have position' : ((options.pageOptions pageParam).offset <|>
      (options.pageOptions pageParam).before).getD 0 = position := by
    match pageParam, reads with
    | none, isFirst =>
      simp only [Options.pageOptions, noBefore, noOffset]
      exact (congrArg Nat.cast isFirst).symm
    | some (.offset offset), ⟨isOffset, _⟩ =>
      simp only [Options.pageOptions]
      split
      · exact isOffset
      · simp only [noOffset]
        exact isOffset
    | some (.cursor cursor), ⟨isCursor, _, _⟩ =>
      simp only [Options.pageOptions, noOffset]
      split
      · rename_i zero
        exact zero.symm.trans isCursor
      · exact isCursor
  have sort : (options.pageOptions pageParam).sort = some options.sort := by
    unfold Options.pageOptions Options.getFetchOptions Options.sort
    rw [profile]
    split
    · rfl
    · rfl
    · split <;> rfl
  unfold fetchUserVideos
  rw [position', pageOptions_limit, sort]
  have query : options.query = ⟨.userVideos pubkey, some options.sort, none, none, none, none, none,
      none⟩ := by
    unfold Options.query
    rw [profile]
  rw [← query]
  apply offsetResponse_respondsAt
  by_cases zero : (position : Int) = 0
  · exact .inr ⟨if_pos zero, Int.natCast_eq_zero.mp zero⟩
  · exact .inl (if_neg zero)

theorem fetchRecommendations_respondsAt {user : Given}
    (recommends : options.feedType = .recommendations user)
    (reads : options.ReadsAt position pageParam) :
    RespondsAt options server position (options.queryFn server.answer pageParam) := by
  have query : options.query = ⟨.userRecommendations user, none, none, none, none, none, none,
      some "popular"⟩ := by
    unfold Options.query
    rw [recommends]
  unfold Options.queryFn
  rw [recommends]
  show RespondsAt _ _ _ (offsetResponse _ ⟨.userRecommendations user, none, none, none, none, none,
    none, some "popular"⟩ _ _)
  rw [← query]
  apply offsetResponse_respondsAt
  match pageParam, reads with
  | none, isFirst => exact .inl (congrArg (fun n : Nat => some (n : Int)) isFirst.symm)
  | some (.offset offset), ⟨isOffset, _⟩ => exact .inl (congrArg some isOffset)
  | some (.cursor cursor), ⟨_, timestamp, _⟩ =>
    unfold Options.cursorType at timestamp
    rw [recommends] at timestamp
    cases timestamp

theorem queryFn_respondsAt (reads : options.ReadsAt position pageParam) :
    RespondsAt options server position (options.queryFn server.answer pageParam) := by
  cases cursors : options.byOffsets with
  | false =>
    rw [queryFn_of_cursors server.answer cursors]
    exact cursorResponse_respondsAt cursors reads
  | true =>
    cases feed : options.feedType with
    | profile pubkey =>
      have videos := @fetchUserVideos_respondsAt server options pageParam position pubkey feed reads
      unfold Options.queryFn
      rw [feed]
      exact videos
    | recommendations user => exact fetchRecommendations_respondsAt feed reads
    | trending | recent | classics | hashtag | home => simp [Options.byOffsets, feed] at cursors

end Requests

/-! ### Pages by offsets -/

section Offsets

variable {server : Server} {options : Options} {pageParam : Option PageParam}
  {position count index : Nat}

/-- The page parameter for a number that the client gave as the cursor. -/
def Options.param (options : Options) (cursor : Int) : PageParam :=
  if options.cursorType = .offset then .offset cursor else .cursor cursor

def Options.cursorAt (options : Options) (index : Nat) : Option PageParam × Nat :=
  (if index = 0 then options.initialPageParam
    else some (options.param ↑(index * options.pageSize)), index)

section

variable (unwrapped : options.totalPages = 0)

include unwrapped

theorem fetchPage_of_unwrapped :
    options.fetchPage server.answer (pageParam, count) =
      ((options.queryFn server.answer pageParam).videos,
        if (options.queryFn server.answer pageParam).hasMore then
          (options.queryFn server.answer pageParam).nextCursor.map fun cursor =>
            (some (options.param cursor), count + 1)
        else none) := by
  have notWrapped : ¬ (options.randomizeWithinTop ≠ 0 ∧ 0 < options.totalPages) := by
    rw [unwrapped]
    exact fun wrapped => Nat.lt_irrefl 0 wrapped.2
  unfold Options.fetchPage Options.getNextPageParam transformToVideoPage Options.param
  simp only [if_neg notWrapped]
  generalize options.queryFn server.answer pageParam = response
  cases response.hasMore <;> cases response.nextCursor <;> cases options.cursorType <;> rfl

theorem fetchPage_of_respondsAt (offsets : options.byOffsets = true ∨ options.sort ≠ .recent)
    (responds : RespondsAt options server position (options.queryFn server.answer pageParam)) :
    options.fetchPage server.answer (pageParam, count) =
      (slice (options.rows server) position options.pageSize,
        if position + options.pageSize ≤ (options.rows server).length then
          some (some (options.param ↑(position + options.pageSize)), count + 1)
        else none) := by
  rw [fetchPage_of_unwrapped unwrapped, responds.hasMore, responds.nextCursor offsets,
    responds.videos, length_slice]
  by_cases full : position + options.pageSize ≤ (options.rows server).length
  · have enough : options.pageSize ≤
        min options.pageSize ((options.rows server).length - position) := by omega
    have size : min options.pageSize ((options.rows server).length - position) =
        options.pageSize := by omega
    rw [if_pos full, decide_eq_true enough, if_pos rfl, if_pos enough, size]
    rfl
  · have positive := options.positive
    have few : ¬ options.pageSize ≤
        min options.pageSize ((options.rows server).length - position) := by omega
    rw [if_neg full, decide_eq_false few]
    rfl

theorem randomStartPage_of_unwrapped :
    options.randomStartPage = 0 := by
  rcases options.drawn with first | below
  · exact first
  · have none : options.randomizeWithinTop / options.pageSize = 0 := unwrapped
    omega

theorem readsAt_initial :
    options.ReadsAt 0 options.initialPageParam := by
  unfold Options.initialPageParam
  split
  · rename_i randomized
    refine ⟨?_, .inl randomized⟩
    unfold Options.randomStartOffset
    rw [randomStartPage_of_unwrapped unwrapped, Nat.zero_mul]
  · rfl

section

variable (offsets : options.byOffsets = true ∨ options.sort ≠ .recent ∧
  (↑(index * options.pageSize) : Int) < offsetLimit)

include offsets

theorem readsAt_cursorAt :
    options.ReadsAt (index * options.pageSize) (options.cursorAt index).1 := by
  unfold Options.cursorAt
  by_cases first : index = 0
  · subst first
    rw [if_pos rfl, Nat.zero_mul]
    exact readsAt_initial unwrapped
  · simp only [if_neg first]
    unfold Options.param
    split
    · rename_i offset
      refine ⟨rfl, .inr ?_⟩
      unfold Options.cursorType at offset
      unfold Options.byOffsets
      split at offset
      · rename_i feed
        rw [feed]
      · cases offset
    · rename_i timestamp
      refine ⟨rfl, ?_, offsets⟩
      cases type : options.cursorType with
      | timestamp => rfl
      | offset => exact absurd type timestamp

theorem fetchPage_cursorAt :
    options.fetchPage server.answer (options.cursorAt index) =
      (slice (options.rows server) (index * options.pageSize) options.pageSize,
        if (index + 1) * options.pageSize ≤ (options.rows server).length then
          some (options.cursorAt (index + 1)) else none) := by
  refine (fetchPage_of_respondsAt unwrapped (offsets.imp id And.left)
    (queryFn_respondsAt (readsAt_cursorAt unwrapped offsets))).trans ?_
  unfold Options.cursorAt
  rw [if_neg (Nat.succ_ne_zero index), Nat.succ_mul]

end

end

end Offsets

/-! ### Pages by time -/

section Times

variable {server : Server} {options : Options} {pageParam : Option PageParam}
  {cursor : Int} {count other : Nat}

def Options.newest (options : Options) (server : Server) : List FunnelcakeVideoRaw :=
  (server.content options.query).newest

theorem param_of_cursors (cursors : options.byOffsets = false) :
    options.param cursor = .cursor cursor := by
  unfold Options.param Options.cursorType
  unfold Options.byOffsets at cursors
  cases feed : options.feedType with
  | recommendations user => simp [feed] at cursors
  | trending | recent | classics | hashtag | profile | home => rfl

theorem queryFn_before (cursors : options.byOffsets = false) (nonzero : cursor ≠ 0)
    (isTime : options.sort = .recent ∨ offsetLimit ≤ cursor) :
    options.queryFn server.answer (some (.cursor cursor)) =
      { videos := (rowsBefore (options.newest server) cursor).take options.pageSize
        hasMore := options.pageSize ≤ (rowsBefore (options.newest server) cursor).length
        nextCursor :=
          if options.pageSize ≤ (rowsBefore (options.newest server) cursor).length then
            if options.sort ≠ .recent then some ↑options.pageSize
            else ((rowsBefore (options.newest server) cursor).take options.pageSize).getLast?.map
              FunnelcakeVideoRaw.createdAt
          else none } := by
  have params : paginationParams options.sort
      (options.pageOptions (some (.cursor cursor))).before
      (options.pageOptions (some (.cursor cursor))).offset = (some cursor, none) := by
    have notOffset : ¬ (options.sort ≠ .recent ∧ cursor < offsetLimit) := by
      rintro ⟨sorted, small⟩
      rcases isTime with recent | large
      · exact sorted recent
      · omega
    simp only [Options.pageOptions, if_neg nonzero, (getFetchOptions_page options).2]
    exact if_neg notOffset
  have size : options.pageSize ≤
      ((rowsBefore (options.newest server) cursor).take options.pageSize).length ↔
        options.pageSize ≤ (rowsBefore (options.newest server) cursor).length := by
    rw [List.length_take]
    omega
  rw [queryFn_of_cursors server.answer cursors]
  unfold cursorResponse
  rw [params, pageOptions_limit]
  have videos : server.answer ⟨options.query, options.pageSize, some cursor, none⟩ =
      (rowsBefore (options.newest server) cursor).take options.pageSize := rfl
  simp only [videos, size]
  split
  · rename_i full
    rw [List.length_take, Nat.min_eq_left full]
    simp
  · rfl

/-- Only what the first page is asked with matters, not the number of the pages that are there. -/
theorem collects_of_unwrapped (unwrapped : options.totalPages = 0) {otherParam : Option PageParam}
    (same : options.queryFn server.answer pageParam = options.queryFn server.answer otherParam)
    {pages : List (List FunnelcakeVideoRaw)}
    (collects : Collects (options.fetchPage server.answer) (pageParam, count) pages) :
    Collects (options.fetchPage server.answer) (otherParam, other) pages := by
  generalize isCursor : (pageParam, count) = start at collects
  induction collects generalizing pageParam otherParam count other with
  | last answer =>
    subst isCursor
    rw [fetchPage_of_unwrapped unwrapped, same] at answer
    obtain ⟨rfl, ended⟩ := Prod.mk.inj answer
    refine .last ?_
    rw [fetchPage_of_unwrapped unwrapped]
    refine Prod.ext rfl ?_
    split at ended
    · rename_i more
      simp only [if_pos more, Option.map_eq_none_iff.mp ended, Option.map_none]
    · rename_i ends
      exact if_neg ends
  | next answer _ ih =>
    subst isCursor
    rw [fetchPage_of_unwrapped unwrapped, same] at answer
    obtain ⟨rfl, continues⟩ := Prod.mk.inj answer
    split at continues
    · rename_i more
      obtain ⟨cursor, isNext, rfl⟩ := Option.map_eq_some_iff.mp continues
      refine @Collects.next _ _ _ _ (some (options.param cursor), other + 1) _ _ ?_
        (ih rfl rfl)
      rw [fetchPage_of_unwrapped unwrapped, if_pos more, isNext]
      rfl
    · cases continues

end Times

end Divine.Funnelcake
