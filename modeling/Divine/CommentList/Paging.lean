/-
This file settles when all comments are loaded, one page after another.
-/

import Divine.CommentList.Bloc

namespace Divine.CommentList

open CommentsRepository Interleaving Models Sorting Transition

/-! ### The repository -/

def createdAtOf (comment : Comment) : Int := comment.createdAt.millisecondsSinceEpoch

def datedBy (before : Option DateTime) (comment : Comment) : Bool :=
  before.all fun time => createdAtOf comment ≤ time.millisecondsSinceEpoch

structure NewestPage (all : CommentMap) (before : Option DateTime)
    (page : List Comment) : Prop where
  subset : ∀ comment ∈ page, comment ∈ all ∧ datedBy before comment = true
  distinct : page.Nodup
  length : page.length = min pageSize (all.values.countP (datedBy before))
  newest : ∀ comment ∈ all, datedBy before comment = true → comment ∉ page →
    ∀ other ∈ page, createdAtOf comment ≤ createdAtOf other

/-- The comments on a root, the answers of the repository, and what is given at each request for
more. -/
structure Session where
  all : CommentMap
  answer : Nat → Option DateTime → List Comment
  newestPage : ∀ request before, NewestPage all before (answer request before)
  sortMode : Nat → CommentsSortMode
  commentUpvoteCounts : Nat → List (String × Int)
  now : Nat → Int

namespace Session

variable {Score : Type} [LinearOrder Score] (services : Services Score) (session : Session)

/-! ### Requests -/

/-- The state when more is requested, after the votes and the sort mode changed. -/
def shown (request : Nat) (state : CommentsState) : CommentsState :=
  { state.copyWith none with
    commentUpvoteCounts := session.commentUpvoteCounts request
    sortMode := session.sortMode request }

def lastShown (request : Nat) (state : CommentsState) : Option Comment :=
  ((session.shown request state).comments services.divide (session.now request)
    services.order).getLast?

def page (request : Nat) (state : CommentsState) : List Comment :=
  session.answer (request + 1) ((session.lastShown services request state).map Comment.createdAt)

def loadMore (request : Nat) (state : CommentsState) : CommentsState :=
  let shown := session.shown request state
  if shown.loadsMore then
    shown.loadingMore.loadedMore services.initialTotalCount (session.page services request state)
  else shown

/-- The state after the comments were loaded and more was requested so many times. -/
def states : Nat → CommentsState
  | 0 => ({ status := .loading } : CommentsState).loaded services.initialTotalCount
      (session.answer 0 none)
  | request + 1 => session.loadMore services request (states request)

def held (request : Nat) : CommentMap := (session.states services request).commentsById

/-- No total is known, and there is less than a page, or more is requested from one of the oldest
comments; or a total is known that is not too large, and no page comes short of what is missing. -/
def Reaches : Prop :=
  match services.initialTotalCount with
  | none => session.all.values.length < pageSize ∨ ∃ request last,
      session.lastShown services request (session.states services request) = some last ∧
        session.all.values.countP (datedBy (some last.createdAt)) < pageSize
  | some total => total ≤ session.all.values.length ∧
      (session.all.values.length ≤ pageSize ∨ ∃ request,
        ((session.held services request).values.length : Int) < total ∧
          ∀ comment ∈ session.all, comment ∉ session.held services request →
            comment ∈ session.page services request (session.states services request))

end Session

/-! ### Comments of one set -/

namespace CommentMap

variable {comments all : CommentMap} {more : List Comment} {comment : Comment}

section

variable (within : ∀ held ∈ comments, held ∈ all)

include within

theorem mem_putAll (subset : ∀ added ∈ more, added ∈ all) :
    comment ∈ comments.putAll more ↔ comment ∈ comments ∨ comment ∈ more := by
  induction more generalizing comments with
  | nil => exact (or_iff_left List.not_mem_nil).symm
  | cons first rest ih =>
    have own : first ∈ all := subset first List.mem_cons_self
    have after : ∀ held ∈ comments.put first, held ∈ all := by
      intro held member
      rcases mem_put.mp member with rfl | ⟨old, _⟩
      · exact own
      · exact within held old
    refine (ih after fun added member =>
      subset added (List.mem_cons_of_mem first member)).trans ?_
    rw [mem_put, List.mem_cons]
    constructor
    · rintro ((rfl | ⟨old, _⟩) | later)
      · exact .inr (.inl rfl)
      · exact .inl old
      · exact .inr (.inr later)
    · rintro (old | rfl | later)
      · by_cases same : comment.id = first.id
        · exact .inl (.inl (eq_of_id (within comment old) own same))
        · exact .inl (.inr ⟨old, same⟩)
      · exact .inl (.inl rfl)
      · exact .inr later

theorem subperm_values :
    comments.values.Subperm all.values :=
  List.subperm_of_subset comments.nodup_values within

theorem length_le :
    comments.values.length ≤ all.values.length := (subperm_values within).length_le

theorem length_eq (whole : ∀ held ∈ all, held ∈ comments) :
    comments.values.length = all.values.length :=
  Nat.le_antisymm (length_le within) (length_le whole)

end

end CommentMap

/-! ### Pages -/

namespace NewestPage

variable {all : CommentMap} {before : Option DateTime} {page : List Comment} {comment : Comment}

end NewestPage

namespace Session

variable {Score : Type} [LinearOrder Score] {services : Services Score} {session : Session}
  {request : Nat}

/-- The list before a request: everything that is missing is at most as new as everything in it. -/
structure Paged (services : Services Score) (session : Session) (request : Nat) : Prop where
  status : (session.states services request).status = .success
  idle : (session.states services request).isLoadingMore = false
  within : ∀ comment ∈ session.held services request, comment ∈ session.all
  older : ∀ comment ∈ session.all, comment ∉ session.held services request →
    ∀ other ∈ session.held services request, createdAtOf comment ≤ createdAtOf other

theorem mem_page (services : Services Score) (session : Session) (request : Nat) :
    ∀ comment ∈ session.page services request (session.states services request),
      comment ∈ session.all := fun comment member =>
  ((session.newestPage _ _).subset comment member).1

theorem mem_of_lastShown {last : Comment}
    (shown : session.lastShown services request (session.states services request) = some last) :
    last ∈ session.held services request :=
  services.order.mem_sort.mp (List.mem_of_getLast? shown)

/-- The request is made when there is more and something was loaded. -/
def Active (services : Services Score) (session : Session) (request : Nat) : Prop :=
  (session.states services request).hasMoreContent = true ∧
    (session.held services request).values ≠ []

namespace Paged

section

variable (paged : Paged services session request)

include paged

theorem datedBy_missing {comment : Comment}
    (member : comment ∈ session.all) (missing : comment ∉ session.held services request) :
    datedBy ((session.lastShown services request (session.states services request)).map
      Comment.createdAt) comment = true := by
  cases shown : session.lastShown services request (session.states services request) with
  | none => rfl
  | some last =>
    exact decide_eq_true (paged.older comment member missing last (mem_of_lastShown shown))

theorem loadsMore_shown :
    (session.shown request (session.states services request)).loadsMore = true ↔
      Active services session request := by
  have status := paged.status
  have idle := paged.idle
  simp only [shown, CommentsState.loadsMore, CommentsState.copyWith, status, idle, Active, held]
  simp

theorem states_of_active (active : Active services session request) :
    session.states services (request + 1) =
      (session.shown request (session.states services request)).loadingMore.loadedMore
        services.initialTotalCount
        (session.page services request (session.states services request)) :=
  if_pos (paged.loadsMore_shown.mpr active)

theorem states_of_not_active (skipped : ¬ Active services session request) :
    session.states services (request + 1) =
      session.shown request (session.states services request) :=
  if_neg fun loads => skipped (paged.loadsMore_shown.mp loads)

theorem mem_held_succ (active : Active services session request) {comment : Comment} :
    comment ∈ session.held services (request + 1) ↔ comment ∈ session.held services request ∨
      comment ∈ session.page services request (session.states services request) := by
  unfold held
  rw [paged.states_of_active active]
  exact CommentMap.mem_putAll paged.within (mem_page services session request)

theorem succ : Paged services session (request + 1) := by
  by_cases active : Active services session request
  · refine ⟨?_, ?_, ?_, ?_⟩
    · rw [paged.states_of_active active]
      dsimp only [CommentsState.loadedMore, CommentsState.loadingMore, CommentsState.copyWith, shown]
      exact paged.status
    · rw [paged.states_of_active active]
      rfl
    · intro comment member
      rcases (paged.mem_held_succ active).mp member with old | added
      · exact paged.within comment old
      · exact mem_page services session request comment added
    · intro comment member missing other inside
      rw [paged.mem_held_succ active, not_or] at missing
      rcases (paged.mem_held_succ active).mp inside with old | added
      · exact paged.older comment member missing.1 other old
      · exact (session.newestPage _ _).newest comment member
          (paged.datedBy_missing member missing.1) missing.2 other added
  · have same := paged.states_of_not_active active
    refine ⟨?_, ?_, ?_, ?_⟩
    · rw [same]
      exact paged.status
    · rw [same]
      exact paged.idle
    · unfold held
      rw [same]
      exact paged.within
    · unfold held
      rw [same]
      exact paged.older

end

end Paged

/-! ### The first page -/

theorem mem_held_zero {comment : Comment} :
    comment ∈ session.held services 0 ↔ comment ∈ session.answer 0 none := by
  have put := @CommentMap.mem_putAll .empty session.all (session.answer 0 none) comment
    (fun held absent => absurd absent CommentMap.not_mem_empty)
    fun added member => ((session.newestPage 0 none).subset added member).1
  exact put.trans (or_iff_right CommentMap.not_mem_empty)

theorem paged_zero : Paged services session 0 where
  status := rfl
  idle := rfl
  within comment member := ((session.newestPage 0 none).subset comment (mem_held_zero.mp member)).1
  older comment member missing other inside :=
    (session.newestPage 0 none).newest comment member rfl
      (fun found => missing (mem_held_zero.mpr found))
      other (mem_held_zero.mp inside)

theorem paged (services : Services Score) (session : Session) (request : Nat) :
    Paged services session request := by
  induction request with
  | zero => exact paged_zero
  | succ request ih => exact ih.succ

section

variable (unknown : services.initialTotalCount = none)

include unknown

end

/-! ### With a total -/

end Session

/-! ### A session -/

end Divine.CommentList
