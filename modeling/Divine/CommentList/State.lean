/-
This file models the state of the list of comments on a video: the comments by their ids,
the order they are shown in, and the counts of replies that are kept beside them.
-/

import Divine.CommentsRepository.Comments

namespace Divine.CommentList

open CommentsRepository Dictionary Models Sorting

/-! ### Comments by their ids -/

/-- Comments under their ids, in the order in which the ids were put in. -/
structure CommentMap where
  values : List Comment
  distinct : (values.map Comment.id).Nodup
  deriving DecidableEq

namespace CommentMap

def empty : CommentMap := ⟨[], List.nodup_nil⟩

variable (comments : CommentMap) (comment : Comment) (id : String)

def containsKey : Bool := comments.values.any fun other => other.id = id

def find : Option Comment := comments.values.find? fun other => other.id = id

def valuesWith : List Comment :=
  if comments.containsKey comment.id then
    comments.values.map fun other => if other.id = comment.id then comment else other
  else comments.values ++ [comment]

theorem ids_valuesWith : (comments.valuesWith comment).map Comment.id =
    if comments.containsKey comment.id then comments.values.map Comment.id
    else comments.values.map Comment.id ++ [comment.id] := by
  unfold valuesWith
  split
  · rw [List.map_map]
    refine List.map_congr_left fun other _ => ?_
    by_cases same : other.id = comment.id
    · rw [Function.comp_apply, if_pos same, same]
    · rw [Function.comp_apply, if_neg same]
  · rw [List.map_append, List.map_singleton]

theorem containsKey_iff : comments.containsKey id = true ↔ id ∈ comments.values.map Comment.id := by
  simp [containsKey]

def put : CommentMap where
  values := comments.valuesWith comment
  distinct := by
    rw [ids_valuesWith]
    split
    · exact comments.distinct
    · rename_i absent
      rw [containsKey_iff] at absent
      exact List.nodup_append.mpr ⟨comments.distinct, List.nodup_singleton _, fun _ inside _ last =>
        fun same => absent (List.mem_singleton.mp last ▸ same ▸ inside)⟩

def putAll (more : List Comment) : CommentMap := more.foldl put comments

def filter (keeps : Comment → Bool) : CommentMap where
  values := comments.values.filter keeps
  distinct := comments.distinct.sublist (List.filter_sublist.map _)

def remove : CommentMap := comments.filter fun other => other.id ≠ id

instance instMembership : Membership Comment CommentMap :=
  ⟨fun comments comment => comment ∈ comments.values⟩

variable {comments comment id} {other : Comment}

theorem eq_of_id (first : comment ∈ comments) (second : other ∈ comments)
    (same : comment.id = other.id) : comment = other :=
  List.inj_on_of_nodup_map comments.distinct first second same

theorem id_of_find (found : comments.find id = some comment) : comment.id = id := by
  have own := List.find?_some found
  exact of_decide_eq_true own

theorem find_eq_some : comments.find id = some comment ↔ comment ∈ comments ∧ comment.id = id := by
  constructor
  · intro found
    exact ⟨List.mem_of_find?_eq_some found, id_of_find found⟩
  · rintro ⟨member, rfl⟩
    cases found : comments.find comment.id with
    | none =>
      have absent := List.find?_eq_none.mp found comment member
      simp at absent
    | some other => rw [eq_of_id (List.mem_of_find?_eq_some found) member (id_of_find found)]

@[simp] theorem mem_put : other ∈ comments.put comment ↔
    other = comment ∨ other ∈ comments ∧ other.id ≠ comment.id := by
  show other ∈ comments.valuesWith comment ↔ _
  unfold valuesWith
  split
  · rename_i present
    rw [containsKey_iff] at present
    obtain ⟨held, member, own⟩ := List.mem_map.mp present
    rw [List.mem_map]
    constructor
    · rintro ⟨before, inside, rfl⟩
      by_cases same : before.id = comment.id
      · exact .inl (if_pos same)
      · rw [if_neg same]
        exact .inr ⟨inside, same⟩
    · rintro (rfl | ⟨inside, differs⟩)
      · exact ⟨held, member, if_pos own⟩
      · exact ⟨other, inside, if_neg differs⟩
  · rename_i absent
    rw [containsKey_iff] at absent
    rw [List.mem_append, List.mem_singleton, or_comm]
    refine or_congr_right ⟨fun inside => ⟨inside, fun same => absent ?_⟩, And.left⟩
    exact same ▸ List.mem_map_of_mem inside

@[simp] theorem mem_filter {keeps : Comment → Bool} :
    comment ∈ comments.filter keeps ↔ comment ∈ comments ∧ keeps comment = true :=
  List.mem_filter

@[simp] theorem mem_remove : comment ∈ comments.remove id ↔ comment ∈ comments ∧
    comment.id ≠ id := by
  simp [remove]

@[simp] theorem not_mem_empty : comment ∉ empty := List.not_mem_nil

theorem nodup_values (comments : CommentMap) : comments.values.Nodup := comments.distinct.of_map _

theorem perm_put : (comments.put comment).values.Perm
    (comment :: (comments.remove comment.id).values) := by
  have fresh : comment ∉ comments.remove comment.id := fun inside => (mem_remove.mp inside).2 rfl
  refine (List.perm_ext_iff_of_nodup (nodup_values _)
    (List.nodup_cons.mpr ⟨fresh, nodup_values _⟩)).mpr fun other => ?_
  rw [List.mem_cons]
  exact mem_put.trans (or_congr_right mem_remove.symm)

theorem perm_find (comments : CommentMap) (id : String) :
    comments.values.Perm ((comments.find id).toList ++ (comments.remove id).values) := by
  have fresh : ∀ other ∈ (comments.find id).toList, other ∉ comments.remove id := by
    intro other found inside
    exact (mem_remove.mp inside).2 (find_eq_some.mp (Option.mem_toList.mp found)).2
  refine (List.perm_ext_iff_of_nodup (nodup_values _) (List.nodup_append.mpr
    ⟨(comments.find id).toList_nodup, nodup_values _, ?_⟩)).mpr fun other => ?_
  · rintro first found second inside rfl
    exact fresh first found inside
  · rw [List.mem_append, Option.mem_toList]
    by_cases own : other.id = id
    · constructor
      · exact fun inside => .inl (find_eq_some.mpr ⟨inside, own⟩)
      · rintro (found | inside)
        · exact (find_eq_some.mp found).1
        · exact absurd own (mem_remove.mp inside).2
    · constructor
      · exact fun inside => .inr (mem_remove.mpr ⟨inside, own⟩)
      · rintro (found | inside)
        · exact (find_eq_some.mp found).1
        · exact (mem_remove.mp inside).1

end CommentMap

/-! ### The state -/

inductive CommentsStatus where
  | initial | loading | success | failure
  deriving DecidableEq

inductive CommentsError where
  | loadFailed | notAuthenticated | postCommentFailed | postReplyFailed | deleteCommentFailed
  | voteFailed | reportFailed | blockFailed
  deriving DecidableEq

inductive CommentsSortMode where
  | newest | oldest | topEngagement
  deriving DecidableEq

structure CommentsState where
  status : CommentsStatus := .initial
  rootEventId : String := ""
  rootEventKind : Nat := 0
  rootAuthorPubkey : String := ""
  rootAddressableId : Option String := none
  commentsById : CommentMap := .empty
  error : Option CommentsError := none
  mainInputText : String := ""
  replyInputText : String := ""
  activeReplyCommentId : Option String := none
  isPosting : Bool := false
  isLoadingMore : Bool := false
  hasMoreContent : Bool := true
  commentUpvoteCounts : List (String × Int) := []
  sortMode : CommentsSortMode := .newest
  replyCountsByCommentId : List (String × Int) := []
  activeMentions : List (String × String) := []
  activeEditCommentId : Option String := none
  editInputText : String := ""
  newCommentCount : Nat := 0
  deriving DecidableEq

namespace CommentsState

variable (state : CommentsState)

def copyWith (error : Option CommentsError) : CommentsState := { state with error := error }

def clearActiveReply (commentsById : CommentMap) (isPosting : Bool) : CommentsState :=
  { state with
    commentsById := commentsById
    isPosting := isPosting
    error := none
    replyInputText := ""
    activeReplyCommentId := none
    activeMentions := [] }

def clearEditMode (commentsById : CommentMap) (isPosting : Bool)
    (replyCountsByCommentId : List (String × Int)) : CommentsState :=
  { state with
    commentsById := commentsById
    isPosting := isPosting
    replyCountsByCommentId := replyCountsByCommentId
    error := none
    activeEditCommentId := none
    editInputText := "" }

end CommentsState

/-! ### Replies -/

def parentId (comment : Comment) : Option String := comment.replyToEventId.filter fun id => id ≠ ""

def countReply (counts : List (String × Int)) (comment : Comment) : List (String × Int) :=
  match parentId comment with
  | some id => Dictionary.put counts id ((Dictionary.find counts id).getD 0 + 1)
  | none => counts

def computeReplyCounts (comments : CommentMap) : List (String × Int) :=
  comments.values.foldl countReply []

def countOf (counts : List (String × Int)) (id : String) : Int := (Dictionary.find counts id).getD 0

def replies (comments : CommentMap) (id : String) : Nat :=
  comments.values.countP fun comment => parentId comment = some id

theorem countOf_foldl_countReply (comments : List Comment) (counts : List (String × Int))
    (id : String) : countOf (comments.foldl countReply counts) id =
      countOf counts id + comments.countP fun comment => parentId comment = some id := by
  induction comments generalizing counts with
  | nil => exact (Int.add_zero _).symm
  | cons comment rest ih =>
    rw [List.foldl_cons, ih, List.countP_cons, countReply]
    cases target : parentId comment with
    | none => simp
    | some parent =>
      by_cases same : parent = id
      · simp only [countOf, find_put, Option.getD_some, same, decide_true, if_true]
        omega
      · simp [countOf, find_put, same]

theorem countOf_computeReplyCounts (comments : CommentMap) (id : String) :
    countOf (computeReplyCounts comments) id = replies comments id := by
  rw [computeReplyCounts, countOf_foldl_countReply]
  exact Int.zero_add _

/-! ### The order -/

section Order

def compareTo {Value : Type*} [LinearOrder Value] (first second : Value) : Int :=
  if first < second then -1 else if first = second then 0 else 1

theorem compareTo_neg {Value : Type*} [LinearOrder Value] {first second : Value} :
    compareTo first second < 0 ↔ first < second := by
  unfold compareTo
  split_ifs with less same
  · exact iff_of_true (by decide) less
  · exact iff_of_false (by decide) less
  · exact iff_of_false (by decide) less

theorem compareTo_pos {Value : Type*} [LinearOrder Value] {first second : Value} :
    0 < compareTo first second ↔ second < first := by
  unfold compareTo
  split_ifs with less same
  · exact iff_of_false (by decide) less.asymm
  · exact iff_of_false (by decide) (same ▸ lt_irrefl _)
  · exact iff_of_true (by decide) ((Ne.symm same).lt_of_le (not_lt.mp less))

theorem compareTo_nonpos {Value : Type*} [LinearOrder Value] {first second : Value} :
    compareTo first second ≤ 0 ↔ first ≤ second := by
  rw [← Int.not_lt, compareTo_pos, not_lt]

theorem isOrder_compareTo {Item Value : Type*} [LinearOrder Value] (value : Item → Value)
    (items : List Item) : IsOrder (fun first second => compareTo (value first) (value second))
      items where
  opposite _ _ _ _ := compareTo_neg.trans compareTo_pos.symm
  trans _ _ _ _ _ _ before after :=
    compareTo_nonpos.mpr ((compareTo_nonpos.mp before).trans (compareTo_nonpos.mp after))

theorem isOrder_compareTo_swap {Item Value : Type*} [LinearOrder Value] (value : Item → Value)
    (items : List Item) : IsOrder (fun first second => compareTo (value second) (value first))
      items where
  opposite _ _ _ _ := compareTo_neg.trans compareTo_pos.symm
  trans _ _ _ _ _ _ before after :=
    compareTo_nonpos.mpr ((compareTo_nonpos.mp after).trans (compareTo_nonpos.mp before))

-- the engagement over the age in minutes is a number of double precision, and these are ordered
variable {Score : Type} [LinearOrder Score] (divide : Int → Int → Score)

def engagementScore (comment : Comment) (now : Int) (likeCounts replyCounts : List (String × Int)) :
    Score :=
  let netScore := (Dictionary.find likeCounts comment.id).getD 0
  let replies := (Dictionary.find replyCounts comment.id).getD 0
  let engagement := max 0 netScore + replies * 2
  divide engagement ((now - comment.createdAt.millisecondsSinceEpoch).tdiv 60000)

namespace CommentsState

variable (state : CommentsState) (now : Int)

def commentComparator (first second : Comment) : Int :=
  match state.sortMode with
  | .newest =>
    compareTo second.createdAt.millisecondsSinceEpoch first.createdAt.millisecondsSinceEpoch
  | .oldest =>
    compareTo first.createdAt.millisecondsSinceEpoch second.createdAt.millisecondsSinceEpoch
  | .topEngagement =>
      let score := fun comment =>
        engagementScore divide comment now state.commentUpvoteCounts state.replyCountsByCommentId
      compareTo (score second) (score first)

theorem isOrder_commentComparator (items : List Comment) :
    IsOrder (state.commentComparator divide now) items := by
  unfold commentComparator
  cases state.sortMode with
  | newest => exact isOrder_compareTo_swap _ items
  | oldest => exact isOrder_compareTo _ items
  | topEngagement => exact isOrder_compareTo_swap _ items

def comments (order : ComparisonSort Comment) : List Comment :=
  order.sort (state.commentComparator divide now) state.commentsById.values

end CommentsState

end Order

end Divine.CommentList
