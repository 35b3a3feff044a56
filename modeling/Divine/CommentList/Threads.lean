/-
This file settles the threaded view of the comments.
-/

import Divine.CommentList.State
import Divine.Library.Forest

namespace Divine.CommentList

open CommentsRepository Dictionary Fallible Forest Sorting

/-! ### The view -/

structure CommentNode where
  comment : Comment
  replies : List CommentNode
  depth : Nat

/-- The comment that another one is shown below: the one that it replies to, when it is there. -/
def attachedTo (comments : CommentMap) (comment : Comment) : Option String :=
  (parentId comment).filter comments.containsKey

/-- The comments that are shown below others, and those that are not. -/
structure Grouping where
  childrenMap : List (String × List Comment) := []
  rootComments : List Comment := []

namespace Grouping

def add (comments : CommentMap) (grouping : Grouping) (comment : Comment) : Grouping :=
  match attachedTo comments comment with
  | none => { grouping with rootComments := grouping.rootComments ++ [comment] }
  | some parentId =>
      { grouping with
        childrenMap := put grouping.childrenMap parentId
          ((find grouping.childrenMap parentId).getD [] ++ [comment]) }

def of (comments : CommentMap) : Grouping := comments.values.foldl (add comments) {}

def children (grouping : Grouping) (id : String) : List Comment :=
  (find grouping.childrenMap id).getD []

end Grouping

section Tree

variable (sorted : List Comment → List Comment) (grouping : Grouping)

/-- `buildNodes`, which gives nothing when the recursion is deeper than some bound. -/
def buildNodes : Nat → List Comment → Nat → Option (List CommentNode)
  | 0, _, _ => none
  | bound + 1, comments, depth =>
      (sorted comments).mapM fun comment =>
        (buildNodes bound (grouping.children comment.id) (depth + 1)).map fun replies =>
          ⟨comment, replies, depth⟩

end Tree

mutual

/-- One turn of the loop of `flatten`, with what it adds to the result. -/
def flattenNode : CommentNode → List CommentNode
  | ⟨comment, replies, depth⟩ => ⟨comment, replies, depth⟩ :: flatten replies

def flatten : List CommentNode → List CommentNode
  | [] => []
  | node :: rest => flattenNode node ++ flatten rest

end

section Order

variable {Score : Type} [LinearOrder Score] (divide : Int → Int → Score)
  (order : ComparisonSort Comment)

def CommentsState.threadedComments (state : CommentsState) (now : Int) (bound : Nat) :
    Option (List CommentNode) :=
  let grouping := Grouping.of state.commentsById
  (buildNodes (order.sort (state.commentComparator divide now)) grouping bound
    grouping.rootComments 0).map flatten

end Order

/-! ### The tree -/

def CommentNode.shown (node : CommentNode) : Comment × Nat := (node.comment, node.depth)

section Tree

variable {sorted : List Comment → List Comment} {grouping : Grouping} {bound depth : Nat}
  {comments : List Comment} {nodes : List CommentNode}

theorem buildNodes_of_le {greater : Nat} (less : bound ≤ greater)
    (built : buildNodes sorted grouping bound comments depth = some nodes) :
    buildNodes sorted grouping greater comments depth = some nodes := by
  induction bound generalizing greater comments depth nodes with
  | zero => cases built
  | succ bound ih =>
    obtain ⟨greater, rfl⟩ := Nat.exists_eq_add_of_le' (Nat.lt_of_lt_of_le (Nat.succ_pos bound) less)
    rw [buildNodes, mapM_eq_some_iff] at built
    rw [buildNodes, mapM_eq_some_iff]
    obtain ⟨each, rfl⟩ := built
    have same : ∀ comment ∈ sorted comments,
        (buildNodes sorted grouping greater (grouping.children comment.id) (depth + 1)).map
            (fun replies => (⟨comment, replies, depth⟩ : CommentNode)) =
          (buildNodes sorted grouping bound (grouping.children comment.id) (depth + 1)).map
            fun replies => ⟨comment, replies, depth⟩ := by
      intro comment member
      obtain ⟨replies, below⟩ := Option.isSome_iff_exists.mp
        (Option.isSome_map.symm.trans (each comment member))
      rw [below, ih (Nat.le_of_succ_le_succ less) below]
    refine ⟨fun comment member => ?_, (List.filterMap_congr same).symm⟩
    rw [same comment member]
    exact each comment member

theorem flatten_cons (node : CommentNode) (rest : List CommentNode) :
    flatten (node :: rest) = node :: (flatten node.replies ++ flatten rest) := by
  cases node
  rfl

theorem listed_flatten (built : buildNodes sorted grouping bound comments depth = some nodes) :
    Listed (fun comment => sorted (grouping.children comment.id)) depth (sorted comments)
      ((flatten nodes).map CommentNode.shown) := by
  induction bound generalizing comments depth nodes with
  | zero => cases built
  | succ bound ih =>
    rw [buildNodes, mapM_eq_some_iff] at built
    obtain ⟨each, rfl⟩ := built
    generalize sorted comments = items at each
    induction items with
    | nil => exact .nil
    | cons item rest inRest =>
      obtain ⟨replies, below⟩ := Option.isSome_iff_exists.mp
        (Option.isSome_map.symm.trans (each item List.mem_cons_self))
      rw [List.filterMap_cons, below, Option.map_some, flatten_cons, List.map_cons,
        List.map_append]
      exact .cons (ih below)
        (inRest fun other member => each other (List.mem_cons_of_mem item member))

/-- The tree of siblings is built when the bound exceeds the number of items by what is above
them. -/
theorem exists_buildNodes {links : Links Comment} {above : List Comment}
    (ordered : ∀ comment, links.children comment = sorted (grouping.children comment.id))
    (related : Siblings links above (sorted comments)) (inside : above.length ≤ links.items.length)
    (enough : links.items.length < above.length + bound) :
    ∃ nodes, buildNodes sorted grouping bound comments depth = some nodes := by
  induction bound generalizing above comments depth with
  | zero => exact absurd enough (Nat.not_lt_of_le inside)
  | succ bound ih =>
    rw [buildNodes, ← Option.isSome_iff_exists, mapM_isSome_iff]
    intro comment member
    have ancestors := related.ancestors comment member
    have below := siblings_children ancestors
    rw [ordered] at below
    obtain ⟨replies, built⟩ := @ih (depth + 1) _ _ below ancestors.length_lt
      (by rw [List.length_cons]; omega)
    rw [built]
    rfl

end Tree

/-! ### The links -/

section Links

variable {comments : CommentMap} {comment reply parent : Comment} {id : String}

theorem attachedTo_eq_some : attachedTo comments comment = some id ↔
    parentId comment = some id ∧ ∃ parent ∈ comments, parent.id = id := by
  rw [attachedTo, Option.filter_eq_some_iff, CommentMap.containsKey_iff, List.mem_map]
  rfl

theorem children_foldl_add (values : List Comment) (grouping : Grouping) (id : String) :
    (values.foldl (Grouping.add comments) grouping).children id =
      grouping.children id ++ values.filter fun comment =>
        attachedTo comments comment = some id := by
  induction values generalizing grouping with
  | nil => exact (List.append_nil _).symm
  | cons comment rest ih =>
    rw [List.foldl_cons, ih, List.filter_cons, Grouping.add]
    cases attached : attachedTo comments comment with
    | none => simp [Grouping.children]
    | some parent =>
      by_cases same : parent = id
      · simp [Grouping.children, find_put, same]
      · simp [Grouping.children, find_put, same]

theorem children_of (id : String) : (Grouping.of comments).children id =
    comments.values.filter fun comment => attachedTo comments comment = some id :=
  children_foldl_add comments.values {} id

theorem rootComments_foldl_add (values : List Comment) (grouping : Grouping) :
    (values.foldl (Grouping.add comments) grouping).rootComments =
      grouping.rootComments ++ values.filter fun comment => attachedTo comments comment = none := by
  induction values generalizing grouping with
  | nil => exact (List.append_nil _).symm
  | cons comment rest ih =>
    rw [List.foldl_cons, ih, List.filter_cons, Grouping.add]
    cases attached : attachedTo comments comment with
    | none | some => simp

theorem rootComments_of : (Grouping.of comments).rootComments =
    comments.values.filter fun comment => attachedTo comments comment = none :=
  rootComments_foldl_add comments.values {}

def parentOf (comments : CommentMap) (comment : Comment) : Option Comment :=
  (parentId comment).bind comments.find

theorem parentOf_eq_some : parentOf comments reply = some parent ↔
    parent ∈ comments ∧ parentId reply = some parent.id := by
  rw [parentOf, Option.bind_eq_some_iff]
  constructor
  · rintro ⟨id, target, found⟩
    obtain ⟨member, rfl⟩ := CommentMap.find_eq_some.mp found
    exact ⟨member, target⟩
  · rintro ⟨member, target⟩
    exact ⟨parent.id, target, CommentMap.find_eq_some.mpr ⟨member, rfl⟩⟩

theorem attachedTo_eq_map : attachedTo comments comment =
    (parentOf comments comment).map Comment.id := by
  cases found : parentOf comments comment with
  | none =>
    rw [Option.map_none, Option.eq_none_iff_forall_not_mem]
    intro id attached
    obtain ⟨target, parent, member, rfl⟩ := attachedTo_eq_some.mp attached
    exact Option.some_ne_none parent ((parentOf_eq_some.mpr ⟨member, target⟩).symm.trans found)
  | some parent =>
    obtain ⟨member, target⟩ := parentOf_eq_some.mp found
    exact attachedTo_eq_some.mpr ⟨target, parent, member, rfl⟩

variable (comments) (order : ComparisonSort Comment) (compare : Comment → Comment → Int)

def replyLinks : Links Comment where
  items := comments.values
  parent := parentOf comments
  roots := order.sort compare (Grouping.of comments).rootComments
  children comment := order.sort compare ((Grouping.of comments).children comment.id)
  mem_roots comment := by
    rw [order.mem_sort, rootComments_of, List.mem_filter, decide_eq_true_eq, attachedTo_eq_map,
      Option.map_eq_none_iff]
  mem_children parent member child := by
    rw [order.mem_sort, children_of, List.mem_filter, decide_eq_true_eq, attachedTo_eq_map,
      Option.map_eq_some_iff]
    refine and_congr_right fun _ => ⟨?_, fun linked => ⟨parent, linked, rfl⟩⟩
    rintro ⟨other, linked, same⟩
    exact CommentMap.eq_of_id (parentOf_eq_some.mp linked).1 member same ▸ linked
  parent_mem _ _ _ linked := (parentOf_eq_some.mp linked).1
  nodup_roots := by
    rw [(order.perm compare _).nodup_iff, rootComments_of]
    exact comments.nodup_values.filter _
  nodup_children comment := by
    rw [(order.perm compare _).nodup_iff, children_of]
    exact comments.nodup_values.filter _

end Links

/-! ### What is shown -/

def RepliesTo (comments : CommentMap) (reply parent : Comment) : Prop :=
  reply ∈ comments ∧ parent ∈ comments ∧ parentId reply = some parent.id

def NoCycle (comments : CommentMap) : Prop :=
  ∀ comment, ¬ Relation.TransGen (RepliesTo comments) comment comment

/-- Every comment is shown once, a reply below the comment that it replies to and one deeper, and
the comments beside each other in order. -/
structure Threaded (compare : Comment → Comment → Int) (comments : CommentMap)
    (listing : List (Comment × Nat)) : Prop where
  once : (listing.map Prod.fst).Perm comments.values
  nested : ∀ reply parent, RepliesTo comments reply parent → ∃ depth before between after,
    listing = before ++ (parent, depth) :: (between ++ (reply, depth + 1) :: after) ∧
      ∀ other ∈ between, depth < other.2
  top : ∀ entry ∈ listing, (∀ parent, ¬ RepliesTo comments entry.1 parent) → entry.2 = 0
  ordered : (listing.map Prod.fst).Pairwise fun first second =>
    (∀ parent, RepliesTo comments first parent ↔ RepliesTo comments second parent) →
      compare first second ≤ 0

variable {Score : Type} [LinearOrder Score] (divide : Int → Int → Score)
  (order : ComparisonSort Comment) (state : CommentsState) (now : Int)

theorem repliesTo_iff {comments : CommentMap} {reply parent : Comment} (member : reply ∈ comments) :
    RepliesTo comments reply parent ↔ parentOf comments reply = some parent := by
  rw [parentOf_eq_some]
  exact and_iff_right member

theorem repliesTo_of_linked {comments : CommentMap} {first last : Comment}
    (member : first ∈ comments)
    (linked : Relation.TransGen
      (fun child item => parentOf comments child = some item) first last) :
    Relation.TransGen (RepliesTo comments) first last ∧ last ∈ comments := by
  induction linked with
  | single link =>
    have reply := (repliesTo_iff member).mpr link
    exact ⟨.single reply, reply.2.1⟩
  | tail _ link ih =>
    have reply := (repliesTo_iff ih.2).mpr link
    exact ⟨ih.1.tail reply, reply.2.1⟩

theorem threaded_of_listed {compare : Comment → Comment → Int} {comments : CommentMap}
    {listing : List (Comment × Nat)} (isOrder : ∀ items, IsOrder compare items)
    (listed : Listed (replyLinks comments order compare).children 0
      (replyLinks comments order compare).roots listing) (noCycle : NoCycle comments) :
    Threaded compare comments listing := by
  have acyclic : Acyclic (replyLinks comments order compare) := fun comment member cycle =>
    noCycle comment (repliesTo_of_linked member cycle).1
  have once := perm_of_listed listed acyclic comments.nodup_values
  refine ⟨once, ?_, ?_, ?_⟩
  · rintro reply parent ⟨member, present, target⟩
    obtain ⟨entry, inside, rfl⟩ := List.mem_map.mp (once.mem_iff.mpr present)
    have child : reply ∈ (replyLinks comments order compare).children entry.1 :=
      ((replyLinks comments order compare).mem_children _ present _).mpr
        ⟨member, parentOf_eq_some.mpr ⟨present, target⟩⟩
    obtain ⟨before, between, after, same, deeper⟩ := listed.nested entry inside reply child
    exact ⟨entry.2, before, between, after, same, deeper⟩
  · intro entry inside parentless
    obtain ⟨above, ancestors, depth, -⟩ :=
      ancestors_of_listed listed siblings_roots rfl entry inside
    cases ancestors with
    | root _ _ => exact depth.symm
    | child member linked _ =>
      exact absurd ((repliesTo_iff member).mpr linked) (parentless _)
  · have sorted := pairwise_listed listed
      (order.sorted compare _ (isOrder _)) fun comment => order.sorted compare _ (isOrder _)
    refine sorted.imp_of_mem fun {first second} firstIn secondIn before related => before ?_
    refine Option.ext fun parent => ?_
    exact ((repliesTo_iff (once.mem_iff.mp firstIn)).symm.trans (related parent)).trans
      (repliesTo_iff (once.mem_iff.mp secondIn))

/-- Where the replies have no cycle the threaded view shows each comment once, in its place. -/
theorem threadedComments_threaded : ∃ nodes,
    (∀ bound, state.commentsById.values.length < bound →
      state.threadedComments divide order now bound = some nodes) ∧
    (NoCycle state.commentsById →
      Threaded (state.commentComparator divide now) state.commentsById
        (nodes.map CommentNode.shown)) := by
  have related := @siblings_roots _
    (replyLinks state.commentsById order (state.commentComparator divide now))
  obtain ⟨roots, built⟩ := @exists_buildNodes (order.sort (state.commentComparator divide now))
    (Grouping.of state.commentsById) (state.commentsById.values.length + 1) 0 _ _ []
    (fun _ => rfl) related (Nat.zero_le _) (by simp [replyLinks])
  refine ⟨flatten roots, fun bound enough => ?_, fun noCycle => ?_⟩
  · rw [CommentsState.threadedComments, buildNodes_of_le enough built]
    rfl
  · exact threaded_of_listed order (state.isOrder_commentComparator divide now)
      (listed_flatten built) noCycle

end Divine.CommentList
