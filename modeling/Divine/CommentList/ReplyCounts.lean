/-
This file settles when the counts of replies are those of the comments in the list.
-/

import Divine.CommentList.Bloc

namespace Divine.CommentList

open List Option CommentsRepository Interleaving Models Sorting Transition

/-! ### Counts -/

/-- In a list that was loaded, the counts are the numbers of replies. -/
def Agrees (state : CommentsState) : Prop :=
  state.status = .success → ∀ id,
    countOf state.replyCountsByCommentId id = replies state.commentsById id

def Counted (state : CommentsState) : Prop :=
  state.replyCountsByCommentId = computeReplyCounts state.commentsById

theorem Counted.agrees {state : CommentsState} (counted : Counted state) : Agrees state := by
  intro _ id
  rw [counted, countOf_computeReplyCounts]

/-- Nothing changes that the counts depend on. -/
structure SameCounts (first second : CommentsState) : Prop where
  status : second.status = first.status
  comments : second.commentsById = first.commentsById
  counts : second.replyCountsByCommentId = first.replyCountsByCommentId

theorem SameCounts.agrees {first second : CommentsState} (same : SameCounts first second)
    (agrees : Agrees first) : Agrees second := by
  unfold Agrees
  rw [same.status, same.comments, same.counts]
  exact agrees

/-- The replies that a comment adds are counted when it takes the place of one with the same
parent. -/
theorem replies_put_iff {comments : CommentMap} {comment : Comment} :
    (∀ id, replies comments id = replies (comments.put comment) id) ↔
      parentId comment = (comments.find comment.id).bind parentId := by
  have before (id : String) : replies comments id =
      ((comments.find comment.id).toList ++ (comments.remove comment.id).values).countP
        fun other => parentId other = some id :=
    (comments.perm_find comment.id).countP_eq _
  have after (id : String) : replies (comments.put comment) id =
      (comment :: (comments.remove comment.id).values).countP
        fun other => parentId other = some id :=
    CommentMap.perm_put.countP_eq _
  simp only [before, after, countP_append, countP_cons]
  cases comments.find comment.id with
  | none =>
    constructor
    · intro same
      by_contra replies
      obtain ⟨id, target⟩ := ne_none_iff_exists'.mp replies
      have counted := same id
      simp [target] at counted
    · intro alone id
      simp [alone]
  | some held =>
    simp only [toList_some, countP_singleton, bind_some]
    constructor
    · intro same
      refine ext fun id => ?_
      have counted := same id
      by_cases own : parentId comment = some id
      · by_cases other : parentId held = some id
        · exact iff_of_true own other
        · simp [own, other] at counted
      · by_cases other : parentId held = some id
        · simp [own, other] at counted
        · exact iff_of_false own other
    · intro same id
      rw [same]
      omega

/-! ### Steps -/

section Steps

variable {Score : Type} {services : Services Score} {bloc next : Bloc} {action : Action}

def Posts (bloc : Bloc) (action : Action) (comment : Comment) : Prop :=
  ∃ index publicKey now hash publication isReply arguments event,
    action = .answer index (.published publicKey now hash publication) ∧
      bloc.calls[index]? = some (.posting isReply arguments) ∧
        postComment publicKey now hash publication arguments = .ok (comment, event)

/-- A comment that is posted replies to no other, or it is there already with the same parent. -/
def Keeps (bloc : Bloc) (action : Action) : Prop :=
  ∀ comment, Posts bloc action comment → bloc.state.status = .success →
    parentId comment = (bloc.state.commentsById.find comment.id).bind parentId

/-- What a step that posts no comment leaves of the counts. -/
def Recounts (first second : CommentsState) : Prop :=
  SameCounts first second ∨ second.status ≠ .success ∨ Counted second

theorem resume_cases {call : Call} {answer : Answer} {state : CommentsState} {stage : Option Call}
    (resumed : bloc.resume services call answer = some (state, stage)) :
    Recounts bloc.state state ∨ ∃ publicKey now hash publication isReply arguments comment event,
      answer = .published publicKey now hash publication ∧ call = .posting isReply arguments ∧
        postComment publicKey now hash publication arguments = .ok (comment, event) ∧
          state = bloc.state.posted isReply comment := by
  unfold Bloc.resume at resumed
  split at resumed
  case h_5 isReply arguments publicKey now hash publication =>
    split at resumed
    · rename_i comment event posted
      cases resumed
      exact .inr ⟨publicKey, now, hash, publication, isReply, arguments, comment, event, rfl, rfl,
        posted, rfl⟩
    · cases resumed
      exact .inl (.inl ⟨rfl, rfl, rfl⟩)
  case h_12 =>
    split at resumed
    · cases resumed
      exact .inl (.inr (.inr rfl))
    · cases resumed
      exact .inl (.inl ⟨rfl, rfl, rfl⟩)
  -- the comments that were loaded, and those that are left after a deletion or a block
  case h_1 | h_3 | h_6 | h_8 =>
    cases resumed
    exact .inl (.inr (.inr rfl))
  case h_2 =>
    cases resumed
    exact .inl (.inr (.inl nofun))
  case h_4 | h_7 | h_9 | h_10 | h_11 =>
    cases resumed
    exact .inl (.inl ⟨rfl, rfl, rfl⟩)
  case h_13 => cases resumed

theorem sameCounts_submitted {parentCommentId parentAuthorPubkey : Option String}
    {isAuthenticated : Bool} : SameCounts bloc.state
      (bloc.submitted services parentCommentId parentAuthorPubkey isAuthenticated).state := by
  unfold Bloc.submitted
  generalize trim _ = text
  dsimp only
  split_ifs <;> exact ⟨rfl, rfl, rfl⟩

theorem sameCounts_editSubmitted {isAuthenticated : Bool} :
    SameCounts bloc.state (bloc.editSubmitted isAuthenticated).state := by
  unfold Bloc.editSubmitted
  generalize trim _ = text
  dsimp only
  split_ifs
  · exact ⟨rfl, rfl, rfl⟩
  · exact ⟨rfl, rfl, rfl⟩
  · split <;> exact ⟨rfl, rfl, rfl⟩

variable [LinearOrder Score]

theorem step_cases (stepped : step services bloc action = some next) :
    Recounts bloc.state next.state ∨ ∃ comment isReply, Posts bloc action comment ∧
      next.state = bloc.state.posted isReply comment := by
  cases action with
  | answer index answer =>
    obtain ⟨call, present, resumed⟩ := bind_eq_some_iff.mp stepped
    obtain ⟨⟨state, stage⟩, ended, rfl⟩ := map_eq_some_iff.mp resumed
    rcases resume_cases ended with recounts |
      ⟨publicKey, now, hash, publication, isReply, arguments, comment, event, rfl,
        rfl, posted, same⟩
    · exact .inl recounts
    · exact .inr ⟨comment, isReply, ⟨index, publicKey, now, hash, publication, isReply, arguments,
        event, rfl, present, posted⟩, same⟩
  | loadRequested =>
    unfold step at stepped
    dsimp only at stepped
    split at stepped
    · cases stepped
      exact .inl (.inl ⟨rfl, rfl, rfl⟩)
    · cases stepped
      exact .inl (.inr (.inl nofun))
  | newCommentReceived comment isBlocked =>
    unfold step at stepped
    dsimp only at stepped
    split at stepped
    · cases stepped
      exact .inl (.inl ⟨rfl, rfl, rfl⟩)
    · cases stepped
      exact .inl (.inr (.inr rfl))
  | submitted parentCommentId parentAuthorPubkey isAuthenticated =>
    obtain rfl := Option.some.inj stepped
    exact .inl (.inl sameCounts_submitted)
  | editSubmitted isAuthenticated =>
    obtain rfl := Option.some.inj stepped
    exact .inl (.inl sameCounts_editSubmitted)
  | textChanged text commentId =>
    unfold step at stepped
    dsimp only at stepped
    split_ifs at stepped <;> obtain rfl := Option.some.inj stepped <;>
      exact .inl (.inl ⟨rfl, rfl, rfl⟩)
  | loadMoreRequested _ | replyToggled _ | deleteRequested _ _ | blockUserRequested _ =>
    unfold step at stepped
    dsimp only at stepped
    split at stepped <;> obtain rfl := Option.some.inj stepped <;>
      exact .inl (.inl ⟨rfl, rfl, rfl⟩)
  | errorCleared | votesChanged _ _ | sortModeChanged _ | reportFailed | editModeEntered _ _
  | editModeCancelled | mentionRegistered _ _ | newCommentsAcknowledged =>
    unfold step at stepped
    obtain rfl := Option.some.inj stepped
    exact .inl (.inl ⟨rfl, rfl, rfl⟩)

/-- A posted comment keeps the counts right when it replies to no other or was there, in a loaded
list. -/
theorem agrees_posted_iff {state : CommentsState} {isReply : Bool} {comment : Comment}
    (agrees : Agrees state) : Agrees (state.posted isReply comment) ↔
      (state.status = .success →
        parentId comment = (state.commentsById.find comment.id).bind parentId) := by
  have fields : (state.posted isReply comment).status = state.status ∧
      (state.posted isReply comment).commentsById = state.commentsById.put comment ∧
        (state.posted isReply comment).replyCountsByCommentId = state.replyCountsByCommentId := by
    unfold CommentsState.posted
    split <;> exact ⟨rfl, rfl, rfl⟩
  unfold Agrees
  rw [fields.1, fields.2.1, fields.2.2]
  refine forall_congr' fun success => ?_
  rw [← replies_put_iff]
  refine forall_congr' fun id => ?_
  rw [agrees success id]
  exact Int.ofNat_inj

theorem Posts.unique {comment other : Comment} (posts : Posts bloc action comment)
    (also : Posts bloc action other) : comment = other := by
  obtain ⟨index, publicKey, now, hash, publication, isReply, arguments, event, rfl,
    present, posted⟩ :=
    posts
  obtain ⟨_, _, _, _, _, _, _, _, same, alsoPresent, alsoPosted⟩ := also
  cases same
  cases present.symm.trans alsoPresent
  exact congrArg Prod.fst (Except.ok.inj (posted.symm.trans alsoPosted))

theorem Posts.step {comment : Comment} (posts : Posts bloc action comment)
    (stepped : step services bloc action = some next) :
    ∃ isReply, next.state = bloc.state.posted isReply comment := by
  obtain ⟨index, publicKey, now, hash, publication, isReply, arguments, event, rfl,
    present, posted⟩ :=
    posts
  obtain ⟨call, alsoPresent, resumed⟩ := bind_eq_some_iff.mp stepped
  cases present.symm.trans alsoPresent
  simp only [Bloc.resume, posted, map_some, Option.some.injEq] at resumed
  exact ⟨isReply, resumed ▸ rfl⟩

theorem agrees_step_iff (agrees : Agrees bloc.state)
    (stepped : step services bloc action = some next) :
    Agrees next.state ↔ Keeps bloc action := by
  by_cases posts : ∃ comment, Posts bloc action comment
  · obtain ⟨comment, posts⟩ := posts
    obtain ⟨isReply, same⟩ := posts.step stepped
    rw [same, agrees_posted_iff agrees]
    exact ⟨fun keeps other also => posts.unique also ▸ keeps, fun keeps => keeps comment posts⟩
  · refine iff_of_true ?_ fun comment own => absurd ⟨comment, own⟩ posts
    rcases step_cases stepped with (same | unloaded | counted) | ⟨comment, _, own, _⟩
    · exact same.agrees agrees
    · exact fun success => absurd success unloaded
    · exact counted.agrees
    · exact absurd ⟨comment, own⟩ posts

end Steps

/-! ### Runs -/

section Runs

variable {Score : Type} [LinearOrder Score] (services : Services Score)

/-- Every loaded list has the right counts exactly when every posted comment replies to no other, or
is there already. -/
theorem replyCounts_agree_iff (rootEventId : String) (rootEventKind : Nat)
    (rootAuthorPubkey : String) (rootAddressableId : Option String) {actions : List Action}
    {final : Bloc} (ran : run (step services)
      (initialBloc rootEventId rootEventKind rootAuthorPubkey rootAddressableId) actions =
        some final) :
    (∀ before after reached, actions = before ++ after →
      run (step services)
          (initialBloc rootEventId rootEventKind rootAuthorPubkey rootAddressableId) before =
        some reached → Agrees reached.state) ↔
      Meets (step services) Keeps
        (initialBloc rootEventId rootEventKind rootAuthorPubkey rootAddressableId) actions :=
  @invariant_iff_meets _ _ (step services) Keeps (fun bloc => Agrees bloc.state)
    (fun _ _ _ agrees stepped => agrees_step_iff agrees stepped) _ _ _ nofun ran

def sampleBloc : Bloc := initialBloc "video" 34236 "creator" none

def postedReply (parentCommentId : Option String) : List Action :=
  [.loadRequested, .answer 0 (.thread []), .textChanged "hi" parentCommentId,
    .submitted parentCommentId (some "fan") true,
    .answer 0 (.published sampleKey 1700000000 "hash" (.sent "reply"))]

theorem replyCounts_agree_iff_sample : ∃ final,
    run (step sampleServices) sampleBloc (postedReply none) = some final ∧
      ((∀ before after reached, postedReply none = before ++ after →
        run (step sampleServices) sampleBloc before = some reached → Agrees reached.state) ↔
          Meets (step sampleServices) Keeps sampleBloc (postedReply none)) :=
  exists_of_isSome (by decide +kernel) fun _ ran =>
    replyCounts_agree_iff sampleServices "video" 34236 "creator" none ran

/-- A reply that is posted is not counted. -/
theorem replyCounts_stale : ∃ final,
    run (step sampleServices) sampleBloc (postedReply (some "comment")) = some final ∧
      final.state.status = .success ∧ replies final.state.commentsById "comment" = 1 ∧
        countOf final.state.replyCountsByCommentId "comment" = 0 ∧ ¬ Agrees final.state := by
  have counted : ∃ final,
      run (step sampleServices) sampleBloc (postedReply (some "comment")) = some final ∧
        final.state.status = .success ∧ replies final.state.commentsById "comment" = 1 ∧
          countOf final.state.replyCountsByCommentId "comment" = 0 :=
    exists_of_any (fun final : Bloc => final.state.status = .success ∧
      replies final.state.commentsById "comment" = 1 ∧
        countOf final.state.replyCountsByCommentId "comment" = 0) (by decide +kernel)
  obtain ⟨final, ran, success, reply, count⟩ := counted
  refine ⟨final, ran, success, reply, count, fun agrees => ?_⟩
  have same := agrees success "comment"
  rw [reply, count] at same
  cases same

end Runs

end Divine.CommentList
