/-
This file settles when the edit of a comment is all or nothing.
-/

import Divine.CommentList.Bloc
import Mathlib.Data.List.DropRight

namespace Divine.CommentList

open CommentsRepository Interleaving Models NostrSdk Transition

/-! ### The relays -/

def commentEvent (publicKey : String) (now : Int) (arguments : PostArguments) (id : String) :
    DynamicEvent where
  id := id
  pubkey := publicKey
  createdAt := now
  kind := commentKind
  tags := (arguments.rootTags ++ arguments.parentTags).map writtenTag
  content := arguments.trimmedContent

/-- The event that reaches the relays when a comment is posted. -/
def sentEvent (publicKey : String) (now : Int) (publication : Publication)
    (arguments : PostArguments) : Option DynamicEvent :=
  match publication with
  | .sent id =>
      if arguments.trimmedContent ≠ "" && keyIsValid publicKey then
        some (commentEvent publicKey now arguments id)
      else none
  | .notSent => none
  | .threw _ => none

/-- The comments on the relays after the wait. A deletion takes the one with the id away. -/
def relaysAfter (relays : List DynamicEvent) : Call → Answer → List DynamicEvent
  | .deleting commentId, .done => relays.filter fun event => event.id ≠ commentId
  | .editDeleting originalComment _, .done =>
      relays.filter fun event => event.id ≠ originalComment.id
  | .posting _ arguments, .published publicKey now _ publication =>
      relays ++ (sentEvent publicKey now publication arguments).toList
  | .editPosting _ arguments, .published publicKey now _ publication =>
      relays ++ (sentEvent publicKey now publication arguments).toList
  | _, _ => relays

/-- The list and the comments on the relays. -/
structure World where
  bloc : Bloc
  relays : List DynamicEvent

def worldStep {Score : Type} [LinearOrder Score] (services : Services Score) (world : World)
    (action : Action) : Option World :=
  (step services world.bloc action).map fun bloc =>
    { bloc := bloc
      relays := match action with
        | .answer index answer => (world.bloc.calls[index]?).elim world.relays fun call =>
            relaysAfter world.relays call answer
        | _ => world.relays }

/-! ### Edits -/

/-- The edit of a comment in the list and on the relays, and what comes of the deletion and of the
post. -/
structure Edit where
  state : CommentsState
  relays : List DynamicEvent
  originalComment : Comment
  active : state.activeEditCommentId = some originalComment.id
  listed : originalComment ∈ state.commentsById
  stored : ∃ event ∈ relays, event.id = originalComment.id
  isAuthenticated : Bool
  isDeleted : Bool
  publicKey : String
  now : Int
  dated : (DateTime.fromMillisecondsSinceEpoch (wrapped (now * 1000))).isSome
  hash : String
  publication : Publication

namespace Edit

variable (edit : Edit)

def editedText : String := trim edit.state.editInputText

def arguments : PostArguments := edit.state.editArguments edit.originalComment edit.editedText

def start : World := ⟨⟨edit.state, []⟩, edit.relays⟩

/-- `_onEditSubmitted` with what it waits for. -/
def actions : List Action :=
  .editSubmitted edit.isAuthenticated ::
    if edit.editedText = "" || !edit.isAuthenticated then []
    else if edit.isDeleted then
      [.answer 0 .done,
        .answer 0 (.published edit.publicKey edit.now edit.hash edit.publication)]
    else [.answer 0 .failed]

def posted : Except PostFailure (Comment × DynamicEvent) :=
  postComment edit.publicKey edit.now edit.hash edit.publication edit.arguments

/-- The comment that an event on the relays replies to. -/
def parentOf (event : DynamicEvent) : Option String :=
  (eventToComment event edit.state.rootEventId edit.state.rootEventKind).toOption.bind parentId

/-- The original comment is still there, and nothing else was published. -/
structure Kept (final : World) : Prop where
  listed : edit.originalComment ∈ final.bloc.state.commentsById
  stored : ∃ event ∈ final.relays, event.id = edit.originalComment.id
  unpublished : ∀ event ∈ final.relays, event ∈ edit.relays

/-- A comment with the text, and no other, is in the place of the original one. -/
structure Replaced (final : World) (comment : Comment) (event : DynamicEvent) : Prop where
  content : comment.content = edit.editedText
  rootEventId : comment.rootEventId = edit.originalComment.rootEventId
  rootAuthorPubkey : comment.rootAuthorPubkey = edit.originalComment.rootAuthorPubkey
  replyToEventId : comment.replyToEventId = edit.originalComment.replyToEventId
  replyToAuthorPubkey : comment.replyToAuthorPubkey = edit.originalComment.replyToAuthorPubkey
  readsBack : eventToComment event edit.state.rootEventId edit.state.rootEventKind = .ok comment
  list : final.bloc.state.commentsById.values.Perm
    (comment :: (edit.state.commentsById.remove edit.originalComment.id).values)
  relays : final.relays.Perm
    (event :: edit.relays.filter fun other => other.id ≠ edit.originalComment.id)
  replies : ∀ reply ∈ edit.state.commentsById, reply.id ≠ edit.originalComment.id →
    parentId reply = some edit.originalComment.id → parentId reply = some comment.id
  storedReplies : ∀ reply ∈ edit.relays, reply.id ≠ edit.originalComment.id →
    edit.parentOf reply = some edit.originalComment.id → edit.parentOf reply = some comment.id

/-- An edit with an error changed nothing, and one that leaves the mode replaced the comment. -/
structure AllOrNothing (final : World) : Prop where
  nothing : final.bloc.state.error.isSome → edit.Kept final
  all : final.bloc.state.activeEditCommentId = none →
    ∃ comment event, edit.posted = .ok (comment, event) ∧ edit.Replaced final comment event

/-- No other comment, in the list or on the relays, replies to the original one. -/
structure Unanswered : Prop where
  listed : ∀ reply ∈ edit.state.commentsById, reply.id ≠ edit.originalComment.id →
    parentId reply ≠ some edit.originalComment.id
  stored : ∀ reply ∈ edit.relays, reply.id ≠ edit.originalComment.id →
    edit.parentOf reply ≠ some edit.originalComment.id

/-- The comment is published with a new id, on the root of the list, with a reply target that is
read, and without replies. -/
structure Carries (id : String) : Prop where
  sent : edit.publication = .sent id
  key : keyIsValid edit.publicKey = true
  rootEventId : edit.state.rootEventId = edit.originalComment.rootEventId
  rootAuthorPubkey : edit.state.rootAuthorPubkey = edit.originalComment.rootAuthorPubkey
  readsBack : ReadsBack edit.arguments
  fresh : ∀ other ∈ edit.state.commentsById, other.id = id → other.id = edit.originalComment.id
  replies : edit.originalComment.id = id ∨ edit.Unanswered

/-- Nothing is deleted, or the edited comment carries on. -/
def Holds : Prop :=
  edit.editedText = "" ∨ edit.isAuthenticated = false ∨ edit.isDeleted = false ∨
    ∃ id, edit.Carries id

end Edit

/-! ### Texts -/

theorem trimmed_trimmed (text : List Char) : trimmed (trimmed text) = trimmed text := by
  set isTrimmed := fun symbol : Char => isWhitespace symbol || decide (symbol.toNat = 133)
  set front := text.dropWhile isTrimmed with frontEq
  show ((front.rdropWhile isTrimmed).dropWhile isTrimmed).rdropWhile isTrimmed =
    front.rdropWhile isTrimmed
  have kept : (front.rdropWhile isTrimmed).dropWhile isTrimmed = front.rdropWhile isTrimmed := by
    refine List.dropWhile_eq_self_iff.mpr fun nonempty => ?_
    have shorter := List.rdropWhile_prefix isTrimmed front
    have long : 0 < front.length := Nat.lt_of_lt_of_le nonempty shorter.length_le
    rw [shorter.getElem nonempty]
    exact List.dropWhile_get_zero_not isTrimmed text long
  rw [kept, List.rdropWhile_idempotent]

theorem trim_trim (text : String) : trim (trim text) = trim text := by
  unfold trim
  rw [String.toList_ofList, trimmed_trimmed]

namespace Edit

variable {edit : Edit} {id : String}

theorem trimmedContent_arguments (edit : Edit) :
    edit.arguments.trimmedContent = edit.editedText := trim_trim _

/-! ### The post -/

def eventWith (edit : Edit) (id : String) : DynamicEvent :=
  commentEvent edit.publicKey edit.now edit.arguments id

theorem posted_of_sent (written : edit.editedText ≠ "") (sent : edit.publication = .sent id)
    (key : keyIsValid edit.publicKey = true) :
    sentEvent edit.publicKey edit.now edit.publication edit.arguments = some (edit.eventWith id) ∧
      ∃ createdAt, edit.posted =
        .ok (edit.arguments.returned (edit.eventWith id) createdAt, edit.eventWith id) := by
  obtain ⟨createdAt, dated⟩ := Option.isSome_iff_exists.mp edit.dated
  have content : edit.arguments.trimmedContent ≠ "" := edit.trimmedContent_arguments ▸ written
  refine ⟨?_, createdAt, ?_⟩
  · unfold sentEvent
    rw [sent]
    exact if_pos (by simp [content, key])
  · unfold posted postComment
    rw [if_neg content, if_pos key, sent]
    simp only [createdAtDateTime, dated, Option.elim_some]
    rfl

theorem not_posted
    (unsent : ¬ ∃ id, edit.publication = .sent id ∧ keyIsValid edit.publicKey = true) :
    sentEvent edit.publicKey edit.now edit.publication edit.arguments = none ∧
      ∃ failure, edit.posted = .error failure := by
  unfold posted postComment sentEvent
  by_cases key : keyIsValid edit.publicKey = true
  · cases publication : edit.publication with
    | sent id => exact absurd ⟨id, publication, key⟩ unsent
    | notSent | threw => exact ⟨rfl, by split_ifs <;> exact ⟨_, rfl⟩⟩
  · constructor
    · cases edit.publication with
      | sent id => exact if_neg (by simp [key])
      | notSent | threw => rfl
    · split_ifs <;> exact ⟨_, rfl⟩

/-! ### Runs -/

variable {Score : Type} [LinearOrder Score] (services : Services Score)

theorem worldStep_start (edit : Edit) :
    worldStep services edit.start (.editSubmitted edit.isAuthenticated) =
      some ⟨if edit.editedText = "" then edit.start.bloc
        else if !edit.isAuthenticated then ⟨edit.state.copyWith (some .notAuthenticated), []⟩
        else ⟨{ edit.state.copyWith none with isPosting := true },
          [.editDeleting edit.originalComment edit.editedText]⟩, edit.relays⟩ := by
  have found : edit.state.activeEditCommentId.bind edit.state.commentsById.find =
      some edit.originalComment := by
    rw [edit.active]
    exact CommentMap.find_eq_some.mpr ⟨edit.listed, rfl⟩
  unfold worldStep step Bloc.editSubmitted start
  dsimp only
  rw [found]
  rfl

def undone (edit : Edit) : CommentsState :=
  if edit.editedText = "" then edit.state
  else if !edit.isAuthenticated then edit.state.copyWith (some .notAuthenticated)
  else ({ edit.state.copyWith none with isPosting := true } : CommentsState).editFailed

theorem run_of_not_deleted
    (skips : edit.editedText = "" ∨ edit.isAuthenticated = false ∨ edit.isDeleted = false) :
    run (worldStep services) edit.start edit.actions = some ⟨⟨edit.undone, []⟩, edit.relays⟩ := by
  rw [actions, run_cons, worldStep_start, undone]
  by_cases empty : edit.editedText = ""
  · simp only [empty, decide_true, Bool.true_or, if_true]
    rfl
  · cases signedIn : edit.isAuthenticated with
    | false =>
      simp only [if_neg empty, Bool.not_false, Bool.or_true, if_true]
      rfl
    | true =>
      have kept := (skips.resolve_left empty).resolve_left (by simp [signedIn])
      simp only [if_neg empty, kept, decide_eq_false empty, Bool.not_true, Bool.or_false,
        Bool.false_eq_true, if_false]
      rfl

/-- The relays after the comment was deleted and another one was posted. -/
def relaysWith (edit : Edit) : List DynamicEvent :=
  (edit.relays.filter fun event => event.id ≠ edit.originalComment.id) ++
    (sentEvent edit.publicKey edit.now edit.publication edit.arguments).toList

def waiting (edit : Edit) : CommentsState := { edit.state.copyWith none with isPosting := true }

theorem worldStep_deleted (state : CommentsState) (relays : List DynamicEvent)
    (originalComment : Comment) (editedText : String) :
    worldStep services ⟨⟨state, [.editDeleting originalComment editedText]⟩, relays⟩
        (.answer 0 .done) =
      some ⟨⟨state, [.editPosting originalComment.id
        (state.editArguments originalComment editedText)]⟩,
        relays.filter fun event => event.id ≠ originalComment.id⟩ := rfl

def editedOrFailed (state : CommentsState) (originalCommentId : String) :
    Except PostFailure (Comment × DynamicEvent) → CommentsState
  | .ok (postedComment, _) => state.edited originalCommentId postedComment
  | .error _ => state.editFailed

theorem worldStep_posted (state : CommentsState) (relays : List DynamicEvent)
    (originalCommentId : String) (arguments : PostArguments) (publicKey : String) (now : Int)
    (hash : String) (publication : Publication) :
    worldStep services ⟨⟨state, [.editPosting originalCommentId arguments]⟩, relays⟩
        (.answer 0 (.published publicKey now hash publication)) =
      some ⟨⟨editedOrFailed state originalCommentId
        (postComment publicKey now hash publication arguments), []⟩,
        relays ++ (sentEvent publicKey now publication arguments).toList⟩ := by
  unfold worldStep step Bloc.resume
  dsimp only [List.getElem?_cons_zero, Option.bind_some]
  cases postComment publicKey now hash publication arguments with
  | ok | error => rfl

theorem run_of_deleted (written : edit.editedText ≠ "") (signedIn : edit.isAuthenticated = true)
    (deleted : edit.isDeleted = true) :
    run (worldStep services) edit.start edit.actions = some
      ⟨⟨editedOrFailed edit.waiting edit.originalComment.id edit.posted, []⟩, edit.relaysWith⟩ := by
  rw [actions, run_cons, worldStep_start, signedIn, deleted]
  simp only [if_neg written, decide_eq_false written, Bool.not_true, Bool.or_false,
    Bool.false_eq_true, if_false, if_true, Option.bind_some]
  rw [run_cons, worldStep_deleted, Option.bind_some, run_cons, worldStep_posted, Option.bind_some]
  rfl

/-! ### The condition -/

theorem allOrNothing_of_not_deleted (edit : Edit) :
    edit.AllOrNothing ⟨⟨edit.undone, []⟩, edit.relays⟩ := by
  have same : edit.undone.commentsById = edit.state.commentsById ∧
      edit.undone.activeEditCommentId = edit.state.activeEditCommentId := by
    unfold undone
    split_ifs <;> exact ⟨rfl, rfl⟩
  refine ⟨fun _ => ⟨?_, edit.stored, fun _ inside => inside⟩, fun left => ?_⟩
  · rw [same.1]
    exact edit.listed
  · have active := left.symm.trans (same.2.trans edit.active)
    cases active

theorem not_allOrNothing_of_failed
    (unsent : ¬ ∃ id, edit.publication = .sent id ∧ keyIsValid edit.publicKey = true) :
    ¬ edit.AllOrNothing
      ⟨⟨editedOrFailed edit.waiting edit.originalComment.id edit.posted, []⟩, edit.relaysWith⟩ := by
  obtain ⟨nothing, failure, failed⟩ := not_posted unsent
  rw [failed, relaysWith, nothing]
  intro allOrNothing
  obtain ⟨event, inside, own⟩ := (allOrNothing.nothing rfl).stored
  rw [Option.toList_none, List.append_nil, List.mem_filter, decide_eq_true_eq] at inside
  exact inside.2 own

def commentWith (edit : Edit) (id : String) (createdAt : DateTime) : Comment :=
  edit.arguments.returned (edit.eventWith id) createdAt

/-- The list and the relays after the comment was posted. -/
def replacedWith (edit : Edit) (id : String) (createdAt : DateTime) : World :=
  ⟨⟨edit.waiting.edited edit.originalComment.id (edit.commentWith id createdAt), []⟩,
    edit.relaysWith⟩

variable {createdAt : DateTime}

theorem readsBack_iff
    (posted : edit.posted = .ok (edit.commentWith id createdAt, edit.eventWith id)) :
    eventToComment (edit.eventWith id) edit.state.rootEventId edit.state.rootEventKind =
      .ok (edit.commentWith id createdAt) ↔ ReadsBack edit.arguments := by
  obtain ⟨time, same, read⟩ := eventToComment_posted posted
  have rooted : eventToComment (edit.eventWith id) edit.state.rootEventId
      edit.state.rootEventKind = _ := read
  rw [rooted, same, Except.ok.injEq, ← readReply_iff]
  constructor
  · intro equal
    exact ⟨congrArg Comment.replyToEventId equal, congrArg Comment.replyToAuthorPubkey equal⟩
  · rintro ⟨ids, authors⟩
    rw [ids, authors]
    rfl

theorem perm_edited_iff : (edit.replacedWith id createdAt).bloc.state.commentsById.values.Perm
      (edit.commentWith id createdAt ::
        (edit.state.commentsById.remove edit.originalComment.id).values) ↔
    ∀ other ∈ edit.state.commentsById, other.id = id → other.id = edit.originalComment.id := by
  have put : (edit.replacedWith id createdAt).bloc.state.commentsById.values.Perm
      (edit.commentWith id createdAt ::
        ((edit.state.commentsById.remove edit.originalComment.id).remove id).values) :=
    CommentMap.perm_put
  rw [put.congr_left, List.perm_cons]
  constructor
  · intro same other inside own
    by_contra third
    have kept : other ∈ (edit.state.commentsById.remove edit.originalComment.id).remove id :=
      same.mem_iff.mpr (CommentMap.mem_remove.mpr ⟨inside, third⟩)
    exact (CommentMap.mem_remove.mp kept).2 own
  · intro fresh
    refine List.Perm.of_eq
      (List.filter_eq_self.mpr fun other inside => decide_eq_true fun own => ?_)
    have before := CommentMap.mem_remove.mp inside
    exact before.2 (fresh other before.1 own)

theorem replies_iff : ((∀ reply ∈ edit.state.commentsById, reply.id ≠ edit.originalComment.id →
        parentId reply = some edit.originalComment.id → parentId reply = some id) ∧
      ∀ reply ∈ edit.relays, reply.id ≠ edit.originalComment.id →
        edit.parentOf reply = some edit.originalComment.id → edit.parentOf reply = some id) ↔
    edit.originalComment.id = id ∨ edit.Unanswered := by
  by_cases same : edit.originalComment.id = id
  · rw [same]
    exact iff_of_true ⟨fun _ _ _ target => target, fun _ _ _ target => target⟩ (.inl rfl)
  · have differs (parent : Option String) : (parent = some edit.originalComment.id →
        parent = some id) ↔ parent ≠ some edit.originalComment.id :=
      ⟨fun moves own => same (Option.some.inj (own.symm.trans (moves own))),
        fun other own => absurd own other⟩
    simp only [differs, or_iff_right same]
    exact ⟨fun both => ⟨both.1, both.2⟩, fun unanswered => ⟨unanswered.listed, unanswered.stored⟩⟩

theorem replaced_iff (written : edit.editedText ≠ "") (sent : edit.publication = .sent id)
    (key : keyIsValid edit.publicKey = true)
    (posted : edit.posted = .ok (edit.commentWith id createdAt, edit.eventWith id)) :
    edit.Replaced (edit.replacedWith id createdAt) (edit.commentWith id createdAt)
      (edit.eventWith id) ↔ edit.Carries id := by
  constructor
  · intro replaced
    exact ⟨sent, key, replaced.rootEventId, replaced.rootAuthorPubkey,
      (readsBack_iff posted).mp replaced.readsBack, perm_edited_iff.mp replaced.list,
      replies_iff.mp ⟨replaced.replies, replaced.storedReplies⟩⟩
  · intro carries
    have replies := replies_iff.mpr carries.replies
    have event := (posted_of_sent written sent key).1
    refine ⟨edit.trimmedContent_arguments, carries.rootEventId, carries.rootAuthorPubkey, rfl, rfl,
      (readsBack_iff posted).mpr carries.readsBack, perm_edited_iff.mpr carries.fresh, ?_,
      replies.1, replies.2⟩
    show edit.relaysWith.Perm _
    rw [relaysWith, event]
    exact List.perm_append_singleton _ _

theorem allOrNothing_iff_of_sent (written : edit.editedText ≠ "")
    (sent : edit.publication = .sent id)
    (key : keyIsValid edit.publicKey = true) : edit.AllOrNothing
      ⟨⟨editedOrFailed edit.waiting edit.originalComment.id edit.posted, []⟩, edit.relaysWith⟩ ↔
        edit.Carries id := by
  obtain ⟨_, createdAt, posted⟩ := posted_of_sent written sent key
  rw [← replaced_iff written sent key posted, posted]
  constructor
  · intro allOrNothing
    obtain ⟨comment, event, same, replaced⟩ := allOrNothing.all rfl
    rw [posted] at same
    cases same
    exact replaced
  · intro replaced
    refine ⟨fun reported => ?_, fun _ => ⟨_, _, posted, replaced⟩⟩
    cases reported

/-- An edit is all or nothing exactly when nothing is deleted, or the edited comment carries on. -/
theorem allOrNothing_iff (edit : Edit) : ∃ final,
    run (worldStep services) edit.start edit.actions = some final ∧
      (edit.AllOrNothing final ↔ edit.Holds) := by
  by_cases skips :
      edit.editedText = "" ∨ edit.isAuthenticated = false ∨ edit.isDeleted = false
  · refine ⟨_, run_of_not_deleted services skips,
      iff_of_true (allOrNothing_of_not_deleted edit) ?_⟩
    rcases skips with empty | signedOut | kept
    · exact .inl empty
    · exact .inr (.inl signedOut)
    · exact .inr (.inr (.inl kept))
  · simp only [not_or, Bool.not_eq_false] at skips
    obtain ⟨written, signedIn, deleted⟩ := skips
    refine ⟨_, run_of_deleted services written signedIn deleted, ?_⟩
    have holds : edit.Holds ↔ ∃ id, edit.Carries id := by simp [Holds, written, signedIn, deleted]
    rw [holds]
    by_cases posts : ∃ id, edit.publication = .sent id ∧ keyIsValid edit.publicKey = true
    · obtain ⟨id, sent, key⟩ := posts
      rw [allOrNothing_iff_of_sent written sent key]
      refine ⟨fun carries => ⟨id, carries⟩, fun ⟨other, carries⟩ => ?_⟩
      cases sent.symm.trans carries.sent
      exact carries
    · exact iff_of_false (not_allOrNothing_of_failed posts) fun ⟨id, carries⟩ =>
        posts ⟨id, carries.sent, carries.key⟩

end Edit

/-! ### An edit -/

def sampleComment : Comment where
  id := "comment"
  content := "nice"
  authorPubkey := sampleKey
  createdAt := ⟨1700000000000, by decide⟩
  rootEventId := "video"
  rootAuthorPubkey := "creator"
  replyToEventId := none
  replyToAuthorPubkey := none

/-- An edit that deletes the comment, and whose post is not sent. -/
def lostEdit : Edit where
  state :=
    { status := .success
      rootEventId := "video"
      rootEventKind := 34236
      rootAuthorPubkey := "creator"
      commentsById := CommentMap.empty.put sampleComment
      activeEditCommentId := some "comment"
      editInputText := "nicer" }
  relays :=
    [commentEvent sampleKey 1700000000
      { content := "nice"
        rootEventId := "video"
        rootEventKind := 34236
        rootEventAuthorPubkey := "creator" } "comment"]
  originalComment := sampleComment
  active := rfl
  listed := CommentMap.mem_put.mpr (.inl rfl)
  stored := ⟨_, List.mem_cons_self, rfl⟩
  isAuthenticated := true
  isDeleted := true
  publicKey := sampleKey
  now := 1700000100
  dated := by decide
  hash := "hash"
  publication := .notSent

/-- The comment is lost in an edit whose post is not sent. -/
theorem lostEdit_not_allOrNothing : ∃ final,
    run (worldStep sampleServices) lostEdit.start lostEdit.actions = some final ∧
      ¬ lostEdit.AllOrNothing final :=
  ⟨_, lostEdit.run_of_deleted sampleServices (by decide +kernel) rfl rfl,
    Edit.not_allOrNothing_of_failed fun ⟨_, sent, _⟩ => by cases sent⟩

end Divine.CommentList
