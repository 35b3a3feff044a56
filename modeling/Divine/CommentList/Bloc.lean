/-
This file models the handlers of the list of comments as they go on from one await to the
next.
-/

import Divine.CommentList.State
import Divine.CommentsRepository.PostedComment
import Divine.Library.Interleaving

namespace Divine.CommentList

open CommentsRepository Dictionary Interleaving Models Sorting

/-! ### Loading -/

def pageSize : Nat := 50

/-- Whether there is more: fewer comments than a total that is known, or a full page. -/
def hasMore (initialTotalCount : Option Int) (loaded page : Nat) : Bool :=
  match initialTotalCount with
  | some total => (loaded : Int) < total
  | none => pageSize ≤ page

namespace CommentsState

variable (state : CommentsState) (initialTotalCount : Option Int) (thread : List Comment)

def loaded : CommentsState :=
  let commentsById := CommentMap.empty.putAll thread
  { state.copyWith none with
    status := .success
    commentsById := commentsById
    hasMoreContent := hasMore initialTotalCount thread.length thread.length
    replyCountsByCommentId := computeReplyCounts commentsById }

/-- The state before more comments are loaded, unless the request is skipped. -/
def loadsMore : Bool :=
  state.status = .success && !state.isLoadingMore && state.hasMoreContent &&
    !state.commentsById.values.isEmpty

def loadingMore : CommentsState := { state.copyWith none with isLoadingMore := true }

def loadedMore : CommentsState :=
  let allCommentsById := state.commentsById.putAll thread
  { state.copyWith none with
    commentsById := allCommentsById
    isLoadingMore := false
    hasMoreContent := hasMore initialTotalCount allCommentsById.values.length thread.length
    replyCountsByCommentId := computeReplyCounts allCommentsById }

end CommentsState

/-! ### Posting -/

def trim (text : String) : String := String.ofList (trimmed text.toList)

def codeUnitLength (text : String) : Nat :=
  (text.toList.map fun symbol => if symbol.toNat < 0x10000 then 1 else 2).sum

/-- The text with the names that are mentioned replaced, the longest first. -/
def withMentions
    (byLength : Descending fun entry : String × String => (codeUnitLength entry.1 : Int))
    (activeMentions : List (String × String)) (text : String) : String :=
  (byLength.sort activeMentions).foldl
    (fun text entry => replaceAll text s!"@{entry.1}" s!"nostr:{entry.2}") text

namespace CommentsState

variable (state : CommentsState)

def postArguments (content : String) (replyToEventId replyToAuthorPubkey : Option String) :
    PostArguments where
  content := content
  rootEventId := state.rootEventId
  rootEventKind := state.rootEventKind
  rootEventAuthorPubkey := state.rootAuthorPubkey
  rootAddressableId := state.rootAddressableId
  replyToEventId := replyToEventId
  replyToAuthorPubkey := replyToAuthorPubkey

def posted (isReply : Bool) (postedComment : Comment) : CommentsState :=
  let updatedCommentsById := state.commentsById.put postedComment
  if isReply then state.clearActiveReply updatedCommentsById false
  else
    { state.copyWith none with
      commentsById := updatedCommentsById
      mainInputText := ""
      isPosting := false
      activeMentions := [] }

def postFailed (isReply : Bool) : CommentsState :=
  { state.copyWith (some (if isReply then .postReplyFailed else .postCommentFailed)) with
    isPosting := false }

/-- The state with other comments and the counts of their replies. -/
def withComments (commentsById : CommentMap) : CommentsState :=
  { state.copyWith none with
    commentsById := commentsById
    replyCountsByCommentId := computeReplyCounts commentsById }

def editArguments (originalComment : Comment) (editedText : String) : PostArguments :=
  state.postArguments editedText originalComment.replyToEventId originalComment.replyToAuthorPubkey

def edited (originalCommentId : String) (postedComment : Comment) : CommentsState :=
  let updatedCommentsById := (state.commentsById.remove originalCommentId).put postedComment
  state.clearEditMode updatedCommentsById false (computeReplyCounts updatedCommentsById)

def editFailed : CommentsState :=
  { state.copyWith (some .postCommentFailed) with isPosting := false }

end CommentsState

/-! ### Handlers -/

/-- A handler that waits. -/
inductive Call where
  | loading
  | loadingMore (before : DateTime)
  | posting (isReply : Bool) (arguments : PostArguments)
  | deleting (commentId : String)
  | blocking (authorPubkey : String)
  | editDeleting (originalComment : Comment) (editedText : String)
  | editPosting (originalCommentId : String) (arguments : PostArguments)
  deriving DecidableEq

/-- What a handler waits for: the comments, the publication of a deletion, a mute or a comment, or
an error. -/
inductive Answer where
  | thread (comments : List Comment)
  | done
  | published (publicKey : String) (now : Int) (hash : String) (publication : Publication)
  | failed

structure Bloc where
  state : CommentsState
  calls : List Call
  deriving DecidableEq

/-- The events, with what the services know, and the answers. The votes change by handlers of their
own. -/
inductive Action where
  | loadRequested
  | loadMoreRequested (now : Int)
  | textChanged (text : String) (commentId : Option String)
  | replyToggled (commentId : String)
  | submitted (parentCommentId parentAuthorPubkey : Option String) (isAuthenticated : Bool)
  | errorCleared
  | deleteRequested (commentId : String) (isAuthenticated : Bool)
  | votesChanged (commentUpvoteCounts : List (String × Int)) (error : Option CommentsError)
  | sortModeChanged (sortMode : CommentsSortMode)
  | reportFailed
  | blockUserRequested (authorPubkey : String)
  | editModeEntered (commentId originalContent : String)
  | editModeCancelled
  | editSubmitted (isAuthenticated : Bool)
  | mentionRegistered (displayName npub : String)
  | newCommentReceived (comment : Comment) (isBlocked : Bool)
  | newCommentsAcknowledged
  | answer (index : Nat) (answer : Answer)

/-- The services around the list: a known total, how comments are sorted, and how names are. -/
structure Services (Score : Type) where
  initialTotalCount : Option Int
  divide : Int → Int → Score
  order : ComparisonSort Comment
  byLength : Descending fun entry : String × String => (codeUnitLength entry.1 : Int)

def sampleServices : Services Int where
  initialTotalCount := none
  divide engagement _ := engagement
  order := insertionBy
  byLength := insertion _

namespace Bloc

variable {Score : Type} [LinearOrder Score] (services : Services Score) (bloc : Bloc)

def resume (call : Call) (answer : Answer) : Option (CommentsState × Option Call) :=
  let state := bloc.state
  match call, answer with
  | .loading, .thread comments => some (state.loaded services.initialTotalCount comments, none)
  | .loading, .failed =>
      some ({ state.copyWith (some .loadFailed) with status := .failure }, none)
  | .loadingMore _, .thread comments =>
      some (state.loadedMore services.initialTotalCount comments, none)
  | .loadingMore _, .failed => some ({ state.copyWith none with isLoadingMore := false }, none)
  | .posting isReply arguments, .published publicKey now hash publication =>
      match postComment publicKey now hash publication arguments with
      | .ok (postedComment, _) => some (state.posted isReply postedComment, none)
      | .error _ => some (state.postFailed isReply, none)
  | .deleting commentId, .done =>
      some (state.withComments (state.commentsById.remove commentId), none)
  | .deleting _, .failed => some (state.copyWith (some .deleteCommentFailed), none)
  | .blocking authorPubkey, .done =>
      some (state.withComments
        (state.commentsById.filter fun comment => comment.authorPubkey ≠ authorPubkey), none)
  | .blocking _, .failed => some (state.copyWith (some .blockFailed), none)
  | .editDeleting originalComment editedText, .done =>
      some (state, some (.editPosting originalComment.id
        (state.editArguments originalComment editedText)))
  | .editDeleting _ _, .failed => some (state.editFailed, none)
  | .editPosting originalCommentId arguments, .published publicKey now hash publication =>
      match postComment publicKey now hash publication arguments with
      | .ok (postedComment, _) => some (state.edited originalCommentId postedComment, none)
      | .error _ => some (state.editFailed, none)
  | _, _ => none

/-- A state that is emitted, with a handler that waits or without. -/
def emit (state : CommentsState) (call : Option Call) : Bloc :=
  { state := state, calls := bloc.calls ++ call.toList }

/-- `_onSubmitted`, up to its await. -/
def submitted (parentCommentId parentAuthorPubkey : Option String)
    (isAuthenticated : Bool) : Bloc :=
  let state := bloc.state
  let isReply := parentCommentId.isSome
  let text := trim (if isReply then state.replyInputText else state.mainInputText)
  if text = "" then bloc
  else if !isAuthenticated then bloc.emit (state.copyWith (some .notAuthenticated)) none
  else
    bloc.emit { state.copyWith none with isPosting := true } (some (.posting isReply
      (state.postArguments (withMentions services.byLength state.activeMentions text)
        parentCommentId parentAuthorPubkey)))

def editSubmitted (isAuthenticated : Bool) : Bloc :=
  let state := bloc.state
  let editedText := trim state.editInputText
  if editedText = "" then bloc
  else if !isAuthenticated then bloc.emit (state.copyWith (some .notAuthenticated)) none
  else match state.activeEditCommentId.bind state.commentsById.find with
    | none => bloc
    | some originalComment =>
        bloc.emit { state.copyWith none with isPosting := true }
          (some (.editDeleting originalComment editedText))

end Bloc

variable {Score : Type} [LinearOrder Score] (services : Services Score)

/-- One handler up to its first await, or one handler that goes on. -/
def step (bloc : Bloc) : Action → Option Bloc
  | .loadRequested =>
      if bloc.state.status = .loading then some bloc
      else some (bloc.emit { bloc.state.copyWith none with status := .loading } (some .loading))
  | .loadMoreRequested now =>
      if bloc.state.loadsMore then
        some (bloc.emit bloc.state.loadingMore
          ((bloc.state.comments services.divide now services.order).getLast?.map
            fun oldestComment => .loadingMore oldestComment.createdAt))
      else some bloc
  | .textChanged text commentId =>
      if bloc.state.activeEditCommentId.isSome then
        some (bloc.emit { bloc.state.copyWith none with editInputText := text } none)
      else if commentId.isNone then
        some (bloc.emit { bloc.state.copyWith none with mainInputText := text } none)
      else some (bloc.emit { bloc.state.copyWith none with replyInputText := text } none)
  | .replyToggled commentId =>
      if bloc.state.activeReplyCommentId = some commentId then
        some (bloc.emit
          (bloc.state.clearActiveReply bloc.state.commentsById bloc.state.isPosting) none)
      else
        some (bloc.emit { bloc.state.copyWith none with
          activeReplyCommentId := some commentId, replyInputText := "" } none)
  | .submitted parentCommentId parentAuthorPubkey isAuthenticated =>
      some (bloc.submitted services parentCommentId parentAuthorPubkey isAuthenticated)
  | .errorCleared => some (bloc.emit (bloc.state.copyWith none) none)
  | .deleteRequested commentId isAuthenticated =>
      if isAuthenticated then some (bloc.emit bloc.state (some (.deleting commentId)))
      else some (bloc.emit (bloc.state.copyWith (some .notAuthenticated)) none)
  | .votesChanged commentUpvoteCounts error =>
      some (bloc.emit
        { bloc.state.copyWith error with commentUpvoteCounts := commentUpvoteCounts } none)
  | .sortModeChanged sortMode =>
      some (bloc.emit { bloc.state.copyWith none with sortMode := sortMode } none)
  | .reportFailed => some (bloc.emit (bloc.state.copyWith (some .reportFailed)) none)
  | .blockUserRequested authorPubkey =>
      -- an event is dropped while one of its kind is handled
      if bloc.calls.any fun call => call matches .blocking _ then some bloc
      else some (bloc.emit bloc.state (some (.blocking authorPubkey)))
  | .editModeEntered commentId originalContent =>
      some (bloc.emit
        { bloc.state.clearActiveReply bloc.state.commentsById bloc.state.isPosting with
          activeEditCommentId := some commentId, editInputText := originalContent } none)
  | .editModeCancelled =>
      some (bloc.emit (bloc.state.clearEditMode bloc.state.commentsById bloc.state.isPosting
        bloc.state.replyCountsByCommentId) none)
  | .editSubmitted isAuthenticated => some (bloc.editSubmitted isAuthenticated)
  | .mentionRegistered displayName npub =>
      some (bloc.emit { bloc.state.copyWith none with
        activeMentions := put bloc.state.activeMentions displayName npub } none)
  | .newCommentReceived comment isBlocked =>
      if bloc.state.commentsById.containsKey comment.id || isBlocked then some bloc
      else
        some (bloc.emit { bloc.state.withComments (bloc.state.commentsById.put comment) with
          newCommentCount := bloc.state.newCommentCount + 1 } none)
  | .newCommentsAcknowledged =>
      some (bloc.emit { bloc.state.copyWith none with newCommentCount := 0 } none)
  | .answer index answer =>
      bloc.calls[index]?.bind fun call =>
        (bloc.resume services call answer).map fun (state, stage) =>
          ⟨state, proceed bloc.calls index stage⟩

/-- The list of the comments on an event, before they are loaded. -/
def initialBloc (rootEventId : String) (rootEventKind : Nat) (rootAuthorPubkey : String)
    (rootAddressableId : Option String) : Bloc where
  state :=
    { rootEventId := rootEventId
      rootEventKind := rootEventKind
      rootAuthorPubkey := rootAuthorPubkey
      rootAddressableId := rootAddressableId }
  calls := []

end Divine.CommentList
