/-
This file models the votes of a list of comments as the handlers go on from one await to
the next: the state that is shown, and the repository whose calls change the reactions of
the user.
-/

import Divine.Library.Dictionary
import Divine.Library.Interleaving

namespace Divine.CommentsBloc

open Dictionary Interleaving

/-! ### The repository -/

/-- A reaction of the user to a comment that is published and not deleted. -/
structure Reaction where
  id : String
  target : String
  isUpvote : Bool
  deriving DecidableEq

/-- The repository of likes without a queue: the record of each like, by its reaction, and the
reactions that relays have. -/
structure LikesRepository where
  likeRecords : List (String × String)
  reactions : List Reaction
  deriving DecidableEq

namespace LikesRepository

variable (repository : LikesRepository) (eventId : String)

/-- The user has a vote for a comment, as `getUserVoteStatuses` finds it. -/
def holds (isUpvote : Bool) : Bool :=
  repository.reactions.any fun reaction => reaction.target = eventId ∧ reaction.isUpvote = isUpvote

def likeEvent (reactionId : String) : Option LikesRepository :=
  if (find repository.likeRecords eventId).isSome then none
  else some
    { likeRecords := put repository.likeRecords eventId reactionId
      reactions := repository.reactions ++ [⟨reactionId, eventId, true⟩] }

def unlikeEvent : Option LikesRepository :=
  (find repository.likeRecords eventId).map fun reactionId =>
    { likeRecords := remove repository.likeRecords eventId
      reactions := repository.reactions.filter fun reaction => reaction.id ≠ reactionId }

def toggleLike (reactionId : String) : Option LikesRepository :=
  if (find repository.likeRecords eventId).isSome then repository.unlikeEvent eventId
  else repository.likeEvent eventId reactionId

def downvoteEvent (reactionId : String) : Option LikesRepository :=
  some { repository with reactions := repository.reactions ++ [⟨reactionId, eventId, false⟩] }

end LikesRepository

/-! ### The state -/

/-- The comments with one kind of vote, and the counts of these votes. -/
structure Votes where
  ids : List String
  counts : List (String × Int)
  deriving DecidableEq

namespace Votes

variable (votes : Votes) (commentId : String)

def count : Int := (find votes.counts commentId).getD 0

def add (prevCount : Int) : Votes where
  ids := votes.ids.insert commentId
  counts := put votes.counts commentId (prevCount + 1)

def remove (prevCount : Int) : Votes where
  ids := votes.ids.filter fun id => id ≠ commentId
  counts := put votes.counts commentId (max 0 (prevCount - 1))

def restore (was : Bool) (prevCount : Int) : Votes where
  ids := if was then votes.ids.insert commentId else votes.ids.filter fun id => id ≠ commentId
  counts := put votes.counts commentId prevCount

end Votes

inductive CommentsError where
  | notAuthenticated | voteFailed | other
  deriving DecidableEq

structure CommentsState where
  commentIds : List String := []
  upvotes : Votes := ⟨[], []⟩
  downvotes : Votes := ⟨[], []⟩
  voteInProgressCommentId : Option String := none
  error : Option CommentsError := none
  deriving DecidableEq

def CommentsState.votes (state : CommentsState) (isUpvote : Bool) : Votes :=
  if isUpvote then state.upvotes else state.downvotes

/-- `copyWith`, which clears the mark of a vote and the error when they are not given. -/
def CommentsState.copyWith (state : CommentsState) (commentIds : List String)
    (error : Option CommentsError) : CommentsState :=
  { state with commentIds := commentIds, voteInProgressCommentId := none, error := error }

/-! ### Handlers -/

/-- A vote that is toggled, and what was shown before. -/
structure Toggle where
  commentId : String
  isUpvote : Bool
  wasUpvoted : Bool
  wasDownvoted : Bool
  prevUpCount : Int
  prevDownCount : Int
  deriving DecidableEq

namespace Toggle

variable (toggle : Toggle)

def was (isUpvote : Bool) : Bool := if isUpvote then toggle.wasUpvoted else toggle.wasDownvoted

def prevCount (isUpvote : Bool) : Int :=
  if isUpvote then toggle.prevUpCount else toggle.prevDownCount

def hadSameVote : Bool := toggle.was toggle.isUpvote

def hadOppositeVote : Bool := toggle.was !toggle.isUpvote

def optimistic (isUpvote : Bool) (votes : Votes) : Votes :=
  if isUpvote = toggle.isUpvote then
    if toggle.hadSameVote then votes.remove toggle.commentId (toggle.prevCount isUpvote)
    else votes.add toggle.commentId (toggle.prevCount isUpvote)
  else if !toggle.hadSameVote && toggle.hadOppositeVote then
    votes.remove toggle.commentId (toggle.prevCount isUpvote)
  else votes

def reverted (isUpvote : Bool) (votes : Votes) : Votes :=
  votes.restore toggle.commentId (toggle.was isUpvote) (toggle.prevCount isUpvote)

def shows (state : CommentsState) : CommentsState :=
  { state with
    upvotes := toggle.optimistic true state.upvotes
    downvotes := toggle.optimistic false state.downvotes
    voteInProgressCommentId := some toggle.commentId
    error := none }

def reverts (state : CommentsState) : CommentsState :=
  { state with
    upvotes := toggle.reverted true state.upvotes
    downvotes := toggle.reverted false state.downvotes
    voteInProgressCommentId := none
    error := some .voteFailed }

end Toggle

/-- A handler that waits: for a vote to be removed or added, to start fetching the votes, and for
the votes of comments. -/
inductive Call where
  | removing (toggle : Toggle)
  | unliking (toggle : Toggle)
  | voting (toggle : Toggle)
  | requested
  | fetching (commentIds : List String)
  deriving DecidableEq

def Call.toggle : Call → Option Toggle
  | .removing toggle | .unliking toggle | .voting toggle => some toggle
  | .requested | .fetching _ => none

/-- What a handler waits for. A call that publishes a reaction succeeds with its id. -/
inductive Reply where
  | started
  | succeeded (reactionId : String)
  | fetched (upvotes downvotes : Votes)
  | failed
  deriving DecidableEq

inductive Action where
  | toggled (commentId : String) (isUpvote isAuthenticated : Bool)
  | fetchRequested
  | loaded (commentIds : List String)
  | changed (commentIds : List String) (error : Option CommentsError)
  | answer (index : Nat) (reply : Reply)

structure Bloc where
  state : CommentsState
  repository : LikesRepository
  calls : List Call
  deriving DecidableEq

namespace Bloc

variable (bloc : Bloc)

/-- `_onVoteToggled`, up to its await. -/
def toggle (commentId : String) (isUpvote : Bool) : Bloc :=
  if bloc.state.voteInProgressCommentId = some commentId then bloc
  else
    let toggle : Toggle :=
      { commentId := commentId
        isUpvote := isUpvote
        wasUpvoted := bloc.state.upvotes.ids.contains commentId
        wasDownvoted := bloc.state.downvotes.ids.contains commentId
        prevUpCount := bloc.state.upvotes.count commentId
        prevDownCount := bloc.state.downvotes.count commentId }
    { bloc with
      state := toggle.shows bloc.state
      calls := bloc.calls ++ [
        if toggle.hadSameVote then .removing toggle
        else if toggle.hadOppositeVote then .unliking toggle
        else .voting toggle] }

/-- The event of a toggle. An event is dropped while one of its kind is handled. -/
def toggled (commentId : String) (isUpvote isAuthenticated : Bool) : Bloc :=
  if bloc.calls.any fun call => call.toggle.any fun other => other.isUpvote = isUpvote then bloc
  else if !isAuthenticated then
    { bloc with
      state := bloc.state.copyWith bloc.state.commentIds (some .notAuthenticated) }
  else bloc.toggle commentId isUpvote

def publish (reactionId : String) : Call → Option LikesRepository
  | .removing toggle =>
      if toggle.isUpvote then bloc.repository.toggleLike toggle.commentId reactionId
      else bloc.repository.unlikeEvent toggle.commentId
  | .unliking toggle => bloc.repository.unlikeEvent toggle.commentId
  | .voting toggle =>
      if toggle.isUpvote then bloc.repository.likeEvent toggle.commentId reactionId
      else bloc.repository.downvoteEvent toggle.commentId reactionId
  | _ => none

/-- A toggle goes on after its call succeeded or failed. -/
def resumeToggle (call : Call) (toggle : Toggle) (outcome : Option LikesRepository) :
    CommentsState × LikesRepository × Option Call :=
  match outcome with
  | none => (toggle.reverts bloc.state, bloc.repository, none)
  | some repository =>
      match call with
      | .unliking toggle => (bloc.state, repository, some (.voting toggle))
      | _ => (bloc.state.copyWith bloc.state.commentIds none, repository, none)

/-- A handler goes on with its answer. The fetched votes replace the shown ones. -/
def resume (call : Call) (reply : Reply) :
    Option (CommentsState × LikesRepository × Option Call × Bool) :=
  match call, reply with
  | .requested, .started =>
      if bloc.state.commentIds.isEmpty then some (bloc.state, bloc.repository, none, false)
      else
        some (bloc.state, bloc.repository, some (.fetching bloc.state.commentIds), false)
  | .fetching _, .fetched upvotes downvotes =>
      some ({ bloc.state.copyWith bloc.state.commentIds none with
        upvotes := upvotes, downvotes := downvotes }, bloc.repository, none, true)
  | .fetching _, .failed => some (bloc.state, bloc.repository, none, false)
  | call, .succeeded reactionId =>
      call.toggle.map fun toggle =>
        let (state, repository, stage) :=
          bloc.resumeToggle call toggle (bloc.publish reactionId call)
        (state, repository, stage, false)
  | call, .failed =>
      call.toggle.map fun toggle =>
        let (state, repository, stage) := bloc.resumeToggle call toggle none
        (state, repository, stage, false)
  | _, _ => none

end Bloc

/-- One handler up to its first await, or one that goes on, and whether the votes were fetched.
Other events keep the votes. -/
def step (bloc : Bloc) : Action → Option (Bloc × Bool)
  | .toggled commentId isUpvote isAuthenticated =>
      some (bloc.toggled commentId isUpvote isAuthenticated, false)
  | .fetchRequested => some ({ bloc with calls := bloc.calls ++ [.requested] }, false)
  | .loaded commentIds =>
      some ({ bloc with
        state := bloc.state.copyWith commentIds none
        calls := bloc.calls ++ [.requested] }, false)
  | .changed commentIds error =>
      some ({ bloc with state := bloc.state.copyWith commentIds error }, false)
  | .answer index reply =>
      bloc.calls[index]?.bind fun call =>
        (bloc.resume call reply).map fun (state, repository, stage, fetched) =>
          (⟨state, repository, proceed bloc.calls index stage⟩, fetched)

def initialBloc (repository : LikesRepository) : Bloc := ⟨{}, repository, []⟩

end Divine.CommentsBloc
