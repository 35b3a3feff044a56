/-
This file models the like button and the repost button of one video as their handlers go
on from one await to the next: what is shown, what the repositories hold and tell their
streams, and what a fetch or a toggle found out before its last await.
-/

import Divine.Library.Interleaving

namespace Divine.VideoInteractions

open Interleaving

/-! ### The repositories -/

inductive Kind where
  | like | repost
  deriving DecidableEq

/-- What a repository has of the video: the user's own interaction, those of others, and the count
that is cached. -/
structure Holding where
  isHeld : Bool
  others : Nat
  cached : Option Int
  deriving DecidableEq

/-- `getLikeCount` and `getRepostCount`, when relays are asked. -/
def Holding.count (holding : Holding) : Int := holding.others + holding.isHeld.toInt

/-- A subscription to the ids of one kind, with the values that wait: whether the video is among
them. -/
structure Stream where
  kind : Kind
  waiting : List Bool
  deriving DecidableEq

/-! ### The state -/

inductive Status where
  | initial | loading | success | failure
  deriving DecidableEq

inductive Error where
  | fetchFailed | likeFailed | repostFailed
  deriving DecidableEq

/-- What is shown of one kind: `isLiked`, `likeCount` and `isLikeInProgress`, or those of
reposts. -/
structure Interaction where
  isOn : Bool := false
  count : Option Int := none
  isInProgress : Bool := false
  deriving DecidableEq

structure VideoInteractionsState where
  status : Status := .initial
  interaction : Kind → Interaction := fun _ => {}
  error : Option Error := none

def VideoInteractionsState.copyWith (state : VideoInteractionsState) (kind : Kind)
    (interaction : Interaction) (error : Option Error) : VideoInteractionsState :=
  { state with interaction := Function.update state.interaction kind interaction, error := error }

/-! ### Handlers -/

/-- Where a toggle waits: for whether the interaction is held, for the call, for its event, for the
cached count, and for the repository. -/
inductive Stage where
  | deciding
  | chosen (turnsOn : Bool)
  | publishing (turnsOn : Bool)
  | stored (turnsOn : Bool)
  | returning (turnsOn : Bool)
  deriving DecidableEq

/-- A toggle, with the count that was shown when it started. -/
structure Toggle where
  kind : Kind
  currentCount : Int
  stage : Stage
  deriving DecidableEq

/-- A handler that waits: a toggle, or a fetch, for one of its three answers. -/
inductive Call where
  | toggling (toggle : Toggle)
  | checkingLiked
  | checkingReposted (isLiked : Bool)
  | counting (isLiked isReposted : Bool) (likeCount repostCount : Option Int)
  deriving DecidableEq

/-- A call that a handler waits for returns, or one of the counts is answered, or it throws. -/
inductive Reply where
  | done
  | counted (kind : Kind)
  | failed
  deriving DecidableEq

inductive Action where
  | subscriptionRequested
  | fetchRequested
  | toggled (kind : Kind)
  | emitted (index : Nat)
  | changed (kind : Kind) (isHeld : Bool)
  | answer (index : Nat) (reply : Reply)

/-- The bloc of a video, with the repositories, the streams and the handlers that wait. -/
structure Bloc where
  isAddressable : Bool
  state : VideoInteractionsState
  repository : Kind → Holding
  streams : List Stream
  calls : List Call

def newCount (turnsOn : Bool) (currentCount : Int) : Int :=
  max 0 (if turnsOn then currentCount + 1 else currentCount - 1)

def toggleFailed : Kind → Error
  | .like => .likeFailed
  | .repost => .repostFailed

namespace Bloc

variable (bloc : Bloc)

/-- `_onSubscriptionRequested`: each stream begins with what is held. -/
def subscriptionRequested : Bloc :=
  { bloc with
    streams := bloc.streams ++ ⟨.like, [(bloc.repository .like).isHeld]⟩ ::
      if bloc.isAddressable then [⟨.repost, [(bloc.repository .repost).isHeld]⟩] else [] }

/-- A repository holds the interaction or holds it no more, and tells its streams. -/
def hold (kind : Kind) (isHeld : Bool) : Bloc :=
  { bloc with
    repository := Function.update bloc.repository kind
      { bloc.repository kind with isHeld := isHeld }
    streams := bloc.streams.map fun stream =>
      if stream.kind = kind then { stream with waiting := stream.waiting ++ [isHeld] }
      else stream }

def fetchRequested : Bloc :=
  if bloc.state.status = .success ∨ bloc.state.status = .loading then bloc
  else
    { bloc with
      state := { bloc.state with status := .loading }
      calls := bloc.calls ++ [.checkingLiked] }

/-- `_onLikeToggled` and `_onRepostToggled`, up to their first await. -/
def toggled (kind : Kind) : Bloc :=
  let interaction := bloc.state.interaction kind
  if interaction.isInProgress then bloc
  else if kind = .repost ∧ bloc.isAddressable = false then
    { bloc with state := { bloc.state with error := some .repostFailed } }
  else
    { bloc with
      state := bloc.state.copyWith kind { interaction with isInProgress := true } none
      calls := bloc.calls ++ [.toggling ⟨kind, interaction.count.getD 0, .deciding⟩] }

/-- A value that waits is taken from a stream. The count is left to the toggles. -/
def emitted (index : Nat) : Option Bloc :=
  bloc.streams[index]?.bind fun stream =>
    stream.waiting.head?.map fun isOn =>
      { bloc with
        state := bloc.state.copyWith stream.kind
          { bloc.state.interaction stream.kind with isOn := isOn } bloc.state.error
        streams := bloc.streams.set index { stream with waiting := stream.waiting.tail } }

/-- The count a toggle goes on from: of likes the shown one, of reposts the one shown before. -/
def currentCount (toggle : Toggle) : Int :=
  match toggle.kind with
  | .like => (bloc.state.interaction .like).count.getD 0
  | .repost => toggle.currentCount

def ends (kind : Kind) (interaction : Interaction) (error : Option Error) :
    VideoInteractionsState :=
  bloc.state.copyWith kind { interaction with isInProgress := false } error

/-- A toggle after its call returned. The repository refuses to like what is liked. -/
def resumeToggle (toggle : Toggle) : Bloc × Option Stage :=
  let interaction := bloc.state.interaction toggle.kind
  let holding := bloc.repository toggle.kind
  match toggle.stage with
  | .deciding => (bloc, some (.chosen !holding.isHeld))
  | .chosen turnsOn =>
      if holding.isHeld = turnsOn then
        ({ bloc with
          state := bloc.ends toggle.kind
            { interaction with isOn := turnsOn } bloc.state.error }, none)
      else (bloc, some (.publishing turnsOn))
  | .publishing turnsOn => (bloc.hold toggle.kind turnsOn, some (.stored turnsOn))
  | .stored turnsOn =>
      let cached := match toggle.kind with
        | .like => holding.cached
        | .repost => some (newCount turnsOn toggle.currentCount)
      ({ bloc with
        repository :=
          Function.update bloc.repository toggle.kind { holding with cached := cached } },
        some (.returning turnsOn))
  | .returning turnsOn =>
      ({ bloc with
        state := bloc.ends toggle.kind { interaction with
          isOn := turnsOn
          count := some (newCount turnsOn (bloc.currentCount toggle)) } bloc.state.error }, none)

def startCounting (isLiked isReposted : Bool) : Call :=
  .counting isLiked isReposted (bloc.state.interaction .like).count
    (if bloc.isAddressable then (bloc.repository .repost).cached else none)

def fetched (isOn : Kind → Bool) (count : Kind → Int) : VideoInteractionsState where
  status := .success
  interaction kind :=
    { bloc.state.interaction kind with isOn := isOn kind, count := some (count kind) }
  error := none

/-- A handler goes on, and whether it is a fetch that succeeds. -/
def resume (call : Call) (reply : Reply) : Option (Bloc × Option Call × Bool) :=
  match call, reply with
  | .toggling toggle, .done =>
      let (next, stage) := bloc.resumeToggle toggle
      some (next, stage.map fun stage => .toggling { toggle with stage := stage }, false)
  | .toggling toggle, .failed =>
      match toggle.stage with
      | .stored _ | .returning _ => none
      | _ => some ({ bloc with
          state := bloc.ends toggle.kind (bloc.state.interaction toggle.kind)
            (some (toggleFailed toggle.kind)) }, none, false)
  | .checkingLiked, .done =>
      some (bloc, some (if bloc.isAddressable then
          .checkingReposted (bloc.repository .like).isHeld
        else bloc.startCounting (bloc.repository .like).isHeld false), false)
  | .checkingReposted isLiked, .done =>
      some (bloc, some (bloc.startCounting isLiked (bloc.repository .repost).isHeld), false)
  | .counting isLiked isReposted none repostCount, .counted .like =>
      some (bloc, some (.counting isLiked isReposted (some (bloc.repository .like).count)
        repostCount), false)
  | .counting isLiked isReposted likeCount none, .counted .repost =>
      some (bloc, some (.counting isLiked isReposted likeCount
        (some (bloc.repository .repost).count)), false)
  | .counting isLiked isReposted (some likeCount) (some repostCount), .done =>
      some ({ bloc with
        state := bloc.fetched
          (fun | .like => isLiked | .repost => isReposted)
          (fun | .like => likeCount | .repost => repostCount) }, none, true)
  | _, .failed =>
      some ({ bloc with
        state := { bloc.state with status := .success, error := some .fetchFailed } }, none, false)
  | _, _ => none

end Bloc

/-- One handler up to an await, one that goes on, one value of a stream, or a change by another
screen. -/
def step (bloc : Bloc) : Action → Option (Bloc × Bool)
  | .subscriptionRequested => some (bloc.subscriptionRequested, false)
  | .fetchRequested => some (bloc.fetchRequested, false)
  | .toggled kind => some (bloc.toggled kind, false)
  | .emitted index => (bloc.emitted index).map fun next => (next, false)
  | .changed kind isHeld =>
      if kind = .repost ∧ bloc.isAddressable = false then none
      else some (bloc.hold kind isHeld, false)
  | .answer index reply =>
      bloc.calls[index]?.bind fun call =>
        (bloc.resume call reply).map fun (next, stage, fetched) =>
          ({ next with calls := proceed bloc.calls index stage }, fetched)

def initialBloc (isAddressable : Bool) (likes reposts : Holding) : Bloc where
  isAddressable := isAddressable
  state := {}
  repository
    | .like => likes
    | .repost => { reposts with isHeld := isAddressable && reposts.isHeld }
  streams := []
  calls := []

end Divine.VideoInteractions
