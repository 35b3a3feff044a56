/-
This file embeds the calls that follow and unfollow users while others are under way.
-/

import Divine.Library.Transition
import Divine.Repositories.Follow

namespace Divine.Repositories

open Edits Transition

/-! ### Calls -/

/-- Where a call is held up, or how it ended. It is rejected when no contact list can be made of the
keys. -/
inductive FollowStage where
  | queueing
  | broadcasting (tags : List (List String)) (content : String)
  | rejected
  | saving
  | succeeded
  | failed
  deriving DecidableEq

structure FollowCall where
  change : Edit String
  previousFollowList : List String
  stage : FollowStage
  superseded : Bool
  deriving DecidableEq

def FollowStage.isWaiting : FollowStage → Bool
  | .queueing | .broadcasting _ _ | .rejected => true
  | .saving | .succeeded | .failed => false

def FollowStage.isFinished : FollowStage → Bool
  | .succeeded | .failed => true
  | .queueing | .broadcasting _ _ | .rejected | .saving => false

/-- The repository with the calls in order, the saves that no call waits for, and the newest contact
list that was processed. -/
structure FollowClient where
  repository : FollowRepository
  calls : List FollowCall
  unsaved : Nat
  newest : List String
  deriving DecidableEq

namespace FollowClient

def idle (repository : FollowRepository) : FollowClient where
  repository := repository
  calls := []
  unsaved := 0
  newest := repository.followingPubkeys

variable (client : FollowClient)

def setStage (index : Nat) (call : FollowCall) (stage : FollowStage) : FollowClient :=
  { client with calls := client.calls.set index { call with stage := stage } }

variable (isHexadecimal : String → Bool)

/-- `follow` and `unfollow` up to their first await, when there is a change to make. -/
def startChange (change : Edit String) (offline : Bool) : FollowClient :=
  { client with
    repository := client.repository.makeChange change
    calls := client.calls ++ [{
      change := change
      previousFollowList := client.repository.followingPubkeys
      stage :=
        if offline then .queueing
        else
          match (client.repository.makeChange change).contactListToSend isHexadecimal with
          | .error _ => .rejected
          | .ok (tags, content) => .broadcasting tags content
      superseded := false }] }

/-- A newer contact list replaces what the calls did that are decided. -/
def receive (event : ContactListEvent) : FollowClient :=
  if client.repository.isNewer event then
    { repository := client.repository.processContactListEvent event
      calls := client.calls.map fun call =>
        { call with superseded := call.superseded || !call.stage.isWaiting }
      unsaved := client.unsaved + 1
      newest := event.followedPubkeys }
  else client

/-- A call resumes after its contact list was sent, or after that failed. -/
def resumeBroadcast (index : Nat) (call : FollowCall) :
    FollowStage → Option Nat → Option FollowClient
  | .broadcasting tags content, some createdAt =>
      some { client.setStage index call .saving with
        repository := client.repository.contactListSent ⟨createdAt, tags, content⟩ }
  | .broadcasting _ _, none | .rejected, none =>
      some { client.setStage index call .failed with
        repository := client.repository.rollback call.previousFollowList }
  | _, _ => none

/-- A call resumes after its change was queued, or after that threw, which it does not catch. -/
def resumeQueue (index : Nat) (call : FollowCall) (queued : Bool) :
    FollowStage → Option FollowClient
  | .queueing => some (client.setStage index call (if queued then .saving else .failed))
  | _ => none

def resumeSave (index : Nat) (call : FollowCall) (available : Bool) :
    FollowStage → Option FollowClient
  | .saving =>
      some { client.setStage index call .succeeded with
        repository :=
          if available then client.repository.saveToLocalStorage else client.repository }
  | _ => none

end FollowClient

inductive FollowAction where
  | call (change : Edit String) (offline : Bool)
  | queued (index : Nat) (queued : Bool)
  | broadcasted (index : Nat) (accepted : Option Nat)
  | saved (index : Nat) (available : Bool)
  | receivedSaved (available : Bool)
  | received (event : ContactListEvent)
  deriving DecidableEq

/-- One step of a call, or a contact list that arrives. -/
def followStep (isHexadecimal : String → Bool) (client : FollowClient) :
    FollowAction → Option FollowClient
  | .call change offline =>
      match client.repository.checkChange change with
      | .ok true => some (client.startChange isHexadecimal change offline)
      | _ => some client
  | .queued index queued =>
      client.calls[index]?.bind fun call => client.resumeQueue index call queued call.stage
  | .broadcasted index accepted =>
      client.calls[index]?.bind fun call => client.resumeBroadcast index call call.stage accepted
  | .saved index available =>
      client.calls[index]?.bind fun call => client.resumeSave index call available call.stage
  | .receivedSaved available =>
      if client.unsaved = 0 then none
      else some { client with
        repository :=
          if available then client.repository.saveToLocalStorage else client.repository
        unsaved := client.unsaved - 1 }
  | .received event => some (client.receive event)

namespace FollowClient

variable (client : FollowClient)

def Finished : Prop := ∀ call ∈ client.calls, call.stage.isFinished = true

instance : Decidable client.Finished :=
  inferInstanceAs (Decidable (∀ call ∈ client.calls, call.stage.isFinished = true))

/-- The changes of the calls that no newer contact list replaced. -/
def changes : List (Edit String) :=
  (client.calls.filter fun call => !call.superseded).map FollowCall.change

def succeeded : List (Edit String) :=
  (client.calls.filter fun call => !call.superseded && call.stage == .succeeded).map
    FollowCall.change

def LeftBy (call : FollowCall) : Prop :=
  client.repository.followingPubkeys =
    ((client.repository.rollback call.previousFollowList).makeChange call.change).followingPubkeys

/-- A call is alone on its key, a failed broadcast finds the list as its call left it, a contact
list that arrives has the undecided changes, and what is offline is queued. -/
def Undisturbed : FollowAction → Prop
  | .call change _ => change.key ∉ client.changes.map Edit.key
  | .queued _ queued => queued = true
  | .broadcasted index accepted => accepted = none → ∀ call ∈ client.calls[index]?,
      client.LeftBy call ∧ ¬Held client.newest call.change
  | .received event => client.repository.isNewer event = true → ∀ call ∈ client.calls,
      call.stage.isWaiting = true → Held event.followedPubkeys call.change
  | .saved _ _ | .receivedSaved _ => True

end FollowClient

end Divine.Repositories
