/-
This file embeds the queue of social actions that wait for a connection.
-/

import Mathlib.Data.List.Basic

namespace Divine.Repositories

inductive PendingActionType where
  | like
  | unlike
  | repost
  | unrepost
  | follow
  | unfollow
  deriving DecidableEq

def PendingActionType.opposite : PendingActionType → PendingActionType
  | .like => .unlike
  | .unlike => .like
  | .repost => .unrepost
  | .unrepost => .repost
  | .follow => .unfollow
  | .unfollow => .follow

inductive PendingActionStatus where
  | pending
  | syncing
  | completed
  | failed
  deriving DecidableEq

/-- An action of the user; its id is made of the time it is created at. -/
structure PendingAction where
  id : Nat
  type : PendingActionType
  targetId : String
  authorPubkey : Option String
  addressableId : Option String
  targetKind : Option Nat
  status : PendingActionStatus
  deriving DecidableEq

/-- The actions of the user in the order they were created in. -/
structure PendingActionService where
  actions : List PendingAction
  created : Nat
  deriving DecidableEq

def PendingAction.isPending (action : PendingAction) (type : PendingActionType)
    (targetId : String) : Bool :=
  action.type = type && action.targetId = targetId && action.status = .pending

namespace PendingActionService

variable (service : PendingActionService)

def findConflictingAction (targetId : String) (type : PendingActionType) :
    Except Unit (Option PendingAction) :=
  match service.actions.filter fun action => action.isPending type targetId with
  | [] => .ok none
  | [action] => .ok (some action)
  | _ => .error ()

def deleteAction (id : Nat) : PendingActionService :=
  { service with actions := service.actions.filter fun action => action.id ≠ id }

def queueAction (type : PendingActionType) (targetId : String)
    (authorPubkey addressableId : Option String) (targetKind : Option Nat) :
    Except Unit PendingActionService := do
  match ← service.findConflictingAction targetId type.opposite with
  | some existing => .ok (service.deleteAction existing.id)
  | none => .ok {
      actions := service.actions ++ [{
        id := service.created
        type := type
        targetId := targetId
        authorPubkey := authorPubkey
        addressableId := addressableId
        targetKind := targetKind
        status := .pending }]
      created := service.created + 1 }

def updateStatus (id : Nat) (status : PendingActionStatus) : PendingActionService :=
  { service with
    actions := service.actions.map fun action =>
      if action.id = id then { action with status := status } else action }

end PendingActionService

end Divine.Repositories
