/-
This file models the list of what a user has muted, as the app keeps it on the device and
publishes it: an event of kind 10000, of which relays keep the newest.
-/

import Mathlib.Data.List.Basic
import Mathlib.Data.Option.Basic

namespace Divine.MuteService

/-! ### Items -/

inductive MuteType where
  | user | hashtag | keyword | thread
  deriving DecidableEq

def MuteType.value : MuteType → String
  | .user => "p"
  | .hashtag => "t"
  | .keyword => "word"
  | .thread => "e"

structure MuteItem where
  type : MuteType
  value : String
  reason : Option String := none
  createdAt : Int := 0
  expireAt : Option Int := none
  deriving DecidableEq

namespace MuteItem

variable (item : MuteItem)

def isExpired (now : Int) : Bool := item.expireAt.any fun expireAt => expireAt < now

def isPermanent : Bool := item.expireAt.isNone

def toTag : List String :=
  [item.type.value, item.value] ++ (item.reason.filter fun reason => reason ≠ "").toList

def equals (other : MuteItem) : Bool := other.type = item.type ∧ other.value = item.value

end MuteItem

/-! ### Lists on relays -/

/-- The content of a list: a text, or tags that are encrypted. -/
inductive Content where
  | text (text : String)
  | encrypted (tags : List (List String))
  deriving DecidableEq

/-- An event of kind 10000. -/
structure MuteList where
  tags : List (List String)
  content : Content
  deriving DecidableEq

def Content.privateTags : Content → List (List String)
  | .text _ => []
  | .encrypted tags => tags

/-! ### The service -/

/-- The items on the device, the newest list of the user on relays, and the time. -/
structure State where
  mutedItems : List MuteItem
  newest : Option MuteList
  now : Int
  deriving DecidableEq

def muteList (mutedItems : List MuteItem) (now : Int) : MuteList where
  tags := ["client", "diVine"] ::
    ((mutedItems.filter fun item => !item.isExpired now).filter MuteItem.isPermanent).map
      MuteItem.toTag
  content := .text "divine mute list"

def contains (mutedItems : List MuteItem) (item : MuteItem) : Bool :=
  mutedItems.any fun other => other.equals item

def remove (mutedItems : List MuteItem) (item : MuteItem) : List MuteItem :=
  mutedItems.eraseP fun other => other.equals item

def add (mutedItems : List MuteItem) (item : MuteItem) : List MuteItem :=
  if contains mutedItems item then mutedItems else mutedItems ++ [item]

/-- What is asked of the service, with whether relays accept the list; another client publishes a
list; time goes on; and the service is made anew. -/
inductive Action where
  | create (stored : Option (List MuteItem)) (newest : Option MuteList)
  | cleanupExpiredMutes
  | muteItem (type : MuteType) (value : String) (reason : Option String) (duration : Option Int)
      (accepted : Bool)
  | unmuteItem (type : MuteType) (value : String) (accepted : Bool)
  | importMuteList (items : List MuteItem) (accepted : Bool)
  | clearAllMutes (accepted : Bool)
  | otherClient (list : MuteList)
  | elapsed (time : Nat)
  deriving DecidableEq

namespace State

variable (state : State)

def publish (mutedItems : List MuteItem) (accepted : Bool) : State × Option MuteList :=
  let list := muteList mutedItems state.now
  ({ state with
    mutedItems := mutedItems
    newest := if accepted then some list else state.newest }, some list)

def item (type : MuteType) (value : String) (reason : Option String) (duration : Option Int) :
    MuteItem where
  type := type
  value := value
  reason := reason
  createdAt := state.now
  expireAt := duration.map fun duration => state.now + duration

end State

def step (state : State) : Action → Option (State × Option MuteList)
  | .create stored newest => some (⟨stored.getD [], newest, state.now⟩, none)
  | .cleanupExpiredMutes =>
      some ({ state with
        mutedItems := state.mutedItems.filter fun item => !item.isExpired state.now }, none)
  | .muteItem type value reason duration accepted =>
      let item := state.item type value reason duration
      if contains state.mutedItems item then some (state, none)
      else some (state.publish (state.mutedItems ++ [item]) accepted)
  | .unmuteItem type value accepted =>
      let item := state.item type value none none
      if contains state.mutedItems item then
        some (state.publish (remove state.mutedItems item) accepted)
      else some (state, none)
  | .importMuteList items accepted =>
      if items.foldl add state.mutedItems = state.mutedItems then some (state, none)
      else some (state.publish (items.foldl add state.mutedItems) accepted)
  | .clearAllMutes accepted => some (state.publish [] accepted)
  | .otherClient list => some ({ state with newest := some list }, none)
  | .elapsed time => some ({ state with now := state.now + time }, none)

def initialState : State := ⟨[], none, 0⟩

end Divine.MuteService
