/-
This file models an event as it was received, the tags of which may be any values: a tag
need not be a list, and an element of a list need not be a text.
-/

import Divine.NostrSdk.Filter

namespace Divine.NostrSdk

/-! ### Events -/

/-- An element of a tag: a text, or a value of another type. -/
inductive TagElement where
  | text (value : String)
  | other
  deriving DecidableEq

/-- A tag: a list of elements, or a value of another type. -/
inductive DynamicTag where
  | list (elements : List TagElement)
  | other
  deriving DecidableEq

structure DynamicEvent where
  id : String
  pubkey : String
  createdAt : Int
  kind : Nat
  tags : List DynamicTag
  content : String
  deriving DecidableEq

/-! ### Casts -/

/-- The errors of the language, which are no exceptions. -/
inductive DartError where
  | typeError
  | argumentError
  deriving DecidableEq

def TagElement.asString : TagElement → Except DartError String
  | text value => .ok value
  | other => .error .typeError

def DynamicTag.asList : DynamicTag → Except DartError (List TagElement)
  | list elements => .ok elements
  | other => .error .typeError

/-! ### Filters -/

def leadingTexts : List TagElement → List String
  | .text value :: rest => value :: leadingTexts rest
  | .other :: _ | [] => []

/-- The event as a relay's filter sees it, each tag up to its first element that is no text. -/
def DynamicEvent.strict (event : DynamicEvent) : Models.Event where
  id := event.id
  pubkey := event.pubkey
  createdAt := event.createdAt
  kind := event.kind
  tags := event.tags.map fun tag =>
    match tag with
    | .list elements => .list (leadingTexts elements)
    | .other => .other
  content := event.content

def DynamicTag.valueOf (name : String) : DynamicTag → Option String
  | list (.text first :: .text value :: _) => if first = name then some value else none
  | _ => none

def DynamicEvent.values (event : DynamicEvent) (name : String) : List String :=
  event.tags.filterMap (DynamicTag.valueOf name)

theorem tagValues_strict (event : DynamicEvent) (name : String) :
    tagValues event.strict name = event.values name := by
  unfold tagValues DynamicEvent.strict DynamicEvent.values
  rw [List.filterMap_map]
  refine List.filterMap_congr fun tag _ => ?_
  rcases tag with (_ | ⟨first | _, _ | ⟨value | _, rest⟩⟩) | _ <;> rfl

/-- Relays hold events, and answer a filter without a limit with those that it accepts, in any
order. -/
def AnsweredFrom (stored : List DynamicEvent) (queryEvents : Filter → List DynamicEvent) : Prop :=
  ∀ filter : Filter, filter.limit = none →
    (queryEvents filter).Perm (stored.filter fun event => filter.checkEvent event.strict)

end Divine.NostrSdk
