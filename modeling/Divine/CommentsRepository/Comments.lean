/-
This file embeds how the repository of comments reads its events: the relation of a
comment to its root and to what it replies to, out of the tags, and whether an event is
about a root at all.
-/

import Divine.Library.LastWins
import Divine.Library.Sorting
import Divine.NostrSdk.DynamicEvent

namespace Divine.CommentsRepository

open Dictionary LastWins Models NostrSdk Sorting

/-! ### Comments -/

def commentKind : Nat := 1111

structure Comment where
  id : String
  content : String
  authorPubkey : String
  createdAt : DateTime
  rootEventId : String
  rootAuthorPubkey : String
  replyToEventId : Option String
  replyToAuthorPubkey : Option String
  deriving DecidableEq

/-- The variables that the loop over the tags sets. -/
structure ParsedTags where
  parsedRootEventId : Option String
  parsedRootAddressableId : Option String
  replyToEventId : Option String
  rootAuthorPubkey : Option String
  replyToAuthorPubkey : Option String
  parentKind : Option String
  deriving DecidableEq

def ParsedTags.empty : ParsedTags := ⟨none, none, none, none, none, none⟩

def fourthOr (rest : List TagElement) (held : Option String) : Except DartError (Option String) :=
  match rest with
  | _ :: fourth :: _ => fourth.asString.map some
  | _ => .ok held

def readTyped (parsed : ParsedTags) (tagType tagValue : String) (rest : List TagElement) :
    Except DartError ParsedTags :=
  if tagType = "E" then
    (fourthOr rest parsed.rootAuthorPubkey).map fun author =>
      { parsed with parsedRootEventId := some tagValue, rootAuthorPubkey := author }
  else if tagType = "A" then .ok { parsed with parsedRootAddressableId := some tagValue }
  else if tagType = "P" then
    .ok { parsed with rootAuthorPubkey := parsed.rootAuthorPubkey <|> some tagValue }
  else if tagType = "e" then
    (fourthOr rest parsed.replyToAuthorPubkey).map fun author =>
      { parsed with replyToEventId := some tagValue, replyToAuthorPubkey := author }
  else if tagType = "k" then .ok { parsed with parentKind := some tagValue }
  else if tagType = "p" then
    .ok { parsed with replyToAuthorPubkey := parsed.replyToAuthorPubkey <|> some tagValue }
  else .ok parsed

def readTag (parsed : ParsedTags) (rawTag : DynamicTag) : Except DartError ParsedTags := do
  match ← rawTag.asList with
  | first :: second :: rest => do
      let tagType ← first.asString
      let tagValue ← second.asString
      readTyped parsed tagType tagValue rest
  | _ => pure parsed

def addressAuthor (address : String) : Option String :=
  ((address.toList.splitOn ':')[1]?).map String.ofList

def ParsedTags.comment (parsed : ParsedTags) (event : DynamicEvent) (createdAt : DateTime)
    (rootEventId : String) (rootEventKind : Nat) : Comment :=
  let rootAuthorPubkey :=
    parsed.rootAuthorPubkey <|> parsed.parsedRootAddressableId.bind addressAuthor
  let isTopLevel := parsed.parentKind = some (toString rootEventKind) ∨
    parsed.replyToEventId = parsed.parsedRootEventId
  { id := event.id
    content := event.content
    authorPubkey := event.pubkey
    createdAt := createdAt
    rootEventId := parsed.parsedRootEventId.getD rootEventId
    replyToEventId := if isTopLevel then none else parsed.replyToEventId
    rootAuthorPubkey := rootAuthorPubkey.getD ""
    replyToAuthorPubkey := if isTopLevel then none else parsed.replyToAuthorPubkey }

def createdAtDateTime (event : DynamicEvent) : Except DartError DateTime :=
  (DateTime.fromMillisecondsSinceEpoch (wrapped (event.createdAt * 1000))).elim
    (.error .argumentError) .ok

/-- `_eventToComment`. Nothing in it throws an exception, for which it would return `null`. -/
def eventToComment (event : DynamicEvent) (rootEventId : String) (rootEventKind : Nat) :
    Except DartError Comment := do
  let parsed ← event.tags.foldlM readTag ParsedTags.empty
  let createdAt ← createdAtDateTime event
  pure (parsed.comment event createdAt rootEventId rootEventKind)

end Divine.CommentsRepository
