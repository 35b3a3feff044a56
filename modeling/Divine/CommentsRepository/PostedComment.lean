/-
This file embeds how a comment is posted and settles when it reads back.
-/

import Divine.CommentsRepository.Comments

namespace Divine.CommentsRepository

open Models NostrSdk

/-! ### Posting -/

structure PostArguments where
  content : String
  rootEventId : String
  rootEventKind : Nat
  rootEventAuthorPubkey : String
  rootAddressableId : Option String := none
  replyToEventId : Option String := none
  replyToAuthorPubkey : Option String := none
  deriving DecidableEq

/-- What `publishEvent` ends with. A signer may give another id, and changes nothing else. -/
inductive Publication where
  | sent (id : String)
  | notSent
  | threw (message : String)
  deriving DecidableEq

inductive PostFailure where
  | invalidCommentContent (message : String)
  | postCommentFailed (message : String)
  | error (error : DartError)
  deriving DecidableEq

namespace PostArguments

variable (arguments : PostArguments)

def trimmedContent : String := String.ofList (trimmed arguments.content.toList)

def address : Option String := arguments.rootAddressableId.filter fun address => address ≠ ""

/-- The event and the author that are replied to, when both are given. -/
def reply : Option (String × String) :=
  arguments.replyToEventId.bind fun id =>
    arguments.replyToAuthorPubkey.map fun author => (id, author)

def rootTags : List (List String) :=
  [["E", arguments.rootEventId, "", arguments.rootEventAuthorPubkey]] ++
    arguments.address.toList.map (fun address => ["A", address, ""]) ++
      [["K", toString arguments.rootEventKind], ["P", arguments.rootEventAuthorPubkey]]

def parentTags : List (List String) :=
  match arguments.reply with
  | some (replyToEventId, replyToAuthorPubkey) =>
      [["e", replyToEventId, "", replyToAuthorPubkey], ["k", toString commentKind],
        ["p", replyToAuthorPubkey]]
  | none =>
      [["e", arguments.rootEventId, "", arguments.rootEventAuthorPubkey]] ++
        arguments.address.toList.map (fun address => ["a", address, ""]) ++
          [["k", toString arguments.rootEventKind], ["p", arguments.rootEventAuthorPubkey]]

def returned (sentEvent : DynamicEvent) (createdAt : DateTime) : Comment where
  id := sentEvent.id
  content := arguments.trimmedContent
  authorPubkey := sentEvent.pubkey
  createdAt := createdAt
  rootEventId := arguments.rootEventId
  rootAuthorPubkey := arguments.rootEventAuthorPubkey
  replyToEventId := arguments.replyToEventId
  replyToAuthorPubkey := arguments.replyToAuthorPubkey

end PostArguments

def writtenTag (elements : List String) : DynamicTag := .list (elements.map .text)

/-- Whether a key is one of 32 bytes in hexadecimal digits. -/
def keyIsValid (key : String) : Bool :=
  key.toList.length = 64 && key.toList.all fun digit => (digitValue digit).isSome

def postComment (publicKey : String) (now : Int) (hash : String) (publication : Publication)
    (arguments : PostArguments) : Except PostFailure (Comment × DynamicEvent) :=
  if arguments.trimmedContent = "" then
    .error (.invalidCommentContent "Comment cannot be empty")
  else if keyIsValid publicKey then
    let event : DynamicEvent :=
      { id := hash
        pubkey := publicKey
        createdAt := now
        kind := commentKind
        tags := (arguments.rootTags ++ arguments.parentTags).map writtenTag
        content := arguments.trimmedContent }
    match publication with
    | .threw message => .error (.postCommentFailed s!"Failed to post comment: {message}")
    | .notSent => .error (.postCommentFailed "Failed to publish comment")
    | .sent id =>
        let sentEvent := { event with id := id }
        match createdAtDateTime event with
        | .error error => .error (.error error)
        | .ok createdAt => .ok (arguments.returned sentEvent createdAt, sentEvent)
  else .error (.error .argumentError)

/-! ### Reading back -/

/-- Nothing of a reply is given, or all of it, for an event that is not the root. -/
def ReadsBack (arguments : PostArguments) : Prop :=
  (arguments.replyToEventId = none ∧ arguments.replyToAuthorPubkey = none) ∨
    ∃ id author, arguments.replyToEventId = some id ∧ arguments.replyToAuthorPubkey = some author ∧
      id ≠ arguments.rootEventId ∧ arguments.rootEventKind ≠ commentKind

variable {publicKey hash : String} {now : Int} {publication : Publication}
  {arguments : PostArguments} {comment : Comment} {event : DynamicEvent}

theorem posted_eq
    (posted : postComment publicKey now hash publication arguments = .ok (comment, event)) :
    event.tags = (arguments.rootTags ++ arguments.parentTags).map writtenTag ∧
      event.content = arguments.trimmedContent ∧
      ∃ createdAt, createdAtDateTime event = .ok createdAt ∧
        comment = arguments.returned event createdAt := by
  unfold postComment at posted
  split_ifs at posted
  cases publication with
  | threw | notSent => cases posted
  | sent id =>
    dsimp only at posted
    split at posted
    · cases posted
    · rename_i createdAt dated
      cases Except.ok.inj posted
      exact ⟨rfl, rfl, createdAt, dated, rfl⟩

/-- What the loop reads from the tags of a comment: a reply to the root when none is given. -/
def PostArguments.parsed (arguments : PostArguments) : ParsedTags where
  parsedRootEventId := some arguments.rootEventId
  parsedRootAddressableId := arguments.address
  replyToEventId := some ((arguments.reply.map Prod.fst).getD arguments.rootEventId)
  rootAuthorPubkey := some arguments.rootEventAuthorPubkey
  replyToAuthorPubkey := some ((arguments.reply.map Prod.snd).getD arguments.rootEventAuthorPubkey)
  parentKind := some (toString (arguments.reply.elim arguments.rootEventKind fun _ => commentKind))

theorem readTag_tags (arguments : PostArguments) :
    ((arguments.rootTags ++ arguments.parentTags).map writtenTag).foldlM readTag ParsedTags.empty =
      .ok arguments.parsed := by
  rw [PostArguments.rootTags, PostArguments.parentTags, PostArguments.parsed]
  cases arguments.reply with
  | some | none =>
    cases arguments.address with
    | none => rfl
    | some address => rfl

theorem toString_eq_iff {kind other : Nat} : toString kind = toString other ↔ kind = other := by
  refine ⟨fun same => ?_, fun same => same ▸ rfl⟩
  have digits : Nat.toDigits 10 kind = Nat.toDigits 10 other := by
    simpa [Nat.toString_eq_ofList_toDigits] using congrArg String.toList same
  rw [← @Nat.ofDigitChars_ten_toDigits kind, digits, Nat.ofDigitChars_ten_toDigits]

/-- A reply that is given is read, unless it is to the root or the root is a comment. -/
def PostArguments.readReply (arguments : PostArguments) : Option (String × String) :=
  arguments.reply.filter fun reply =>
    reply.1 ≠ arguments.rootEventId ∧ arguments.rootEventKind ≠ commentKind

/-- A comment is read with its reply, unless it is taken for a comment on the root. -/
theorem eventToComment_posted
    (posted : postComment publicKey now hash publication arguments = .ok (comment, event)) :
    ∃ createdAt, comment = arguments.returned event createdAt ∧
      eventToComment event arguments.rootEventId arguments.rootEventKind = .ok
        { arguments.returned event createdAt with
          replyToEventId := arguments.readReply.map Prod.fst
          replyToAuthorPubkey := arguments.readReply.map Prod.snd } := by
  obtain ⟨tags, content, createdAt, dated, same⟩ := posted_eq posted
  refine ⟨createdAt, same, ?_⟩
  rw [eventToComment, tags, readTag_tags, dated]
  refine congrArg Except.ok ?_
  rw [ParsedTags.comment, content, PostArguments.parsed, PostArguments.readReply]
  cases arguments.reply with
  | none =>
    simp only [Option.elim_none, true_or, if_true]
    rfl
  | some reply =>
    simp only [Option.elim_some, Option.map_some, Option.getD_some, Option.some.injEq,
      toString_eq_iff]
    by_cases top : commentKind = arguments.rootEventKind ∨ reply.1 = arguments.rootEventId
    · have rejected : ¬(reply.1 ≠ arguments.rootEventId ∧ arguments.rootEventKind ≠ commentKind) :=
        fun kept => top.elim (fun kind => kept.2 kind.symm) kept.1
      simp only [if_pos top, Option.filter_some, decide_eq_false rejected]
      rfl
    · have kept : reply.1 ≠ arguments.rootEventId ∧ arguments.rootEventKind ≠ commentKind :=
        ⟨fun same => top (.inr same), fun kind => top (.inl kind.symm)⟩
      simp only [if_neg top, Option.filter_some, decide_eq_true kept]
      rfl

theorem readReply_iff : arguments.readReply.map Prod.fst = arguments.replyToEventId ∧
    arguments.readReply.map Prod.snd = arguments.replyToAuthorPubkey ↔ ReadsBack arguments := by
  rw [PostArguments.readReply, PostArguments.reply, ReadsBack]
  cases arguments.replyToEventId with
  | none =>
    simp only [Option.bind_none, Option.filter_none, Option.map_none, true_and, reduceCtorEq,
      false_and, exists_false, or_false]
    exact eq_comm
  | some id =>
    cases arguments.replyToAuthorPubkey with
    | none => simp
    | some author =>
      by_cases kept : id ≠ arguments.rootEventId ∧ arguments.rootEventKind ≠ commentKind
      · simp [Option.filter_some, kept]
      · simp [Option.filter_some, kept]

/-- A posted comment reads back exactly when nothing of a reply was given, or all of it, for a root
that is no comment. -/
theorem postComment_readsBack_iff
    (posted : postComment publicKey now hash publication arguments = .ok (comment, event)) :
    eventToComment event arguments.rootEventId arguments.rootEventKind = .ok comment ↔
      ReadsBack arguments := by
  obtain ⟨createdAt, rfl, read⟩ := eventToComment_posted posted
  rw [read, Except.ok.injEq, ← readReply_iff]
  constructor
  · intro same
    exact ⟨congrArg Comment.replyToEventId same, congrArg Comment.replyToAuthorPubkey same⟩
  · rintro ⟨ids, authors⟩
    rw [ids, authors]
    rfl

def sampleKey : String := String.ofList (List.replicate 64 '1')

def sampleReply : PostArguments where
  content := " nice "
  rootEventId := "video"
  rootEventKind := 34236
  rootEventAuthorPubkey := "creator"
  rootAddressableId := some "34236:creator:d"
  replyToEventId := some "comment"
  replyToAuthorPubkey := some "fan"

theorem exists_posted (arguments : PostArguments)
    (succeeds : (postComment sampleKey 1700000000 "hash" (.sent "id") arguments).toOption.isSome) :
    ∃ comment event, postComment sampleKey 1700000000 "hash" (.sent "id") arguments =
      .ok (comment, event) := by
  cases result : postComment sampleKey 1700000000 "hash" (.sent "id") arguments with
  | error failure =>
    rw [result] at succeeds
    cases succeeds
  | ok posted => exact ⟨posted.1, posted.2, rfl⟩

theorem postComment_readsBack_iff_sample : ∃ comment event,
    postComment sampleKey 1700000000 "hash" (.sent "id") sampleReply = .ok (comment, event) ∧
      (eventToComment event sampleReply.rootEventId sampleReply.rootEventKind = .ok comment ↔
        ReadsBack sampleReply) := by
  obtain ⟨comment, event, posted⟩ := exists_posted sampleReply (by decide +kernel)
  exact ⟨comment, event, posted, postComment_readsBack_iff posted⟩

/-- A reply without its author is returned with the event it replies to, and written without it. -/
theorem postComment_partialReply : ∃ comment event,
    postComment sampleKey 1700000000 "hash" (.sent "id")
        { sampleReply with replyToAuthorPubkey := none } = .ok (comment, event) ∧
      eventToComment event sampleReply.rootEventId sampleReply.rootEventKind ≠ .ok comment := by
  refine ⟨_, _, rfl, ?_⟩
  decide +kernel

end Divine.CommentsRepository
