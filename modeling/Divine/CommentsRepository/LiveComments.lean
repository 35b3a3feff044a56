/-
This file embeds how the comments of a root are loaded and how they are watched, and
settles when the two agree.
-/

import Divine.CommentsRepository.Comments
import Divine.Library.Indexing

namespace Divine.CommentsRepository

open Dictionary Indexing Models NostrSdk Sorting

/-! ### Loading and watching -/

structure Root where
  rootEventId : String
  rootEventKind : Nat
  rootAddressableId : Option String
  deriving DecidableEq

namespace Root

variable (root : Root)

def address : Option String := root.rootAddressableId.filter fun address => address ≠ ""

def eventMatchesRoot : List DynamicTag → Except DartError Bool
  | [] => .ok false
  | rawTag :: tags => do
      match ← rawTag.asList with
      | first :: second :: _ => do
          let tagType ← first.asString
          let tagValue ← second.asString
          if tagType = "E" ∧ tagValue = root.rootEventId then pure true
          else if tagType = "A" ∧ root.address = some tagValue then pure true
          else eventMatchesRoot tags
      | _ => eventMatchesRoot tags

/-- One turn of the loop of `_buildThreadFromEvents`. -/
def includeEvent (commentMap : List (String × Comment)) (event : DynamicEvent) :
    Except DartError (List (String × Comment)) := do
  if ← root.eventMatchesRoot event.tags then
    let comment ← eventToComment event root.rootEventId root.rootEventKind
    pure (put commentMap comment.id comment)
  else pure commentMap

end Root

structure CommentThread where
  rootEventId : String
  comments : List Comment
  totalCount : Nat
  commentCache : List (String × Comment)
  deriving DecidableEq

inductive LoadFailure where
  | loadCommentsFailed (message : String)
  | error (error : DartError)
  deriving DecidableEq

abbrev NewestFirst := Descending fun comment : Comment => comment.createdAt.millisecondsSinceEpoch

namespace Root

variable (root : Root)

def buildThreadFromComments (order : NewestFirst) (commentMap : List (String × Comment)) :
    CommentThread where
  rootEventId := root.rootEventId
  comments := order.sort (commentMap.map Prod.snd)
  totalCount := commentMap.length
  commentCache := commentMap

def buildThreadFromEvents (order : NewestFirst) (events : List DynamicEvent) :
    Except DartError CommentThread :=
  (events.foldlM root.includeEvent []).map (root.buildThreadFromComments order)

def filterByE (limit : Option Nat) (sinceTime untilTime : Option Int) : Filter where
  kinds := some [commentKind]
  uppercaseE := some [root.rootEventId]
  limit := limit
  sinceTime := sinceTime
  untilTime := untilTime

def filterByA (address : String) (limit : Option Nat)
    (sinceTime untilTime : Option Int) : Filter where
  kinds := some [commentKind]
  uppercaseA := some [address]
  limit := limit
  sinceTime := sinceTime
  untilTime := untilTime

/-- The events that `loadComments` is answered. A query that throws an exception is given by its
text. -/
def answeredEvents (queryEvents : Filter → Except String (List DynamicEvent)) (limit : Nat)
    (untilTimestamp : Option Int) : Except String (List DynamicEvent) :=
  match root.address with
  | some address => do
      let byE ← queryEvents (root.filterByE limit none untilTimestamp)
      let byA ← queryEvents (filterByA address limit none untilTimestamp)
      pure (byE ++ byA)
  | none => queryEvents (root.filterByE limit none untilTimestamp)

/-- The events without repeated ids, where there are two answers. -/
def mergedEvents (events : List DynamicEvent) : List DynamicEvent :=
  if root.address.isSome then (index DynamicEvent.id events).map Prod.snd else events

def loadComments (order : NewestFirst) (queryEvents : Filter → Except String (List DynamicEvent))
    (limit : Nat) (untilTimestamp : Option Int) : Except LoadFailure CommentThread :=
  match root.answeredEvents queryEvents limit untilTimestamp with
  | .error exception => .error (.loadCommentsFailed s!"Failed to load comments: {exception}")
  | .ok events =>
      (root.buildThreadFromEvents order (root.mergedEvents events)).mapError LoadFailure.error

def watchComments (seenIds : List String) : List DynamicEvent → List (Except DartError Comment)
  | [] => []
  | event :: events =>
      if event.id ∈ seenIds then watchComments seenIds events
      else eventToComment event root.rootEventId root.rootEventKind ::
        watchComments (event.id :: seenIds) events

end Root

/-! ### Events that can be read -/

/-- The first two elements of a tag can be cast, if there are as many. -/
def readable : DynamicTag → Bool
  | .list (.text _ :: .text _ :: _) | .list [_] | .list [] => true
  | .list (_ :: _ :: _) | .other => false

def secondText : List TagElement → Bool
  | _ :: .other :: _ => false
  | _ => true

/-- The fourth element of a tag for an event can be cast, if there are as many. -/
def authored : DynamicTag → Bool
  | .list (.text tagType :: .text _ :: rest) => (tagType ≠ "E" && tagType ≠ "e") || secondText rest
  | _ => true

def Root.refersTo (root : Root) (tag : DynamicTag) : Bool :=
  tag.valueOf "E" = some root.rootEventId || (root.address.isSome && tag.valueOf "A" = root.address)

def dated (event : DynamicEvent) : Bool :=
  (DateTime.fromMillisecondsSinceEpoch (wrapped (event.createdAt * 1000))).isSome

section Reading

variable {root : Root} {event : DynamicEvent} {comment : Comment}

theorem map_ok_iff {First Second : Type} {result : Except DartError First} {next : First → Second} :
    (∃ value, result.map next = .ok value) ↔ ∃ value, result = .ok value := by
  cases result with
  | error error =>
    exact iff_of_false (fun ⟨_, same⟩ => by cases same) (fun ⟨_, same⟩ => by cases same)
  | ok value => exact iff_of_true ⟨_, rfl⟩ ⟨_, rfl⟩

theorem fourthOr_ok_iff (rest : List TagElement) (held : Option String) :
    (∃ author, fourthOr rest held = .ok author) ↔ secondText rest = true := by
  rcases rest with _ | ⟨third, _ | ⟨fourth | _, later⟩⟩
  · exact iff_of_true ⟨held, rfl⟩ rfl
  · exact iff_of_true ⟨held, rfl⟩ rfl
  · exact iff_of_true ⟨some fourth, rfl⟩ rfl
  · exact iff_of_false (fun ⟨_, same⟩ => by cases same) Bool.false_ne_true

theorem readTyped_ok_iff (parsed : ParsedTags) (tagType tagValue : String)
    (rest : List TagElement) :
    (∃ next, readTyped parsed tagType tagValue rest = .ok next) ↔
      authored (.list (.text tagType :: .text tagValue :: rest)) = true := by
  by_cases root : tagType = "E"
  · subst root
    exact map_ok_iff.trans (fourthOr_ok_iff rest _)
  by_cases parent : tagType = "e"
  · subst parent
    exact map_ok_iff.trans (fourthOr_ok_iff rest _)
  have plain : ((tagType ≠ "E" && tagType ≠ "e") || secondText rest) = true := by
    rw [decide_eq_true root, decide_eq_true parent]
    rfl
  refine iff_of_true ?_ plain
  rw [readTyped, if_neg root]
  split_ifs <;> exact ⟨_, rfl⟩

theorem readTag_ok_iff (parsed : ParsedTags) (tag : DynamicTag) :
    (∃ next, readTag parsed tag = .ok next) ↔ readable tag = true ∧ authored tag = true := by
  rcases tag with (_ | ⟨first | _, _ | ⟨second | _, rest⟩⟩) | _
  case list.cons.text.cons.text =>
    exact (readTyped_ok_iff parsed first second rest).trans (and_iff_right rfl).symm
  case list.nil => exact iff_of_true ⟨parsed, rfl⟩ ⟨rfl, rfl⟩
  case list.cons.text.nil => exact iff_of_true ⟨parsed, rfl⟩ ⟨rfl, rfl⟩
  case list.cons.other.nil => exact iff_of_true ⟨parsed, rfl⟩ ⟨rfl, rfl⟩
  all_goals
    refine iff_of_false ?_ fun both => Bool.false_ne_true both.1
    rintro ⟨next, same⟩
    cases same

theorem foldlM_readTag_ok_iff (tags : List DynamicTag) (parsed : ParsedTags) :
    (∃ next, tags.foldlM readTag parsed = .ok next) ↔
      ∀ tag ∈ tags, readable tag = true ∧ authored tag = true := by
  induction tags generalizing parsed with
  | nil => exact iff_of_true ⟨parsed, rfl⟩ nofun
  | cons tag tags ih =>
    rw [List.forall_mem_cons, ← readTag_ok_iff parsed tag, List.foldlM_cons]
    cases read : readTag parsed tag with
    | error error => 
      refine iff_of_false ?_ ?_
      · rintro ⟨next, same⟩
        cases same
      · rintro ⟨⟨next, same⟩, -⟩
        cases same
    | ok next =>
      exact (ih next).trans (and_iff_right ⟨next, rfl⟩).symm

theorem eventToComment_ok_iff (rootEventId : String) (rootEventKind : Nat) :
    (∃ comment, eventToComment event rootEventId rootEventKind = .ok comment) ↔
      (∀ tag ∈ event.tags, readable tag = true ∧ authored tag = true) ∧ dated event = true := by
  rw [← foldlM_readTag_ok_iff event.tags ParsedTags.empty, eventToComment]
  cases event.tags.foldlM readTag ParsedTags.empty with
  | error error =>
    refine iff_of_false ?_ ?_
    · rintro ⟨comment, same⟩
      cases same
    · rintro ⟨⟨parsed, same⟩, -⟩
      cases same
  | ok parsed =>
    rw [dated]
    refine Iff.trans ?_ (and_iff_right ⟨parsed, rfl⟩).symm
    show (∃ comment, (createdAtDateTime event).map _ = .ok comment) ↔ _
    rw [map_ok_iff, createdAtDateTime]
    cases DateTime.fromMillisecondsSinceEpoch (wrapped (event.createdAt * 1000)) with
    | none =>
      refine iff_of_false ?_ Bool.false_ne_true
      rintro ⟨createdAt, same⟩
      cases same
    | some createdAt => exact iff_of_true ⟨createdAt, rfl⟩ rfl

theorem id_of_eventToComment {rootEventId : String} {rootEventKind : Nat}
    (converted : eventToComment event rootEventId rootEventKind = .ok comment) :
    comment.id = event.id := by
  obtain ⟨parsed, -, dated⟩ := Fallible.bind_eq_ok.mp converted
  obtain ⟨createdAt, -, same⟩ := Fallible.bind_eq_ok.mp dated
  rw [← Except.ok.inj same]
  rfl

theorem refersTo_iff (first second : String) (rest : List TagElement) :
    root.refersTo (.list (.text first :: .text second :: rest)) = true ↔
      (first = "E" ∧ second = root.rootEventId) ∨ (first = "A" ∧ root.address = some second) := by
  rw [Root.refersTo, DynamicTag.valueOf, DynamicTag.valueOf, Bool.or_eq_true, Bool.and_eq_true,
    decide_eq_true_eq, decide_eq_true_eq]
  refine or_congr ?_ ?_
  · by_cases own : first = "E"
    · simp [own]
    · simp [own]
  · by_cases own : first = "A"
    · cases root.address with
      | none => simp [own]
      | some address => simp [own, eq_comm]
    · cases root.address with
      | none | some => simp [own]

theorem refersTo_short {tag : DynamicTag} (short : ∀ name, tag.valueOf name = none) :
    root.refersTo tag = false := by
  rw [Root.refersTo, short, short]
  cases root.address with
  | none | some => rfl

/-- The search for the root finds what the tags say when they can be cast, and never denies it when
they cannot. -/
theorem eventMatchesRoot_eq (tags : List DynamicTag) :
    ((∀ tag ∈ tags, readable tag = true) → root.eventMatchesRoot tags =
      .ok (tags.any root.refersTo)) ∧
      (root.eventMatchesRoot tags = .ok false → ∀ tag ∈ tags, readable tag = true) := by
  induction tags with
  | nil => exact ⟨fun _ => rfl, nofun⟩
  | cons tag tags ih =>
    obtain ⟨found, clean⟩ := ih
    -- a tag that can be cast and is not for the root is passed over
    have passed : readable tag = true → root.refersTo tag = false →
        root.eventMatchesRoot (tag :: tags) = root.eventMatchesRoot tags →
        ((∀ each ∈ tag :: tags, readable each = true) →
          root.eventMatchesRoot (tag :: tags) = .ok ((tag :: tags).any root.refersTo)) ∧
        (root.eventMatchesRoot (tag :: tags) = .ok false →
          ∀ each ∈ tag :: tags, readable each = true) := by
      intro castable foreign next
      rw [next, List.any_cons, foreign, Bool.false_or, List.forall_mem_cons]
      exact ⟨fun all => found all.2, fun none => ⟨castable, clean none⟩⟩
    rcases tag with (_ | ⟨first | _, _ | ⟨second | _, rest⟩⟩) | _
    case list.nil => exact passed rfl (refersTo_short fun _ => rfl) rfl
    case list.cons.text.nil => exact passed rfl (refersTo_short fun _ => rfl) rfl
    case list.cons.other.nil => exact passed rfl (refersTo_short fun _ => rfl) rfl
    case list.cons.text.cons.text =>
      have step : root.eventMatchesRoot (.list (.text first :: .text second :: rest) :: tags) =
          if first = "E" ∧ second = root.rootEventId then .ok true
          else if first = "A" ∧ root.address = some second then .ok true
          else root.eventMatchesRoot tags := rfl
      by_cases own : root.refersTo (.list (.text first :: .text second :: rest)) = true
      · have matched : root.eventMatchesRoot (.list (.text first :: .text second :: rest) :: tags) =
            .ok true := by
          rw [step]
          rcases (refersTo_iff first second rest).mp own with byE | byA
          · rw [if_pos byE]
          · rw [if_pos byA, ite_self]
        rw [matched, List.any_cons, own]
        exact ⟨fun _ => rfl, nofun⟩
      · have foreign := mt (refersTo_iff first second rest).mpr own
        have next : root.eventMatchesRoot (.list (.text first :: .text second :: rest) :: tags) =
            root.eventMatchesRoot tags := by
          rw [step, if_neg (fun byE => foreign (.inl byE)), if_neg (fun byA => foreign (.inr byA))]
        exact passed rfl (Bool.eq_false_of_not_eq_true own) next
    all_goals
      refine ⟨fun all => ?_, nofun⟩
      exact absurd (all _ List.mem_cons_self) Bool.false_ne_true

end Reading

/-! ### Loaded comments -/

namespace Root

variable (root : Root)

def isAbout (event : DynamicEvent) : Bool := event.tags.any root.refersTo

def commentOf (event : DynamicEvent) : Option Comment :=
  if root.isAbout event then
    (eventToComment event root.rootEventId root.rootEventKind).toOption
  else none

/-- The tags of an event can be cast as far as loading reads them. -/
structure Includable (event : DynamicEvent) : Prop where
  tags : ∀ tag ∈ event.tags, readable tag = true
  own : root.isAbout event = true → (∀ tag ∈ event.tags, authored tag = true) ∧ dated event = true

variable {root} {event : DynamicEvent} {events : List DynamicEvent}
  {commentMap : List (String × Comment)} {comment : Comment}

theorem commentOf_eq_some_iff : root.commentOf event = some comment ↔
    root.isAbout event = true ∧
      eventToComment event root.rootEventId root.rootEventKind = .ok comment := by
  rw [commentOf]
  cases root.isAbout event with
  | false => simp
  | true =>
    cases eventToComment event root.rootEventId root.rootEventKind with
    | error | ok => simp [Except.toOption]

theorem includeEvent_ok (includable : root.Includable event) :
    root.includeEvent commentMap event =
      .ok ((root.commentOf event).elim commentMap fun comment =>
        put commentMap comment.id comment) := by
  have found := (@eventMatchesRoot_eq root event.tags).1 includable.tags
  rw [includeEvent, found, commentOf]
  cases about : root.isAbout event with
  | false =>
    rw [isAbout] at about
    rw [about]
    rfl
  | true =>
    obtain ⟨authors, time⟩ := includable.own about
    obtain ⟨comment, converted⟩ :=
      (eventToComment_ok_iff root.rootEventId root.rootEventKind).mpr
        ⟨fun tag member => ⟨includable.tags tag member, authors tag member⟩, time⟩
    rw [isAbout] at about
    rw [about, converted]
    rfl

theorem includable_of_ok {next : List (String × Comment)}
    (included : root.includeEvent commentMap event = .ok next) : root.Includable event := by
  obtain ⟨matched, search, rest⟩ := Fallible.bind_eq_ok.mp included
  have cast : matched = true → (∀ tag ∈ event.tags, readable tag = true ∧ authored tag = true) ∧
      dated event = true := by
    rintro rfl
    obtain ⟨comment, converted, -⟩ := Fallible.bind_eq_ok.mp rest
    exact (eventToComment_ok_iff _ _).mp ⟨comment, converted⟩
  have tags : ∀ tag ∈ event.tags, readable tag = true := by
    cases matched with
    | false => exact (eventMatchesRoot_eq event.tags).2 search
    | true => exact fun tag member => ((cast rfl).1 tag member).1
  have about := search.symm.trans ((@eventMatchesRoot_eq root event.tags).1 tags)
  refine ⟨tags, fun own => ?_⟩
  have casts := cast ((Except.ok.inj about).trans own)
  exact ⟨fun tag member => (casts.1 tag member).2, casts.2⟩

theorem foldlM_includeEvent (events : List DynamicEvent) (commentMap : List (String × Comment)) :
    ((∀ event ∈ events, root.Includable event) → events.foldlM root.includeEvent commentMap =
      .ok ((events.filterMap root.commentOf).foldl
        (fun entries comment => put entries comment.id comment) commentMap)) ∧
      ∀ result, events.foldlM root.includeEvent commentMap = .ok result →
        ∀ event ∈ events, root.Includable event := by
  induction events generalizing commentMap with
  | nil => exact ⟨fun _ => rfl, nofun⟩
  | cons event events ih =>
    rw [List.forall_mem_cons, List.foldlM_cons]
    constructor
    · rintro ⟨own, later⟩
      rw [includeEvent_ok own, Fallible.ok_bind, (ih _).1 later,
        List.filterMap_cons]
      cases root.commentOf event with
      | none | some => rfl
    · intro result same
      obtain ⟨next, included, rest⟩ := Fallible.bind_eq_ok.mp same
      exact ⟨includable_of_ok included, (ih next).2 result rest⟩

/-- A thread is built when each event can be included, of the comments about the root. -/
theorem buildThreadFromEvents_iff (order : NewestFirst)
    (identified : Identified DynamicEvent.id events) :
    ((∃ thread, root.buildThreadFromEvents order events = .ok thread) ↔
      ∀ event ∈ events, root.Includable event) ∧
      ∀ thread, root.buildThreadFromEvents order events = .ok thread → ∀ comment,
        comment ∈ thread.comments ↔ ∃ event ∈ events, root.commentOf event = some comment := by
  have comments : Identified Comment.id (events.filterMap root.commentOf) := by
    intro comment member other otherMember same
    obtain ⟨event, inside, converted⟩ := List.mem_filterMap.mp member
    obtain ⟨otherEvent, otherInside, otherConverted⟩ := List.mem_filterMap.mp otherMember
    rw [id_of_eventToComment (commentOf_eq_some_iff.mp converted).2,
      id_of_eventToComment (commentOf_eq_some_iff.mp otherConverted).2] at same
    rw [identified event inside otherEvent otherInside same, otherConverted] at converted
    exact (Option.some.inj converted).symm
  have built : ∀ thread, root.buildThreadFromEvents order events = .ok thread ↔
      ∃ result, events.foldlM root.includeEvent [] = .ok result ∧
        root.buildThreadFromComments order result = thread := by
    intro thread
    rw [buildThreadFromEvents]
    cases events.foldlM root.includeEvent [] with
    | error error =>
      refine iff_of_false ?_ ?_
      · intro same
        cases same
      · rintro ⟨result, same, -⟩
        cases same
    | ok result =>
      constructor
      · intro same
        exact ⟨result, rfl, Except.ok.inj same⟩
      · rintro ⟨other, same, rfl⟩
        rw [Except.ok.inj same]
        rfl
  refine ⟨⟨?_, ?_⟩, ?_⟩
  · rintro ⟨thread, same⟩
    obtain ⟨result, folded, -⟩ := (built thread).mp same
    exact (foldlM_includeEvent events []).2 result folded
  · intro includable
    exact ⟨_, (built _).mpr ⟨_, (foldlM_includeEvent events []).1 includable, rfl⟩⟩
  · intro thread same comment
    obtain ⟨result, folded, rfl⟩ := (built thread).mp same
    have includable := (foldlM_includeEvent events []).2 result folded
    obtain rfl := Except.ok.inj (folded.symm.trans ((foldlM_includeEvent events []).1 includable))
    rw [← List.mem_filterMap, ← mem_values_index_iff comments]
    exact order.mem_sort

/-! ### Watched comments -/

theorem ok_mem_watchComments {seenIds : List String}
    (identified : Identified DynamicEvent.id events) :
    .ok comment ∈ root.watchComments seenIds events ↔ ∃ event ∈ events, event.id ∉ seenIds ∧
      eventToComment event root.rootEventId root.rootEventKind = .ok comment := by
  induction events generalizing seenIds with
  | nil => simp [watchComments]
  | cons event events ih =>
    have later : Identified DynamicEvent.id events := fun one member two otherMember =>
      identified one (List.mem_cons_of_mem _ member) two (List.mem_cons_of_mem _ otherMember)
    rw [watchComments]
    by_cases seen : event.id ∈ seenIds
    · rw [if_pos seen, ih later]
      constructor
      · rintro ⟨other, member, unseen, converted⟩
        exact ⟨other, List.mem_cons_of_mem _ member, unseen, converted⟩
      · rintro ⟨other, member, unseen, converted⟩
        rcases List.mem_cons.mp member with rfl | inside
        · exact absurd seen unseen
        · exact ⟨other, inside, unseen, converted⟩
    · rw [if_neg seen, List.mem_cons, ih later]
      constructor
      · rintro (own | ⟨other, member, unseen, converted⟩)
        · exact ⟨event, List.mem_cons_self, seen, own.symm⟩
        · exact ⟨other, List.mem_cons_of_mem _ member,
            mt (List.mem_cons_of_mem _) unseen, converted⟩
      · rintro ⟨other, member, unseen, converted⟩
        by_cases same : other.id = event.id
        · have own := identified other member event List.mem_cons_self same
          exact .inl (own ▸ converted).symm
        · rcases List.mem_cons.mp member with rfl | inside
          · exact absurd rfl same
          · exact .inr ⟨other, inside, fun again =>
              (List.mem_cons.mp again).elim same unseen, converted⟩

def emitted (comments : List (Except DartError Comment)) : List Comment :=
  comments.filterMap Except.toOption

theorem nodup_watchComments (events : List DynamicEvent) (seenIds : List String) :
    ((emitted (root.watchComments seenIds events)).map Comment.id).Nodup ∧
      ∀ comment ∈ emitted (root.watchComments seenIds events), comment.id ∉ seenIds := by
  induction events generalizing seenIds with
  | nil => exact ⟨List.nodup_nil, fun comment absent => absurd absent List.not_mem_nil⟩
  | cons event events ih =>
    rw [watchComments]
    by_cases seen : event.id ∈ seenIds
    · rw [if_pos seen]
      exact ih seenIds
    · obtain ⟨nodup, unseen⟩ := ih (event.id :: seenIds)
      have fresh : ∀ comment ∈ emitted (root.watchComments (event.id :: seenIds) events),
          comment.id ∉ seenIds :=
        fun comment member => mt (List.mem_cons_of_mem _) (unseen comment member)
      rw [if_neg seen, emitted, List.filterMap_cons]
      cases converted : eventToComment event root.rootEventId root.rootEventKind with
      | error error => exact ⟨nodup, fresh⟩
      | ok comment =>
        have own := id_of_eventToComment converted
        refine ⟨List.nodup_cons.mpr ⟨?_, nodup⟩, List.forall_mem_cons.mpr ⟨own ▸ seen, fresh⟩⟩
        intro again
        obtain ⟨other, member, same⟩ := List.mem_map.mp again
        exact unseen other member (same.trans own ▸ List.mem_cons_self)

/-! ### Agreement -/

structure Agrees (root : Root) (loaded : Except LoadFailure CommentThread)
    (watched : List (Except DartError Comment)) (events : List DynamicEvent) : Prop where
  loads : ∀ error, loaded ≠ .error (.error error)
  keeps : ∀ event ∈ events, root.eventMatchesRoot event.tags = .ok true → ∀ comment,
    eventToComment event root.rootEventId root.rootEventKind = .ok comment →
      ∃ thread, loaded = .ok thread ∧ comment ∈ thread.comments
  live : ∀ comment, .ok comment ∈ watched ↔
    ∃ thread, loaded = .ok thread ∧ comment ∈ thread.comments
  once : ((emitted watched).map Comment.id).Nodup

/-- The tags can be cast as far as needed, and an event is about the root exactly when it can be
converted. -/
structure Convertible (root : Root) (event : DynamicEvent) : Prop where
  tags : ∀ tag ∈ event.tags, readable tag = true
  own : root.isAbout event = true ↔ (∀ tag ∈ event.tags, authored tag = true) ∧ dated event = true

theorem mem_mergedEvents (identified : Identified DynamicEvent.id events) :
    event ∈ root.mergedEvents events ↔ event ∈ events := by
  rw [mergedEvents]
  split
  · exact mem_values_index_iff identified
  · exact Iff.rfl

theorem loadComments_eq (order : NewestFirst)
    {queryEvents : Filter → Except String (List DynamicEvent)} {limit : Nat}
    {untilTimestamp : Option Int}
    (answered : root.answeredEvents queryEvents limit untilTimestamp = .ok events) :
    root.loadComments order queryEvents limit untilTimestamp =
      (root.buildThreadFromEvents order (root.mergedEvents events)).mapError LoadFailure.error := by
  rw [loadComments, answered]

theorem mapError_eq_ok_iff {built : Except DartError CommentThread} {thread : CommentThread} :
    built.mapError LoadFailure.error = .ok thread ↔ built = .ok thread := by
  cases built with
  | error error => exact iff_of_false nofun fun same => (by cases same)
  | ok other =>
    show Except.ok other = .ok thread ↔ _
    rw [Except.ok.injEq, Except.ok.injEq]

theorem mapError_ne_error_iff {built : Except DartError CommentThread} :
    (∀ error, built.mapError LoadFailure.error ≠ .error (.error error)) ↔
      ∃ thread, built = .ok thread := by
  cases built with
  | error error =>
    refine iff_of_false (fun none => none error rfl) ?_
    rintro ⟨thread, same⟩
    cases same
  | ok other => exact iff_of_true nofun ⟨other, rfl⟩

/-- Loading and watching agree exactly when the events about the root are those that can be
converted. -/
theorem loadComments_agrees_iff (order : NewestFirst)
    {queryEvents : Filter → Except String (List DynamicEvent)} {limit : Nat}
    {untilTimestamp : Option Int} {stream : List DynamicEvent}
    (answered : root.answeredEvents queryEvents limit untilTimestamp = .ok events)
    (same : ∀ event, event ∈ stream ↔ event ∈ events)
    (identified : Identified DynamicEvent.id stream) :
    root.Agrees (root.loadComments order queryEvents limit untilTimestamp)
        (root.watchComments [] stream) stream ↔
      ∀ event ∈ stream, root.Convertible event := by
  have eventsIdentified : Identified DynamicEvent.id events := fun event member other otherMember =>
    identified event ((same event).mpr member) other ((same other).mpr otherMember)
  have merged : ∀ event, event ∈ root.mergedEvents events ↔ event ∈ stream := fun event =>
    (mem_mergedEvents eventsIdentified).trans (same event).symm
  have mergedIdentified : Identified DynamicEvent.id (root.mergedEvents events) :=
    fun event member other otherMember =>
      identified event ((merged event).mp member) other ((merged other).mp otherMember)
  obtain ⟨builds, thread⟩ := @buildThreadFromEvents_iff root _ order mergedIdentified
  rw [loadComments_eq order answered]
  have emits : ∀ comment, .ok comment ∈ root.watchComments [] stream ↔ ∃ event ∈ stream,
      eventToComment event root.rootEventId root.rootEventKind = .ok comment := by
    intro comment
    rw [ok_mem_watchComments identified]
    simp
  constructor
  · intro agrees event member
    have built := mapError_ne_error_iff.mp agrees.loads
    obtain ⟨tags, own⟩ := builds.mp built event ((merged event).mpr member)
    refine ⟨tags, own, fun ⟨authors, time⟩ => ?_⟩
    obtain ⟨comment, converted⟩ := (eventToComment_ok_iff root.rootEventId root.rootEventKind).mpr
      ⟨fun tag inside => ⟨tags tag inside, authors tag inside⟩, time⟩
    obtain ⟨shown, isLoaded, inThread⟩ :=
      (agrees.live comment).mp ((emits comment).mpr ⟨event, member, converted⟩)
    obtain ⟨other, otherMember, found⟩ :=
      (thread shown (mapError_eq_ok_iff.mp isLoaded) comment).mp inThread
    obtain ⟨about, otherConverted⟩ := commentOf_eq_some_iff.mp found
    have ids := (id_of_eventToComment converted).symm.trans (id_of_eventToComment otherConverted)
    rwa [identified event member other ((merged other).mp otherMember) ids]
  · intro convertible
    obtain ⟨shown, built⟩ := builds.mpr fun event member =>
      have own := convertible event ((merged event).mp member)
      ⟨own.tags, own.own.mp⟩
    have inThread : ∀ comment, comment ∈ shown.comments ↔ ∃ event ∈ stream,
        eventToComment event root.rootEventId root.rootEventKind = .ok comment := by
      intro comment
      rw [thread shown built]
      constructor
      · rintro ⟨event, member, found⟩
        exact ⟨event, (merged event).mp member, (commentOf_eq_some_iff.mp found).2⟩
      · rintro ⟨event, member, converted⟩
        have casts := (eventToComment_ok_iff _ _).mp ⟨comment, converted⟩
        have about := (convertible event member).own.mpr
          ⟨fun tag inside => (casts.1 tag inside).2, casts.2⟩
        exact ⟨event, (merged event).mpr member, commentOf_eq_some_iff.mpr ⟨about, converted⟩⟩
    refine ⟨mapError_ne_error_iff.mpr ⟨shown, built⟩, ?_, fun comment => ?_, ?_⟩
    · intro event member _ comment converted
      exact ⟨shown, mapError_eq_ok_iff.mpr built, (inThread comment).mpr ⟨event, member, converted⟩⟩
    · rw [emits, ← inThread]
      constructor
      · exact fun member => ⟨shown, mapError_eq_ok_iff.mpr built, member⟩
      · rintro ⟨other, isLoaded, member⟩
        have sameThread := built.symm.trans (mapError_eq_ok_iff.mp isLoaded)
        rwa [Except.ok.inj sameThread]
    · exact (nodup_watchComments stream []).1

end Root

/-! ### An event about another root -/

def sampleRoot : Root := ⟨"video", 34236, none⟩

def sampleEvent (id : String) (tags : List DynamicTag) : DynamicEvent where
  id := id
  pubkey := "fan"
  createdAt := 1700000000
  kind := commentKind
  tags := tags
  content := "nice"

def commentOn (id rootEventId : String) : DynamicEvent :=
  sampleEvent id [.list [.text "E", .text rootEventId, .text "", .text "creator"],
    .list [.text "e", .text rootEventId], .list [.text "short"]]

/-- Relays that answer every query with the same events. -/
def relayWith (events : List DynamicEvent) (_ : Filter) :
    Except String (List DynamicEvent) := .ok events

theorem loadComments_agrees_iff_sample :
    sampleRoot.Agrees
        (sampleRoot.loadComments (insertion _) (relayWith [commentOn "one" "video"]) 100 none)
        (sampleRoot.watchComments [] [commentOn "one" "video"]) [commentOn "one" "video"] ↔
      ∀ event ∈ [commentOn "one" "video"], sampleRoot.Convertible event := by
  refine sampleRoot.loadComments_agrees_iff (insertion _) rfl (fun event => Iff.rfl) ?_
  intro event member other otherMember _
  rw [List.mem_singleton.mp member, List.mem_singleton.mp otherMember]

/-- A tag that is no list takes the comments of the root away, and a comment on another root is
emitted. -/
theorem loadComments_disagrees :
    ¬sampleRoot.Agrees
        (sampleRoot.loadComments (insertion _)
          (relayWith [commentOn "one" "video", sampleEvent "two" [.other]]) 100 none)
        (sampleRoot.watchComments [] [commentOn "one" "video", sampleEvent "two" [.other]])
        [commentOn "one" "video", sampleEvent "two" [.other]] ∧
      ¬sampleRoot.Agrees
        (sampleRoot.loadComments (insertion _) (relayWith [commentOn "three" "other"]) 100 none)
        (sampleRoot.watchComments [] [commentOn "three" "other"]) [commentOn "three" "other"] := by
  constructor
  · exact fun agrees => agrees.loads .typeError (by decide +kernel)
  · intro agrees
    obtain ⟨thread, loaded, member⟩ := (agrees.live _).mp List.mem_cons_self
    obtain rfl := Except.ok.inj loaded
    cases member

end Divine.CommentsRepository
