/-
This file embeds how curated lists are written into the tags of an event and read from
them, and says what of a list an event with its tags is read as.
-/

import Divine.CommentsRepository.PostedComment

namespace Divine.CuratedListRepository

open CommentsRepository Models NostrSdk

/-! ### Lists -/

inductive PlayOrder where
  | chronological
  | reverse
  | manual
  | shuffle
  deriving DecidableEq

def PlayOrder.value : PlayOrder → String
  | chronological => "chronological"
  | reverse => "reverse"
  | manual => "manual"
  | shuffle => "shuffle"

def PlayOrder.fromString (value : String) : PlayOrder :=
  if value = "chronological" then chronological
  else if value = "reverse" then reverse
  else if value = "manual" then manual
  else if value = "shuffle" then shuffle
  else chronological

@[simp]
theorem PlayOrder.fromString_value (order : PlayOrder) : fromString order.value = order := by
  cases order <;> rfl

structure CuratedList where
  id : String
  name : String
  pubkey : Option String
  description : Option String
  imageUrl : Option String
  videoEventIds : List String
  createdAt : DateTime
  updatedAt : DateTime
  isPublic : Bool
  nostrEventId : Option String
  tags : List String
  isCollaborative : Bool
  allowedCollaborators : List String
  thumbnailEventId : Option String
  playOrder : PlayOrder
  deriving DecidableEq

/-! ### Reading -/

/-- The variables that the loop over the tags sets. -/
structure ParsedList where
  title : Option String
  description : Option String
  imageUrl : Option String
  thumbnailEventId : Option String
  playOrderStr : Option String
  tags : List String
  videoEventIds : List String
  isCollaborative : Bool
  allowedCollaborators : List String
  deriving DecidableEq

def ParsedList.empty : ParsedList := ⟨none, none, none, none, none, [], [], false, []⟩

def nip71VideoKinds : List String := ["34235", "34236", "34237"]

def isVideoAddress (value : String) : Bool :=
  match value.toList.splitOn ':' with
  | kind :: _ :: _ :: _ => nip71VideoKinds.contains (String.ofList kind)
  | _ => false

def readNamed (parsed : ParsedList) (name : String) (second : TagElement) :
    Except DartError ParsedList :=
  if name = "title" then second.asString.map fun value => { parsed with title := some value }
  else if name = "description" then
    second.asString.map fun value => { parsed with description := some value }
  else if name = "image" then
    second.asString.map fun value => { parsed with imageUrl := some value }
  else if name = "thumbnail" then
    second.asString.map fun value => { parsed with thumbnailEventId := some value }
  else if name = "playorder" then
    second.asString.map fun value => { parsed with playOrderStr := some value }
  else if name = "t" then
    second.asString.map fun value => { parsed with tags := parsed.tags ++ [value] }
  else if name = "e" then
    second.asString.map fun value =>
      { parsed with videoEventIds := parsed.videoEventIds ++ [value] }
  else if name = "a" then
    second.asString.map fun value =>
      if isVideoAddress value then
        { parsed with videoEventIds := parsed.videoEventIds ++ [value] }
      else parsed
  else if name = "collaborative" then
    second.asString.map fun value =>
      if value = "true" then { parsed with isCollaborative := true } else parsed
  else if name = "collaborator" then
    second.asString.map fun value =>
      { parsed with allowedCollaborators := parsed.allowedCollaborators ++ [value] }
  else .ok parsed

def readTag (parsed : ParsedList) (rawTag : DynamicTag) : Except DartError ParsedList := do
  match ← rawTag.asList with
  | [] => pure parsed
  | [first] => first.asString.map fun _ => parsed
  | first :: second :: _ => do
      let name ← first.asString
      readNamed parsed name second

def dTagOf : List DynamicTag → Except DartError (Option String)
  | [] => .ok none
  | rawTag :: rest => do
      match ← rawTag.asList with
      | first :: second :: _ => do
          let name ← first.asString
          if name = "d" then second.asString.map some else dTagOf rest
      | _ => dTagOf rest

def extractDTag (event : DynamicEvent) : Except DartError (Option String) := dTagOf event.tags

def contentFirstLine (content : String) : String :=
  String.ofList (content.toList.takeWhile (· ≠ '\n'))

def ParsedList.curatedList (parsed : ParsedList) (event : DynamicEvent) (dTag : String)
    (timestamp : DateTime) : CuratedList where
  id := dTag
  name := parsed.title.getD
    (if contentFirstLine event.content ≠ "" then contentFirstLine event.content
      else "Untitled List")
  pubkey := some event.pubkey
  description := some (parsed.description.getD event.content)
  imageUrl := parsed.imageUrl
  videoEventIds := parsed.videoEventIds
  createdAt := timestamp
  updatedAt := timestamp
  isPublic := true
  nostrEventId := some event.id
  tags := parsed.tags
  isCollaborative := parsed.isCollaborative
  allowedCollaborators := parsed.allowedCollaborators
  thumbnailEventId := parsed.thumbnailEventId
  playOrder := parsed.playOrderStr.elim .chronological PlayOrder.fromString

def parseEvent (event : DynamicEvent) : Except DartError (Option CuratedList) := do
  match ← extractDTag event with
  | none => pure none
  | some dTag => do
      let parsed ← event.tags.foldlM readTag ParsedList.empty
      let timestamp ← createdAtDateTime event
      pure (some (parsed.curatedList event dTag timestamp))

/-- Every error is caught, and `null` is returned for it. -/
def fromEvent (event : DynamicEvent) : Option CuratedList := (parseEvent event).toOption.join

/-! ### Writing -/

/-- The value of an optional field that is written unless it is empty. -/
def written (value : Option String) : Option String := value.filter (· ≠ "")

def CuratedList.collaborationTags (list : CuratedList) : List (List String) :=
  if list.isCollaborative then
    ["collaborative", "true"] ::
      list.allowedCollaborators.map fun collaborator => ["collaborator", collaborator]
  else []

def toEventTags (list : CuratedList) : List (List String) :=
  [["d", list.id], ["title", list.name], ["client", "diVine"]] ++
    (written list.description).toList.map (fun description => ["description", description]) ++
    (written list.imageUrl).toList.map (fun imageUrl => ["image", imageUrl]) ++
    list.tags.map (fun tag => ["t", tag]) ++
    list.collaborationTags ++
    list.thumbnailEventId.toList.map (fun thumbnail => ["thumbnail", thumbnail]) ++
    [["playorder", list.playOrder.value]] ++
    list.videoEventIds.map fun videoEventId => ["e", videoEventId]

def carrying (event : DynamicEvent) (list : CuratedList) : DynamicEvent :=
  { event with tags := (toEventTags list).map writtenTag }

/-! ### What is read of what was written -/

variable (list : CuratedList) (parsed : ParsedList)

theorem foldlM_parts {first second : List DynamicTag} {next last : ParsedList}
    (earlier : first.foldlM readTag parsed = .ok next)
    (later : second.foldlM readTag next = .ok last) :
    (first ++ second).foldlM readTag parsed = .ok last := by
  rw [List.foldlM_append, earlier]
  exact later

theorem foldlM_collected (name : String) (collected : List String → ParsedList)
    (each : ∀ held value,
      readTag (collected held) (writtenTag [name, value]) = .ok (collected (held ++ [value])))
    (values held : List String) :
    ((values.map fun value => [name, value]).map writtenTag).foldlM readTag (collected held) =
      .ok (collected (held ++ values)) := by
  induction values generalizing held with
  | nil => rw [List.append_nil]; rfl
  | cons value rest ih =>
    rw [List.append_cons]
    show (readTag (collected held) (writtenTag [name, value]) >>= _) = _
    rw [each]
    exact ih (held ++ [value])

theorem foldlM_optional (name : String) (set : Option String → ParsedList)
    (each : ∀ value, readTag (set none) (writtenTag [name, value]) = .ok (set (some value)))
    (value : Option String) :
    ((value.toList.map fun value => [name, value]).map writtenTag).foldlM readTag (set none) =
      .ok (set value) := by
  cases value with
  | none => rfl
  | some value =>
    show (readTag (set none) (writtenTag [name, value]) >>= pure) = _
    rw [each]
    rfl

/-- What is read of the collaboration, of which nothing has been read. -/
theorem foldlM_collaborationTags (shared : Bool → List String → ParsedList)
    (each : ∀ held value, readTag (shared true held) (writtenTag ["collaborator", value]) =
      .ok (shared true (held ++ [value])))
    (starts : readTag (shared false []) (writtenTag ["collaborative", "true"]) =
      .ok (shared true [])) :
    (list.collaborationTags.map writtenTag).foldlM readTag (shared false []) =
      .ok (shared list.isCollaborative
        (if list.isCollaborative then list.allowedCollaborators else [])) := by
  unfold CuratedList.collaborationTags
  cases list.isCollaborative with
  | false => rfl
  | true =>
    show (readTag (shared false []) (writtenTag ["collaborative", "true"]) >>= _) = _
    rw [starts]
    exact foldlM_collected "collaborator" (shared true) each list.allowedCollaborators []

def CuratedList.readBack : ParsedList where
  title := some list.name
  description := written list.description
  imageUrl := written list.imageUrl
  thumbnailEventId := list.thumbnailEventId
  playOrderStr := some list.playOrder.value
  tags := list.tags
  videoEventIds := list.videoEventIds
  isCollaborative := list.isCollaborative
  allowedCollaborators := if list.isCollaborative then list.allowedCollaborators else []

theorem foldlM_toEventTags :
    ((toEventTags list).map writtenTag).foldlM readTag ParsedList.empty = .ok list.readBack := by
  let titled : ParsedList := { ParsedList.empty with title := some list.name }
  let described : ParsedList := { titled with description := written list.description }
  let pictured : ParsedList := { described with imageUrl := written list.imageUrl }
  let tagged : ParsedList := { pictured with tags := list.tags }
  let shared (collaborative : Bool) (collaborators : List String) : ParsedList :=
    { tagged with isCollaborative := collaborative, allowedCollaborators := collaborators }
  let credited := shared list.isCollaborative
    (if list.isCollaborative then list.allowedCollaborators else [])
  have heads : ([["d", list.id], ["title", list.name], ["client", "diVine"]].map
      writtenTag).foldlM readTag ParsedList.empty = .ok titled := rfl
  have description := foldlM_optional "description"
    (fun value => { titled with description := value }) (fun _ => rfl) (written list.description)
  have image := foldlM_optional "image" (fun value => { described with imageUrl := value })
    (fun _ => rfl) (written list.imageUrl)
  have tags := foldlM_collected "t" (fun held => { pictured with tags := held }) (fun _ _ => rfl)
    list.tags []
  have collaboration := foldlM_collaborationTags list shared (fun _ _ => rfl) rfl
  have thumbnail := foldlM_optional "thumbnail"
    (fun value => { credited with thumbnailEventId := value }) (fun _ => rfl)
    list.thumbnailEventId
  have order : ([["playorder", list.playOrder.value]].map writtenTag).foldlM readTag
      { credited with thumbnailEventId := list.thumbnailEventId } =
      .ok { list.readBack with videoEventIds := [] } := rfl
  have references := foldlM_collected "e"
    (fun held => { list.readBack with videoEventIds := held }) (fun _ _ => rfl)
    list.videoEventIds []
  simp only [toEventTags, List.map_append]
  exact foldlM_parts _ (foldlM_parts _ (foldlM_parts _ (foldlM_parts _ (foldlM_parts _
    (foldlM_parts _ (foldlM_parts _ heads description) image) tags) collaboration) thumbnail)
    order) references

/-- An event with the tags of a list is read as the list, but for an empty description or image, and
for collaborators of a list that is not collaborative. -/
theorem fromEvent_carrying (event : DynamicEvent) :
    fromEvent (carrying event list) = (createdAtDateTime event).toOption.map fun timestamp =>
      { id := list.id
        name := list.name
        pubkey := some event.pubkey
        description := some ((written list.description).getD event.content)
        imageUrl := written list.imageUrl
        videoEventIds := list.videoEventIds
        createdAt := timestamp
        updatedAt := timestamp
        isPublic := true
        nostrEventId := some event.id
        tags := list.tags
        isCollaborative := list.isCollaborative
        allowedCollaborators := if list.isCollaborative then list.allowedCollaborators else []
        thumbnailEventId := list.thumbnailEventId
        playOrder := list.playOrder } := by
  have parsed : parseEvent (carrying event list) = (createdAtDateTime event).map fun timestamp =>
      some (list.readBack.curatedList (carrying event list) list.id timestamp) := by
    show (((toEventTags list).map writtenTag).foldlM readTag ParsedList.empty >>= fun parsed =>
      createdAtDateTime event >>= fun timestamp => _) = _
    rw [foldlM_toEventTags]
    cases createdAtDateTime event <;> rfl
  rw [fromEvent, parsed]
  cases createdAtDateTime event with
  | error error => rfl
  | ok timestamp =>
    refine congrArg some ?_
    simp only [ParsedList.curatedList, CuratedList.readBack, Option.getD_some, Option.elim_some,
      PlayOrder.fromString_value, carrying]

def sampleList : CuratedList where
  id := "best"
  name := "Best"
  pubkey := none
  description := none
  imageUrl := some ""
  videoEventIds := ["34236:ab:first"]
  createdAt := ⟨0, by decide⟩
  updatedAt := ⟨0, by decide⟩
  isPublic := true
  nostrEventId := none
  tags := []
  isCollaborative := false
  allowedCollaborators := ["cd"]
  thumbnailEventId := none
  playOrder := .manual

def sampleEvent : DynamicEvent := ⟨"e1", "ab", 0, 30005, [], "Seen"⟩

theorem fromEvent_changes_list :
    (fromEvent (carrying sampleEvent sampleList)).map (fun list =>
        (list.description, list.imageUrl, list.allowedCollaborators)) =
      some (some "Seen", none, []) ∧
      ["e", "34236:ab:first"] ∈ toEventTags sampleList ∧
      ["a", "34236:ab:first"] ∉ toEventTags sampleList := by
  refine ⟨rfl, by decide, by decide⟩

end Divine.CuratedListRepository
