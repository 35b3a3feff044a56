/-
This file embeds how profiles are fetched, kept in a table and edited, and settles when an
edit changes only what was edited and the table holds the newest version of a profile.
-/

import Divine.CommentsRepository.Comments
import Mathlib.Data.List.Chain

namespace Divine.ProfileRepository

open CommentsRepository Dictionary Models NostrSdk

/-! ### JSON -/

/-- A map of the language from texts: no two entries have one key. -/
abbrev JsonMap (Value : Type) :=
  { entries : List (String × Value) // (entries.map Prod.fst).Nodup }

namespace JsonMap

variable {Value : Type}

def empty : JsonMap Value := ⟨[], List.nodup_nil⟩

def get (entries : JsonMap Value) (key : String) : Option Value := find entries.1 key

def set (entries : JsonMap Value) (key : String) (value : Value) : JsonMap Value :=
  ⟨put entries.1 key value, nodup_keys_put entries.2⟩

theorem get_set (entries : JsonMap Value) (key other : String) (value : Value) :
    (entries.set key value).get other = if key = other then some value else entries.get other :=
  find_put entries.1 key other value

end JsonMap

/-- What `jsonDecode` makes of a text: a map, another value, or a `FormatException`. -/
inductive Decoded (Value : Type) where
  | map (entries : JsonMap Value)
  | other
  | malformed

/-- The JSON texts of the library. An encoded map is decoded as itself, and one that is not encoded
is an error. -/
structure JsonCodec (Value : Type) where
  jsonDecode : String → Decoded Value
  jsonEncode : JsonMap Value → Option String
  -- `value?.toString()`, which is `null` for `null`
  asText : Value → Option String
  text : String → Value
  decode_encode : ∀ {source entries}, jsonEncode entries = some source →
    jsonDecode source = .map entries

/-! ### Profiles -/

structure UserProfile (Value : Type) where
  pubkey : String
  rawData : JsonMap Value
  createdAt : DateTime
  eventId : String
  name : Option String := none
  displayName : Option String := none
  about : Option String := none
  picture : Option String := none
  banner : Option String := none
  website : Option String := none
  nip05 : Option String := none
  lud16 : Option String := none
  lud06 : Option String := none

structure UserProfileRow where
  pubkey : String
  displayName : Option String
  name : Option String
  about : Option String
  picture : Option String
  banner : Option String
  website : Option String
  nip05 : Option String
  lud16 : Option String
  lud06 : Option String
  rawData : Option String
  -- in seconds
  createdAt : Int
  eventId : String
  deriving DecidableEq

inductive Failure where
  | publishFailed (message : String)
  | error (error : DartError)
  | unsupportedObject
  deriving DecidableEq

abbrev Table := List (String × UserProfileRow)

variable {Value : Type} (codec : JsonCodec Value)

def fromNostrEvent (event : DynamicEvent) : Except DartError (UserProfile Value) :=
  if event.kind ≠ 0 then .error .argumentError
  else match codec.jsonDecode event.content with
    | .map content =>
        let field (key : String) := (content.get key).bind codec.asText
        (createdAtDateTime event).map fun createdAt =>
          { pubkey := event.pubkey
            name := field "name"
            displayName := field "display_name" <|> field "displayName"
            about := field "about"
            picture := field "picture"
            banner := field "banner"
            website := field "website"
            nip05 := field "nip05"
            lud16 := field "lud16"
            lud06 := field "lud06"
            rawData := content
            createdAt := createdAt
            eventId := event.id }
    | .other => .error .typeError
    | .malformed => (createdAtDateTime event).map fun createdAt =>
        { pubkey := event.pubkey
          rawData := JsonMap.empty
          createdAt := createdAt
          eventId := event.id }

/-! ### The table -/

def companion (profile : UserProfile Value) : Option UserProfileRow :=
  (if profile.rawData.1.isEmpty then some none
    else (codec.jsonEncode profile.rawData).map some).map fun rawData =>
    { pubkey := profile.pubkey
      displayName := profile.displayName
      name := profile.name
      about := profile.about
      picture := profile.picture
      banner := profile.banner
      website := profile.website
      nip05 := profile.nip05
      lud16 := profile.lud16
      lud06 := profile.lud06
      rawData := rawData
      createdAt := profile.createdAt.millisecondsSinceEpoch.tdiv 1000
      eventId := profile.eventId }

def upsertProfile (table : Table) (profile : UserProfile Value) : Except Failure Table :=
  (companion codec profile).elim (.error .unsupportedObject) fun row =>
    .ok (put table profile.pubkey row)

def decodedRawData : Option String → Decoded Value
  | none => .map JsonMap.empty
  | some rawData => codec.jsonDecode rawData

def rowToUserProfile (row : UserProfileRow) : Except DartError (UserProfile Value) :=
  match decodedRawData codec row.rawData with
  | .map rawData =>
      (DateTime.fromMillisecondsSinceEpoch (row.createdAt * 1000)).elim (.error .argumentError)
        fun createdAt => .ok
          { pubkey := row.pubkey
            name := row.name
            displayName := row.displayName
            about := row.about
            picture := row.picture
            banner := row.banner
            website := row.website
            nip05 := row.nip05
            lud16 := row.lud16
            lud06 := row.lud06
            rawData := rawData
            createdAt := createdAt
            eventId := row.eventId }
  | .other => .error .typeError
  | .malformed => .error .argumentError

def getProfile (table : Table) (pubkey : String) : Except DartError (Option (UserProfile Value)) :=
  (find table pubkey).elim (.ok none) fun row => (rowToUserProfile codec row).map some

/-! ### Fetching and saving -/

def storeVersion (table : Table) (event : DynamicEvent) :
    Except Failure (UserProfile Value × Table) := do
  let profile ← (fromNostrEvent codec event).mapError Failure.error
  let table ← upsertProfile codec table profile
  pure (profile, table)

def fetchFreshProfile (table : Table) :
    Option DynamicEvent → Except Failure (Option (UserProfile Value) × Table)
  | none => .ok (none, table)
  | some event => (storeVersion codec table event).map fun stored => (some stored.1, stored.2)

def saveProfileEvent (table : Table) :
    Option DynamicEvent → Except Failure (UserProfile Value × Table)
  | none => .error (.publishFailed "Failed to publish profile. Please try again.")
  | some event => storeVersion codec table event

/-- What `saveProfileEvent` is given. -/
structure Edits where
  displayName : String
  about : Option String := none
  username : Option String := none
  nip05 : Option String := none
  picture : Option String := none
  banner : Option String := none

variable (toLowerCase : String → String)

def resolvedNip05 (edits : Edits) : Option String :=
  edits.nip05 <|> edits.username.map fun username => s!"_@{toLowerCase username}.divine.video"

def setGiven (entries : JsonMap Value) (key : String) (value : Option String) : JsonMap Value :=
  value.elim entries fun value => entries.set key (codec.text value)

def profileContent (currentProfile : Option (UserProfile Value)) (edits : Edits) : JsonMap Value :=
  let profileContent := (currentProfile.map UserProfile.rawData).getD JsonMap.empty
  let profileContent := profileContent.set "display_name" (codec.text edits.displayName)
  let profileContent := setGiven codec profileContent "about" edits.about
  let profileContent := setGiven codec profileContent "nip05" (resolvedNip05 toLowerCase edits)
  let profileContent := setGiven codec profileContent "picture" edits.picture
  setGiven codec profileContent "banner" edits.banner

def sentContent (currentProfile : Option (UserProfile Value)) (edits : Edits) : Option String :=
  codec.jsonEncode (profileContent codec toLowerCase currentProfile edits)

/-! ### Runs -/

/-- An answer that the repository awaits: that of `fetchProfile` or that of `sendProfile`. -/
inductive Action where
  | fetched (answer : Option DynamicEvent)
  | sent (answer : Option DynamicEvent)

def step (table : Table) : Action → Table
  | .fetched answer => ((fetchFreshProfile codec table answer).toOption.map Prod.snd).getD table
  | .sent answer => ((saveProfileEvent codec table answer).toOption.map Prod.snd).getD table

def run (actions : List Action) : Table := actions.foldl (step codec) []

def Action.answer : Action → Option DynamicEvent
  | fetched answer | sent answer => answer

def version (event : DynamicEvent) : Option (UserProfile Value × UserProfileRow) :=
  (fromNostrEvent codec event).toOption.bind fun profile =>
    (companion codec profile).map fun row => (profile, row)

/-- The versions of a profile that the repository was answered, in their order. -/
def versionsOf (pubkey : String) (actions : List Action) :
    List (UserProfile Value × UserProfileRow) :=
  (actions.filterMap fun action => action.answer.bind (version codec)).filter
    fun version => version.1.pubkey = pubkey

variable {codec} {table : Table} {event : DynamicEvent} {profile : UserProfile Value}
  {row : UserProfileRow} {actions : List Action} {pubkey : String}

theorem storeVersion_toOption : (storeVersion codec table event).toOption.map Prod.snd =
    (version codec event).map fun version => put table version.1.pubkey version.2 := by
  rw [storeVersion, version]
  cases fromNostrEvent codec event with
  | error error => rfl
  | ok profile =>
    show ((upsertProfile codec table profile >>= fun table =>
        pure (profile, table)).toOption.map Prod.snd) =
      ((companion codec profile).map fun row => (profile, row)).map _
    rw [upsertProfile]
    cases companion codec profile <;> rfl

theorem getD_stored : ((storeVersion codec table event).toOption.map Prod.snd).getD table =
    (version codec event).elim table fun version => put table version.1.pubkey version.2 := by
  rw [storeVersion_toOption]
  cases version codec event <;> rfl

theorem step_eq (action : Action) : step codec table action =
    (action.answer.bind (version codec)).elim table fun version =>
      put table version.1.pubkey version.2 := by
  rcases action with (_ | event) | (_ | event)
  · rfl
  · refine Eq.trans ?_ getD_stored
    rw [step, fetchFreshProfile]
    cases storeVersion codec table event <;> rfl
  · rfl
  · exact getD_stored

theorem versionsOf_concat (action : Action) : versionsOf codec pubkey (actions ++ [action]) =
    versionsOf codec pubkey actions ++
      ((action.answer.bind (version codec)).filter fun version =>
        version.1.pubkey = pubkey).toList := by
  unfold versionsOf
  rw [List.filterMap_append, List.filter_append]
  refine congrArg _ ?_
  rw [List.filterMap_cons]
  cases action.answer.bind (version codec) with
  | none => rfl
  | some version =>
    rw [Option.filter_some, List.filter_cons]
    split <;> rfl

/-- The table holds the last version of each profile. -/
theorem find_run (pubkey : String) (actions : List Action) :
    find (run codec actions) pubkey = (versionsOf codec pubkey actions).getLast?.map Prod.snd := by
  induction actions using List.reverseRecOn with
  | nil => rfl
  | append_singleton actions action ih =>
    rw [run, List.foldl_append, List.foldl_cons, List.foldl_nil, step_eq, versionsOf_concat]
    cases action.answer.bind (version codec) with
    | none =>
      rw [Option.filter_none, Option.toList_none, List.append_nil]
      exact ih
    | some version =>
      rw [Option.elim_some, find_put, Option.filter_some]
      by_cases own : version.1.pubkey = pubkey
      · rw [if_pos own, decide_eq_true own, if_pos rfl, Option.toList_some, List.getLast?_concat]
        rfl
      · rw [if_neg own, decide_eq_false own, if_neg Bool.false_ne_true, Option.toList_none,
          List.append_nil]
        exact ih

/-! ### Reading back -/

theorem decodedRawData_companion (kept : companion codec profile = some row) :
    decodedRawData codec row.rawData = .map profile.rawData := by
  obtain ⟨rawData, encoded, rfl⟩ := Option.map_eq_some_iff.mp kept
  by_cases empty : profile.rawData.1.isEmpty
  · rw [if_pos empty] at encoded
    cases encoded
    exact congrArg Decoded.map (Subtype.ext (List.isEmpty_iff.mp empty).symm)
  · rw [if_neg empty] at encoded
    obtain ⟨source, written, rfl⟩ := Option.map_eq_some_iff.mp encoded
    exact codec.decode_encode written

theorem tdiv_mul_bounds {number bound : Int} (inRange : -bound ≤ number ∧ number ≤ bound) :
    -bound ≤ number.tdiv 1000 * 1000 ∧ number.tdiv 1000 * 1000 ≤ bound := by
  rcases le_total 0 number with positive | negative
  · rw [Int.tdiv_eq_ediv_of_nonneg positive]
    omega
  · rw [← Int.neg_neg number, Int.neg_tdiv, Int.tdiv_eq_ediv_of_nonneg (by omega)]
    omega

/-- A row is read as the profile it was made of, at the second of its creation. -/
theorem rowToUserProfile_companion (kept : companion codec profile = some row) :
    ∃ createdAt : DateTime,
      createdAt.millisecondsSinceEpoch =
        profile.createdAt.millisecondsSinceEpoch.tdiv 1000 * 1000 ∧
      rowToUserProfile codec row = .ok { profile with createdAt := createdAt } := by
  have decoded := decodedRawData_companion kept
  obtain ⟨rawData, encoded, rfl⟩ := Option.map_eq_some_iff.mp kept
  have bounds := tdiv_mul_bounds profile.createdAt.inRange
  refine ⟨⟨_, bounds⟩, rfl, ?_⟩
  rw [rowToUserProfile, decoded, DateTime.fromMillisecondsSinceEpoch, dif_pos bounds]
  rfl

theorem rowToUserProfile_eq_iff (kept : companion codec profile = some row) :
    rowToUserProfile codec row = .ok profile ↔
      1000 ∣ profile.createdAt.millisecondsSinceEpoch := by
  obtain ⟨createdAt, whole, read⟩ := rowToUserProfile_companion kept
  rw [read, Except.ok.injEq]
  constructor
  · intro same
    rw [← congrArg UserProfile.createdAt same, whole]
    exact Int.dvd_mul_left _ _
  · intro seconds
    have same : createdAt = profile.createdAt := by
      rcases createdAt with ⟨milliseconds, inRange⟩
      rcases created : profile.createdAt with ⟨other, otherInRange⟩
      rw [created] at whole seconds
      rw [DateTime.mk.injEq]
      exact whole.trans (Int.tdiv_mul_cancel seconds)
    rw [same]

/-! ### The order of versions -/

/-- No step replaces the row of a profile by an older one. -/
def NeverOlder (codec : JsonCodec Value) (actions : List Action) : Prop :=
  ∀ before action, before ++ [action] <+: actions → ∀ pubkey,
    ∀ old ∈ find (run codec before) pubkey, ∀ new ∈ find (run codec (before ++ [action])) pubkey,
      old.createdAt ≤ new.createdAt

/-- The versions of each profile are answered in the order of their creation. -/
def InOrder (codec : JsonCodec Value) (actions : List Action) : Prop :=
  ∀ pubkey, ((versionsOf codec pubkey actions).map fun version => version.2.createdAt).IsChain
    (· ≤ ·)

theorem neverOlder_concat (action : Action) : NeverOlder codec (actions ++ [action]) ↔
    NeverOlder codec actions ∧ ∀ pubkey, ∀ old ∈ find (run codec actions) pubkey,
      ∀ new ∈ find (run codec (actions ++ [action])) pubkey, old.createdAt ≤ new.createdAt := by
  constructor
  · intro never
    exact ⟨fun before earlier lead => never before earlier (lead.trans (List.prefix_append _ _)),
      never actions action (List.prefix_refl _)⟩
  · rintro ⟨never, last⟩ before earlier lead
    rcases List.prefix_concat_iff.mp lead with same | inside
    · obtain ⟨rfl, single⟩ := List.append_inj' same rfl
      cases single
      exact last
    · exact never before earlier inside

theorem inOrder_concat (action : Action) : InOrder codec (actions ++ [action]) ↔
    InOrder codec actions ∧ ∀ pubkey, ∀ old ∈ find (run codec actions) pubkey,
      ∀ new ∈ find (run codec (actions ++ [action])) pubkey, old.createdAt ≤ new.createdAt := by
  unfold InOrder
  rw [← forall_and]
  refine forall_congr' fun pubkey => ?_
  rw [find_run, find_run, versionsOf_concat, List.map_append, List.isChain_append]
  cases (action.answer.bind (version codec)).filter fun version => version.1.pubkey = pubkey with
  | none =>
    rw [Option.toList_none, List.append_nil]
    refine ⟨fun chain => ⟨chain.1, fun old held new same => ?_⟩,
      fun chain => ⟨chain.1, .nil, nofun⟩⟩
    obtain rfl := Option.mem_unique held same
    exact le_rfl
  | some version =>
    rw [Option.toList_some, List.getLast?_concat, List.getLast?_map]
    refine and_congr_right fun _ => ?_
    cases (versionsOf codec pubkey actions).getLast? with
    | none => exact ⟨fun _ _ => nofun, fun _ => ⟨.singleton _, fun _ => nofun⟩⟩
    | some last =>
      simp only [List.map_cons, List.map_nil, List.IsChain.singleton, true_and, Option.map_some,
        List.head?_cons, Option.mem_some_iff, forall_eq']

theorem neverOlder_iff : NeverOlder codec actions ↔ InOrder codec actions := by
  induction actions using List.reverseRecOn with
  | nil =>
    refine ⟨fun _ _ => List.IsChain.nil, fun _ before action lead => ?_⟩
    cases List.append_eq_nil_iff.mp (List.prefix_nil.mp lead) |>.2
  | append_singleton actions action ih => rw [neverOlder_concat, inOrder_concat, ih]

/-- The version is newer than every other one. -/
def IsNewest (version : UserProfile Value × UserProfileRow)
    (versions : List (UserProfile Value × UserProfileRow)) : Prop :=
  version ∈ versions ∧
    ∀ other ∈ versions, other = version ∨ other.2.createdAt < version.2.createdAt

theorem getLast?_of_isNewest {newest : UserProfile Value × UserProfileRow}
    (ordered : InOrder codec actions) (newer : IsNewest newest (versionsOf codec pubkey actions)) :
    (versionsOf codec pubkey actions).getLast? = some newest := by
  have pairwise := List.isChain_iff_pairwise.mp (ordered pubkey)
  obtain ⟨last, ends⟩ := Option.ne_none_iff_exists'.mp
    (mt List.getLast?_eq_none_iff.mp (List.ne_nil_of_mem newer.1))
  obtain ⟨before, same⟩ := List.getLast?_eq_some_iff.mp ends
  rw [same] at pairwise newer
  rw [ends]
  rcases newer.2 last List.mem_concat_self with own | older
  · rw [own]
  · rw [List.map_append, List.pairwise_append] at pairwise
    rcases List.mem_append.mp newer.1 with inside | own
    · have least := pairwise.2.2 _ (List.mem_map_of_mem inside) _ (List.mem_singleton_self _)
      exact absurd older least.not_gt
    · rw [List.mem_singleton.mp own]

/-! ### Edits -/

/-- The value that an edit gives to a field. -/
def Edits.given (edits : Edits) (key : String) : Option String :=
  if key = "display_name" then some edits.displayName
  else if key = "about" then edits.about
  else if key = "nip05" then resolvedNip05 toLowerCase edits
  else if key = "picture" then edits.picture
  else if key = "banner" then edits.banner
  else none

theorem get_setGiven (entries : JsonMap Value) (key other : String) (value : Option String) :
    (setGiven codec entries key value).get other =
      if key = other then (value.map codec.text).or (entries.get other)
      else entries.get other := by
  cases value with
  | none => exact (ite_self _).symm
  | some value => exact entries.get_set key other (codec.text value)

theorem get_profileContent (edits : Edits) (key : String) :
    (profileContent codec toLowerCase (some profile) edits).get key =
      ((edits.given toLowerCase key).map codec.text).or (profile.rawData.get key) := by
  have content : (profileContent codec toLowerCase (some profile) edits).get key =
      if "banner" = key then (edits.banner.map codec.text).or (profile.rawData.get key)
      else if "picture" = key then (edits.picture.map codec.text).or (profile.rawData.get key)
      else if "nip05" = key then
        ((resolvedNip05 toLowerCase edits).map codec.text).or (profile.rawData.get key)
      else if "about" = key then (edits.about.map codec.text).or (profile.rawData.get key)
      else if "display_name" = key then some (codec.text edits.displayName)
      else profile.rawData.get key := by
    simp only [profileContent, get_setGiven, JsonMap.get_set, Option.map_some, Option.getD_some]
    split_ifs with banner picture nip05 about <;> first | rfl | (subst_vars; simp at *)
  rw [content]
  unfold Edits.given
  split_ifs <;> first | rfl | (subst_vars; simp at *)

/-! ### What is kept -/

/-- The profile of an event, fetched when it is the answer, or read from the table of a run. -/
inductive Obtained (codec : JsonCodec Value) (actions : List Action) (event : DynamicEvent)
    (profile : UserProfile Value) : Prop
  | fetched {table next : Table}
      (answered : fetchFreshProfile codec table (some event) = .ok (some profile, next))
  | read (held : getProfile codec (run codec actions) event.pubkey = .ok (some profile))

structure KeepsProfiles (codec : JsonCodec Value) (actions : List Action) : Prop where
  neverOlder : NeverOlder codec actions
  storesBack : ∀ pubkey, ∀ version ∈ versionsOf codec pubkey actions,
    rowToUserProfile codec version.2 = .ok version.1
  /-- What an edit of the newest version publishes is its content with the fields that are given. -/
  onlyEdits : ∀ {event newest content profile edits source},
    version codec event = some newest →
    IsNewest newest (versionsOf codec event.pubkey actions) →
    codec.jsonDecode event.content = .map content →
    Obtained codec actions event profile →
    sentContent codec toLowerCase (some profile) edits = some source →
    ∃ sent, codec.jsonDecode source = .map sent ∧ ∀ key,
      sent.get key = ((edits.given toLowerCase key).map codec.text).or (content.get key)

/-- The versions are dated in whole seconds, as events are that are not dated too far away. -/
def WholeSeconds (codec : JsonCodec Value) (actions : List Action) : Prop :=
  ∀ pubkey, ∀ version ∈ versionsOf codec pubkey actions,
    1000 ∣ version.1.createdAt.millisecondsSinceEpoch

theorem companion_of_mem {kept : UserProfile Value × UserProfileRow}
    (member : kept ∈ versionsOf codec pubkey actions) : companion codec kept.1 = some kept.2 := by
  obtain ⟨action, -, answered⟩ := List.mem_filterMap.mp (List.mem_filter.mp member).1
  obtain ⟨event, -, made⟩ := Option.bind_eq_some_iff.mp answered
  obtain ⟨profile, -, kept⟩ := Option.bind_eq_some_iff.mp made
  obtain ⟨row, written, rfl⟩ := Option.map_eq_some_iff.mp kept
  exact written

theorem rawData_of_fromNostrEvent {content : JsonMap Value}
    (decoded : codec.jsonDecode event.content = .map content)
    (made : fromNostrEvent codec event = .ok profile) : profile.rawData = content := by
  rw [fromNostrEvent, decoded] at made
  split at made
  · cases made
  · cases dated : createdAtDateTime event with
    | error error => rw [dated] at made; cases made
    | ok createdAt => rw [dated] at made; cases made; rfl

theorem rawData_of_obtained {newest : UserProfile Value × UserProfileRow}
    {content : JsonMap Value} (ordered : InOrder codec actions)
    (made : version codec event = some newest)
    (newer : IsNewest newest (versionsOf codec event.pubkey actions))
    (decoded : codec.jsonDecode event.content = .map content)
    (obtained : Obtained codec actions event profile) : profile.rawData = content := by
  cases obtained with
  | fetched answered =>
    rw [fetchFreshProfile, storeVersion] at answered
    cases read : fromNostrEvent codec event with
    | error error => rw [read] at answered; cases answered
    | ok other =>
      rw [← rawData_of_fromNostrEvent decoded read]
      rw [read] at answered
      change ((upsertProfile codec _ other >>= fun table => pure (other, table)).map _) = _
        at answered
      cases stored : upsertProfile codec _ other with
      | error error => rw [stored] at answered; cases answered
      | ok next => rw [stored] at answered; cases answered; rfl
  | read held =>
    obtain ⟨other, read, kept⟩ := Option.bind_eq_some_iff.mp made
    obtain ⟨row, written, rfl⟩ := Option.map_eq_some_iff.mp kept
    obtain ⟨createdAt, -, back⟩ := rowToUserProfile_companion written
    rw [getProfile, find_run, getLast?_of_isNewest ordered newer, Option.map_some,
      Option.elim_some, back] at held
    cases held
    have made : fromNostrEvent codec event = .ok other := by
      cases made : fromNostrEvent codec event with
      | error error => rw [made] at read; cases read
      | ok same => rw [made] at read; cases read; rfl
    have content := rawData_of_fromNostrEvent decoded made
    exact content

/-- The table keeps the newest versions, and an edit changes only what it gives, exactly when
versions are in order and in whole seconds. -/
theorem keepsProfiles_iff : KeepsProfiles toLowerCase codec actions ↔
    InOrder codec actions ∧ WholeSeconds codec actions := by
  constructor
  · intro keeps
    exact ⟨neverOlder_iff.mp keeps.neverOlder, fun pubkey version member =>
      (rowToUserProfile_eq_iff (companion_of_mem member)).mp (keeps.storesBack pubkey _ member)⟩
  · rintro ⟨ordered, whole⟩
    refine ⟨neverOlder_iff.mpr ordered, fun pubkey version member =>
      (rowToUserProfile_eq_iff (companion_of_mem member)).mpr (whole pubkey _ member), ?_⟩
    intro event newest content profile edits source made newer decoded obtained sent
    refine ⟨_, codec.decode_encode sent, fun key => ?_⟩
    rw [get_profileContent, rawData_of_obtained ordered made newer decoded obtained]

/-! ### A profile that an older one replaces -/

def sampleEntries : List (String × JsonMap String) :=
  [("\x7b\"about\":\"old\"\x7d", ⟨[("about", "old")], by decide⟩),
    ("\x7b\"about\":\"new\",\"city\":\"Rome\"\x7d",
      ⟨[("about", "new"), ("city", "Rome")], by decide⟩),
    ("\x7b\"about\":\"old\",\"display_name\":\"Ann\"\x7d",
      ⟨[("about", "old"), ("display_name", "Ann")], by decide⟩)]

def sampleCodec : JsonCodec String where
  jsonDecode source := (find sampleEntries source).elim .malformed .map
  jsonEncode entries := (sampleEntries.find? fun entry => entry.2 = entries).map Prod.fst
  asText := some
  text := id
  decode_encode := by
    intro source entries encoded
    obtain ⟨entry, found, rfl⟩ := Option.map_eq_some_iff.mp encoded
    have member := List.mem_of_find?_eq_some found
    have own := List.find?_some found
    rw [decide_eq_true_eq] at own
    rw [find_of_mem (by decide) member, own]
    rfl

def sampleVersion (id : String) (createdAt : Int) (content : String) : Action :=
  .fetched (some ⟨id, "ann", createdAt, 0, [], content⟩)

def newerVersion : Action := sampleVersion "v2" 20 "\x7b\"about\":\"new\",\"city\":\"Rome\"\x7d"

def olderVersion : Action := sampleVersion "v1" 10 "\x7b\"about\":\"old\"\x7d"

/-- A fetch answers an older version, which replaces the newer one and is published by the next
edit. -/
theorem older_version_published :
    ¬KeepsProfiles id sampleCodec [newerVersion, olderVersion] ∧
      ∃ profile, getProfile sampleCodec (run sampleCodec [newerVersion, olderVersion]) "ann" =
          .ok (some profile) ∧
        sentContent sampleCodec id (some profile) { displayName := "Ann" } =
          some "\x7b\"about\":\"old\",\"display_name\":\"Ann\"\x7d" := by
  refine ⟨fun keeps => ?_, _, rfl, rfl⟩
  exact absurd (keeps.neverOlder [newerVersion] olderVersion (List.prefix_refl _) "ann" _ rfl _ rfl)
    (by decide)

end Divine.ProfileRepository
