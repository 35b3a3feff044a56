/-
This file settles when the web and the mobile client show the same verification of a
video.
-/

import Divine.FrontendWeb.VideoParser
import Divine.Models.NostrVideo

namespace Divine.FrontendWeb

open ComputeJs Dictionary Fallible

/-! ### Levels -/

inductive ProofModeLevel where
  | unverified | basicProof | verifiedWeb | verifiedMobile
  deriving DecidableEq

namespace ProofModeLevel

def rank : ProofModeLevel → Nat
  | unverified => 0
  | basicProof => 1
  | verifiedWeb => 2
  | verifiedMobile => 3

def ofValue (value : String) : ProofModeLevel :=
  if value = "verified_mobile" then verifiedMobile
  else if value = "verified_web" then verifiedWeb
  else if value = "basic_proof" then basicProof
  else unverified

end ProofModeLevel

/-! ### The web client -/

structure ProofModeData (Value : Type) where
  level : ProofModeLevel
  manifest : Option Text
  manifestData : Option Value
  deviceAttestation : Option Text
  pgpFingerprint : Option Text

section

-- what `JSON.parse` makes of a text, unless it throws
variable {Value : Type} (parseJson : Text → Option Value) (event : NostrEvent)

def valueOf (tag : Option Tag) : Option Text := tag.bind fun tag => tag[1]?

def getProofModeData : Option (ProofModeData Value) :=
  let levelTag := event.tags.find? (isNamed "verification")
  ((valueOf levelTag).filter nonempty).map fun tagLevel =>
    let manifestTag := event.tags.find? (isNamed "proofmode")
    let attestationTag := event.tags.find? (isNamed "device_attestation")
    let fingerprintTag := event.tags.find? (isNamed "pgp_fingerprint")
    let declared := ProofModeLevel.ofValue (String.ofList tagLevel)
    let attested := if attestationTag.isSome then .verifiedMobile else declared
    let manifestData := ((valueOf manifestTag).filter nonempty).bind parseJson
    { level := if manifestData.isSome then .verifiedWeb else attested
      manifest := valueOf manifestTag
      manifestData := manifestData
      deviceAttestation := valueOf attestationTag
      pgpFingerprint := valueOf fingerprintTag }

/-- The level that the web client shows, where no data counts as unverified. -/
def webLevel : ProofModeLevel :=
  (getProofModeData parseJson event).elim .unverified ProofModeData.level

end

/-! ### The mobile client -/

section

variable (video : Models.VideoEvent)

def proofModeVerificationLevel : Option String := find video.rawTags "verification"

def isVerifiedMobile : Bool := proofModeVerificationLevel video = some "verified_mobile"

def isVerifiedWeb : Bool := proofModeVerificationLevel video = some "verified_web"

def hasBasicProof : Bool := proofModeVerificationLevel video = some "basic_proof"

def getVerificationLevel : ProofModeLevel :=
  if isVerifiedMobile video then .verifiedMobile
  else if isVerifiedWeb video then .verifiedWeb
  else if hasBasicProof video then .basicProof
  else .unverified

end

/-! ### The same event -/

def webTags (tags : List (List String)) : List Tag := tags.map fun tag => tag.map String.toList

def webEvent (event : Models.Event) : NostrEvent where
  id := event.id.toList
  pubkey := event.pubkey.toList
  createdAt := event.createdAt
  kind := event.kind
  tags := webTags (event.tags.filterMap Models.Tag.elements)
  content := event.content.toList
  sig := []

/-- An event with no tags but those that declare a level. -/
def onlyVerification (event : Models.Event) : Models.Event :=
  { event with tags := event.tags.filter fun tag =>
      (tag.elements.bind List.head?) = some "verification" }

/-- Both clients show the same level, and neither a higher one than without the other tags. -/
structure SameBadge {Value : Type} (parseJson : Text → Option Value) (platform : Models.Platform)
    (permissive : Bool) (event : Models.Event) (video : Models.VideoEvent) : Prop where
  same : webLevel parseJson (webEvent event) = getVerificationLevel video
  unraisedOnWeb : (webLevel parseJson (webEvent event)).rank ≤
    (webLevel parseJson (webEvent (onlyVerification event))).rank
  unraisedOnMobile : ∀ other,
    Models.fromNostrEvent platform permissive (onlyVerification event) = some other →
      (getVerificationLevel video).rank ≤ (getVerificationLevel other).rank

section

variable {Value : Type} (parseJson : Text → Option Value) (tags : List (List String))

def named (name : String) (tag : List String) : Bool := tag.head? = some name

/-- The value of the first tag of a name, unless it is empty or missing. -/
def firstNonempty (name : String) : Option String :=
  ((tags.find? (named name)).bind fun tag => tag[1]?).filter fun value => value ≠ ""

def lastLevel : ProofModeLevel :=
  (tags.reverse.find? (named "verification")).elim .unverified fun tag =>
    .ofValue (tag.tail.headD "")

/-- The first and the last tag that declare a level agree, the last JSON proof declares a valid
signature, and an attested device without a proof the highest level. -/
def Undisturbed : Prop :=
  match firstNonempty tags "verification" with
  | none => lastLevel tags = .unverified
  | some value =>
      let declared := ProofModeLevel.ofValue value
      if ((firstNonempty tags "proofmode").bind fun manifest =>
        parseJson manifest.toList).isSome then
        lastLevel tags = .verifiedWeb ∧ ProofModeLevel.verifiedWeb.rank ≤ declared.rank
      else if tags.any (named "device_attestation") then
        lastLevel tags = .verifiedMobile ∧ declared = .verifiedMobile
      else lastLevel tags = declared

end

/-! ### Levels from tags -/

section

variable {Value : Type} (parseJson : Text → Option Value) (tags : List (List String))

theorem isNamed_map (name : String) (tag : List String) :
    isNamed name (tag.map String.toList) = named name tag := by
  unfold isNamed named
  rw [List.head?_map]
  cases tag.head? with
  | none => rfl
  | some first => simp [String.toList_inj]

theorem find_webTags (name : String) : (webTags tags).find? (isNamed name) =
    (tags.find? (named name)).map fun tag => tag.map String.toList := by
  rw [webTags, List.find?_map]
  congr 2
  funext tag
  exact isNamed_map name tag

theorem nonempty_toList (value : String) : nonempty value.toList = decide (value ≠ "") := by
  simp [nonempty]

theorem valueOf_webTags (name : String) :
    (valueOf ((webTags tags).find? (isNamed name))).filter nonempty =
      (firstNonempty tags name).map String.toList := by
  rw [find_webTags, firstNonempty, valueOf]
  cases tags.find? (named name) with
  | none => rfl
  | some tag =>
    rw [Option.map_some, Option.bind_some, Option.bind_some, List.getElem?_map]
    cases tag[1]? with
    | none => rfl
    | some value =>
      rw [Option.map_some, Option.filter_some, Option.filter_some, nonempty_toList]
      split <;> rfl

def levelOnWeb : ProofModeLevel :=
  (firstNonempty tags "verification").elim .unverified fun value =>
    if ((firstNonempty tags "proofmode").bind fun manifest => parseJson manifest.toList).isSome then
      .verifiedWeb
    else if tags.any (named "device_attestation") then .verifiedMobile
    else .ofValue value

theorem webLevel_eq {event : NostrEvent} (same : event.tags = webTags tags) :
    webLevel parseJson event = levelOnWeb parseJson tags := by
  unfold webLevel getProofModeData levelOnWeb
  dsimp only
  rw [same, valueOf_webTags, valueOf_webTags, Option.elim_map, Option.elim_map, Option.bind_map]
  have attested : ((webTags tags).find? (isNamed "device_attestation")).isSome =
      tags.any (named "device_attestation") := by
    rw [find_webTags, Option.isSome_map, List.isSome_find?]
  rw [attested]
  cases firstNonempty tags "verification" with
  | none => rfl
  | some value =>
    simp only [Option.elim_some, Function.comp_apply, String.ofList_toList]

end

section

variable {platform : Models.Platform} {pubkey : String} {fields : Models.Fields}

theorem rawTags_withCandidate (url : String) :
    (fields.withCandidate platform url).rawTags = fields.rawTags := by
  unfold Models.Fields.withCandidate
  split <;> rfl

theorem rawTags_readImeta (key value : String) :
    (fields.readImeta platform key value).rawTags = fields.rawTags := by
  unfold Models.Fields.readImeta
  split
  case h_1 =>
    unfold Models.Fields.withCorrected
    split <;> rfl
  case h_2 | h_3 | h_4 | h_5 | h_6 | h_7 | h_8 => exact rawTags_withCandidate value
  all_goals rfl

theorem rawTags_foldl_readImeta (pairs : List (String × String)) :
    (pairs.foldl (fun read pair => read.readImeta platform pair.1 pair.2) fields).rawTags =
      fields.rawTags := by
  induction pairs generalizing fields with
  | nil => rfl
  | cons pair rest ih =>
    exact ih.trans (rawTags_readImeta pair.1 pair.2)

theorem rawTags_readEvent (id : String) (values : List String) :
    (fields.readEvent platform id values).rawTags = fields.rawTags := by
  unfold Models.Fields.readEvent
  rw [rawTags_withCandidate]
  split
  · split <;> rfl
  · rfl

theorem rawTags_readReference (url : String) (values : List String) :
    (fields.readReference platform url values).rawTags = fields.rawTags := by
  unfold Models.Fields.readReference
  split
  · exact rawTags_withCandidate url
  · split_ifs <;> rfl

theorem find_rawTags_readNamed {key : String} (other : key ≠ "preview_gif")
    (name value : String) (values : List String) :
    find (fields.readNamed platform pubkey name value values).rawTags key =
      find fields.rawTags key := by
  unfold Models.Fields.readNamed
  split
  case h_1 =>
    unfold Models.Fields.withCorrected
    split <;> rfl
  case h_2 | h_27 | h_33 => rw [rawTags_withCandidate]
  case h_3 => rw [rawTags_foldl_readImeta]
  case h_12 =>
    split
    · rw [find_put, if_neg other.symm]
    · rfl
  case h_25 => rw [rawTags_readReference]
  case h_26 => rw [rawTags_readEvent]
  case h_28 | h_29 | h_30 | h_31 =>
    simp only [Models.Fields.readPerson, Models.Fields.readAddress, Models.Fields.withLabel]
    split_ifs <;> rfl
  all_goals first
    | rfl
    | split <;> rfl

theorem find_verification (platform : Models.Platform) (pubkey : String)
    (tags : List (List String)) :
    find (Models.readTags platform pubkey tags).rawTags "verification" =
      (tags.reverse.find? (named "verification")).map fun tag => tag.tail.headD "" := by
  unfold Models.readTags
  induction tags using List.reverseRecOn with
  | nil => rfl
  | append_singleton tags tag ih =>
    rw [List.foldl_append, List.foldl_cons, List.foldl_nil, List.reverse_append,
      List.reverse_singleton, List.singleton_append, List.find?_cons]
    cases tag with
    | nil => exact ih
    | cons name values =>
      rw [Models.Fields.readTag]
      rw [find_put]
      by_cases own : name = "verification"
      · rw [if_pos own, own]
        rfl
      · have other : named "verification" (name :: values) = false := by
          simp [named, own]
        rw [if_neg own, other, find_rawTags_readNamed (by decide)]
        exact ih

end

theorem getVerificationLevel_eq {platform : Models.Platform} {permissive : Bool}
    {event : Models.Event} {video : Models.VideoEvent}
    (read : Models.fromNostrEvent platform permissive event = some video) :
    getVerificationLevel video = lastLevel (event.tags.filterMap Models.Tag.elements) := by
  have raw : video.rawTags = (Models.readTags platform event.pubkey
      (event.tags.filterMap Models.Tag.elements)).rawTags := by
    unfold Models.fromNostrEvent at read
    cases accepted : (if permissive then Models.isAcceptableVideoKind event.kind
      else Models.isVideoKind event.kind) with
    | false =>
      rw [accepted, Bool.not_false, if_pos rfl] at read
      cases read
    | true =>
      rw [accepted, Bool.not_true, if_neg Bool.false_ne_true] at read
      simp only [Option.bind_eq_bind, Option.bind_eq_some_iff] at read
      obtain ⟨tags, lists, _, -, read⟩ := read
      cases read
      obtain rfl := (mapM_eq_some_iff.mp lists).2
      rfl
  unfold getVerificationLevel isVerifiedMobile isVerifiedWeb hasBasicProof
    proofModeVerificationLevel lastLevel ProofModeLevel.ofValue
  rw [raw, find_verification]
  cases (event.tags.filterMap Models.Tag.elements).reverse.find? (named "verification") with
  | none => rfl
  | some tag => simp only [Option.map_some, Option.some.injEq, decide_eq_true_eq, Option.elim_some]

/-! ### The other tags -/

section

variable {Value : Type} (parseJson : Text → Option Value) (tags : List (List String))

theorem elements_onlyVerification (event : Models.Event) :
    (onlyVerification event).tags.filterMap Models.Tag.elements =
      (event.tags.filterMap Models.Tag.elements).filter (named "verification") := by
  rw [onlyVerification, List.filterMap_filter, List.filter_filterMap]
  congr 1
  funext tag
  cases tag with
  | other => rfl
  | list elements =>
    rfl

theorem firstNonempty_filter (name : String) :
    firstNonempty (tags.filter (named "verification")) name =
    if name = "verification" then firstNonempty tags name else none := by
  rw [firstNonempty, List.find?_filter]
  split
  · rename_i own
    subst own
    simp only [Bool.decide_and, Bool.decide_eq_true, Bool.and_self]
    rfl
  · rename_i other
    have none : tags.find? (fun tag => decide (named "verification" tag = true ∧
        named name tag = true)) = none := by
      refine List.find?_eq_none.mpr fun tag _ both => other ?_
      obtain ⟨own, named⟩ := of_decide_eq_true both
      exact Option.some.inj ((of_decide_eq_true named).symm.trans (of_decide_eq_true own))
    rw [none]
    rfl

theorem levelOnWeb_filter : levelOnWeb parseJson (tags.filter (named "verification")) =
    (firstNonempty tags "verification").elim .unverified .ofValue := by
  have unattested :
    (tags.filter (named "verification")).any (named "device_attestation") = false := by
    refine List.any_eq_false.mpr fun tag member attested => ?_
    have own := (List.mem_filter.mp member).2
    exact absurd ((of_decide_eq_true own).symm.trans (of_decide_eq_true attested)) (by decide)
  rw [levelOnWeb, firstNonempty_filter, if_pos rfl, firstNonempty_filter, if_neg (by decide),
    unattested]
  rfl

theorem lastLevel_filter : lastLevel (tags.filter (named "verification")) = lastLevel tags := by
  rw [lastLevel, ← List.filter_reverse, List.find?_filter]
  simp only [Bool.decide_and, Bool.decide_eq_true, Bool.and_self]
  rfl

end

/-- Both clients show the same level exactly when no other tag and no other declaration disturbs it.
-/
theorem sameBadge_iff {Value : Type} (parseJson : Text → Option Value)
    {platform : Models.Platform} {permissive : Bool} {event : Models.Event}
    {video : Models.VideoEvent}
    (read : Models.fromNostrEvent platform permissive event = some video) :
    SameBadge parseJson platform permissive event video ↔
      Undisturbed parseJson (event.tags.filterMap Models.Tag.elements) := by
  have web := webLevel_eq parseJson _ (show (webEvent event).tags = _ from rfl)
  have alone := webLevel_eq parseJson _ (show (webEvent (onlyVerification event)).tags = _ from rfl)
  rw [elements_onlyVerification, levelOnWeb_filter] at alone
  have mobile := getVerificationLevel_eq read
  have unraised : ∀ other,
      Models.fromNostrEvent platform permissive (onlyVerification event) = some other →
        (getVerificationLevel video).rank ≤ (getVerificationLevel other).rank := by
    intro other readOther
    rw [getVerificationLevel_eq readOther, elements_onlyVerification, lastLevel_filter, mobile]
  have split : SameBadge parseJson platform permissive event video ↔
      webLevel parseJson (webEvent event) = getVerificationLevel video ∧
        (webLevel parseJson (webEvent event)).rank ≤
          (webLevel parseJson (webEvent (onlyVerification event))).rank :=
    ⟨fun badge => ⟨badge.same, badge.unraisedOnWeb⟩, fun both => ⟨both.1, both.2, unraised⟩⟩
  rw [split, web, alone, mobile, Undisturbed, levelOnWeb]
  cases firstNonempty (event.tags.filterMap Models.Tag.elements) "verification" with
  | none => exact (and_iff_left (Nat.le_refl _)).trans eq_comm
  | some value =>
    simp only [Option.elim_some]
    split_ifs with proved attested
    · exact and_congr_left' eq_comm
    · refine and_congr eq_comm ?_
      -- nothing is above the highest level
      cases ProofModeLevel.ofValue value <;> decide
    · exact (and_iff_left (Nat.le_refl _)).trans eq_comm

/-! ### A proof beside the level -/

/-- A platform that reads no address and no number of double precision. -/
def plainPlatform : Models.Platform where
  parseUri _ := none
  toLowerCase := String.toLower
  roundedDouble _ := none

def emptyObject (text : Text) : Option Unit := if text = ['{', '}'] then some () else none

/-- A video that was verified on its device, with the proof that is published beside the level. -/
def verifiedVideo : Models.Event where
  id := "video"
  pubkey := "creator"
  createdAt := 1700000000
  kind := 34236
  tags := [.list ["verification", "verified_mobile"], .list ["proofmode", "{}"],
    .list ["device_attestation", "token"]]
  content := ""

theorem exists_verifiedVideo : ∃ video,
    Models.fromNostrEvent plainPlatform false verifiedVideo = some video :=
  Option.isSome_iff_exists.mp ((Models.fromNostrEvent_isSome rfl).mpr (by decide +kernel))

theorem sameBadge_iff_sample : ∃ video,
    Models.fromNostrEvent plainPlatform false verifiedVideo = some video ∧
      (SameBadge emptyObject plainPlatform false verifiedVideo video ↔
        Undisturbed emptyObject (verifiedVideo.tags.filterMap Models.Tag.elements)) := by
  obtain ⟨video, read⟩ := exists_verifiedVideo
  exact ⟨video, read, sameBadge_iff emptyObject read⟩

/-- The web client shows a lower level for a video that was verified on its device. -/
theorem verifiedVideo_not_sameBadge : ∃ video,
    Models.fromNostrEvent plainPlatform false verifiedVideo = some video ∧
      ¬ SameBadge emptyObject plainPlatform false verifiedVideo video := by
  obtain ⟨video, read⟩ := exists_verifiedVideo
  refine ⟨video, read, fun badge => ?_⟩
  have same := badge.same
  rw [getVerificationLevel_eq read] at same
  exact absurd same (by decide +kernel)

end Divine.FrontendWeb
