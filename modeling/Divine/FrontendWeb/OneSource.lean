/-
This file shows what the metadata of a video event has from the `imeta` tag that is
chosen, the first of greatest score.
-/

import Divine.FrontendWeb.VideoParser
import Mathlib.Data.List.Nodup
import Mathlib.Tactic.NormNum

namespace Divine.FrontendWeb

open List Option ComputeJs Splitting
open NumberText (ParsedNumber)

section Statement

variable (hostname : Text → Option Text)

def imetas (tags : List Tag) : List VideoMetadata := tags.filterMap (parseImetaTag hostname)

def firstGreatest (data : List VideoMetadata) : Option VideoMetadata :=
  @List.argmax VideoMetadata ℤ Int.instLinearOrder.toPreorder Int.decLt score data

def chosenImeta (tags : List Tag) : Option VideoMetadata := firstGreatest (imetas hostname tags)

def IsVineAddress (address : Text) : Prop := ∃ host, hostname address = some host ∧
    isVineHost host = true

def VideoMetadata.fallbacks (metadata : VideoMetadata) : List Text := metadata.fallbackUrls.getD []

def VideoMetadata.addresses (metadata : VideoMetadata) : List Text :=
  metadata.url :: (metadata.fallbacks ++ metadata.hlsUrl.toList)

/-- The URL is that of the tag, and so is the stream, unless it is derived from the tag's hash. -/
structure FromImeta (imetaData metadata : VideoMetadata) : Prop where
  url : metadata.url = imetaData.url
  hlsUrl : metadata.hlsUrl = none ∨ metadata.hlsUrl = imetaData.hlsUrl ∨
    ∃ hash, imetaData.hash = some hash ∧ metadata.hlsUrl = some (derivedHlsUrl hash)

/-- A key without a blank and a value. -/
structure IsField (field : Text × Text) : Prop where
  key : field.1 ≠ []
  single : ' ' ∉ field.1
  value : field.2 ≠ []

def spacedTag (fields : List (Text × Text)) : Tag :=
  "imeta".toList :: fields.map fun field => field.1 ++ ' ' :: field.2

def separateTag (fields : List (Text × Text)) : Tag :=
  "imeta".toList :: fields.flatMap fun field => [field.1, field.2]

inductive SameTag : Tag → Tag → Prop where
  | same (tag : Tag) : SameTag tag tag
  | separated (fields : List (Text × Text)) (each : ∀ field ∈ fields, IsField field) :
      SameTag (spacedTag fields) (separateTag fields)
  | spaced (fields : List (Text × Text)) (each : ∀ field ∈ fields, IsField field) :
      SameTag (separateTag fields) (spacedTag fields)

/-- A video that could be read and is left out of the list all the same. -/
structure DroppedForLength (event : NostrEvent) : Prop where
  valid : validateVideoEvent event = true
  parsed : (parseVideoEvent hostname event).isSome
  dropped : parseVideoEvents hostname [event] = []

structure KeepsOneSource (event : NostrEvent) : Prop where
  chosen : ∀ imetaData ∈ chosenImeta hostname event.tags,
    ∃ metadata, extractVideoMetadata hostname event = some metadata ∧ FromImeta imetaData metadata
  unchosen : chosenImeta hostname event.tags = none →
    ∀ metadata ∈ extractVideoMetadata hostname event, metadata.hlsUrl = none
  distinct : ∀ metadata ∈ extractVideoMetadata hostname event,
    (metadata.url :: metadata.fallbacks).Nodup
  alive : ∀ metadata ∈ extractVideoMetadata hostname event, ∀ address ∈ metadata.addresses,
    ¬IsVineAddress hostname address
  layouts : ∀ tags, List.Forall₂ SameTag event.tags tags →
    extractVideoMetadata hostname { event with tags } = extractVideoMetadata hostname event
  length : DroppedForLength hostname event → ∀ imetaData ∈ chosenImeta hostname event.tags,
    ∀ duration ∈ imetaData.duration, duration ≠ .nan → isTooLong duration = true

/-- The stream of the chosen tag is no `vine.co` address, and where it says that there is no length,
the first one stated is short. -/
structure OwnFields (event : NostrEvent) : Prop where
  hlsUrl : ∀ imetaData ∈ chosenImeta hostname event.tags, ∀ address ∈ imetaData.hlsUrl,
    ¬IsVineAddress hostname address
  duration : validateVideoEvent event = true →
    ∀ imetaData ∈ chosenImeta hostname event.tags, imetaData.duration = some (.finite 0) →
      ∀ other ∈ ((imetas hostname event.tags).filterMap VideoMetadata.duration).find? nonzero,
        isTooLong other = false

end Statement

variable {hostname : Text → Option Text} {tags : List Tag} {event : NostrEvent}

/-! ### Acceptable URLs -/

theorem not_isVineAddress {url : Text} (valid : isValidVideoUrl hostname url = true) :
    ¬IsVineAddress hostname url := by
  rintro ⟨host, parsed, vine⟩
  simp only [isValidVideoUrl, parsed, vine] at valid
  cases valid

theorem spacedField_value {element : Text} {field : Text × Text}
    (read : spacedField element = some field) : field.2 ≠ [] := by
  simp only [spacedField] at read
  split_ifs at read with _ empty
  cases read
  exact empty

theorem separateFields_value (elements : List Text) : ∀ field ∈ separateFields elements,
    field.2 ≠ [] := by
  induction elements using separateFields.induct with
  | case1 key value rest skipped ih =>
    rw [separateFields, if_pos skipped]
    exact ih
  | case2 key value rest kept ih =>
    rw [separateFields, if_neg kept]
    exact forall_mem_cons.mpr ⟨(not_or.mp kept).2, ih⟩
  | case3 => exact nofun
  | case4 => exact nofun

theorem fieldsOf_value (tag : Tag) : ∀ field ∈ fieldsOf tag, field.2 ≠ [] := by
  unfold fieldsOf
  split_ifs
  · intro field member
    obtain ⟨element, _, read⟩ := mem_filterMap.mp member
    exact spacedField_value read
  · exact separateFields_value tag.tail

/-- The metadata that is read from the fields of a tag, as far as they have been read. -/
structure VideoMetadata.Checked (hostname : Text → Option Text)
    (metadata : VideoMetadata) : Prop where
  url : metadata.url = [] ∨ isValidVideoUrl hostname metadata.url = true
  hlsUrl : ∀ address ∈ metadata.hlsUrl, address ≠ []
  fallbackUrls : metadata.fallbackUrls = none

theorem VideoMetadata.Checked.ite {condition : Prop} [Decidable condition]
    {first second : VideoMetadata} (whenTrue : condition → first.Checked hostname)
    (whenFalse : second.Checked hostname) :
    (if condition then first else second).Checked hostname := by
  split
  · exact whenTrue ‹_›
  · exact whenFalse

theorem setField_checked {metadata : VideoMetadata} (before : metadata.Checked hostname)
    {field : Text × Text} (value : field.2 ≠ []) :
      (setField hostname metadata field).Checked hostname := by
  obtain ⟨key, text⟩ := field
  refine .ite (fun _ => .ite (fun valid => ⟨.inr valid, before.hlsUrl, before.fallbackUrls⟩) before)
    ?_
  iterate 7 refine .ite (fun _ => ⟨before.url, before.hlsUrl, before.fallbackUrls⟩) ?_
  exact .ite (fun _ => ⟨before.url, fun _ same => Option.some.inj same ▸ value,
    before.fallbackUrls⟩) before

variable {fields : List (Text × Text)}


theorem foldl_setField_checked (values : ∀ field ∈ fields, field.2 ≠ []) {metadata : VideoMetadata}
    (before : metadata.Checked hostname) :
    (fields.foldl (setField hostname) metadata).Checked hostname := by
  induction fields generalizing metadata with
  | nil => exact before
  | cons field fields ih =>
    obtain ⟨value, values⟩ := forall_mem_cons.mp values
    exact ih values (setField_checked before value)

theorem parseImetaTag_checked {tag : Tag} {imetaData : VideoMetadata}
    (parsed : parseImetaTag hostname tag = some imetaData) :
    imetaData.url ≠ [] ∧ imetaData.Checked hostname := by
  have start : VideoMetadata.Checked hostname { url := [] } :=
    ⟨.inl rfl, fun _ absent => absurd absent (not_mem_none _), rfl⟩
  have checked := foldl_setField_checked (fieldsOf_value tag) start
  simp only [parseImetaTag] at parsed
  split_ifs at parsed with _ empty
  cases parsed
  exact ⟨empty, checked⟩

theorem checked_of_mem_imetas {imetaData : VideoMetadata}
    (member : imetaData ∈ imetas hostname tags) :
    imetaData.url ≠ [] ∧ imetaData.Checked hostname := by
  obtain ⟨tag, _, parsed⟩ := mem_filterMap.mp member
  exact parseImetaTag_checked parsed

theorem valid_of_mem_imetas {imetaData : VideoMetadata}
    (member : imetaData ∈ imetas hostname tags) :
    isValidVideoUrl hostname imetaData.url = true := by
  obtain ⟨empty, checked⟩ := checked_of_mem_imetas member
  exact checked.url.resolve_left empty

theorem acceptableImeta_eq (tags : List Tag) : acceptableImeta hostname tags =
    imetas hostname tags := by
  refine filterMap_congr fun tag _ => ?_
  cases parsed : parseImetaTag hostname tag with
  | none => rfl
  | some imetaData =>
    obtain ⟨empty, checked⟩ := parseImetaTag_checked parsed
    exact filter_some_pos (checked.url.resolve_left empty)

theorem extractVideoUrl_valid {url : Text} (found : extractVideoUrl hostname event = some url) :
    isValidVideoUrl hostname url = true := by
  have tagged : ∀ tag : Tag, hasVideoUrl hostname tag = true → ∀ value ∈ tag[1]?,
      isValidVideoUrl hostname value = true := by
    intro tag has value same
    rw [hasVideoUrl, same, any_some, Bool.and_eq_true] at has
    exact has.2
  have referred :
    ∀ value ∈ (event.tags.filter fun tag => isNamed "r" tag && hasVideoUrl hostname tag).filterMap
      (·[1]?), isValidVideoUrl hostname value = true := by
    intro value member
    obtain ⟨tag, inTags, same⟩ := mem_filterMap.mp member
    exact tagged tag (Bool.and_eq_true _ _ ▸ (mem_filter.mp inTags).2).2 value same
  rw [extractVideoUrl, acceptableImeta_eq] at found
  simp only [or_eq_some_iff] at found
  rcases found with (imeta | ⟨_, named⟩) | ⟨_, film | ⟨_, reference | ⟨_, written⟩⟩⟩
  · obtain ⟨imetaData, first, rfl⟩ := map_eq_some_iff.mp imeta
    exact valid_of_mem_imetas (mem_of_head? first)
  · obtain ⟨tag, first, same⟩ := bind_eq_some_iff.mp named
    have both := List.find?_some first
    rw [Bool.and_eq_true] at both
    exact tagged tag both.2 url same
  · exact referred url (mem_of_find?_eq_some film)
  · exact referred url (mem_of_head? reference)
  · exact List.find?_some written

/-! ### Layouts -/

theorem spacedField_of_isField {field : Text × Text} (valid : IsField field) :
    spacedField (field.1 ++ ' ' :: field.2) = some field := by
  have blank : ' ' ∈ field.1 ++ ' ' :: field.2 := mem_append_right _ mem_cons_self
  have before : ∀ symbol ∈ field.1, decide (symbol ≠ ' ') = true :=
    fun symbol member => decide_eq_true fun same => valid.single (same ▸ member)
  have key : (field.1 ++ ' ' :: field.2).takeWhile (· ≠ ' ') = field.1 := by
    rw [takeWhile_append_of_pos before, takeWhile_cons_of_neg (by decide),
      append_nil]
  have value : (field.1 ++ ' ' :: field.2).drop (field.1.length + 1) = field.2 := by
    rw [drop_append, drop_of_length_le (Nat.le_succ _), Nat.add_sub_cancel_left]
    rfl
  simp only [spacedField, if_neg (not_not.mpr blank), key, value, if_neg valid.value]

theorem fieldsOf_spacedTag (each : ∀ field ∈ fields, IsField field) :
    fieldsOf (spacedTag fields) = fields := by
  have read :
    (fields.map fun field => field.1 ++ ' ' :: field.2).filterMap spacedField = fields := by
    rw [filterMap_map]
    calc fields.filterMap (spacedField ∘ fun field => field.1 ++ ' ' :: field.2)
        = fields.filterMap some :=
          filterMap_congr fun field member => spacedField_of_isField (each field member)
      _ = fields := filterMap_some
  cases fields with
  | nil => rfl
  | cons field fields =>
    have blank : ' ' ∈ field.1 ++ ' ' :: field.2 := mem_append_right _ mem_cons_self
    have format : isFormat1 (spacedTag (field :: fields)) = true := decide_eq_true blank
    rw [fieldsOf, if_pos format]
    exact read

theorem fieldsOf_separateTag (each : ∀ field ∈ fields, IsField field) :
    fieldsOf (separateTag fields) = fields := by
  have read : separateFields (fields.flatMap fun field => [field.1, field.2]) = fields := by
    induction fields with
    | nil => rfl
    | cons field fields ih =>
      obtain ⟨first, later⟩ := forall_mem_cons.mp each
      show (if field.1 = [] ∨ field.2 = [] then _ else _) = _
      rw [if_neg (not_or.mpr ⟨first.key, first.value⟩)]
      exact congrArg (List.cons field) (ih later)
  have format : ¬isFormat1 (separateTag fields) = true := by
    cases fields with
    | nil => exact Bool.false_ne_true
    | cons field fields =>
      exact fun blank => (each field mem_cons_self).single (of_decide_eq_true blank)
  rw [fieldsOf, if_neg format]
  exact read

theorem SameTag.parseImetaTag {tag other : Tag} (same : SameTag tag other) :
    parseImetaTag hostname other = parseImetaTag hostname tag := by
  have parsed : ∀ fields : List (Text × Text), (∀ field ∈ fields, IsField field) →
      FrontendWeb.parseImetaTag hostname (spacedTag fields) =
        FrontendWeb.parseImetaTag hostname (separateTag fields) := by
    intro fields each
    have named : isNamed "imeta" (spacedTag fields) = isNamed "imeta" (separateTag fields) := rfl
    rw [FrontendWeb.parseImetaTag, FrontendWeb.parseImetaTag, fieldsOf_spacedTag each,
      fieldsOf_separateTag each, named]
  cases same with
  | same => rfl
  | separated fields each => exact (parsed fields each).symm
  | spaced fields each => exact parsed fields each

theorem SameTag.eq_of_isNamed {tag other : Tag} (same : SameTag tag other) {name : String}
    (different : name ≠ "imeta") :
    isNamed name other = isNamed name tag ∧ (isNamed name tag = true → other = tag) := by
  have imeta : ∀ elements : List Text, isNamed name ("imeta".toList :: elements) = false := by
    intro elements
    refine decide_eq_false fun named => different ?_
    exact (String.toList_inj.mp (Option.some.inj named)).symm
  cases same with
  | same => exact ⟨rfl, fun _ => rfl⟩
  | separated | spaced =>
    rw [spacedTag, separateTag, imeta, imeta]
    exact ⟨rfl, fun absent => absurd absent Bool.false_ne_true⟩

section Layouts

variable {others : List Tag} (same : List.Forall₂ SameTag tags others)
include same

theorem filterMap_layouts {Value : Type} {read : Tag → Option Value}
    (each : ∀ tag other, SameTag tag other → read other = read tag) :
    others.filterMap read = tags.filterMap read := by
  induction same with
  | nil => rfl
  | cons tag _ ih =>
    rw [filterMap_cons, filterMap_cons, each _ _ tag, ih]

theorem imetas_layouts : imetas hostname others = imetas hostname tags :=
  filterMap_layouts same fun _ _ same => same.parseImetaTag

theorem filter_layouts {name : String} (different : name ≠ "imeta") (holds : Tag → Bool) :
    (others.filter fun tag => isNamed name tag && holds tag) =
      tags.filter fun tag => isNamed name tag && holds tag := by
  rw [← filterMap_eq_filter]
  refine filterMap_layouts same fun tag other same => ?_
  obtain ⟨named, equal⟩ := same.eq_of_isNamed different
  cases isName : isNamed name tag with
  | true => rw [equal isName]
  | false =>
    simp only [Option.guard, named, isName, Bool.false_and]
    rfl

theorem complete_layouts (best : VideoMetadata) :
    complete hostname others best = complete hostname tags best := by
  have filled : others.filterMap (parseImetaTag hostname) =
    tags.filterMap (parseImetaTag hostname) :=
    imetas_layouts same
  have fallbacks : ∀ url, fallbacksFor hostname url others = fallbacksFor hostname url tags := by
    intro url
    rw [fallbacksFor, fallbacksFor, acceptableImeta_eq, acceptableImeta_eq, imetas_layouts same]
  simp only [complete, filled, fallbacks]

end Layouts

theorem extractVideoMetadata_layouts {others : List Tag}
    (same : List.Forall₂ SameTag event.tags others) :
    extractVideoMetadata hostname { event with tags := others } =
      extractVideoMetadata hostname event := by
  have references := @filter_layouts _ _ same "r" (by decide) (hasVideoUrl hostname)
  have urls := @filter_layouts _ _ same "url" (by decide) (hasVideoUrl hostname)
  have url : extractVideoUrl hostname { event with tags := others } =
    extractVideoUrl hostname event := by
    simp only [extractVideoUrl, acceptableImeta_eq, imetas_layouts same, references,
      ← head?_filter, urls]
  have completed : complete hostname others = complete hostname event.tags :=
    funext (complete_layouts same)
  simp only [extractVideoMetadata, bestImeta, acceptableImeta_eq, imetas_layouts same,
    url, completed]

/-! ### The choice -/

theorem score_nonneg (imetaData : VideoMetadata) : 0 ≤ score imetaData := by
  unfold score
  split_ifs <;> decide

theorem mem_of_chosenImeta {best : VideoMetadata} (chosen : chosenImeta hostname tags = some best) :
    best ∈ imetas hostname tags :=
  @List.argmax_mem VideoMetadata ℤ Int.instLinearOrder.toPreorder Int.decLt score _ _ chosen

theorem firstGreatest_concat (data : List VideoMetadata) (imetaData : VideoMetadata) :
    firstGreatest (data ++ [imetaData]) = (firstGreatest data).elim (some imetaData) fun best =>
      if score best < score imetaData then some imetaData else some best := by
  refine (@List.argmax_concat VideoMetadata ℤ Int.instLinearOrder.toPreorder Int.decLt score
    imetaData data).trans ?_
  unfold firstGreatest
  cases @List.argmax VideoMetadata ℤ Int.instLinearOrder.toPreorder Int.decLt score data <;> rfl

theorem bestImeta_eq (tags : List Tag) : bestImeta hostname tags = chosenImeta hostname tags := by
  have loop : ∀ data : List VideoMetadata, data.foldl keepBest (none, -1) =
      (firstGreatest data, (firstGreatest data).elim (-1) score) := by
    intro data
    induction data using reverseRecOn with
    | nil => rfl
    | append_singleton data imetaData ih =>
      rw [foldl_append, foldl_cons, foldl_nil, ih,
        firstGreatest_concat]
      have positive := score_nonneg imetaData
      cases firstGreatest data with
      | none =>
        have better : score imetaData > -1 := by omega
        exact if_pos better
      | some best =>
        simp only [keepBest, elim_some, gt_iff_lt]
        split_ifs <;> rfl
  rw [bestImeta, acceptableImeta_eq, loop]
  rfl

/-! ### What is filled in -/

theorem filter_orElse {Value : Type} (truthy : Value → Bool) (value other : Option Value) :
    (orElse truthy value other).filter truthy = (value.filter truthy).or (other.filter truthy) := by
  cases value with
  | none => rfl
  | some value =>
    cases kept : truthy value with
    | true => rw [orElse, any_some, if_pos kept, filter_some_pos kept, some_or]
    | false =>
      rw [orElse, any_some, if_neg (Bool.not_eq_true _ ▸ kept), filter_some_neg kept,
        none_or]

theorem foldl_fillIn_urls (others : List VideoMetadata) (metadata : VideoMetadata) :
    (others.foldl fillIn metadata).url = metadata.url ∧
      (others.foldl fillIn metadata).hlsUrl = metadata.hlsUrl ∧
      (others.foldl fillIn metadata).fallbackUrls = metadata.fallbackUrls := by
  induction others generalizing metadata with
  | nil => exact ⟨rfl, rfl, rfl⟩
  | cons imetaData others ih =>
    exact ih (fillIn metadata imetaData)

theorem foldl_fillIn_duration (others : List VideoMetadata) (metadata : VideoMetadata) :
    (others.foldl fillIn metadata).duration.filter nonzero =
      (metadata.duration.filter nonzero).or
        ((others.filterMap VideoMetadata.duration).find? nonzero) := by
  induction others generalizing metadata with
  | nil => exact or_none.symm
  | cons imetaData others ih =>
    rw [foldl_cons, ih]
    show ((orElse nonzero metadata.duration imetaData.duration).filter nonzero).or _ = _
    rw [filter_orElse, Option.or_assoc]
    cases stated : imetaData.duration with
    | none => rw [filterMap_cons_none stated, filter_none, none_or]
    | some duration =>
      rw [filterMap_cons_some stated, List.find?_cons]
      cases kept : nonzero duration with
      | true => rw [filter_some_pos kept, some_or]
      | false => rw [filter_some_neg kept, none_or]

theorem generateHls_hlsUrl (metadata : VideoMetadata) :
    (generateHls metadata).hlsUrl = metadata.hlsUrl ∨
      ∃ hash, metadata.hash = some hash ∧ (generateHls metadata).hlsUrl =
        some (derivedHlsUrl hash) := by
  cases given : metadata.hash.filter nonempty with
  | none =>
    simp only [generateHls, given]
    exact .inl trivial
  | some hash =>
    simp only [generateHls, given]
    split_ifs
    · exact .inr ⟨hash, (filter_eq_some_iff.mp given).1, rfl⟩
    · exact .inl rfl

theorem generateHls_others (metadata : VideoMetadata) :
    (generateHls metadata).url = metadata.url ∧
      (generateHls metadata).fallbackUrls = metadata.fallbackUrls ∧
      (generateHls metadata).duration = metadata.duration := by
  unfold generateHls
  split
  · split_ifs <;> exact ⟨rfl, rfl, rfl⟩
  · exact ⟨rfl, rfl, rfl⟩

/-! ### Fallbacks -/

theorem foldl_addFallback {url : Text} (data : List VideoMetadata) {before : List Text}
    (distinct : (url :: before).Nodup) :
    (url :: data.foldl (addFallback url) before).Nodup ∧
      ∀ address ∈ data.foldl (addFallback url) before,
        address ∈ before ∨ ∃ imetaData ∈ data, address = imetaData.url := by
  induction data generalizing before with
  | nil => exact ⟨distinct, fun _ member => .inl member⟩
  | cons imetaData data ih =>
    rw [foldl_cons]
    by_cases added : imetaData.url ≠ url ∧ includes ".mp4".toList imetaData.url ∧
      (before.all fun other => imetaData.url ≠ other)
    · have fresh : imetaData.url ∉ before := fun member =>
        of_decide_eq_true (all_eq_true.mp added.2.2 _ member) rfl
      have longer : (url :: (before ++ [imetaData.url])).Nodup := by
        rw [← cons_append, nodup_append_comm, singleton_append, nodup_cons]
        exact ⟨not_mem_cons_of_ne_of_not_mem added.1 fresh, distinct⟩
      rw [addFallback, if_pos added]
      obtain ⟨apart, known⟩ := ih longer
      refine ⟨apart, fun address member => ?_⟩
      rcases known address member with earlier | ⟨other, inData, same⟩
      · rcases mem_append.mp earlier with old | new
        · exact .inl old
        · exact .inr ⟨imetaData, mem_cons_self, mem_singleton.mp new⟩
      · exact .inr ⟨other, mem_cons_of_mem _ inData, same⟩
    · rw [addFallback, if_neg added]
      obtain ⟨apart, known⟩ := ih distinct
      refine ⟨apart, fun address member => (known address member).imp_right ?_⟩
      rintro ⟨other, inData, same⟩
      exact ⟨other, mem_cons_of_mem _ inData, same⟩

theorem fallbacksFor_spec (url : Text) (tags : List Tag) :
    (url :: fallbacksFor hostname url tags).Nodup ∧
      ∀ address ∈ fallbacksFor hostname url tags, isValidVideoUrl hostname address = true := by
  rw [fallbacksFor, acceptableImeta_eq]
  obtain ⟨distinct, known⟩ := @foldl_addFallback url (imetas hostname tags) []
    (nodup_singleton url)
  refine ⟨distinct, fun address member => ?_⟩
  rcases known address member with absent | ⟨imetaData, inData, rfl⟩
  · exact absurd absent not_mem_nil
  · exact valid_of_mem_imetas inData

/-! ### The metadata -/

theorem complete_url (tags : List Tag) (best : VideoMetadata) :
    (complete hostname tags best).url = best.url := by
  have same := (foldl_fillIn_urls (imetas hostname tags) (generateHls best)).1
  rw [(generateHls_others best).1] at same
  simp only [complete]
  split_ifs <;> exact same

theorem complete_hlsUrl (tags : List Tag) (best : VideoMetadata) :
    (complete hostname tags best).hlsUrl = (generateHls best).hlsUrl := by
  have same := (foldl_fillIn_urls (imetas hostname tags) (generateHls best)).2.1
  simp only [complete]
  split_ifs <;> exact same

theorem complete_duration (tags : List Tag) (best : VideoMetadata) :
    (complete hostname tags best).duration.filter nonzero = (best.duration.filter nonzero).or
      (((imetas hostname tags).filterMap VideoMetadata.duration).find? nonzero) := by
  have same := foldl_fillIn_duration (imetas hostname tags) (generateHls best)
  rw [(generateHls_others best).2.2] at same
  simp only [complete]
  split_ifs <;> exact same

theorem complete_fallbacks (tags : List Tag) {best : VideoMetadata}
    (none : best.fallbackUrls = none) :
    (complete hostname tags best).fallbacks = (fallbacksFor hostname best.url tags).take 2 := by
  have same := foldl_fillIn_urls (imetas hostname tags) (generateHls best)
  rw [(generateHls_others best).1, (generateHls_others best).2.1, none] at same
  have url :
    ((tags.filterMap (parseImetaTag hostname)).foldl fillIn (generateHls best)).url = best.url :=
    same.1
  simp only [complete, url]
  split_ifs with empty
  · rw [empty, VideoMetadata.fallbacks]
    exact congrArg (getD · []) same.2.2
  · rfl

theorem extractVideoMetadata_of_chosen {best : VideoMetadata}
    (chosen : chosenImeta hostname event.tags = some best) :
    extractVideoMetadata hostname event = some (complete hostname event.tags best) := by
  rw [extractVideoMetadata, bestImeta_eq, chosen]
  rfl

theorem exists_best {metadata : VideoMetadata}
    (extracted : extractVideoMetadata hostname event = some metadata) :
    ∃ best : VideoMetadata, metadata = complete hostname event.tags best ∧
      isValidVideoUrl hostname best.url = true ∧ best.fallbackUrls = none ∧
      (chosenImeta hostname event.tags = some best ∨
        chosenImeta hostname event.tags = none ∧ best.hlsUrl = none ∧ best.hash = none) := by
  rw [extractVideoMetadata, bestImeta_eq] at extracted
  obtain ⟨best, found, same⟩ := map_eq_some_iff.mp extracted
  refine ⟨best, same.symm, ?_⟩
  rcases or_eq_some_iff.mp found with chosen | ⟨unchosen, other⟩
  · have member := mem_of_chosenImeta chosen
    exact ⟨valid_of_mem_imetas member, (checked_of_mem_imetas member).2.fallbackUrls, .inl chosen⟩
  · obtain ⟨primaryUrl, written, rfl⟩ := map_eq_some_iff.mp other
    exact ⟨extractVideoUrl_valid written, rfl, .inr ⟨unchosen, rfl, rfl⟩⟩

theorem generateHls_of_given {metadata : VideoMetadata} {address : Text}
    (given : metadata.hlsUrl = some address) (written : address ≠ []) :
    (generateHls metadata).hlsUrl = some address := by
  have stated : metadata.hlsUrl.any nonempty = true := by
    rw [given, any_some]
    exact decide_eq_true written
  unfold generateHls
  split
  · rw [stated]
    exact given
  · exact given

/-! ### Length -/

theorem nonzero_of_isTooLong {duration : ParsedNumber} (long : isTooLong duration = true) :
    nonzero duration = true := by
  cases duration with
  | finite value =>
    have positive : (0 : ℚ) < value := lt_of_lt_of_le (by norm_num) (of_decide_eq_true long)
    exact decide_eq_true positive.ne'
  | infinite negative => rfl
  | nan => cases long

theorem isTooLong_complete (tags : List Tag) (best : VideoMetadata) :
    (complete hostname tags best).duration.any isTooLong =
      ((best.duration.filter nonzero).or (((imetas hostname tags).filterMap
        VideoMetadata.duration).find? nonzero)).any isTooLong := by
  rw [← complete_duration]
  cases (complete hostname tags best).duration with
  | none => rfl
  | some duration =>
    cases kept : nonzero duration with
    | true => rw [filter_some_pos kept]
    | false =>
      rw [filter_some_neg kept, any_some, any_none]
      exact Bool.eq_false_of_not_eq_true fun long => by
        rw [nonzero_of_isTooLong long] at kept
        cases kept

theorem droppedForLength_iff {best : VideoMetadata}
    (chosen : chosenImeta hostname event.tags = some best) :
    DroppedForLength hostname event ↔ validateVideoEvent event = true ∧
      (complete hostname event.tags best).duration.any isTooLong = true := by
  have extracted := extractVideoMetadata_of_chosen chosen
  have parsed : (parseVideoEvent hostname event).isSome := by
    rw [parseVideoEvent, extracted]
    rfl
  have written : nonempty (complete hostname event.tags best).url = true := by
    rw [complete_url]
    exact decide_eq_true (checked_of_mem_imetas (mem_of_chosenImeta chosen)).1
  have listed : validateVideoEvent event = true → (parseVideoEvents hostname [event] = [] ↔
      (complete hostname event.tags best).duration.any isTooLong = true) := by
    intro valid
    have identified :
      (!((getVineId event).isNone && decide (event.kind = shortVideoKind))) = true := by
      rw [validateVideoEvent, Bool.and_eq_true, Bool.and_comm (decide _)] at valid
      exact valid.2
    have taken : parseVideo hostname event = none ↔
        (complete hostname event.tags best).duration.any isTooLong = true := by
      unfold parseVideo parseVideoEvent
      rw [extracted, valid]
      cases long : (complete hostname event.tags best).duration.any isTooLong with
      | true => simp [identified, long]
      | false => simp [identified, written, long]
    rw [← taken, parseVideoEvents]
    cases read : parseVideo hostname event with
    | none | some => simp [read]
  constructor
  · exact fun dropped => ⟨dropped.valid, (listed dropped.valid).mp dropped.dropped⟩
  · exact fun ⟨valid, long⟩ => ⟨valid, parsed, (listed valid).mpr long⟩

/-! ### One source -/

theorem not_isVineAddress_derivedHlsUrl
    (divine : ∀ path, hostname (divineMedia ++ path) = some "media.divine.video".toList)
    (hash : Text) :
    ¬IsVineAddress hostname (derivedHlsUrl hash) := by
  rintro ⟨host, parsed, vine⟩
  rw [derivedHlsUrl, append_assoc, divine] at parsed
  rw [← Option.some.inj parsed] at vine
  exact absurd vine (by decide)

theorem OwnFields.alive (own : OwnFields hostname event)
    (divine : ∀ path, hostname (divineMedia ++ path) = some "media.divine.video".toList)
    {metadata : VideoMetadata} (extracted : extractVideoMetadata hostname event = some metadata) :
    ∀ address ∈ metadata.addresses, ¬IsVineAddress hostname address := by
  intro address member
  obtain ⟨best, rfl, valid, plain, source⟩ := exists_best extracted
  rw [VideoMetadata.addresses, complete_url, complete_fallbacks _ plain, complete_hlsUrl] at member
  rcases mem_cons.mp member with rfl | member
  · exact not_isVineAddress valid
  rcases mem_append.mp member with fallback | stream
  · exact not_isVineAddress ((fallbacksFor_spec best.url event.tags).2 address
      (mem_of_mem_take fallback))
  have same := mem_toList.mp stream
  rcases generateHls_hlsUrl best with given | ⟨hash, _, generated⟩
  · rw [given] at same
    rcases source with chosen | ⟨_, absent, _⟩
    · exact own.hlsUrl best chosen address same
    · rw [absent] at same
      cases same
  · rw [generated] at same
    exact Option.some.inj same ▸ not_isVineAddress_derivedHlsUrl divine hash

/-- A duration other than zero is the tag's own, and beside a zero the others state a short one. -/
theorem OwnFields.length (own : OwnFields hostname event)
    (dropped : DroppedForLength hostname event)
    {best : VideoMetadata} (chosen : chosenImeta hostname event.tags = some best)
    {duration : ParsedNumber} (stated : best.duration = some duration) (number : duration ≠ .nan) :
    isTooLong duration = true := by
  obtain ⟨valid, long⟩ := (droppedForLength_iff chosen).mp dropped
  rw [isTooLong_complete, stated] at long
  cases counted : nonzero duration with
  | true =>
    rw [filter_some_pos counted, some_or] at long
    exact long
  | false =>
    have zero : duration = .finite 0 := by
      cases duration with
      | finite value => exact congrArg ParsedNumber.finite (not_not.mp (of_decide_eq_false counted))
      | infinite negative => cases counted
      | nan => exact absurd rfl number
    rw [filter_some_neg counted, none_or] at long
    obtain ⟨other, first, tooLong⟩ := (any_eq_true _ _).mp long
    have short := own.duration valid best chosen (zero ▸ stated) other first
    rw [tooLong] at short
    cases short

/-- The metadata has one source and no dead links just when the stream of the chosen tag is no dead
link and its duration is not zero where another is long. -/
theorem keepsOneSource_iff (hostname : Text → Option Text)
    (divine : ∀ path, hostname (divineMedia ++ path) = some "media.divine.video".toList)
    (event : NostrEvent) : KeepsOneSource hostname event ↔ OwnFields hostname event := by
  constructor
  · intro keeps
    refine ⟨fun best chosen address given => ?_, fun valid best chosen zero other first => ?_⟩
    · obtain ⟨empty, checked⟩ := checked_of_mem_imetas (mem_of_chosenImeta chosen)
      have extracted := extractVideoMetadata_of_chosen chosen
      have returned : (complete hostname event.tags best).hlsUrl = some address := by
        rw [complete_hlsUrl]
        exact generateHls_of_given given (checked.hlsUrl address given)
      refine keeps.alive _ extracted address (mem_cons_of_mem _ (mem_append_right _ ?_))
      rw [returned]
      exact mem_singleton_self address
    · refine Bool.eq_false_of_not_eq_true fun long => ?_
      have filled : (complete hostname event.tags best).duration.any isTooLong = true := by
        rw [isTooLong_complete, zero, filter_some_neg (by decide), none_or, first]
        exact long
      have dropped := (droppedForLength_iff chosen).mpr ⟨valid, filled⟩
      have own := keeps.length dropped best chosen (.finite 0) zero (by decide)
      exact absurd own (by decide)
  · intro own
    constructor
    case chosen =>
      intro best chosen
      refine ⟨_, extractVideoMetadata_of_chosen chosen, complete_url _ best, ?_⟩
      rw [complete_hlsUrl]
      exact .inr (generateHls_hlsUrl best)
    case unchosen =>
      intro unchosen metadata extracted
      obtain ⟨best, rfl, _, _, chosen | ⟨_, absent, unhashed⟩⟩ := exists_best extracted
      · rw [unchosen] at chosen
        cases chosen
      · rw [complete_hlsUrl, generateHls, unhashed]
        exact absent
    case distinct =>
      intro metadata extracted
      obtain ⟨best, rfl, _, plain, _⟩ := exists_best extracted
      rw [complete_url, complete_fallbacks _ plain]
      exact (fallbacksFor_spec best.url event.tags).1.sublist
        (Sublist.cons_cons _ (take_sublist 2 _))
    case alive => exact fun metadata extracted => own.alive divine extracted
    case layouts => exact fun tags same => extractVideoMetadata_layouts same
    case length => exact fun dropped best chosen duration stated => own.length dropped chosen stated

/-! ### Two events -/

/-- The host name of a web address without a user, in lower case as it is written. -/
def webHostname (url : Text) : Option Text :=
  ["https://".toList, "http://".toList].findSome? fun scheme =>
    let host := (url.drop scheme.length).takeWhile fun symbol => symbol ∉ ['/', '?', '#', ':']
    if scheme.isPrefixOf url ∧ host ≠ [] then some host else none

def videoWith (imeta : List (List String)) : NostrEvent where
  id := "1".toList
  pubkey := "2".toList
  createdAt := 1
  kind := 34236
  tags := ["d".toList, "v".toList] :: imeta.map fun tag => "imeta".toList :: tag.map String.toList
  content := []
  sig := "3".toList

/-- The stream of the first tag is on `vine.co`. -/
def deadStream : NostrEvent :=
  videoWith [["url https://a.example/v.mp4", "hls https://vine.co/v.m3u8"]]

def unknownLength : NostrEvent :=
  videoWith [["url https://a.example/v.mp4", "duration 0"],
    ["url https://b.example/v.webm", "duration 9"]]

/-- The first tag states a length, and another tag a longer one. -/
def knownLength : NostrEvent :=
  videoWith [["url https://a.example/v.mp4", "duration 6"],
    ["url https://b.example/v.webm", "duration 9"]]

theorem keepsOneSource_iff_sample :
    KeepsOneSource webHostname knownLength ↔ OwnFields webHostname knownLength :=
  keepsOneSource_iff webHostname (fun _ => rfl) knownLength

/-- A stream on `vine.co` is returned, and a video is dropped for a length of another tag. -/
theorem keepsOneSource_fails :
    ¬KeepsOneSource webHostname deadStream ∧ ¬KeepsOneSource webHostname unknownLength := by
  constructor
  · intro keeps
    have extracted : extractVideoMetadata webHostname deadStream =
        some { url := "https://a.example/v.mp4".toList,
               hlsUrl := some "https://vine.co/v.m3u8".toList } := rfl
    exact keeps.alive _ extracted "https://vine.co/v.m3u8".toList (by decide) ⟨_, rfl, rfl⟩
  · intro keeps
    have chosen : chosenImeta webHostname unknownLength.tags =
        some { url := "https://a.example/v.mp4".toList, duration := some (.finite 0) } := rfl
    have dropped : DroppedForLength webHostname unknownLength := ⟨rfl, rfl, rfl⟩
    have own := keeps.length dropped _ chosen (.finite 0) rfl (by decide)
    exact absurd own (by decide)

end Divine.FrontendWeb
