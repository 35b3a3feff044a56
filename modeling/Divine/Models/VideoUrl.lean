/-
This file settles which address a video gets.
-/

import Divine.Models.NostrVideo

namespace Divine.Models

open Fallible

/-! ### What the tags give -/

inductive Role where
  | video | pictureOrSound
  deriving DecidableEq

/-- An address in a tag, what it is given as, and whether it is read as a candidate. -/
structure Given where
  url : String
  role : Role
  isCandidate : Bool
  deriving DecidableEq

def pictureOrSound : List String := ["thumb", "thumbnail", "image", "preview", "audio"]

def roleOf (name : String) : Role :=
  if pictureOrSound.contains name then .pictureOrSound else .video

def givenByImeta (key value : String) : Option Given :=
  match key with
  | "url" => some ⟨correctedUrl value, .video, true⟩
  | "hls" | "dash" | "stream" | "streaming" | "fallback" | "mp4" | "video" =>
      some ⟨value, .video, true⟩
  | key => if pictureOrSound.contains key then some ⟨value, .pictureOrSound, false⟩ else none

/-- The address of an `r` tag, with its type or without. -/
def givenByReference (url : String) : List String → Option Given
  | [] => some ⟨url, .video, true⟩
  | type :: _ =>
      if type = "video" then some ⟨url, .video, false⟩
      else if pictureOrSound.contains type then some ⟨url, .pictureOrSound, false⟩
      else none

/-- Whether an `e` tag is marked as the sound of the video. -/
def isSound (values : List String) : Bool :=
  match Fields.audioMarker values with
  | some ("audio", _) => true
  | _ => false

/-- The addresses in a tag by its name. A tag that has no other meaning gives a video. -/
def givenByNamed (name value : String) (values : List String) : List Given :=
  match name with
  | "url" => [⟨correctedUrl value, .video, true⟩]
  | "streaming" | "i" => [⟨value, .video, true⟩]
  | "imeta" => (parseImetaTag values).filterMap fun pair => givenByImeta pair.1 pair.2
  | "r" => (givenByReference value values.tail).toList
  | "e" => [⟨value, if isSound values.tail then .pictureOrSound else .video, true⟩]
  | "thumb" | "image" | "preview" => [⟨value, .pictureOrSound, false⟩]
  | "title" | "published_at" | "duration" | "dim" | "m" | "x" | "size" | "d" | "vine_id" | "h"
  | "alt" | "blurhash" | "loops" | "likes" | "comments" | "reposts" | "expiration" | "t" | "p"
  | "a" | "content-warning" | "l" | "text-track" => []
  | _ => [⟨value, roleOf name, true⟩]

def givenBy : List String → List Given
  | [] => []
  | name :: values => givenByNamed name (values.headD "") values

/-- The addresses that `_extractVideoUrlFromContent` goes through, at most one in a word. -/
def contentUrls (content : String) : List String :=
  (content.toList.splitOnP isWhitespace).filterMap fun word =>
    (word.tails.find? fun rest =>
      ["http://", "https://"].any fun start =>
        start.toList <+: rest && start.toList.length < rest.length).map fun url =>
          correctedUrl (String.ofList url)

/-! ### Sources -/

section Sources

variable (platform : Platform) (tags : List (List String)) (content : String)

def onVine (url : String) : Bool :=
  (platform.parseUri (correctedUrl url)).any fun uri =>
    ["vine.co", "www.vine.co"].contains (platform.toLowerCase uri.host)

def usable (url : String) : Bool := isValidVideoUrl platform url && !onVine platform url

def given : List Given := tags.flatMap givenBy

def candidatesOf (given : List Given) : List String :=
  (given.filter fun given => given.isCandidate && isValidVideoUrl platform given.url).map Given.url

/-- The usable addresses that the tags give as the video. -/
def sources : List String :=
  ((given tags).filter fun given => given.role = .video && usable platform given.url).map Given.url

def contentSources : List String := (contentUrls content).filter (usable platform)

/-- The tags give an address, up to the typing error, as something. -/
def GivenAs (role : Role) (url : String) : Prop :=
  ∃ other ∈ given tags, other.role = role ∧ correctedUrl other.url = correctedUrl url

/-- A usable address is taken, of the tags before the content, and it is not dead, not of a picture
or a sound, and without the error. -/
structure Resolved (videoUrl : Option String) : Prop where
  best : sources platform tags ≠ [] → ∃ source ∈ sources platform tags,
    videoUrl = some (correctedUrl source) ∧
      ∀ other ∈ sources platform tags, scoreVideoUrl platform other ≤ scoreVideoUrl platform source
  fromContent : sources platform tags = [] → contentSources platform content ≠ [] →
    ∃ url ∈ contentSources platform content, videoUrl = some url
  shown : ∀ url, videoUrl = some url → GivenAs tags .pictureOrSound url →
    GivenAs tags .video url ∨ url ∈ contentUrls content
  alive : ∀ url, videoUrl = some url → onVine platform url = false
  noTypo : ∀ url, videoUrl = some url → contains url "apt.openvine.co" = false

/-! ### The condition -/

/-- The first of the addresses with the greatest score. -/
def Leads (urls : List String) (url : String) : Prop :=
  ∃ before after, urls = before ++ url :: after ∧
    (∀ other ∈ before, scoreVideoUrl platform other < scoreVideoUrl platform url) ∧
      ∀ other ∈ after, scoreVideoUrl platform other ≤ scoreVideoUrl platform url

def FirstValid (url : String) : Prop :=
  (tags.flatMap List.tail).find? (isValidVideoUrl platform) = some url

/-- An address is not dead, and no source beats it, or there is no source and it is not given as a
picture or a sound. -/
structure Fits (url : String) : Prop where
  alive : onVine platform url = false
  source : GivenAs tags .video url → ∀ other ∈ sources platform tags,
    ∃ source ∈ sources platform tags, correctedUrl source = correctedUrl url ∧
      scoreVideoUrl platform other ≤ scoreVideoUrl platform source
  other : ¬ GivenAs tags .video url → sources platform tags = [] ∧
    (correctedUrl url ∈ contentUrls content ∨
      contentSources platform content = [] ∧ ¬ GivenAs tags .pictureOrSound url)

/-- The first candidate of the greatest score fits, or is rejected without a source; and without one
a valid address of the tags fits. -/
def Resolves : Prop :=
  if candidatesOf platform (given tags) = [] then
    (∃ url, FirstValid platform tags url ∧ Fits platform tags content url) ∨
      (∀ url, ¬ FirstValid platform tags url) ∧ sources platform tags = [] ∧
        contentSources platform content = []
  else ∃ url, Leads platform (candidatesOf platform (given tags)) url ∧
    if -1 < scoreVideoUrl platform url then Fits platform tags content url
    else sources platform tags = [] ∧ contentSources platform content = []

end Sources

/-! ### The typing error -/

theorem prefix_of_prefix_replaceFrom {first : Char} {part replacement text piece : List Char}
    (fresh : first ∉ piece)
    (begins : piece <+: replaceFrom part (first :: replacement) 0 text) : piece <+: text := by
  induction text generalizing piece with
  | nil => exact begins
  | cons symbol rest ih =>
    cases piece with
    | nil => exact List.nil_prefix
    | cons head piece =>
      rw [replaceFrom] at begins
      split at begins
      · rw [List.cons_append, List.cons_prefix_cons] at begins
        exact absurd (begins.1 ▸ List.mem_cons_self) fresh
      · rw [List.cons_prefix_cons] at begins ⊢
        exact ⟨begins.1, ih (fun inside => fresh (List.mem_cons_of_mem head inside))
          begins.2⟩

theorem infix_of_infix_append {first : Char} {part lead text : List Char} (fresh : first ∉ lead)
    (inside : first :: part <:+: lead ++ text) : first :: part <:+: text := by
  induction lead with
  | nil => exact inside
  | cons symbol rest ih =>
    rw [List.mem_cons, not_or] at fresh
    rw [List.cons_append, List.infix_cons_iff, List.cons_prefix_cons] at inside
    exact ih fresh.2 (inside.resolve_left fun begins => fresh.1 begins.1)

/-- A part that begins as its replacement does is nowhere in what is left of a text. -/
theorem not_infix_replaceFrom {first : Char} {part replacement : List Char}
    (freshPart : first ∉ part) (freshReplacement : first ∉ replacement)
    (length : part.length = replacement.length) (differs : part ≠ replacement) (skip : Nat)
    (text : List Char) :
    ¬ first :: part <:+: replaceFrom (first :: part) (first :: replacement) skip text := by
  induction text generalizing skip with
  | nil =>
    cases skip <;> simp [replaceFrom]
  | cons symbol rest ih =>
    cases skip with
    | succ skip => exact ih skip
    | zero =>
      rw [replaceFrom]
      split
      · rw [List.cons_append, List.infix_cons_iff, List.cons_prefix_cons, not_or]
        constructor
        · rintro ⟨_, begins⟩
          have both := List.prefix_of_prefix_length_le begins (List.prefix_append replacement _)
            (Nat.le_of_eq length)
          exact differs (both.eq_of_length length)
        · exact fun inside => ih _ (infix_of_infix_append freshReplacement inside)
      · rename_i missing
        rw [List.infix_cons_iff, not_or]
        refine ⟨fun begins => missing ?_, ih 0⟩
        rw [List.cons_prefix_cons] at begins ⊢
        exact ⟨begins.1, prefix_of_prefix_replaceFrom freshPart begins.2⟩

theorem contains_correctedUrl (url : String) :
    contains (correctedUrl url) "apt.openvine.co" = false := by
  unfold correctedUrl
  split
  · have typo : "apt.openvine.co".toList = 'a' :: "pt.openvine.co".toList := by decide +kernel
    have fixed : "api.openvine.co".toList = 'a' :: "pi.openvine.co".toList := by decide +kernel
    have replaced := @not_infix_replaceFrom 'a' "pt.openvine.co".toList "pi.openvine.co".toList
      (by decide +kernel) (by decide +kernel) (by decide +kernel) (by decide +kernel) 0 url.toList
    show decide ("apt.openvine.co".toList <:+: (String.ofList (replaceFrom "apt.openvine.co".toList
      "api.openvine.co".toList 0 url.toList)).toList) = false
    rw [@String.toList_ofList (replaceFrom _ _ 0 url.toList), typo, fixed]
    exact decide_eq_false replaced
  · rename_i absent
    exact Bool.eq_false_iff.mpr absent

theorem correctedUrl_of_not_contains {url : String}
    (absent : contains url "apt.openvine.co" = false) : correctedUrl url = url :=
  if_neg (Bool.eq_false_iff.mp absent)

@[simp] theorem correctedUrl_correctedUrl (url : String) :
    correctedUrl (correctedUrl url) = correctedUrl url :=
  correctedUrl_of_not_contains (contains_correctedUrl url)

theorem isEmpty_correctedUrl (url : String) : (correctedUrl url).isEmpty = url.isEmpty := by
  unfold correctedUrl
  split
  · rename_i inside
    rw [Bool.eq_iff_iff, String.isEmpty_iff, String.isEmpty_iff]
    constructor
    · intro empty
      have nothing := congrArg String.toList empty
      rw [replaceAll, String.toList_ofList] at nothing
      cases symbols : url.toList with
      | nil => exact String.toList_eq_nil_iff.mp symbols
      | cons symbol rest =>
        rw [symbols, replaceFrom] at nothing
        split at nothing
        · exact absurd (List.append_eq_nil_iff.mp nothing).1 (by decide +kernel)
        · cases nothing
    · rintro rfl
      exact absurd inside (by decide +kernel)
  · rfl

variable {platform : Platform}

@[simp] theorem isValidVideoUrl_correctedUrl (url : String) :
    isValidVideoUrl platform (correctedUrl url) = isValidVideoUrl platform url := by
  unfold isValidVideoUrl
  rw [correctedUrl_correctedUrl, isEmpty_correctedUrl]

@[simp] theorem onVine_correctedUrl (url : String) :
    onVine platform (correctedUrl url) = onVine platform url := by
  unfold onVine
  rw [correctedUrl_correctedUrl]

theorem usable_iff {url : String} : usable platform url = true ↔
    isValidVideoUrl platform url = true ∧ onVine platform url = false := by
  simp [usable]

/-! ### Candidates -/

namespace Fields

variable {pubkey : String} {fields : Fields}

theorem candidatesOf_append (first second : List Given) :
    candidatesOf platform (first ++ second) =
      candidatesOf platform first ++ candidatesOf platform second := by
  rw [candidatesOf, List.filter_append, List.map_append]
  rfl

theorem videoUrlCandidates_withCandidate (url : String) (role : Role) :
    (fields.withCandidate platform url).videoUrlCandidates =
      fields.videoUrlCandidates ++ candidatesOf platform [⟨url, role, true⟩] := by
  unfold withCandidate candidatesOf
  split <;> simp [*]

theorem videoUrlCandidates_withCorrected (url : String) :
    (fields.withCorrected platform url).videoUrlCandidates =
      fields.videoUrlCandidates ++ candidatesOf platform [⟨correctedUrl url, .video, true⟩] := by
  unfold withCorrected candidatesOf
  split <;> simp [*]

theorem videoUrlCandidates_readImeta (key value : String) :
    (fields.readImeta platform key value).videoUrlCandidates =
      fields.videoUrlCandidates ++ candidatesOf platform (givenByImeta key value).toList := by
  unfold readImeta
  split
  case h_1 => exact videoUrlCandidates_withCorrected value
  case h_2 | h_3 | h_4 | h_5 | h_6 | h_7 | h_8 =>
    exact videoUrlCandidates_withCandidate value .video
  case h_17 =>
    unfold givenByImeta
    split
    case h_9 => split <;> exact (List.append_nil _).symm
    all_goals exact absurd rfl ‹_›
  all_goals exact (List.append_nil _).symm

theorem videoUrlCandidates_foldl_readImeta (pairs : List (String × String)) :
    (pairs.foldl (fun read pair => read.readImeta platform pair.1 pair.2)
      fields).videoUrlCandidates = fields.videoUrlCandidates ++
        candidatesOf platform (pairs.filterMap fun pair => givenByImeta pair.1 pair.2) := by
  induction pairs generalizing fields with
  | nil => exact (List.append_nil _).symm
  | cons pair rest ih =>
    rw [List.foldl_cons, ih, videoUrlCandidates_readImeta, List.append_assoc,
      ← candidatesOf_append]
    congr 2
    rw [List.filterMap_cons]
    cases givenByImeta pair.1 pair.2 <;> rfl

theorem videoUrlCandidates_readReference (url : String) (values : List String) :
    (fields.readReference platform url values).videoUrlCandidates =
      fields.videoUrlCandidates ++ candidatesOf platform (givenByReference url values).toList := by
  cases values with
  | nil => exact videoUrlCandidates_withCandidate url .video
  | cons type rest =>
    have none : candidatesOf platform (givenByReference url (type :: rest)).toList = [] := by
      unfold givenByReference
      dsimp only
      split_ifs <;> rfl
    rw [none, List.append_nil, readReference]
    split_ifs <;> rfl

theorem videoUrlCandidates_readEvent (id : String) (values : List String) (role : Role) :
    (fields.readEvent platform id values).videoUrlCandidates =
      fields.videoUrlCandidates ++ candidatesOf platform [⟨id, role, true⟩] := by
  unfold readEvent
  rw [videoUrlCandidates_withCandidate id role]
  congr 1
  split
  · split <;> rfl
  · rfl

theorem videoUrlCandidates_readNamed (name value : String) (values : List String) :
    (fields.readNamed platform pubkey name value values).videoUrlCandidates =
      fields.videoUrlCandidates ++ candidatesOf platform (givenByNamed name value values) := by
  unfold readNamed
  split
  case h_1 => exact videoUrlCandidates_withCorrected value
  case h_2 => exact videoUrlCandidates_withCandidate value .video
  case h_3 => exact videoUrlCandidates_foldl_readImeta _
  case h_25 => exact videoUrlCandidates_readReference value values.tail
  case h_26 => exact videoUrlCandidates_readEvent value values.tail _
  case h_27 => exact videoUrlCandidates_withCandidate value .video
  case h_28 | h_29 | h_30 | h_31 =>
    refine Eq.trans ?_ (List.append_nil _).symm
    simp only [readPerson, readAddress, withLabel]
    split_ifs <;> rfl
  case h_33 =>
    unfold givenByNamed
    split
    case h_33 => exact videoUrlCandidates_withCandidate value _
    all_goals exact absurd rfl ‹_›
  all_goals first
    | exact (List.append_nil _).symm
    | split <;> exact (List.append_nil _).symm

theorem videoUrlCandidates_foldl_readTag (tags : List (List String)) :
    (tags.foldl (fun fields tag => fields.readTag platform pubkey tag) fields).videoUrlCandidates =
      fields.videoUrlCandidates ++ candidatesOf platform (given tags) := by
  induction tags generalizing fields with
  | nil => exact (List.append_nil _).symm
  | cons tag rest ih =>
    have one : (fields.readTag platform pubkey tag).videoUrlCandidates =
        fields.videoUrlCandidates ++ candidatesOf platform (givenBy tag) := by
      cases tag with
      | nil => exact (List.append_nil _).symm
      | cons name values => exact videoUrlCandidates_readNamed name (values.headD "") values
    rw [List.foldl_cons, ih, one, List.append_assoc, ← candidatesOf_append]
    rfl

end Fields

theorem isValid_of_mem_candidatesOf {given : List Given} {url : String}
    (member : url ∈ candidatesOf platform given) : isValidVideoUrl platform url = true := by
  obtain ⟨one, kept, rfl⟩ := List.mem_map.mp member
  exact (Bool.and_eq_true_iff.mp (List.mem_filter.mp kept).2).2

/-! ### The choice -/

variable {best : Option String} {bestScore : Int} {urls : List String} {url : String}

theorem selectBestVideoUrl_of_le
    (least : ∀ other ∈ urls, scoreVideoUrl platform other ≤ bestScore) :
    selectBestVideoUrl platform best bestScore urls = best := by
  induction urls with
  | nil => rfl
  | cons first rest ih =>
    have low : ¬ bestScore < scoreVideoUrl platform first :=
      Int.not_lt.mpr (least first List.mem_cons_self)
    rw [selectBestVideoUrl, decide_eq_false low, Bool.and_false, if_neg Bool.false_ne_true]
    exact ih fun other member => least other (List.mem_cons_of_mem first member)

theorem selectBestVideoUrl_of_leads (valid : ∀ other ∈ urls, isValidVideoUrl platform other = true)
    (leads : Leads platform urls url) (better : bestScore < scoreVideoUrl platform url) :
    selectBestVideoUrl platform best bestScore urls = some url := by
  obtain ⟨before, after, rfl, less, atMost⟩ := leads
  induction before generalizing best bestScore with
  | nil =>
    rw [List.nil_append, selectBestVideoUrl, valid url (by simp), decide_eq_true better,
      Bool.and_self, if_pos rfl]
    exact selectBestVideoUrl_of_le atMost
  | cons first rest ih =>
    rw [List.cons_append, selectBestVideoUrl]
    have later (held : Option String) (score : Int) (below : score < scoreVideoUrl platform url) :
        selectBestVideoUrl platform held score (rest ++ url :: after) = some url :=
      ih below (fun other member => valid other (List.mem_cons_of_mem first member))
        fun other member => less other (List.mem_cons_of_mem first member)
    split
    · exact later _ _ (less first List.mem_cons_self)
    · exact later _ _ better

theorem exists_leads (platform : Platform) (some : urls ≠ []) : ∃ url, Leads platform urls url := by
  induction urls with
  | nil => exact absurd rfl some
  | cons first rest ih =>
    by_cases empty : rest = []
    · subst empty
      exact ⟨first, [], [], rfl, by simp, by simp⟩
    · obtain ⟨url, before, after, rfl, less, atMost⟩ := ih empty
      by_cases better : scoreVideoUrl platform first < scoreVideoUrl platform url
      · refine ⟨url, first :: before, after, rfl, fun other member => ?_, atMost⟩
        rcases List.mem_cons.mp member with rfl | later
        · exact better
        · exact less other later
      · refine ⟨first, [], _, rfl, by simp, fun other member => ?_⟩
        rcases List.mem_append.mp member with earlier | own
        · exact Int.le_trans (Int.le_of_lt (less other earlier)) (Int.not_lt.mp better)
        · rcases List.mem_cons.mp own with rfl | later
          · exact Int.not_lt.mp better
          · exact Int.le_trans (atMost other later) (Int.not_lt.mp better)

theorem le_of_leads (leads : Leads platform urls url) {other : String} (member : other ∈ urls) :
    scoreVideoUrl platform other ≤ scoreVideoUrl platform url := by
  obtain ⟨before, after, rfl, less, atMost⟩ := leads
  rcases List.mem_append.mp member with earlier | own
  · exact Int.le_of_lt (less other earlier)
  · rcases List.mem_cons.mp own with rfl | later
    · exact Int.le_refl _
    · exact atMost other later

theorem findAnyVideoUrlInTags_eq (platform : Platform) (tags : List (List String)) :
    findAnyVideoUrlInTags platform tags =
      ((tags.flatMap List.tail).find? (isValidVideoUrl platform)).map correctedUrl := by
  have values : (tags.flatMap fun tag => (tag.tail.filter fun value => !value.isEmpty).map
      correctedUrl) = ((tags.flatMap List.tail).filter fun value => !value.isEmpty).map
        correctedUrl := by
    rw [List.filter_flatMap, List.map_flatMap]
  have valid : (fun value => !value.isEmpty && (isValidVideoUrl platform ∘ correctedUrl) value) =
      isValidVideoUrl platform := by
    funext value
    rw [Function.comp_apply, isValidVideoUrl_correctedUrl, isValidVideoUrl]
    cases value.isEmpty <;> rfl
  rw [findAnyVideoUrlInTags, values, List.find?_map, List.find?_filter]
  simp only [Bool.decide_and, Bool.decide_eq_true, valid]

/-! ### The address of a video -/

variable {tags : List (List String)} {content : String}

theorem mem_sources {source : String} : source ∈ sources platform tags ↔
    ∃ one ∈ given tags, one.role = .video ∧ one.url = source ∧ usable platform source = true := by
  simp only [sources, List.mem_map, List.mem_filter, Bool.and_eq_true, decide_eq_true_eq]
  constructor
  · rintro ⟨one, ⟨member, role, use⟩, rfl⟩
    exact ⟨one, member, role, rfl, use⟩
  · rintro ⟨one, member, role, rfl, use⟩
    exact ⟨one, ⟨member, role, use⟩, rfl⟩

theorem usable_correctedUrl (url : String) :
    usable platform (correctedUrl url) = usable platform url := by
  rw [usable, isValidVideoUrl_correctedUrl, onVine_correctedUrl, usable]

theorem exists_source (use : usable platform url = true) (asVideo : GivenAs tags .video url) :
    ∃ source ∈ sources platform tags, correctedUrl source = correctedUrl url := by
  obtain ⟨one, member, role, same⟩ := asVideo
  refine ⟨one.url, mem_sources.mpr ⟨one, member, role, rfl, ?_⟩, same⟩
  rw [← usable_correctedUrl, same, usable_correctedUrl, use]

theorem givenAs_of_mem_sources {source : String} (member : source ∈ sources platform tags)
    (same : correctedUrl source = correctedUrl url) : GivenAs tags .video url := by
  obtain ⟨one, inside, role, rfl, _⟩ := mem_sources.mp member
  exact ⟨one, inside, role, same⟩

theorem givenAs_correctedUrl {role : Role} :
    GivenAs tags role (correctedUrl url) ↔ GivenAs tags role url := by
  simp only [GivenAs, correctedUrl_correctedUrl]

theorem resolved_some_iff (valid : isValidVideoUrl platform url = true) :
    Resolved platform tags content (some (correctedUrl url)) ↔ Fits platform tags content url := by
  constructor
  · intro resolved
    have alive : onVine platform url = false := by
      rw [← onVine_correctedUrl]
      exact resolved.alive _ rfl
    refine ⟨alive, fun asVideo other member => ?_, fun notVideo => ?_⟩
    · obtain ⟨source, inside, same, best⟩ := resolved.best (List.ne_nil_of_mem member)
      exact ⟨source, inside, (Option.some.inj same).symm, best other member⟩
    · have empty : sources platform tags = [] := by
        by_contra some
        obtain ⟨source, inside, same, _⟩ := resolved.best some
        exact notVideo (givenAs_of_mem_sources inside (Option.some.inj same).symm)
      refine ⟨empty, or_iff_not_imp_left.mpr fun missing => ⟨?_, fun asPicture => ?_⟩⟩
      · by_contra some
        obtain ⟨other, inside, same⟩ := resolved.fromContent empty some
        exact missing (Option.some.inj same ▸ (List.mem_filter.mp inside).1)
      · rcases resolved.shown _ rfl (givenAs_correctedUrl.mpr asPicture) with asVideo | inside
        · exact notVideo (givenAs_correctedUrl.mp asVideo)
        · exact missing inside
  · intro fits
    have use : usable platform url = true := usable_iff.mpr ⟨valid, fits.alive⟩
    refine ⟨fun some => ?_, fun empty some => ?_, ?_, ?_, ?_⟩
    · have asVideo : GivenAs tags .video url := by
        by_contra notVideo
        exact some (fits.other notVideo).1
      obtain ⟨greatest, leads⟩ := exists_leads platform some
      obtain ⟨before, after, split, _⟩ := id leads
      have member : greatest ∈ sources platform tags := by simp [split]
      obtain ⟨source, inside, same, above⟩ := fits.source asVideo greatest member
      exact ⟨source, inside, congrArg Option.some same.symm, fun other member =>
        Int.le_trans (le_of_leads leads member) above⟩
    · have notVideo : ¬ GivenAs tags .video url := fun asVideo => by
        obtain ⟨source, inside, _⟩ := exists_source use asVideo
        exact List.ne_nil_of_mem inside empty
      rcases (fits.other notVideo).2 with inside | ⟨none, _⟩
      · refine ⟨_, List.mem_filter.mpr ⟨inside, ?_⟩, rfl⟩
        rw [usable_correctedUrl, use]
      · exact absurd none some
    · rintro _ ⟨⟩ asPicture
      rw [givenAs_correctedUrl] at asPicture ⊢
      refine or_iff_not_imp_left.mpr fun notVideo => ?_
      exact (fits.other notVideo).2.resolve_right fun none => none.2 asPicture
    · rintro _ ⟨⟩
      rw [onVine_correctedUrl, fits.alive]
    · rintro _ ⟨⟩
      exact contains_correctedUrl url

theorem resolved_none_iff : Resolved platform tags content none ↔
    sources platform tags = [] ∧ contentSources platform content = [] := by
  constructor
  · intro resolved
    have empty : sources platform tags = [] := by
      by_contra some
      obtain ⟨_, _, absent, _⟩ := resolved.best some
      cases absent
    refine ⟨empty, ?_⟩
    by_contra some
    obtain ⟨_, _, absent⟩ := resolved.fromContent empty some
    cases absent
  · rintro ⟨empty, none⟩
    refine ⟨fun some => absurd empty some, fun _ some => absurd none some, ?_, ?_, ?_⟩ <;>
      (intro _ absent; cases absent)

theorem chosenUrl_eq (platform : Platform) (pubkey : String) (tags : List (List String)) :
    chosenUrl platform (readTags platform pubkey tags) tags =
      ((if candidatesOf platform (given tags) = [] then
          (tags.flatMap List.tail).find? (isValidVideoUrl platform)
        else selectBestVideoUrl platform none (-1) (candidatesOf platform (given tags))).map
          correctedUrl) := by
  have read : (readTags platform pubkey tags).videoUrlCandidates =
      candidatesOf platform (given tags) := by
    rw [readTags, Fields.videoUrlCandidates_foldl_readTag]
    rfl
  rw [chosenUrl, read]
  by_cases empty : candidatesOf platform (given tags) = []
  · rw [if_pos empty, empty]
    simp only [List.isEmpty_nil, if_true]
    rw [findAnyVideoUrlInTags_eq, Option.map_map]
    congr 1
    funext url
    exact correctedUrl_correctedUrl url
  · rw [if_neg empty]
    simp [empty]

theorem resolved_chosenUrl_iff (platform : Platform) (pubkey : String) (tags : List (List String))
    (content : String) :
    Resolved platform tags content (chosenUrl platform (readTags platform pubkey tags) tags) ↔
      Resolves platform tags content := by
  rw [chosenUrl_eq, Resolves]
  by_cases empty : candidatesOf platform (given tags) = []
  · rw [if_pos empty, if_pos empty]
    unfold FirstValid
    cases found : (tags.flatMap List.tail).find? (isValidVideoUrl platform) with
    | none =>
      rw [Option.map_none, resolved_none_iff]
      simp
    | some url =>
      rw [Option.map_some, resolved_some_iff (List.find?_some found)]
      simp
  · rw [if_neg empty, if_neg empty]
    have valid := @isValid_of_mem_candidatesOf platform (given tags)
    have led (url : String) (leads : Leads platform (candidatesOf platform (given tags)) url) :
        Resolved platform tags content ((selectBestVideoUrl platform none (-1)
          (candidatesOf platform (given tags))).map correctedUrl) ↔
        if -1 < scoreVideoUrl platform url then Fits platform tags content url
        else sources platform tags = [] ∧ contentSources platform content = [] := by
      split
      · rename_i better
        obtain ⟨before, after, split, _⟩ := id leads
        rw [selectBestVideoUrl_of_leads (fun other => valid) leads better, Option.map_some,
          resolved_some_iff (valid (by simp [split]))]
      · rename_i rejected
        rw [selectBestVideoUrl_of_le fun other member =>
          Int.le_trans (le_of_leads leads member) (Int.not_lt.mp rejected), Option.map_none,
          resolved_none_iff]
    constructor
    · intro resolved
      obtain ⟨url, leads⟩ := exists_leads platform empty
      exact ⟨url, leads, (led url leads).mp resolved⟩
    · rintro ⟨url, leads, fits⟩
      exact (led url leads).mpr fits

theorem videoUrl_of_fromNostrEvent {permissive : Bool} {event : Event} {video : VideoEvent}
    (read : fromNostrEvent platform permissive event = some video) :
    video.videoUrl = chosenUrl platform
      (readTags platform event.pubkey (event.tags.filterMap Tag.elements))
      (event.tags.filterMap Tag.elements) := by
  unfold fromNostrEvent at read
  cases accepted : (if permissive then isAcceptableVideoKind event.kind
    else isVideoKind event.kind) with
  | false =>
    rw [accepted, Bool.not_false, if_pos rfl] at read
    cases read
  | true =>
    rw [accepted, Bool.not_true, if_neg Bool.false_ne_true] at read
    simp only [Option.bind_eq_bind, Option.bind_eq_some_iff] at read
    obtain ⟨tags, lists, _, -, read⟩ := read
    cases read
    obtain rfl := (mapM_eq_some_iff.mp lists).2
    rfl

/-- A video has an address that it should have exactly when its event resolves. -/
theorem videoUrl_resolved_iff {permissive : Bool} {event : Event} {video : VideoEvent}
    (read : fromNostrEvent platform permissive event = some video) :
    Resolved platform (event.tags.filterMap Tag.elements) event.content video.videoUrl ↔
      Resolves platform (event.tags.filterMap Tag.elements) event.content := by
  rw [videoUrl_of_fromNostrEvent read]
  exact resolved_chosenUrl_iff platform event.pubkey _ _

/-! ### A video in the content -/

def httpsPlatform : Platform where
  parseUri url :=
    if startsWith url "https://" then
      some ⟨"https", String.ofList ((url.toList.drop 8).takeWhile fun symbol => symbol ≠ '/')⟩
    else none
  toLowerCase := String.toLower
  roundedDouble := tryParseInt

def videoInContent : Event where
  id := "video"
  pubkey := "creator"
  createdAt := 1700000000
  kind := 34236
  tags := [.list ["thumb", "https://a.example/t.jpg"]]
  content := "https://a.example/v.mp4"

theorem exists_videoInContent : ∃ video,
    fromNostrEvent httpsPlatform false videoInContent = some video :=
  Option.isSome_iff_exists.mp ((fromNostrEvent_isSome rfl).mpr (by decide +kernel))

theorem videoUrl_resolved_iff_sample : ∃ video,
    fromNostrEvent httpsPlatform false videoInContent = some video ∧
      (Resolved httpsPlatform (videoInContent.tags.filterMap Tag.elements) videoInContent.content
          video.videoUrl ↔
        Resolves httpsPlatform (videoInContent.tags.filterMap Tag.elements)
          videoInContent.content) := by
  obtain ⟨video, read⟩ := exists_videoInContent
  exact ⟨video, read, videoUrl_resolved_iff read⟩

/-- The thumbnail is taken for the video that the content has. -/
theorem videoInContent_not_resolved : ∃ video,
    fromNostrEvent httpsPlatform false videoInContent = some video ∧
      ¬ Resolved httpsPlatform (videoInContent.tags.filterMap Tag.elements)
        videoInContent.content video.videoUrl := by
  obtain ⟨video, read⟩ := exists_videoInContent
  refine ⟨video, read, fun resolved => ?_⟩
  have taken : video.videoUrl = some "https://a.example/t.jpg" :=
    (videoUrl_of_fromNostrEvent read).trans (by decide +kernel)
  have inContent : contentSources httpsPlatform videoInContent.content =
      ["https://a.example/v.mp4"] := by decide +kernel
  obtain ⟨url, inside, same⟩ := resolved.fromContent (by decide +kernel) (by simp [inContent])
  rw [inContent, List.mem_singleton] at inside
  rw [taken, inside] at same
  exact absurd same (by decide +kernel)

end Divine.Models
