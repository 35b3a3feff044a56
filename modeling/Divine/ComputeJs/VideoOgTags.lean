/-
This file models the page that the edge worker generates for a video and proves that it
keeps every field in its place: before each attribute value the page is inside double
quotes, before each text it is outside of tags, and what is written there leaves neither.
-/

import Divine.ComputeJs.SubdomainProfile
import Divine.Library.Markup

namespace Divine.ComputeJs

open List JsonText Markup

/-! ### The metadata of a video -/

structure VideoEvent where
  tags : Option (List (List Text))
  content : Option Text

structure VideoStats where
  reactions : Option Numeral
  comments : Option Numeral
  reposts : Option Numeral

structure VideoResult where
  event : Option VideoEvent
  stats : Option VideoStats

structure VideoMeta where
  title : Text
  description : Text
  thumbnail : Text
  authorName : Text

def VideoEvent.findTag (event : VideoEvent) (name : Text) : Option (List Text) :=
  event.tags.bind fun tags => tags.find? fun tag => tag[0]? = some name

def VideoEvent.getTag (event : VideoEvent) (name : Text) : Option Text :=
  (event.findTag name).bind fun tag => tag[1]?

def imetaEntries (imetaTag : List Text) : List (Text × Text) :=
  imetaTag.tail.filterMap fun item =>
    match item.dropWhile (· ≠ ' ') with
    | [] => none
    | _ :: value => some (item.takeWhile (· ≠ ' '), value)

/-- `imeta.image`: the last entry of a key is the one that stays. -/
def VideoEvent.imetaImage (event : VideoEvent) : Option Text :=
  ((event.findTag "imeta".toList).map imetaEntries).bind fun imeta =>
    imeta.reverse.lookup "image".toList

def trim (str : Text) : Text :=
  ((str.dropWhile isWhiteSpace).reverse.dropWhile isWhiteSpace).reverse

def statistic (count : Option Numeral) (sign : String) : Option Text :=
  (count.filter fun number => number.text ≠ ['0'] && number.text.head? ≠ some '-').map
    fun number => number.text ++ sign.toList

def statsList (stats : Option VideoStats) : List Text :=
  [statistic (stats.bind VideoStats.reactions) " ❤️",
    statistic (stats.bind VideoStats.comments) " 💬",
    statistic (stats.bind VideoStats.reposts) " 🔁"].filterMap id

def fetchVideoMetadata (result : Option VideoResult) : Option VideoMeta :=
  result.bind fun result => result.event.map fun event =>
    { title := (truthy (event.getTag "title".toList)).getD "Video on diVine".toList
      description :=
        if trim (event.content.getD []) ≠ [] then trim (event.content.getD [])
        else if statsList result.stats ≠ [] then
          " • ".toList.intercalate (statsList result.stats) ++ " on diVine".toList
        else "Watch this short video on diVine".toList
      thumbnail := (truthy event.imetaImage).getD "https://divine.video/og.avif".toList
      authorName := (truthy (event.getTag "author".toList)).getD [] }

/-! ### The page -/

/-- A part of the generated page: text of the code, or an escaped field. -/
inductive Part where
  | literal (text : String)
  | value (field : Text)
  | words (field : Text)

def Part.text : Part → Text
  | literal text => text.toList
  | value field | words field => escapeHtml field

def pageText (parts : List Part) : Text := parts.flatMap Part.text

open Part in
def videoPage (title description thumbnail authorName videoUrl : Text) : List Part :=
  [literal "<!DOCTYPE html>\n<html lang=\"en\">\n<head>\n  <meta charset=\"UTF-8\">\n",
    literal "  <meta name=\"viewport\" content=\"width=device-width, initial-scale=1.0\">\n",
    literal "  <title>", words title, literal " - diVine</title>\n\n",
    literal "  <!-- Open Graph Meta Tags -->\n",
    literal "  <meta property=\"og:type\" content=\"video.other\" />\n",
    literal "  <meta property=\"og:title\" content=\"", value title, literal "\" />\n",
    literal "  <meta property=\"og:description\" content=\"", value description,
    literal "\" />\n",
    literal "  <meta property=\"og:image\" content=\"", value thumbnail, literal "\" />\n",
    literal "  <meta property=\"og:image:width\" content=\"480\" />\n",
    literal "  <meta property=\"og:image:height\" content=\"480\" />\n",
    literal "  <meta property=\"og:url\" content=\"", value videoUrl, literal "\" />\n",
    literal "  <meta property=\"og:site_name\" content=\"diVine\" />\n\n",
    literal "  <!-- Twitter Card Meta Tags -->\n",
    literal "  <meta name=\"twitter:card\" content=\"summary_large_image\" />\n",
    literal "  <meta name=\"twitter:title\" content=\"", value title, literal "\" />\n",
    literal "  <meta name=\"twitter:description\" content=\"", value description,
    literal "\" />\n",
    literal "  <meta name=\"twitter:image\" content=\"", value thumbnail, literal "\" />\n",
    literal "  "] ++
  (if authorName ≠ [] then
    [literal "<meta name=\"twitter:creator\" content=\"", value authorName, literal "\" />"]
  else []) ++
  [literal "\n\n  <!-- Redirect to actual page for any user who lands here -->\n",
    literal "  <meta http-equiv=\"refresh\" content=\"0;url=", value videoUrl,
    literal "\">\n",
    literal "  <link rel=\"canonical\" href=\"", value videoUrl, literal "\" />\n",
    literal "</head>\n<body>\n  <p>Redirecting to <a href=\"", value videoUrl, literal "\">",
    words title, literal "</a>...</p>\n</body>\n</html>"]

def handleVideoOgTags (result : Option VideoResult) (videoId : Text) : List Part :=
  let videoMeta := fetchVideoMetadata result
  videoPage
    ((truthy (videoMeta.map VideoMeta.title)).getD "Video on diVine".toList)
    ((truthy (videoMeta.map VideoMeta.description)).getD
      "Watch this video on diVine - Short-form looping videos on Nostr".toList)
    ((truthy (videoMeta.map VideoMeta.thumbnail)).getD "https://divine.video/og.avif".toList)
    ((truthy (videoMeta.map VideoMeta.authorName)).getD [])
    ("https://divine.video/video/".toList ++ videoId)

/-! ### Escaped texts -/

/-- The character references that `escapeHtml` writes. -/
def decode : Text → Text
  | [] => []
  | '&' :: 'a' :: 'm' :: 'p' :: ';' :: rest => '&' :: decode rest
  | '&' :: 'l' :: 't' :: ';' :: rest => '<' :: decode rest
  | '&' :: 'g' :: 't' :: ';' :: rest => '>' :: decode rest
  | '&' :: 'q' :: 'u' :: 'o' :: 't' :: ';' :: rest => '"' :: decode rest
  | '&' :: '#' :: '0' :: '3' :: '9' :: ';' :: rest => '\'' :: decode rest
  | symbol :: rest => symbol :: decode rest

/-- What `escapeHtml` writes for a character. -/
def escapeSymbol (symbol : Char) : Text :=
  if symbol = '&' then "&amp;".toList
  else if symbol = '<' then "&lt;".toList
  else if symbol = '>' then "&gt;".toList
  else if symbol = '"' then "&quot;".toList
  else if symbol = '\'' then "&#039;".toList
  else [symbol]

section Escaped

theorem replaceAll_of_not_mem {symbol : Char} {replacement : String} {str : Text}
    (free : symbol ∉ str) : replaceAll symbol replacement str = str := by
  induction str with
  | nil => rfl
  | cons other str ih =>
    obtain ⟨differs, free⟩ := not_or.mp (mt mem_cons.mpr free)
    show (if other = symbol then replacement.toList else [other]) ++ _ = _
    rw [if_neg (Ne.symm differs)]
    exact congrArg (other :: ·) (ih free)

theorem replaceAll_append (symbol : Char) (replacement : String) (first second : Text) :
    replaceAll symbol replacement (first ++ second) =
      replaceAll symbol replacement first ++ replaceAll symbol replacement second :=
  flatMap_append

theorem escapeHtml_append (first second : Text) :
    escapeHtml (first ++ second) = escapeHtml first ++ escapeHtml second := by
  unfold escapeHtml
  rw [replaceAll_append, replaceAll_append, replaceAll_append, replaceAll_append,
    replaceAll_append]

/-- The five replacements escape character by character, as each inserts none of the later ones. -/
theorem escapeHtml_eq (str : Text) : escapeHtml str = str.flatMap escapeSymbol := by
  induction str with
  | nil => rfl
  | cons symbol str ih =>
    have single : escapeHtml [symbol] = escapeSymbol symbol := by
      unfold escapeSymbol
      split_ifs with ampersand less greater quote apostrophe
      · subst ampersand
        rfl
      · subst less
        rfl
      · subst greater
        rfl
      · subst quote
        rfl
      · subst apostrophe
        rfl
      · have free : ∀ {other : Char}, symbol ≠ other → other ∉ [symbol] := fun differs member =>
          differs (mem_singleton.mp member).symm
        unfold escapeHtml
        rw [replaceAll_of_not_mem (free ampersand), replaceAll_of_not_mem (free less),
          replaceAll_of_not_mem (free greater), replaceAll_of_not_mem (free quote),
          replaceAll_of_not_mem (free apostrophe)]
    rw [← singleton_append, escapeHtml_append, single, ih,
      singleton_append, flatMap_cons]

theorem decode_cons {symbol : Char} (differs : symbol ≠ '&') (rest : Text) :
    decode (symbol :: rest) = symbol :: decode rest := by
  rw [decode.eq_def (symbol :: rest)]
  split
  · contradiction
  all_goals first
    | exact absurd (List.cons.inj ‹_›).1 differs
    | (obtain ⟨rfl, rfl⟩ := List.cons.inj ‹_›
       rfl)

theorem decode_escapeSymbol (symbol : Char) (rest : Text) :
    decode (escapeSymbol symbol ++ rest) = symbol :: decode rest := by
  unfold escapeSymbol
  split_ifs with ampersand less greater quote apostrophe
  · subst ampersand
    rfl
  · subst less
    rfl
  · subst greater
    rfl
  · subst quote
    rfl
  · subst apostrophe
    rfl
  · exact decode_cons ampersand rest

theorem decode_escapeHtml_append (str rest : Text) :
    decode (escapeHtml str ++ rest) = str ++ decode rest := by
  rw [escapeHtml_eq]
  induction str with
  | nil => rfl
  | cons symbol str ih =>
    rw [flatMap_cons, append_assoc, decode_escapeSymbol, ih]
    rfl

theorem decode_escapeHtml (str : Text) : decode (escapeHtml str) = str := by
  have decoded := decode_escapeHtml_append str []
  rw [append_nil] at decoded
  rw [decoded]
  exact append_nil str

theorem not_mem_escapeHtml {symbol : Char} (special : symbol = '"' ∨ symbol = '<') (str : Text) :
    symbol ∉ escapeHtml str := by
  rw [escapeHtml_eq]
  intro member
  obtain ⟨other, -, inside⟩ := mem_flatMap.mp member
  unfold escapeSymbol at inside
  split_ifs at inside with ampersand less greater quote apostrophe
  · rcases special with rfl | rfl <;> exact absurd inside (by decide)
  · rcases special with rfl | rfl <;> exact absurd inside (by decide)
  · rcases special with rfl | rfl <;> exact absurd inside (by decide)
  · rcases special with rfl | rfl <;> exact absurd inside (by decide)
  · rcases special with rfl | rfl <;> exact absurd inside (by decide)
  · obtain rfl := mem_singleton.mp inside
    exact special.elim quote less

end Escaped

/-! ### Every field in its place -/

def Part.position : Part → Option Position
  | literal _ => none
  | value _ => some .doubleQuoted
  | words _ => some .content

/-- A field stays at its position from its first character to its last. -/
def InPlace (parts : List Part) : Prop :=
  ∀ before part after, parts = before ++ part :: after → ∀ position ∈ part.position,
    ∀ read, read <+: part.text → Position.content.run (pageText before ++ read) = position

def PlacedFrom : Position → List Part → Prop
  | _, [] => True
  | position, .literal text :: rest => PlacedFrom (position.run text.toList) rest
  | position, .value _ :: rest => position = .doubleQuoted ∧ PlacedFrom .doubleQuoted rest
  | position, .words _ :: rest => position = .content ∧ PlacedFrom .content rest

section Places

variable {position : Position} {parts : List Part}

theorem run_field {part : Part} (place : part.position = some position) {read : Text}
    (isPrefix : read <+: part.text) : position.run read = position := by
  cases part with
  | literal text => cases place
  | value field =>
    cases place
    exact Position.run_doubleQuoted fun member =>
      not_mem_escapeHtml (.inl rfl) field (isPrefix.subset member)
  | words field =>
    cases place
    exact Position.run_content fun member =>
      not_mem_escapeHtml (.inr rfl) field (isPrefix.subset member)

theorem placedFrom_cons {part : Part} {rest : List Part}
    (placed : PlacedFrom position (part :: rest)) :
    (∀ place ∈ part.position, position = place) ∧ PlacedFrom (position.run part.text) rest := by
  cases part with
  | literal text => exact ⟨nofun, placed⟩
  | value field =>
    obtain ⟨rfl, placed⟩ := placed
    exact ⟨fun _ member => Option.some.inj member, by
      rw [@run_field _ (.value field) rfl _ prefix_rfl]
      exact placed⟩
  | words field =>
    obtain ⟨rfl, placed⟩ := placed
    exact ⟨fun _ member => Option.some.inj member, by
      rw [@run_field _ (.words field) rfl _ prefix_rfl]
      exact placed⟩

theorem inPlace_of_placedFrom (placed : PlacedFrom position parts) :
    ∀ before part after, parts = before ++ part :: after → ∀ place ∈ part.position,
      ∀ read, read <+: part.text → position.run (pageText before ++ read) = place := by
  intro before
  induction before generalizing position parts with
  | nil =>
    rintro part after rfl place member read isPrefix
    obtain rfl := (placedFrom_cons placed).1 place member
    exact run_field member isPrefix
  | cons first before ih =>
    rintro part after rfl place member read isPrefix
    have later := ih (placedFrom_cons placed).2 part after rfl place member read
      isPrefix
    rw [← Position.run_append] at later
    have joined : pageText (first :: before) ++ read = first.text ++ (pageText before ++ read) :=
      append_assoc _ _ _
    rw [joined]
    exact later

theorem run_ofList (position : Position) (symbols : List Char) :
    position.run (String.ofList symbols).toList = position.run symbols :=
  congrArg position.run String.toList_ofList

theorem PlacedFrom.literal {next : Position} {text : String} (placed : PlacedFrom next parts)
    (isNext : position.run text.toList = next) : PlacedFrom position (.literal text :: parts) := by
  subst isNext
  exact placed

theorem placedFrom_videoPage (title description thumbnail authorName videoUrl : Text) :
    PlacedFrom .content (videoPage title description thumbnail authorName videoUrl) := by
  have tail : PlacedFrom .content
      [.literal "\n\n  <!-- Redirect to actual page for any user who lands here -->\n",
        .literal "  <meta http-equiv=\"refresh\" content=\"0;url=", .value videoUrl,
        .literal "\">\n",
        .literal "  <link rel=\"canonical\" href=\"", .value videoUrl, .literal "\" />\n",
        .literal "</head>\n<body>\n  <p>Redirecting to <a href=\"", .value videoUrl,
        .literal "\">", .words title, .literal "</a>...</p>\n</body>\n</html>"] := by
    repeat first
      | refine @PlacedFrom.literal _ _ .content _ ?_ ((run_ofList _ _).trans rfl)
      | refine @PlacedFrom.literal _ _ .doubleQuoted _ ?_ ((run_ofList _ _).trans rfl)
      | refine And.intro rfl ?_
    exact trivial
  repeat first
    | refine @PlacedFrom.literal _ _ .content _ ?_ ((run_ofList _ _).trans rfl)
    | refine @PlacedFrom.literal _ _ .doubleQuoted _ ?_ ((run_ofList _ _).trans rfl)
    | refine And.intro rfl ?_
  by_cases isNamed : authorName ≠ []
  · rw [if_pos isNamed]
    refine @PlacedFrom.literal _ _ .doubleQuoted _ ?_ ((run_ofList _ _).trans rfl)
    refine And.intro rfl ?_
    exact @PlacedFrom.literal _ _ .content _ tail ((run_ofList _ _).trans rfl)
  · rw [if_neg isNamed]
    exact tail

theorem inPlace_handleVideoOgTags (result : Option VideoResult) (videoId : Text) :
    InPlace (handleVideoOgTags result videoId) :=
  inPlace_of_placedFrom (placedFrom_videoPage _ _ _ _ _)

end Places

end Divine.ComputeJs
