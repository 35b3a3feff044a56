/-
This file models the parser of subtitles and shows that it reads what is printed.
-/

import Divine.ComputeJs.SubdomainProfile
import Divine.Library.NumberText
import Divine.Library.Splitting
import Mathlib.Tactic.NormNum

namespace Divine.FrontendWeb

open ComputeJs NumberText Splitting

/-! ### The parser -/

structure VttCue where
  startTime : ParsedNumber
  endTime : ParsedNumber
  text : Text
  deriving DecidableEq

def trimText (text : Text) : Text := trim isWhiteSpace text

/-- `parseVttTimestamp`: hours, minutes and seconds in three parts, and otherwise minutes and
seconds. -/
def parseVttTimestamp (ts : Text) : ParsedNumber :=
  let total (hours minutes seconds : ParsedNumber) : ParsedNumber :=
    if hours.isNaN || minutes.isNaN || seconds.isNaN then .nan
    else ((hours.scale 3600).add (minutes.scale 60)).add seconds
  match (trimText ts).splitOn ':' with
  | [hours, minutes, seconds] =>
      total (parseInt isWhiteSpace hours) (parseInt isWhiteSpace minutes)
        (parseFloat isWhiteSpace seconds)
  | minutes :: seconds :: _ =>
      total (.finite 0) (parseInt isWhiteSpace minutes) (parseFloat isWhiteSpace seconds)
  | [_] | [] => .nan

/-- `replace(/<[^>]+>/g, '')`, after so many symbols that belong to a tag. -/
def stripFrom : Nat → Text → Text
  | _, [] => []
  | skip + 1, _ :: rest => stripFrom skip rest
  | 0, symbol :: rest =>
      let inside := rest.takeWhile fun other => other ≠ '>'
      if symbol = '<' ∧ inside ≠ [] ∧ inside.length < rest.length then
        stripFrom (inside.length + 1) rest
      else symbol :: stripFrom 0 rest

def stripTags (text : Text) : Text := stripFrom 0 text

def arrow : Text := "-->".toList

def isBlank (line : Text) : Bool := trimText line = []

/-- `s.trim().split(' ')[0]` of the part at an index. -/
def timestampAt (line : Text) (index : Nat) : Text :=
  (((split arrow line)[index]?.map fun part => (trimText part).splitOn ' ').bind List.head?).getD []

def cueText (textLines : List Text) : Text := trimText (stripTags (['\n'].intercalate textLines))

def parseCues : List Text → List VttCue
  | [] => []
  | line :: rest =>
      if includes arrow line then
        let startTime := parseVttTimestamp (timestampAt line 0)
        let endTime := parseVttTimestamp (timestampAt line 1)
        if startTime.isNaN || endTime.isNaN then parseCues rest
        else
          let text := cueText (rest.takeWhile fun later => !isBlank later)
          let cues := parseCues (rest.dropWhile fun later => !isBlank later)
          if text ≠ [] then ⟨startTime, endTime, text⟩ :: cues else cues
      else parseCues rest
termination_by lines => lines.length
decreasing_by
  all_goals simp only [List.length_cons]
  · omega
  · exact Nat.lt_succ_of_le (List.length_dropWhile_le _ _)
  · omega

def parseVtt (vttContent : Text) : List VttCue :=
  parseCues ((splitLines vttContent).dropWhile fun line => !includes arrow line)

/-! ### What is returned -/

theorem parseCues_skip {line : Text} (plain : includes arrow line = false) (rest : List Text) :
    parseCues (line :: rest) = parseCues rest := by
  rw [parseCues, if_neg (by rw [plain]; exact Bool.false_ne_true)]

theorem parseCues_cue {line : Text} {startTime endTime : ParsedNumber}
    (marked : includes arrow line = true)
    (starts : parseVttTimestamp (timestampAt line 0) = startTime)
    (ends : parseVttTimestamp (timestampAt line 1) = endTime)
    (defined : ¬(startTime.isNaN || endTime.isNaN) = true) (rest : List Text) :
    parseCues (line :: rest) =
      (if cueText (rest.takeWhile fun later => !isBlank later) ≠ [] then
        [⟨startTime, endTime, cueText (rest.takeWhile fun later => !isBlank later)⟩] else []) ++
        parseCues (rest.dropWhile fun later => !isBlank later) := by
  rw [parseCues, if_pos marked, starts, ends]
  simp only [if_neg defined]
  split_ifs <;> rfl

/-- A cue with two times and a text. -/
structure VttCue.Defined (cue : VttCue) : Prop where
  startTime : cue.startTime ≠ .nan
  endTime : cue.endTime ≠ .nan
  text : cue.text ≠ []

theorem defined_of_mem_cue {startTime endTime : ParsedNumber} {text : Text}
    (defined : ¬(startTime.isNaN || endTime.isNaN) = true) :
    ∀ cue ∈ (if text ≠ [] then [VttCue.mk startTime endTime text] else []), cue.Defined := by
  intro cue member
  split_ifs at member with nonempty
  · obtain rfl := List.mem_singleton.mp member
    refine ⟨?_, ?_, nonempty⟩
    · rintro rfl
      exact defined rfl
    · rintro rfl
      exact defined (Bool.or_true _)
  · cases member

theorem defined_of_mem_parseCues (lines : List Text) : ∀ cue ∈ parseCues lines, cue.Defined := by
  induction lines using parseCues.induct with
  | case1 =>
    rw [parseCues]
    exact nofun
  | case2 line rest marked startTime endTime undefined ih =>
    have skipped : parseCues (line :: rest) = parseCues rest := by
      rw [parseCues, if_pos marked]
      exact if_pos undefined
    rw [skipped]
    exact ih
  | case3 line rest marked startTime endTime defined text nonempty ih =>
    rw [parseCues_cue marked rfl rfl defined]
    exact List.forall_mem_append.mpr ⟨defined_of_mem_cue defined, ih⟩
  | case4 line rest marked startTime endTime defined text empty ih =>
    rw [parseCues_cue marked rfl rfl defined]
    exact List.forall_mem_append.mpr ⟨defined_of_mem_cue defined, ih⟩
  | case5 line rest plain ih =>
    rw [parseCues_skip (Bool.eq_false_of_not_eq_true plain)]
    exact ih

/-! ### Printing -/

structure Time where
  hours : ℕ
  minutes : ℕ
  seconds : ℕ
  milliseconds : ℕ
  minutesLt : minutes < 60
  secondsLt : seconds < 60
  millisecondsLt : milliseconds < 1000

namespace Time

def value (time : Time) : ℚ :=
  time.hours * 3600 + time.minutes * 60 + (time.seconds + time.milliseconds / 1000)

/-- `HH:MM:SS.mmm`, or `MM:SS.mmm` where no hours are wanted and there are none. -/
def print (time : Time) (short : Bool) : Text :=
  (if short ∧ time.hours = 0 then [] else padded 2 time.hours ++ [':']) ++
    (padded 2 time.minutes ++ ':' :: (padded 2 time.seconds ++ '.' :: padded 3 time.milliseconds))

end Time

/-- A line of text: not blank, in one line, without white space at its ends and without tags. -/
structure IsTextLine (line : Text) : Prop where
  nonempty : line ≠ []
  single : '\n' ∉ line
  trimmed : Trimmed isWhiteSpace line
  untagged : '<' ∉ line

/-- A cue and how it is printed: the text before it, the shapes of its times, and its settings. -/
structure Subtitle where
  identifier : Option Text
  start : Time
  startShort : Bool
  stop : Time
  stopShort : Bool
  settings : Option Text
  lines : List Text
  unmarked : ∀ text ∈ identifier, ¬arrow <:+: text
  settingsLine : ∀ text ∈ settings, '\n' ∉ text
  nonempty : lines ≠ []
  textLines : ∀ line ∈ lines, IsTextLine line

namespace Subtitle

variable (subtitle : Subtitle) (ending : LineEnding)

def cue : VttCue where
  startTime := .finite subtitle.start.value
  endTime := .finite subtitle.stop.value
  text := ['\n'].intercalate subtitle.lines

def timestampLine : Text :=
  subtitle.start.print subtitle.startShort ++ ' ' :: (arrow ++
    ' ' :: (subtitle.stop.print subtitle.stopShort ++
      subtitle.settings.elim [] fun settings => ' ' :: settings))

def print : Text :=
  (subtitle.identifier.elim [] fun identifier => identifier ++ ending.text) ++
    subtitle.timestampLine ++ ending.text ++
      (subtitle.lines ++ [[]]).flatMap fun line => line ++ ending.text

end Subtitle

/-- A WebVTT file: a header, and the cues one after another. -/
def printVtt (ending : LineEnding) (header : Text) (subtitles : List Subtitle) : Text :=
  header ++ ending.text ++ subtitles.flatMap fun subtitle => subtitle.print ending

/-! ### Times -/

theorem isWhiteSpace_of_isDigit (symbol : Char) (digit : symbol.isDigit = true) :
    isWhiteSpace symbol = false := by
  have bounds : 48 ≤ symbol.toNat ∧ symbol.toNat ≤ 57 := by
    simpa [Char.isDigit, Char.le_def, UInt32.le_iff_toNat_le] using digit
  have each : ∀ code < 58, 48 ≤ code → isWhiteSpace (Char.ofNat code) = false := by decide +kernel
  have own := each symbol.toNat (Nat.lt_succ_of_le bounds.2) bounds.1
  rwa [Char.ofNat_toNat] at own

def isTimeSymbol (symbol : Char) : Bool := symbol.isDigit || symbol = ':' || symbol = '.'

theorem isTimeSymbol_of_mem_print {time : Time} {short : Bool} :
    ∀ symbol ∈ time.print short, isTimeSymbol symbol = true := by
  have digits : ∀ {count number : ℕ}, ∀ symbol ∈ padded count number,
    isTimeSymbol symbol = true := by
    intro count number symbol member
    rw [isTimeSymbol, isDigit_of_mem_padded symbol member]
    rfl
  have behind : ∀ symbol ∈ padded 2 time.minutes ++ ':' :: (padded 2 time.seconds ++
      '.' :: padded 3 time.milliseconds), isTimeSymbol symbol = true := by
    refine List.forall_mem_append.mpr ⟨digits, List.forall_mem_cons.mpr ⟨rfl, ?_⟩⟩
    exact List.forall_mem_append.mpr ⟨digits, List.forall_mem_cons.mpr ⟨rfl, digits⟩⟩
  refine List.forall_mem_append.mpr ⟨?_, behind⟩
  split_ifs
  · exact nofun
  · exact List.forall_mem_append.mpr ⟨digits, List.forall_mem_cons.mpr
      ⟨rfl, nofun⟩⟩

theorem print_ne_nil (time : Time) (short : Bool) : time.print short ≠ [] :=
  List.append_ne_nil_of_right_ne_nil _
    (List.append_ne_nil_of_left_ne_nil (padded_ne_nil _ _) _)

theorem notMem_print {time : Time} {short : Bool} {symbol : Char}
    (other : isTimeSymbol symbol = false) : symbol ∉ time.print short := fun member => by
  have own := isTimeSymbol_of_mem_print symbol member
  rw [other] at own
  exact Bool.false_ne_true own

theorem isWhiteSpace_of_isTimeSymbol {symbol : Char} (own : isTimeSymbol symbol = true) :
    isWhiteSpace symbol = false := by
  rcases Bool.or_eq_true_iff.mp own with digitOrColon | point
  · rcases Bool.or_eq_true_iff.mp digitOrColon with digit | colon
    · exact isWhiteSpace_of_isDigit symbol digit
    · rw [of_decide_eq_true colon]
      rfl
  · rw [of_decide_eq_true point]
    rfl

theorem trimmed_print (time : Time) (short : Bool) : Trimmed isWhiteSpace (time.print short) :=
  ⟨fun symbol first => isWhiteSpace_of_isTimeSymbol
      (isTimeSymbol_of_mem_print symbol (List.mem_of_head? first)),
    fun symbol last => isWhiteSpace_of_isTimeSymbol
      (isTimeSymbol_of_mem_print symbol (List.mem_of_getLast? last))⟩

theorem parseVttTimestamp_print (time : Time) (short : Bool) :
    parseVttTimestamp (time.print short) = .finite time.value := by
  have seconds := @parseFloat_padded _ isWhiteSpace_of_isDigit 2 time.seconds 3 time.milliseconds
    (by decide) time.millisecondsLt
  have minutes := @parseInt_padded _ isWhiteSpace_of_isDigit 2 time.minutes
  have hours := @parseInt_padded _ isWhiteSpace_of_isDigit 2 time.hours
  have colon : ∀ {count number : ℕ}, ':' ∉ padded count number := by
    intro count number member
    cases isDigit_of_mem_padded ':' member
  have last : ':' ∉ padded 2 time.seconds ++ '.' :: padded 3 time.milliseconds := by
    simp [colon]
  have total : ∀ hours : ℚ,
    ((ParsedNumber.finite hours).scale 3600 |>.add ((ParsedNumber.finite time.minutes).scale 60)
      |>.add (ParsedNumber.finite (time.seconds + time.milliseconds / (10 ^ 3 : ℕ)))) =
        .finite (hours * 3600 + time.minutes * 60 + (time.seconds + time.milliseconds / 1000)) := by
    intro hours
    refine congrArg ParsedNumber.finite ?_
    norm_num
  have parts : (padded 2 time.minutes ++ ':' :: (padded 2 time.seconds ++
      '.' :: padded 3 time.milliseconds)).splitOn ':' =
        [padded 2 time.minutes, padded 2 time.seconds ++ '.' :: padded 3 time.milliseconds] := by
    rw [List.splitOn_append_cons_self_of_not_mem colon, List.splitOn_eq_singleton last]
  rw [parseVttTimestamp, trimText, trim_of_trimmed (trimmed_print time short), Time.print]
  by_cases shown : short ∧ time.hours = 0
  · rw [if_pos shown, List.nil_append, parts]
    simp only [minutes, seconds]
    refine (total 0).trans (congrArg ParsedNumber.finite ?_)
    rw [Time.value, shown.2, Nat.cast_zero]
  · rw [if_neg shown, ← List.append_cons, List.splitOn_append_cons_self_of_not_mem colon, parts]
    simp only [hours, minutes, seconds]
    exact total time.hours

/-! ### Timestamp lines -/

def Separated (rest : Text) : Prop := ∀ symbol ∈ rest.head?, symbol = ' '

theorem Separated.of_prefix {rest lead : Text} (separated : Separated rest)
    (begins : lead <+: rest) :
    Separated lead := by
  obtain ⟨more, rfl⟩ := begins
  cases lead with
  | nil => exact nofun
  | cons first lead => exact separated

theorem firstWord {before rest : Text} (time : Time) (short : Bool)
    (blank : ∀ symbol ∈ before, isWhiteSpace symbol = true) (separated : Separated rest) :
    ((trimText (before ++ time.print short ++ rest)).splitOn ' ').head? =
      some (time.print short) := by
  have plain : ' ' ∉ time.print short := notMem_print rfl
  rw [trimText, trim_between blank (trimmed_print time short) (print_ne_nil time short)]
  have behind := separated.of_prefix (List.rdropWhile_prefix isWhiteSpace rest)
  generalize rest.rdropWhile isWhiteSpace = kept at behind
  cases kept with
  | nil => rw [List.append_nil, List.splitOn_eq_singleton plain, List.head?_cons]
  | cons first kept =>
    obtain rfl := behind first rfl
    rw [List.splitOn_append_cons_self_of_not_mem plain, List.head?_cons]

section Lines

variable (subtitle : Subtitle)

def timestamps : Text :=
  (subtitle.start.print subtitle.startShort ++ [' ']) ++ (arrow ++
    ([' '] ++ subtitle.stop.print subtitle.stopShort))

variable {subtitle} {kept : Text}

theorem timestampAt_kept (separated : Separated kept) :
    timestampAt (timestamps subtitle ++ kept) 0 = subtitle.start.print subtitle.startShort ∧
      timestampAt (timestamps subtitle ++ kept) 1 = subtitle.stop.print subtitle.stopShort := by
  have dashless : ∀ (time : Time) (short : Bool), '-' ∉ time.print short :=
    fun time short => notMem_print rfl
  have lead : '-' ∉ subtitle.start.print subtitle.startShort ++ [' '] := by
    simp [dashless]
  have behind : '-' ∉ [' '] ++ subtitle.stop.print subtitle.stopShort := by
    simp [dashless]
  obtain ⟨part, parts, same, begins⟩ := exists_split arrow kept
  have pieces : split arrow (timestamps subtitle ++ kept) =
      (subtitle.start.print subtitle.startShort ++ [' ']) ::
        ([' '] ++ subtitle.stop.print subtitle.stopShort ++ part) :: parts := by
    rw [timestamps, List.append_assoc, List.append_assoc arrow]
    rw [show arrow = '-' :: ['-', '>'] from rfl, split_append lead, split_lead behind]
    rw [show '-' :: ['-', '>'] = arrow from rfl, same]
    rfl
  have first := @firstWord [] [' '] subtitle.start subtitle.startShort
    nofun
    (fun symbol member => (Option.some.inj member).symm)
  have second := @firstWord [' '] part subtitle.stop subtitle.stopShort
    (fun symbol member => by rw [List.mem_singleton.mp member]; rfl) (separated.of_prefix begins)
  rw [timestampAt, timestampAt, pieces]
  exact ⟨congrArg (fun word : Option Text => word.getD []) first,
    congrArg (fun word : Option Text => word.getD []) second⟩

theorem includes_kept : includes arrow (timestamps subtitle ++ kept) = true := by
  refine includes_eq_true_iff.mpr ?_
  rw [timestamps, List.append_assoc, List.append_assoc arrow]
  exact List.infix_append' _ _ _

theorem timestampLine_eq : ∃ behind, subtitle.timestampLine = timestamps subtitle ++ behind ∧
    Separated behind ∧ ('\n' ∈ behind → ∃ settings ∈ subtitle.settings, '\n' ∈ settings) := by
  refine ⟨subtitle.settings.elim [] fun settings => ' ' :: settings, ?_, ?_, ?_⟩
  · simp [Subtitle.timestampLine, timestamps]
  · cases subtitle.settings with
    | none => exact nofun
    | some settings => exact fun symbol member => (Option.some.inj member).symm
  · cases subtitle.settings with
    | none => exact nofun
    | some settings =>
      intro member
      refine ⟨settings, rfl, ?_⟩
      rcases List.mem_cons.mp member with feed | inside
      · cases feed
      · exact inside

theorem newline_notMem_timestampLine : '\n' ∉ subtitle.timestampLine := by
  obtain ⟨behind, same, -, fed⟩ := @timestampLine_eq subtitle
  have feedless : ∀ (time : Time) (short : Bool), '\n' ∉ time.print short :=
    fun time short => notMem_print rfl
  have lead : '\n' ∉ timestamps subtitle := by
    rw [timestamps, arrow]
    simp [feedless]
  rw [same, List.mem_append, not_or]
  refine ⟨lead, fun member => ?_⟩
  obtain ⟨settings, own, inside⟩ := fed member
  exact subtitle.settingsLine settings own inside

theorem splitLines_timestampLine (ending : LineEnding) (rest : Text) :
    ∃ kept, splitLines (subtitle.timestampLine ++ ending.text ++ rest) =
      (timestamps subtitle ++ kept) :: splitLines rest ∧ Separated kept := by
  obtain ⟨behind, same, separated, -⟩ := @timestampLine_eq subtitle
  have single := @newline_notMem_timestampLine subtitle
  have ends : (timestamps subtitle).getLast? ≠ some '\r' := by
    have last : (timestamps subtitle).getLast? =
        (subtitle.stop.print subtitle.stopShort).getLast? := by
      rw [timestamps, List.getLast?_append_of_ne_nil _ (by simp [arrow]),
        List.getLast?_append_of_ne_nil _ (by simp),
        List.getLast?_append_of_ne_nil _ (print_ne_nil _ _)]
    rw [last]
    exact fun returned => notMem_print rfl (List.mem_of_getLast? returned)
  rw [same] at single ⊢
  obtain ⟨kept, found, begins⟩ := splitLines_end ending single ends rest
  exact ⟨kept, found, separated.of_prefix begins⟩

end Lines

/-! ### Texts -/

theorem stripTags_of_notMem {text : Text} (untagged : '<' ∉ text) : stripTags text = text := by
  induction text with
  | nil => rfl
  | cons symbol rest ih =>
    obtain ⟨plain, later⟩ := not_or.mp (mt List.mem_cons.mpr untagged)
    have same := ih later
    rw [stripTags, stripFrom, if_neg (fun tag => plain tag.1.symm)]
    exact congrArg (List.cons symbol) same

section Texts

variable {lines : List Text} {line : Text}

theorem IsTextLine.not_blank (isLine : IsTextLine line) : isBlank line = false := by
  rw [isBlank, trimText, trim_of_trimmed isLine.trimmed]
  exact decide_eq_false isLine.nonempty

theorem IsTextLine.ends (isLine : IsTextLine line) : line.getLast? ≠ some '\r' := fun returned => by
  cases isLine.trimmed.2 '\r' returned

theorem joined (nonempty : lines ≠ []) (textLines : ∀ line ∈ lines, IsTextLine line) :
    ['\n'].intercalate lines ≠ [] ∧ Trimmed isWhiteSpace (['\n'].intercalate lines) ∧
      '<' ∉ ['\n'].intercalate lines := by
  induction lines with
  | nil => exact absurd rfl nonempty
  | cons line lines ih =>
    obtain ⟨own, later⟩ := List.forall_mem_cons.mp textLines
    by_cases last : lines = []
    · rw [last, List.intercalate_singleton]
      exact ⟨own.nonempty, own.trimmed, own.untagged⟩
    · obtain ⟨more, ⟨-, ends⟩, untagged⟩ := ih last later
      rw [List.intercalate_cons_of_ne_nil last]
      refine ⟨List.append_ne_nil_of_right_ne_nil _ more, ⟨?_, ?_⟩, ?_⟩
      · rw [List.append_assoc, List.head?_append_of_ne_nil _ own.nonempty]
        exact own.trimmed.1
      · rw [List.getLast?_append_of_ne_nil _ more]
        exact ends
      · rw [List.mem_append, List.mem_append, not_or, not_or]
        exact ⟨⟨own.untagged, by decide⟩, untagged⟩

theorem cueText_lines (nonempty : lines ≠ []) (textLines : ∀ line ∈ lines, IsTextLine line) :
    cueText lines = ['\n'].intercalate lines := by
  obtain ⟨-, ends, untagged⟩ := joined nonempty textLines
  rw [cueText, stripTags_of_notMem untagged, trimText, trim_of_trimmed ends]

theorem splitLines_textLines (ending : LineEnding) (textLines : ∀ line ∈ lines, IsTextLine line)
    (rest : Text) :
    splitLines ((lines ++ [[]]).flatMap (fun line => line ++ ending.text) ++ rest) =
      lines ++ [] :: splitLines rest := by
  induction lines with
  | nil =>
    have blank := @splitLines_line [] ending List.not_mem_nil (by decide) rest
    simpa using blank
  | cons line lines ih =>
    obtain ⟨own, later⟩ := List.forall_mem_cons.mp textLines
    rw [List.cons_append, List.flatMap_cons, List.append_assoc,
      splitLines_line ending own.single own.ends, ih later, List.cons_append]

end Texts

/-! ### The round trip -/

theorem not_includes_of_infix {text line : Text} (unmarked : ¬arrow <:+: text)
    (part : line <:+: text ++ ['\r']) : includes arrow line = false := by
  refine Bool.eq_false_of_not_eq_true fun marked => unmarked ?_
  rcases List.infix_concat_iff.mp ((includes_eq_true_iff.mp marked).trans part) with last | inside
  · obtain ⟨before, same⟩ := last
    have ends := congrArg List.getLast? same
    rw [List.getLast?_append_of_ne_nil _ (by decide : arrow ≠ []), List.getLast?_concat] at ends
    cases ends
  · exact inside

theorem parseCues_plain {lines : List Text} (plain : ∀ line ∈ lines, includes arrow line = false)
    (rest : List Text) : parseCues (lines ++ rest) = parseCues rest := by
  induction lines with
  | nil => rfl
  | cons line lines ih =>
    obtain ⟨own, later⟩ := List.forall_mem_cons.mp plain
    rw [List.cons_append, parseCues_skip own, ih later]

theorem parseCues_dropWhile (lines : List Text) :
    parseCues (lines.dropWhile fun line => !includes arrow line) = parseCues lines := by
  induction lines with
  | nil => rfl
  | cons line lines ih =>
    cases marked : includes arrow line with
    | true => rw [List.dropWhile_cons_of_neg (by rw [marked]; exact Bool.false_ne_true)]
    | false =>
      rw [List.dropWhile_cons_of_pos (by rw [marked]; rfl), ih,
        parseCues_skip marked]

theorem parseCues_text {text : Text} (unmarked : ¬arrow <:+: text) (ending : LineEnding)
    (rest : Text) :
    parseCues (splitLines (text ++ ending.text ++ rest)) = parseCues (splitLines rest) := by
  obtain ⟨lines, same, parts⟩ := splitLines_text ending text rest
  rw [same, parseCues_plain fun line member => not_includes_of_infix unmarked (parts line member)]

theorem parseCues_print (subtitle : Subtitle) (ending : LineEnding) (rest : Text) :
    parseCues (splitLines (subtitle.print ending ++ rest)) =
      subtitle.cue :: parseCues (splitLines rest) := by
  obtain ⟨kept, found, separated⟩ := @splitLines_timestampLine subtitle ending
    ((subtitle.lines ++ [[]]).flatMap (fun line => line ++ ending.text) ++ rest)
  rw [splitLines_textLines ending subtitle.textLines] at found
  obtain ⟨starts, stops⟩ := @timestampAt_kept subtitle kept separated
  have shown : ∀ line ∈ subtitle.lines, (!isBlank line) = true := fun line member => by
    rw [(subtitle.textLines line member).not_blank]
    rfl
  have text : (subtitle.lines ++ [] :: splitLines rest).takeWhile (fun line => !isBlank line) =
      subtitle.lines := by
    rw [List.takeWhile_append_of_pos shown]
    exact List.append_nil _
  have behind : (subtitle.lines ++ [] :: splitLines rest).dropWhile (fun line => !isBlank line) =
      [] :: splitLines rest := by
    rw [List.dropWhile_append_of_pos shown]
    rfl
  have read : parseCues (splitLines (subtitle.timestampLine ++ ending.text ++
      ((subtitle.lines ++ [[]]).flatMap (fun line => line ++ ending.text) ++ rest))) =
        subtitle.cue :: parseCues (splitLines rest) := by
    rw [found, parseCues_cue includes_kept (starts ▸ parseVttTimestamp_print _ _)
      (stops ▸ parseVttTimestamp_print _ _) (by exact Bool.false_ne_true), text, behind,
      cueText_lines subtitle.nonempty subtitle.textLines,
      if_pos (joined subtitle.nonempty subtitle.textLines).1, parseCues_skip (by decide)]
    rfl
  rw [Subtitle.print]
  cases identified : subtitle.identifier with
  | none => simpa using read
  | some identifier =>
    have unmarked := subtitle.unmarked identifier identified
    have skipped := parseCues_text unmarked ending (subtitle.timestampLine ++ ending.text ++
      ((subtitle.lines ++ [[]]).flatMap (fun line => line ++ ending.text) ++ rest))
    rw [read] at skipped
    simpa using skipped

/-- What is printed is read as the cues that were printed, and every cue that is read has two times
and a text. -/
theorem parseVtt_printVtt {header : Text} (unmarked : ¬arrow <:+: header) (ending : LineEnding)
    (subtitles : List Subtitle) :
    parseVtt (printVtt ending header subtitles) = subtitles.map Subtitle.cue ∧
      ∀ content, ∀ cue ∈ parseVtt content, cue.Defined := by
  refine ⟨?_, fun content => defined_of_mem_parseCues _⟩
  rw [parseVtt, parseCues_dropWhile, printVtt, parseCues_text unmarked]
  induction subtitles with
  | nil => rw [List.flatMap_nil, splitLines_nil, parseCues_skip (by decide), parseCues]; rfl
  | cons subtitle subtitles ih =>
    rw [List.flatMap_cons, parseCues_print, ih, List.map_cons]

def sampleSubtitle : Subtitle where
  identifier := some ['1']
  start := ⟨0, 1, 2, 500, by decide, by decide, by decide⟩
  startShort := true
  stop := ⟨100, 0, 0, 0, by decide, by decide, by decide⟩
  stopShort := false
  settings := some "align:start".toList
  lines := ["a > b".toList]
  unmarked text member := by
    cases member
    decide
  settingsLine text member := by
    cases member
    decide
  nonempty := List.cons_ne_nil _ _
  textLines line member := by
    obtain rfl := List.mem_singleton.mp member
    refine ⟨by decide, by decide, ⟨fun symbol first => ?_, fun symbol last => ?_⟩, by decide⟩
    · cases first
      rfl
    · cases last
      rfl

theorem parseVtt_printVtt_sample :
    parseVtt (printVtt .crlf "WEBVTT".toList [sampleSubtitle, sampleSubtitle]) =
        [sampleSubtitle, sampleSubtitle].map Subtitle.cue ∧
      ∀ content, ∀ cue ∈ parseVtt content, cue.Defined :=
  parseVtt_printVtt (by decide) .crlf _

end Divine.FrontendWeb
