/-
This file gives parts of the tokenizer of the HTML standard, as automata that read a text
character by character: the states of a script's text, with the two levels of escaping
that a `<!--` opens and that decide where the script ends, the states of a comment, and
the positions of a page.
-/

import Mathlib.Data.List.Infix

namespace Divine.Markup

/-! ### Scripts -/

/-- The script data states, with the name or the buffer read so far. -/
inductive Script where
  | data | lessThan | endTagOpen | endTagName (buffer : List Char) | escapeStart | escapeStartDash
  | escaped | escapedDash | escapedDashDash | escapedLessThan | escapedEndTagOpen
  | escapedEndTagName (buffer : List Char) | doubleEscapeStart (buffer : List Char)
  | doubleEscaped | doubleEscapedDash | doubleEscapedDashDash | doubleEscapedLessThan
  | doubleEscapeEnd (buffer : List Char)
  | ended
  deriving DecidableEq

/-- White space, a slash or a greater-than sign ends a tag's name. -/
def endsName (symbol : Char) : Bool :=
  symbol = '\t' || symbol = '\n' || symbol = '\x0c' || symbol = ' ' || symbol = '/' || symbol = '>'

def scriptName : List Char := ['s', 'c', 'r', 'i', 'p', 't']

namespace Script

def fromData (symbol : Char) : Script := if symbol = '<' then lessThan else data

def fromEscaped (symbol : Char) : Script :=
  if symbol = '-' then escapedDash else if symbol = '<' then escapedLessThan else escaped

def fromDoubleEscaped (symbol : Char) : Script :=
  if symbol = '-' then doubleEscapedDash
  else if symbol = '<' then doubleEscapedLessThan
  else doubleEscaped

def step : Script → Char → Script
  | data, symbol => fromData symbol
  | lessThan, symbol =>
      if symbol = '/' then endTagOpen else if symbol = '!' then escapeStart else fromData symbol
  | endTagOpen, symbol => if symbol.isAlpha then endTagName [symbol.toLower] else fromData symbol
  | endTagName buffer, symbol =>
      if endsName symbol && buffer = scriptName then ended
      else if symbol.isAlpha then endTagName (buffer ++ [symbol.toLower])
      else fromData symbol
  | escapeStart, symbol => if symbol = '-' then escapeStartDash else fromData symbol
  | escapeStartDash, symbol => if symbol = '-' then escapedDashDash else fromData symbol
  | escaped, symbol => fromEscaped symbol
  | escapedDash, symbol => if symbol = '-' then escapedDashDash else fromEscaped symbol
  | escapedDashDash, symbol =>
      if symbol = '-' then escapedDashDash
      else if symbol = '>' then data
      else fromEscaped symbol
  | escapedLessThan, symbol =>
      if symbol = '/' then escapedEndTagOpen
      else if symbol.isAlpha then doubleEscapeStart [symbol.toLower]
      else fromEscaped symbol
  | escapedEndTagOpen, symbol =>
      if symbol.isAlpha then escapedEndTagName [symbol.toLower] else fromEscaped symbol
  | escapedEndTagName buffer, symbol =>
      if endsName symbol && buffer = scriptName then ended
      else if symbol.isAlpha then escapedEndTagName (buffer ++ [symbol.toLower])
      else fromEscaped symbol
  | doubleEscapeStart buffer, symbol =>
      if endsName symbol then (if buffer = scriptName then doubleEscaped else escaped)
      else if symbol.isAlpha then doubleEscapeStart (buffer ++ [symbol.toLower])
      else fromEscaped symbol
  | doubleEscaped, symbol => fromDoubleEscaped symbol
  | doubleEscapedDash, symbol =>
      if symbol = '-' then doubleEscapedDashDash else fromDoubleEscaped symbol
  | doubleEscapedDashDash, symbol =>
      if symbol = '-' then doubleEscapedDashDash
      else if symbol = '>' then data
      else fromDoubleEscaped symbol
  | doubleEscapedLessThan, symbol =>
      if symbol = '/' then doubleEscapeEnd [] else fromDoubleEscaped symbol
  | doubleEscapeEnd buffer, symbol =>
      if endsName symbol then (if buffer = scriptName then escaped else doubleEscaped)
      else if symbol.isAlpha then doubleEscapeEnd (buffer ++ [symbol.toLower])
      else fromDoubleEscaped symbol
  | ended, _ => ended

def run (state : Script) (text : List Char) : Script := text.foldl step state

theorem run_append (state : Script) (first second : List Char) :
    run state (first ++ second) = run (run state first) second :=
  List.foldl_append

end Script

def scriptEnd : List Char := ['<', '/', 's', 'c', 'r', 'i', 'p', 't', '>']

def EndsThere (text : List Char) : Prop :=
  Script.data.run text ≠ .ended ∧ Script.data.run (text ++ scriptEnd) = .ended

instance (text : List Char) : Decidable (EndsThere text) := inferInstanceAs (Decidable (_ ∧ _))

/-- How deep a script's text is escaped. -/
inductive Level where
  | plain | escaped | doubleEscaped | ended
  deriving DecidableEq

open Script in
def Script.level : Script → Level
  | data | lessThan | endTagOpen | endTagName _ | escapeStart | escapeStartDash => .plain
  | escaped | escapedDash | escapedDashDash | escapedLessThan | escapedEndTagOpen
  | escapedEndTagName _ | doubleEscapeStart _ => .escaped
  | doubleEscaped | doubleEscapedDash | doubleEscapedDashDash | doubleEscapedLessThan
  | doubleEscapeEnd _ => .doubleEscaped
  | ended => .ended

namespace Level

def start : Level → Script
  | plain => .data
  | escaped => .escaped
  | doubleEscaped => .doubleEscaped
  | ended => .ended

def after (level : Level) (text : List Char) : Level := (level.start.run text).level

/-- The level at which the next end tag ends the script. -/
def Open (level : Level) : Prop := level = plain ∨ level = escaped

end Level

section Scripts

/-- A character that begins and ends nothing in a script. -/
def Calm (symbol : Char) : Prop :=
  symbol.isAlpha = false ∧ endsName symbol = false ∧ symbol ≠ '<' ∧ symbol ≠ '-' ∧ symbol ≠ '!'

instance (symbol : Char) : Decidable (Calm symbol) := inferInstanceAs (Decidable (_ ∧ _))

theorem step_calm {symbol : Char} (calm : Calm symbol) (state : Script) :
    state.step symbol = state.level.start := by
  obtain ⟨noLetter, noEnd, noOpening, noDash, noBang⟩ := calm
  have noSlash : symbol ≠ '/' := fun same => by simp [same, endsName] at noEnd
  have noClosing : symbol ≠ '>' := fun same => by simp [same, endsName] at noEnd
  cases state <;>
    simp [Script.step, Script.fromData, Script.fromEscaped, Script.fromDoubleEscaped, noLetter,
      noEnd, noOpening, noDash, noBang, noSlash, noClosing, Script.level, Level.start]

@[simp] theorem level_start (level : Level) : level.start.level = level := by
  cases level <;> rfl

theorem run_calm {symbol : Char} (calm : Calm symbol) (level : Level) (text rest : List Char) :
    level.start.run (text ++ symbol :: rest) = (level.after text).start.run rest := by
  rw [Script.run_append]
  show (Script.step _ symbol).run rest = _
  rw [step_calm calm]
  rfl

/-- The states that a text without angle brackets leads into from the start of a level. -/
def Script.Quiet (state : Script) : Prop :=
  state ∈ [Script.data, .escaped, .escapedDash, .escapedDashDash, .doubleEscaped,
    .doubleEscapedDash, .doubleEscapedDashDash, .ended]

theorem after_eq_of_not_mem {text : List Char} (opening : '<' ∉ text) (closing : '>' ∉ text)
    (level : Level) : level.after text = level := by
  have keeps : ∀ state : Script, state.Quiet → (state.run text).level = state.level := by
    induction text with
    | nil => exact fun _ _ => rfl
    | cons symbol text ih =>
      intro state quiet
      obtain ⟨noOpening, opening⟩ := not_or.mp (mt List.mem_cons.mpr opening)
      obtain ⟨noClosing, closing⟩ := not_or.mp (mt List.mem_cons.mpr closing)
      have quietStep : (state.step symbol).Quiet ∧ (state.step symbol).level = state.level := by
        unfold Script.Quiet at quiet
        simp only [List.mem_cons, List.not_mem_nil, or_false] at quiet
        rcases quiet with rfl | rfl | rfl | rfl | rfl | rfl | rfl | rfl <;>
          simp only [Script.step, Script.fromData, Script.fromEscaped, Script.fromDoubleEscaped,
            if_neg (Ne.symm noOpening), if_neg (Ne.symm noClosing)] <;>
          try split_ifs
        all_goals simp [Script.Quiet, Script.level]
      exact (ih opening closing _ quietStep.1).trans quietStep.2
  refine (keeps level.start ?_).trans (level_start level)
  cases level <;> simp [Script.Quiet, Level.start]

theorem endsThere_iff {text : List Char} {symbol : Char} (calm : Calm symbol) :
    EndsThere (text ++ [symbol]) ↔ (Level.plain.after text).Open := by
  have reached : ∀ rest, Script.data.run (text ++ symbol :: rest) =
      (Level.plain.after text).start.run rest := run_calm calm .plain text
  unfold EndsThere
  rw [List.append_assoc, List.singleton_append, reached, reached]
  cases Level.plain.after text with
  | plain => exact ⟨fun _ => .inl rfl, fun _ => ⟨by decide, by decide⟩⟩
  | escaped => exact ⟨fun _ => .inr rfl, fun _ => ⟨by decide, by decide⟩⟩
  | doubleEscaped =>
    exact ⟨fun ends => absurd ends.2 (by decide), fun isOpen => isOpen.elim nofun nofun⟩
  | ended => exact ⟨fun ends => absurd rfl ends.1, fun isOpen => isOpen.elim nofun nofun⟩

end Scripts

/-! ### Comments -/

/-- The states of a comment after its `<!--`. Those after a `<` in it differ from these in errors
only. -/
inductive Comment where
  | start | startDash | comment | endDash | ending | endBang | closed
  deriving DecidableEq

namespace Comment

def fromComment (symbol : Char) : Comment := if symbol = '-' then endDash else comment

def step : Comment → Char → Comment
  | start, symbol =>
      if symbol = '-' then startDash else if symbol = '>' then closed else fromComment symbol
  | startDash, symbol =>
      if symbol = '-' then ending else if symbol = '>' then closed else fromComment symbol
  | comment, symbol => fromComment symbol
  | endDash, symbol => if symbol = '-' then ending else fromComment symbol
  | ending, symbol =>
      if symbol = '>' then closed
      else if symbol = '!' then endBang
      else if symbol = '-' then ending
      else fromComment symbol
  | endBang, symbol =>
      if symbol = '-' then endDash else if symbol = '>' then closed else fromComment symbol
  | closed, _ => closed

def run (state : Comment) (text : List Char) : Comment := text.foldl step state

theorem run_append (state : Comment) (first second : List Char) :
    run state (first ++ second) = run (run state first) second :=
  List.foldl_append

end Comment

def ClosesThere (text : List Char) : Prop :=
  ∃ inner, text = inner ++ ['>'] ∧ Comment.start.run inner ≠ .closed ∧
    Comment.start.run text = .closed

/-! ### Positions -/

/-- Where in a page a character stands, as far as tags, comments and quoted values go. -/
inductive Position where
  | content | lessThan | declaration | declarationDash | bogus | comment (state : Comment)
  | tag | beforeValue | doubleQuoted | singleQuoted | unquoted
  deriving DecidableEq

def isSpace (symbol : Char) : Bool :=
  symbol = '\t' || symbol = '\n' || symbol = '\x0c' || symbol = ' '

namespace Position

def step : Position → Char → Position
  | content, symbol => if symbol = '<' then lessThan else content
  | lessThan, symbol =>
      if symbol = '!' then declaration
      else if symbol = '/' || symbol.isAlpha then tag
      else if symbol = '?' then bogus
      else if symbol = '<' then lessThan
      else content
  | declaration, symbol =>
      if symbol = '-' then declarationDash else if symbol = '>' then content else bogus
  | declarationDash, symbol =>
      if symbol = '-' then comment .start else if symbol = '>' then content else bogus
  | bogus, symbol => if symbol = '>' then content else bogus
  | comment state, symbol =>
      if state.step symbol = .closed then content else comment (state.step symbol)
  | tag, symbol => if symbol = '>' then content else if symbol = '=' then beforeValue else tag
  | beforeValue, symbol =>
      if isSpace symbol then beforeValue
      else if symbol = '"' then doubleQuoted
      else if symbol = '\'' then singleQuoted
      else if symbol = '>' then content
      else unquoted
  | doubleQuoted, symbol => if symbol = '"' then tag else doubleQuoted
  | singleQuoted, symbol => if symbol = '\'' then tag else singleQuoted
  | unquoted, symbol =>
      if isSpace symbol then tag else if symbol = '>' then content else unquoted

def run (position : Position) (text : List Char) : Position := text.foldl step position

theorem run_append (position : Position) (first second : List Char) :
    run position (first ++ second) = run (run position first) second :=
  List.foldl_append

theorem run_doubleQuoted {text : List Char} (free : '"' ∉ text) :
    doubleQuoted.run text = doubleQuoted := by
  induction text with
  | nil => rfl
  | cons symbol text ih =>
    obtain ⟨differs, free⟩ := not_or.mp (mt List.mem_cons.mpr free)
    show (if symbol = '"' then tag else doubleQuoted).run text = _
    rw [if_neg (Ne.symm differs)]
    exact ih free

theorem run_content {text : List Char} (free : '<' ∉ text) : content.run text = content := by
  induction text with
  | nil => rfl
  | cons symbol text ih =>
    obtain ⟨differs, free⟩ := not_or.mp (mt List.mem_cons.mpr free)
    show (if symbol = '<' then lessThan else content).run text = _
    rw [if_neg (Ne.symm differs)]
    exact ih free

end Position

end Divine.Markup
