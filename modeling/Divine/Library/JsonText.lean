/-
This file writes flat objects as ECMAScript's `JSON.stringify` does and reads them back.
-/

import Mathlib.Data.List.TakeWhile

namespace Divine.JsonText

open List Option

/-! ### Strings -/

/-- `QuoteJSONString`, one character of it. -/
def escape (symbol : Char) : List Char :=
  if symbol = '"' then ['\\', '"']
  else if symbol = '\\' then ['\\', '\\']
  else if symbol = '\x08' then ['\\', 'b']
  else if symbol = '\x0c' then ['\\', 'f']
  else if symbol = '\n' then ['\\', 'n']
  else if symbol = '\r' then ['\\', 'r']
  else if symbol = '\t' then ['\\', 't']
  else if symbol.toNat < 0x20 then
    ['\\', 'u', '0', '0', Nat.digitChar (symbol.toNat / 16), Nat.digitChar (symbol.toNat % 16)]
  else [symbol]

def quote (text : List Char) : List Char := '"' :: (text.flatMap escape ++ ['"'])

def unescape (letter : Char) : Option Char :=
  if letter = 'b' then some '\x08'
  else if letter = 'f' then some '\x0c'
  else if letter = 'n' then some '\n'
  else if letter = 'r' then some '\r'
  else if letter = 't' then some '\t'
  else if letter = '"' || letter = '\\' || letter = '/' then some letter
  else none

def hexValue (digit : Char) : Option Nat :=
  if digit.isDigit then some (digit.toNat - '0'.toNat)
  else if 'a' ≤ digit && digit ≤ 'f' then some (digit.toNat - 'a'.toNat + 10)
  else if 'A' ≤ digit && digit ≤ 'F' then some (digit.toNat - 'A'.toNat + 10)
  else none

def codeUnit (first second third fourth : Char) : Option Char := do
  let value := (((← hexValue first) * 16 + (← hexValue second)) * 16 + (← hexValue third)) * 16
    + (← hexValue fourth)
  if value.isValidChar then some (Char.ofNat value) else none

/-- A string after its opening quote, and the text after its closing one. -/
def readBody : List Char → Option (List Char × List Char)
  | [] => none
  | '"' :: rest => some ([], rest)
  | '\\' :: 'u' :: first :: second :: third :: fourth :: rest =>
      (codeUnit first second third fourth).bind fun symbol =>
        (readBody rest).map fun read => (symbol :: read.1, read.2)
  | '\\' :: letter :: rest =>
      (unescape letter).bind fun symbol =>
        (readBody rest).map fun read => (symbol :: read.1, read.2)
  | symbol :: rest =>
      if symbol.toNat < 0x20 then none
      else (readBody rest).map fun read => (symbol :: read.1, read.2)

section Strings

theorem hexValue_digitChar : ∀ value < 16, hexValue (Nat.digitChar value) = some value := by
  decide

/-- The letters that stand for a character after a backslash, where one is written so. -/
def letters : List Char := ['"', '\\', 'b', 'f', 'n', 'r', 't']

theorem escape_cases (symbol : Char) :
    (∃ letter ∈ letters, unescape letter = some symbol ∧ escape symbol = ['\\', letter]) ∨
      (symbol.toNat < 0x20 ∧ escape symbol =
        ['\\', 'u', '0', '0', Nat.digitChar (symbol.toNat / 16),
          Nat.digitChar (symbol.toNat % 16)]) ∨
      (symbol ≠ '"' ∧ symbol ≠ '\\' ∧ ¬symbol.toNat < 0x20 ∧ escape symbol = [symbol]) := by
  by_cases quoted : symbol = '"'
  · exact .inl ⟨'"', by decide, by rw [quoted]; rfl, by rw [quoted]; rfl⟩
  by_cases slash : symbol = '\\'
  · exact .inl ⟨'\\', by decide, by rw [slash]; rfl, by rw [slash]; rfl⟩
  by_cases backspace : symbol = '\x08'
  · exact .inl ⟨'b', by decide, by rw [backspace]; rfl, by rw [backspace]; rfl⟩
  by_cases feed : symbol = '\x0c'
  · exact .inl ⟨'f', by decide, by rw [feed]; rfl, by rw [feed]; rfl⟩
  by_cases line : symbol = '\n'
  · exact .inl ⟨'n', by decide, by rw [line]; rfl, by rw [line]; rfl⟩
  by_cases carriage : symbol = '\r'
  · exact .inl ⟨'r', by decide, by rw [carriage]; rfl, by rw [carriage]; rfl⟩
  by_cases tab : symbol = '\t'
  · exact .inl ⟨'t', by decide, by rw [tab]; rfl, by rw [tab]; rfl⟩
  unfold escape
  rw [if_neg quoted, if_neg slash, if_neg backspace, if_neg feed, if_neg line, if_neg carriage,
    if_neg tab]
  by_cases control : symbol.toNat < 0x20
  · exact .inr (.inl ⟨control, if_pos control⟩)
  · exact .inr (.inr ⟨quoted, slash, control, if_neg control⟩)

theorem readBody_escape (symbol : Char) (rest : List Char) :
    readBody (escape symbol ++ rest) =
      (readBody rest).map fun read => (symbol :: read.1, read.2) := by
  rcases escape_cases symbol with ⟨letter, isLetter, stands, same⟩ | ⟨control, same⟩ |
    ⟨quoted, slash, control, same⟩
  · rw [same]
    have read : ∀ letter ∈ letters, readBody ('\\' :: letter :: rest) =
        (unescape letter).bind fun symbol =>
          (readBody rest).map fun read => (symbol :: read.1, read.2) := by
      simp only [letters, forall_mem_cons]
      exact ⟨rfl, rfl, rfl, rfl, rfl, rfl, rfl, nofun⟩
    show readBody ('\\' :: letter :: rest) = _
    rw [read letter isLetter, stands, bind_some]
  · have isCode : codeUnit '0' '0' (Nat.digitChar (symbol.toNat / 16))
        (Nat.digitChar (symbol.toNat % 16)) = some symbol := by
      have valid : ((0 * 16 + 0) * 16 + symbol.toNat / 16) * 16 + symbol.toNat % 16 =
          symbol.toNat := by omega
      have zero : hexValue '0' = some 0 := hexValue_digitChar 0 (by decide)
      unfold codeUnit
      simp only [zero, hexValue_digitChar _ (Nat.mod_lt symbol.toNat (by decide : 16 > 0)),
        hexValue_digitChar (symbol.toNat / 16) (by omega), bind_eq_bind, bind_some,
        valid]
      rw [if_pos (show symbol.toNat.isValidChar from symbol.valid)]
      exact congrArg some (Char.ofNat_toNat symbol)
    rw [same]
    show ((codeUnit '0' '0' _ _).bind fun symbol =>
      (readBody rest).map fun read => (symbol :: read.1, read.2)) = _
    rw [isCode, bind_some]
  · rw [same]
    show readBody (symbol :: rest) = _
    rw [readBody.eq_def (symbol :: rest)]
    split
    · contradiction
    · exact absurd (List.cons.inj ‹_›).1 quoted
    · exact absurd (List.cons.inj ‹_›).1 slash
    · exact absurd (List.cons.inj ‹_›).1 slash
    · obtain ⟨rfl, rfl⟩ := List.cons.inj ‹_›
      exact if_neg control

theorem readBody_quote (text rest : List Char) :
    readBody (text.flatMap escape ++ '"' :: rest) = some (text, rest) := by
  induction text with
  | nil => rfl
  | cons symbol text ih =>
    rw [flatMap_cons, append_assoc, readBody_escape, ih]
    rfl

end Strings

/-! ### Numbers -/

def isNumeric (symbol : Char) : Bool :=
  symbol.isDigit || symbol = '-' || symbol = '+' || symbol = '.' || symbol = 'e' || symbol = 'E'

def isExponent : List Char → Bool
  | [] => true
  | letter :: rest =>
      let digits := if rest.head? = some '+' || rest.head? = some '-' then rest.tail else rest
      (letter = 'e' || letter = 'E') && digits ≠ [] && digits.all Char.isDigit

def isFraction : List Char → Bool
  | '.' :: rest => rest.takeWhile Char.isDigit ≠ [] && isExponent (rest.dropWhile Char.isDigit)
  | rest => isExponent rest

def isNumber (text : List Char) : Bool :=
  let unsigned := if text.head? = some '-' then text.tail else text
  let whole := unsigned.takeWhile Char.isDigit
  (whole = ['0'] || (whole ≠ [] && whole.head? ≠ some '0')) &&
    isFraction (unsigned.dropWhile Char.isDigit)

/-- A number by its literal. -/
structure Numeral where
  text : List Char
  numeric : ∀ symbol ∈ text, isNumeric symbol = true
  number : isNumber text = true
  deriving DecidableEq

/-! ### Objects -/

inductive Value where
  | null
  | number (numeral : Numeral)
  | string (text : List Char)
  deriving DecidableEq

def Value.write : Value → List Char
  | .null => ['n', 'u', 'l', 'l']
  | .number numeral => numeral.text
  | .string text => quote text

/-- A member of an object. -/
abbrev Entry := List Char × Value

def writeEntry (entry : Entry) : List Char := quote entry.1 ++ ':' :: entry.2.write

def writeEntries : List Entry → List Char
  | [] => []
  | [entry] => writeEntry entry
  | entry :: rest => writeEntry entry ++ ',' :: writeEntries rest

/-- `JSON.stringify` of an object. -/
def stringify (entries : List Entry) : List Char := '{' :: (writeEntries entries ++ ['}'])

def readValue : List Char → Option (Value × List Char)
  | 'n' :: 'u' :: 'l' :: 'l' :: rest => some (.null, rest)
  | '"' :: rest => (readBody rest).map fun read => (.string read.1, read.2)
  | text =>
      if isNumber : isNumber (text.takeWhile isNumeric) = true then
        some (.number ⟨text.takeWhile isNumeric, fun _ member => List.mem_takeWhile_imp member,
          isNumber⟩, text.dropWhile isNumeric)
      else none

def readEntry : List Char → Option (Entry × List Char)
  | '"' :: rest =>
      (readBody rest).bind fun key =>
        match key.2 with
        | ':' :: rest => (readValue rest).map fun read => ((key.1, read.1), read.2)
        | _ => none
  | _ => none

/-- Members up to the end of the object, at most as many as there is fuel. -/
def readEntries : Nat → List Char → Option (List Entry)
  | 0, _ => none
  | fuel + 1, text =>
      (readEntry text).bind fun read =>
        match read.2 with
        | ['}'] => some [read.1]
        | ',' :: rest => (readEntries fuel rest).map fun entries => read.1 :: entries
        | _ => none

/-- `JSON.parse` of an object. -/
def parse : List Char → Option (List Entry)
  | ['{', '}'] => some []
  | '{' :: rest => readEntries rest.length rest
  | _ => none

section Objects

/-- What follows a value in an object is part of no number. -/
def Follows (rest : List Char) : Prop := ∀ symbol ∈ rest.head?, isNumeric symbol = false

theorem readValue_number (numeral : Numeral) {rest : List Char} (follows : Follows rest) :
    readValue (numeral.text ++ rest) = some (.number numeral, rest) := by
  obtain ⟨text, numeric, number⟩ := numeral
  have takes : rest.takeWhile isNumeric = [] ∧ rest.dropWhile isNumeric = rest := by
    cases rest with
    | nil => exact ⟨rfl, rfl⟩
    | cons symbol rest =>
      have stops := follows symbol rfl
      exact ⟨takeWhile_cons_of_neg (by simp [stops]),
        dropWhile_cons_of_neg (by simp [stops])⟩
  have whole : (text ++ rest).takeWhile isNumeric = text := by
    rw [takeWhile_append_of_pos numeric, takes.1, append_nil]
  have remains : (text ++ rest).dropWhile isNumeric = rest := by
    rw [dropWhile_append_of_pos numeric, takes.2]
  cases text with
  | nil => cases number
  | cons symbol text =>
    have isFirst := numeric symbol mem_cons_self
    unfold readValue
    split
    · have same := (List.cons.inj ‹_›).1
      exact absurd isFirst (by rw [same]; decide)
    · have same := (List.cons.inj ‹_›).1
      exact absurd isFirst (by rw [same]; decide)
    · simp only [whole, remains]
      exact dif_pos number

theorem readValue_write (value : Value) {rest : List Char} (follows : Follows rest) :
    readValue (value.write ++ rest) = some (value, rest) := by
  cases value with
  | null => rfl
  | number numeral => exact readValue_number numeral follows
  | string text =>
    show (readBody (text.flatMap escape ++ ['"'] ++ rest)).map _ = _
    rw [append_assoc, singleton_append, readBody_quote]
    rfl

theorem readEntry_write (entry : Entry) {rest : List Char} (follows : Follows rest) :
    readEntry (writeEntry entry ++ rest) = some (entry, rest) := by
  obtain ⟨key, value⟩ := entry
  have split : writeEntry (key, value) ++ rest =
      '"' :: (key.flatMap escape ++ '"' :: ':' :: (value.write ++ rest)) := by
    simp [writeEntry, quote]
  rw [split]
  show (readBody (key.flatMap escape ++ '"' :: ':' :: (value.write ++ rest))).bind _ = _
  rw [readBody_quote]
  show (readValue (value.write ++ rest)).map _ = _
  rw [readValue_write value follows]
  rfl

theorem readEntries_write {entries : List Entry} (nonempty : entries ≠ []) {fuel : Nat}
    (enough : entries.length ≤ fuel) :
    readEntries fuel (writeEntries entries ++ ['}']) = some entries := by
  induction entries generalizing fuel with
  | nil => exact absurd rfl nonempty
  | cons entry entries ih =>
    obtain ⟨fuel, rfl⟩ : ∃ smaller, fuel = smaller + 1 :=
      ⟨fuel - 1, (Nat.sub_add_cancel (le_trans (Nat.le_add_left 1 entries.length) enough)).symm⟩
    cases entries with
    | nil =>
      show (readEntry (writeEntry entry ++ ['}'])).bind _ = _
      rw [readEntry_write entry fun symbol member => by
        obtain rfl := mem_some_iff.mp member
        decide]
      rfl
    | cons next entries =>
      have split : writeEntries (entry :: next :: entries) ++ ['}'] =
          writeEntry entry ++ ',' :: (writeEntries (next :: entries) ++ ['}']) := by
        simp [writeEntries]
      rw [split]
      show (readEntry _).bind _ = _
      rw [readEntry_write entry fun symbol member => by
        obtain rfl := mem_some_iff.mp member
        decide]
      show (readEntries fuel (writeEntries (next :: entries) ++ ['}'])).map _ = _
      rw [ih (cons_ne_nil _ _) (Nat.le_of_succ_le_succ enough)]
      rfl

theorem length_le_writeEntries (entries : List Entry) :
    entries.length ≤ (writeEntries entries).length := by
  induction entries with
  | nil => exact le_rfl
  | cons entry entries ih =>
    cases entries with
    | nil => simp [writeEntries, writeEntry, quote]
    | cons next entries =>
      simp only [writeEntries, length_append, length_cons] at ih ⊢
      omega

theorem parse_stringify (entries : List Entry) : parse (stringify entries) = some entries := by
  cases entries with
  | nil => rfl
  | cons entry entries =>
    obtain ⟨text, split⟩ : ∃ text, writeEntries (entry :: entries) ++ ['}'] = '"' :: text := by
      cases entries with
      | nil | cons => exact ⟨_, rfl⟩
    have reads : readEntries ('"' :: text).length ('"' :: text) = some (entry :: entries) := by
      rw [← split]
      refine readEntries_write (cons_ne_nil _ _) ((length_le_writeEntries _).trans ?_)
      rw [length_append]
      exact Nat.le_add_right _ _
    unfold stringify
    rw [split]
    exact reads

end Objects

end Divine.JsonText
