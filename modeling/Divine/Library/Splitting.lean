/-
This file develops how a text is taken apart: into its lines, which a line feed ends with
or without a carriage return before it, at the occurrences of another text, and from the
symbols around it that do not count.
-/

import Mathlib.Data.List.DropRight
import Mathlib.Data.List.Infix

namespace Divine.Splitting

open List

/-! ### Trimming -/

section Trimming

variable {Symbol : Type*} (skips : Symbol → Bool)

def trim (text : List Symbol) : List Symbol := (text.dropWhile skips).rdropWhile skips

variable {skips} {text lead rest : List Symbol}

/-- The text neither begins nor ends with a symbol that is skipped. -/
def Trimmed (skips : Symbol → Bool) (text : List Symbol) : Prop :=
  (∀ symbol ∈ text.head?, skips symbol = false) ∧ ∀ symbol ∈ text.getLast?, skips symbol = false

theorem dropWhile_of_head (starts : ∀ symbol ∈ text.head?, skips symbol = false) :
    text.dropWhile skips = text := by
  cases text with
  | nil => rfl
  | cons symbol rest =>
    exact dropWhile_cons_of_neg (Bool.not_eq_true _ ▸ starts symbol rfl)

theorem rdropWhile_append (ends : ∀ symbol ∈ lead.getLast?, skips symbol = false)
    (rest : List Symbol) :
    (lead ++ rest).rdropWhile skips = lead ++ rest.rdropWhile skips := by
  induction rest using reverseRecOn with
  | nil =>
    rw [append_nil, rdropWhile_nil, append_nil]
    refine rdropWhile_eq_self_iff.mpr fun nonempty => ?_
    rw [ends _ (getLast?_eq_some_getLast nonempty)]
    exact Bool.false_ne_true
  | append_singleton rest symbol ih =>
    rw [← append_assoc]
    by_cases skipped : skips symbol = true
    · rw [rdropWhile_concat_pos _ _ _ skipped, rdropWhile_concat_pos _ _ _ skipped,
        ih]
    · rw [rdropWhile_concat_neg _ _ _ skipped, rdropWhile_concat_neg _ _ _ skipped,
        append_assoc]

theorem trim_of_trimmed (trimmed : Trimmed skips text) : trim skips text = text := by
  have kept := rdropWhile_append trimmed.2 []
  rw [append_nil, rdropWhile_nil, append_nil] at kept
  rw [trim, dropWhile_of_head trimmed.1, kept]

theorem trim_between {before : List Symbol} (skipped : ∀ symbol ∈ before, skips symbol = true)
    (trimmed : Trimmed skips text) (nonempty : text ≠ []) (rest : List Symbol) :
    trim skips (before ++ text ++ rest) = text ++ rest.rdropWhile skips := by
  have starts : ∀ symbol ∈ (text ++ rest).head?, skips symbol = false := by
    rw [head?_append_of_ne_nil _ nonempty]
    exact trimmed.1
  rw [trim, append_assoc, dropWhile_append_of_pos skipped, dropWhile_of_head starts,
    rdropWhile_append trimmed.2]

end Trimming

/-! ### Lines -/

section Lines

def dropReturn (line : List Char) : List Char :=
  if line.getLast? = some '\r' then line.dropLast else line

/-- `split(/\r?\n/)`: what stands between line feeds, and a carriage return before one is left
out. -/
def splitLines (text : List Char) : List (List Char) :=
  ((text.splitOn '\n').dropLast.map dropReturn) ++ (text.splitOn '\n').getLast?.toList

inductive LineEnding where
  | lf
  | crlf
  deriving DecidableEq

def LineEnding.text : LineEnding → List Char
  | lf => ['\n']
  | crlf => ['\r', '\n']

variable {line lead rest text : List Char}

theorem prefix_dropReturn (line : List Char) : dropReturn line <+: line := by
  unfold dropReturn
  split
  · exact dropLast_prefix line
  · exact prefix_rfl

theorem dropReturn_of_ne (ends : line.getLast? ≠ some '\r') : dropReturn line = line := if_neg ends

theorem dropReturn_concat (line : List Char) : dropReturn (line ++ ['\r']) = line := by
  rw [dropReturn, if_pos getLast?_concat, dropLast_concat]

theorem dropReturn_append (nonempty : rest ≠ []) (lead : List Char) :
    dropReturn (lead ++ rest) = lead ++ dropReturn rest := by
  unfold dropReturn
  rw [getLast?_append_of_ne_nil _ nonempty, dropLast_append_of_ne_nil nonempty]
  split <;> rfl

theorem splitLines_append_cons (text rest : List Char) :
    splitLines (text ++ '\n' :: rest) = (text.splitOn '\n').map dropReturn ++ splitLines rest := by
  have nonempty : rest.splitOn '\n' ≠ [] := splitOn_ne_nil _ _
  rw [splitLines, splitOn_append_cons_self, dropLast_append_of_ne_nil nonempty,
    getLast?_append_of_ne_nil _ nonempty, map_append, append_assoc]
  rfl

theorem splitLines_nil : splitLines [] = [[]] := rfl

theorem splitLines_line (ending : LineEnding) (single : '\n' ∉ line)
    (ends : line.getLast? ≠ some '\r') (rest : List Char) :
    splitLines (line ++ ending.text ++ rest) = line :: splitLines rest := by
  cases ending with
  | lf =>
    show splitLines (line ++ ['\n'] ++ rest) = _
    rw [append_assoc, singleton_append, splitLines_append_cons,
      splitOn_eq_singleton single, map_singleton, dropReturn_of_ne ends,
      singleton_append]
  | crlf =>
    have returned : '\n' ∉ line ++ ['\r'] := by
      rw [mem_append, not_or]
      exact ⟨single, by decide⟩
    show splitLines (line ++ ['\r', '\n'] ++ rest) = _
    rw [append_assoc, show ['\r', '\n'] ++ rest = ['\r'] ++ '\n' :: rest from rfl,
      ← append_assoc, splitLines_append_cons, splitOn_eq_singleton returned,
      map_singleton, dropReturn_concat, singleton_append]

theorem infix_of_mem_splitOn (text : List Char) : ∀ piece ∈ text.splitOn '\n', piece <:+: text := by
  by_cases feeds : '\n' ∈ text
  · obtain ⟨before, after, rfl, single⟩ := eq_append_cons_of_mem feeds
    rw [splitOn_append_cons_self_of_not_mem single]
    refine forall_mem_cons.mpr ⟨(prefix_append _ _).isInfix, fun piece member => ?_⟩
    have later := infix_of_mem_splitOn after piece member
    exact later.trans ((suffix_cons _ _).trans (suffix_append _ _)).isInfix
  · rw [splitOn_eq_singleton feeds]
    exact fun piece member => mem_singleton.mp member ▸ infix_rfl
termination_by text.length

theorem splitLines_text (ending : LineEnding) (text rest : List Char) :
    ∃ lines, splitLines (text ++ ending.text ++ rest) = lines ++ splitLines rest ∧
      ∀ line ∈ lines, line <:+: text ++ ['\r'] := by
  have parts : ∀ text line, line ∈ (text.splitOn '\n').map dropReturn → line <:+: text := by
    intro text line member
    obtain ⟨piece, isPiece, rfl⟩ := mem_map.mp member
    exact (prefix_dropReturn piece).isInfix.trans (infix_of_mem_splitOn text piece isPiece)
  cases ending with
  | lf =>
    refine ⟨(text.splitOn '\n').map dropReturn, ?_, fun line member => ?_⟩
    · rw [← splitLines_append_cons, append_assoc]
      rfl
    · exact (parts text line member).trans (prefix_append _ _).isInfix
  | crlf =>
    refine ⟨((text ++ ['\r']).splitOn '\n').map dropReturn, ?_, parts _⟩
    rw [← splitLines_append_cons, append_assoc, append_assoc]
    rfl

theorem splitLines_end (ending : LineEnding) (single : '\n' ∉ lead ++ line)
    (ends : lead.getLast? ≠ some '\r') (rest : List Char) :
    ∃ kept, splitLines (lead ++ line ++ ending.text ++ rest) = (lead ++ kept) :: splitLines rest ∧
      kept <+: line := by
  by_cases returned : (lead ++ line).getLast? = some '\r'
  · cases ending with
    | lf =>
      have nonempty : line ≠ [] := by
        rintro rfl
        rw [append_nil] at returned
        exact ends returned
      refine ⟨dropReturn line, ?_, prefix_dropReturn line⟩
      show splitLines (lead ++ line ++ ['\n'] ++ rest) = _
      rw [append_assoc _ ['\n'], singleton_append, splitLines_append_cons,
        splitOn_eq_singleton single, map_singleton, dropReturn_append nonempty,
        singleton_append]
    | crlf =>
      have feeds : '\n' ∉ lead ++ line ++ ['\r'] := by
        rw [mem_append, not_or]
        exact ⟨single, by decide⟩
      refine ⟨line, ?_, prefix_rfl⟩
      show splitLines (lead ++ line ++ ['\r', '\n'] ++ rest) = _
      rw [append_assoc _ ['\r', '\n'], show ['\r', '\n'] ++ rest =
        ['\r'] ++ '\n' :: rest from rfl,
        ← append_assoc _ ['\r'], splitLines_append_cons, splitOn_eq_singleton feeds,
        map_singleton, dropReturn_concat, singleton_append]
  · exact ⟨line, splitLines_line ending single returned rest, prefix_rfl⟩

end Lines

/-! ### Occurrences -/

section Occurrences

def includes (wanted text : List Char) : Bool := text.tails.any wanted.isPrefixOf

/-- The parts between the separators, after so many symbols that belong to the last one. -/
def splitFrom (separator : List Char) : Nat → List Char → List (List Char)
  | _, [] => [[]]
  | skip + 1, _ :: rest => splitFrom separator skip rest
  | 0, symbol :: rest =>
      if separator.isPrefixOf (symbol :: rest) then
        [] :: splitFrom separator (separator.length - 1) rest
      else (splitFrom separator 0 rest).modifyHead (symbol :: ·)

def split (separator text : List Char) : List (List Char) := splitFrom separator 0 text

variable {first : Char} {more separator wanted text lead rest : List Char}

theorem includes_eq_true_iff : includes wanted text = true ↔ wanted <:+: text := by
  rw [includes, any_eq_true, infix_iff_prefix_suffix]
  refine exists_congr fun tail => ?_
  rw [mem_tails, isPrefixOf_iff_prefix, and_comm]

theorem splitFrom_skip (separator lead rest : List Char) :
    splitFrom separator lead.length (lead ++ rest) = splitFrom separator 0 rest := by
  induction lead with
  | nil => rfl
  | cons symbol lead ih => exact ih

theorem split_lead (absent : first ∉ lead) (rest : List Char) :
    split (first :: more) (lead ++ rest) =
      (split (first :: more) rest).modifyHead (lead ++ ·) := by
  induction lead with
  | nil =>
    show _ = (split (first :: more) rest).modifyHead id
    rw [modifyHead_id]
    rfl
  | cons symbol lead ih =>
    obtain ⟨other, later⟩ := not_or.mp (mt mem_cons.mpr absent)
    have mismatch : (first :: more).isPrefixOf (symbol :: (lead ++ rest)) = false := by
      rw [isPrefixOf_cons_cons, beq_false_of_ne other, Bool.false_and]
    have step : split (first :: more) (symbol :: (lead ++ rest)) =
        (split (first :: more) (lead ++ rest)).modifyHead (symbol :: ·) := by
      show (if (first :: more).isPrefixOf (symbol :: (lead ++ rest)) then _ else _) = _
      rw [mismatch]
      rfl
    rw [cons_append, step, ih later, modifyHead_modifyHead]
    rfl

theorem split_separator (rest : List Char) :
    split (first :: more) (first :: more ++ rest) = [] :: split (first :: more) rest := by
  have matched : (first :: more).isPrefixOf (first :: (more ++ rest)) = true :=
    isPrefixOf_iff_prefix.mpr (prefix_append (first :: more) rest)
  show (if (first :: more).isPrefixOf (first :: (more ++ rest)) then _ else _) = _
  rw [if_pos matched]
  exact congrArg (List.cons []) (splitFrom_skip _ more rest)

theorem split_append (absent : first ∉ lead) (rest : List Char) :
    split (first :: more) (lead ++ (first :: more ++ rest)) =
      lead :: split (first :: more) rest := by
  rw [split_lead absent, split_separator, modifyHead_cons, append_nil]

theorem exists_split (separator text : List Char) :
    ∃ part parts, split separator text = part :: parts ∧ part <+: text := by
  induction text with
  | nil => exact ⟨[], [], rfl, prefix_rfl⟩
  | cons symbol rest ih =>
    obtain ⟨part, parts, same, begins⟩ := ih
    show ∃ part parts, (if separator.isPrefixOf (symbol :: rest) then _
      else (split separator rest).modifyHead (symbol :: ·)) = part :: parts ∧ _
    split_ifs
    · exact ⟨[], _, rfl, nil_prefix⟩
    · rw [same]
      exact ⟨symbol :: part, parts, rfl, (prefix_cons_inj symbol).mpr begins⟩

end Occurrences

end Divine.Splitting
