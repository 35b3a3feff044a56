/-
This file develops the patterns of SQL.
-/

import Mathlib.Data.List.Forall2
import Mathlib.Data.List.Infix

namespace Divine.Patterns

open List

/-! ### Tokens -/

/-- `never` fits nothing. -/
inductive Token where
  | any
  | one
  | char (character : Char)
  | oneOf (invert : Bool) (ranges : List (Char × Char))
  | never
  deriving DecidableEq

def Token.accepts (same : Char → Char → Bool) (found : Char) : Token → Bool
  | .one => true
  | .char character => same character found
  | .oneOf invert ranges =>
      xor invert (ranges.any fun range => decide (range.1 ≤ found ∧ found ≤ range.2))
  | .any | .never => false

def fits (same : Char → Char → Bool) : List Token → List Char → Bool
  | [], text => text.isEmpty
  | token :: rest, text =>
      if token = .any then text.tails.any (fits same rest)
      else
        match text with
        | [] => false
        | found :: later => token.accepts same found && fits same rest later

variable {same : Char → Char → Bool} {tokens first second : List Token} {text : List Char}

theorem fits_nil {token : Token} (notAny : token ≠ .any) :
    fits same (token :: tokens) [] = false :=
  if_neg notAny

theorem fits_cons_cons {token : Token} (notAny : token ≠ .any) (found : Char) (later : List Char) :
    fits same (token :: tokens) (found :: later) =
      (token.accepts same found && fits same tokens later) :=
  if_neg notAny

theorem fits_any_cons :
    fits same (.any :: tokens) text = true ↔
      ∃ skipped rest, text = skipped ++ rest ∧ fits same tokens rest = true := by
  have tails : fits same (.any :: tokens) text = text.tails.any (fits same tokens) := if_pos rfl
  rw [tails, any_eq_true]
  constructor
  · rintro ⟨rest, suffix, fit⟩
    obtain ⟨skipped, rfl⟩ := (mem_tails _ _).mp suffix
    exact ⟨skipped, rest, rfl, fit⟩
  · rintro ⟨skipped, rest, rfl, fit⟩
    exact ⟨rest, (mem_tails _ _).mpr (suffix_append skipped rest), fit⟩

theorem fits_cons {token : Token} (notAny : token ≠ .any) :
    fits same (token :: tokens) text = true ↔
      ∃ found later, text = found :: later ∧ token.accepts same found = true ∧
        fits same tokens later = true := by
  cases text with
  | nil =>
    refine iff_of_false (fun fit => ?_) ?_
    · rw [fits_nil notAny] at fit
      cases fit
    · rintro ⟨_, _, same, -⟩
      cases same
  | cons found later =>
    rw [fits_cons_cons notAny, Bool.and_eq_true]
    constructor
    · exact fun ⟨accepted, fit⟩ => ⟨found, later, rfl, accepted, fit⟩
    · rintro ⟨_, _, same, accepted, fit⟩
      obtain ⟨rfl, rfl⟩ := List.cons.inj same
      exact ⟨accepted, fit⟩

theorem fits_append :
    fits same (first ++ second) text = true ↔
      ∃ before after, text = before ++ after ∧ fits same first before = true ∧
        fits same second after = true := by
  induction first generalizing text with
  | nil =>
    constructor
    · exact fun fit => ⟨[], text, rfl, rfl, fit⟩
    · rintro ⟨before, after, rfl, empty, fit⟩
      rw [isEmpty_iff.mp empty]
      exact fit
  | cons token rest ih =>
    rw [cons_append]
    by_cases isAny : token = .any
    · subst isAny
      simp only [fits_any_cons, ih]
      constructor
      · rintro ⟨skipped, _, rfl, before, after, rfl, fit, fitAfter⟩
        exact ⟨skipped ++ before, after, (append_assoc _ _ _).symm,
          ⟨skipped, before, rfl, fit⟩, fitAfter⟩
      · rintro ⟨_, after, rfl, ⟨skipped, before, rfl, fit⟩, fitAfter⟩
        exact ⟨skipped, before ++ after, append_assoc _ _ _, before, after, rfl, fit, fitAfter⟩
    · simp only [fits_cons isAny, ih]
      constructor
      · rintro ⟨found, _, rfl, accepted, before, after, rfl, fit, fitAfter⟩
        exact ⟨found :: before, after, rfl, ⟨found, before, rfl, accepted, fit⟩, fitAfter⟩
      · rintro ⟨_, after, rfl, ⟨found, before, rfl, accepted, fit⟩, fitAfter⟩
        exact ⟨found, before ++ after, rfl, accepted, before, after, rfl, fit, fitAfter⟩

theorem fits_any : fits same [.any] text = true :=
  fits_any_cons.mpr ⟨text, [], (append_nil text).symm, rfl⟩

theorem fits_chars {characters : List Char} :
    fits same (characters.map .char) text = true ↔
      List.Forall₂ (fun character found => same character found = true) characters text := by
  induction characters generalizing text with
  | nil => exact isEmpty_iff.trans forall₂_nil_left_iff.symm
  | cons character rest ih =>
    rw [map_cons, fits_cons Token.noConfusion, forall₂_cons_left_iff]
    simp only [ih]
    constructor
    · rintro ⟨found, later, rfl, accepted, fit⟩
      exact ⟨found, later, accepted, fit, rfl⟩
    · rintro ⟨found, later, accepted, fit, rfl⟩
      exact ⟨found, later, rfl, accepted, fit⟩

/-! ### LIKE -/

def sameLetter (first second : Char) : Bool := first.toLower = second.toLower

def likeToken (character : Char) : Token :=
  if character = '%' then .any else if character = '_' then .one else .char character

def like (pattern text : List Char) : Bool := fits sameLetter (pattern.map likeToken) text

section Like

variable {pattern later text : List Char}

theorem like_append :
    like (pattern ++ later) text = true ↔
      ∃ before after, text = before ++ after ∧ like pattern before = true ∧
        like later after = true := by
  unfold like
  rw [map_append]
  exact fits_append

theorem like_percent_cons :
    like ('%' :: pattern) text = true ↔
      ∃ skipped rest, text = skipped ++ rest ∧ like pattern rest = true :=
  fits_any_cons

theorem like_percent : like ['%'] text = true := fits_any

theorem like_inside :
    like ('%' :: (pattern ++ ['%'])) text = true ↔
      ∃ before part after, text = before ++ (part ++ after) ∧ like pattern part = true := by
  rw [like_percent_cons]
  simp only [like_append]
  constructor
  · rintro ⟨before, _, rfl, part, after, rfl, fit, -⟩
    exact ⟨before, part, after, rfl, fit⟩
  · rintro ⟨before, part, after, rfl, fit⟩
    exact ⟨before, part ++ after, rfl, part, after, rfl, fit, like_percent⟩

theorem like_of_forall₂
    (spelled : List.Forall₂ (fun character found => sameLetter character found = true) pattern
      text) : like pattern text = true := by
  unfold like
  induction spelled with
  | nil => rfl
  | @cons character found rest later letter _ ih =>
    rw [map_cons]
    unfold likeToken
    split
    · exact fits_any_cons.mpr ⟨[found], later, rfl, ih⟩
    · split
      · exact (fits_cons Token.noConfusion).mpr ⟨found, later, rfl, rfl, ih⟩
      · exact (fits_cons Token.noConfusion).mpr ⟨found, later, rfl, letter, ih⟩

end Like

/-! ### GLOB -/

/-- A set being read: inverted or not, its ranges, and the character a range may start with. -/
structure OpenSet where
  invert : Bool
  ranges : List (Char × Char)
  prior : Option Char
  deriving DecidableEq

/-- Where a character is read: outside of sets, after [ or [^, in a set, or after the - of a range.
-/
inductive GlobPlace where
  | outside
  | opened
  | inverted
  | inside (held : OpenSet)
  | ranging (held : OpenSet) (start : Char)
  deriving DecidableEq

/-- A character of a set that does not close it. A - between two characters makes a range of them.
-/
def OpenSet.read (held : OpenSet) (character : Char) (rest : List Char) : GlobPlace :=
  match held.prior with
  | some start =>
      if character = '-' ∧ rest ≠ [] ∧ rest.head? ≠ some ']' then .ranging held start
      else .inside { held with
        ranges := held.ranges ++ [(character, character)]
        prior := some character }
  | none => .inside { held with
      ranges := held.ranges ++ [(character, character)]
      prior := some character }

/-- The tokens of the rest of a pattern. A ] that is first in a set belongs to it. -/
def globTokensFrom : GlobPlace → List Char → List Token
  | .outside, [] => []
  | _, [] => [.never]
  | .outside, character :: rest =>
      if character = '*' then .any :: globTokensFrom .outside rest
      else if character = '?' then .one :: globTokensFrom .outside rest
      else if character = '[' then globTokensFrom .opened rest
      else .char character :: globTokensFrom .outside rest
  | .opened, character :: rest =>
      if character = '^' then globTokensFrom .inverted rest
      else if character = ']' then globTokensFrom (.inside ⟨false, [(']', ']')], none⟩) rest
      else globTokensFrom (OpenSet.read ⟨false, [], none⟩ character rest) rest
  | .inverted, character :: rest =>
      if character = ']' then globTokensFrom (.inside ⟨true, [(']', ']')], none⟩) rest
      else globTokensFrom (OpenSet.read ⟨true, [], none⟩ character rest) rest
  | .inside held, character :: rest =>
      if character = ']' then .oneOf held.invert held.ranges :: globTokensFrom .outside rest
      else globTokensFrom (held.read character rest) rest
  | .ranging held start, character :: rest =>
      globTokensFrom (.inside { held with
        ranges := held.ranges ++ [(start, character)]
        prior := none }) rest

def globTokens : List Char → List Token := globTokensFrom .outside

def glob (pattern text : List Char) : Bool :=
  fits (fun character found => character = found) (globTokens pattern) text

example : glob "a[b-d]*".toList "acre".toList = true := by decide

theorem globTokens_plain {plain : List Char}
    (noWildcard : ∀ character ∈ plain, character ≠ '*' ∧ character ≠ '?' ∧ character ≠ '[')
    (pattern : List Char) : globTokens (plain ++ pattern) =
      plain.map .char ++ globTokens pattern := by
  induction plain with
  | nil => rfl
  | cons character rest ih =>
    obtain ⟨⟨star, question, bracket⟩, others⟩ := forall_mem_cons.mp noWildcard
    unfold globTokens at ih ⊢
    rw [cons_append, globTokensFrom, if_neg star, if_neg question, if_neg bracket,
      ih others]
    rfl

theorem glob_star_cons {pattern text : List Char} :
    glob ('*' :: pattern) text = true ↔
      ∃ skipped rest, text = skipped ++ rest ∧ glob pattern rest = true :=
  fits_any_cons

theorem glob_plain_append {plain pattern text : List Char}
    (noWildcard : ∀ character ∈ plain, character ≠ '*' ∧ character ≠ '?' ∧ character ≠ '[') :
    glob (plain ++ pattern) text = true ↔
      ∃ rest, text = plain ++ rest ∧ glob pattern rest = true := by
  unfold glob
  rw [globTokens_plain noWildcard, fits_append]
  simp only [fits_chars, decide_eq_true_eq, forall₂_eq_eq_eq]
  constructor
  · rintro ⟨_, rest, rfl, rfl, fit⟩
    exact ⟨rest, rfl, fit⟩
  · rintro ⟨rest, rfl, fit⟩
    exact ⟨plain, rest, rfl, rfl, fit⟩

end Divine.Patterns
