/-
This file develops the numbers that ECMAScript reads from texts, as exact rational
numbers: the digits at the beginning of a text, with a sign, a fraction and an exponent,
after white space and before anything else.
-/

import Mathlib.Algebra.Field.Basic
import Mathlib.Algebra.Field.Rat
import Mathlib.Data.List.Basic

namespace Divine.NumberText

/-! ### Numbers -/

inductive ParsedNumber where
  | finite (value : ℚ)
  | infinite (negative : Bool)
  | nan
  deriving DecidableEq

namespace ParsedNumber

def isNaN : ParsedNumber → Bool
  | nan => true
  | finite _ | infinite _ => false

def add : ParsedNumber → ParsedNumber → ParsedNumber
  | nan, _ | _, nan => nan
  | finite value, finite other => finite (value + other)
  | infinite negative, finite _ | finite _, infinite negative => infinite negative
  | infinite negative, infinite other => if negative = other then infinite negative else nan

def scale (factor : ℕ) : ParsedNumber → ParsedNumber
  | finite value => finite (value * factor)
  | infinite negative => infinite negative
  | nan => nan

end ParsedNumber

/-! ### Reading -/

def readSign : List Char → Bool × List Char
  | '-' :: rest => (true, rest)
  | '+' :: rest => (false, rest)
  | text => (false, text)

/-- The number that the digits at the beginning of a text write, zero when there are none. -/
def leadingDigits (text : List Char) : ℕ := Nat.ofDigitChars 10 (text.takeWhile Char.isDigit) 0

def applySign (negative : Bool) (value : ℚ) : ℚ := if negative then -value else value

def parseInt (skips : Char → Bool) (text : List Char) : ParsedNumber :=
  let read := readSign (text.dropWhile skips)
  if read.2.takeWhile Char.isDigit = [] then .nan
  else .finite (applySign read.1 (leadingDigits read.2))

def readFraction : List Char → List Char × List Char
  | '.' :: rest => (rest.takeWhile Char.isDigit, rest.dropWhile Char.isDigit)
  | text => ([], text)

def readExponent : List Char → ℤ
  | 'e' :: rest | 'E' :: rest =>
      let read := readSign rest
      if read.1 then -Int.ofNat (leadingDigits read.2) else Int.ofNat (leadingDigits read.2)
  | _ => 0

def shift : ℤ → ℚ
  | .ofNat exponent => ((10 ^ exponent : ℕ) : ℚ)
  | .negSucc exponent => 1 / ((10 ^ (exponent + 1) : ℕ) : ℚ)

def parseFloat (skips : Char → Bool) (text : List Char) : ParsedNumber :=
  let read := readSign (text.dropWhile skips)
  if "Infinity".toList.isPrefixOf read.2 then .infinite read.1
  else
    let whole := read.2.takeWhile Char.isDigit
    let fraction := readFraction (read.2.dropWhile Char.isDigit)
    if whole = [] ∧ fraction.1 = [] then .nan
    else .finite (applySign read.1 (Nat.ofDigitChars 10 (whole ++ fraction.1) 0 *
      shift (readExponent fraction.2 - fraction.1.length)))

/-! ### Padded numerals -/

def padded (count number : ℕ) : List Char :=
  List.replicate (count - (Nat.toDigits 10 number).length) '0' ++ Nat.toDigits 10 number

variable {skips : Char → Bool} {count number : ℕ} {text rest : List Char}

theorem isDigit_of_mem_padded : ∀ digit ∈ padded count number, digit.isDigit = true := by
  intro digit member
  rcases List.mem_append.mp member with zero | own
  · rw [List.eq_of_mem_replicate zero]
    rfl
  · exact Nat.isDigit_of_mem_toDigits (by decide) (by decide) own

theorem padded_ne_nil (count number : ℕ) : padded count number ≠ [] :=
  List.append_ne_nil_of_right_ne_nil _ Nat.toDigits_ne_nil

theorem ofDigitChars_padded (count number : ℕ) :
    Nat.ofDigitChars 10 (padded count number) 0 = number := by
  rw [padded, Nat.ofDigitChars_append, Nat.ofDigitChars_replicate_zero, Nat.mul_zero,
    Nat.ofDigitChars_ten_toDigits]

theorem padded_length (count number : ℕ) (positive : 0 < count) (fits : number < 10 ^ count) :
    (padded count number).length = count := by
  have short : (Nat.toDigits 10 number).length ≤ count :=
    (Nat.length_toDigits_le_iff (by decide) positive).mpr fits
  rw [padded, List.length_append, List.length_replicate]
  omega

theorem readSign_digits (visible : ∀ symbol : Char, symbol.isDigit = true → skips symbol = false)
    (digits : ∀ symbol ∈ text.head?, symbol.isDigit = true) (nonempty : text ≠ []) :
    readSign (text.dropWhile skips) = (false, text) := by
  cases text with
  | nil => exact absurd rfl nonempty
  | cons symbol rest =>
    have digit := digits symbol rfl
    rw [List.dropWhile_cons_of_neg (by rw [visible symbol digit]; exact Bool.false_ne_true)]
    unfold readSign
    split
    · rename_i same
      rw [(List.cons.inj same).1] at digit
      cases digit
    · rename_i same
      rw [(List.cons.inj same).1] at digit
      cases digit
    · rfl

theorem head_padded (count number : ℕ) (rest : List Char) :
    ∀ symbol ∈ (padded count number ++ rest).head?, symbol.isDigit = true := by
  rw [List.head?_append_of_ne_nil _ (padded_ne_nil count number)]
  exact fun symbol member => isDigit_of_mem_padded symbol (List.mem_of_head? member)

theorem takeWhile_padded (ends : ∀ symbol ∈ rest.head?, symbol.isDigit = false) :
    (padded count number ++ rest).takeWhile Char.isDigit = padded count number ∧
      (padded count number ++ rest).dropWhile Char.isDigit = rest := by
  rw [List.takeWhile_append_of_pos isDigit_of_mem_padded,
    List.dropWhile_append_of_pos isDigit_of_mem_padded]
  cases rest with
  | nil => exact ⟨List.append_nil _, rfl⟩
  | cons symbol later =>
    have stops : ¬symbol.isDigit = true := by
      rw [ends symbol rfl]
      exact Bool.false_ne_true
    rw [List.takeWhile_cons_of_neg stops, List.dropWhile_cons_of_neg stops]
    exact ⟨List.append_nil _, rfl⟩

theorem parseInt_padded (visible : ∀ symbol : Char, symbol.isDigit = true → skips symbol = false)
    (count number : ℕ) : parseInt skips (padded count number) = .finite number := by
  have nonempty := padded_ne_nil count number
  have digits := head_padded count number []
  have taken := (@takeWhile_padded count number [] (by simp)).1
  rw [List.append_nil] at digits taken
  have read := readSign_digits visible digits nonempty
  simp only [parseInt, read, taken, leadingDigits, ofDigitChars_padded, if_neg nonempty]
  rfl

theorem shift_neg {places : ℕ} (positive : 0 < places) :
    shift (0 - places) = 1 / ((10 ^ places : ℕ) : ℚ) := by
  obtain ⟨before, rfl⟩ := Nat.exists_eq_succ_of_ne_zero positive.ne'
  rfl

theorem parseFloat_padded (visible : ∀ symbol : Char, symbol.isDigit = true → skips symbol = false)
    (count number : ℕ) {places decimals : ℕ} (positive : 0 < places)
      (fits : decimals < 10 ^ places) :
    parseFloat skips (padded count number ++ '.' :: padded places decimals) =
      .finite (number + decimals / (10 ^ places : ℕ)) := by
  have point : ∀ symbol ∈ ('.' :: padded places decimals).head?, symbol.isDigit = false := by
    intro symbol member
    cases member
    rfl
  have nonempty : padded count number ++ '.' :: padded places decimals ≠ [] :=
    List.append_ne_nil_of_left_ne_nil (padded_ne_nil count number) _
  have read := readSign_digits visible (head_padded count number _) nonempty
  obtain ⟨taken, left⟩ := @takeWhile_padded count number _ point
  obtain ⟨takenPlaces, leftPlaces⟩ := @takeWhile_padded places decimals [] (by simp)
  rw [List.append_nil] at takenPlaces leftPlaces
  have finite : "Infinity".toList.isPrefixOf
      (padded count number ++ '.' :: padded places decimals) = false := by
    rw [← Bool.not_eq_true, List.isPrefixOf_iff_prefix]
    rintro ⟨later, same⟩
    have digit := head_padded count number ('.' :: padded places decimals) 'I' (by rw [← same]; rfl)
    cases digit
  have whole : ¬(padded count number = [] ∧ padded places decimals = []) :=
    fun empty => padded_ne_nil count number empty.1
  simp only [parseFloat, read, finite, taken, left, readFraction, takenPlaces, leftPlaces,
    if_neg whole, readExponent, Nat.ofDigitChars_append, ofDigitChars_padded]
  rw [if_neg Bool.false_ne_true, Nat.ofDigitChars_eq_ofDigitChars_zero, ofDigitChars_padded,
    padded_length places decimals positive fits, shift_neg positive]
  have power : ((10 ^ places : ℕ) : ℚ) ≠ 0 := Nat.cast_ne_zero.mpr (Nat.pow_pos (by decide)).ne'
  show ParsedNumber.finite
    (((10 ^ places * number + decimals : ℕ) : ℚ) * (1 / ((10 ^ places : ℕ) : ℚ))) = _
  rw [Nat.cast_add, Nat.cast_mul, mul_one_div, add_div, mul_div_cancel_left₀ _ power]

end Divine.NumberText
