/-
This file develops the decimal writing of numbers: digits with no zero before others are
what their number is written as, so that a numeral is determined by its number.
-/

import Mathlib.Data.Nat.Basic

namespace Divine.Decimal

/-! ### Numerals -/

/-- Digits, with no zero before others. -/
structure Numeral (digits : List Char) : Prop where
  nonempty : digits ≠ []
  isDigit : ∀ digit ∈ digits, digit.isDigit = true
  leading : digits.head? = some '0' → digits = ['0']

theorem numeral_toDigits (number : Nat) : Numeral (Nat.toDigits 10 number) where
  nonempty := Nat.toDigits_ne_nil
  isDigit _ member := Nat.isDigit_of_mem_toDigits (by decide) (by decide) member
  leading := by
    induction number using Nat.strongRecOn with
    | ind number ih =>
      intro zero
      by_cases small : number < 10
      · rw [Nat.toDigits_of_lt_base small] at zero ⊢
        exact congrArg (fun digit => [digit]) (Option.some.inj zero)
      · have front : (Nat.toDigits 10 (number / 10)).head? = some '0' := by
          rw [Nat.toDigits_of_base_le (by decide) (by omega), List.head?_append] at zero
          cases digits : Nat.toDigits 10 (number / 10) with
          | nil => exact absurd digits Nat.toDigits_ne_nil
          | cons first rest =>
            rw [digits] at zero
            exact zero
        have only := ih (number / 10) (by omega) front
        have none : number / 10 = 0 := by
          rw [← @Nat.ofDigitChars_ten_toDigits (number / 10), only]
          rfl
        omega

theorem digitChar_of_isDigit {digit : Char} (isDigit : digit.isDigit = true) :
    digit.toNat - '0'.toNat < 10 ∧ (digit.toNat - '0'.toNat).digitChar = digit := by
  obtain ⟨least, most⟩ : 48 ≤ digit.toNat ∧ digit.toNat ≤ 57 := by
    unfold Char.isDigit at isDigit
    exact Bool.and_eq_true_iff.mp isDigit |>.imp of_decide_eq_true of_decide_eq_true
  have small : digit.toNat - '0'.toNat < 10 := by
    show digit.toNat - 48 < 10
    omega
  refine ⟨small, Char.toNat_inj.mp ?_⟩
  rw [Nat.toNat_digitChar_of_lt_ten small]
  show 48 + (digit.toNat - 48) = digit.toNat
  omega

theorem toDigits_ofDigitChars {digits : List Char} {number : Nat} (positive : 0 < number)
    (isDigits : ∀ digit ∈ digits, digit.isDigit = true) :
    Nat.toDigits 10 (Nat.ofDigitChars 10 digits number) = Nat.toDigits 10 number ++ digits := by
  induction digits generalizing number with
  | nil => rw [Nat.ofDigitChars_nil, List.append_nil]
  | cons digit rest ih =>
    obtain ⟨small, same⟩ := digitChar_of_isDigit (isDigits digit List.mem_cons_self)
    rw [Nat.ofDigitChars_cons, ih (by omega)
      fun later member => isDigits later (List.mem_cons_of_mem digit member),
      ← Nat.toDigits_append_toDigits (by decide) positive small,
        Nat.toDigits_of_lt_base small, same,
      List.append_assoc, List.singleton_append]

theorem Numeral.toDigits {digits : List Char} (numeral : Numeral digits) :
    Nat.toDigits 10 (Nat.ofDigitChars 10 digits 0) = digits := by
  obtain ⟨nonempty, isDigits, leading⟩ := numeral
  cases digits with
  | nil => exact absurd rfl nonempty
  | cons digit rest =>
    obtain ⟨small, same⟩ := digitChar_of_isDigit (isDigits digit List.mem_cons_self)
    rw [Nat.ofDigitChars_cons, Nat.mul_zero, Nat.zero_add]
    by_cases zero : digit = '0'
    · obtain ⟨rfl, rfl⟩ := List.cons.inj (leading (congrArg some zero))
      rfl
    · have positive : 0 < digit.toNat - '0'.toNat := by
        refine Nat.pos_of_ne_zero fun absurd => zero ?_
        rw [← same, absurd]
        rfl
      rw [toDigits_ofDigitChars positive
        fun later member => isDigits later (List.mem_cons_of_mem digit member),
        Nat.toDigits_of_lt_base small, same, List.singleton_append]

theorem numeral_iff {digits : List Char} :
    Numeral digits ↔ ∃ number, Nat.toDigits 10 number = digits := by
  refine ⟨fun numeral => ⟨_, numeral.toDigits⟩, ?_⟩
  rintro ⟨number, rfl⟩
  exact numeral_toDigits number

end Divine.Decimal
