/-
This file develops base64 text: groups of three bytes are written as four letters, and a
last group of one or two bytes is filled with padding.
-/

import Mathlib.Data.Nat.Basic

namespace Divine.Base64

/-! ### Letters -/

def letter (value : Nat) : Char :=
  if value < 26 then Char.ofNat (value + 65)
  else if value < 52 then Char.ofNat (value + 71)
  else if value < 62 then Char.ofNat (value - 4)
  else if value = 62 then '+'
  else '/'

def letterValue (char : Char) : Option Nat :=
  if 'A' ≤ char ∧ char ≤ 'Z' then some (char.toNat - 65)
  else if 'a' ≤ char ∧ char ≤ 'z' then some (char.toNat - 71)
  else if '0' ≤ char ∧ char ≤ '9' then some (char.toNat + 4)
  else if char = '+' ∨ char = '-' then some 62
  else if char = '/' ∨ char = '_' then some 63
  else none

theorem letterValue_letter {value : Nat} (small : value < 64) :
    letterValue (letter value) = some value := by
  revert value
  decide

theorem letter_ascii {value : Nat} (small : value < 64) :
    letter value ≠ '#' ∧ (letter value).toNat < 128 := by
  revert value
  decide

/-! ### Writing and reading -/

def encode : List UInt8 → List Char
  | [] => []
  | [first] => [letter (first.toNat / 4), letter (first.toNat % 4 * 16), '=', '=']
  | [first, second] =>
      [letter (first.toNat / 4), letter (first.toNat % 4 * 16 + second.toNat / 16),
        letter (second.toNat % 16 * 4), '=']
  | first :: second :: third :: rest =>
      letter (first.toNat / 4) :: letter (first.toNat % 4 * 16 + second.toNat / 16) ::
        letter (second.toNat % 16 * 4 + third.toNat / 64) :: letter (third.toNat % 64) ::
          encode rest

/-- The text is so many signs of padding, each of them as it is or escaped. -/
def isPadding : Nat → List Char → Bool
  | 0, rest => rest.isEmpty
  | count + 1, '=' :: rest => isPadding count rest
  | count + 1, '%' :: '3' :: last :: rest => (last = 'D' || last = 'd') && isPadding count rest
  | _ + 1, _ => false

def firstByte (first second : Nat) : UInt8 := UInt8.ofNat (first * 4 + second / 16)
def secondByte (second third : Nat) : UInt8 := UInt8.ofNat (second * 16 + third / 4)
def thirdByte (third fourth : Nat) : UInt8 := UInt8.ofNat (third * 64 + fourth)

/-- The bytes of a last group, of which these letters were read before the rest of the text. -/
def closeGroup (pending : List Nat) (rest : List Char) : Option (List UInt8) :=
  match pending with
  | [] => if rest.isEmpty then some [] else none
  | [first, second] =>
      if second % 16 = 0 ∧ isPadding 2 rest then some [firstByte first second] else none
  | [first, second, third] =>
      if third % 4 = 0 ∧ isPadding 1 rest then
        some [firstByte first second, secondByte second third]
      else none
  | _ => none

/-- Read a text, of whose group these letters were read before. -/
def decodeFrom : List Nat → List Char → Option (List UInt8)
  | pending, [] => closeGroup pending []
  | pending, char :: rest =>
      match letterValue char with
      | none => closeGroup pending (char :: rest)
      | some value =>
          match pending with
          | [first, second, third] =>
              (decodeFrom [] rest).map fun later =>
                firstByte first second :: secondByte second third :: thirdByte third value :: later
          | _ => decodeFrom (pending ++ [value]) rest

def decode (text : List Char) : Option (List UInt8) := decodeFrom [] text

/-! ### What is written is read -/

theorem length_encode (bytes : List UInt8) :
    (encode bytes).length = 4 * ((bytes.length + 2) / 3) := by
  induction bytes using encode.induct with
  | case1 => simp [encode]
  | case2 => simp [encode]
  | case3 => simp [encode]
  | case4 first second third rest ih =>
    simp only [encode, List.length_cons, ih]
    omega

theorem encode_ascii {bytes : List UInt8} {char : Char} (member : char ∈ encode bytes) :
    char ≠ '#' ∧ char.toNat < 128 := by
  induction bytes using encode.induct with
  | case1 => cases member
  | case2 first =>
    have firstLt := first.toNat_lt
    simp only [encode, List.mem_cons, List.not_mem_nil, or_false] at member
    rcases member with rfl | rfl | rfl | rfl
    · exact letter_ascii (by omega)
    · exact letter_ascii (by omega)
    · decide
    · decide
  | case3 first second =>
    have firstLt := first.toNat_lt
    have secondLt := second.toNat_lt
    simp only [encode, List.mem_cons, List.not_mem_nil, or_false] at member
    rcases member with rfl | rfl | rfl | rfl
    · exact letter_ascii (by omega)
    · exact letter_ascii (by omega)
    · exact letter_ascii (by omega)
    · decide
  | case4 first second third rest ih =>
    have firstLt := first.toNat_lt
    have secondLt := second.toNat_lt
    have thirdLt := third.toNat_lt
    simp only [encode, List.mem_cons] at member
    rcases member with rfl | rfl | rfl | rfl | later
    · exact letter_ascii (by omega)
    · exact letter_ascii (by omega)
    · exact letter_ascii (by omega)
    · exact letter_ascii (by omega)
    · exact ih later

theorem firstByte_eq (first : UInt8) {carried : Nat} (small : carried < 16) :
    firstByte (first.toNat / 4) (first.toNat % 4 * 16 + carried) = first := by
  have joined : first.toNat / 4 * 4 + (first.toNat % 4 * 16 + carried) / 16 = first.toNat := by
    omega
  unfold firstByte
  rw [joined, UInt8.ofNat_toNat]

theorem secondByte_eq (second : UInt8) {before carried : Nat} (small : carried < 4) :
    secondByte (before * 16 + second.toNat / 16) (second.toNat % 16 * 4 + carried) = second := by
  unfold secondByte
  refine UInt8.toNat_inj.mp ?_
  have secondLt := second.toNat_lt
  rw [UInt8.toNat_ofNat']
  omega

theorem thirdByte_eq (third : UInt8) (before : Nat) :
    thirdByte (before * 4 + third.toNat / 64) (third.toNat % 64) = third := by
  unfold thirdByte
  refine UInt8.toNat_inj.mp ?_
  have thirdLt := third.toNat_lt
  rw [UInt8.toNat_ofNat']
  omega

theorem decodeFrom_letter {pending : List Nat} {value : Nat} {rest : List Char}
    (small : value < 64) (short : pending.length < 3) :
    decodeFrom pending (letter value :: rest) = decodeFrom (pending ++ [value]) rest := by
  rw [decodeFrom, letterValue_letter small]
  rcases pending with _ | ⟨first, _ | ⟨second, _ | ⟨third, more⟩⟩⟩
  · rfl
  · rfl
  · rfl
  · exact absurd short (by simp only [List.length_cons]; omega)

theorem decodeFrom_last {first second third value : Nat} {rest : List Char} (small : value < 64) :
    decodeFrom [first, second, third] (letter value :: rest) =
      (decodeFrom [] rest).map fun later =>
        firstByte first second :: secondByte second third :: thirdByte third value :: later := by
  rw [decodeFrom, letterValue_letter small]

theorem decode_encode (bytes : List UInt8) : decode (encode bytes) = some bytes := by
  unfold decode
  induction bytes using encode.induct with
  | case1 => simp [encode, decodeFrom, closeGroup]
  | case2 first =>
    have firstLt := first.toNat_lt
    have whole := @firstByte_eq first 0 (by omega)
    rw [encode, decodeFrom_letter (by omega) (by simp), decodeFrom_letter (by omega) (by simp)]
    show closeGroup [first.toNat / 4, first.toNat % 4 * 16] ['=', '='] = _
    rw [closeGroup, if_pos ⟨by omega, rfl⟩]
    exact congrArg (fun byte => some [byte]) whole
  | case3 first second =>
    have firstLt := first.toNat_lt
    have secondLt := second.toNat_lt
    rw [encode, decodeFrom_letter (by omega) (by simp), decodeFrom_letter (by omega) (by simp),
      decodeFrom_letter (by omega) (by simp)]
    show closeGroup [first.toNat / 4, first.toNat % 4 * 16 + second.toNat / 16,
      second.toNat % 16 * 4] ['='] = _
    rw [closeGroup, if_pos ⟨by omega, rfl⟩, firstByte_eq first (by omega)]
    exact congrArg (fun byte => some [first, byte]) (@secondByte_eq second _ 0 (by omega))
  | case4 first second third rest ih =>
    have firstLt := first.toNat_lt
    have secondLt := second.toNat_lt
    have thirdLt := third.toNat_lt
    rw [encode, decodeFrom_letter (by omega) (by simp), decodeFrom_letter (by omega) (by simp),
      decodeFrom_letter (by omega) (by simp)]
    show decodeFrom [_, _, _] _ = _
    rw [decodeFrom_last (by omega), ih, Option.map_some,
      firstByte_eq first (by omega), secondByte_eq second (by omega), thirdByte_eq]

end Divine.Base64
