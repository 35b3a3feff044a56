/-
This file develops the remainders that checks on messages are made of.
-/

import Mathlib.Data.Nat.Bitwise

namespace Divine.Remainder

variable {size : Nat}

def register (advance : BitVec size → BitVec size) (state : BitVec size)
    (words : List (BitVec size)) : BitVec size :=
  words.foldl (fun state word => advance state ^^^ word) state

def digits (width count : Nat) (value : BitVec size) : List (BitVec size) :=
  (List.range count).map fun index =>
    value >>> (width * (count - (index + 1))) &&& BitVec.ofNat size (2 ^ width - 1)

def Additive (advance : BitVec size → BitVec size) : Prop :=
  ∀ state other, advance (state ^^^ other) = advance state ^^^ advance other

def ShiftsBelow (advance : BitVec size → BitVec size) (width high : Nat) : Prop :=
  ∀ state, state.toNat < 2 ^ high → advance state = state <<< width

variable {advance : BitVec size → BitVec size} {width count : Nat}

@[simp] theorem register_append (state : BitVec size) (words others : List (BitVec size)) :
    register advance state (words ++ others) =
      register advance (register advance state words) others :=
  List.foldl_append

theorem Additive.register (additive : Additive advance) (state : BitVec size)
    (words : List (BitVec size)) :
    register advance state words = advance^[words.length] state ^^^ register advance 0 words := by
  have general : ∀ other : BitVec size, Remainder.register advance (state ^^^ other) words =
      advance^[words.length] state ^^^ Remainder.register advance other words := by
    induction words generalizing state with
    | nil => exact fun other => rfl
    | cons word words ih =>
      intro other
      show Remainder.register advance (advance (state ^^^ other) ^^^ word) words = _
      rw [additive, BitVec.xor_assoc, ih (advance state)]
      rfl
  have plain := general 0
  rwa [show (0 : BitVec size) = BitVec.ofNat size 0 from rfl, BitVec.xor_zero] at plain

theorem register_zeros (state : BitVec size) (count : Nat) :
    register advance state (List.replicate count 0) = advance^[count] state := by
  induction count generalizing state with
  | zero => rfl
  | succ count ih =>
    rw [List.replicate_succ, Function.iterate_succ_apply, ← ih]
    show register advance (advance state ^^^ BitVec.ofNat size 0) _ = _
    rw [BitVec.xor_zero]

theorem digits_length (value : BitVec size) : (digits width count value).length = count := by
  rw [digits, List.length_map, List.length_range]

theorem getLsbD_digit {value : BitVec size} (fits : width ≤ size) (shift index : Nat) :
    (value >>> shift &&& BitVec.ofNat size (2 ^ width - 1)).getLsbD index =
      (decide (index < width) && value.getLsbD (shift + index)) := by
  rw [BitVec.getLsbD_and, BitVec.getLsbD_ushiftRight, BitVec.getLsbD_ofNat,
    Nat.testBit_two_pow_sub_one]
  by_cases below : index < width
  · rw [decide_eq_true (Nat.lt_of_lt_of_le below fits), decide_eq_true below]
    simp
  · rw [decide_eq_false below]
    simp

theorem register_digits {value : BitVec size} (fits : width ≤ size)
    (bounded : value.toNat < 2 ^ (width * count))
    (shifts : ShiftsBelow advance width (width * (count - 1))) :
    register advance 0 (digits width count value) = value := by
  -- after each digit the register has the leading part of the value
  have leading : ∀ taken ≤ count, register advance 0 ((List.range taken).map fun index =>
      value >>> (width * (count - (index + 1))) &&& BitVec.ofNat size (2 ^ width - 1)) =
        value >>> (width * (count - taken)) := by
    intro taken
    induction taken with
    | zero =>
      intro _
      refine BitVec.eq_of_toNat_eq ?_
      rw [BitVec.toNat_ushiftRight, Nat.shiftRight_eq_div_pow, Nat.sub_zero,
        Nat.div_eq_of_lt bounded]
      rfl
    | succ taken ih =>
      intro below
      have split : count - taken = count - (taken + 1) + 1 := by omega
      rw [List.range_succ, List.map_append, register_append,
        ih (Nat.le_of_succ_le below)]
      show advance (value >>> (width * (count - taken))) ^^^
        (value >>> (width * (count - (taken + 1))) &&& BitVec.ofNat size (2 ^ width - 1)) = _
      rw [shifts]
      · refine BitVec.eq_of_getLsbD_eq fun index indexLt => ?_
        rw [BitVec.getLsbD_xor, BitVec.getLsbD_shiftLeft, BitVec.getLsbD_ushiftRight,
          getLsbD_digit fits, BitVec.getLsbD_ushiftRight, decide_eq_true indexLt, split,
          Nat.mul_succ]
        by_cases low : index < width
        · simp [low]
        · have position : width * (count - (taken + 1)) + width + (index - width) =
              width * (count - (taken + 1)) + index := by omega
          simp [low, position]
      · rw [BitVec.toNat_ushiftRight, Nat.shiftRight_eq_div_pow]
        refine Nat.div_lt_of_lt_mul ?_
        rw [← Nat.pow_add, ← Nat.mul_add]
        refine Nat.lt_of_lt_of_le bounded (Nat.pow_le_pow_right (Nat.succ_pos 1) ?_)
        exact Nat.mul_le_mul_left width (by omega)
  have all := leading count le_rfl
  rwa [Nat.sub_self, Nat.mul_zero, BitVec.ushiftRight_zero] at all

theorem register_check {state target : BitVec size} {words : List (BitVec size)}
    (additive : Additive advance) (fits : width ≤ size)
    (shifts : ShiftsBelow advance width (width * (count - 1)))
    (bounded : (register advance state (words ++ List.replicate count 0) ^^^ target).toNat <
      2 ^ (width * count)) :
    register advance state (words ++ digits width count
      (register advance state (words ++ List.replicate count 0) ^^^ target)) = target := by
  rw [register_append, additive.register _ (digits width count _), digits_length,
    register_digits fits bounded shifts, register_append, register_zeros, ← BitVec.xor_assoc,
    BitVec.xor_self, BitVec.zero_xor]

end Divine.Remainder
