/-
This file develops sequences of bits cut into words of a fixed width.
-/

import Mathlib.Algebra.Group.Nat.Defs
import Mathlib.Data.List.Basic

namespace Divine.Bits

open List

/-- The low bits of a number, the most significant first. -/
def bits : Nat → Nat → List Bool
  | 0, _ => []
  | width + 1, value => value.testBit width :: bits width value

def flatBits (width : Nat) (values : List Nat) : List Bool := values.flatMap (bits width)

variable {width held count value other : Nat} {values others : List Nat}

@[simp] theorem bits_length (width value : Nat) : (bits width value).length = width := by
  induction width with
  | zero => rfl
  | succ width ih => rw [bits, length_cons, ih]

theorem bits_eq_iff :
    bits width value = bits width other ↔
      ∀ index < width, value.testBit index = other.testBit index := by
  induction width with
  | zero => exact ⟨fun _ _ below => (Nat.not_lt_zero _ below).elim, fun _ => rfl⟩
  | succ width ih =>
    rw [bits, bits, List.cons.injEq, ih, Nat.forall_lt_succ_right]
    exact and_comm

theorem bits_eq_replicate_false_iff :
    bits width value = List.replicate width false ↔
      ∀ index < width, value.testBit index = false := by
  have zero : bits width 0 = replicate width false := by
    induction width with
    | zero => rfl
    | succ width ih =>
      rw [bits, replicate_succ, ih, Nat.zero_testBit]
  rw [← zero, bits_eq_iff]
  exact forall₂_congr fun index _ => by rw [Nat.zero_testBit]

theorem eq_of_bits_eq (valueLt : value < 2 ^ width) (otherLt : other < 2 ^ width)
    (same : bits width value = bits width other) : value = other := by
  refine Nat.eq_of_testBit_eq fun index => ?_
  by_cases below : index < width
  · exact bits_eq_iff.mp same index below
  · have above : 2 ^ width ≤ 2 ^ index :=
      Nat.pow_le_pow_right (Nat.succ_pos 1) (Nat.le_of_not_lt below)
    rw [Nat.testBit_lt_two_pow (Nat.lt_of_lt_of_le valueLt above),
      Nat.testBit_lt_two_pow (Nat.lt_of_lt_of_le otherLt above)]

theorem bits_add (count width value : Nat) :
    bits (count + width) value = bits count (value >>> width) ++ bits width value := by
  induction count with
  | zero => rw [Nat.zero_add, bits, nil_append]
  | succ count ih =>
    rw [Nat.succ_add, bits, bits, ih, Nat.testBit_shiftRight, Nat.add_comm width,
      cons_append]

theorem bits_mask (width value : Nat) : bits width (value &&& (2 ^ width - 1)) =
    bits width value := by
  refine bits_eq_iff.mpr fun index below => ?_
  rw [Nat.and_two_pow_sub_one_eq_mod, Nat.testBit_mod_two_pow, decide_eq_true below,
    Bool.true_and]

theorem bits_mod (below : width ≤ count) (value : Nat) :
    bits width (value % 2 ^ count) = bits width value := by
  refine bits_eq_iff.mpr fun index indexLt => ?_
  rw [Nat.testBit_mod_two_pow, decide_eq_true (Nat.lt_of_lt_of_le indexLt below), Bool.true_and]

theorem bits_shiftLeft_or (valueLt : value < 2 ^ width) (held accumulator : Nat) :
    bits (held + width) (accumulator <<< width ||| value) =
      bits held accumulator ++ bits width value := by
  have high : (accumulator <<< width ||| value) >>> width = accumulator := by
    refine Nat.eq_of_testBit_eq fun index => ?_
    have above : value < 2 ^ (width + index) :=
      Nat.lt_of_lt_of_le valueLt (Nat.pow_le_pow_right (Nat.succ_pos 1) (Nat.le_add_right _ _))
    rw [Nat.testBit_shiftRight, Nat.testBit_or, Nat.testBit_shiftLeft, Nat.testBit_lt_two_pow above,
      Bool.or_false, decide_eq_true (Nat.le_add_right width index), Bool.true_and,
      Nat.add_sub_cancel_left]
  have low : bits width (accumulator <<< width ||| value) = bits width value := by
    refine bits_eq_iff.mpr fun index below => ?_
    rw [Nat.testBit_or, Nat.testBit_shiftLeft, decide_eq_false (Nat.not_le_of_lt below),
      Bool.false_and, Bool.false_or]
  rw [bits_add, high, low]

/-! ### Words -/

@[simp] theorem flatBits_nil (width : Nat) : flatBits width [] = [] := rfl

@[simp] theorem flatBits_cons (width value : Nat) (values : List Nat) :
    flatBits width (value :: values) = bits width value ++ flatBits width values :=
  flatMap_cons

@[simp] theorem flatBits_append (width : Nat) (values others : List Nat) :
    flatBits width (values ++ others) = flatBits width values ++ flatBits width others :=
  flatMap_append

@[simp] theorem flatBits_length (width : Nat) (values : List Nat) :
    (flatBits width values).length = width * values.length := by
  induction values with
  | nil => rfl
  | cons value values ih =>
    rw [flatBits_cons, length_append, bits_length, ih, length_cons,
      Nat.mul_succ, Nat.add_comm]

theorem eq_of_flatBits_eq (lengths : values.length = others.length)
    (valuesLt : ∀ value ∈ values, value < 2 ^ width)
      (othersLt : ∀ other ∈ others, other < 2 ^ width)
    (same : flatBits width values = flatBits width others) : values = others := by
  induction values generalizing others with
  | nil => exact (length_eq_zero_iff.mp lengths.symm).symm
  | cons value values ih =>
    cases others with
    | nil => cases lengths
    | cons other others =>
      rw [flatBits_cons, flatBits_cons] at same
      obtain ⟨head, tail⟩ := append_inj same (by rw [bits_length, bits_length])
      rw [eq_of_bits_eq (valuesLt value mem_cons_self) (othersLt other mem_cons_self) head,
        ih (Nat.succ.inj lengths)
          (fun value member => valuesLt value (mem_cons_of_mem _ member))
          (fun other member => othersLt other (mem_cons_of_mem _ member)) tail]

end Divine.Bits
