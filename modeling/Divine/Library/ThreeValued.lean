/-
This file gives the truth values of SQL, where a comparison with a null is neither true
nor false, and what a `WHERE` clause keeps: the rows of which the condition is true.
-/

import Mathlib.Data.List.Basic

namespace Divine.ThreeValued

inductive Truth where
  | holds
  | fails
  | unknown
  deriving DecidableEq

namespace Truth

/-- Whether a `WHERE` clause keeps the row. -/
def keeps : Truth → Bool
  | holds => true
  | fails | unknown => false

def ofBool : Bool → Truth
  | true => holds
  | false => fails

def not : Truth → Truth
  | holds => fails
  | fails => holds
  | unknown => unknown

def and : Truth → Truth → Truth
  | fails, _ | _, fails => fails
  | holds, other | other, holds => other
  | unknown, unknown => unknown

def or (first second : Truth) : Truth := (first.not.and second.not).not

end Truth

variable {Value : Type*} [DecidableEq Value]

def equal : Option Value → Option Value → Truth
  | some first, some second => .ofBool (first = second)
  | _, _ => .unknown

def isIn (value : Option Value) (candidates : List (Option Value)) : Truth :=
  candidates.foldr (fun candidate found => (equal value candidate).or found) .fails

/-! ### Conditions that are true -/

@[simp] theorem keeps_and (first second : Truth) :
    (first.and second).keeps = (first.keeps && second.keeps) := by
  cases first <;> cases second <;> rfl

@[simp] theorem keeps_or (first second : Truth) :
    (first.or second).keeps = (first.keeps || second.keeps) := by
  cases first <;> cases second <;> rfl

@[simp] theorem keeps_not_or (first second : Truth) :
    (first.or second).not.keeps = (first.not.keeps && second.not.keeps) := by
  cases first <;> cases second <;> rfl

@[simp] theorem keeps_equal (first second : Option Value) :
    (equal first second).keeps = true ↔ ∃ value, first = some value ∧ second = some value := by
  cases first with
  | none => simp [equal, Truth.keeps]
  | some first =>
    cases second with
    | none => simp [equal, Truth.keeps]
    | some second =>
      by_cases same : first = second
      · simp [equal, Truth.ofBool, Truth.keeps, same]
      · simp [equal, Truth.ofBool, Truth.keeps, same, Ne.symm same]

theorem keeps_not_equal (first second : Option Value) :
    (equal first second).not.keeps = true ↔ ∃ value other, first = some value ∧
      second = some other ∧ value ≠ other := by
  cases first with
  | none => simp [equal, Truth.not, Truth.keeps]
  | some first =>
    cases second with
    | none => simp [equal, Truth.not, Truth.keeps]
    | some second =>
      by_cases same : first = second
      · simp [equal, Truth.ofBool, Truth.not, Truth.keeps, same]
      · simp [equal, Truth.ofBool, Truth.not, Truth.keeps, same]

theorem keeps_isIn {value : Option Value} {candidates : List (Option Value)} :
    (isIn value candidates).keeps = true ↔ ∃ found, value = some found ∧ value ∈ candidates := by
  induction candidates with
  | nil => simp [isIn, Truth.keeps]
  | cons candidate rest ih =>
    show ((equal value candidate).or (isIn value rest)).keeps = true ↔ _
    rw [keeps_or, Bool.or_eq_true, keeps_equal, ih, ← exists_or]
    refine exists_congr fun found => ?_
    rw [← and_or_left, List.mem_cons]
    exact and_congr_right fun same => by rw [same, eq_comm]

/-- `value NOT IN (candidates)` is never true of or beside a null, but of everything when there is
no candidate. -/
theorem keeps_not_isIn {value : Option Value} {candidates : List (Option Value)} :
    (isIn value candidates).not.keeps = true ↔
      ∀ candidate ∈ candidates, ∃ own other, value = some own ∧ candidate = some other ∧
        own ≠ other := by
  induction candidates with
  | nil => simp [isIn, Truth.not, Truth.keeps]
  | cons candidate rest ih =>
    show ((equal value candidate).or (isIn value rest)).not.keeps = true ↔ _
    rw [keeps_not_or, Bool.and_eq_true, keeps_not_equal, ih, List.forall_mem_cons]

end Divine.ThreeValued
