/-
This file adds foreign keys to the tables of a relational database.
-/

import Divine.Library.Table

namespace Divine.Table

variable {Child Parent Key : Type*}

structure ForeignKey (Child Parent Key : Type*) where
  column : Child → Option Key
  key : Parent → Key

namespace ForeignKey

variable (reference : ForeignKey Child Parent Key)

/-- Every value of the column is the key of a row; a null refers to nothing. -/
def Holds (children : List Child) (parents : List Parent) : Prop :=
  ∀ child ∈ children, ∀ value, reference.column child = some value →
    ∃ parent ∈ parents, reference.key parent = value

variable [DecidableEq Key]

def refersTo (parents : List Parent) (condition : Parent → Bool) (child : Child) : Bool :=
  selectExists parents fun parent =>
    condition parent && reference.column child = some (reference.key parent)

/-- The check of `ON DELETE NO ACTION`: no row refers to one of the deleted. -/
def permits (children : List Child) (parents : List Parent) (condition : Parent → Bool) : Bool :=
  !selectExists children (reference.refersTo parents condition)

/-- `ON DELETE CASCADE`: the referring rows are deleted too. -/
def cascade (children : List Child) (parents : List Parent) (condition : Parent → Bool) :
    List Child :=
  delete children (reference.refersTo parents condition)

instance decidableHolds (children : List Child) (parents : List Parent) :
    Decidable (reference.Holds children parents) :=
  inferInstanceAs (Decidable (∀ child ∈ children, ∀ value ∈ reference.column child,
    ∃ parent ∈ parents, reference.key parent = value))

variable {reference} {children : List Child} {parents : List Parent} {condition : Parent → Bool}

theorem refersTo_iff {child : Child} : reference.refersTo parents condition child = true ↔
    ∃ parent ∈ parents, condition parent = true ∧
      reference.column child = some (reference.key parent) := by
  simp only [refersTo, selectExists_iff, Bool.and_eq_true, decide_eq_true_eq]

theorem refersTo_eq {value : Key} (own : ∀ parent ∈ parents, condition parent = true →
      reference.key parent = value) (present : selectExists parents condition = true)
    (child : Child) :
    reference.refersTo parents condition child =
      decide (reference.column child = some value) := by
  rw [Bool.eq_iff_iff, refersTo_iff, decide_eq_true_eq]
  constructor
  · rintro ⟨parent, member, meets, refers⟩
    rw [refers, own parent member meets]
  · intro refers
    obtain ⟨parent, member, meets⟩ := selectExists_iff.mp present
    exact ⟨parent, member, meets, refers.trans (congrArg some (own parent member meets).symm)⟩

theorem refersTo_append {parent : Parent} (outside : condition parent = false) (child : Child) :
    reference.refersTo (parents ++ [parent]) condition child =
      reference.refersTo parents condition child := by
  simp [refersTo, selectExists, outside]

theorem permits_iff : reference.permits children parents condition = true ↔
    ∀ child ∈ children, ∀ parent ∈ parents, condition parent = true →
      reference.column child ≠ some (reference.key parent) := by
  rw [permits, Bool.not_eq_true', ← Bool.not_eq_true, selectExists_iff]
  simp only [refersTo_iff, not_exists, not_and]

end ForeignKey

end Divine.Table
