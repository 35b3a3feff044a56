/-
This file develops edits of a list by key.
-/

import Mathlib.Data.List.Nodup

namespace Divine.Edits

open List

variable {Key : Type*}

structure Edit (Key : Type*) where
  key : Key
  present : Bool
  deriving DecidableEq

variable [DecidableEq Key]

def apply (items : List Key) (edit : Edit Key) : List Key :=
  if edit.present then if edit.key ∈ items then items else items ++ [edit.key]
  else items.filter fun item => item ≠ edit.key

def applied (base : List Key) (edits : List (Edit Key)) : List Key := edits.foldl apply base

def Held (items : List Key) (edit : Edit Key) : Prop := edit.key ∈ items ↔ edit.present = true

instance (items : List Key) (edit : Edit Key) : Decidable (Held items edit) :=
  inferInstanceAs (Decidable (_ ↔ _))

variable {base items : List Key} {edit : Edit Key} {edits first second all : List (Edit Key)}

/-! ### Members -/

theorem mem_apply {key : Key} :
    key ∈ apply items edit ↔ key = edit.key ∧ edit.present = true ∨ key ≠ edit.key ∧
      key ∈ items := by
  unfold apply
  by_cases present : edit.present = true
  · rw [if_pos present]
    split
    · next member =>
      constructor
      · intro inside
        by_cases same : key = edit.key
        · exact .inl ⟨same, present⟩
        · exact .inr ⟨same, inside⟩
      · rintro (⟨rfl, -⟩ | ⟨-, inside⟩)
        · exact member
        · exact inside
    · rw [mem_append, mem_singleton]
      by_cases same : key = edit.key
      · exact ⟨fun _ => .inl ⟨same, present⟩, fun _ => .inr same⟩
      · constructor
        · rintro (inside | same')
          · exact .inr ⟨same, inside⟩
          · exact absurd same' same
        · rintro (⟨same', -⟩ | ⟨-, inside⟩)
          · exact absurd same' same
          · exact .inl inside
  · rw [if_neg present, mem_filter, decide_eq_true_iff]
    tauto

theorem held_apply : Held (apply items edit) edit := by
  unfold Held
  rw [mem_apply]
  tauto

@[simp] theorem applied_nil : applied base [] = base := rfl

theorem applied_append : applied base (first ++ second) = applied (applied base first) second :=
  foldl_append

theorem applied_concat : applied base (edits ++ [edit]) = apply (applied base edits) edit := by
  rw [applied_append]
  rfl

theorem apply_of_held (held : Held items edit) : apply items edit = items := by
  unfold apply
  by_cases present : edit.present = true
  · rw [if_pos present, if_pos (held.mpr present)]
  · rw [if_neg present, filter_eq_self]
    intro item inside
    rw [decide_eq_true_iff]
    rintro rfl
    exact present (held.mp inside)

theorem applied_of_held (held : ∀ edit ∈ edits, Held base edit) : applied base edits = base := by
  induction edits with
  | nil => rfl
  | cons head rest ih =>
    change applied (apply base head) rest = base
    rw [apply_of_held (held head mem_cons_self)]
    exact ih fun edit member => held edit (mem_cons_of_mem _ member)

theorem mem_applied_of_not_mem {key : Key} (other : key ∉ edits.map Edit.key) :
    key ∈ applied base edits ↔ key ∈ base := by
  induction edits generalizing base with
  | nil => exact Iff.rfl
  | cons head rest ih =>
    rw [map_cons, mem_cons, not_or] at other
    change key ∈ applied (apply base head) rest ↔ _
    rw [ih other.2, mem_apply]
    tauto

theorem held_applied (distinct : (edits.map Edit.key).Nodup) (member : edit ∈ edits) :
    Held (applied base edits) edit := by
  induction edits generalizing base with
  | nil => cases member
  | cons head rest ih =>
    rw [map_cons, nodup_cons] at distinct
    rcases mem_cons.mp member with rfl | later
    · change edit.key ∈ applied (apply base edit) rest ↔ _
      rw [mem_applied_of_not_mem distinct.1]
      exact held_apply
    · exact ih distinct.2 later

theorem nodup_apply (nodup : items.Nodup) : (apply items edit).Nodup := by
  unfold apply
  split
  · split
    · exact nodup
    · next fresh =>
      rw [← concat_eq_append]
      exact nodup.concat fresh
  · exact nodup.filter _

theorem nodup_applied (nodup : base.Nodup) : (applied base edits).Nodup := by
  induction edits generalizing base with
  | nil => exact nodup
  | cons head rest ih => exact ih (nodup_apply nodup)

theorem mem_applied_present {keys : List Key} {key : Key} :
    key ∈ applied base (keys.map fun key => ⟨key, true⟩) ↔ key ∈ base ∨ key ∈ keys := by
  induction keys generalizing base with
  | nil => simp
  | cons head rest ih =>
    change key ∈ applied (apply base ⟨head, true⟩) (rest.map _) ↔ _
    rw [ih, mem_apply, mem_cons]
    tauto

/-! ### Undoing -/

theorem eq_of_sublist {Item : Type*} {first second all : List Item} (nodup : all.Nodup)
    (firstIn : first.Sublist all) (secondIn : second.Sublist all)
    (same : ∀ item ∈ all, item ∈ first ↔ item ∈ second) : first = second := by
  induction all generalizing first second with
  | nil => rw [sublist_nil.mp firstIn, sublist_nil.mp secondIn]
  | cons head rest ih =>
    obtain ⟨fresh, nodup⟩ := nodup_cons.mp nodup
    have tails : ∀ {left right : List Item}, left.Sublist rest → right.Sublist rest →
        (∀ item ∈ rest, item ∈ left ↔ item ∈ right) → left = right :=
      fun leftIn rightIn => ih nodup leftIn rightIn
    have outside : ∀ {left : List Item}, left.Sublist rest → head ∉ left :=
      fun within member => fresh (within.subset member)
    have rests : ∀ item ∈ rest, item ≠ head := fun item member equal => fresh (equal ▸ member)
    cases firstIn with
    | cons _ firstIn =>
      cases secondIn with
      | cons _ secondIn =>
        exact tails firstIn secondIn fun item member => same item (mem_cons_of_mem _ member)
      | cons_cons _ secondIn =>
        exact absurd ((same head mem_cons_self).mpr mem_cons_self) (outside firstIn)
    | cons_cons _ firstIn =>
      cases secondIn with
      | cons _ secondIn =>
        exact absurd ((same head mem_cons_self).mp mem_cons_self) (outside secondIn)
      | cons_cons _ secondIn =>
        refine congrArg _ (tails firstIn secondIn fun item member => ?_)
        have both := same item (mem_cons_of_mem _ member)
        rwa [mem_cons, mem_cons, or_iff_right (rests item member),
          or_iff_right (rests item member)] at both

theorem mem_iff_held (within : edits.Sublist all) (distinct : (all.map Edit.key).Nodup)
    (member : edit ∈ all) (effective : ¬Held base edit) :
    edit ∈ edits ↔ Held (applied base edits) edit := by
  constructor
  · exact held_applied (distinct.sublist (within.map _))
  · intro held
    by_contra outside
    have other : edit.key ∉ edits.map Edit.key := by
      intro inside
      obtain ⟨made, inEdits, same⟩ := mem_map.mp inside
      rw [inj_on_of_nodup_map distinct (within.subset inEdits) member same] at inEdits
      exact outside inEdits
    unfold Held at held
    rw [mem_applied_of_not_mem other] at held
    exact effective held

/-- Two selections of edits that leave the same list are the same, when they agree on what the base
holds. -/
theorem eq_of_applied_eq (distinct : (all.map Edit.key).Nodup) (firstIn : first.Sublist all)
    (secondIn : second.Sublist all) (same : applied base first = applied base second)
    (held : ∀ edit ∈ all, Held base edit → edit ∈ first ∧ edit ∈ second) : first = second := by
  refine eq_of_sublist (Nodup.of_map _ distinct) firstIn secondIn fun edit member => ?_
  by_cases effective : Held base edit
  · exact iff_of_true (held edit member effective).1 (held edit member effective).2
  · rw [mem_iff_held firstIn distinct member effective,
      mem_iff_held secondIn distinct member effective, same]

end Divine.Edits
