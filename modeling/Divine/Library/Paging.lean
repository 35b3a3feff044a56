/-
This file develops reading page by page.
-/

import Mathlib.Data.List.Basic

namespace Divine.Paging

variable {Cursor Page : Type*}

abbrev Source (Cursor Page : Type*) := Cursor → Page × Option Cursor

variable (source : Source Cursor Page)

inductive Leads : Cursor → List Page → Cursor → Prop
  | here (cursor : Cursor) : Leads cursor [] cursor
  | next {cursor next last : Cursor} {page : Page} {pages : List Page} :
      source cursor = (page, some next) → Leads next pages last →
        Leads cursor (page :: pages) last

inductive Collects : Cursor → List Page → Prop
  | last {cursor : Cursor} {page : Page} : source cursor = (page, none) → Collects cursor [page]
  | next {cursor next : Cursor} {page : Page} {pages : List Page} :
      source cursor = (page, some next) → Collects next pages → Collects cursor (page :: pages)

variable {source} {cursor next last : Cursor} {page : Page} {pages all rest : List Page}

theorem collects_of_last (answer : source cursor = (page, none)) :
    Collects source cursor all ↔ all = [page] := by
  constructor
  · intro collects
    cases collects with
    | last other =>
      cases answer.symm.trans other
      rfl
    | next other _ => cases congrArg Prod.snd (answer.symm.trans other)
  · rintro rfl
    exact .last answer

theorem collects_of_next (answer : source cursor = (page, some next)) :
    Collects source cursor all ↔ ∃ rest, all = page :: rest ∧ Collects source next rest := by
  constructor
  · intro collects
    cases collects with
    | last other => cases congrArg Prod.snd (answer.symm.trans other)
    | next other rest =>
      obtain ⟨rfl, same⟩ := Prod.mk.inj (answer.symm.trans other)
      cases same
      exact ⟨_, rfl, rest⟩
  · rintro ⟨rest, rfl, collects⟩
    exact .next answer collects

namespace Leads

theorem append {middle : Cursor} (first : Leads source cursor pages middle)
    (second : Leads source middle rest last) : Leads source cursor (pages ++ rest) last := by
  induction first with
  | here => exact second
  | next answer _ ih => exact .next answer (ih second)

theorem snoc (leads : Leads source cursor pages next)
    (answer : source next = (page, some last)) : Leads source cursor (pages ++ [page]) last :=
  leads.append (.next answer (.here last))

theorem collects_iff (leads : Leads source cursor pages last) :
    Collects source cursor all ↔ ∃ rest, all = pages ++ rest ∧ Collects source last rest := by
  induction leads generalizing all with
  | here => simp
  | next answer _ ih =>
    rw [collects_of_next answer]
    constructor
    · rintro ⟨_, rfl, collects⟩
      obtain ⟨rest, rfl, remains⟩ := ih.mp collects
      exact ⟨rest, rfl, remains⟩
    · rintro ⟨rest, rfl, remains⟩
      exact ⟨_, rfl, ih.mpr ⟨rest, rfl, remains⟩⟩

theorem not_collects (leads : Leads source cursor pages last) (moved : pages ≠ [])
    (returned : ∀ rest, Collects source last rest → Collects source cursor rest) :
    ¬ Collects source cursor all := by
  intro collects
  -- the pages that remain get fewer each time
  induction length : all.length using Nat.strongRecOn generalizing all with
  | _ count ih =>
    obtain ⟨rest, rfl, remains⟩ := leads.collects_iff.mp collects
    have fewer : 0 < pages.length := List.length_pos_of_ne_nil moved
    rw [List.length_append] at length
    exact ih rest.length (by omega) (returned rest remains) rfl

theorem of_steps {cursors : Nat → Cursor} {page : Nat → Page} {count : Nat}
    (steps : ∀ index < count, source (cursors index) = (page index, some (cursors (index + 1)))) :
    Leads source (cursors 0) ((List.range count).map page) (cursors count) := by
  induction count with
  | zero => exact .here _
  | succ count ih =>
    rw [List.range_succ, List.map_append]
    exact (ih fun index less => steps index (Nat.lt_succ_of_lt less)).snoc
      (steps count (Nat.lt_succ_self count))

end Leads

/-! ### Slices -/

section Slices

variable {Item : Type*} {items : List Item} {start size count : Nat}

def slice (items : List Item) (start size : Nat) : List Item := (items.drop start).take size

theorem length_slice : (slice items start size).length = min size (items.length - start) := by
  unfold slice
  rw [List.length_take, List.length_drop]

theorem flatten_slices (items : List Item) (start size count : Nat) :
    ((List.range count).map fun index => slice items (start + index * size) size).flatten =
      slice items start (count * size) := by
  induction count with
  | zero => simp [slice]
  | succ count ih =>
    rw [List.range_succ, List.map_append, List.flatten_append, ih]
    unfold slice
    rw [Nat.succ_mul, List.take_add, List.drop_drop]
    simp

theorem collects_slices {source : Source Cursor (List Item)} {cursors : Nat → Cursor}
    (positive : 0 < size)
    (steps : ∀ index, index * size ≤ items.length →
      source (cursors index) = (slice items (index * size) size,
        if (index + 1) * size ≤ items.length then some (cursors (index + 1)) else none)) :
    ∃ pages, Collects source (cursors 0) pages ∧ pages.flatten = items := by
  have bound : items.length / size * size ≤ items.length := Nat.div_mul_le_self _ _
  have beyond : items.length < (items.length / size + 1) * size := by
    rw [Nat.mul_comm]
    exact Nat.lt_mul_div_succ _ positive
  have leads : Leads source (cursors 0)
      ((List.range (items.length / size)).map fun index => slice items (index * size) size)
      (cursors (items.length / size)) := by
    refine Leads.of_steps fun index less => ?_
    have full : (index + 1) * size ≤ items.length :=
      Nat.le_trans (Nat.mul_le_mul_right size less) bound
    have within : index * size ≤ items.length :=
      Nat.le_trans (Nat.mul_le_mul_right size (Nat.le_of_lt less)) bound
    rw [steps index within, if_pos full]
  have final := steps (items.length / size) bound
  rw [if_neg (Nat.not_le_of_lt beyond)] at final
  refine ⟨_, leads.collects_iff.mpr ⟨_, rfl, .last final⟩, ?_⟩
  have first := flatten_slices items 0 size (items.length / size)
  simp only [Nat.zero_add] at first
  rw [List.flatten_append, first, List.flatten_singleton]
  unfold slice
  have short : (items.drop (items.length / size * size)).length ≤ size := by
    rw [Nat.succ_mul] at beyond
    rw [List.length_drop]
    omega
  rw [List.drop_zero, List.take_of_length_le short]
  exact List.take_append_drop _ _

end Slices

end Divine.Paging
