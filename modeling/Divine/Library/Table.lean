/-
This file models a table of a relational database as its list of rows, with the statements
of SQL for single rows.
-/

import Mathlib.Data.List.Nodup

namespace Divine.Table

open List

variable {Row Key : Type*}

/-! ### Statements -/

def selectOne (rows : List Row) (condition : Row → Bool) : Option Row := rows.find? condition

def selectExists (rows : List Row) (condition : Row → Bool) : Bool := rows.any condition

def updateRow (condition : Row → Bool) (set : Row → Row) (row : Row) : Row :=
  if condition row then set row else row

def update (rows : List Row) (condition : Row → Bool) (set : Row → Row) : List Row :=
  rows.map (updateRow condition set)

def affected (rows : List Row) (condition : Row → Bool) : Nat := rows.countP condition

def delete (rows : List Row) (condition : Row → Bool) : List Row :=
  rows.filter fun row => !condition row

/-! ### Selection -/
variable {rows : List Row} {condition : Row → Bool} {set : Row → Row} {key : Row → Key}


theorem selectOne_condition {row : Row} (found : selectOne rows condition = some row) :
    condition row = true :=
  List.find?_some found

theorem selectOne_mem {row : Row} (found : selectOne rows condition = some row) : row ∈ rows :=
  mem_of_find?_eq_some found

theorem selectOne_isSome (rows : List Row) (condition : Row → Bool) :
    (selectOne rows condition).isSome = selectExists rows condition := by
  rw [Bool.eq_iff_iff, selectOne, selectExists, List.find?_isSome, any_eq_true]

theorem selectExists_iff :
    selectExists rows condition = true ↔ ∃ row ∈ rows, condition row = true :=
  any_eq_true

/-! ### Updates -/

theorem updateRow_of_not {row : Row} (outside : condition row = false) :
    updateRow condition set row = row := by
  simp [updateRow, outside]

theorem updateRow_of {row : Row} (inside : condition row = true) :
    updateRow condition set row = set row := by
  simp [updateRow, inside]

theorem updateRow_column {Column : Type*} (column : Row → Column)
    (kept : ∀ row, column (set row) = column row) (row : Row) :
    column (updateRow condition set row) = column row := by
  unfold updateRow
  split
  · exact kept row
  · rfl

theorem mem_update {row : Row} :
    row ∈ update rows condition set ↔ ∃ old ∈ rows, updateRow condition set old = row :=
  mem_map

theorem selectOne_update {condition selected : Row → Bool}
    (kept : ∀ row ∈ rows, selected (updateRow condition set row) = selected row) :
    selectOne (update rows condition set) selected =
      (selectOne rows selected).map (updateRow condition set) := by
  unfold selectOne update
  induction rows with
  | nil => rfl
  | cons row rest ih =>
    rw [map_cons, List.find?_cons, List.find?_cons, kept row mem_cons_self]
    cases selected row with
    | true => rfl
    | false =>
      exact ih fun other member => kept other (mem_cons_of_mem row member)

theorem selectOne_update_self (cleared : ∀ row ∈ rows, condition (set row) = false) :
    selectOne (update rows condition set) condition = none := by
  refine List.find?_eq_none.mpr fun row member => ?_
  obtain ⟨old, oldMember, rfl⟩ := mem_update.mp member
  by_cases meets : condition old = true
  · rw [updateRow_of meets, cleared old oldMember]
    exact Bool.false_ne_true
  · rw [updateRow_of_not (Bool.eq_false_iff.mpr meets)]
    exact meets

theorem selectExists_update {condition selected : Row → Bool}
    (kept : ∀ row ∈ rows, selected (updateRow condition set row) = selected row) :
    selectExists (update rows condition set) selected = selectExists rows selected := by
  rw [← selectOne_isSome, ← selectOne_isSome, selectOne_update kept, Option.isSome_map]

/-! ### Primary keys -/

def Keyed (key : Row → Key) (rows : List Row) : Prop := (rows.map key).Nodup

section

variable (keyed : Keyed key rows)

include keyed

theorem Keyed.eq_of_key {first second : Row} (firstMember : first ∈ rows)
    (secondMember : second ∈ rows) (equal : key first = key second) : first = second :=
  inj_on_of_nodup_map keyed firstMember secondMember equal

theorem Keyed.update (kept : ∀ row, key (set row) = key row) :
    Keyed key (update rows condition set) := by
  unfold Keyed Table.update
  rw [map_map, show key ∘ updateRow condition set = key from
    funext (updateRow_column key kept)]
  exact keyed

theorem Keyed.delete (condition : Row → Bool) :
    Keyed key (delete rows condition) :=
  Nodup.sublist (filter_sublist.map key) keyed

theorem Keyed.insert {row : Row}
    (fresh : ∀ other ∈ rows, key other ≠ key row) : Keyed key (rows ++ [row]) := by
  unfold Keyed at *
  rw [map_append, nodup_append]
  refine ⟨keyed, nodup_singleton _, ?_⟩
  rintro first firstMember second secondMember equal
  obtain ⟨other, otherMember, rfl⟩ := mem_map.mp firstMember
  rw [map_singleton, mem_singleton] at secondMember
  exact fresh other otherMember (equal.trans secondMember)

theorem Keyed.affected_le_one [DecidableEq Key] (value : Key)
    (own : ∀ row, condition row = true → key row = value) : affected rows condition ≤ 1 := by
  have fewer : affected rows condition ≤ (rows.map key).count value := by
    unfold affected count
    rw [countP_map]
    exact countP_mono_left fun row _ holds => beq_iff_eq.mpr (own row holds)
  exact Nat.le_trans fewer (nodup_iff_count_le_one.mp keyed value)

end

/-! ### Deletions -/

theorem mem_delete {row : Row} :
    row ∈ delete rows condition ↔ row ∈ rows ∧ condition row = false := by
  simp [delete]

theorem not_mem_delete {row : Row} (meets : condition row = true) :
    row ∉ delete rows condition := by
  intro member
  rw [(mem_delete.mp member).2] at meets
  cases meets

theorem selectExists_delete_self (rows : List Row) (condition : Row → Bool) :
    selectExists (delete rows condition) condition = false := by
  refine any_eq_false.mpr fun row member => ?_
  rw [(mem_delete.mp member).2]
  exact Bool.false_ne_true

theorem selectOne_delete_none {condition selected : Row → Bool}
    (within : ∀ row, selected row = true → condition row = true) :
    selectOne (delete rows condition) selected = none := by
  refine List.find?_eq_none.mpr fun row member meets => ?_
  exact not_mem_delete (within row meets) member

theorem selectExists_of_delete {condition other : Row → Bool}
    (found : selectExists (delete rows condition) other = true) :
    selectExists rows other = true := by
  obtain ⟨row, member, meets⟩ := selectExists_iff.mp found
  exact selectExists_iff.mpr ⟨row, (mem_delete.mp member).1, meets⟩

theorem delete_congr {first second : Row → Bool} (same : ∀ row ∈ rows, first row = second row) :
    delete rows first = delete rows second :=
  filter_congr fun row member => congrArg _ (same row member)

theorem delete_delete {first second : Row → Bool}
    (within : ∀ row, first row = true → second row = true) :
    delete (delete rows first) second = delete rows second := by
  unfold delete
  rw [filter_filter]
  refine filter_congr fun row _ => ?_
  cases holds : first row with
  | false => exact Bool.and_true _
  | true =>
    rw [within row holds]
    rfl

/-! ### Counting rows -/

theorem affected_update_le {condition counted : Row → Bool}
    (kept : ∀ row ∈ rows, counted (updateRow condition set row) = true → counted row = true) :
    affected (update rows condition set) counted ≤ affected rows counted := by
  unfold affected update
  rw [countP_map]
  exact countP_mono_left fun row member holds => kept row member holds

theorem affected_update_lt {condition counted : Row → Bool}
    (kept : ∀ row ∈ rows, counted (updateRow condition set row) = true → counted row = true)
    {row : Row} (member : row ∈ rows) (before : counted row = true)
    (after : counted (updateRow condition set row) = false) :
    affected (update rows condition set) counted < affected rows counted := by
  induction rows with
  | nil => cases member
  | cons head rest ih =>
    have keptRest : ∀ row ∈ rest, counted (updateRow condition set row) = true →
        counted row = true := fun row later => kept row (mem_cons_of_mem head later)
    have fewer : affected (update rest condition set) counted ≤ affected rest counted :=
      affected_update_le keptRest
    have stays := kept head mem_cons_self
    unfold affected update at *
    rw [map_cons, countP_cons, countP_cons]
    rcases mem_cons.mp member with rfl | later
    · rw [before, after, if_pos rfl, if_neg Bool.false_ne_true]
      omega
    · have smaller := ih keptRest later
      by_cases holds : counted (updateRow condition set head) = true
      · rw [holds, stays holds]
        omega
      · rw [if_neg holds]
        omega

theorem affected_delete_le (rows : List Row) (condition counted : Row → Bool) :
    affected (delete rows condition) counted ≤ affected rows counted :=
  Sublist.countP_le filter_sublist

end Divine.Table
