/-
This file develops the rows that `ORDER BY key DESC LIMIT limit` selects.
-/

import Mathlib.Data.List.Perm.Basic
import Mathlib.Order.Lattice

namespace Divine.Selection

open List

variable {Row Key : Type*} [LinearOrder Key] {key : Row → Key} {limit : Int}
  {rows selected sorted : List Row} {row : Row}

/-! ### Selected rows -/

def Descending (key : Row → Key) (rows : List Row) : Prop :=
  rows.Pairwise fun before after => key after ≤ key before

def limitRows (limit : Int) (rows : List Row) : List Row :=
  if limit < 0 then rows else rows.take limit.toNat

def Selects (key : Row → Key) (limit : Int) (rows selected : List Row) : Prop :=
  ∃ sorted : List Row, sorted.Perm rows ∧ Descending key sorted ∧ selected = limitRows limit sorted

def Within (key : Row → Key) (limit : Int) (rows : List Row) (row : Row) : Prop :=
  limit < 0 ∨ (rows.countP fun other => key row < key other) < limit

def sortRows (key : Row → Key) (rows : List Row) : List Row :=
  rows.mergeSort fun before after => key after ≤ key before

theorem sortRows_perm (key : Row → Key) (rows : List Row) : (sortRows key rows).Perm rows :=
  mergeSort_perm rows _

theorem descending_sortRows (key : Row → Key) (rows : List Row) :
    Descending key (sortRows key rows) := by
  have sorted : (sortRows key rows).Pairwise fun before after =>
      decide (key after ≤ key before) = true := by
    refine pairwise_mergeSort (fun first second third before after => ?_)
      (fun first second => ?_) rows
    · exact decide_eq_true (le_trans (of_decide_eq_true after) (of_decide_eq_true before))
    · rw [Bool.or_eq_true, decide_eq_true_iff, decide_eq_true_iff]
      exact (le_total (key first) (key second)).symm
  exact sorted.imp of_decide_eq_true

theorem selects_sortRows (key : Row → Key) (limit : Int) (rows : List Row) :
    Selects key limit rows (limitRows limit (sortRows key rows)) :=
  ⟨_, sortRows_perm key rows, descending_sortRows key rows, rfl⟩

theorem countP_le_of_descending {index : Nat} (descending : Descending key sorted)
    (found : sorted[index]? = some row) :
    (sorted.countP fun other => key row < key other) ≤ index := by
  obtain ⟨inside, same⟩ := List.getElem?_eq_some_iff.mp found
  have later : ((sorted.drop index).countP fun other => key row < key other) = 0 := by
    rw [countP_eq_zero]
    intro other member
    rw [drop_eq_getElem_cons inside, same] at member
    rw [decide_eq_true_iff, not_lt]
    rcases mem_cons.mp member with rfl | after
    · exact le_refl _
    · have tail : Descending key (sorted.drop index) := descending.sublist (drop_sublist _ _)
      rw [drop_eq_getElem_cons inside, same] at tail
      exact (pairwise_cons.mp tail).1 other after
  rw [← take_append_drop index sorted, countP_append, later, Nat.add_zero]
  exact Nat.le_trans countP_le_length (length_take_le _ _)

theorem within_of_selects (selects : Selects key limit rows selected) (member : row ∈ selected) :
    row ∈ rows ∧ Within key limit rows row := by
  obtain ⟨sorted, perm, descending, rfl⟩ := selects
  unfold limitRows at member
  split at member
  · next negative => exact ⟨perm.mem_iff.mp member, .inl negative⟩
  · next bounded =>
    refine ⟨perm.mem_iff.mp (mem_of_mem_take member), .inr ?_⟩
    obtain ⟨index, found⟩ := mem_iff_getElem?.mp member
    rw [getElem?_take] at found
    split at found
    · next below =>
      have count := countP_le_of_descending descending found
      rw [perm.countP_eq] at count
      omega
    · cases found

theorem exists_selects [DecidableEq Row] (member : row ∈ rows)
    (within : Within key limit rows row) :
    ∃ selected, Selects key limit rows selected ∧ row ∈ selected := by
  have others : row ∈ rows.filter fun other => !decide (key row < key other) :=
    mem_filter.mpr ⟨member, by rw [decide_eq_false (lt_irrefl _), Bool.not_false]⟩
  -- the rows that have to come first, the row itself, and all others
  let first := sortRows key (rows.filter fun other => key row < key other)
  let last := sortRows key ((rows.filter fun other => !decide (key row < key other)).erase row)
  have perm : (first ++ row :: last).Perm rows := by
    refine Perm.trans ?_
      (filter_append_perm (fun other => decide (key row < key other)) rows)
    refine (sortRows_perm key _).append (Perm.trans ?_ (perm_cons_erase others).symm)
    exact (sortRows_perm key _).cons row
  have descending : Descending key (first ++ row :: last) := by
    refine pairwise_append.mpr ⟨descending_sortRows key _,
      pairwise_cons.mpr ⟨fun other after => ?_, descending_sortRows key _⟩, ?_⟩
    · have kept := mem_of_mem_erase ((sortRows_perm key _).mem_iff.mp after)
      have noMore := (mem_filter.mp kept).2
      rw [Bool.not_eq_true', decide_eq_false_iff_not, not_lt] at noMore
      exact noMore
    · intro other before next after
      have more := (mem_filter.mp ((sortRows_perm key _).mem_iff.mp before)).2
      rw [decide_eq_true_iff] at more
      rcases mem_cons.mp after with rfl | after
      · exact le_of_lt more
      · have kept := mem_of_mem_erase ((sortRows_perm key _).mem_iff.mp after)
        have noMore := (mem_filter.mp kept).2
        rw [Bool.not_eq_true', decide_eq_false_iff_not, not_lt] at noMore
        exact le_trans noMore (le_of_lt more)
  refine ⟨_, ⟨_, perm, descending, rfl⟩, ?_⟩
  unfold limitRows
  split
  · exact perm.mem_iff.mpr member
  · next bounded =>
    have count : first.length = rows.countP fun other => key row < key other := by
      rw [(sortRows_perm key _).length_eq, countP_eq_length_filter]
    have fits : first.length < limit.toNat := by
      rcases within with negative | fewer
      · exact absurd negative bounded
      · omega
    rw [take_append, take_of_length_le (Nat.le_of_lt fits)]
    obtain ⟨further, more⟩ := Nat.exists_eq_add_of_lt fits
    have room : limit.toNat - first.length = further + 1 := by omega
    rw [room, take_succ_cons]
    exact mem_append_right _ mem_cons_self

theorem selects_congr {other : Row → Key} {others : List Row} (perm : rows.Perm others)
    (same : ∀ row ∈ rows, key row = other row) :
    Selects key limit rows selected ↔ Selects other limit others selected := by
  constructor
  · rintro ⟨sorted, sortedPerm, descending, rfl⟩
    refine ⟨sorted, sortedPerm.trans perm, descending.imp_of_mem ?_, rfl⟩
    intro first second firstMember secondMember before
    rwa [← same first (sortedPerm.mem_iff.mp firstMember),
      ← same second (sortedPerm.mem_iff.mp secondMember)]
  · rintro ⟨sorted, sortedPerm, descending, rfl⟩
    have back := sortedPerm.trans perm.symm
    refine ⟨sorted, back, descending.imp_of_mem ?_, rfl⟩
    intro first second firstMember secondMember before
    rwa [same first (back.mem_iff.mp firstMember), same second (back.mem_iff.mp secondMember)]

theorem perm_of_selects (selects : Selects key limit rows selected)
    (fewer : (selected.length : Int) < limit) : selected.Perm rows := by
  obtain ⟨sorted, perm, -, rfl⟩ := selects
  unfold limitRows at fewer ⊢
  split
  · exact perm
  · next bounded =>
    rw [if_neg bounded, length_take] at fewer
    rw [take_of_length_le (by omega)]
    exact perm

theorem length_of_selects (selects : Selects key limit rows selected)
    (fewer : (rows.length : Int) < limit) : (selected.length : Int) < limit := by
  obtain ⟨sorted, perm, -, rfl⟩ := selects
  unfold limitRows
  rw [← perm.length_eq] at fewer
  split
  · exact fewer
  · rw [length_take]
    omega

/-- Rows in descending order are selected when they are above all others, or are all of them. -/
theorem selects_of_subset [DecidableEq Row] (distinct : rows.Nodup) (nodup : selected.Nodup)
    (descending : Descending key selected) (kept : ∀ row ∈ selected, row ∈ rows)
    (fits : limit < 0 ∨ (selected.length : Int) ≤ limit)
    (others : ∀ row ∈ rows, row ∉ selected →
      (selected.length : Int) = limit ∧ ∀ other ∈ selected, key row ≤ key other) :
    Selects key limit rows selected := by
  let rest := sortRows key (rows.filter fun row => row ∉ selected)
  have restMember : ∀ {row : Row}, row ∈ rest → row ∈ rows ∧ row ∉ selected := fun member => by
    obtain ⟨inside, outside⟩ := mem_filter.mp ((sortRows_perm key _).mem_iff.mp member)
    exact ⟨inside, of_decide_eq_true outside⟩
  have same : (rows.filter fun row => row ∈ selected).Perm selected :=
    (perm_ext_iff_of_nodup (distinct.filter _) nodup).mpr fun row => by
      rw [mem_filter, decide_eq_true_iff]
      exact ⟨And.right, fun member => ⟨kept row member, member⟩⟩
  refine ⟨selected ++ rest, ?_, ?_, ?_⟩
  · have split := filter_append_perm (fun row => decide (row ∈ selected)) rows
    refine (same.symm.append ((sortRows_perm key _).trans (Perm.of_eq ?_))).trans split
    exact congrArg (fun condition => rows.filter condition) (funext fun row => by simp)
  · refine pairwise_append.mpr ⟨descending, descending_sortRows key _, ?_⟩
    intro before member after restMem
    obtain ⟨inside, outside⟩ := restMember restMem
    exact (others after inside outside).2 before member
  · unfold limitRows
    cases isRest : rest with
    | nil =>
      rw [append_nil]
      split
      · rfl
      · next bounded => exact (take_of_length_le (by omega)).symm
    | cons row more =>
      obtain ⟨inside, outside⟩ := restMember (isRest ▸ mem_cons_self)
      have full := (others row inside outside).1
      rw [if_neg (by omega), take_left' (by omega)]

theorem nodup_of_selects (distinct : rows.Nodup) (selects : Selects key limit rows selected) :
    selected.Nodup := by
  obtain ⟨sorted, perm, -, rfl⟩ := selects
  have nodup := perm.nodup_iff.mpr distinct
  unfold limitRows
  split
  · exact nodup
  · exact nodup.sublist (take_sublist _ _)

section

variable (selects : Selects key limit rows selected)

include selects

theorem descending_of_selects :
    Descending key selected := by
  obtain ⟨sorted, -, descending, rfl⟩ := selects
  unfold limitRows
  split
  · exact descending
  · exact descending.sublist (take_sublist _ _)

/-- A limit is not exceeded, and is reached when rows, none above a selected one, are left out. -/
theorem length_le_of_selects :
    limit < 0 ∨ (selected.length : Int) ≤ limit := by
  obtain ⟨sorted, -, -, rfl⟩ := selects
  unfold limitRows
  split
  · exact .inl ‹_›
  · refine .inr ?_
    rw [length_take]
    omega

theorem others_of_selects (member : row ∈ rows) (left : row ∉ selected) :
    (selected.length : Int) = limit ∧ ∀ other ∈ selected, key row ≤ key other := by
  obtain ⟨sorted, perm, descending, rfl⟩ := selects
  unfold limitRows at left ⊢
  have inside := perm.mem_iff.mpr member
  split at left
  · exact absurd inside left
  · next bounded =>
    rw [if_neg bounded]
    rw [← take_append_drop limit.toNat sorted] at inside descending
    have later := (mem_append.mp inside).resolve_left left
    have longer : limit.toNat ≤ sorted.length := by
      by_contra shorter
      rw [drop_eq_nil_of_le (by omega)] at later
      exact absurd later not_mem_nil
    refine ⟨by rw [length_take]; omega, fun other earlier => ?_⟩
    exact (pairwise_append.mp descending).2.2 other earlier row later

theorem le_of_selects {bound : Key} (many : limit ≤ (rows.countP fun other => bound ≤ key other))
    (member : row ∈ selected)
    (limited : 0 ≤ limit) : bound ≤ key row := by
  by_contra below
  have below := lt_of_not_ge below
  have within := (within_of_selects selects member).2.resolve_left (by omega)
  have fewer : (rows.countP fun other => bound ≤ key other) ≤
      rows.countP fun other => key row < key other := by
    refine countP_mono_left fun other _ above => ?_
    exact decide_eq_true (lt_of_lt_of_le below (of_decide_eq_true above))
  omega

end

end Divine.Selection
