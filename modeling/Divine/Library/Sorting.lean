/-
This file describes a sort by a key of which only the order of the keys is known.
-/

import Mathlib.Data.List.Sort

namespace Divine.Sorting

variable {Item : Type*}

/-- A sort with the greatest key first. -/
structure Descending (key : Item → Int) where
  sort : List Item → List Item
  perm : ∀ items, (sort items).Perm items
  sorted : ∀ items, (sort items).Pairwise fun first second => key second ≤ key first

variable {key : Item → Int}

theorem Descending.mem_sort (order : Descending key) {item : Item} {items : List Item} :
    item ∈ order.sort items ↔ item ∈ items := (order.perm items).mem_iff

section Insertion

variable (key : Item → Int)

def Before (first second : Item) : Prop := key second ≤ key first

instance decidableBefore : DecidableRel (Before key) :=
  fun first second => inferInstanceAs (Decidable (key second ≤ key first))

instance totalBefore : Std.Total (Before key) := ⟨fun _ _ => Int.le_total _ _⟩

instance transBefore : IsTrans Item (Before key) :=
  ⟨fun _ _ _ before after => Int.le_trans after before⟩

def insertion : Descending key where
  sort := List.insertionSort (Before key)
  perm := List.perm_insertionSort (Before key)
  sorted := List.pairwise_insertionSort (Before key)

end Insertion

/-! ### Sorts by a comparison -/

structure IsOrder (compare : Item → Item → Int) (items : List Item) : Prop where
  opposite : ∀ first ∈ items, ∀ second ∈ items,
    compare first second < 0 ↔ 0 < compare second first
  trans : ∀ first ∈ items, ∀ second ∈ items, ∀ third ∈ items,
    compare first second ≤ 0 → compare second third ≤ 0 → compare first third ≤ 0

structure ComparisonSort (Item : Type*) where
  sort : (Item → Item → Int) → List Item → List Item
  perm : ∀ compare items, (sort compare items).Perm items
  sorted : ∀ compare items, IsOrder compare items →
    (sort compare items).Pairwise fun first second => compare first second ≤ 0

theorem ComparisonSort.mem_sort (order : ComparisonSort Item) {compare : Item → Item → Int}
    {item : Item} {items : List Item} : item ∈ order.sort compare items ↔ item ∈ items :=
  (order.perm compare items).mem_iff

theorem IsOrder.total {compare : Item → Item → Int} {items : List Item}
    (order : IsOrder compare items) {first second : Item} (firstIn : first ∈ items)
    (secondIn : second ∈ items) : compare first second ≤ 0 ∨ compare second first ≤ 0 := by
  by_cases before : compare second first ≤ 0
  · exact .inr before
  · exact .inl (Int.le_of_lt ((order.opposite first firstIn second secondIn).mpr (by omega)))

theorem pairwise_insertionSort {compare : Item → Item → Int} {items : List Item}
    (order : IsOrder compare items) :
    (items.insertionSort fun first second => compare first second ≤ 0).Pairwise
      fun first second => compare first second ≤ 0 := by
  let own (first second : { item // item ∈ items }) : Prop := compare first second ≤ 0
  have total : Std.Total own := ⟨fun first second => order.total first.property second.property⟩
  have trans : IsTrans _ own := ⟨fun first second third =>
    order.trans first first.property second second.property third third.property⟩
  have sorted : (items.attach.insertionSort own).Pairwise own :=
    List.pairwise_insertionSort own items.attach
  have same : (items.attach.insertionSort own).map Subtype.val =
      items.insertionSort fun first second => compare first second ≤ 0 := by
    rw [List.map_insertionSort own (fun first second => compare first second ≤ 0) Subtype.val
      items.attach fun _ _ _ _ => Iff.rfl, List.attach_map_subtype_val]
  rw [← same]
  exact sorted.map _ fun _ _ before => before

def insertionBy : ComparisonSort Item where
  sort compare := List.insertionSort fun first second => compare first second ≤ 0
  perm compare := List.perm_insertionSort fun first second => compare first second ≤ 0
  sorted _ _ := pairwise_insertionSort

end Divine.Sorting
