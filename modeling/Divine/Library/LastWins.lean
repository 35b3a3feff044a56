/-
This file develops the reading of a record out of a list of items, one after another, in
which a field holds what the last item for it said.
-/

import Divine.Library.Fallible
import Mathlib.Data.List.Induction

namespace Divine.LastWins

open List

universe u

variable {State : Type u} {Item : Type*} {Value Error : Type*}

def lastItem (items : List Item) (property : Item → Bool) : Option Item :=
  items.reverse.find? property

theorem lastItem_append_singleton (items : List Item) (item : Item) (property : Item → Bool) :
    lastItem (items ++ [item]) property =
      if property item then some item else lastItem items property := by
  unfold lastItem
  rw [reverse_append, reverse_singleton, singleton_append, List.find?_cons]
  cases property item <;> rfl
variable {property : Item → Bool}


theorem lastItem_mem {items : List Item} {item : Item}
    (last : lastItem items property = some item) :
    item ∈ items :=
  mem_reverse.mp (mem_of_find?_eq_some last)

theorem lastItem_holds {items : List Item} {item : Item}
    (last : lastItem items property = some item) : property item = true :=
  List.find?_some last

theorem lastItem_eq_none {items : List Item} :
    lastItem items property = none ↔ ∀ item ∈ items, property item = false := by
  rw [lastItem, List.find?_eq_none]
  simp only [mem_reverse, Bool.not_eq_true]

theorem lastItem_filterMap {Read : Type*} (read : Item → Option Read) (property : Read → Bool)
    (items : List Item) : lastItem (items.filterMap read) property =
      (lastItem items fun item => (read item).any property).bind read := by
  rw [lastItem, lastItem, ← filterMap_reverse, List.find?_filterMap]

theorem lastItem_filter (kept property : Item → Bool) (items : List Item) :
    lastItem (items.filter kept) property = lastItem items fun item =>
      kept item && property item := by
  rw [lastItem, lastItem, ← filter_reverse, List.find?_filter]
  simp only [Bool.decide_and, Bool.decide_eq_true]

/-- A field that only items with a property set holds what the last of them set it to. -/
theorem foldl_field {next : State → Item → State} (field : State → Option Value)
    (property : Item → Bool) (read : Item → Value)
    (each : ∀ state item,
      field (next state item) = if property item then some (read item) else field state)
    (items : List Item) (state : State) :
    field (items.foldl next state) = ((lastItem items property).map read).or (field state) := by
  induction items using reverseRecOn with
  | nil => rfl
  | append_singleton items item ih =>
    rw [foldl_append, foldl_cons, foldl_nil, each, ih,
      lastItem_append_singleton]
    cases property item <;> rfl

theorem foldlM_eq_ite {step : State → Item → Except Error State} {next : State → Item → State}
    {accepts : Item → Bool} {error : Error}
    (each : ∀ state item,
      step state item = if accepts item then .ok (next state item) else .error error)
    (items : List Item) (state : State) :
    items.foldlM step state =
      if items.all accepts then .ok (items.foldl next state) else .error error := by
  induction items generalizing state with
  | nil => rfl
  | cons item rest ih =>
    rw [foldlM_cons, each, all_cons]
    cases accepts item with
    | false => rfl
    | true => exact ih (next state item)

end Divine.LastWins
