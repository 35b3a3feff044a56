/-
This file develops the dictionary of a list of items by a key of theirs, in which of items
with the same key the last one is kept.
-/

import Divine.Library.Dictionary
import Divine.Library.LastWins

namespace Divine.Indexing

open Dictionary LastWins

variable {Key Item : Type*} [DecidableEq Key] (keyOf : Item → Key)

def index (items : List Item) : List (Key × Item) :=
  items.foldl (fun entries item => put entries (keyOf item) item) []

def Identified (items : List Item) : Prop :=
  ∀ item ∈ items, ∀ other ∈ items, keyOf item = keyOf other → item = other

variable {keyOf} {items : List Item} {item : Item} {key : Key}

theorem find_foldl_put {Value : Type*} (keyOf : Item → Key) (valueOf : Item → Value)
    (items : List Item) (entries : List (Key × Value)) (key : Key) :
    find (items.foldl (fun entries item => put entries (keyOf item) (valueOf item)) entries) key =
      ((lastItem items fun item => keyOf item = key).map valueOf).or (find entries key) :=
  @foldl_field (List (Key × Value)) Item Value
    (fun entries item => put entries (keyOf item) (valueOf item)) (fun entries => find entries key)
    (fun item => decide (keyOf item = key)) valueOf
    (fun entries item => by simp only [find_put, decide_eq_true_eq]) items entries

theorem find_index (items : List Item) (key : Key) :
    find (index keyOf items) key = lastItem items fun item => keyOf item = key := by
  have looked := find_foldl_put keyOf id items [] key
  rw [Option.map_id] at looked
  exact looked.trans Option.or_none

theorem entry_of_mem_index : ∀ entry ∈ index keyOf items, entry.2 ∈ items ∧
    keyOf entry.2 = entry.1 := by
  refine forall_mem_foldl nofun ?_
  intro item member entries kept entry put
  rcases mem_put put with before | own
  · exact kept entry before
  · rw [own]
    exact ⟨member, rfl⟩

theorem exists_lastItem (member : item ∈ items) :
    ∃ last, lastItem items (fun other => keyOf other = keyOf item) = some last ∧ last ∈ items ∧
      keyOf last = keyOf item := by
  have present : (lastItem items fun other => keyOf other = keyOf item).isSome := by
    rw [lastItem, List.find?_isSome]
    exact ⟨item, List.mem_reverse.mpr member, decide_eq_true rfl⟩
  obtain ⟨last, found⟩ := Option.isSome_iff_exists.mp present
  have own := lastItem_holds found
  exact ⟨last, found, lastItem_mem found, of_decide_eq_true own⟩

theorem mem_values_index_iff (identified : Identified keyOf items) :
    item ∈ (index keyOf items).map Prod.snd ↔ item ∈ items := by
  constructor
  · intro member
    obtain ⟨entry, inside, rfl⟩ := List.mem_map.mp member
    exact (entry_of_mem_index entry inside).1
  · intro member
    obtain ⟨last, found, lastMember, own⟩ := @exists_lastItem _ _ _ keyOf items item member
    rw [← find_index] at found
    rw [identified item member last lastMember own.symm]
    exact List.mem_map.mpr ⟨_, mem_of_find found, rfl⟩

end Divine.Indexing
