/-
This file develops a heap of promises: cells that start pending and are settled at most
once.
-/

import Mathlib.Data.List.Basic
import Mathlib.Data.Option.Basic

namespace Divine.Promise

variable {Value : Type*}

/-- The promises allocated so far, by their place; a pending one has no value. -/
abbrev Heap (Value : Type*) := List (Option Value)

def settled (heap : Heap Value) (promise : Nat) : Option Value := heap[promise]?.join

/-- A further promise, which is pending; its place is the length of the heap before. -/
def allocate (heap : Heap Value) : Heap Value := heap ++ [none]

def complete (heap : Heap Value) (promise : Nat) (value : Value) : Heap Value :=
  if (settled heap promise).isNone then heap.set promise (some value) else heap

variable {heap : Heap Value} {promise other : Nat} {value old : Value}

@[simp] theorem length_allocate (heap : Heap Value) :
    (allocate heap).length = heap.length + 1 := List.length_append

@[simp] theorem length_complete (heap : Heap Value) (promise : Nat) (value : Value) :
    (complete heap promise value).length = heap.length := by
  unfold complete
  split
  · exact List.length_set
  · rfl

/-! ### Allocation -/

theorem lt_of_settled (present : settled heap promise = some value) : promise < heap.length := by
  by_contra outside
  unfold settled at present
  rw [List.getElem?_eq_none (Nat.le_of_not_lt outside)] at present
  cases present

theorem settled_of_le (outside : heap.length ≤ promise) : settled heap promise = none := by
  unfold settled
  rw [List.getElem?_eq_none outside]
  rfl

theorem settled_allocate (heap : Heap Value) (promise : Nat) :
    settled (allocate heap) promise = settled heap promise := by
  unfold settled allocate
  by_cases inside : promise < heap.length
  · rw [List.getElem?_append_left inside]
  · rw [List.getElem?_append_right (Nat.le_of_not_lt inside),
      List.getElem?_eq_none (Nat.le_of_not_lt inside)]
    rcases promise - heap.length with _ | later <;> rfl

/-! ### Completion -/

theorem complete_of_settled (before : settled heap promise = some old) :
    complete heap promise value = heap := by
  unfold complete
  rw [before]
  rfl

theorem settled_complete_self (pending : settled heap promise = none)
    (inside : promise < heap.length) :
    settled (complete heap promise value) promise = some value := by
  unfold complete
  rw [pending, Option.isNone_none, if_pos rfl]
  unfold settled
  rw [List.getElem?_set_self inside]
  rfl

theorem settled_complete_other (different : other ≠ promise) :
    settled (complete heap promise value) other = settled heap other := by
  unfold complete
  split
  · unfold settled
    rw [List.getElem?_set_ne (Ne.symm different)]
  · rfl

theorem settled_complete_cases (present : settled (complete heap promise value) other = some old) :
    settled heap other = some old ∨ other = promise ∧ value = old := by
  by_cases same : other = promise
  · subst same
    cases before : settled heap other with
    | some earlier =>
      rw [complete_of_settled before, before] at present
      exact .inl present
    | none =>
      refine .inr ⟨rfl, ?_⟩
      have inside := lt_of_settled present
      rw [length_complete] at inside
      rw [settled_complete_self before inside] at present
      exact Option.some.inj present
  · rw [settled_complete_other same] at present
    exact .inl present

end Divine.Promise
