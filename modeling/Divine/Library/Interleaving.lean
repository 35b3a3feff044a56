/-
This file develops the interleaving of concurrent calls over shared memory.
-/

import Divine.Library.Transition
import Mathlib.Algebra.Order.BigOperators.Group.List
import Mathlib.Tactic.Ring

namespace Divine.Interleaving

open List Option

variable {Shared Call Event : Type*}

/-! ### Pools of calls -/

structure System (Shared Call Event : Type*) where
  starts : Shared → Call → Bool
  advance : Shared → Call → Shared × Option Call
  environment : Shared → Event → Option Shared

structure Pool (Shared Call : Type*) where
  shared : Shared
  calls : List Call

inductive Action (Call Event : Type*) where
  | start (call : Call)
  | step (index : Nat)
  | environment (event : Event)

/-- The calls after the one at an index went on to its next stage, or ended. -/
def proceed (calls : List Call) (index : Nat) : Option Call → List Call
  | some next => calls.set index next
  | none => calls.eraseIdx index

variable (system : System Shared Call Event)

def poolStep (pool : Pool Shared Call) : Action Call Event → Option (Pool Shared Call)
  | .start call =>
      if system.starts pool.shared call then some { pool with calls := pool.calls ++ [call] }
      else none
  | .step index =>
      pool.calls[index]?.map fun call =>
        ⟨(system.advance pool.shared call).1,
          proceed pool.calls index (system.advance pool.shared call).2⟩
  | .environment event =>
      (system.environment pool.shared event).map fun shared => { pool with shared := shared }

def Pool.idle (shared : Shared) : Pool Shared Call where
  shared := shared
  calls := []

/-! ### Advancing one call -/

theorem mem_proceed {calls : List Call} {index : Nat} {next : Option Call} {call : Call}
    (member : call ∈ proceed calls index next) :
    next = some call ∨ call ∈ calls.eraseIdx index := by
  cases next with
  | none => exact .inr member
  | some other =>
    induction calls generalizing index with
    | nil => cases member
    | cons head rest ih =>
      cases index with
      | zero =>
        rcases mem_cons.mp member with rfl | later
        · exact .inl rfl
        · exact .inr later
      | succ index =>
        rcases mem_cons.mp member with rfl | later
        · exact .inr mem_cons_self
        · rcases ih later with equal | kept
          · exact .inl equal
          · exact .inr (mem_cons_of_mem head kept)

theorem mem_proceed_of_mem {calls : List Call} {call : Call} (member : call ∈ calls) (index : Nat)
    (next : Option Call) : calls[index]? = some call ∨ call ∈ proceed calls index next := by
  obtain ⟨position, bound, rfl⟩ := getElem_of_mem member
  by_cases same : position = index
  · rw [← same, getElem?_eq_getElem bound]
    exact .inl rfl
  · refine .inr ?_
    cases next with
    | none => exact mem_eraseIdx_iff_getElem.mpr ⟨position, bound, same, rfl⟩
    | some other =>
      have kept : (calls.set index other)[position]? = some calls[position] := by
        rw [getElem?_set_ne (Ne.symm same), getElem?_eq_getElem bound]
      exact mem_of_getElem? kept

theorem mem_proceed_of_mem_eraseIdx {calls : List Call} {index : Nat} {call : Call}
    (member : call ∈ calls.eraseIdx index) (next : Option Call) :
    call ∈ proceed calls index next := by
  cases next with
  | none => exact member
  | some other =>
    obtain ⟨position, differs, present⟩ := mem_eraseIdx_iff_getElem?.mp member
    have kept : (calls.set index other)[position]? = some call := by
      rw [getElem?_set_ne (Ne.symm differs)]
      exact present
    exact mem_of_getElem? kept

theorem mem_proceed_next {calls : List Call} {index : Nat} {call : Call}
    (present : calls[index]? = some call) (next : Call) : next ∈ proceed calls index (some next) :=
  List.mem_set (List.getElem?_eq_some_iff.mp present).1 next

theorem proceed_concat (calls : List Call) (call : Call) (next : Option Call) :
    proceed (calls ++ [call]) calls.length next = calls ++ next.toList := by
  cases next with
  | none =>
    show (calls ++ [call]).eraseIdx calls.length = _
    rw [eraseIdx_append_of_length_le (Nat.le_refl _), Nat.sub_self]
    rfl
  | some other =>
    show (calls ++ [call]).set calls.length other = _
    rw [set_append_right _ _ (Nat.le_refl _), Nat.sub_self]
    rfl

theorem exists_filterMap_proceed {Part : Type*} (part : Call → Option Part) {calls : List Call}
    {index : Nat} {call : Call} (present : calls[index]? = some call) :
    ∃ before after, calls.filterMap part = before ++ ((part call).toList ++ after) ∧
      ∀ next, (proceed calls index next).filterMap part =
        before ++ ((next.bind part).toList ++ after) := by
  obtain ⟨bound, rfl⟩ := List.getElem?_eq_some_iff.mp present
  have toList (found : Option Part) (rest : List Part) :
      found.toList ++ rest = found.elim rest fun item => item :: rest := by
    cases found <;> rfl
  refine ⟨(calls.take index).filterMap part, (calls.drop (index + 1)).filterMap part, ?_,
    fun next => ?_⟩
  · conv_lhs => rw [← take_append_drop index calls, drop_eq_getElem_cons bound]
    rw [filterMap_append, filterMap_cons, toList]
    cases part calls[index] <;> rfl
  · cases next with
    | none =>
      show (calls.eraseIdx index).filterMap part = _
      rw [eraseIdx_eq_take_drop_succ, filterMap_append]
      rfl
    | some stage =>
      show (calls.set index stage).filterMap part = _
      rw [set_eq_take_append_cons_drop, if_pos bound, filterMap_append,
        filterMap_cons, toList, bind_some]
      cases part stage <;> rfl

theorem nodup_map_proceed {Key : Type*} {key : Call → Key} {calls : List Call} {index : Nat}
    {call : Call} {next : Option Call} (present : calls[index]? = some call)
    (keeps : ∀ stage ∈ next, key stage = key call) (nodup : (calls.map key).Nodup) :
    ((proceed calls index next).map key).Nodup := by
  cases next with
  | none => exact nodup.sublist ((eraseIdx_sublist calls index).map key)
  | some stage =>
    obtain ⟨bound, rfl⟩ := List.getElem?_eq_some_iff.mp present
    have inside : index < (calls.map key).length := by rwa [length_map]
    have own : (calls.map key)[index] = key calls[index] := getElem_map key
    have same : (calls.set index stage).map key = calls.map key := by
      rw [map_set, keeps stage rfl, ← own]
      exact set_getElem_self inside
    show ((calls.set index stage).map key).Nodup
    rwa [same]

theorem key_ne_of_mem_eraseIdx {Key : Type*} {key : Call → Key} {calls : List Call} {index : Nat}
    {call other : Call} (nodup : (calls.map key).Nodup) (present : calls[index]? = some call)
    (member : other ∈ calls.eraseIdx index) : key other ≠ key call := by
  obtain ⟨position, differs, found⟩ := mem_eraseIdx_iff_getElem?.mp member
  intro same
  have bound : position < (calls.map key).length := by
    rw [length_map]
    exact (List.getElem?_eq_some_iff.mp found).1
  have equal : (calls.map key)[position]? = (calls.map key)[index]? := by
    rw [getElem?_map, getElem?_map, found, present]
    exact congrArg some same
  exact differs ((getElem?_inj bound nodup).mp equal)

/-- The weight of a stage, none once the call has ended. -/
def weightOf (weight : Call → Nat) (next : Option Call) : Nat := next.elim 0 weight

def total (weight : Call → Nat) (calls : List Call) : Nat := (calls.map weight).sum

@[simp] theorem total_nil (weight : Call → Nat) : total weight [] = 0 := rfl

@[simp] theorem total_cons (weight : Call → Nat) (call : Call) (rest : List Call) :
    total weight (call :: rest) = weight call + total weight rest := by
  unfold total
  rw [map_cons, sum_cons]

theorem total_append (weight : Call → Nat) (first second : List Call) :
    total weight (first ++ second) = total weight first + total weight second := by
  unfold total
  rw [map_append, sum_append]

theorem total_proceed (weight : Call → Nat) {calls : List Call} {index : Nat} {call : Call}
    (present : calls[index]? = some call) (next : Option Call) :
    total weight (proceed calls index next) + weight call =
      total weight calls + weightOf weight next := by
  induction calls generalizing index with
  | nil => cases present
  | cons head rest ih =>
    cases index with
    | zero =>
      obtain rfl : head = call := Option.some.inj present
      cases next with
      | none =>
        show total weight rest + weight head = total weight (head :: rest) + 0
        rw [total_cons]
        ring
      | some other =>
        show total weight (other :: rest) + weight head = total weight (head :: rest) + weight other
        rw [total_cons, total_cons]
        ring
    | succ index =>
      have later := ih present
      cases next with
      | none =>
        show total weight (head :: proceed rest index none) + _ = _
        rw [total_cons, total_cons, Nat.add_assoc, later, Nat.add_assoc]
      | some other =>
        show total weight (head :: proceed rest index (some other)) + _ = _
        rw [total_cons, total_cons, Nat.add_assoc, later, Nat.add_assoc]

theorem total_eq_zero {weight : Call → Nat} {calls : List Call}
    (light : ∀ call ∈ calls, weight call = 0) : total weight calls = 0 :=
  sum_eq_zero fun value member => by
    obtain ⟨call, present, rfl⟩ := mem_map.mp member
    exact light call present

theorem le_total {weight : Call → Nat} {calls : List Call} {call : Call} (member : call ∈ calls) :
    weight call ≤ total weight calls :=
  le_sum_of_mem (mem_map_of_mem member)

theorem total_eraseIdx (weight : Call → Nat) {calls : List Call} {index : Nat} {call : Call}
    (present : calls[index]? = some call) :
    total weight (calls.eraseIdx index) + weight call = total weight calls :=
  total_proceed weight present none

theorem weight_eq_zero_of_mem_eraseIdx {weight : Call → Nat} {calls : List Call} {index : Nat}
    {call other : Call} (light : total weight calls ≤ 1) (present : calls[index]? = some call)
    (heavy : 0 < weight call) (member : other ∈ calls.eraseIdx index) : weight other = 0 := by
  have whole := total_eraseIdx weight present
  have part : weight other ≤ total weight (calls.eraseIdx index) := le_total member
  omega

/-! ### Assertions -/

section Assertions

variable (common : Shared → Prop) (assertion : Shared → Call → Prop)

/-- The shared memory meets the common assertion, and every call its own. -/
structure Asserted (pool : Pool Shared Call) : Prop where
  common : common pool.shared
  calls : ∀ call ∈ pool.calls, assertion pool.shared call

variable {common assertion}

/-- A step keeps the assertions when starting, a statement of a call and the environment do, and
statements leave other calls' alone. -/
theorem Asserted.step {pool next : Pool Shared Call} {action : Action Call Event}
    (asserted : Asserted common assertion pool)
    (starting : ∀ call, action = .start call → system.starts pool.shared call = true →
      assertion pool.shared call)
    (advancing : ∀ index call, action = .step index → pool.calls[index]? = some call →
      common (system.advance pool.shared call).1 ∧
        (∀ stage, (system.advance pool.shared call).2 = some stage →
          assertion (system.advance pool.shared call).1 stage) ∧
        ∀ other ∈ pool.calls.eraseIdx index, assertion (system.advance pool.shared call).1 other)
    (environment : ∀ event shared, action = .environment event →
      system.environment pool.shared event = some shared →
      common shared ∧ ∀ call ∈ pool.calls, assertion shared call)
    (stepped : poolStep system pool action = some next) : Asserted common assertion next := by
  cases action with
  | start call =>
    simp only [poolStep] at stepped
    split at stepped
    · rename_i starts
      cases stepped
      refine ⟨asserted.common, fun other member => ?_⟩
      rcases mem_append.mp member with present | added
      · exact asserted.calls other present
      · rw [mem_singleton.mp added]
        exact starting call rfl starts
    · cases stepped
  | step index =>
    obtain ⟨call, present, rfl⟩ := map_eq_some_iff.mp stepped
    obtain ⟨kept, established, undisturbed⟩ := advancing index call rfl present
    refine ⟨kept, fun other member => ?_⟩
    rcases mem_proceed member with stage | present
    · exact established other stage
    · exact undisturbed other present
  | environment event =>
    obtain ⟨shared, moved, rfl⟩ := map_eq_some_iff.mp stepped
    obtain ⟨kept, undisturbed⟩ := environment event shared rfl moved
    exact ⟨kept, undisturbed⟩

end Assertions

/-! ### Counting -/

section Counting

variable (counted bound : Shared → Nat) (weight : Call → Nat)

def Bounded (pool : Pool Shared Call) : Prop :=
  counted pool.shared + total weight pool.calls ≤ bound pool.shared

variable {counted bound weight}

/-- A step keeps the bound when a call starts without weight, and a statement and the environment
raise it by no more. -/
theorem Bounded.step {pool next : Pool Shared Call} {action : Action Call Event}
    (bounded : Bounded counted bound weight pool)
    (starting : ∀ call, action = .start call → system.starts pool.shared call = true →
      weight call = 0)
    (advancing : ∀ index call, action = .step index → pool.calls[index]? = some call →
      counted (system.advance pool.shared call).1 +
          weightOf weight (system.advance pool.shared call).2 + bound pool.shared ≤
        counted pool.shared + weight call + bound (system.advance pool.shared call).1)
    (environment : ∀ event shared, action = .environment event →
      system.environment pool.shared event = some shared →
      counted shared + bound pool.shared ≤ counted pool.shared + bound shared)
    (stepped : poolStep system pool action = some next) : Bounded counted bound weight next := by
  unfold Bounded at *
  cases action with
  | start call =>
    simp only [poolStep] at stepped
    split at stepped
    · rename_i starts
      cases stepped
      have light := starting call rfl starts
      rw [total_append, total_cons, total_nil, light]
      omega
    · cases stepped
  | step index =>
    obtain ⟨call, present, rfl⟩ := map_eq_some_iff.mp stepped
    have exchange := total_proceed weight present (system.advance pool.shared call).2
    have raised := advancing index call rfl present
    show counted (system.advance pool.shared call).1 +
      total weight (proceed pool.calls index (system.advance pool.shared call).2) ≤
        bound (system.advance pool.shared call).1
    omega
  | environment event =>
    obtain ⟨shared, moved, rfl⟩ := map_eq_some_iff.mp stepped
    have raised := environment event shared rfl moved
    show counted shared + total weight pool.calls ≤ bound shared
    omega

end Counting

end Divine.Interleaving
