/-
This file develops stores that a log of writes determines.
-/

import Mathlib.Data.List.Infix

namespace Divine.Replay

variable {Key Value : Type*} [DecidableEq Key]

/-! ### Writes -/

inductive Write (Key Value : Type*) where
  | set (key : Key) (value : Value)
  | remove (key : Key)
  | clear
  deriving DecidableEq

namespace Write

def removes (key : Key) : Write Key Value → Bool
  | set _ _ => false
  | remove other => other = key
  | clear => true

def touches (key : Key) : Write Key Value → Bool
  | set other _ => other = key
  | write => write.removes key

def apply (write : Write Key Value) (store : Key → Option Value) (key : Key) : Option Value :=
  match write with
  | set other value => if other = key then some value else store key
  | remove other => if other = key then none else store key
  | clear => none

end Write

def replay (start : Key → Option Value) (log : List (Write Key Value)) : Key → Option Value :=
  log.foldr Write.apply start

section Replay

variable {start : Key → Option Value} {log : List (Write Key Value)} {write : Write Key Value}
  {store : Key → Option Value} {key : Key} {value : Value}

theorem touches_of_removes (removes : write.removes key = true) : write.touches key = true := by
  cases write with
  | set other value => cases removes
  | remove other => exact removes
  | clear => rfl

theorem apply_of_not_touches (untouched : write.touches key = false) :
    write.apply store key = store key := by
  cases write with
  | set | remove => exact if_neg (of_decide_eq_false untouched)
  | clear => cases untouched

theorem apply_eq_some (held : write.apply store key = some value) :
    write = .set key value ∨ (write.touches key = false ∧ store key = some value) := by
  cases touched : write.touches key with
  | false => exact .inr ⟨rfl, (apply_of_not_touches touched).symm.trans held⟩
  | true =>
    cases write with
    | set other value' =>
      have own : other = key := of_decide_eq_true touched
      subst own
      exact .inl (congrArg (Write.set other) (Option.some.inj ((if_pos rfl).symm.trans held)))
    | remove other => cases (if_pos (of_decide_eq_true touched)).symm.trans held
    | clear => cases held

theorem replay_eq_some (held : replay start log key = some value) :
    (start key = some value ∧ ∀ write ∈ log, write.touches key = false) ∨
      ∃ later earlier, log = later ++ .set key value :: earlier ∧
        ∀ write ∈ later, write.touches key = false := by
  induction log with
  | nil => exact .inl ⟨held, nofun⟩
  | cons write log ih =>
    rcases apply_eq_some held with rfl | ⟨untouched, earlierHeld⟩
    · exact .inr ⟨[], log, rfl, nofun⟩
    · rcases ih earlierHeld with ⟨initial, none⟩ | ⟨later, earlier, rfl, none⟩
      · exact .inl ⟨initial, List.forall_mem_cons.mpr ⟨untouched, none⟩⟩
      · exact .inr ⟨write :: later, earlier, rfl, List.forall_mem_cons.mpr ⟨untouched, none⟩⟩

end Replay

end Divine.Replay
