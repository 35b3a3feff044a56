/-
This file develops programs that run alone, one stage at a time.
-/

import Mathlib.Data.Option.Basic

namespace Divine.Stages

variable {Shared Stage Answer Fault : Type*}

inductive Outcome (Stage Answer : Type*) where
  | next (stage : Stage)
  | answer (answer : Answer)
  deriving DecidableEq

structure Program (Shared Stage Answer : Type*) where
  perform : Shared → Stage → Shared × Outcome Stage Answer
  rank : Stage → Nat
  descends : ∀ {shared stage next}, (perform shared stage).2 = .next next → rank next < rank stage

namespace Program

/-! ### Faults -/

/-- The program in which the stages that a schedule names fail, and leave the shared state alone. -/
def withFaults (program : Program Shared Stage Answer)
    (failed : Stage → Fault → Outcome Stage Answer)
    (lower : ∀ stage fault next, failed stage fault = .next next →
      program.rank next < program.rank stage)
    (faults : Stage → Option Fault) : Program Shared Stage Answer where
  perform shared stage :=
    (faults stage).elim (program.perform shared stage) fun fault => (shared, failed stage fault)
  rank := program.rank
  descends := by
    intro shared stage next
    cases faults stage with
    | none => exact program.descends
    | some fault => exact lower stage fault next

section Faults

variable {program : Program Shared Stage Answer} {failed : Stage → Fault → Outcome Stage Answer}
  {lower : ∀ stage fault next, failed stage fault = .next next →
    program.rank next < program.rank stage}
  {faults : Stage → Option Fault}

theorem withFaults_perform_none {stage : Stage} (sound : faults stage = none) (shared : Shared) :
    (program.withFaults failed lower faults).perform shared stage =
      program.perform shared stage := by
  show (faults stage).elim _ _ = _
  rw [sound]
  rfl

theorem withFaults_perform_some {stage : Stage} {fault : Fault} (broken : faults stage = some fault)
    (shared : Shared) : (program.withFaults failed lower faults).perform shared stage =
      (shared, failed stage fault) := by
  show (faults stage).elim _ _ = _
  rw [broken]
  rfl

end Faults

/-! ### Runs -/

variable (program : Program Shared Stage Answer)

def runFor : Nat → Shared → Stage → Option (Shared × Answer)
  | 0, _, _ => none
  | fuel + 1, shared, stage =>
    match program.perform shared stage with
    | (after, .next next) => runFor fuel after next
    | (after, .answer answer) => some (after, answer)

variable {program} {shared after : Shared} {stage next : Stage} {answer : Answer}

theorem runFor_of_next (performed : program.perform shared stage = (after, .next next))
    (fuel : Nat) : program.runFor (fuel + 1) shared stage = program.runFor fuel after next := by
  simp only [runFor, performed]

theorem runFor_of_answer (performed : program.perform shared stage = (after, .answer answer))
    (fuel : Nat) : program.runFor (fuel + 1) shared stage = some (after, answer) := by
  simp only [runFor, performed]

theorem runFor_isSome {fuel : Nat} (enough : program.rank stage < fuel) :
    (program.runFor fuel shared stage).isSome = true := by
  induction fuel generalizing shared stage with
  | zero => exact absurd enough (Nat.not_lt_zero _)
  | succ fuel ih =>
    cases performed : program.perform shared stage with
    | mk after outcome =>
      cases outcome with
      | next next =>
        have lower : program.rank next < program.rank stage :=
          program.descends (congrArg Prod.snd performed)
        rw [runFor_of_next performed]
        exact ih (by omega)
      | answer answer =>
        rw [runFor_of_answer performed]
        rfl

theorem runFor_eq {first second : Nat} (enough : program.rank stage < first)
    (also : program.rank stage < second) :
    program.runFor first shared stage = program.runFor second shared stage := by
  induction first generalizing second shared stage with
  | zero => exact absurd enough (Nat.not_lt_zero _)
  | succ fuel ih =>
    obtain ⟨other, rfl⟩ : ∃ other, second = other + 1 := ⟨second - 1, by omega⟩
    cases performed : program.perform shared stage with
    | mk after outcome =>
      cases outcome with
      | next next =>
        have lower : program.rank next < program.rank stage :=
          program.descends (congrArg Prod.snd performed)
        rw [runFor_of_next performed, runFor_of_next performed]
        exact ih (by omega) (by omega)
      | answer answer =>
        rw [runFor_of_answer performed, runFor_of_answer performed]

variable (program) in
def run (shared : Shared) (stage : Stage) : Shared × Answer :=
  (program.runFor (program.rank stage + 1) shared stage).get
    (runFor_isSome (Nat.lt_succ_self _))

theorem runFor_eq_run {fuel : Nat} (enough : program.rank stage < fuel) :
    program.runFor fuel shared stage = some (program.run shared stage) := by
  unfold run
  rw [Option.some_get]
  exact runFor_eq enough (Nat.lt_succ_self _)

theorem run_of_next (performed : program.perform shared stage = (after, .next next)) :
    program.run shared stage = program.run after next := by
  have lower : program.rank next < program.rank stage :=
    program.descends (congrArg Prod.snd performed)
  have both : some (program.run shared stage) = some (program.run after next) := by
    rw [← runFor_eq_run (Nat.lt_succ_self (program.rank stage)), runFor_of_next performed,
      runFor_eq_run lower]
  exact Option.some.inj both

theorem run_of_answer (performed : program.perform shared stage = (after, .answer answer)) :
    program.run shared stage = (after, answer) := by
  have both : some (program.run shared stage) = some (after, answer) := by
    rw [← runFor_eq_run (Nat.lt_succ_self (program.rank stage)), runFor_of_answer performed]
  exact Option.some.inj both

theorem run_cases (program : Program Shared Stage Answer) (shared : Shared) (stage : Stage) :
    (∃ after next, program.perform shared stage = (after, .next next) ∧
      program.run shared stage = program.run after next) ∨
    (∃ after answer, program.perform shared stage = (after, .answer answer) ∧
      program.run shared stage = (after, answer)) := by
  cases performed : program.perform shared stage with
  | mk after outcome =>
    cases outcome with
    | next next => exact .inl ⟨after, next, rfl, run_of_next performed⟩
    | answer answer => exact .inr ⟨after, answer, rfl, run_of_answer performed⟩

/-- What every stage preserves gives the postcondition that every answer turns it into. -/
theorem run_invariant {invariant : Shared → Stage → Prop} {post : Shared → Answer → Prop}
    (preserved : ∀ shared stage after next, invariant shared stage →
      program.perform shared stage = (after, .next next) → invariant after next)
    (answered : ∀ shared stage after answer, invariant shared stage →
      program.perform shared stage = (after, .answer answer) → post after answer)
    (initial : invariant shared stage) :
    post (program.run shared stage).1 (program.run shared stage).2 := by
  induction rank : program.rank stage using Nat.strongRecOn generalizing shared stage with
  | ind rank ih =>
    rcases program.run_cases shared stage with
      ⟨after, next, performed, same⟩ | ⟨after, answer, performed, same⟩
    · have lower : program.rank next < program.rank stage :=
        program.descends (congrArg Prod.snd performed)
      rw [same]
      exact ih _ (by omega) (preserved _ _ _ _ initial performed) rfl
    · rw [same]
      exact answered _ _ _ _ initial performed

end Program

end Divine.Stages
