/-
This file develops the runs of a system given by a partial step function.
-/

import Mathlib.Data.List.Basic
import Mathlib.Data.Option.Basic
import Mathlib.Logic.Relation

namespace Divine.Transition

variable {State Action : Type*} (step : State → Action → Option State)

/-! ### Runs -/

def run : State → List Action → Option State
  | state, [] => some state
  | state, action :: rest => (step state action).bind fun next => run next rest

@[simp] theorem run_nil (state : State) : run step state [] = some state := rfl

@[simp] theorem run_cons (state : State) (action : Action) (rest : List Action) :
    run step state (action :: rest) = (step state action).bind fun next => run step next rest :=
  rfl

theorem run_cons_eq_some {state final : State} {action : Action} {rest : List Action} :
    run step state (action :: rest) = some final ↔
      ∃ next, step state action = some next ∧ run step next rest = some final := by
  rw [run_cons, Option.bind_eq_some_iff]

theorem run_append (state : State) (first second : List Action) :
    run step state (first ++ second) =
      (run step state first).bind fun middle => run step middle second := by
  induction first generalizing state with
  | nil => rfl
  | cons action rest ih =>
    rw [List.cons_append, run_cons, run_cons, Option.bind_assoc]
    exact congrArg (Option.bind (step state action)) (funext fun next => ih next)

/-! ### Runs whose steps meet a condition -/

def Meets (condition : State → Action → Prop) : State → List Action → Prop
  | _, [] => True
  | state, action :: rest =>
      condition state action ∧ ∀ next, step state action = some next → Meets condition next rest

@[simp] theorem meets_nil (condition : State → Action → Prop) (state : State) :
    Meets step condition state [] := trivial

theorem Meets.cons {condition : State → Action → Prop} {state next : State} {action : Action}
    {rest : List Action} (here : condition state action)
    (stepped : step state action = some next) (later : Meets step condition next rest) :
    Meets step condition state (action :: rest) := by
  refine ⟨here, fun other restepped => ?_⟩
  rw [← Option.some.inj (stepped.symm.trans restepped)]
  exact later

theorem meets_cons {condition : State → Action → Prop} {state : State} {action : Action}
    {rest : List Action} : Meets step condition state (action :: rest) ↔
      condition state action ∧ (step state action).elim True fun next =>
        Meets step condition next rest := by
  refine and_congr_right fun _ => ?_
  cases step state action with
  | none => exact ⟨fun _ => trivial, fun _ _ => nofun⟩
  | some next =>
    exact ⟨fun later => later next rfl, fun later _ same => Option.some.inj same ▸ later⟩

instance decidableMeets {condition : State → Action → Prop}
    [decidable : ∀ state action, Decidable (condition state action)] :
    ∀ state actions, Decidable (Meets step condition state actions)
  | _, [] => isTrue trivial
  | state, action :: rest =>
      have : Decidable ((step state action).elim True fun next => Meets step condition next rest) :=
        match step state action with
        | none => isTrue trivial
        | some next => decidableMeets next rest
      decidable_of_iff _ (meets_cons step).symm

theorem exists_of_any {Outcome : Type*} {computed : Option Outcome} (property : Outcome → Prop)
    [DecidablePred property] (holds : computed.any (fun outcome => property outcome) = true) :
    ∃ outcome, computed = some outcome ∧ property outcome := by
  obtain ⟨outcome, same, held⟩ := (Option.any_eq_true _ _).mp holds
  exact ⟨outcome, same, of_decide_eq_true held⟩

theorem exists_of_isSome {Outcome : Type*} {computed : Option Outcome} {property : Outcome → Prop}
    (ends : computed.isSome = true)
      (holds : ∀ outcome, computed = some outcome → property outcome) :
    ∃ outcome, computed = some outcome ∧ property outcome := by
  obtain ⟨outcome, same⟩ := Option.isSome_iff_exists.mp ends
  exact ⟨outcome, same, holds outcome same⟩

theorem Meets.mem {condition : State → Action → Prop} {state : State} {actions all : List Action}
    (meets : Meets step condition state actions) (subset : actions ⊆ all) :
    Meets step (fun current action => condition current action ∧ action ∈ all) state actions := by
  induction actions generalizing state with
  | nil => trivial
  | cons action rest ih =>
    obtain ⟨present, others⟩ := List.cons_subset.mp subset
    exact ⟨⟨meets.1, present⟩, fun next stepped =>
      ih (meets.2 next stepped) others⟩

theorem meets_trivial (state : State) (actions : List Action) :
    Meets step (fun _ _ => True) state actions := by
  induction actions generalizing state with
  | nil => trivial
  | cons action rest ih => exact ⟨trivial, fun next _ => ih next⟩

theorem meets_append {condition : State → Action → Prop} {state : State}
    {first second : List Action} :
    Meets step condition state (first ++ second) ↔
      Meets step condition state first ∧
        ∀ middle, run step state first = some middle → Meets step condition middle second := by
  induction first generalizing state with
  | nil => simp
  | cons action rest ih =>
    simp only [List.cons_append, Meets, run_cons_eq_some, ih]
    constructor
    · rintro ⟨here, later⟩
      refine ⟨⟨here, fun next stepped => (later next stepped).1⟩, ?_⟩
      rintro middle ⟨next, stepped, ran⟩
      exact (later next stepped).2 middle ran
    · rintro ⟨⟨here, later⟩, after⟩
      exact ⟨here, fun next stepped => ⟨later next stepped, fun middle ran =>
        after middle ⟨next, stepped, ran⟩⟩⟩

theorem Meets.last {condition : State → Action → Prop} {state middle : State}
    {actions : List Action} {action : Action}
    (meets : Meets step condition state (actions ++ [action]))
    (ran : run step state actions = some middle) : condition middle action :=
  ((meets_append step).mp meets).2 middle ran |>.1

theorem Meets.init {condition : State → Action → Prop} {state : State}
    {actions : List Action} {action : Action}
    (meets : Meets step condition state (actions ++ [action])) :
    Meets step condition state actions :=
  ((meets_append step).mp meets).1

/-! ### Invariants -/

/-- What steps that meet the condition preserve holds after every run of such steps. -/
theorem invariant_of_meets {condition : State → Action → Prop} {invariant : State → Prop}
    (preserved : ∀ state action next, invariant state → condition state action →
      step state action = some next → invariant next)
    {start final : State} {actions : List Action} (initial : invariant start)
    (meets : Meets step condition start actions) (ran : run step start actions = some final) :
    invariant final := by
  induction actions generalizing start with
  | nil => exact Option.some.inj ran ▸ initial
  | cons action rest ih =>
    obtain ⟨next, stepped, continued⟩ := (run_cons_eq_some step).mp ran
    exact ih (preserved start action next initial meets.1 stepped)
      (meets.2 next stepped) continued

theorem invariant_of_run {invariant : State → Prop}
    (preserved : ∀ state action next, invariant state →
      step state action = some next → invariant next)
    {start final : State} {actions : List Action} (initial : invariant start)
    (ran : run step start actions = some final) : invariant final := by
  induction actions generalizing start with
  | nil => exact Option.some.inj ran ▸ initial
  | cons action rest ih =>
    obtain ⟨next, stepped, continued⟩ := (run_cons_eq_some step).mp ran
    exact ih (preserved start action next initial stepped) continued

/-- When a loss by a step without the condition is never restored, a run without the loss meets it.
-/
theorem meets_of_run {condition : State → Action → Prop} {invariant lost : State → Prop}
    (preserved : ∀ state action next, invariant state →
      step state action = some next → invariant next)
    (violated : ∀ state action next, invariant state → ¬condition state action →
      step state action = some next → lost next)
    (persists : ∀ state action next, invariant state → lost state →
      step state action = some next → lost next)
    {start final : State} {actions : List Action} (initial : invariant start)
    (ran : run step start actions = some final) (kept : ¬lost final) :
    Meets step condition start actions := by
  induction actions generalizing start with
  | nil => trivial
  | cons action rest ih =>
    obtain ⟨next, stepped, continued⟩ := (run_cons_eq_some step).mp ran
    have held : invariant next := preserved start action next initial stepped
    by_cases here : condition start action
    · exact .cons step here stepped (ih held continued)
    · have both : invariant final ∧ lost final :=
        @invariant_of_run _ _ step (fun state => invariant state ∧ lost state)
          (fun state action next holds stepped => ⟨preserved state action next holds.1 stepped,
            persists state action next holds.1 holds.2 stepped⟩) _ _ _
          ⟨held, violated start action next initial here stepped⟩ continued
      exact absurd both.2 kept

/-- When a step keeps an invariant exactly under a condition, a run does exactly when its steps meet
it. -/
theorem invariant_iff_meets {condition : State → Action → Prop} {invariant : State → Prop}
    (exact : ∀ state action next, invariant state →
      step state action = some next → (invariant next ↔ condition state action))
    {start final : State} {actions : List Action} (initial : invariant start)
    (ran : run step start actions = some final) :
    (∀ before after reached, actions = before ++ after → run step start before = some reached →
      invariant reached) ↔ Meets step condition start actions := by
  induction actions generalizing start with
  | nil =>
    refine iff_of_true (fun before after reached same reaches => ?_) trivial
    obtain ⟨rfl, -⟩ := List.append_eq_nil_iff.mp same.symm
    exact Option.some.inj reaches ▸ initial
  | cons action rest ih =>
    obtain ⟨next, stepped, continued⟩ := (run_cons_eq_some step).mp ran
    constructor
    · intro everywhere
      have kept : invariant next :=
        everywhere [action] rest next rfl (by rw [run_cons, stepped]; rfl)
      refine .cons step ((exact start action next initial stepped).mp kept) stepped
        ((ih kept continued).mp fun before after reached same reaches => ?_)
      exact everywhere (action :: before) after reached (congrArg (action :: ·) same)
        ((run_cons_eq_some step).mpr ⟨next, stepped, reaches⟩)
    · intro meets before after reached same reaches
      cases before with
      | nil => exact Option.some.inj reaches ▸ initial
      | cons first before =>
        obtain ⟨rfl, sameRest⟩ := List.cons.inj same
        obtain ⟨other, alsoStepped, reaches⟩ := (run_cons_eq_some step).mp reaches
        cases stepped.symm.trans alsoStepped
        have kept := (exact start action next initial stepped).mpr meets.1
        exact (ih kept continued).mpr (meets.2 next stepped) before after reached
          sameRest reaches

end Divine.Transition
