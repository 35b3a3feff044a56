/-
This file watches the runs of a system whose steps have effects.
-/

import Divine.Library.Transition

namespace Divine.Observer

open Transition

variable {State Action Effect History : Type*}

/-- What an observer adds to its history on a step, with the states before and after it. -/
abbrev Observe (State Action Effect History : Type*) :=
  History → State → Action → State → Effect → History

def unwatched (step : State → Action → Option (State × Effect)) (state : State) (action : Action) :
    Option State :=
  (step state action).map Prod.fst

def watched (step : State → Action → Option (State × Effect))
    (observe : Observe State Action Effect History) (seen : State × History) (action : Action) :
    Option (State × History) :=
  (step seen.1 action).map fun outcome =>
    (outcome.1, observe seen.2 seen.1 action outcome.1 outcome.2)

variable {step : State → Action → Option (State × Effect)}
  {observe : Observe State Action Effect History}

theorem watched_eq_some {seen next : State × History} {action : Action} :
    watched step observe seen action = some next ↔ ∃ effect,
      step seen.1 action = some (next.1, effect) ∧
        next.2 = observe seen.2 seen.1 action next.1 effect := by
  constructor
  · intro stepped
    obtain ⟨⟨state, effect⟩, ended, rfl⟩ := Option.map_eq_some_iff.mp stepped
    exact ⟨effect, ended, rfl⟩
  · rintro ⟨effect, stepped, recorded⟩
    unfold watched
    rw [stepped, Option.map_some, ← recorded]

end Divine.Observer
