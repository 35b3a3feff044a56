/-
This file models the circuit breaker in front of the Funnelcake API.
-/

import Divine.Library.Dictionary
import Mathlib.Data.List.Induction

namespace Divine.FrontendWeb

open List Dictionary

/-! ### The breaker -/

def circuitBreakerThreshold : Nat := 3

def circuitBreakerResetMs : Int := 30000

structure FunnelcakeHealthStatus where
  available : Bool
  lastChecked : Int
  errorCount : Nat
  lastError : Option String
  deriving DecidableEq

abbrev HealthStatusByUrl := List (String × FunnelcakeHealthStatus)

def getFunnelcakeStatus (health : HealthStatusByUrl) (apiUrl : String) : FunnelcakeHealthStatus :=
  (find health apiUrl).getD ⟨true, 0, 0, none⟩

def isFunnelcakeAvailable (health : HealthStatusByUrl) (apiUrl : String) (now : Int) : Bool :=
  let status := getFunnelcakeStatus health apiUrl
  if circuitBreakerThreshold ≤ status.errorCount then
    if now - status.lastChecked < circuitBreakerResetMs then false else status.available
  else status.available

def recordFunnelcakeSuccess (health : HealthStatusByUrl) (apiUrl : String) (now : Int) :
    HealthStatusByUrl :=
  put health apiUrl ⟨true, now, 0, none⟩

def recordFunnelcakeFailure (health : HealthStatusByUrl) (apiUrl error : String) (now : Int) :
    HealthStatusByUrl :=
  let newErrorCount := (getFunnelcakeStatus health apiUrl).errorCount + 1
  put health apiUrl
    ⟨newErrorCount < circuitBreakerThreshold, now, newErrorCount, some error⟩

def resetFunnelcakeCircuit (health : HealthStatusByUrl) (apiUrl : String) : HealthStatusByUrl :=
  remove health apiUrl

def resetAllFunnelcakeCircuits : HealthStatusByUrl := []

def funnelcakeRequest (health : HealthStatusByUrl) (apiUrl : String) (answer : Except String Unit)
    (now : Int) : HealthStatusByUrl :=
  match answer with
  | .ok _ => recordFunnelcakeSuccess health apiUrl now
  | .error message => recordFunnelcakeFailure health apiUrl message now

def checkFunnelcakeAvailable (health : HealthStatusByUrl) (apiUrl : String) (activeCheck : Bool)
    (answer : Except String Unit) (now : Int) : HealthStatusByUrl × Bool :=
  if !isFunnelcakeAvailable health apiUrl now then (health, false)
  else if activeCheck then (funnelcakeRequest health apiUrl answer now, answer.toBool)
  else (health, true)

/-! ### Histories -/

/-- What is recorded for the URLs. -/
inductive Outcome where
  | success (apiUrl : String)
  | failure (apiUrl error : String)
  | reset (apiUrl : String)
  | resetAll
  deriving DecidableEq

structure Recorded where
  outcome : Outcome
  time : Int
  deriving DecidableEq

def record (health : HealthStatusByUrl) (recorded : Recorded) : HealthStatusByUrl :=
  match recorded.outcome with
  | .success apiUrl => recordFunnelcakeSuccess health apiUrl recorded.time
  | .failure apiUrl error => recordFunnelcakeFailure health apiUrl error recorded.time
  | .reset apiUrl => resetFunnelcakeCircuit health apiUrl
  | .resetAll => resetAllFunnelcakeCircuits

def healthAfter (history : List Recorded) : HealthStatusByUrl := history.foldl record []

def Outcome.concerns (apiUrl : String) : Outcome → Bool
  | .success other | .failure other _ | .reset other => other = apiUrl
  | .resetAll => true

def Outcome.isFailure : Outcome → Bool
  | .failure _ _ => true
  | _ => false

/-- The times of the failures of a URL since its last success or reset, the latest first. -/
def failures (apiUrl : String) (history : List Recorded) : List Int :=
  ((history.reverse.filter fun recorded => recorded.outcome.concerns apiUrl).takeWhile
    fun recorded => recorded.outcome.isFailure).map Recorded.time

/-- The circuit was opened, less than half a minute ago. -/
def Open (apiUrl : String) (history : List Recorded) (now : Int) : Prop :=
  circuitBreakerThreshold ≤ (failures apiUrl history).length ∧
    ∃ latest ∈ (failures apiUrl history).head?, now - latest < circuitBreakerResetMs

def Elapsed (apiUrl : String) (history : List Recorded) (now : Int) : Prop :=
  circuitBreakerThreshold ≤ (failures apiUrl history).length ∧
    ∃ latest ∈ (failures apiUrl history).head?, circuitBreakerResetMs ≤ now - latest

section Statuses

variable {health : HealthStatusByUrl} {apiUrl other error : String} {now : Int}
  {history : List Recorded} {recorded : Recorded}

theorem getFunnelcakeStatus_put (status : FunnelcakeHealthStatus) :
    getFunnelcakeStatus (put health other status) apiUrl =
      if other = apiUrl then status else getFunnelcakeStatus health apiUrl := by
  unfold getFunnelcakeStatus
  rw [find_put]
  split <;> rfl

theorem getFunnelcakeStatus_remove :
    getFunnelcakeStatus (remove health other) apiUrl =
      if other = apiUrl then ⟨true, 0, 0, none⟩ else getFunnelcakeStatus health apiUrl := by
  unfold getFunnelcakeStatus
  rw [find_remove]
  split <;> rfl

theorem failures_append_singleton :
    failures apiUrl (history ++ [recorded]) =
      if recorded.outcome.concerns apiUrl then
        if recorded.outcome.isFailure then recorded.time :: failures apiUrl history else []
      else failures apiUrl history := by
  unfold failures
  rw [reverse_append, reverse_singleton, singleton_append, filter_cons]
  cases recorded.outcome.concerns apiUrl with
  | false => rfl
  | true =>
    rw [if_pos rfl, if_pos rfl, takeWhile_cons]
    cases recorded.outcome.isFailure <;> rfl

structure Reflects (status : FunnelcakeHealthStatus) (failures : List Int) : Prop where
  count : status.errorCount = failures.length
  flag : status.available = decide (failures.length < circuitBreakerThreshold)
  latest : ∀ time ∈ failures.head?, status.lastChecked = time

theorem reflects_fresh (time : Int) (lastError : Option String) :
    Reflects ⟨true, time, 0, lastError⟩ [] where
  count := rfl
  flag := rfl
  latest time absent := by cases absent

theorem Reflects.failure {status : FunnelcakeHealthStatus} {failures : List Int}
    (reflects : Reflects status failures) :
    Reflects ⟨status.errorCount + 1 < circuitBreakerThreshold, now, status.errorCount + 1,
      some error⟩ (now :: failures) where
  count := by rw [length_cons, reflects.count]
  flag := by rw [length_cons, reflects.count]
  latest time same := Option.some.inj same

theorem reflects_healthAfter (apiUrl : String) (history : List Recorded) :
    Reflects (getFunnelcakeStatus (healthAfter history) apiUrl) (failures apiUrl history) := by
  induction history using reverseRecOn with
  | nil => exact reflects_fresh 0 none
  | append_singleton history recorded ih =>
    have recorded' : healthAfter (history ++ [recorded]) =
      record (healthAfter history) recorded := by
      unfold healthAfter
      rw [foldl_append, foldl_cons, foldl_nil]
    rw [recorded', failures_append_singleton]
    obtain ⟨outcome, time⟩ := recorded
    cases outcome with
    | success other =>
      show Reflects (getFunnelcakeStatus (put _ other _) apiUrl) _
      rw [getFunnelcakeStatus_put]
      by_cases own : other = apiUrl
      · simp only [Outcome.concerns, Outcome.isFailure, own, if_true]
        exact reflects_fresh time none
      · simp only [Outcome.concerns, own, if_false]
        exact ih
    | failure other error =>
      show Reflects (getFunnelcakeStatus (put _ other _) apiUrl) _
      rw [getFunnelcakeStatus_put]
      by_cases own : other = apiUrl
      · simp only [Outcome.concerns, Outcome.isFailure, own, if_true]
        exact ih.failure
      · simp only [Outcome.concerns, own, if_false]
        exact ih
    | reset other =>
      show Reflects (getFunnelcakeStatus (remove _ other) apiUrl) _
      rw [getFunnelcakeStatus_remove]
      by_cases own : other = apiUrl
      · simp only [Outcome.concerns, Outcome.isFailure, own, if_true]
        exact reflects_fresh 0 none
      · simp only [Outcome.concerns, own, if_false]
        exact ih
    | resetAll => exact reflects_fresh 0 none

end Statuses

/-! ### When the breaker recovers -/

section Recovery

variable {apiUrl : String} {history : List Recorded} {now : Int}

theorem isFunnelcakeAvailable_eq_false_iff :
    isFunnelcakeAvailable (healthAfter history) apiUrl now = false ↔
      circuitBreakerThreshold ≤ (failures apiUrl history).length := by
  have reflects := reflects_healthAfter apiUrl history
  unfold isFunnelcakeAvailable
  dsimp only
  rw [reflects.count, reflects.flag]
  by_cases opened : circuitBreakerThreshold ≤ (failures apiUrl history).length
  · rw [if_pos opened, decide_eq_false (Nat.not_lt_of_le opened)]
    simp [opened]
  · rw [if_neg opened, decide_eq_true (Nat.lt_of_not_le opened)]
    simp [opened]

theorem open_or_elapsed (opened : circuitBreakerThreshold ≤ (failures apiUrl history).length) :
    Open apiUrl history now ∨ Elapsed apiUrl history now := by
  have some : ∃ latest, (failures apiUrl history).head? = some latest := by
    cases listed : failures apiUrl history with
    | nil =>
      rw [listed] at opened
      cases opened
    | cons latest rest => exact ⟨latest, rfl⟩
  obtain ⟨latest, isLatest⟩ := some
  rcases Int.lt_or_le (now - latest) circuitBreakerResetMs with recent | past
  · exact .inl ⟨opened, latest, isLatest, recent⟩
  · exact .inr ⟨opened, latest, isLatest, past⟩

theorem not_open_of_elapsed (elapsed : Elapsed apiUrl history now) :
    ¬Open apiUrl history now := by
  rintro ⟨-, latest, isLatest, recent⟩
  obtain ⟨-, other, isOther, past⟩ := elapsed
  cases isLatest.symm.trans isOther
  exact absurd recent (Int.not_lt_of_ge past)

theorem failures_filter (apiUrl : String) (history : List Recorded) :
    failures apiUrl (history.filter fun recorded => recorded.outcome.concerns apiUrl) =
      failures apiUrl history := by
  unfold failures
  rw [← filter_reverse, filter_filter]
  simp only [Bool.and_self]

/-- The availability of a URL is what the open circuit makes it exactly if no circuit that was
opened has waited for its reset. -/
theorem breaker_iff (history : List Recorded) (apiUrl : String) (now : Int) :
    ((isFunnelcakeAvailable (healthAfter history) apiUrl now = false ↔ Open apiUrl history now) ↔
      ¬Elapsed apiUrl history now) ∧
    isFunnelcakeAvailable (healthAfter (history.filter fun recorded =>
        recorded.outcome.concerns apiUrl)) apiUrl now =
      isFunnelcakeAvailable (healthAfter history) apiUrl now := by
  constructor
  · rw [isFunnelcakeAvailable_eq_false_iff]
    constructor
    · intro agrees elapsed
      exact not_open_of_elapsed elapsed (agrees.mp elapsed.1)
    · intro waits
      refine ⟨fun opened => (open_or_elapsed opened).resolve_right waits, fun isOpen => isOpen.1⟩
  · rw [Bool.eq_iff_iff, ← not_iff_not, Bool.not_eq_true, Bool.not_eq_true,
      isFunnelcakeAvailable_eq_false_iff, isFunnelcakeAvailable_eq_false_iff, failures_filter]

/-- Half a minute after a third failure the circuit is still open, and no check makes a request. -/
theorem breaker_stuck :
    let history : List Recorded :=
      [⟨.failure "https://api.divine.video" "timeout", 0⟩,
        ⟨.failure "https://api.divine.video" "timeout", 1000⟩,
        ⟨.failure "https://api.divine.video" "timeout", 2000⟩]
    ¬Open "https://api.divine.video" history 3600000 ∧
      isFunnelcakeAvailable (healthAfter history) "https://api.divine.video" 3600000 = false ∧
      checkFunnelcakeAvailable (healthAfter history) "https://api.divine.video" true (.ok ())
        3600000 = (healthAfter history, false) := by
  refine ⟨not_open_of_elapsed ⟨by decide +kernel, 2000, by decide +kernel, by decide⟩, ?_, ?_⟩
  · decide +kernel
  · decide +kernel

end Recovery

end Divine.FrontendWeb
