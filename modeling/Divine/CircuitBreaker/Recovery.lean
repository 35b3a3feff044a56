/-
This file models the circuit breaker for videos and settles when it counts only the
failures since its recovery.
-/

import Divine.Library.Dictionary
import Divine.Library.Transition

namespace Divine.CircuitBreaker

open List Option Dictionary Transition

/-! ### The breaker -/

inductive CircuitBreakerState where
  | closed | opened | halfOpen
  deriving DecidableEq

structure FailureEntry where
  url : String
  timestamp : Int
  errorMessage : String
  deriving DecidableEq

/-- The arguments of the constructor, with the durations in milliseconds. -/
structure Config where
  failureThreshold : Nat
  openTimeout : Int
  halfOpenTimeout : Int
  maxFailureHistory : Nat
  thresholdPositive : 0 < failureThreshold
  openTimeoutPositive : 0 < openTimeout
  halfOpenTimeoutPositive : 0 < halfOpenTimeout
  historySuffices : failureThreshold ≤ maxFailureHistory

/-- What a timer does when it fires. -/
inductive Callback where
  | transitionToHalfOpen | halfOpenTimeout
  deriving DecidableEq

structure Timer where
  id : Nat
  due : Int
  callback : Callback
  deriving DecidableEq

structure VideoCircuitBreaker where
  state : CircuitBreakerState := .closed
  failureHistory : List FailureEntry := []
  urlFailureCounts : List (String × Nat) := []
  urlLastFailure : List (String × Int) := []
  permanentlyFailedUrls : List String := []
  recoveryTimer : Option Nat := none
  halfOpenSuccessCount : Nat := 0
  deriving DecidableEq

/-- The breaker, the time, and the timers that are pending of those that were made. -/
structure World where
  breaker : VideoCircuitBreaker := {}
  now : Int := 0
  timers : List Timer := []
  created : Nat := 0
  deriving DecidableEq

def halfOpenRequiredSuccesses : Nat := 3

def window : Int := 300000

/-- How many times are after the cutoff of the last five minutes. -/
def recent (now : Int) (times : List Int) : Nat := times.countP fun time => now - window < time

section Breaker

variable (config : Config) (world : World)

def cancelTimer : World :=
  { world with timers := world.timers.filter fun timer =>
    world.breaker.recoveryTimer ≠ some timer.id }

/-- A new timer takes the place of the one that was cancelled. -/
def startTimer (duration : Int) (callback : Callback) : World :=
  { world with
    breaker := { world.breaker with recoveryTimer := some world.created }
    timers := world.timers ++ [⟨world.created, world.now + duration, callback⟩]
    created := world.created + 1 }

def enter (state : CircuitBreakerState) : World :=
  { world with breaker := { world.breaker with state := state, halfOpenSuccessCount := 0 } }

def transitionToOpen : World :=
  startTimer (cancelTimer (enter world .opened)) config.openTimeout .transitionToHalfOpen

def transitionToHalfOpen : World :=
  startTimer (cancelTimer (enter world .halfOpen)) config.halfOpenTimeout .halfOpenTimeout

def clearTimer : World :=
  let cancelled := cancelTimer world
  { cancelled with breaker := { cancelled.breaker with recoveryTimer := none } }

def transitionToClosed : World := clearTimer (enter world .closed)

def recordSuccess (url : String) : World :=
  let breaker :=
    { world.breaker with
      urlFailureCounts := remove world.breaker.urlFailureCounts url
      urlLastFailure := remove world.breaker.urlLastFailure url }
  if breaker.state = .halfOpen then
    let counted :=
      { world with breaker :=
          { breaker with halfOpenSuccessCount := breaker.halfOpenSuccessCount + 1 } }
    if halfOpenRequiredSuccesses ≤ counted.breaker.halfOpenSuccessCount then
      transitionToClosed counted
    else counted
  else { world with breaker := breaker }

def kept (history : List FailureEntry) : List FailureEntry :=
  history.drop (history.length - config.maxFailureHistory)

def failures (url errorMessage : String) : List FailureEntry :=
  kept config (world.breaker.failureHistory ++ [⟨url, world.now, errorMessage⟩])

def checkFailureThreshold : World :=
  if world.breaker.state = .opened then world
  else if config.failureThreshold ≤
      recent world.now (world.breaker.failureHistory.map FailureEntry.timestamp) then
    transitionToOpen config world
  else world

/-- What is recorded of a failure before the threshold is checked. -/
def noteFailure (url errorMessage : String) : World :=
  let count := (find world.breaker.urlFailureCounts url).getD 0 + 1
  { world with breaker :=
      { world.breaker with
        failureHistory := failures config world url errorMessage
        urlFailureCounts := put world.breaker.urlFailureCounts url count
        urlLastFailure := put world.breaker.urlLastFailure url world.now
        permanentlyFailedUrls :=
          if config.failureThreshold * 2 ≤
            count && !world.breaker.permanentlyFailedUrls.contains url
          then world.breaker.permanentlyFailedUrls ++ [url]
          else world.breaker.permanentlyFailedUrls } }

def recordFailure (url errorMessage : String) : World :=
  checkFailureThreshold config (noteFailure config world url errorMessage)

def reset : World :=
  clearTimer
    { enter world .closed with
      breaker :=
        { (enter world .closed).breaker with
          failureHistory := []
          urlFailureCounts := []
          urlLastFailure := [] } }

def fire (index : Nat) (timer : Timer) : World :=
  let fired := { world with timers := world.timers.eraseIdx index }
  match timer.callback with
  | .transitionToHalfOpen => transitionToHalfOpen config fired
  | .halfOpenTimeout =>
      if fired.breaker.state = .halfOpen then transitionToOpen config fired else fired

inductive Action where
  | recordSuccess (url : String)
  | recordFailure (url errorMessage : String)
  | reset
  | clearPermanentFailures
  | pass (milliseconds : Nat)
  | fire (index : Nat)
  deriving DecidableEq

def step : Action → Option World
  | .recordSuccess url => some (recordSuccess world url)
  | .recordFailure url errorMessage => some (recordFailure config world url errorMessage)
  | .reset => some (reset world)
  | .clearPermanentFailures =>
      some { world with breaker := { world.breaker with permanentlyFailedUrls := [] } }
  | .pass milliseconds => some { world with now := world.now + milliseconds }
  | .fire index =>
      world.timers[index]?.bind fun timer =>
        if timer.due ≤ world.now then some (fire config world index timer) else none

end Breaker

/-! ### What is observed -/

/-- The breaker with the times of its failures, the successes in half-open, and the failures within
five minutes of each opening. -/
structure Observed where
  world : World := {}
  sinceClosed : List Int := []
  streak : Nat := 0
  openings : List Nat := []
  deriving DecidableEq

section Observed

variable (config : Config) (observed : Observed)

/-- The failures since the breaker was last closed, with the one that is recorded. -/
def failuresWith (action : Action) : List Int :=
  match action with
  | .recordFailure _ _ => observed.sinceClosed ++ [observed.world.now]
  | _ => observed.sinceClosed

/-- The successes in half-open without a failure between, after an action. -/
def streakWith (action : Action) (next : World) : Nat :=
  match action with
  | .recordSuccess _ =>
      if next.breaker.state = .closed then 0
      else if observed.world.breaker.state = .halfOpen then observed.streak + 1
      else observed.streak
  | .recordFailure _ _ | .reset => 0
  | _ => observed.streak

def observe (action : Action) (next : World) : Observed where
  world := next
  sinceClosed :=
    if next.breaker.state = .closed ∧
        (observed.world.breaker.state ≠ .closed ∨ action = .reset) then []
    else failuresWith observed action
  streak := streakWith observed action next
  openings :=
    if observed.world.breaker.state = .closed ∧ next.breaker.state = .opened then
      observed.openings ++ [recent observed.world.now (failuresWith observed action)]
    else observed.openings

def observedStep (action : Action) : Option Observed :=
  (step config observed.world action).map (observe observed action)

/-- Openings had enough failures, three successes have closed the breaker, and one timer is pending.
-/
structure Right : Prop where
  openings : ∀ count ∈ observed.openings, config.failureThreshold ≤ count
  streak : observed.streak < halfOpenRequiredSuccesses
  timers : observed.world.timers.length =
    if observed.world.breaker.state = .closed then 0 else 1

/-- Old failures do not open the breaker, and a timeout in half-open does not lose two successes. -/
def Condition (action : Action) : Prop :=
  match action with
  | .recordFailure url errorMessage =>
      observed.world.breaker.state = .closed →
        recent observed.world.now ((failures config observed.world url errorMessage).map
            FailureEntry.timestamp) < config.failureThreshold ∨
          config.failureThreshold ≤
            recent observed.world.now (observed.sinceClosed ++ [observed.world.now])
  | .recordSuccess _ =>
      observed.world.breaker.state = .halfOpen → observed.streak < 2 ∨
        2 ≤ observed.world.breaker.halfOpenSuccessCount
  | _ => True

end Observed

/-! ### Timers -/

def awaited : CircuitBreakerState → Option Callback
  | .closed => none
  | .opened => some .transitionToHalfOpen
  | .halfOpen => some .halfOpenTimeout

/-- The timer that a state waits for is pending, no other one, and the breaker can cancel it. -/
structure Sound (world : World) : Prop where
  timers : world.timers.map Timer.callback = (awaited world.breaker.state).toList
  current : world.breaker.recoveryTimer = world.timers.head?.map Timer.id

/-- Every pending timer is the one that the breaker can cancel. -/
def Tracked (world : World) : Prop :=
  ∀ timer ∈ world.timers, world.breaker.recoveryTimer = some timer.id

variable {config : Config} {world : World}

theorem Sound.length (sound : Sound world) : world.timers.length =
    if world.breaker.state = .closed then 0 else 1 := by
  have length := congrArg List.length sound.timers
  rw [length_map] at length
  rw [length]
  cases world.breaker.state <;> rfl

theorem Sound.tracked (sound : Sound world) : Tracked world := by
  intro timer member
  have length := sound.length
  have single : world.timers = [timer] := by
    cases timers : world.timers with
    | nil => rw [timers] at member; cases member
    | cons first rest =>
      have none : rest = [] := by
        rw [timers, length_cons] at length
        split at length
        · cases length
        · exact length_eq_zero_iff.mp (by omega)
      rw [timers, none, mem_singleton] at member
      rw [none, member]
  rw [sound.current, single]
  rfl

theorem timers_cancelTimer (tracked : Tracked world) : (cancelTimer world).timers = [] := by
  refine filter_eq_nil_iff.mpr fun timer member kept => ?_
  exact of_decide_eq_true kept (tracked timer member)

theorem sound_startTimer {duration : Int} {callback : Callback} (none : world.timers = [])
    (awaits : awaited world.breaker.state = some callback) :
    Sound (startTimer world duration callback) := by
  unfold startTimer
  constructor
  · simp [none, awaits]
  · simp [none]

theorem sound_clearTimer (tracked : Tracked world) (closed : world.breaker.state = .closed) :
    Sound (clearTimer world) := by
  have none := timers_cancelTimer tracked
  unfold clearTimer
  constructor
  · dsimp only
    rw [none]
    show [] = (awaited world.breaker.state).toList
    rw [closed]
    rfl
  · dsimp only
    rw [none]
    rfl

theorem sound_transitionToOpen (tracked : Tracked world) : Sound (transitionToOpen config world) :=
  sound_startTimer (@timers_cancelTimer (enter world .opened) tracked) rfl

theorem sound_transitionToHalfOpen (tracked : Tracked world) :
    Sound (transitionToHalfOpen config world) :=
  sound_startTimer (@timers_cancelTimer (enter world .halfOpen) tracked) rfl

section

variable (sound : Sound world)

include sound

theorem Sound.of_same {other : World} (timers : other.timers = world.timers)
    (state : other.breaker.state = world.breaker.state)
    (current : other.breaker.recoveryTimer = world.breaker.recoveryTimer) : Sound other :=
  ⟨by rw [timers, state, sound.timers], by rw [timers, current, sound.current]⟩

theorem sound_recordSuccess (url : String) : Sound (recordSuccess world url) := by
  unfold recordSuccess
  dsimp only
  split
  · split
    · exact sound_clearTimer sound.tracked rfl
    · exact sound.of_same rfl rfl rfl
  · exact sound.of_same rfl rfl rfl

theorem sound_recordFailure (url errorMessage : String) :
    Sound (recordFailure config world url errorMessage) := by
  have noted : Sound (noteFailure config world url errorMessage) := sound.of_same rfl rfl rfl
  unfold recordFailure checkFailureThreshold
  split
  · exact noted
  · split
    · exact sound_transitionToOpen noted.tracked
    · exact noted

theorem sound_fire {index : Nat} {timer : Timer}
    (found : world.timers[index]? = some timer) : Sound (fire config world index timer) := by
  have tracked : Tracked { world with timers := world.timers.eraseIdx index } :=
    fun other member => sound.tracked other (mem_of_mem_eraseIdx member)
  have callback : awaited world.breaker.state = some timer.callback := by
    have member := mem_map_of_mem (f := Timer.callback) (mem_of_getElem? found)
    rwa [sound.timers, mem_toList] at member
  unfold fire
  cases does : timer.callback with
  | transitionToHalfOpen => exact sound_transitionToHalfOpen tracked
  | halfOpenTimeout =>
    have halfOpen : world.breaker.state = .halfOpen := by
      rw [does] at callback
      cases state : world.breaker.state <;> rw [state] at callback <;> first | rfl | cases callback
    dsimp only
    rw [if_pos halfOpen]
    exact sound_transitionToOpen tracked

theorem sound_step {action : Action} {next : World}
    (stepped : step config world action = some next) : Sound next := by
  cases action with
  | recordSuccess url => exact Option.some.inj stepped ▸ sound_recordSuccess sound url
  | recordFailure url errorMessage =>
    exact Option.some.inj stepped ▸ sound_recordFailure sound url errorMessage
  | reset =>
    exact Option.some.inj stepped ▸ sound_clearTimer sound.tracked rfl
  | clearPermanentFailures | pass => exact Option.some.inj stepped ▸ sound.of_same rfl rfl rfl
  | fire index =>
    obtain ⟨timer, found, fired⟩ := bind_eq_some_iff.mp stepped
    split at fired
    · exact Option.some.inj fired ▸ sound_fire sound found
    · cases fired

end

/-! ### States -/

theorem state_recordSuccess (world : World) (url : String) :
    (recordSuccess world url).breaker.state =
      if world.breaker.state = .halfOpen ∧ 2 ≤ world.breaker.halfOpenSuccessCount then .closed
      else world.breaker.state := by
  unfold recordSuccess halfOpenRequiredSuccesses
  dsimp only
  by_cases halfOpen : world.breaker.state = .halfOpen
  · rw [if_pos halfOpen]
    by_cases enough : 2 ≤ world.breaker.halfOpenSuccessCount
    · rw [if_pos (by omega), if_pos ⟨halfOpen, enough⟩]
      rfl
    · rw [if_neg (by omega), if_neg fun both => enough both.2]
  · rw [if_neg halfOpen, if_neg fun both => halfOpen both.1]

theorem state_recordFailure (config : Config) (world : World) (url errorMessage : String) :
    (recordFailure config world url errorMessage).breaker.state =
      if config.failureThreshold ≤ recent world.now
          ((failures config world url errorMessage).map FailureEntry.timestamp) then .opened
      else world.breaker.state := by
  unfold recordFailure checkFailureThreshold
  by_cases opened : world.breaker.state = .opened
  · rw [if_pos
      (show (noteFailure config world url errorMessage).breaker.state = .opened from opened),
      opened, ite_self]
    exact opened
  · rw [if_neg
      (show (noteFailure config world url errorMessage).breaker.state ≠ .opened from opened)]
    split <;> rename_i enough
    · rw [if_pos (show config.failureThreshold ≤ recent world.now
        ((failures config world url errorMessage).map FailureEntry.timestamp) from enough)]
      rfl
    · rw [if_neg (show ¬config.failureThreshold ≤ recent world.now
        ((failures config world url errorMessage).map FailureEntry.timestamp) from enough)]
      rfl

theorem state_of_fire (sound : Sound world) {index : Nat} {next : World}
    (stepped : step config world (.fire index) = some next) : world.breaker.state ≠ .closed := by
  intro closed
  obtain ⟨timer, found, _⟩ := bind_eq_some_iff.mp stepped
  have none := sound.timers
  rw [closed] at none
  rw [map_eq_nil_iff.mp none] at found
  cases found

/-! ### One step -/

variable {observed : Observed}

section

variable (right : Right config observed)

include right

/-- What stays right when the closed breaker does not open and has not three successes. -/
theorem Right.of_same {action : Action} {next : World} (sound : Sound next)
    (stays : ¬ (observed.world.breaker.state = .closed ∧ next.breaker.state = .opened))
    (streak : streakWith observed action next < halfOpenRequiredSuccesses) :
    Right config (observe observed action next) := by
  refine ⟨?_, streak, sound.length⟩
  unfold observe
  rw [if_neg stays]
  exact right.openings

theorem right_recordSuccess_iff (sound : Sound observed.world)
    (url : String) : Right config (observe observed (.recordSuccess url)
      (recordSuccess observed.world url)) ↔ Condition config observed (.recordSuccess url) := by
  have state := state_recordSuccess observed.world url
  have stays : ¬ (observed.world.breaker.state = .closed ∧
      (recordSuccess observed.world url).breaker.state = .opened) := by
    rintro ⟨closed, opened⟩
    rw [state, closed] at opened
    split at opened <;> cases opened
  have only : Right config (observe observed (.recordSuccess url)
      (recordSuccess observed.world url)) ↔
        streakWith observed (.recordSuccess url) (recordSuccess observed.world url) < 3 :=
    ⟨Right.streak, right.of_same (sound_recordSuccess sound url) stays⟩
  have before : observed.streak < 3 := right.streak
  rw [only]
  unfold streakWith Condition
  rw [state]
  by_cases halfOpen : observed.world.breaker.state = .halfOpen
  · by_cases enough : 2 ≤ observed.world.breaker.halfOpenSuccessCount
    · simp [halfOpen, enough]
    · simp only [halfOpen, enough, and_false, if_false, reduceCtorEq, if_true,
        or_false, true_imp_iff]
      omega
  · simp only [halfOpen, false_and, if_false, false_imp_iff, iff_true]
    split <;> omega

theorem right_recordFailure_iff (sound : Sound observed.world)
    (url errorMessage : String) : Right config (observe observed (.recordFailure url errorMessage)
      (recordFailure config observed.world url errorMessage)) ↔
        Condition config observed (.recordFailure url errorMessage) := by
  have after := @sound_recordFailure config _ sound url errorMessage
  have state := state_recordFailure config observed.world url errorMessage
  by_cases opens : observed.world.breaker.state = .closed ∧ config.failureThreshold ≤
      recent observed.world.now ((failures config observed.world url errorMessage).map
        FailureEntry.timestamp)
  · have opened :
      (recordFailure config observed.world url errorMessage).breaker.state = .opened := by
      rw [state, if_pos opens.2]
    have openings : (observe observed (.recordFailure url errorMessage)
        (recordFailure config observed.world url errorMessage)).openings = observed.openings ++
          [recent observed.world.now (observed.sinceClosed ++ [observed.world.now])] :=
      if_pos ⟨opens.1, opened⟩
    constructor
    · intro rightAfter _
      refine .inr (rightAfter.openings _ ?_)
      rw [openings]
      exact mem_append_right _ (mem_singleton.mpr rfl)
    · intro condition
      have enough := (condition opens.1).resolve_left (Nat.not_lt.mpr opens.2)
      refine ⟨fun count member => ?_, Nat.zero_lt_succ 2, after.length⟩
      rw [openings, mem_append, mem_singleton] at member
      rcases member with old | rfl
      · exact right.openings count old
      · exact enough
  · refine iff_of_true (right.of_same after (fun both => opens ⟨both.1, ?_⟩)
      (Nat.zero_lt_succ 2)) ?_
    · have opened := both.2
      rw [state] at opened
      split at opened
      · assumption
      · exact absurd (both.1.symm.trans opened) (by decide)
    · intro closed
      exact .inl (Nat.not_le.mp fun enough => opens ⟨closed, enough⟩)

theorem right_step_iff {action : Action} {next : Observed} (sound : Sound observed.world)
    (stepped : observedStep config observed action = some next) :
    Right config next ↔ Condition config observed action := by
  obtain ⟨world, same, rfl⟩ := map_eq_some_iff.mp stepped
  have after := sound_step sound same
  have before : observed.streak < halfOpenRequiredSuccesses := right.streak
  cases action with
  | recordSuccess url =>
    cases same
    exact right_recordSuccess_iff right sound url
  | recordFailure url errorMessage =>
    cases same
    exact right_recordFailure_iff right sound url errorMessage
  | reset =>
    refine iff_of_true (right.of_same after (fun both => ?_) (Nat.zero_lt_succ 2)) trivial
    cases same
    cases both.2
  | clearPermanentFailures | pass =>
    refine iff_of_true (right.of_same after (fun both => ?_) before) trivial
    cases same
    exact absurd (both.1.symm.trans both.2) (by decide)
  | fire index =>
    exact iff_of_true (right.of_same after (fun both => state_of_fire sound same both.1) before)
      trivial

end

/-! ### Runs -/

/-- The breaker acts rightly throughout a run exactly when no step counts old failures or loses two
successes. -/
theorem right_iff_meets {final : Observed} {actions : List Action}
    (ran : run (observedStep config) {} actions = some final) :
    (∀ before after reached, actions = before ++ after →
      run (observedStep config) {} before = some reached → Right config reached) ↔
        Meets (observedStep config) (Condition config) {} actions := by
  have started : Sound (World.mk {} 0 [] 0) := ⟨rfl, rfl⟩
  have sound : ∀ before reached, run (observedStep config) {} before = some reached →
      Sound reached.world := by
    intro before reached ran
    refine @invariant_of_run _ _ (observedStep config) (fun observed => Sound observed.world)
      (fun observed action next sound stepped => ?_) _ _ _ started ran
    obtain ⟨world, same, rfl⟩ := map_eq_some_iff.mp stepped
    exact sound_step sound same
  have initial : Right config {} ∧ Sound (Observed.world {}) :=
    ⟨⟨by simp, by decide, rfl⟩, started⟩
  rw [← @invariant_iff_meets _ _ (observedStep config) (Condition config)
    (fun observed => Right config observed ∧ Sound observed.world)
    (fun observed action next held stepped => ?_) _ _ _ initial ran]
  · constructor
    · exact fun right before after reached same reaches =>
        ⟨right before after reached same reaches, sound before reached reaches⟩
    · exact fun both before after reached same reaches =>
        (both before after reached same reaches).1
  · obtain ⟨world, same, rfl⟩ := map_eq_some_iff.mp stepped
    rw [← right_step_iff held.1 held.2 stepped]
    exact and_iff_left (sound_step held.2 same)

/-- The arguments that the app constructs the breaker with. -/
def defaultConfig : Config where
  failureThreshold := 5
  openTimeout := 120000
  halfOpenTimeout := 30000
  maxFailureHistory := 100
  thresholdPositive := by decide
  openTimeoutPositive := by decide
  halfOpenTimeoutPositive := by decide
  historySuffices := by decide

/-- Five failures open the breaker, three successes close it, and one more failure comes. -/
def recoveryAndFailure : List Action :=
  List.replicate 5 (.recordFailure "https://a.example/v.mp4" "") ++
    [.pass 120000, .fire 0] ++ List.replicate 3 (.recordSuccess "https://a.example/v.mp4") ++
      [.recordFailure "https://a.example/w.mp4" ""]

theorem right_iff_meets_sample : ∃ final,
    run (observedStep defaultConfig) {} recoveryAndFailure = some final ∧
      ((∀ before after reached, recoveryAndFailure = before ++ after →
          run (observedStep defaultConfig) {} before = some reached → Right defaultConfig reached) ↔
        Meets (observedStep defaultConfig) (Condition defaultConfig) {} recoveryAndFailure) :=
  exists_of_isSome (by decide +kernel) fun _ ran => right_iff_meets ran

/-- One failure after the recovery opens the breaker again. -/
theorem recoveryAndFailure_not_right : ∃ final,
    run (observedStep defaultConfig) {} recoveryAndFailure = some final ∧
      ¬ Right defaultConfig final := by
  obtain ⟨final, ran, opened⟩ := exists_of_any (fun final : Observed => 1 ∈ final.openings)
    (show (run (observedStep defaultConfig) {} recoveryAndFailure).any _ = true by decide +kernel)
  exact ⟨final, ran, fun right => absurd (right.openings 1 opened) (by decide)⟩

end Divine.CircuitBreaker
