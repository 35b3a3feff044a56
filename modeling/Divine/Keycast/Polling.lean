/-
This file runs the polls for a device code one Redis command at a time.
-/

import Divine.Keycast.OAuth
import Divine.Library.Interleaving

namespace Divine.Keycast

open Interleaving

/-! ### Polls -/

/-- A `200` with the code, or a `202`. -/
inductive PollResponse where
  | ready (code : String)
  | pending
  deriving DecidableEq

/-- A poll at the command it issues next, with what it has read. -/
inductive PollStage where
  | get
  | delete (code : String)
  deriving DecidableEq

structure PollCall where
  deviceCode : String
  stage : PollStage
  deriving DecidableEq

/-- Redis, what the polls were answered, and the device codes a code was stored for since. -/
structure PollState where
  entries : String → Option String
  /-- Whether Redis answers a command. -/
  reachable : Bool
  answers : List (String × Except OAuthError PollResponse)
  stored : List String

def PollState.fresh (entries : String → Option String) : PollState where
  entries := entries
  reachable := true
  answers := []
  stored := []

def deviceKey (deviceCode : String) : String := s!"oauth_poll:{deviceCode}"

/-- At most 128 bytes, all of them letters, digits, dashes and underscores. -/
def isDeviceCode (deviceCode : String) : Bool :=
  deviceCode.utf8ByteSize ≤ 128 &&
    deviceCode.toList.all fun symbol => symbol.isAlphanum || symbol = '-' || symbol = '_'

def serviceUnavailable : OAuthError := .serverError "Service temporarily unavailable"

def PollState.answer (state : PollState) (deviceCode : String)
    (response : Except OAuthError PollResponse) : PollState × Option PollCall :=
  ({ state with answers := state.answers ++ [(deviceCode, response)] }, none)

/-- One command of `poll`, with the checks before the first one. The result of the deletion is
ignored. -/
def advancePoll (configured : Bool) (state : PollState) (call : PollCall) :
    PollState × Option PollCall :=
  match call.stage with
  | .get =>
    if !isDeviceCode call.deviceCode then
      state.answer call.deviceCode (.error (.invalidRequest "Invalid device_code parameter"))
    else if !configured || !state.reachable then
      state.answer call.deviceCode (.error serviceUnavailable)
    else
      match state.entries (deviceKey call.deviceCode) with
      | some code => (state, some { call with stage := .delete code })
      | none => state.answer call.deviceCode (.ok .pending)
  | .delete code =>
    let left :=
      if state.reachable then Function.update state.entries (deviceKey call.deviceCode) none
      else state.entries
    { state with entries := left }.answer call.deviceCode (.ok (.ready code))

/-- What happens between the polls: a code is stored, a key ends its ten minutes, and the connection
comes and goes. -/
inductive PollEvent where
  | store (deviceCode code : String)
  | expire (key : String)
  | reach (reachable : Bool)
  deriving DecidableEq

def pollEvent (state : PollState) : PollEvent → Option PollState
  | .store deviceCode code =>
      if state.reachable then
        some { state with
          entries := Function.update state.entries (deviceKey deviceCode) (some code)
          stored := deviceCode :: state.stored }
      else none
  | .expire key => some { state with entries := Function.update state.entries key none }
  | .reach reachable => some { state with reachable := reachable }

/-- Polls start with the `GET`. -/
def pollSystem (configured : Bool) : System PollState PollCall PollEvent where
  starts _ call := call.stage = .get
  advance := advancePoll configured
  environment := pollEvent

abbrev PollPool := Pool PollState PollCall

/-! ### Counting what a device code delivers -/

section

variable (deviceCode : String)

/-- The number of polls for the device code that were answered with a code. -/
def deliveredTo (state : PollState) : Nat :=
  state.answers.countP fun entry =>
    entry.1 = deviceCode && entry.2.toOption.any (· ≠ .pending)

def storedFor (state : PollState) : Nat := state.stored.countP (· = deviceCode)

def keyPresence (entries : String → Option String) : Nat :=
  if (entries (deviceKey deviceCode)).isSome then 1 else 0

def DeletesPresentKey (pool : PollPool) : Action PollCall PollEvent → Prop
  | .start _ | .environment _ => True
  | .step index => ∀ call, pool.calls[index]? = some call → call.deviceCode = deviceCode →
      call.stage ≠ .get →
      pool.shared.reachable = true ∧ (pool.shared.entries (deviceKey deviceCode)).isSome = true

variable {deviceCode}

theorem deviceKey_inj {first second : String} : deviceKey first = deviceKey second ↔
    first = second := by
  refine ⟨fun same => ?_, congrArg deviceKey⟩
  have characters := congrArg String.toList same
  simp only [deviceKey, toString, String.toList_append, List.append_cancel_left_eq] at characters
  exact String.toList_inj.mp (by simpa using characters)

theorem keyPresence_le_one (entries : String → Option String) :
    keyPresence deviceCode entries ≤ 1 := by
  unfold keyPresence
  split <;> omega

theorem keyPresence_remove (entries : String → Option String) (key : String) :
    keyPresence deviceCode (Function.update entries key none) ≤
      keyPresence deviceCode entries := by
  unfold keyPresence
  by_cases own : deviceKey deviceCode = key
  · simp [own]
  · rw [Function.update_of_ne own]

theorem deliveredTo_answer (state : PollState) (other : String)
    (response : Except OAuthError PollResponse) :
    deliveredTo deviceCode (state.answer other response).1 =
      deliveredTo deviceCode state +
        if other = deviceCode && response.toOption.any (· ≠ .pending) then 1 else 0 := by
  unfold deliveredTo PollState.answer
  rw [List.countP_append, List.countP_singleton]

/-- One command of a poll raises what is delivered by no more than the presence of the key
drops. -/
theorem advancePoll_counts {configured : Bool} {state : PollState} {call : PollCall}
    (present : call.deviceCode = deviceCode → call.stage ≠ .get →
      state.reachable = true ∧ (state.entries (deviceKey deviceCode)).isSome = true) :
    deliveredTo deviceCode (advancePoll configured state call).1 +
          keyPresence deviceCode (advancePoll configured state call).1.entries ≤
        deliveredTo deviceCode state + keyPresence deviceCode state.entries ∧
      storedFor deviceCode (advancePoll configured state call).1 =
        storedFor deviceCode state := by
  obtain ⟨other, stage⟩ := call
  cases stage with
  | get =>
    simp only [advancePoll]
    split
    · exact ⟨by rw [deliveredTo_answer]; simp [PollState.answer, Except.toOption], rfl⟩
    · split
      · exact ⟨by rw [deliveredTo_answer]; simp [PollState.answer, Except.toOption], rfl⟩
      · split
        · exact ⟨le_rfl, rfl⟩
        · exact ⟨by rw [deliveredTo_answer]; simp [PollState.answer, Except.toOption], rfl⟩
  | delete code =>
    refine ⟨?_, rfl⟩
    simp only [advancePoll, deliveredTo_answer]
    by_cases own : other = deviceCode
    · -- the key was there, and is gone when its code is delivered
      obtain ⟨reachable, found⟩ := present own (by rintro ⟨⟩)
      subst own
      simp [PollState.answer, deliveredTo, keyPresence, reachable, found, Except.toOption]
    · have fewer := @keyPresence_remove deviceCode state.entries (deviceKey other)
      cases reachable : state.reachable with
      | true => simpa [PollState.answer, deliveredTo, own] using fewer
      | false => simp [PollState.answer, deliveredTo, own]

theorem pollEvent_counts {state next : PollState} {event : PollEvent}
    (moved : pollEvent state event = some next) :
    deliveredTo deviceCode next = deliveredTo deviceCode state ∧
      keyPresence deviceCode next.entries + storedFor deviceCode state ≤
        keyPresence deviceCode state.entries + storedFor deviceCode next := by
  cases event with
  | store other code =>
    obtain ⟨_, same⟩ := Option.ite_none_right_eq_some.mp moved
    cases same
    refine ⟨rfl, ?_⟩
    simp only [storedFor, List.countP_cons, decide_eq_true_eq]
    by_cases own : other = deviceCode
    · have bound := @keyPresence_le_one deviceCode
        (Function.update state.entries (deviceKey other) (some code))
      rw [if_pos own]
      omega
    · have apart : deviceKey deviceCode ≠ deviceKey other := fun same =>
        own (deviceKey_inj.mp same).symm
      simp [keyPresence, Function.update_of_ne apart, own]
  | expire key =>
    cases moved
    exact ⟨rfl, Nat.add_le_add_right (keyPresence_remove state.entries key) _⟩
  | reach reachable =>
    cases moved
    exact ⟨rfl, le_rfl⟩

variable (deviceCode) in
/-- What was delivered and the key while it is there come to no more than the key at first and the
codes stored since. -/
def DeliversStored (initial : String → Option String) : PollPool → Prop :=
  Bounded (fun state => deliveredTo deviceCode state + keyPresence deviceCode state.entries)
    (fun state => keyPresence deviceCode initial + storedFor deviceCode state) (fun _ => 0)

theorem poolStep_deliversStored {configured : Bool} {initial : String → Option String}
    {pool next : PollPool} {action : Action PollCall PollEvent}
    (delivers : DeliversStored deviceCode initial pool)
    (deletes : DeletesPresentKey deviceCode pool action)
    (stepped : poolStep (pollSystem configured) pool action = some next) :
    DeliversStored deviceCode initial next := by
  refine delivers.step _ (fun _ _ _ => rfl) ?_ ?_ stepped
  · rintro index call rfl present
    obtain ⟨fewer, same⟩ := @advancePoll_counts deviceCode configured _ _ (deletes call present)
    have light :
      weightOf (fun _ : PollCall => 0) (advancePoll configured pool.shared call).2 = 0 := by
      cases (advancePoll configured pool.shared call).2 <;> rfl
    dsimp only [pollSystem]
    omega
  · intro event shared _ moved
    obtain ⟨same, raised⟩ := @pollEvent_counts deviceCode _ _ _ moved
    omega

/-- In every run in which each poll that deletes a key finds it there, no more codes are delivered
than the key held and were stored since. -/
theorem polls_deliver_once {configured : Bool} {entries : String → Option String}
    {actions : List (Action PollCall PollEvent)} {pool : PollPool}
    (deletes : Transition.Meets (poolStep (pollSystem configured)) (DeletesPresentKey deviceCode)
      (.idle (.fresh entries)) actions)
    (ran : Transition.run (poolStep (pollSystem configured)) (.idle (.fresh entries)) actions =
      some pool) :
    deliveredTo deviceCode pool.shared ≤
        keyPresence deviceCode entries + storedFor deviceCode pool.shared ∧
      (storedFor deviceCode pool.shared = 0 → deliveredTo deviceCode pool.shared ≤ 1) := by
  have initial : DeliversStored deviceCode entries (.idle (.fresh entries)) := by
    show 0 + keyPresence deviceCode entries + 0 ≤ keyPresence deviceCode entries + 0
    omega
  have delivers : DeliversStored deviceCode entries pool :=
    Transition.invariant_of_meets _
      (fun _ _ _ held here stepped => poolStep_deliversStored held here stepped) initial deletes ran
  have counted : deliveredTo deviceCode pool.shared + keyPresence deviceCode pool.shared.entries +
      total _ pool.calls ≤ keyPresence deviceCode entries + storedFor deviceCode pool.shared :=
    delivers
  have bound := @keyPresence_le_one deviceCode entries
  omega

end

/-! ### Two polls for one device code -/

def storedEntries : String → Option String :=
  Function.update (fun _ => none) (deviceKey "device") (some "code")

def samplePoll : PollCall where
  deviceCode := "device"
  stage := .get

/-- The second poll comes after the first. -/
theorem polls_deliver_once_sample :
    ∃ pool, Transition.run (poolStep (pollSystem true)) (.idle (.fresh storedEntries))
        [.start samplePoll, .step 0, .step 0, .start samplePoll, .step 0] = some pool ∧
      pool.shared.answers = [("device", .ok (.ready "code")), ("device", .ok .pending)] ∧
      deliveredTo "device" pool.shared ≤
        keyPresence "device" storedEntries + storedFor "device" pool.shared ∧
      (storedFor "device" pool.shared = 0 → deliveredTo "device" pool.shared ≤ 1) := by
  have deletes : Transition.Meets (poolStep (pollSystem true)) (DeletesPresentKey "device")
      (.idle (.fresh storedEntries))
      [.start samplePoll, .step 0, .step 0, .start samplePoll, .step 0] := by
    refine .cons _ trivial rfl (.cons _ ?_ rfl (.cons _ ?_ rfl (.cons _ trivial rfl
      (.cons _ ?_ rfl trivial))))
    · intro call present _ later
      cases present
      exact absurd rfl later
    · -- the deletion finds the key
      exact fun _ _ _ _ => ⟨rfl, rfl⟩
    · intro call present _ later
      cases present
      exact absurd rfl later
  exact ⟨_, rfl, rfl, polls_deliver_once deletes rfl⟩

/-- Two polls that both read the key before either deletes it are both answered with its code. -/
theorem polls_deliver_twice :
    ∃ pool, Transition.run (poolStep (pollSystem true)) (.idle (.fresh storedEntries))
        [.start samplePoll, .start samplePoll, .step 0, .step 1, .step 0, .step 0] = some pool ∧
      pool.shared.answers = [("device", .ok (.ready "code")), ("device", .ok (.ready "code"))] ∧
      deliveredTo "device" pool.shared = 2 :=
  ⟨_, rfl, rfl, rfl⟩

end Divine.Keycast
