/-
This file models the cubit that waits for the verification of an email address, as its
methods and timers go on from one await to the next.
-/

import Divine.Library.Interleaving
import Divine.Models.DartText

namespace Divine.EmailVerification

open Interleaving Models

/-! ### The state of the cubit -/

inductive EmailVerificationStatus where
  | initial | polling | success | failure
  deriving DecidableEq

structure EmailVerificationState where
  status : EmailVerificationStatus := .initial
  pendingEmail : Option String := none
  error : Option String := none
  deriving DecidableEq

/-- The cubit with its timers. The code that was completed is shared by all cubits. -/
structure Cubit where
  state : EmailVerificationState
  pollTimer : Bool
  timeoutTimer : Bool
  pendingDeviceCode : Option String
  pendingVerifier : Option String
  completedDeviceCode : Option String
  isClosed : Bool
  deriving DecidableEq

inductive PollStatus where
  | pending | complete | error
  deriving DecidableEq

structure PollResult where
  status : PollStatus
  code : Option String := none
  error : Option String := none
  deriving DecidableEq

/-- An attempt to exchange a code: the device code that was polled for it, and what is sent. -/
structure Exchange where
  deviceCode : String
  code : String
  verifier : String
  attempt : Nat
  deriving DecidableEq

/-- A method that waits: for a poll, an exchange, the next attempt, or the sign-in. -/
inductive Call where
  | polling (deviceCode : String)
  | exchanging (exchange : Exchange)
  | retrying (exchange : Exchange)
  | confirming (exchange : Exchange)
  | signingIn (exchange : Exchange)
  deriving DecidableEq

/-- What a method waits for: an answer, the end of a delay, or what is thrown. -/
inductive Reply where
  | polled (result : PollResult)
  | exchanged
  | refused (message : String)
  | elapsed
  | signedIn (isAnonymous : Bool)
  | thrown
  deriving DecidableEq

/-- What happens: a registration starts or stops, a code is sent and exchanged, a sign-in starts,
and an answer comes. -/
inductive Entry where
  | started (deviceCode verifier : String)
  | stopped (deviceCode : Option String)
  | sent (deviceCode code verifier : String)
  | exchanged (code : String)
  | signingIn (deviceCode : String)
  | answered (deviceCode : String) (before after : Cubit)
  deriving DecidableEq

inductive Action where
  | startPolling (deviceCode verifier email : String)
  | stopPolling
  | emitFailure (error : String)
  | timeout
  | close
  | poll (isAuthenticated : Bool)
  | completedElsewhere (deviceCode : String)
  | answer (index : Nat) (reply : Reply)

/-! ### Methods -/

namespace Cubit

variable (cubit : Cubit)

def cleanup : Cubit :=
  { cubit with
    pollTimer := false, timeoutTimer := false, pendingDeviceCode := none, pendingVerifier := none }

/-- A state is emitted; a cubit that is closed throws instead. -/
def emit (state : EmailVerificationState) : Cubit :=
  if cubit.isClosed then cubit else { cubit with state := state }

def fail (error : String) : Cubit :=
  cubit.cleanup.emit { status := .failure, error := some error }

/-- A cubit that is closed throws before it sets its timers. -/
def startPolling (deviceCode verifier email : String) : Cubit :=
  let pending :=
    { cubit with pendingDeviceCode := some deviceCode, pendingVerifier := some verifier }
  if cubit.isClosed then pending
  else
    { pending with
      state := { status := .polling, pendingEmail := some email }
      pollTimer := true
      timeoutTimer := true }

def stopPolling : Cubit :=
  if cubit.state.status = .success then cubit.cleanup else cubit.cleanup.emit {}

end Cubit

def maxExchangeRetries : Nat := 3

def isNetworkError (message : String) : Bool :=
  Models.contains message "Network error" || Models.contains message "SocketException" ||
    Models.contains message "ClientException" || Models.contains message "host lookup"

section Methods

variable (cubit : Cubit)

/-- An attempt to exchange a code threw, and another one follows or not. -/
def exchangeFailed (exchange : Exchange) : Cubit × Option Call :=
  if exchange.attempt = maxExchangeRetries then
    (cubit.fail "Network error during sign-in. Please try again.", none)
  else (cubit, some (.retrying exchange))

def polled (deviceCode : String) (result : PollResult) : Cubit × Option Call × List Entry :=
  match result.status with
  | .pending => (cubit, none, [])
  | .complete =>
      match result.code, cubit.pendingVerifier with
      | some code, some verifier =>
          ({ cubit with pollTimer := false }, some (.exchanging ⟨deviceCode, code, verifier, 1⟩),
            [.sent deviceCode code verifier])
      | _, _ => (cubit.fail "Verification failed - missing authorization code", none, [])
  | .error =>
      let message := result.error.getD "Verification failed"
      if isNetworkError message then (cubit, none, []) else (cubit.fail message, none, [])

/-- A code was exchanged. A cubit that is closed throws when it emits. -/
def exchanged (exchange : Exchange) : Cubit × Option Call :=
  let cleaned := { cubit with completedDeviceCode := cubit.pendingDeviceCode }.cleanup
  if cubit.isClosed then exchangeFailed cleaned exchange
  else (cleaned.emit { status := .success }, some (.confirming exchange))

/-- A sign-in returned. A cubit that is closed throws when it emits. -/
def signedIn (exchange : Exchange) (isAnonymous : Bool) : Cubit × Option Call :=
  if !isAnonymous then (cubit, none)
  else if cubit.isClosed then exchangeFailed cubit exchange
  else
    (cubit.emit
      { status := .failure, error := some "Sign-in failed. Please try logging in manually." },
      none)

def resume : Call → Reply → Option (Cubit × Option Call × List Entry)
  | .polling deviceCode, .polled result =>
      let (next, stage, entries) := polled cubit deviceCode result
      some (next, stage, entries ++ [.answered deviceCode cubit next])
  | .polling _, .thrown => some (cubit, none, [])
  | .exchanging exchange, .exchanged =>
      let (next, stage) := exchanged cubit exchange
      some (next, stage,
        [.exchanged exchange.code, .answered exchange.deviceCode cubit next])
  | .exchanging exchange, .refused message =>
      some (cubit.fail message, none, [.answered exchange.deviceCode cubit (cubit.fail message)])
  | .exchanging exchange, .thrown =>
      let (next, stage) := exchangeFailed cubit exchange
      some (next, stage, [.answered exchange.deviceCode cubit next])
  | .retrying exchange, .elapsed =>
      some (cubit, some (.exchanging { exchange with attempt := exchange.attempt + 1 }),
        [.sent exchange.deviceCode exchange.code exchange.verifier])
  | .confirming exchange, .elapsed =>
      some (cubit, some (.signingIn exchange), [.signingIn exchange.deviceCode])
  | .signingIn exchange, .signedIn isAnonymous =>
      let (next, stage) := signedIn cubit exchange isAnonymous
      some (next, stage, [])
  | .signingIn exchange, .thrown =>
      let (next, stage) := exchangeFailed cubit exchange
      some (next, stage, [])
  | _, _ => none

/-- `_poll` up to its await. -/
def poll (isAuthenticated : Bool) : Cubit × Option Call :=
  if cubit.completedDeviceCode.isSome && cubit.completedDeviceCode = cubit.pendingDeviceCode then
    (cubit.cleanup.emit { status := .success }, none)
  else if isAuthenticated then (cubit.cleanup, none)
  else match cubit.pendingDeviceCode with
    | none => (cubit.cleanup, none)
    | some deviceCode => (cubit, some (.polling deviceCode))

end Methods

/-! ### Steps -/

/-- The cubit with the methods that wait. -/
structure Machine where
  cubit : Cubit
  calls : List Call
  deriving DecidableEq

/-- One method up to its first await or after one, or one active timer. -/
def step (machine : Machine) : Action → Option (Machine × List Entry)
  | .startPolling deviceCode verifier email =>
      some ({ machine with cubit := machine.cubit.startPolling deviceCode verifier email },
        [.started deviceCode verifier])
  | .stopPolling =>
      some ({ machine with cubit := machine.cubit.stopPolling },
        [.stopped machine.cubit.pendingDeviceCode])
  | .emitFailure error =>
      some ({ machine with cubit := machine.cubit.fail error },
        [.stopped machine.cubit.pendingDeviceCode])
  | .timeout =>
      if machine.cubit.timeoutTimer then
        some ({ machine with
          cubit := machine.cubit.fail "Verification timed out. Please try registering again." },
          [.stopped machine.cubit.pendingDeviceCode])
      else none
  | .close =>
      some ({ machine with cubit := { machine.cubit.cleanup with isClosed := true } },
        [.stopped machine.cubit.pendingDeviceCode])
  | .poll isAuthenticated =>
      if machine.cubit.pollTimer then
        let (next, call) := poll machine.cubit isAuthenticated
        some (⟨next, machine.calls ++ call.toList⟩, [])
      else none
  | .completedElsewhere deviceCode =>
      some ({ machine with
        cubit := { machine.cubit with completedDeviceCode := some deviceCode } }, [])
  | .answer index reply =>
      machine.calls[index]?.bind fun call =>
        (resume machine.cubit call reply).map fun (next, stage, entries) =>
          (⟨next, proceed machine.calls index stage⟩, entries)

def initialMachine : Machine := ⟨⟨{}, false, false, none, none, none, false⟩, []⟩

end Divine.EmailVerification
