/-
This file embeds the queue of messages of a relay: the sends that fill it, the connects
that flush it, and the flush itself, which iterates over the very list that failed sends
append to and clears it at its end.
-/

import Divine.NostrSdk.WebSocket

namespace Divine.NostrSdk

/-! ### Data -/

/-- A relay over a connection manager, or in an isolate of its own. -/
inductive RelayClass where
  | base
  | isolate
  deriving DecidableEq

inductive ClientConnected where
  | disconnect
  | connecting
  | connected
  deriving DecidableEq

/-- A message, with the number of the call that brought it. -/
structure QueuedMessage where
  call : Nat
  content : String
  deriving DecidableEq

/-- How a transmission ends: `sendJson` returns true or false, or throws. -/
inductive Transmission where
  | sent
  | refused
  | threw
  deriving DecidableEq

structure SendCall where
  message : QueuedMessage
  queueIfFailed : Bool
  deriving DecidableEq

/-- A flush in its loop: the length at its start, the message it is at, and the result of the send
once it returned. -/
structure Flush where
  length : Nat
  index : Nat
  message : QueuedMessage
  result : Option Bool
  deriving DecidableEq

/-- How `doConnect` ends. -/
inductive Connecting where
  | connected
  | failed
  | threw
  deriving DecidableEq

inductive ConnectCall where
  | connecting (opens : Bool)
  | returned (result : Bool)
  deriving DecidableEq

/-- A relay; `opened` when its connection manager is there. The calls whose message was queued, and
the flushes that were aborted, are kept beside it. -/
structure Relay where
  kind : RelayClass
  opened : Bool
  connected : ClientConnected
  authed : Bool
  isConnecting : Bool
  pendingMessages : List QueuedMessage
  calls : Nat
  sends : List SendCall
  connects : List ConnectCall
  flushes : List Flush
  owed : List Nat
  aborted : Nat
  deriving DecidableEq

namespace Relay

def fresh (kind : RelayClass) : Relay where
  kind := kind
  opened := false
  connected := .disconnect
  authed := false
  isConnecting := false
  pendingMessages := []
  calls := 0
  sends := []
  connects := []
  flushes := []
  owed := []
  aborted := 0

/-! ### Sending -/

variable (relay : Relay)

def onError : Relay := { relay with connected := .disconnect }

def queue (message : QueuedMessage) : Relay :=
  { relay with
    pendingMessages := relay.pendingMessages ++ [message]
    owed := message.call :: relay.owed }

/-- What `send` does with a message whose transmission failed. -/
def queueIf (queueIfFailed : Bool) (message : QueuedMessage) : Relay :=
  if queueIfFailed then relay.queue message else relay

def transmitted (message : QueuedMessage) : Relay :=
  { relay with owed := relay.owed.filter fun call => call ≠ message.call }

/-- `send`, up to its transmission where it awaits one, and else with its result. -/
def send (message : QueuedMessage) (queueIfFailed encodes : Bool) : Relay × Option Bool :=
  match relay.kind with
  | .base =>
      -- without a manager it does not queue
      if relay.opened then (relay, none) else (relay, some false)
  | .isolate =>
      if relay.opened then
        if encodes then (relay.transmitted message, some true)
        else ((relay.queueIf queueIfFailed message).onError, some false)
      else (relay.queueIf queueIfFailed message, some false)

def finishSend (sent : SendCall) : Transmission → Relay × Bool
  | .sent => (relay.transmitted sent.message, true)
  | .refused => (relay.queueIf sent.queueIfFailed sent.message, false)
  | .threw => ((relay.queueIf sent.queueIfFailed sent.message).onError, false)

def sendMessage (content : String) (queueIfFailed encodes : Bool) : Relay :=
  let message := ⟨relay.calls, content⟩
  let (begun, result) := relay.send message queueIfFailed encodes
  { begun with
    calls := begun.calls + 1
    sends := if result = none then begun.sends ++ [⟨message, queueIfFailed⟩] else begun.sends }

/-! ### Flushing -/

/-- The loop of `onConnected`. The iterator throws when the length of the list has changed. -/
def flushFrom (length index : Nat) (encodes : Bool) : Relay :=
  if relay.pendingMessages.length ≠ length then { relay with aborted := relay.aborted + 1 }
  else
    match relay.pendingMessages[index]? with
    | none => { relay with pendingMessages := [] }
    | some message =>
        let (begun, result) := relay.send message true encodes
        { begun with flushes := begun.flushes ++ [⟨length, index, message, result⟩] }

def onConnected (encodes : Bool) : Relay :=
  if relay.pendingMessages = [] then relay
  else relay.flushFrom relay.pendingMessages.length 0 encodes

/-! ### Connecting -/

def connect (alreadyConnected : Bool) : Relay :=
  if alreadyConnected then
    { relay with authed := false, connects := relay.connects ++ [.connecting false] }
  else
    match relay.kind with
    | .base =>
        { relay with
          authed := false
          isConnecting := true
          opened := true
          connects := relay.connects ++ [.connecting true] }
    | .isolate =>
        { relay with
          authed := false
          connected := .connecting
          connects := relay.connects ++ [.connecting true] }

def doConnectEnds (place : Nat) (opens : Bool) : Connecting → Relay
  | .connected =>
      if opens then
        { relay with
          connected := .connected
          isConnecting := false
          connects := relay.connects.set place (.returned true) }
      else { relay with connects := relay.connects.set place (.returned true) }
  | .failed =>
      { relay with
        isConnecting := false
        connects := relay.connects.set place (.returned false) }
  | .threw =>
      { relay.onError with
        isConnecting := false
        connects := relay.connects.set place (.returned false) }

def connectResumes (place : Nat) (result encodes : Bool) : Relay :=
  let ended := { relay with connects := relay.connects.eraseIdx place }
  if result then ended.onConnected encodes else ended

def stateChanged (state : ConnectionState) (encodes : Bool) : Relay :=
  match state with
  | .connected =>
      let reported := { relay with connected := .connected }
      if relay.kind = .base && relay.connected ≠ .connected && !relay.isConnecting then
        reported.onConnected encodes
      else reported
  | .connecting => { relay with connected := .connecting }
  | .disconnected => { relay with connected := .disconnect }

def dispose : Relay :=
  match relay.kind with
  | .base => { relay with opened := false }
  | .isolate => relay

/-! ### Steps -/

inductive RelayAction where
  | send (content : String) (queueIfFailed encodes : Bool)
  | add (content : String)
  | sendEnds (place : Nat) (outcome : Transmission)
  | connect (alreadyConnected : Bool)
  | doConnectEnds (place : Nat) (outcome : Connecting)
  | connectResumes (place : Nat) (encodes : Bool)
  | stateChanged (state : ConnectionState) (encodes : Bool)
  | portReceived
  | disconnect
  | dispose
  | flushSendEnds (place : Nat) (outcome : Transmission)
  | flushResumes (place : Nat) (encodes : Bool)
  deriving DecidableEq

/-- One call up to its next suspension. `addPenddingQueryMsg` adds to the queue directly. -/
def relayStep (relay : Relay) : RelayAction → Option Relay
  | .send content queueIfFailed encodes => some (relay.sendMessage content queueIfFailed encodes)
  | .add content =>
      some { relay.queue ⟨relay.calls, content⟩ with calls := relay.calls + 1 }
  | .sendEnds place outcome =>
      (relay.sends[place]?).map fun sent =>
        ({ relay with sends := relay.sends.eraseIdx place }.finishSend sent outcome).1
  | .connect alreadyConnected => some (relay.connect alreadyConnected)
  | .doConnectEnds place outcome =>
      match relay.connects[place]? with
      | some (.connecting opens) => some (relay.doConnectEnds place opens outcome)
      | _ => none
  | .connectResumes place encodes =>
      match relay.connects[place]? with
      | some (.returned result) => some (relay.connectResumes place result encodes)
      | _ => none
  | .stateChanged state encodes => some (relay.stateChanged state encodes)
  | .portReceived =>
      if relay.kind = .isolate then some { relay with opened := true } else none
  | .disconnect => some { relay with connected := .disconnect }
  | .dispose => some relay.dispose
  | .flushSendEnds place outcome =>
      match relay.flushes[place]? with
      | some ⟨length, index, message, none⟩ =>
          let (ended, result) := relay.finishSend ⟨message, true⟩ outcome
          some { ended with
            flushes := ended.flushes.set place ⟨length, index, message, some result⟩ }
      | _ => none
  | .flushResumes place encodes =>
      match relay.flushes[place]? with
      | some ⟨length, index, _, some _⟩ =>
          some ({ relay with flushes := relay.flushes.eraseIdx place }.flushFrom length (index + 1)
            encodes)
      | _ => none

end Relay

end Divine.NostrSdk
