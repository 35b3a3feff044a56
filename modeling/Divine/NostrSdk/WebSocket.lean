/-
This file embeds the manager of a WebSocket connection.
-/

import Mathlib.Algebra.Group.Nat.Defs
import Mathlib.Data.List.Basic

namespace Divine.NostrSdk

/-! ### Data -/

inductive ConnectionState where
  | disconnected
  | connecting
  | connected
  deriving DecidableEq

/-- Durations are in milliseconds. -/
structure WebSocketConfig where
  maxReconnectAttempts : Nat
  baseReconnectDelay : Nat
  maxReconnectDelay : Nat
  heartbeatInterval : Nat
  idleTimeout : Nat
  deriving DecidableEq

def WebSocketConfig.defaultConfig : WebSocketConfig where
  maxReconnectAttempts := 10
  baseReconnectDelay := 2000
  maxReconnectDelay := 300000
  heartbeatInterval := 30000
  idleTimeout := 90000

/-- Where a suspended operation goes on: a send after its backoff and its attempts to connect, a
disconnect or a reconnect after the channel is closed. -/
inductive Operation where
  | backoff (message : String) (endsAt : Nat)
  | attempted (message : String) (connected : Bool)
  | reconnected (message : String) (connected : Bool)
  | waiting (message : String)
  | waited (message : String) (connected : Bool)
  | closing (channel : Nat) (reopens : Bool)
  | closed (reopens : Bool)
  deriving DecidableEq

/-- The operation is between the two ends of `_closeChannel`. -/
def Operation.closes : Operation → Bool
  | closing _ _ | closed _ => true
  | _ => false

/-- What the environment answers: for the factory, the sink of the channel, and a wait for the
connection. -/
structure Answers where
  creates : Bool
  sinkTakes : Bool
  connects : Bool
  deriving DecidableEq

/-- The manager with the channels it created, those listened to and those closed, and its suspended
operations. -/
structure WebSocketConnectionManager where
  created : Nat
  listened : List Nat
  closedChannels : List Nat
  channel : Option Nat
  channelSubscription : Option Nat
  state : ConnectionState
  reconnectAttempts : Nat
  shouldReconnect : Bool
  heartbeatTimer : Bool
  lastActivityAt : Option Nat
  now : Nat
  operations : List Operation
  sent : List (Nat × String)
  delivered : List (Nat × String)
  deriving DecidableEq

namespace WebSocketConnectionManager

def fresh : WebSocketConnectionManager where
  created := 0
  listened := []
  closedChannels := []
  channel := none
  channelSubscription := none
  state := .disconnected
  reconnectAttempts := 0
  shouldReconnect := true
  heartbeatTimer := false
  lastActivityAt := none
  now := 0
  operations := []
  sent := []
  delivered := []

/-! ### Operations -/

variable (config : WebSocketConfig) (manager : WebSocketConnectionManager)

def suspend (operation : Operation) : WebSocketConnectionManager :=
  { manager with operations := manager.operations ++ [operation] }

def cancelSubscription : WebSocketConnectionManager :=
  { manager with
    listened := match manager.channelSubscription with
      | none => manager.listened
      | some channel => manager.listened.filter fun other => other ≠ channel
    channelSubscription := none }

/-- `_doConnect`, which listens to a new channel and holds it in place of any other. -/
def doConnect (creates : Bool) : WebSocketConnectionManager × Bool :=
  if creates then
    ({ manager with
        created := manager.created + 1
        listened := manager.created :: manager.listened
        channel := some manager.created
        channelSubscription := some manager.created
        state := .connected
        reconnectAttempts := 0
        lastActivityAt := some manager.now
        heartbeatTimer := manager.heartbeatTimer || decide (config.heartbeatInterval ≠ 0) }, true)
  else ({ manager with state := .disconnected }, false)

def connect (creates : Bool) : WebSocketConnectionManager :=
  match manager.state with
  | .disconnected => ({ manager with shouldReconnect := true }.doConnect config creates).1
  | _ => manager

def handleDisconnect : WebSocketConnectionManager :=
  { manager.cancelSubscription with
    heartbeatTimer := false
    channel := none
    state := .disconnected }

def closeChannel (reopens : Bool) : WebSocketConnectionManager :=
  match manager.channel with
  | none => manager.cancelSubscription.suspend (.closed reopens)
  | some channel =>
      { manager.cancelSubscription with
        closedChannels := channel :: manager.closedChannels }.suspend (.closing channel reopens)

def disconnect : WebSocketConnectionManager :=
  { manager with
    shouldReconnect := false
    heartbeatTimer := false }.closeChannel false

def reconnect : WebSocketConnectionManager :=
  { manager with
    reconnectAttempts := 0
    shouldReconnect := true }.closeChannel true

def doSend (message : String) (sinkTakes : Bool) : WebSocketConnectionManager :=
  match manager.channel with
  | none => manager
  | some channel =>
      if sinkTakes then { manager with sent := (channel, message) :: manager.sent }
      else manager.handleDisconnect

def backoffDelay (attempts : Nat) : Nat :=
  min (config.baseReconnectDelay * 2 ^ min attempts 8) config.maxReconnectDelay

def tryReconnect (message : String) : WebSocketConnectionManager :=
  if manager.shouldReconnect && manager.state = .disconnected then
    if config.maxReconnectAttempts ≤ manager.reconnectAttempts then
      manager.suspend (.reconnected message false)
    else
      { manager with reconnectAttempts := manager.reconnectAttempts + 1 }.suspend (.backoff message
        (manager.now + backoffDelay config manager.reconnectAttempts))
  else manager.suspend (.reconnected message (manager.state = .connected))

/-- The part of `send` after a reconnection. -/
def sendConnected (message : String) (sinkTakes : Bool) : WebSocketConnectionManager :=
  if manager.state = .connecting then manager.suspend (.waiting message)
  else manager.doSend message sinkTakes

def send (message : String) (sinkTakes : Bool) : WebSocketConnectionManager :=
  if manager.state = .disconnected then manager.tryReconnect config message
  else manager.sendConnected message sinkTakes

def resume (answers : Answers) : Operation → WebSocketConnectionManager
  | .backoff message _ =>
      -- it looks at whether to reconnect, not at whether another send has
      if manager.shouldReconnect then
        let (attempt, connected) := manager.doConnect config answers.creates
        attempt.suspend (.attempted message connected)
      else manager.suspend (.reconnected message false)
  | .attempted message connected =>
      if connected then manager.suspend (.reconnected message true)
      else manager.tryReconnect config message
  | .reconnected message connected =>
      if connected then manager.sendConnected message answers.sinkTakes else manager
  | .waiting message => manager.suspend (.waited message answers.connects)
  | .waited message connected =>
      if connected then manager.doSend message answers.sinkTakes else manager
  | .closing _ reopens =>
      -- the channel held now may be another one than was closed
      { manager with channel := none }.suspend (.closed reopens)
  | .closed reopens =>
      let closed := { manager with state := .disconnected }
      if reopens then (closed.doConnect config answers.creates).1 else closed

def idle : Bool :=
  decide (config.idleTimeout ≠ 0) && manager.lastActivityAt.any fun activity =>
    decide (config.idleTimeout < manager.now - activity)

def onHeartbeat : WebSocketConnectionManager :=
  if manager.state = .connected && manager.idle config then manager.handleDisconnect else manager

def onMessage (channel : Nat) (message : String) : WebSocketConnectionManager :=
  { manager with
    lastActivityAt := some manager.now
    delivered := (channel, message) :: manager.delivered }

def onStreamDone (channel : Nat) : WebSocketConnectionManager :=
  { manager with
    listened := manager.listened.filter fun other => other ≠ channel
    closedChannels := channel :: manager.closedChannels }.handleDisconnect

/-! ### Steps -/

inductive ManagerAction where
  | connect (creates : Bool)
  | send (message : String) (sinkTakes : Bool)
  | disconnect
  | reconnect
  | resume (place : Nat) (answers : Answers)
  | heartbeat
  | message (channel : Nat) (message : String)
  | streamError (channel : Nat)
  | streamDone (channel : Nat)
  | advance (duration : Nat)
  deriving DecidableEq

/-- An operation can resume: a backoff once its delay is over. -/
def ready (now : Nat) : Operation → Bool
  | .backoff _ endsAt => decide (endsAt ≤ now)
  | _ => true

/-- One operation up to its next suspension. Messages and errors reach the manager while it listens.
-/
def managerStep (config : WebSocketConfig) (manager : WebSocketConnectionManager) :
    ManagerAction → Option WebSocketConnectionManager
  | .connect creates => some (manager.connect config creates)
  | .send message sinkTakes => some (manager.send config message sinkTakes)
  | .disconnect => some manager.disconnect
  | .reconnect => some manager.reconnect
  | .resume place answers =>
      match manager.operations[place]? with
      | some operation =>
          if ready manager.now operation then
            some ({ manager with
              operations := manager.operations.eraseIdx place }.resume config answers operation)
          else none
      | none => none
  | .heartbeat => if manager.heartbeatTimer then some (manager.onHeartbeat config) else none
  | .message channel message =>
      if channel ∈ manager.listened then some (manager.onMessage channel message) else none
  | .streamError channel =>
      if channel ∈ manager.listened then some manager.handleDisconnect else none
  | .streamDone channel =>
      if channel ∈ manager.listened then some (manager.onStreamDone channel) else none
  | .advance duration => some { manager with now := manager.now + duration }

end WebSocketConnectionManager

end Divine.NostrSdk
