/-
This file embeds the manager of the relays of a client: the configured relays, their
statuses, the pool that connects them, and the storage that keeps the list.
-/

import Divine.Library.Dictionary
import Divine.Library.Interleaving
import Mathlib.Data.List.Infix

namespace Divine.NostrClient

open Dictionary Interleaving

/-! ### Addresses -/

/-- The letters that are trimmed: white space and the byte order mark. -/
def isBlank (letter : Char) : Bool :=
  letter.toNat ∈ [0x20, 0x85, 0xA0, 0x1680, 0x2028, 0x2029, 0x202F, 0x205F, 0x3000, 0xFEFF] ||
    (0x09 ≤ letter.toNat && letter.toNat ≤ 0x0D) ||
    (0x2000 ≤ letter.toNat && letter.toNat ≤ 0x200A)

def trim (text : List Char) : List Char :=
  ((text.dropWhile isBlank).reverse.dropWhile isBlank).reverse

/-- The default relay, and the host that `Uri.parse` finds in an address, unless it throws. -/
structure RelayManagerConfig where
  defaultRelayUrl : String
  host : String → Option String

def blockedRelayHosts : List String := ["index.coracle.social"]

namespace RelayManagerConfig

variable (config : RelayManagerConfig)

def isBlockedRelay (url : String) : Bool := (config.host url).any (· ∈ blockedRelayHosts)

def withScheme (text : List Char) : List Char :=
  if "wss://".toList.isPrefixOf text || "ws://".toList.isPrefixOf text then text
  else "wss://".toList ++ text

def withoutSlash (text : List Char) : List Char :=
  if text.getLast? = some '/' then text.dropLast else text

def normalizeUrl (url : String) : Option String :=
  let normalized := String.ofList (withoutSlash (withScheme (trim url.toList)))
  (config.host normalized).bind fun host => if host = "" then none else some normalized

end RelayManagerConfig

/-! ### State -/

inductive RelayState where
  | disconnected
  | connecting
  | connected
  | authenticated
  | error
  deriving DecidableEq

def RelayState.isConnected : RelayState → Bool
  | connected | authenticated => true
  | disconnected | connecting | error => false

/-- Where a call is held up: while the storage loads, while it saves, or while it connects, with the
relays to connect next. -/
inductive ManagerCall where
  | loading
  | loaded (savedRelays : List String)
  | savingFiltered
  | connecting (relaysToConnect : List String)
  | adding (url : String)
  | saving
  | reconnecting (url : String)
  | looping (url : String) (rest : List String)
  deriving DecidableEq

/-- The manager with the pool and the list in the storage, and whether the list was changed since it
was saved. -/
structure RelayManager where
  configuredRelays : List String
  relayStatuses : List (String × RelayState)
  initialized : Bool
  pool : List String
  storage : Option (List String)
  unsaved : Bool
  calls : List ManagerCall
  deriving DecidableEq

namespace RelayManager

def new (storage : Option (List String)) : RelayManager where
  configuredRelays := []
  relayStatuses := []
  initialized := false
  pool := []
  storage := storage
  unsaved := true
  calls := []

variable (config : RelayManagerConfig) (manager : RelayManager)

def updateRelayStatus (url : String) (state : RelayState) : RelayManager :=
  if (find manager.relayStatuses url).isSome then
    { manager with relayStatuses := put manager.relayStatuses url state }
  else manager

/-- The status after a connection that succeeded or failed. -/
def updateConnected (url : String) (success : Bool) : RelayManager :=
  manager.updateRelayStatus url (if success then .connected else .error)

def poolRemove (url : String) : RelayManager := { manager with pool := manager.pool.erase url }

def connectToRelay (url : String) : RelayManager :=
  let removed := manager.poolRemove url
  if url ∈ removed.pool then removed else { removed with pool := removed.pool ++ [url] }

def save : RelayManager :=
  { manager with
    storage := manager.storage.map fun _ => manager.configuredRelays
    unsaved := manager.unsaved && manager.storage.isNone }

def savingCall : Option ManagerCall := manager.storage.map fun _ => .saving

def call (stage : Option ManagerCall) : RelayManager :=
  { manager with calls := manager.calls ++ stage.toList }

/-! ### Initialization -/

def addDefault : RelayManager :=
  match config.normalizeUrl config.defaultRelayUrl with
  | none => manager
  | some normalizedDefault =>
      if normalizedDefault ∈ manager.configuredRelays then manager
      else
        { manager with
          configuredRelays := normalizedDefault :: manager.configuredRelays
          unsaved := true }

/-- `initialize` sets all statuses. -/
def resetStatuses : RelayManager :=
  { manager with
    relayStatuses :=
      manager.configuredRelays.foldl (fun statuses url => put statuses url .disconnected)
      manager.relayStatuses }

def connectToConfiguredRelays : RelayManager :=
  manager.configuredRelays.foldl connectToRelay
    (manager.configuredRelays.foldl (fun manager url => manager.updateRelayStatus url .connecting)
      manager)

/-- `initialize` after the storage, with where it is held up. -/
def startConnecting : RelayManager × Option ManagerCall :=
  let reset := (manager.addDefault config).resetStatuses
  (reset.connectToConfiguredRelays, some (.connecting reset.configuredRelays))

/-- A relay of the storage is added unless it is blocked or there. -/
def addLoaded (url : String) : RelayManager :=
  match config.normalizeUrl url with
  | none => manager
  | some normalized =>
      if config.isBlockedRelay normalized || normalized ∈ manager.configuredRelays then manager
      else
        { manager with
          configuredRelays := manager.configuredRelays ++ [normalized]
          unsaved := true }

def isBlockedUrl (url : String) : Bool := (config.normalizeUrl url).any config.isBlockedRelay

def addAllLoaded (savedRelays : List String) : RelayManager × Option ManagerCall :=
  let added := savedRelays.foldl (addLoaded config) manager
  if savedRelays.any (isBlockedUrl config) then (added, some .savingFiltered)
  else added.startConnecting config

/-- `initialize` up to its first await. -/
def startInitialize : RelayManager :=
  if manager.initialized then manager
  else if manager.storage.isSome then manager.call (some .loading)
  else (manager.startConnecting config).1.call (manager.startConnecting config).2

/-! ### Relays -/

def addRelay (url : String) : RelayManager :=
  match config.normalizeUrl url with
  | none => manager
  | some normalizedUrl =>
      if config.isBlockedRelay normalizedUrl || normalizedUrl ∈ manager.configuredRelays then
        manager
      else
        ({ manager with
          configuredRelays := manager.configuredRelays ++ [normalizedUrl]
          relayStatuses := put manager.relayStatuses normalizedUrl .connecting }.connectToRelay
            normalizedUrl).call (some (.adding normalizedUrl))

def removeRelay (url : String) : RelayManager :=
  match config.normalizeUrl url with
  | none => manager
  | some normalizedUrl =>
      if normalizedUrl ∉ manager.configuredRelays then manager
      else
        { manager.poolRemove normalizedUrl with
          configuredRelays := manager.configuredRelays.erase normalizedUrl
          relayStatuses := remove manager.relayStatuses normalizedUrl }.call manager.savingCall

def reconnectRelay (url : String) : RelayManager :=
  match config.normalizeUrl url with
  | none => manager
  | some normalizedUrl =>
      if normalizedUrl ∉ manager.configuredRelays then manager
      else
        (((manager.updateRelayStatus normalizedUrl .connecting).poolRemove
          normalizedUrl).connectToRelay normalizedUrl).call (some (.reconnecting normalizedUrl))

def connectNext : List String → RelayManager × Option ManagerCall
  | [] => (manager, none)
  | url :: rest => (manager.connectToRelay url, some (.looping url rest))

def checkRelayHealth (unhealthy : List String) : RelayManager :=
  (manager.configuredRelays.filter fun url => url ∈ manager.pool ∧ url ∈ unhealthy).foldl
    (fun manager url => manager.updateRelayStatus url .disconnected) manager

/-- The configured relays with a status that is not one of a connection. -/
def disconnectedRelays : List String :=
  manager.configuredRelays.filter fun url =>
    (find manager.relayStatuses url).any fun state => !state.isConnected

def retryDisconnectedRelays (unhealthy : List String) : RelayManager :=
  let checked := manager.checkRelayHealth unhealthy
  let marked := checked.disconnectedRelays.foldl
    (fun manager url => manager.updateRelayStatus url .connecting) checked
  (marked.connectNext checked.disconnectedRelays).1.call
    (marked.connectNext checked.disconnectedRelays).2

def forceReconnectAll : RelayManager :=
  let removed := manager.configuredRelays.foldl
    (fun manager url => (manager.poolRemove url).updateRelayStatus url .connecting) manager
  (removed.connectNext manager.configuredRelays).1.call
    (removed.connectNext manager.configuredRelays).2

def syncStatusFromRelayPool (states : String → RelayState) : RelayManager :=
  manager.configuredRelays.foldl (fun current url => current.updateRelayStatus url
    (if url ∈ manager.pool then states url else .disconnected)) manager

/-! ### Steps -/

/-- A call from one await to the next; what connects succeeds or not. -/
def resume (successes : String → Bool) : ManagerCall → RelayManager × Option ManagerCall
  | .loading => (manager, some (.loaded (manager.storage.getD [])))
  | .loaded savedRelays => manager.addAllLoaded config savedRelays
  | .savingFiltered => manager.save.startConnecting config
  | .connecting relaysToConnect =>
      ({ relaysToConnect.foldl (fun manager url => manager.updateConnected url (successes url))
          manager with initialized := true }, none)
  | .adding url => (manager.updateConnected url (successes url), manager.savingCall)
  | .saving => (manager.save, none)
  | .reconnecting url => (manager.updateConnected url (successes url), none)
  | .looping url rest => (manager.updateConnected url (successes url)).connectNext rest

end RelayManager

inductive ManagerAction where
  | startInitialize
  | addRelay (url : String)
  | removeRelay (url : String)
  | reconnectRelay (url : String)
  | retryDisconnectedRelays (unhealthy : List String)
  | forceReconnectAll
  | syncStatus (states : String → RelayState)
  | resume (position : Nat) (successes : String → Bool)

def managerStep (config : RelayManagerConfig) (manager : RelayManager) :
    ManagerAction → Option RelayManager
  | .startInitialize => some (manager.startInitialize config)
  | .addRelay url => some (manager.addRelay config url)
  | .removeRelay url => some (manager.removeRelay config url)
  | .reconnectRelay url => some (manager.reconnectRelay config url)
  | .retryDisconnectedRelays unhealthy => some (manager.retryDisconnectedRelays unhealthy)
  | .forceReconnectAll => some manager.forceReconnectAll
  | .syncStatus states => some (manager.syncStatusFromRelayPool states)
  | .resume position successes => manager.calls[position]?.map fun call =>
      let resumed := manager.resume config successes call
      { resumed.1 with calls := proceed resumed.1.calls position resumed.2 }

end Divine.NostrClient
